import ByeMachine.Invariants.Traces
import ByeMachine.Properties.PoolLog
import ByeMachine.Properties.RollLedger
import ByeMachine.Properties.Solvency
import ByeMachine.Refinement.Cards
import ByeMachine.Refinement.Payments

/-!
# The vault and the log

The log says what was paid into a pool's vault and what was paid out of it. The
vault holds at least the difference, and what was paid out went to token
accounts of the depositors, who signed for it. A settlement writes the pool's
ledger only: none here debits a vault.
-/

namespace ByeMachine

open Fallible

def Event.paidIn (key : Pubkey) : Event → ℕ
  | .batchCommitted pool _ _ _ n sPrice .. => if pool = key then n * sPrice else 0
  | _ => 0

def Event.paidOut (key : Pubkey) : Event → ℕ
  | .withdrawn pool _ _ _ feesPaid => if pool = key then feesPaid else 0
  | _ => 0

def totalPaidIn (key : Pubkey) (events : List Event) : ℕ := (events.map (Event.paidIn key)).sum

def totalPaidOut (key : Pubkey) (events : List Event) : ℕ := (events.map (Event.paidOut key)).sum

variable {X : Programs} {clock : Clock} {c c' c₀ : Chain} {events more : List Event} {instr : Instr}
  {e : Event} {key poolKey k : Pubkey} {pool : Pool}

-- ---------------------------------------------------------------------------
-- Events
-- ---------------------------------------------------------------------------

@[simp] theorem totalPaidIn_append :
    totalPaidIn key (events ++ more) = totalPaidIn key events + totalPaidIn key more := by
  simp [totalPaidIn]

@[simp] theorem totalPaidOut_append :
    totalPaidOut key (events ++ more) = totalPaidOut key events + totalPaidOut key more := by
  simp [totalPaidOut]

theorem paidIn_of_kind (h : e.kind ≠ .batchCommitted) : e.paidIn key = 0 := by
  cases e <;> first | rfl | exact absurd rfl h

theorem paidOut_pos {n : ℕ} (hpos : 0 < n) (h : e.paidOut key = n) :
    ∃ slot position owner, e = .withdrawn key slot position owner n := by
  cases e with
  | withdrawn pool slot position owner fees =>
    by_cases hpool : pool = key
    · obtain rfl : fees = n := by simpa [Event.paidOut, hpool] using h
      exact ⟨slot, position, owner, by rw [hpool]⟩
    · simp only [Event.paidOut, if_neg hpool] at h
      omega
  | _ =>
    simp only [Event.paidOut] at h
    omega

theorem totalPaidIn_of_kind (h : ∀ e ∈ events, e.kind ≠ .batchCommitted) :
    totalPaidIn key events = 0 := by
  rw [totalPaidIn, List.sum_eq_zero]
  intro n hn
  obtain ⟨e, he, rfl⟩ := List.mem_map.mp hn
  exact paidIn_of_kind (h e he)

theorem exec_paidIn (h : exec X clock c instr = .ok (c', events))
    (hquiet : .batchCommitted ∉ instr.publishes) : totalPaidIn key events = 0 :=
  totalPaidIn_of_kind fun _ he hkind => hquiet (hkind ▸ exec_publishes h he)

-- ---------------------------------------------------------------------------
-- One instruction
-- ---------------------------------------------------------------------------

theorem Keeps.vaultAmount (h : Keeps c.tokens c'.tokens (.principalVault key)) :
    c.vaultAmount key ≤ c'.vaultAmount key := by
  unfold Chain.vaultAmount
  cases hfound : c.tokens.lookup (.principalVault key) with
  | none => exact Nat.zero_le _
  | some account =>
    obtain ⟨account', hfound', -, -, hle⟩ := h account hfound
    rw [hfound']
    exact hle

def Instr.withdraws : Instr → Bool
  | .withdraw .. | .withdrawCore .. => true
  | _ => false

theorem FeesPaid.none {tokens paid : Tokens} (h : FeesPaid tokens instr paid)
    (hstays : instr.withdraws = false) : paid = tokens := by
  cases h with
  | withdraw | withdrawCore => cases hstays
  | claimNft | claimNftCore | returnRejected | returnRejectedCore => rfl

theorem CardMove.keeps_vault (hwf : c.WellFormed) (hpool : c.pools.lookup key = some pool)
    (h : CardMove X c c' instr) (hstays : instr.withdraws = false) :
    Keeps c.tokens c'.tokens (.principalVault key) := by
  have hsigner : ∀ {t : Tokens} {signer : Pubkey}, Keeps c.tokens t (.principalVault key) →
      signer.canSign = true → ∀ account, t.lookup (.principalVault key) = some account →
      account.owner ≠ signer := fun hkeeps hsign =>
    hwf.not_owner hpool hkeeps (Pubkey.ne_pool_of_canSign hsign)
  cases h with
  | idle _ _ htokens => exact htokens ▸ Keeps.refl _ _
  | founded hkeeps => exact hkeeps _
  | committed hsign hpaid => exact splTransfer_keeps hpaid (hsigner (Keeps.refl _ _) hsign)
  | taken hsign _ _ hinit hcustody =>
    have hinits := initToken_keeps hinit (.principalVault key)
    exact hinits.trans (takeCustody_keeps hcustody (hsigner hinits hsign))
  | takenCore _ _ _ _ htokens => exact htokens ▸ Keeps.refl _ _
  | released _ _ hp _ hfees hrelease =>
    rw [hfees.none hstays] at hrelease
    exact hwf.released hrelease (hwf.positionKey _ _ hp) key pool hpool
  | releasedCore _ _ _ _ hfees => exact hfees.none hstays ▸ Keeps.refl _ _

theorem commitRolls_vault {roller rollerUsdc : Pubkey} {n : ℕ} (hwf : c.WellFormed)
    (hpool : c.pools.lookup key = some pool)
    (h : commitRolls X clock c roller poolKey rollerUsdc n = .ok (c', events)) :
    c.vaultAmount key + totalPaidIn key events ≤ c'.vaultAmount key := by
  obtain ⟨_, found, pool', _, _, _, _, liability, tokens, _, hcommit⟩ := commitRolls_ok h
  obtain ⟨-, rfl⟩ := applyCommit_terms hcommit.commits
  obtain ⟨-, -, -, hpool'⟩ := applyCommit_ok hcommit.commits
  have howner := hwf.not_owner hpool (Keeps.refl _ _)
    (Pubkey.ne_pool_of_canSign hcommit.signs)
  have hkeeps := splTransfer_keeps hcommit.pays howner
  have htokens : c'.tokens = tokens := by rw [hcommit.after]
  rw [← htokens] at hkeeps
  rw [hcommit.published]
  by_cases hkey : poolKey = key
  · subst hkey
    have hne : rollerUsdc ≠ .principalVault poolKey := by
      rintro rfl
      exact howner _ hcommit.funds hcommit.owner
    obtain ⟨account, hfound, hcredited⟩ := splTransfer_credit hcommit.pays hne
    rw [← htokens] at hcredited
    simp only [Chain.vaultAmount, hfound, hcredited, Option.map_some, Option.getD_some,
      totalPaidIn, List.map_cons, List.map_nil, List.sum_singleton, Event.paidIn, if_true, hpool']
    rfl
  · have hbalance := hkeeps.vaultAmount
    simpa [totalPaidIn, Event.paidIn, hkey] using hbalance

theorem withdrawAccounting_vault {depositor : Pubkey} {depositorUsdc : Option Pubkey}
    {remaining : List AccountMeta} {a : Loaded} {paid : Chain} {u : Unit} (hwf : c.WellFormed)
    (hpool : c.pools.lookup key = some pool) (hsign : depositor.canSign = true)
    (ha : loadThroughPool c poolKey k = .ok a)
    (hcheck : checkDepositorUsdc c poolKey depositor depositorUsdc = .ok u)
    (h : withdrawAccounting clock c poolKey k depositorUsdc remaining a = .ok (paid, events)) :
    c.vaultAmount key ≤ paid.vaultAmount key + totalPaidOut key events ∧
      ∀ account, paid.tokens.lookup (.principalVault key) = some account → account.owner = key := by
  obtain ⟨L, p, stats, rfl, hL, -⟩ := hwf.loadThroughPool ha
  obtain ⟨booked, _, _, _, _, change, tokens, haccounting⟩ := withdrawAccounting_ok h
  obtain ⟨hle, hcustody⟩ := payFees_custody hwf hL hsign hcheck haccounting.pays
  have hmoved := hcustody paid (by rw [haccounting.after]) (by rw [haccounting.after])
  have hout : totalPaidOut key events = if poolKey = key then booked.effect.feesPaid else 0 := by
    rw [haccounting.published]
    cases change <;> simp [totalPaidOut, Event.paidOut, tierEvents]
  by_cases hkey : key = poolKey
  · subst hkey
    obtain ⟨vault, hvault, -, hamount⟩ := hwf.vault hL
    obtain ⟨vault', hvault', howner', hamount'⟩ := hmoved.vault
    refine ⟨?_, fun account haccount => ?_⟩
    · simp only [Chain.vaultAmount, hvault, hvault', Option.map_some, Option.getD_some, hout,
        if_true, hamount, hamount']
      omega
    · rw [hvault', Option.some.injEq] at haccount
      rw [← haccount, howner']
  · have hkeeps := hmoved.vaults key pool hkey hpool
    refine ⟨hkeeps.vaultAmount.trans (Nat.le_add_right _ _), fun account haccount => ?_⟩
    rw [hwf.vaultOwner_of_keeps hpool hkeeps haccount, ← hwf.poolKey key pool hpool]

theorem release_vault {p : Position} {payer : Pubkey} {accounts : ReleaseAccounts} {paid : Chain}
    {tokens : Tokens} {externals externals' : Externals} (hkey : key = .pool pool.poolId)
    (hk : k = .position poolKey p.nftMint)
    (howner : ∀ account, paid.tokens.lookup (.principalVault key) = some account →
      account.owner = key)
    (h : releaseAndClose X p k payer accounts paid.tokens externals = .ok (tokens, externals')) :
    Keeps paid.tokens tokens (.principalVault key) := by
  refine releaseAndClose_keeps h (by simp) fun account haccount => ?_
  rw [howner account haccount, hkey, hk]
  simp

/-- One instruction: a vault holds what it held and what the events say it received, less what they
say it paid. -/
theorem exec_vault (hwf : c.WellFormed) (hpool : c.pools.lookup key = some pool)
    (h : exec X clock c instr = .ok (c', events)) :
    c.vaultAmount key + totalPaidIn key events ≤
      c'.vaultAmount key + totalPaidOut key events := by
  have hmove := exec_cardMove h
  have hkey := hwf.poolKey key pool hpool
  cases instr with
  | commitRolls roller poolKey rollerUsdc n =>
    exact (commitRolls_vault hwf hpool h).trans (Nat.le_add_right _ _)
  | withdraw depositor poolKey k depositorUsdc remaining accounts =>
    have hsilent : totalPaidIn key events = 0 := exec_paidIn h (by simp [Instr.publishes])
    obtain ⟨a, paid, tokens, externals, hwithdraw⟩ := withdraw_ok h
    obtain ⟨hpaid, howner⟩ := withdrawAccounting_vault hwf hpool hwithdraw.signs hwithdraw.loads
      hwithdraw.payout hwithdraw.accounts
    have hkeeps := release_vault hkey (loadThroughPool_ok hwithdraw.loads).2.2 howner
      hwithdraw.releases
    have htokens : c'.tokens = tokens := by rw [hwithdraw.after]
    rw [← htokens] at hkeeps
    have hbalance := hkeeps.vaultAmount
    omega
  | withdrawCore depositor poolKey k depositorUsdc collection remaining =>
    have hsilent : totalPaidIn key events = 0 := exec_paidIn h (by simp [Instr.publishes])
    obtain ⟨a, named, paid, externals, hwithdraw⟩ := withdrawCore_ok h
    obtain ⟨hpaid, -⟩ := withdrawAccounting_vault hwf hpool hwithdraw.signs hwithdraw.loads
      hwithdraw.payout hwithdraw.accounts
    have hbalance : c'.vaultAmount key = paid.vaultAmount key := by rw [hwithdraw.after]; rfl
    omega
  | _ =>
    have hsilent : totalPaidIn key events = 0 := exec_paidIn h (by simp [Instr.publishes])
    have hbalance := (hmove.keeps_vault hwf hpool rfl).vaultAmount
    omega

theorem exec_paidIn_none (hpool : c.pools.lookup key = none)
    (h : exec X clock c instr = .ok (c', events)) : totalPaidIn key events = 0 := by
  cases instr with
  | commitRolls roller poolKey rollerUsdc n =>
    obtain ⟨_, found, _, _, _, _, _, _, _, _, hcommit⟩ := commitRolls_ok h
    have hne : poolKey ≠ key := by
      rintro rfl
      rw [(loadPool_ok.mp hcommit.loads).1] at hpool
      cases hpool
    rw [hcommit.published]
    simp [totalPaidIn, Event.paidIn, hne]
  | _ => exact exec_paidIn h (by simp [Instr.publishes])

-- ---------------------------------------------------------------------------
-- Every run
-- ---------------------------------------------------------------------------

variable {may : Ledger → Settlement → Prop} {entries past since : List Entry} {entry : Entry}

theorem exec_pool_some (hsound : c.Sound) (h : exec X clock c instr = .ok (c', events))
    (hpool : c.pools.lookup key = some pool) : ∃ pool', c'.pools.lookup key = some pool' := by
  obtain ⟨L, hL⟩ := hsound.wellFormed.ledger key pool hpool
  obtain ⟨L', hL', -⟩ := (exec_effect hsound.wellFormed hsound.ranked h).forward hsound.wellFormed
    (ledger_eq_some.mp hL)
  exact ⟨L'.pool, hL'.pool⟩

/-- What the run lemma carries: a vault covers what came in less what went out, and nothing came in
before the pool was there. -/
def Covered (key : Pubkey) (entries : List Entry) (c : Chain) : Prop :=
  totalPaidIn key (published entries) ≤ c.vaultAmount key + totalPaidOut key (published entries) ∧
    (c.pools.lookup key = none → totalPaidIn key (published entries) = 0)

theorem Covered.exec (hsound : c.Sound) (hcovered : Covered key entries c)
    (h : exec X clock c instr = .ok (c', events)) :
    Covered key (entries ++ [⟨clock, instr, events⟩]) c' := by
  obtain ⟨hle, hnone⟩ := hcovered
  have hpublished : published (entries ++ [⟨clock, instr, events⟩]) = published entries ++ events := by
    simp [published]
  rw [Covered, hpublished, totalPaidIn_append, totalPaidOut_append]
  cases hpool : c.pools.lookup key with
  | some pool =>
    have hvault := exec_vault hsound.wellFormed hpool h
    obtain ⟨pool', hpool'⟩ := exec_pool_some hsound h hpool
    refine ⟨by omega, fun hgone => ?_⟩
    rw [hpool'] at hgone
    cases hgone
  | none =>
    have hbefore := hnone hpool
    have hnow := exec_paidIn_none hpool h
    exact ⟨by omega, fun _ => by omega⟩

theorem Trace.covered (hgenesis : Genesis c₀) (htrace : Trace X may c₀ entries c) :
    Covered key entries c := by
  induction htrace with
  | start => exact ⟨Nat.zero_le _, fun _ => rfl⟩
  | instruction htrace clock instr events hrun ih => exact ih.exec (htrace.sound hgenesis) hrun
  | @elsewhere entries c htrace tokens externals huntouched ih =>
    obtain ⟨hle, hnone⟩ := ih
    have hkeeps : Keeps c.tokens { c with tokens, externals }.tokens (.principalVault key) :=
      huntouched key
    exact ⟨hle.trans (Nat.add_le_add_right hkeeps.vaultAmount _), hnone⟩
  | @settle entries c k L s htrace hL hmay ih =>
    obtain ⟨hle, hnone⟩ := ih
    have hamount : (c.settle k s).vaultAmount key = c.vaultAmount key := by
      rw [Chain.vaultAmount, settle_tokens, Chain.vaultAmount]
    refine ⟨hamount.symm ▸ hle, fun hgone => hnone ?_⟩
    have hkept : ((c.settle k s).pools.lookup key).map Pool.told
        = (c.pools.lookup key).map Pool.told := settle_told hL
    rw [hgone, Option.map_none, eq_comm, Option.map_eq_none_iff] at hkept
    exact hkept

/-- Over every run, settlements included, a pool's vault holds at least what the log says it
received less what it says was paid out of it; and whoever it says was paid had signed that very
instruction, and wherever it ran a USDC account of theirs was credited by it. -/
theorem vault_log (hgenesis : Genesis c₀) (htrace : Trace X may c₀ entries c) (key : Pubkey) :
    totalPaidIn key (published entries) ≤
        c.vaultAmount key + totalPaidOut key (published entries) ∧
      ∀ past entry since slot position owner fees, entries = past ++ entry :: since →
        .withdrawn key slot position owner fees ∈ entry.events →
        entry.instr.signer = owner ∧
        (∃ before after, Trace X may c₀ past before ∧
          exec X entry.clock before entry.instr = .ok (after, entry.events) ∧
          Trace X may after since c) ∧
        ∀ before after, Trace X may c₀ past before →
          exec X entry.clock before entry.instr = .ok (after, entry.events) →
          0 < fees → Credited key owner fees before after := by
  refine ⟨htrace.covered hgenesis |>.1, ?_⟩
  rintro past entry since slot position owner fees rfl hevent
  obtain ⟨before, after, hpast, hrun, hsince⟩ := htrace.split
  have hpays := fun before after (hpast : Trace X may c₀ past before)
      (hrun : exec X entry.clock before entry.instr = .ok (after, entry.events)) =>
    exec_paysDepositor (hpast.sound hgenesis).wellFormed hrun hevent
  exact ⟨(hpays before after hpast hrun).1, ⟨before, after, hpast, hrun, hsince⟩,
    fun before after hpast hrun => (hpays before after hpast hrun).2⟩

/-- The bank's depositor is owed eight units, signs for them and is credited. -/
theorem vault_log_bank : ∃ entries before c entry, ∃ c₀, Genesis c₀ ∧
    Trace bank (fun _ _ => True) c₀ (entries ++ [entry]) c ∧
    totalPaidIn (.pool 0) (published (entries ++ [entry])) ≤
      c.vaultAmount (.pool 0) + totalPaidOut (.pool 0) (published (entries ++ [entry])) ∧
    entry.instr.signer = .key 20 ∧ Credited (.pool 0) (.key 20) 8 before c := by
  have howing : SettlingReachable bank (fun _ _ => True) bankOwing :=
    bankRun_settled (by decide +kernel) (by decide +kernel) fun _ => trivial
  obtain ⟨c₀, hgenesis, hsteps⟩ := howing
  obtain ⟨entries, htrace⟩ := Trace.exists hsteps
  obtain ⟨events, hrun⟩ := exec_after (X := bank) (c := bankOwing) (s := withdrawCard 30)
    (by decide +kernel)
  have hpays : (exec bank ⟨5, 200⟩ bankOwing (withdrawCard 30).2).toOption.any (fun r =>
      r.2.any fun e => e.paidOut (.pool 0) = 8) = true := by decide +kernel
  rw [show exec bank ⟨5, 200⟩ bankOwing (withdrawCard 30).2 = _ from hrun] at hpays
  simp only [Except.toOption, Option.any_some, List.any_eq_true, decide_eq_true_eq] at hpays
  obtain ⟨e, hevent, hpaid⟩ := hpays
  obtain ⟨slot, position, owner, rfl⟩ := paidOut_pos (n := 8) (by omega) hpaid
  have hend := htrace.instruction _ _ _ hrun
  obtain ⟨hcovers, hpayments⟩ := vault_log hgenesis hend (.pool 0)
  obtain ⟨hsigner, -, hcredited⟩ := hpayments entries _ [] slot position owner 8 rfl hevent
  obtain rfl : owner = .key 20 := hsigner.symm
  exact ⟨entries, _, _, _, c₀, hgenesis, hend, hcovers, rfl,
    hcredited _ _ htrace hrun (by decide)⟩

end ByeMachine
