import ByeMachine.Properties.Lifecycle
import ByeMachine.Refinement.Cards
import ByeMachine.Script

/-!
# Custody

From its deposit until its position closes a card lies in that position's vault.
The only instruction that takes it out is the exit that closes the position, and
that one hands it to the recorded depositor.
-/

namespace ByeMachine

open Fallible

/-- What the other programs' documentation says of the owners of Core assets. -/
structure Documented (X : Programs) : Prop where
  /-- A Core transfer on the owner's authority names the new owner. -/
  moves : ∀ call e e', X.transferCore call e = some e' →
    coreOwner X (e call.asset) = some call.authority →
      coreOwner X (e' call.asset) = some call.newOwner
  /-- It changes no other asset's owner. -/
  others : ∀ call e e' key, X.transferCore call e = some e' → key ≠ call.asset →
    coreOwner X (e' key) = coreOwner X (e key)
  /-- Token Metadata and the randomness provider write no Core asset. -/
  pnft : ∀ call e e' key, X.transferPnft call e = some e' →
    coreOwner X (e' key) = coreOwner X (e key)
  randomness : ∀ request e e' key, X.requestRandomness request e = some e' →
    coreOwner X (e' key) = coreOwner X (e key)

/-- The card of `p` lies in the vault of the position at `k`. -/
inductive InVault (X : Programs) (c : Chain) (k : Pubkey) (p : Position) : Prop where
  | token {account : TokenAccount}
      (hstandard : p.standard = STANDARD_PNFT ∨ p.standard = STANDARD_LEGACY)
      (hfound : c.tokens.lookup (.positionVault k) = some account)
      (hmint : account.mint = p.nftMint) (howner : account.owner = k)
      (hamount : 1 ≤ account.amount)
  | core (hstandard : p.standard = STANDARD_CORE)
      (howner : coreOwner X (c.externals p.nftMint) = some (.positionVault k))

/-- The card of `p` went from the vault of the position at `k` to the depositor, by the
instruction's own standard and nothing else with it but a withdrawal's fees. -/
inductive PaidOut (X : Programs) (c c' : Chain) (k : Pubkey) (p : Position) (instr : Instr) :
    Prop where
  | token {destination : Pubkey} {paid : Tokens}
      (hstandard : p.standard = STANDARD_PNFT ∨ p.standard = STANDARD_LEGACY)
      (hcard : instr.cardTo = some destination) (hfees : FeesPaid c.tokens instr paid)
      (hmoved : UnitMoved paid c'.tokens (.positionVault k) destination p.depositor)
      (hlegacy : p.standard = STANDARD_LEGACY →
        destination = X.associatedTokenAddress p.depositor p.nftMint)
      (hothers : ∀ key, coreOwner X (c'.externals key) = coreOwner X (c.externals key))
  | core (hstandard : p.standard = STANDARD_CORE) (hfees : FeesPaid c.tokens instr c'.tokens)
      (hfrom : coreOwner X (c.externals p.nftMint) = some (.positionVault k))
      (hto : coreOwner X (c'.externals p.nftMint) = some p.depositor)
      (hothers : ∀ key, key ≠ p.nftMint →
        coreOwner X (c'.externals key) = coreOwner X (c.externals key))

section Instruction

variable {X : Programs} {clock : Clock} {c c' : Chain} {events : List Event} {instr : Instr}
  {k : Pubkey} {p q : Position}

theorem InVault.of_same (h : InVault X c k p) (hsame : SameDeposit p q) : InVault X c k q := by
  cases h with
  | token hstandard hfound hmint howner hamount =>
    exact .token (by rwa [hsame.standard]) hfound (hmint.trans hsame.nftMint.symm) howner hamount
  | core hstandard howner =>
    exact .core (hsame.standard.trans hstandard) (by rwa [hsame.nftMint])

-- ---------------------------------------------------------------------------
-- Other positions' cards
-- ---------------------------------------------------------------------------

theorem FeesPaid.keeps {t paid : Tokens} (h : FeesPaid t instr paid) (k : Pubkey) :
    Keeps t paid (.positionVault k) := by
  have hpays : ∀ {pool : Pubkey} {depositorUsdc : Option Pubkey} {n : ℕ},
      payFees t pool depositorUsdc n = .ok paid → Keeps t paid (.positionVault k) := by
    intro pool depositorUsdc n hpaid
    unfold payFees at hpaid
    split at hpaid
    · simp only [bind_ok] at hpaid
      obtain ⟨_, -, htransfer⟩ := hpaid
      exact moveToken_keeps (splTransfer_move htransfer).1 (by simp)
    · obtain rfl := pure_ok.mp hpaid
      exact Keeps.refl _ _
  cases h with
  | withdraw hpaid | withdrawCore hpaid => exact hpays hpaid
  | claimNft | claimNftCore | returnRejected | returnRejectedCore => exact Keeps.refl _ _

/-- No instruction but its own exit debits the vault of a position. -/
theorem CardMove.keeps {account : TokenAccount} (h : CardMove X c c' instr)
    (hkey : k.canSign = false) (hexits : instr.exits ≠ some k)
    (hfound : c.tokens.lookup (.positionVault k) = some account) (howner : account.owner = k) :
    Keeps c.tokens c'.tokens (.positionVault k) := by
  -- Whatever was credited before, the vault's owner is still the position.
  have howned : ∀ {t : Tokens} {signer : Pubkey}, Keeps c.tokens t (.positionVault k) →
      k ≠ signer → ∀ held, t.lookup (.positionVault k) = some held → held.owner ≠ signer := by
    intro t signer hkeeps hne held hheld
    obtain ⟨account', hfound', -, howner', -⟩ := hkeeps account hfound
    obtain rfl := Option.some.inj (hheld.symm.trans hfound')
    rw [howner', howner]
    exact hne
  have hsigner : ∀ {signer : Pubkey}, signer.canSign = true → k ≠ signer := by
    rintro signer hsign rfl
    rw [hkey] at hsign
    cases hsign
  cases h with
  | idle _ _ htokens => exact htokens ▸ Keeps.refl _ _
  | founded hkeeps => exact hkeeps _
  | committed hsign hpaid =>
    exact splTransfer_keeps hpaid (howned (Keeps.refl _ _) (hsigner hsign))
  | taken hsign _ _ hinit hcustody =>
    have hinits := initToken_keeps hinit (.positionVault k)
    exact hinits.trans (takeCustody_keeps hcustody (howned hinits (hsigner hsign)))
  | takenCore _ _ _ _ htokens => exact htokens ▸ Keeps.refl _ _
  | @released _ j _ _ _ _ hexits' _ _ _ hfees hrelease =>
    have hne : k ≠ j := fun heq => hexits (heq ▸ hexits')
    exact (hfees.keeps k).trans
      (releaseAndClose_keeps hrelease (by simpa using hne) (howned (hfees.keeps k) hne))
  | releasedCore _ _ _ _ hfees => exact hfees.keeps k

theorem releaseAndClose_owners {payer : Pubkey} {a : ReleaseAccounts} {t t' : Tokens}
    {e e' : Externals} (hdoc : Documented X)
    (h : releaseAndClose X p k payer a t e = .ok (t', e')) (key : Pubkey) :
    coreOwner X (e' key) = coreOwner X (e key) := by
  simp only [releaseAndClose, bind_ok, pure_ok, Prod.mk.injEq] at h
  obtain ⟨⟨t₁, e₁⟩, hrelease, t₂, -, rfl, rfl⟩ := h
  unfold releaseFromVault at hrelease
  split at hrelease
  · simp only [transferPnft, invoke, bind_ok, okOr_ok, pure_ok, Prod.mk.injEq] at hrelease
    obtain ⟨_, -, _, -, _, -, _, hcall, _, -, -, -, _, -, _, -, -, rfl⟩ := hrelease
    exact hdoc.pnft _ _ _ _ hcall
  · split at hrelease
    · simp only [bind_ok, pure_ok, Prod.mk.injEq] at hrelease
      obtain ⟨-, -, -, -, _, -, _, -, -, rfl⟩ := hrelease
      rfl
    · cases hrelease

theorem takeCustody_owners {standard : ℕ} {a : DepositAccounts} {t t' : Tokens}
    {e e' : Externals} (hdoc : Documented X) (h : takeCustody X standard a t e = .ok (t', e'))
    (key : Pubkey) : coreOwner X (e' key) = coreOwner X (e key) := by
  unfold takeCustody at h
  split at h
  · simp only [transferPnft, invoke, bind_ok, okOr_ok, pure_ok, Prod.mk.injEq] at h
    obtain ⟨_, -, _, -, _, -, _, hcall, _, -, -, -, _, -, _, -, -, rfl⟩ := h
    exact hdoc.pnft _ _ _ _ hcall
  · split at h
    · simp only [bind_ok, pure_ok, Prod.mk.injEq] at h
      obtain ⟨-, -, _, -, -, rfl⟩ := h
      rfl
    · cases h

/-- No instruction but its own exit changes the owner of a Core card a position's vault owns. -/
theorem CardMove.keepsOwner {asset : Pubkey} (h : CardMove X c c' instr) (hdoc : Documented X)
    (hexits : instr.exits ≠ some k)
    (howner : coreOwner X (c.externals asset) = some (.positionVault k)) :
    coreOwner X (c'.externals asset) = some (.positionVault k) := by
  cases h with
  | idle _ _ _ hexternals => rwa [hexternals]
  | founded _ hexternals => rwa [hexternals]
  | committed _ _ hrequest => rwa [hdoc.randomness _ _ _ _ hrequest]
  | taken _ _ _ _ hcustody => rwa [takeCustody_owners hdoc hcustody]
  | @takenCore a _ _ _ hsign _ _ hheld _ htransfer =>
    rw [hdoc.others _ _ _ _ htransfer, howner]
    -- The asset taken in is its depositor's, and a vault signs for nothing.
    rintro rfl
    rw [howner, Option.some.injEq] at hheld
    rw [← hheld] at hsign
    cases hsign
  | released _ _ _ _ _ hrelease => rwa [releaseAndClose_owners hdoc hrelease]
  | @releasedCore _ j _ _ _ hexits' _ _ _ _ hheld htransfer =>
    rw [hdoc.others _ _ _ _ htransfer, howner]
    rintro rfl
    rw [howner, Option.some.injEq, Pubkey.positionVault.injEq] at hheld
    exact hexits (hheld ▸ hexits')

theorem CardMove.inVault (h : CardMove X c c' instr) (hdoc : Documented X)
    (hkey : k.canSign = false) (hexits : instr.exits ≠ some k) (hvault : InVault X c k p) :
    InVault X c' k p := by
  cases hvault with
  | token hstandard hfound hmint howner hamount =>
    obtain ⟨account', hfound', hmint', howner', hle⟩ :=
      h.keeps hkey hexits hfound howner _ hfound
    exact .token hstandard hfound' (hmint'.trans hmint) (howner'.trans howner) (hamount.trans hle)
  | core hstandard howner => exact .core hstandard (h.keepsOwner hdoc hexits howner)

-- ---------------------------------------------------------------------------
-- Its own deposit and exit
-- ---------------------------------------------------------------------------

theorem Releases.exits {now : ℤ} (h : Releases now k p instr) : instr.exits = some k := by
  cases h <;> rfl

theorem Fate.releases (h : Fate X clock c k instr (some p) none) :
    Releases clock.unixTimestamp k p instr := by
  cases h with
  | kept hterms => cases hterms
  | released hrelease => exact hrelease

theorem Fate.sameDeposit (h : Fate X clock c k instr (some p) (some q)) : SameDeposit p q := by
  cases h with
  | kept hterms => exact .of_terms (Option.some.inj hterms)
  | approved _ hterms | revalued _ _ _ hterms | closed _ _ _ hterms | seized _ _ _ _ hterms =>
    exact .of_write hterms ⟨rfl, rfl, rfl, rfl, rfl, rfl, rfl⟩
  | rejected => exact ⟨rfl, rfl, rfl, rfl, rfl, rfl, rfl⟩

theorem Fate.takes (h : Fate X clock c k instr none (some p)) :
    instr.takes = some (k, p.depositor) := by
  cases h with
  | kept hterms => cases hterms
  | taken hkey | takenCore hkey => rw [hkey]; rfl

/-- A successful exit is the one for its position's standard, state and depositor: it pays the card
out and closes the account. -/
theorem exec_exit (hdoc : Documented X) (h : exec X clock c instr = .ok (c', events))
    (hexits : instr.exits = some k) : ∃ p, c.positions.lookup k = some p ∧
      Releases clock.unixTimestamp k p instr ∧ c'.positions.lookup k = none ∧
      PaidOut X c c' k p instr := by
  have hfate := exec_fate h k
  cases exec_cardMove h with
  | idle hexits' => rw [hexits'] at hexits; cases hexits
  | founded | committed | taken | takenCore => cases hexits
  | @released _ j payer p accounts paid hexits' hcard hp hclosed hfees hrelease =>
    obtain rfl := Option.some.inj (hexits.symm.trans hexits')
    rw [hp, hclosed] at hfate
    obtain ⟨hstandard, hmoved, hlegacy⟩ := releaseAndClose_moves hrelease
    exact ⟨p, hp, hfate.releases, hclosed,
      .token hstandard hcard hfees hmoved hlegacy (releaseAndClose_owners hdoc hrelease)⟩
  | @releasedCore _ j payer p named hexits' hp hclosed hstandard hfees howner htransfer =>
    obtain rfl := Option.some.inj (hexits.symm.trans hexits')
    rw [hp, hclosed] at hfate
    exact ⟨p, hp, hfate.releases, hclosed, .core hstandard hfees howner
      (hdoc.moves _ _ _ htransfer howner) fun key hkey => hdoc.others _ _ _ key htransfer hkey⟩

theorem exec_takes {depositor : Pubkey} (hdoc : Documented X)
    (h : exec X clock c instr = .ok (c', events)) (htakes : instr.takes = some (k, depositor)) :
    c.positions.lookup k = none ∧ ∃ p, c'.positions.lookup k = some p ∧
      p.state = .pending ∧ p.depositor = depositor ∧ InVault X c' k p := by
  cases exec_cardMove h with
  | idle _ htakes' => rw [htakes'] at htakes; cases htakes
  | founded | committed => cases htakes
  | @taken a standard bump vaultBump pool tokens hsign hfree hopened hinit hcustody =>
    obtain ⟨rfl, rfl⟩ := Prod.mk.inj (Option.some.inj htakes)
    exact ⟨hfree, _, hopened, rfl, rfl, .token (takeCustody_standard hcustody)
      (takeCustody_fills hinit hsign hcustody) rfl rfl le_rfl⟩
  | @takenCore a bump vaultBump pool hsign hfree hopened howner _ htransfer =>
    obtain ⟨rfl, rfl⟩ := Prod.mk.inj (Option.some.inj htakes)
    exact ⟨hfree, _, hopened, rfl, rfl, .core rfl (hdoc.moves _ _ _ htransfer howner)⟩
  | released hexits | releasedCore hexits =>
    rw [Instr.takes_of_exits hexits] at htakes
    cases htakes

theorem exec_custody (hdoc : Documented X) (hsound : c.Sound)
    (h : exec X clock c instr = .ok (c', events)) (hp : c.positions.lookup k = some p)
    (hvault : InVault X c k p) :
    (∃ q, c'.positions.lookup k = some q ∧ SameDeposit p q ∧ InVault X c' k q) ∨
      instr.exits = some k := by
  by_cases hexits : instr.exits = some k
  · exact .inr hexits
  · refine .inl ?_
    have hkey : k.canSign = false := by
      rw [hsound.wellFormed.positionKey k p hp]
      rfl
    have hkept := (exec_cardMove h).inVault hdoc hkey hexits hvault
    have hfate := exec_fate h k
    rw [hp] at hfate
    cases hq : c'.positions.lookup k with
    | none =>
      rw [hq] at hfate
      exact absurd hfate.releases.exits hexits
    | some q =>
      rw [hq] at hfate
      exact ⟨q, rfl, hfate.sameDeposit, hkept.of_same hfate.sameDeposit⟩

end Instruction

-- ---------------------------------------------------------------------------
-- Runs
-- ---------------------------------------------------------------------------

/-- A run from `c₀` with each of its steps on record: who moved, and what it left. -/
inductive History (X : Programs) (may : Ledger → Settlement → Prop) (c₀ : Chain) : Chain → Type
  | start : History X may c₀ c₀
  | instruction {c c' : Chain} (past : History X may c₀ c) (clock : Clock) (instr : Instr)
      (events : List Event) (hrun : exec X clock c instr = .ok (c', events)) :
      History X may c₀ c'
  | elsewhere {c : Chain} (past : History X may c₀ c) (tokens : Tokens) (externals : Externals)
      (huntouched : Untouched c.tokens tokens) : History X may c₀ { c with tokens, externals }
  | settle {c : Chain} (past : History X may c₀ c) (key : Pubkey) (L : Ledger) (s : Settlement)
      (hL : c.Reads key L) (hmay : may L s) : History X may c₀ (c.settle key s)

/-- In one of the run's own steps other programs took the card of this deposit out of its vault. -/
def History.TakenElsewhere {X : Programs} {may : Ledger → Settlement → Prop} {c₀ : Chain}
    (k : Pubkey) (p : Position) : {c : Chain} → History X may c₀ c → Prop
  | _, .start => False
  | _, .instruction past .. => past.TakenElsewhere k p
  | _, @elsewhere _ _ _ c past tokens externals _ => past.TakenElsewhere k p ∨
    ∃ q, c.positions.lookup k = some q ∧ SameDeposit q p ∧
      InVault X c k q ∧ ¬InVault X { c with tokens, externals } k q
  | _, .settle past .. => past.TakenElsewhere k p

section Runs

variable {X : Programs} {may : Ledger → Settlement → Prop} {c₀ c : Chain} {k : Pubkey}
  {p q : Position}

/-- The custody of every card, after the run on record. -/
structure Custodied (run : History X may c₀ c) : Prop where
  /-- The card of an open position is in its vault, unless other programs took it on this run. -/
  escrowed : ∀ k p, c.positions.lookup k = some p → InVault X c k p ∨ run.TakenElsewhere k p
  /-- A deposit opens a position with the card in its vault. -/
  taken : ∀ clock instr c' events k depositor, exec X clock c instr = .ok (c', events) →
    instr.takes = some (k, depositor) → c.positions.lookup k = none ∧
      ∃ p, c'.positions.lookup k = some p ∧ p.state = .pending ∧ p.depositor = depositor ∧
        InVault X c' k p
  /-- Whatever an instruction's accounts, it leaves the card there or is an exit of the position. -/
  held : ∀ clock instr c' events k p, exec X clock c instr = .ok (c', events) →
    c.positions.lookup k = some p → InVault X c k p →
      (∃ q, c'.positions.lookup k = some q ∧ SameDeposit p q ∧ InVault X c' k q) ∨
        instr.exits = some k
  /-- An exit is the one for the stored standard and state, by the depositor where it must be; it
  pays the card to the depositor and closes the position. -/
  released : ∀ clock instr c' events k, exec X clock c instr = .ok (c', events) →
    instr.exits = some k → ∃ p, c.positions.lookup k = some p ∧
      Releases clock.unixTimestamp k p instr ∧ c'.positions.lookup k = none ∧
      PaidOut X c c' k p instr
  /-- Every other exit is refused. -/
  refused : ∀ clock instr k, instr.exits = some k →
    (∀ p, c.positions.lookup k = some p → ¬Releases clock.unixTimestamp k p instr) →
      ∃ e, exec X clock c instr = .error e

theorem History.steps (run : History X may c₀ c) :
    Relation.ReflTransGen (SettlingStep X may) c₀ c := by
  induction run with
  | start => exact .refl
  | instruction _ clock instr events hrun ih =>
    exact ih.tail (.run (.instruction clock instr events trivial hrun))
  | elsewhere _ tokens externals huntouched ih =>
    exact ih.tail (.run (.elsewhere tokens externals huntouched))
  | settle _ key L s hL hmay ih => exact ih.tail (.settle hL hmay)

theorem History.sound (run : History X may c₀ c) (hgenesis : Genesis c₀) : c.Sound :=
  SettlingReachable.sound ⟨c₀, hgenesis, run.steps⟩

theorem History.exists (h : Relation.ReflTransGen (SettlingStep X may) c₀ c) :
    Nonempty (History X may c₀ c) := by
  induction h with
  | refl => exact ⟨.start⟩
  | tail _ hstep ih =>
    obtain ⟨past⟩ := ih
    cases hstep with
    | settle hL hmay => exact ⟨past.settle _ _ _ hL hmay⟩
    | run hstep =>
      cases hstep with
      | instruction clock instr events _ hrun => exact ⟨past.instruction clock instr events hrun⟩
      | elsewhere tokens externals huntouched =>
        exact ⟨past.elsewhere tokens externals huntouched⟩

theorem History.TakenElsewhere.same {run : History X may c₀ c} (h : run.TakenElsewhere k p)
    (hsame : SameDeposit p q) : run.TakenElsewhere k q := by
  induction run with
  | start => exact h
  | instruction _ _ _ _ _ ih => exact ih h
  | elsewhere _ _ _ _ ih =>
    obtain hbefore | ⟨r, hr, hdeposit, htaken⟩ := h
    · exact .inl (ih hbefore)
    · exact .inr ⟨r, hr, hdeposit.trans hsame, htaken⟩
  | settle _ _ _ _ _ _ ih => exact ih h

theorem InVault.settle {key : Pubkey} {s : Settlement} (h : InVault X c k p) :
    InVault X (c.settle key s) k p := by
  cases h with
  | token hstandard hfound hmint howner hamount =>
    exact .token hstandard (by rwa [settle_tokens]) hmint howner hamount
  | core hstandard howner => exact .core hstandard (by rwa [settle_externals])

theorem History.escrowed (run : History X may c₀ c) (hdoc : Documented X) (hgenesis : Genesis c₀)
    (hp : c.positions.lookup k = some p) : InVault X c k p ∨ run.TakenElsewhere k p := by
  induction run generalizing p with
  | start =>
    rw [hgenesis.positions] at hp
    cases hp
  | @instruction c c' past clock instr events hrun ih =>
    have hfate := exec_fate hrun k
    cases hq : c.positions.lookup k with
    | none =>
      -- The account was opened just now, by a deposit.
      rw [hq, hp] at hfate
      obtain ⟨-, q, hopened, -, -, hvault⟩ := exec_takes hdoc hrun hfate.takes
      obtain rfl := Option.some.inj (hp.symm.trans hopened)
      exact .inl hvault
    | some q =>
      rw [hq, hp] at hfate
      obtain hvault | htaken := ih hq
      · refine .inl ?_
        obtain ⟨r, hr, -, hkept⟩ | hexits :=
          exec_custody hdoc (past.sound hgenesis) hrun hq hvault
        · obtain rfl := Option.some.inj (hp.symm.trans hr)
          exact hkept
        · obtain ⟨-, -, -, hclosed, -⟩ := exec_exit hdoc hrun hexits
          rw [hp] at hclosed
          cases hclosed
      · exact .inr (htaken.same hfate.sameDeposit)
  | @elsewhere c past tokens externals huntouched ih =>
    obtain hvault | htaken := ih hp
    · by_cases hstill : InVault X { c with tokens, externals } k p
      · exact .inl hstill
      · exact .inr (.inr ⟨p, hp, ⟨rfl, rfl, rfl, rfl, rfl, rfl, rfl⟩, hvault, hstill⟩)
    · exact .inr (.inl htaken)
  | settle past key L s hL hmay ih =>
    rw [settle_positions] at hp
    obtain hvault | htaken := ih hp
    · exact .inl hvault.settle
    · exact .inr htaken

/-- Every run keeps custody of every card. -/
theorem cards_custodied (hdoc : Documented X) (hgenesis : Genesis c₀)
    (run : History X may c₀ c) : Custodied run where
  escrowed _ _ hp := run.escrowed hdoc hgenesis hp
  taken _ _ _ _ _ _ h htakes := exec_takes hdoc h htakes
  held _ _ _ _ _ _ h hp hvault := exec_custody hdoc (run.sound hgenesis) h hp hvault
  released _ _ _ _ _ h hexits := exec_exit hdoc h hexits
  refused clock instr k hexits hnone := by
    cases hrun : exec X clock c instr with
    | error e => exact ⟨e, rfl⟩
    | ok out =>
      obtain ⟨p, hp, hrelease, -⟩ := exec_exit hdoc hrun hexits
      exact absurd hrelease (hnone p hp)

end Runs

-- ---------------------------------------------------------------------------
-- A bank with a legacy card
-- ---------------------------------------------------------------------------

/-- The bank, able to read the records of one legacy card. -/
def cardBank : Programs := { bank with
  parseMetadata := fun data =>
    if data = [1] then some ⟨some .nonFungible, some ⟨true, bankCollection⟩⟩ else none
  parseMasterEdition := fun data => if data = [2] then some true else none }

theorem coreOwner_bank (info : AccountInfo) : coreOwner cardBank info
    = if info.owner = .program .mplCore then bankOwner info.data else none := by
  unfold coreOwner
  split
  · cases h : bankOwner info.data <;> simp [cardBank, bank, h]
  · rfl

theorem bankOwner_bytes {address : Pubkey} {data : List ℕ} (h : bankBytes address = some data) :
    bankOwner data = some address := by
  unfold bankBytes at h
  split at h
  · obtain rfl := Option.some.inj h
    rfl
  · obtain rfl := Option.some.inj h
    rfl
  · cases h

theorem cardBank_documented : Documented cardBank where
  moves := by
    intro call e e' h howner
    obtain ⟨data, hdata, rfl⟩ : ∃ data, bankBytes call.newOwner = some data ∧
        Function.update e call.asset { e call.asset with data } = e' := by
      simp only [cardBank, bank, bankTransfer, Option.ite_none_right_eq_some,
        Option.map_eq_some_iff] at h
      exact h.2
    rw [coreOwner_bank] at howner
    rw [coreOwner_bank, Function.update_self]
    split at howner
    next hcore => rw [if_pos hcore, bankOwner_bytes hdata]
    next => cases howner
  others := by
    intro call e e' key h hne
    simp only [cardBank, bank, bankTransfer, Option.ite_none_right_eq_some,
      Option.map_eq_some_iff] at h
    obtain ⟨-, data, -, rfl⟩ := h
    rw [Function.update_of_ne hne]
  pnft := fun _ _ _ _ h => by cases h
  randomness := by
    intro request e e' key h
    obtain rfl : e = e' := Option.some.inj h
    rfl

def cardExternals : Externals
  | .key 70 => ⟨.program .splToken, []⟩
  | .key 61 => ⟨.program .tokenMetadata, [1]⟩
  | .key 62 => ⟨.program .tokenMetadata, [2]⟩
  | address => bankExternals address

def cardChain : Chain :=
  let c := bankPool (defaultArgs .default)
  { c with tokens := c.tokens.insert (.key 42) ⟨.key 70, .key 20, 1, false⟩
           externals := cardExternals }

theorem cardChain_reached : Relation.ReflTransGen (Step cardBank) bankGenesis cardChain := by
  have hfound : runScript cardBank [(⟨0, 0⟩, .initProtocol (.key 1) bankConfigArgs)] bankGenesis
      = .ok { bankGenesis with protocolConfig := some bankConfig } := rfl
  have hpool : (exec cardBank ⟨0, 0⟩ { bankGenesis with protocolConfig := some bankConfig }
      (.initPool bankConfig.administrator (.key 9) (defaultArgs .default))).map Prod.fst
        = .ok (bankPool (defaultArgs .default)) :=
    initPool_succeeds (X := cardBank) rfl rfl rfl rfl rfl rfl (by decide) (by decide +kernel)
      (by decide +kernel) defaultArgs_valid (by decide)
  obtain ⟨events, hexec⟩ := exec_of_map hpool
  refine ((runScript_steps (fun _ _ _ => trivial) hfound).tail
    (.instruction _ _ events trivial hexec)).tail (.elsewhere _ _ ?_)
  intro pool account haccount
  exact ⟨account, (Finmap.lookup_insert_of_ne _ (by simp)).trans haccount, rfl, rfl, le_rfl⟩

def cardRelease : ReleaseAccounts := ⟨.key 60, .key 61, .key 62, ⟨none, none, none, none, none⟩⟩

/-- Wallet 20 deposits card 70 and the Core card 30; the operator rejects the former. -/
def cardScript : List (Clock × Instr) :=
  [(⟨1, 1⟩, .admitCollection (.key 1) (.pool 0) bankCollection
      (STANDARDS_BIT_LEGACY ||| STANDARDS_BIT_CORE) none),
    (⟨1, 1⟩, .deposit ⟨.key 20, .pool 0, .poolCollection (.pool 0) bankCollection, .key 70, .key 42,
      .key 61, .key 62, ⟨none, none, none, none, none⟩⟩),
    depositCard 30, (⟨2, 2⟩, .rejectDeposit (.key 2) (bankPosition 70) 1)]

/-- Both cards are in their vaults, and whoever sends the return, card 70 goes to wallet 20. -/
theorem cards_custodied_bank : ∃ (c : Chain)
    (run : History cardBank (fun _ _ => False) bankGenesis c) (p q : Position) (c' : Chain),
    Custodied run ∧
    c.positions.lookup (bankPosition 70) = some p ∧ InVault cardBank c (bankPosition 70) p ∧
    c.positions.lookup (bankPosition 30) = some q ∧ InVault cardBank c (bankPosition 30) q ∧
    PaidOut cardBank c c' (bankPosition 70) p (.returnRejected (.key 21) (bankPosition 70)
      cardRelease) ∧
    c'.tokens.lookup (.key 60) = some ⟨.key 70, .key 20, 1, false⟩ := by
  have hscript : (runScript cardBank cardScript cardChain).isOk := by decide +kernel
  have hsteps := Relation.ReflTransGen.trans cardChain_reached
    (steps_after (fun _ _ _ => trivial) hscript)
  have hsettling : Relation.ReflTransGen (SettlingStep cardBank fun _ _ => False) bankGenesis
      (cardChain.after cardBank cardScript) := hsteps.lift id fun _ _ => .run
  obtain ⟨run⟩ := History.exists hsettling
  have hcustody := cards_custodied cardBank_documented ⟨rfl, rfl, rfl, rfl, rfl, rfl, rfl⟩ run
  obtain ⟨events, hrun⟩ := exec_after (X := cardBank) (c := cardChain.after cardBank cardScript)
    (s := (⟨3, 3⟩, .returnRejected (.key 21) (bankPosition 70) cardRelease)) (by decide +kernel)
  obtain ⟨p, hp, -, -, hpaid⟩ := hcustody.released _ _ _ _ _ hrun rfl
  have hlegacy : ((cardChain.after cardBank cardScript).positions.lookup (bankPosition 70)).map
      (fun p => (p.standard, p.nftMint)) = some (STANDARD_LEGACY, .key 70) := by decide +kernel
  have hcore : ((cardChain.after cardBank cardScript).positions.lookup (bankPosition 30)).map
      (fun q => (q.standard, q.nftMint)) = some (STANDARD_CORE, .key 30) := by decide +kernel
  obtain ⟨q, hq, hqfields⟩ := Option.map_eq_some_iff.mp hcore
  obtain ⟨hqstandard, hqmint⟩ := Prod.mk.inj hqfields
  rw [hp, Option.map_some, Option.some.injEq, Prod.mk.injEq] at hlegacy
  have hheld : (cardChain.after cardBank cardScript).tokens.lookup
      (.positionVault (bankPosition 70)) = some ⟨.key 70, bankPosition 70, 1, false⟩ := by
    decide +kernel
  have howned : coreOwner cardBank ((cardChain.after cardBank cardScript).externals (.key 30))
      = some (.positionVault (bankPosition 30)) := by decide +kernel
  exact ⟨_, run, p, q, _, hcustody, hp, .token (.inr hlegacy.1) hheld hlegacy.2.symm rfl le_rfl, hq,
    .core hqstandard (by rwa [hqmint]), hpaid, by decide +kernel⟩

end ByeMachine
