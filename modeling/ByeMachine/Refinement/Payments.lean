import ByeMachine.Refinement.Deposits
import ByeMachine.Refinement.Events
import ByeMachine.Refinement.Exits
import ByeMachine.Refinement.Footprint

/-!
# Whom a withdrawal pays

The fees an instruction says it paid reach a token account of the depositor's,
and the depositor signed the instruction.
-/

namespace ByeMachine

open Fallible

variable {X : Programs} {clock : Clock} {c c' : Chain} {events : List Event} {instr : Instr}
  {key poolKey k : Pubkey} {pool : Pool}

/-- A token account of `owner`'s, of the mint of the pool's vault, gained `amount`. -/
def Credited (key owner : Pubkey) (amount : ℕ) (c c' : Chain) : Prop :=
  ∃ usdc vault account account', c.tokens.lookup (.principalVault key) = some vault ∧
    c.tokens.lookup usdc = some account ∧ account.owner = owner ∧ account.mint = vault.mint ∧
    c'.tokens.lookup usdc = some account' ∧ account'.owner = owner ∧
    account'.mint = account.mint ∧ account.amount + amount ≤ account'.amount

theorem releaseAndClose_vault {p : Position} {payer : Pubkey} {a : ReleaseAccounts}
    {t t' : Tokens} {account : TokenAccount} {ext ext' : Externals}
    (h : releaseAndClose X p k payer a t ext = .ok (t', ext'))
    (haccount : t.lookup key = some account) (howner : account.owner ≠ k) :
    key ≠ .positionVault k := by
  rintro rfl
  simp only [releaseAndClose, bind_ok, pure_ok, Prod.mk.injEq] at h
  obtain ⟨⟨t₁, e₁⟩, hrelease, -⟩ := h
  unfold releaseFromVault at hrelease
  split at hrelease
  · simp only [transferPnft, bind_ok, okOr_ok, require_ok, pure_ok, Prod.mk.injEq] at hrelease
    obtain ⟨_, -, _, -, _, -, _, -, source, hsource, -, hheld, -⟩ := hrelease
    obtain rfl := Option.some.inj (hsource.symm.trans haccount)
    exact howner hheld
  · split at hrelease
    · simp only [bind_ok, require_ok, pure_ok, Prod.mk.injEq] at hrelease
      obtain ⟨-, -, -, -, _, hcreate, _, htransfer, -⟩ := hrelease
      obtain ⟨-, source, hsource, hheld⟩ := splTransfer_move htransfer
      obtain ⟨account', haccount', -, howner', -⟩ := createIdempotent_keeps hcreate _ _ haccount
      obtain rfl := Option.some.inj (hsource.symm.trans haccount')
      exact howner (howner'.symm.trans hheld)
    · cases hrelease

theorem payFees_credited {depositor : Pubkey} {depositorUsdc : Option Pubkey} {amount : ℕ}
    {tokens : Tokens} {u : Unit} (hwf : c.WellFormed) (hpool : c.pools.lookup key = some pool)
    (hsign : depositor.canSign = true)
    (hcheck : checkDepositorUsdc c key depositor depositorUsdc = .ok u)
    (h : payFees c.tokens key depositorUsdc amount = .ok tokens) (hpos : 0 < amount)
    {paid : Chain} (htokens : paid.tokens = tokens) : Credited key depositor amount c paid := by
  simp only [payFees, if_pos hpos, bind_ok, okOr_ok] at h
  obtain ⟨usdc, rfl, htransfer⟩ := h
  simp only [checkDepositorUsdc, loadToken, bind_ok, okOr_ok, require_ok] at hcheck
  obtain ⟨vault, hvault, account, haccount, -, hmint, howner⟩ := hcheck
  have hne : Pubkey.principalVault key ≠ usdc := by
    rintro rfl
    exact hwf.not_owner hpool (Keeps.refl _ _) (Pubkey.ne_pool_of_canSign hsign) _ haccount howner
  obtain ⟨account', haccount', hcredited⟩ := splTransfer_credit htransfer hne
  obtain rfl := Option.some.inj (haccount'.symm.trans haccount)
  rw [← htokens] at hcredited
  exact ⟨usdc, vault, _, _, hvault, haccount, howner, hmint, hcredited, howner, rfl, le_rfl⟩

theorem Credited.release {p : Position} {payer owner : Pubkey} {amount : ℕ} {a : ReleaseAccounts}
    {paid : Chain} {tokens : Tokens} {externals externals' : Externals}
    (hcredited : Credited key owner amount c paid) (howner : owner ≠ k)
    (h : releaseAndClose X p k payer a paid.tokens externals = .ok (tokens, externals'))
    (htokens : c'.tokens = tokens) : Credited key owner amount c c' := by
  obtain ⟨usdc, vault, account, account', hvault, haccount, hheld, hmint, hfound, hheld', hmint',
    hle⟩ := hcredited
  have hother : account'.owner ≠ k := hheld'.symm ▸ howner
  have hkeeps := releaseAndClose_keeps h (releaseAndClose_vault h hfound hother)
    (fun held hfound' => Option.some.inj (hfound.symm.trans hfound') ▸ hother)
  obtain ⟨last, hlast, hmint'', hheld'', hle'⟩ := hkeeps account' hfound
  rw [← htokens] at hlast
  exact ⟨usdc, vault, account, last, hvault, haccount, hheld, hmint, hlast, hheld''.trans hheld',
    hmint''.trans hmint', hle.trans hle'⟩

theorem withdrawAccounting_paysDepositor {depositor position owner : Pubkey}
    {depositorUsdc : Option Pubkey} {remaining : List AccountMeta} {a : Loaded} {paid : Chain}
    {u : Unit} {slot fees : ℕ} (hwf : c.WellFormed) (hsign : depositor.canSign = true)
    (ha : loadThroughPool c poolKey k = .ok a) (howner : a.position.depositor = depositor)
    (hcheck : checkDepositorUsdc c poolKey depositor depositorUsdc = .ok u)
    (h : withdrawAccounting clock c poolKey k depositorUsdc remaining a = .ok (paid, events))
    (he : .withdrawn key slot position owner fees ∈ events) :
    key = poolKey ∧ owner = depositor ∧
      (0 < fees → Credited key owner fees c paid) := by
  obtain ⟨hload, -, -⟩ := loadThroughPool_ok ha
  obtain ⟨booked, _, _, _, _, change, tokens, haccounting⟩ := withdrawAccounting_ok h
  rw [haccounting.published] at he
  have hevent : Event.withdrawn key slot position owner fees
      = .withdrawn poolKey clock.slot k a.position.depositor booked.effect.feesPaid := by
    cases change <;> simpa [tierEvents] using he
  simp only [Event.withdrawn.injEq] at hevent
  obtain ⟨rfl, -, -, rfl, rfl⟩ := hevent
  refine ⟨rfl, howner, fun hpos => ?_⟩
  rw [howner]
  exact payFees_credited hwf hload hsign hcheck haccounting.pays hpos (by rw [haccounting.after])

/-- Whoever the log says was paid signed the instruction and was credited. -/
theorem exec_paysDepositor {position owner : Pubkey} {slot fees : ℕ} (hwf : c.WellFormed)
    (h : exec X clock c instr = .ok (c', events))
    (he : .withdrawn key slot position owner fees ∈ events) :
    instr.signer = owner ∧ (0 < fees → Credited key owner fees c c') := by
  have hkind := exec_publishes h he
  cases instr with
  | withdraw depositor poolKey k depositorUsdc remaining accounts =>
    obtain ⟨a, paid, tokens, externals, hwithdraw⟩ := withdraw_ok h
    obtain ⟨rfl, rfl, hpaid⟩ := withdrawAccounting_paysDepositor hwf hwithdraw.signs
      hwithdraw.loads hwithdraw.owner hwithdraw.payout hwithdraw.accounts he
    refine ⟨rfl, fun hpos => (hpaid hpos).release ?_ hwithdraw.releases (by rw [hwithdraw.after])⟩
    have hsign := hwithdraw.signs
    rw [(loadThroughPool_ok hwithdraw.loads).2.2]
    rintro rfl
    cases hsign
  | withdrawCore depositor poolKey k depositorUsdc collection remaining =>
    obtain ⟨a, named, paid, externals, hwithdraw⟩ := withdrawCore_ok h
    obtain ⟨rfl, rfl, hpaid⟩ := withdrawAccounting_paysDepositor hwf hwithdraw.signs
      hwithdraw.loads hwithdraw.owner hwithdraw.payout hwithdraw.accounts he
    refine ⟨rfl, fun hpos => ?_⟩
    rw [hwithdraw.after]
    exact hpaid hpos
  | _ => simp [Instr.publishes, Event.kind] at hkind

end ByeMachine
