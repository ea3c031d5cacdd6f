import ByeMachine.Properties.Custody
import ByeMachine.Properties.Lifecycle
import ByeMachine.Properties.Solvency
import ByeMachine.Properties.TierAccrual
import ByeMachine.Refinement.Handlers
import ByeMachine.Refinement.Payments

/-!
# What a position earns over its life

From its activation to its departure a position earns the rise of the equal
accumulator, rounded down once, and over each of its stints in the tier the rise
of the tier's, rounded down once each. Whichever way it leaves, that is what it
is paid or what is set aside for it.
-/

namespace ByeMachine

open Fallible

variable {X : Programs} {clock : Clock} {c c' : Chain} {events : List Event} {instr : Instr}
  {key k : Pubkey} {L L' : Ledger} {p q : Position} {accEqual accTier start : ℕ} {t : TierTally}

-- ---------------------------------------------------------------------------
-- The equal leg
-- ---------------------------------------------------------------------------

theorem PositionSteps.stamps (h : PositionSteps accEqual accTier p q) (hpending : p.state = .pending)
    (hactive : q.state = .active) : q.equalCheckpoint = accEqual := by
  induction h with
  | refl =>
    rw [hpending] at hactive
    cases hactive
  | tail _ hstep ih =>
    cases hstep with
    | activate => rfl
    | revalue hstate | leave hstate | join hstate => exact ih hstate
    | depart _ _ hafter | retire _ hafter => rcases hafter with rfl | rfl <;> cases hactive

theorem PositionSteps.stampStands (h : PositionSteps accEqual accTier p q)
    (hbefore : p.state = .active) (hactive : q.state = .active) :
    q.equalCheckpoint = p.equalCheckpoint := by
  have hnever : q.state ≠ .pending ∧ (q.state = .active → q.equalCheckpoint = p.equalCheckpoint) := by
    clear hactive
    induction h with
    | refl => exact ⟨by rw [hbefore]; decide, fun _ => rfl⟩
    | tail _ hstep ih =>
      obtain ⟨hpending, hstands⟩ := ih
      cases hstep with
      | activate hstate => exact absurd hstate hpending
      | revalue hstate | leave hstate | join hstate => exact ⟨hpending, fun _ => hstands hstate⟩
      | depart _ _ hafter | retire _ hafter =>
        rcases hafter with rfl | rfl <;>
          exact ⟨(fun hpending => by cases hpending), fun hactive => by cases hactive⟩
  exact hnever.2 hactive

def Ledger.WaitsUnpaid (L : Ledger) : Prop :=
  ∀ k p, L.positions.lookup k = some p → p.state = .pending → p.accrued = 0

theorem Ledger.Evolves.waitsUnpaid (h : L.Evolves L') (hunpaid : L.WaitsUnpaid) :
    L'.WaitsUnpaid := by
  intro k q hq hpending
  obtain ⟨p, hp, hsteps⟩ := h.positions k q hq
  obtain rfl := PositionSteps.stillPending hsteps hpending
  exact hunpaid k _ hp hpending

theorem Change.waitsUnpaid {update : Option ConfigUpdate} (h : Change update L L')
    (hranked : L.Ranked) (hunpaid : L.WaitsUnpaid) : L'.WaitsUnpaid := by
  cases h with
  | moves hmoves => exact (Moves.evolves hmoves hranked).waitsUnpaid hunpaid
  | intake hintake hmoves =>
    refine (Moves.evolves hmoves (hintake.ranked hranked)).waitsUnpaid ?_
    cases hintake with
    | @intro k p _ _ _ _ haccrued =>
      intro x q hq hpending
      by_cases hx : x = k
      · subst hx
        rw [Finmap.lookup_insert, Option.some.injEq] at hq
        exact hq ▸ haccrued
      · rw [Finmap.lookup_insert_of_ne _ hx] at hq
        exact hunpaid x q hq hpending
  | configure _ hconfig => exact (hconfig.evolves hranked).waitsUnpaid hunpaid

theorem SettlingReachable.waitsUnpaid {may : Ledger → Settlement → Prop}
    (h : SettlingReachable X may c) (hL : c.Reads key L) : L.WaitsUnpaid := by
  refine h.ledger (P := Ledger.WaitsUnpaid) ?_ ?_ ?_ hL
  · rintro L ⟨poolKey, poolId, weightIndex, args, bump, tierBump, -, rfl⟩ k p hp
    simp [Ledger.founded] at hp
  · exact fun L L' update hranked _ hchange hunpaid => hchange.waitsUnpaid hranked hunpaid
  · exact fun _ _ _ hunpaid => hunpaid

-- ---------------------------------------------------------------------------
-- A life
-- ---------------------------------------------------------------------------

/-- A run watched from the activation of the position at `k` for as long as it stays active: where
the equal accumulator stood at the activation, and the tally of the memberships since. -/
inductive ActiveSince (X : Programs) (key k : Pubkey) : ℕ → TierTally → Chain → Prop where
  | activated {c c' : Chain} {L L' : Ledger} {p q : Position}
      (hc : SettlingReachable X Rises c) (hL : c.Reads key L)
      (hp : L.positions.lookup k = some p) (hpending : p.state = .pending)
      (hstep : SettlingStep X Rises c c') (hL' : c'.Reads key L')
      (hq : L'.positions.lookup k = some q) (hactive : q.state = .active) :
      ActiveSince X key k L.pool.accEqual
        (TierTally.advance ⟨none, [], 0⟩ L.pool.accEqual L'.topTier.accTier
          (L.pool.owedFees - L'.pool.owedFees) (L.positions.lookup k) (L'.positions.lookup k)) c'
  | stayed {start : ℕ} {t : TierTally} {c c' : Chain} {L L' : Ledger} {q : Position}
      (h : ActiveSince X key k start t c) (hstep : SettlingStep X Rises c c') (hL : c.Reads key L)
      (hL' : c'.Reads key L') (hq : L'.positions.lookup k = some q) (hactive : q.state = .active) :
      ActiveSince X key k start
        (t.advance L.pool.accEqual L'.topTier.accTier (L.pool.owedFees - L'.pool.owedFees)
          (L.positions.lookup k) (L'.positions.lookup k)) c'

theorem ActiveSince.tallied (h : ActiveSince X key k start t c) : Tallied X key k t c := by
  induction h with
  | @activated c c' L L' p q hc hL hp hpending hstep hL' =>
    refine (Tallied.start hc hL ?_).step hstep hL hL'
    have hlisted := (hc.sound.ranked key L hL).listed
    rw [hp]
    exact hlisted.inTier_eq_false hp (by rw [hpending]; decide)
  | stayed _ hstep hL hL' _ _ ih => exact ih.step hstep hL hL'

theorem SettlingStep.books (h : SettlingStep X Rises c c') (hsound : c.Sound)
    (hL : c.Reads key L) (hL' : c'.Reads key L') (hp : L.positions.lookup k = some p)
    (hq : L'.positions.lookup k = some q) :
    q = p ∨ PositionSteps L.pool.accEqual L.topTier.accTier p q := by
  cases h with
  | run hstep =>
    obtain ⟨configures, heffect, -⟩ := hstep.effect hsound
    obtain ⟨M, hM, hchange⟩ := heffect.forward hsound.wellFormed hL
    obtain rfl := hL'.unique hM
    exact .inr (hchange.positionSteps (hsound.ranked key L hL) hp hq)
  | settle hM =>
    left
    obtain ⟨rfl, rfl⟩ | ⟨-, hother⟩ := settle_backward hsound.wellFormed hM hL'
    · obtain rfl := hL.unique hM
      exact Option.some.inj (hq.symm.trans hp)
    · obtain rfl := hL.unique hother
      exact Option.some.inj (hq.symm.trans hp)

theorem ActiveSince.active (h : ActiveSince X key k start t c) :
    ∃ L p, c.Reads key L ∧ L.positions.lookup k = some p ∧ p.state = .active := by
  cases h with
  | activated _ _ _ _ _ hL' hq hactive | stayed _ _ _ hL' hq hactive => exact ⟨_, _, hL', hq, hactive⟩

/-- The position's books say when it was activated and what it was credited since. -/
theorem ActiveSince.books (h : ActiveSince X key k start t c) (hL : c.Reads key L)
    (hp : L.positions.lookup k = some p) :
    p.equalCheckpoint = start ∧ (p.accrued : ℤ) = t.credited := by
  induction h generalizing L p with
  | @activated c c' M L' p₀ q hc hM hp₀ hpending hstep hL' hq hactive =>
    obtain rfl := hL.unique hL'
    obtain rfl := Option.some.inj (hp.symm.trans hq)
    have hunpaid := hc.waitsUnpaid hM k p₀ hp₀ hpending
    obtain rfl | hsteps := hstep.books hc.sound hM hL' hp₀ hq
    · rw [hpending] at hactive
      cases hactive
    · have hstamp := PositionSteps.stamps hsteps hpending hactive
      have hearned : p.equalEarned M.pool.accEqual = p.accrued := by
        rw [equalEarned_active hactive, Position.equalOwed, hstamp, pendingFees_self, Nat.zero_add]
      have hwaited : p₀.equalEarned M.pool.accEqual = 0 := by
        rw [equalEarned_inactive (by rw [hpending]; decide), hunpaid]
      refine ⟨hstamp, ?_⟩
      simp [TierTally.advance, hp₀, hq, tierCredit, hearned, hwaited]
  | @stayed start t c c' M L' q h hstep hM hL' hq hactive ih =>
    obtain rfl := hL.unique hL'
    obtain rfl := Option.some.inj (hp.symm.trans hq)
    obtain ⟨N, p₀, hN, hp₀, hbefore⟩ := h.active
    obtain rfl := hM.unique hN
    obtain ⟨hstamp, hcredited⟩ := ih hM hp₀
    obtain rfl | hsteps := hstep.books h.tallied.exact.1 hM hL' hp₀ hq
    · refine ⟨hstamp, ?_⟩
      simp only [TierTally.advance, hp₀, hq, tierCredit_self]
      omega
    · have hstands := PositionSteps.stampStands hsteps hbefore hactive
      refine ⟨hstands.trans hstamp, ?_⟩
      simp only [TierTally.advance, hp₀, hq, tierCredit, equalEarned_active hactive,
        equalEarned_active hbefore, Position.equalOwed, hstands]
      omega

def lifeEarned (start : ℕ) (t : TierTally) (accEqual accTier : ℕ) : ℕ :=
  pendingFees accEqual start + earned (t.stints accTier)

theorem ActiveSince.entitled (h : ActiveSince X key k start t c) (hL : c.Reads key L)
    (hp : L.positions.lookup k = some p) (hactive : p.state = .active) :
    L.entitled p = lifeEarned start t L.pool.accEqual L.topTier.accTier := by
  obtain ⟨hstamp, hcredited⟩ := h.books hL hp
  obtain ⟨-, -, hstints⟩ := (h.tallied.exact.2 L hL).pending
  rw [hp] at hstints
  simp only [tierPending, Option.map_some, Option.getD_some] at hstints
  rw [Ledger.entitled, Position.entitlement_active hactive, Position.legs, hstamp, lifeEarned]
  omega

-- ---------------------------------------------------------------------------
-- Its end
-- ---------------------------------------------------------------------------

theorem withdrawAccounting_pays {depositorUsdc : Option Pubkey} {remaining : List AccountMeta}
    {a : Loaded}
    (h : withdrawAccounting clock c key k depositorUsdc remaining a = .ok (c', events)) :
    .withdrawn key clock.slot k a.position.depositor
      (a.position.legs a.pool.accEqual a.topTier.accTier) ∈ events := by
  obtain ⟨booked, _, _, _, _, change, _, haccounting⟩ := withdrawAccounting_ok h
  obtain ⟨targets, -, -, -, -, -, rfl⟩ := applyWithdraw_ok.mp haccounting.books
  rw [haccounting.published]
  simp [withdrawn]

theorem Releases.accounts (h : Releases clock.unixTimestamp k p instr) (hactive : p.state = .active)
    (hrun : exec X clock c instr = .ok (c', events)) :
    ∃ poolKey depositorUsdc remaining a paid, loadThroughPool c poolKey k = .ok a ∧
      withdrawAccounting clock c poolKey k depositorUsdc remaining a = .ok (paid, events) := by
  cases h with
  | withdraw =>
    obtain ⟨a, paid, _, _, hwithdraw⟩ := withdraw_ok hrun
    exact ⟨_, _, _, a, paid, hwithdraw.loads, hwithdraw.accounts⟩
  | withdrawCore =>
    obtain ⟨a, _, paid, _, hwithdraw⟩ := withdrawCore_ok hrun
    exact ⟨_, _, _, a, paid, hwithdraw.loads, hwithdraw.accounts⟩
  | claimNft _ hstate | returnRejected _ hstate | returnRejectedCore _ hstate =>
    rw [hactive] at hstate
    cases hstate
  | claimNftCore _ hstate =>
    rw [hactive] at hstate
    rcases hstate with hstate | hstate <;> cases hstate

/-- Whichever instruction ends a position's activity, it pays the depositor, who signed it, what the
position earned over its whole life, or leaves exactly that with the position it closed. -/
theorem lifetime_payout (h : ActiveSince X key k start t c) (hL : c.ledger key = some L)
    (hrun : exec X clock c instr = .ok (c', events)) :
    ∃ p, c.positions.lookup k = some p ∧
      (c'.positions.lookup k = none →
        .withdrawn key clock.slot k p.depositor
          (lifeEarned start t L.pool.accEqual L.topTier.accTier) ∈ events ∧
        instr.signer = p.depositor ∧
        (0 < lifeEarned start t L.pool.accEqual L.topTier.accTier →
          Credited key p.depositor (lifeEarned start t L.pool.accEqual L.topTier.accTier) c c')) ∧
      ∀ q, c'.positions.lookup k = some q → q.state ≠ .active →
        q.accrued = lifeEarned start t L.pool.accEqual L.topTier.accTier := by
  obtain ⟨M, p, hM, hp, hactive⟩ := h.active
  obtain rfl := hM.unique (ledger_eq_some.mp hL)
  have hearned := h.entitled hM hp hactive
  have hsound := h.tallied.exact.1
  obtain ⟨hfound, hpool⟩ := hM.lookup.mp hp
  have hkey : k = .position key p.nftMint := by
    rw [← hpool]
    exact hsound.wellFormed.positionKey k p hfound
  rw [← hearned]
  refine ⟨p, hfound, fun hafter => ?_, fun q hafter hleft => ?_⟩
  · have hfate := exec_fate hrun k
    rw [hfound, hafter] at hfate
    obtain ⟨poolKey, depositorUsdc, remaining, a, paid, ha, haccounting⟩ :=
      hfate.releases.accounts hactive hrun
    obtain ⟨hload, hposition, hplace⟩ := loadThroughPool_ok ha
    obtain rfl : poolKey = key := by
      rw [hkey, Pubkey.position.injEq] at hplace
      exact hplace.1.symm
    obtain ⟨N, p₀, stats, rfl, hN, -⟩ := hsound.wellFormed.loadThroughPool ha
    obtain rfl := hM.unique hN
    obtain rfl := Option.some.inj (hposition.symm.trans hfound)
    rw [Ledger.entitled, Position.entitlement_active hactive]
    have hevent := withdrawAccounting_pays haccounting
    obtain ⟨hsigner, hcredited⟩ := exec_paysDepositor hsound.wellFormed hrun hevent
    exact ⟨hevent, hsigner, hcredited⟩
  · have hstep : Step X c c' := .instruction clock instr events trivial hrun
    obtain ⟨L', hL', hchange⟩ := (exec_effect hsound.wellFormed hsound.ranked hrun).forward
      hsound.wellFormed hM
    have hplace := (hstep.sound hsound).wellFormed.positionKey k q hafter
    rw [hkey, Pubkey.position.injEq] at hplace
    have hsteps := hchange.positionSteps (hsound.ranked key M hM) hp
      (hL'.lookup.mpr ⟨hafter, hplace.1.symm⟩)
    rw [Ledger.entitled, ← hsteps.entitlement, Position.entitlement_inactive hleft]

-- ---------------------------------------------------------------------------
-- A life of five units
-- ---------------------------------------------------------------------------

def Chain.isActive (c : Chain) (key k : Pubkey) : Bool :=
  (c.ledger key).any fun L => (L.positions.lookup k).any fun p => p.state = .active

theorem isActive_iff : c.isActive key k = true ↔
    ∃ L p, c.Reads key L ∧ L.positions.lookup k = some p ∧ p.state = .active := by
  simp only [Chain.isActive, Option.any_eq_true, decide_eq_true_eq, ledger_eq_some]
  constructor
  · rintro ⟨L, hL, p, hp, hactive⟩
    exact ⟨L, p, hL, hp, hactive⟩
  · rintro ⟨L, p, hL, hp, hactive⟩
    exact ⟨L, hL, p, hp, hactive⟩

theorem watch_eq {t' : TierTally} (hL : c.ledger key = some L) (hL' : c'.ledger key = some L')
    (h : t.watch key k c c' = some t') :
    t.advance L.pool.accEqual L'.topTier.accTier (L.pool.owedFees - L'.pool.owedFees)
      (L.positions.lookup k) (L'.positions.lookup k) = t' := by
  simpa [TierTally.watch, hL, hL'] using h

theorem ActiveSince.watch {t' : TierTally} (h : ActiveSince X key k start t c)
    (hstep : SettlingStep X Rises c c') (hactive : c'.isActive key k = true)
    (hwatch : t.watch key k c c' = some t') : ActiveSince X key k start t' c' := by
  simp only [TierTally.watch, Option.bind_eq_bind, Option.bind_eq_some_iff, Option.pure_def,
    Option.some.injEq] at hwatch
  obtain ⟨L, hL, L', hL', rfl⟩ := hwatch
  obtain ⟨M, q, hM, hq, hstate⟩ := isActive_iff.mp hactive
  obtain rfl := hM.unique (ledger_eq_some.mp hL')
  exact h.stayed hstep (ledger_eq_some.mp hL) hM hq hstate

/-- A roll is paid for while the card is in the tier, and its fees are shared out. -/
def paidBank : Chain := joinedBank.after bank [commitBatch 1]

def sharedBank : Chain :=
  paidBank.settle (.pool 0) ⟨7 * ACC_PRECISION / 2, 5 * ACC_PRECISION / 2, 5, 0, 0⟩

/-- Three and a half units of the one leg and two and a half of the other pay five. -/
theorem lifetime_payout_bank : ∃ t c' events,
    ActiveSince bank (.pool 0) (bankPosition 30) 0 t sharedBank ∧
    exec bank ⟨5, 200⟩ sharedBank (withdrawCard 30).2 = .ok (c', events) ∧
    .withdrawn (.pool 0) 5 (bankPosition 30) (.key 20) 5 ∈ events ∧
    Credited (.pool 0) (.key 20) 5 sharedBank c' := by
  have hwaiting : Reachable bank waitingBank := bankRun_reachable (by decide +kernel)
  have hwaits : (waitingBank.ledger (.pool 0)).any (fun L =>
      L.pool.accEqual = 0 ∧
        (L.positions.lookup (bankPosition 30)).any fun p => p.state = .pending) = true := by
    decide +kernel
  simp only [Option.any_eq_true, decide_eq_true_eq, ledger_eq_some] at hwaits
  obtain ⟨L₀, hL₀, hacc, p₀, hp₀, hpending⟩ := hwaits
  obtain ⟨L₁, p₁, hL₁, hp₁, hactive⟩ := isActive_iff.mp
    (show joinedBank.isActive (.pool 0) (bankPosition 30) = true by decide +kernel)
  have hfirst := ActiveSince.activated hwaiting.settling hL₀ hp₀ hpending
    (.of_script (by decide +kernel)) hL₁ hp₁ hactive
  have hseen : (do
      let t ← (⟨none, [], 0⟩ : TierTally).watch (.pool 0) (bankPosition 30) waitingBank joinedBank
      let t ← t.watch (.pool 0) (bankPosition 30) joinedBank paidBank
      t.watch (.pool 0) (bankPosition 30) paidBank sharedBank) = some ⟨some 0, [], 0⟩ := by
    decide +kernel
  simp only [Option.bind_eq_bind, Option.bind_eq_some_iff] at hseen
  obtain ⟨t₁, h₁, t₂, h₂, h₃⟩ := hseen
  rw [watch_eq (ledger_eq_some.mpr hL₀) (ledger_eq_some.mpr hL₁) h₁, hacc] at hfirst
  have hshared := (hfirst.watch (.of_script (by decide +kernel)) (by decide +kernel) h₂).watch
    (.of_rise (by decide +kernel)) (by decide +kernel) h₃
  obtain ⟨events, hrun⟩ := exec_after (X := bank) (c := sharedBank) (s := withdrawCard 30)
    (by decide +kernel)
  have hends : (sharedBank.ledger (.pool 0)).any (fun L =>
      L.pool.accEqual = 7 * ACC_PRECISION / 2 ∧ L.topTier.accTier = 5 * ACC_PRECISION / 2) = true ∧
      (sharedBank.positions.lookup (bankPosition 30)).any (fun p => p.depositor = .key 20) = true ∧
      (sharedBank.after bank [withdrawCard 30]).positions.lookup (bankPosition 30) = none := by
    decide +kernel
  simp only [Option.any_eq_true, decide_eq_true_eq] at hends
  obtain ⟨⟨L, hL, hequal, htier⟩, ⟨p, hp, hdepositor⟩, hclosed⟩ := hends
  obtain ⟨q, hq, hpaid, -⟩ := lifetime_payout hshared hL hrun
  obtain rfl := Option.some.inj (hp.symm.trans hq)
  obtain ⟨hevent, -, hcredited⟩ := hpaid hclosed
  rw [hdepositor, hequal, htier] at hevent hcredited
  exact ⟨_, _, events, hshared, hrun, hevent, hcredited (by decide)⟩

end ByeMachine
