import ByeMachine.Base.Floors
import ByeMachine.Common.ExitAccounting
import Mathlib.Algebra.BigOperators.Group.Finset.Basic
import Mathlib.Algebra.BigOperators.Ring.Finset
import Mathlib.Algebra.Order.BigOperators.Group.Finset

/-!
# Fee shares

A fee's share is split over a denominator, and each sharer draws its part by
settlements of its own. Every division rounds down, so the sharers together
never draw more than the fees' allocations, and one that settles often loses
less than a unit each time.
-/

namespace ByeMachine

open Fallible Floors

-- ---------------------------------------------------------------------------
-- A sharer
-- ---------------------------------------------------------------------------

/-- A sharer of an accumulator, with what it was paid so far. -/
structure Sharer where
  acc : ℕ
  checkpoint : ℕ
  accrued : ℕ
  paid : ℕ

namespace Sharer

def settle (s : Sharer) : Result Sharer := do
  let accrued ← positionFeePayout s.acc s.checkpoint s.accrued
  pure { s with checkpoint := s.acc, accrued }

def pay (s : Sharer) : Result Sharer := do
  let payout ← positionFeePayout s.acc s.checkpoint s.accrued
  pure { s with checkpoint := s.acc, accrued := 0, paid := s.paid + payout }

def received (s : Sharer) : ℕ := s.paid + s.accrued

def fresh (acc : ℕ) : Sharer := ⟨acc, acc, 0, 0⟩

end Sharer

inductive Share where
  | equal
  | tier
  deriving DecidableEq, Repr

/-- What each sharer's accumulator grows by. -/
def Share.unit : Share → ℕ → ℕ → ℕ → Result ℕ
  | .equal => equalShareUnit
  | .tier => tierShareUnit

/-- A fee with the sharers enrolled at it, no more than its denominator, or a settlement. -/
inductive FeeEvent (ι : Type) where
  | fee (amount bps denom : ℕ) (enrolled : Finset ι) (fits : enrolled.card ≤ denom)
  | settle (sharer : ι)
  | pay (sharer : ι)

variable {ι : Type} [DecidableEq ι]

namespace FeeEvent

def apply (share : Share) (ledger : ι → Sharer) : FeeEvent ι → Result (ι → Sharer)
  | .fee amount bps denom enrolled _ => do
    let unit ← share.unit amount bps denom
    pure fun i => if i ∈ enrolled then { ledger i with acc := (ledger i).acc + unit } else ledger i
  | .settle i => do
    let sharer ← (ledger i).settle
    pure (Function.update ledger i sharer)
  | .pay i => do
    let sharer ← (ledger i).pay
    pure (Function.update ledger i sharer)

def allocated : FeeEvent ι → ℕ
  | .fee amount bps _ _ _ => amount * bps / 10000
  | .settle _ => 0
  | .pay _ => 0

def settles (i : ι) : FeeEvent ι → Bool
  | .fee .. => false
  | .settle j => j = i
  | .pay j => j = i

end FeeEvent

/-- The ledger after the events, where every one of them succeeds. -/
def runFees (share : Share) (ledger : ι → Sharer) (events : List (FeeEvent ι)) :
    Result (ι → Sharer) :=
  events.foldlM (FeeEvent.apply share) ledger

def allocated (events : List (FeeEvent ι)) : ℕ := (events.map FeeEvent.allocated).sum

def settlements (i : ι) (events : List (FeeEvent ι)) : ℕ :=
  (events.filter (FeeEvent.settles i)).length

-- ---------------------------------------------------------------------------
-- What one sharer receives
-- ---------------------------------------------------------------------------

/-- After `m` settlements the sharer has received the floors of what its checkpoint passed. -/
structure Drawn (start : ℕ) (m : ℕ) (s : Sharer) : Prop where
  begun : start ≤ s.checkpoint
  ahead : s.checkpoint ≤ s.acc
  floored : Floored ACC_PRECISION (s.checkpoint - start) s.received m

section
variable {start m unit : ℕ} {s s' : Sharer}

theorem Drawn.fresh (acc : ℕ) : Drawn acc 0 (Sharer.fresh acc) :=
  ⟨le_rfl, le_rfl, by simpa [Sharer.fresh, Sharer.received] using Floored.zero ACC_PRECISION⟩

theorem Drawn.grow (h : Drawn start m s) : Drawn start m { s with acc := s.acc + unit } :=
  ⟨h.begun, h.ahead.trans (Nat.le_add_right _ _), h.floored⟩

/-- A settlement of either kind: the checkpoint is stamped, and what it passed received. -/
structure Sharer.Settled (s s' : Sharer) : Prop where
  checkpoint : s'.checkpoint = s.acc
  acc : s'.acc = s.acc
  received : s'.received = s.received + pendingFees s.acc s.checkpoint

theorem Drawn.settled (h : Drawn start m s) (hsettled : s.Settled s') : Drawn start (m + 1) s' := by
  have hbegun := h.begun
  have hahead := h.ahead
  have hpart := h.floored.add ACC_PRECISION_pos (s.acc - s.checkpoint)
  have hsplit : s.acc - start = s.checkpoint - start + (s.acc - s.checkpoint) := by omega
  refine ⟨?_, ?_, ?_⟩
  · rw [hsettled.checkpoint]
    omega
  · rw [hsettled.checkpoint, hsettled.acc]
  · rw [hsettled.checkpoint, hsettled.received, hsplit]
    exact hpart

theorem Sharer.settle_ok (h : s.settle = .ok s') : s.Settled s' := by
  simp only [settle, bind_ok, positionFeePayout_ok, pure_ok] at h
  obtain ⟨_, ⟨-, -, rfl⟩, rfl⟩ := h
  refine ⟨rfl, rfl, ?_⟩
  simp only [received]
  omega

theorem Sharer.pay_ok (h : s.pay = .ok s') : s.Settled s' := by
  simp only [pay, bind_ok, positionFeePayout_ok, pure_ok] at h
  obtain ⟨_, ⟨-, -, rfl⟩, rfl⟩ := h
  refine ⟨rfl, rfl, ?_⟩
  simp only [received]
  omega

end

-- ---------------------------------------------------------------------------
-- The settlements of a withdrawal
-- ---------------------------------------------------------------------------

def Position.tierSharer (position : Position) (accTier : ℕ) : Sharer :=
  ⟨accTier, position.tierCheckpoint, position.accrued, 0⟩

def Position.equalSharer (position : Position) (accEqual : ℕ) : Sharer :=
  ⟨accEqual, position.equalCheckpoint, position.accrued, 0⟩

/-- A member's tier leg is settled into what the equal leg then pays out. -/
theorem applyWithdraw_settles {pool : Pool} {position : Position} {walletStats : WalletStats}
    {accTier : ℕ} {now : ℤ} {booked : Booked WithdrawEffect}
    (h : applyWithdraw pool position walletStats accTier now = .ok booked) :
    ∃ carried : Position,
      (position.inTier = true →
        (position.tierSharer accTier).settle = .ok (carried.tierSharer accTier)) ∧
      (position.inTier = false → carried = position) ∧
      (carried.equalSharer pool.accEqual).pay
        = .ok { booked.position.equalSharer pool.accEqual with paid := booked.effect.feesPaid } ∧
      carried.equalCheckpoint = position.equalCheckpoint := by
  simp only [applyWithdraw, bind_ok, pure_ok] at h
  obtain ⟨_, _, _, _, _, _, ⟨carried, tierCheckpoint⟩, hleg, paid, hpaid, h⟩ := h
  obtain ⟨_, _, _, _, _, _, _, _, _, _, _, _, _, _, _, _, rfl⟩ := h
  refine ⟨{ position with accrued := carried, tierCheckpoint }, fun hmember => ?_,
    fun hmember => ?_, ?_, rfl⟩
  · simp only [settleTierLeg, hmember, if_true, bind_ok, pure_ok, Prod.mk.injEq] at hleg
    obtain ⟨_, hsettled, rfl, rfl⟩ := hleg
    simp only [Sharer.settle, Position.tierSharer, hsettled, ok_bind]
    rfl
  · simp only [settleTierLeg, hmember, Bool.false_eq_true, if_false, pure_ok,
      Prod.mk.injEq] at hleg
    obtain ⟨rfl, rfl⟩ := hleg
    rfl
  · simp only [Sharer.pay, Position.equalSharer, hpaid, ok_bind, Nat.zero_add]
    rfl

/-- What one settlement of the whole would pay, paid in `m + 1` parts. -/
structure InParts (m single paid : ℕ) : Prop where
  le : paid ≤ single
  lost : single ≤ paid + m

/-- The withdrawal of a position is one settlement more of the sharer it is: of its equal leg where
it is no member, and where it is one of its tier leg, with the equal leg paid beside it. -/
structure PaysOff (start m : ℕ) (s : Sharer) : Prop where
  equal : ∀ pool position walletStats accTier now booked,
    applyWithdraw pool position walletStats accTier now = .ok booked → position.inTier = false →
      s = { position.equalSharer pool.accEqual with paid := s.paid } →
      ∀ single, positionFeePayout s.acc start 0 = .ok single →
        InParts m single (s.paid + booked.effect.feesPaid)
  tier : ∀ pool position walletStats accTier now booked,
    applyWithdraw pool position walletStats accTier now = .ok booked → position.inTier = true →
      s = { position.tierSharer accTier with paid := s.paid } →
      ∀ single, positionFeePayout s.acc start 0 = .ok single →
        ∃ leg, booked.effect.feesPaid
            = leg + pendingFees pool.accEqual position.equalCheckpoint ∧
          InParts m single (s.paid + leg)

section
variable {start m single : ℕ} {s s' : Sharer}

theorem Drawn.inParts (h : Drawn start m s) (hsettled : s.Settled s')
    (hsingle : positionFeePayout s.acc start 0 = .ok single) : InParts m single s'.received := by
  obtain ⟨-, -, rfl⟩ := positionFeePayout_ok.mp hsingle
  have hnow := (h.settled hsettled).floored
  rw [hsettled.checkpoint] at hnow
  exact ⟨hnow.le_div ACC_PRECISION_pos, hnow.div_le ACC_PRECISION_pos (Nat.succ_pos m)⟩

theorem Drawn.paysOff (h : Drawn start m s) : PaysOff start m s where
  equal := by
    intro pool position walletStats accTier now booked hbooked hout hleg single hsingle
    obtain ⟨carried, -, hcarried, hpay, -⟩ := applyWithdraw_settles hbooked
    obtain rfl := hcarried hout
    simp only [Sharer.pay, bind_ok, positionFeePayout_ok, pure_ok, Sharer.mk.injEq] at hpay
    obtain ⟨paid, ⟨-, -, rfl⟩, -, -, -, hpaid⟩ := hpay
    have hsettled : s.Settled { s with
        checkpoint := s.acc, accrued := 0, paid := s.paid + booked.effect.feesPaid } := by
      refine ⟨rfl, rfl, ?_⟩
      rw [← hpaid, hleg]
      simp only [Sharer.received, Position.equalSharer]
      omega
    exact h.inParts hsettled hsingle
  tier := by
    intro pool position walletStats accTier now booked hbooked hin hleg single hsingle
    obtain ⟨carried, hcarried, -, hpay, hequal⟩ := applyWithdraw_settles hbooked
    have htier := Sharer.settle_ok (hcarried hin)
    simp only [Sharer.pay, bind_ok, positionFeePayout_ok, pure_ok, Sharer.mk.injEq] at hpay
    obtain ⟨paid, ⟨-, -, rfl⟩, -, -, -, hpaid⟩ := hpay
    have hsettled : s.Settled { s with checkpoint := s.acc, accrued := carried.accrued } := by
      refine ⟨rfl, rfl, ?_⟩
      have hreceived := htier.received
      rw [hleg]
      simp only [Sharer.received, Position.tierSharer] at hreceived ⊢
      omega
    refine ⟨carried.accrued, ?_, h.inParts hsettled hsingle⟩
    rw [← hpaid, ← hequal]
    simp only [Position.equalSharer]
    omega

end

-- ---------------------------------------------------------------------------
-- Runs
-- ---------------------------------------------------------------------------

section
variable {share : Share} {ledger ledger' : ι → Sharer} {event : FeeEvent ι}
  {events : List (FeeEvent ι)} {start m amount bps denom unit : ℕ} {i : ι}

theorem Share.unit_ok (h : share.unit amount bps denom = .ok unit) :
    denom * unit ≤ amount * bps / 10000 * ACC_PRECISION := by
  have hunit : accumulatorUnit amount bps denom = .ok unit := by
    cases share with
    | equal => exact h
    | tier => exact h
  obtain ⟨-, -, -, rfl⟩ := accumulatorUnit_ok.mp hunit
  exact Nat.mul_div_le _ _

theorem FeeEvent.apply_cases (h : event.apply share ledger = .ok ledger') :
    (∃ (enrolled : Finset ι) (unit : ℕ), (∀ i, event.settles i = false) ∧
      enrolled.card * unit ≤ event.allocated * ACC_PRECISION ∧
      ledger' = fun i => if i ∈ enrolled then { ledger i with acc := (ledger i).acc + unit }
        else ledger i) ∨
    ∃ j s', (∀ i, event.settles i = decide (j = i)) ∧ event.allocated = 0 ∧
      (ledger j).Settled s' ∧ ledger' = Function.update ledger j s' := by
  cases event with
  | fee amount bps denom enrolled fits =>
    simp only [apply, bind_ok, pure_ok] at h
    obtain ⟨unit, hunit, rfl⟩ := h
    exact .inl ⟨enrolled, unit, fun _ => rfl,
      (Nat.mul_le_mul_right _ fits).trans (Share.unit_ok hunit), rfl⟩
  | settle j =>
    simp only [apply, bind_ok, pure_ok] at h
    obtain ⟨s', hsettle, rfl⟩ := h
    exact .inr ⟨j, s', fun _ => rfl, rfl, Sharer.settle_ok hsettle, rfl⟩
  | pay j =>
    simp only [apply, bind_ok, pure_ok] at h
    obtain ⟨s', hpay, rfl⟩ := h
    exact .inr ⟨j, s', fun _ => rfl, rfl, Sharer.pay_ok hpay, rfl⟩

theorem settlements_cons :
    settlements i (event :: events)
      = (if event.settles i then 1 else 0) + settlements i events := by
  unfold settlements
  rw [List.filter_cons]
  split
  · rw [List.length_cons, Nat.add_comm]
  · rw [Nat.zero_add]

/-- A sharer's settlement is one part more; nothing else moves its checkpoint. -/
theorem FeeEvent.apply_drawn (h : event.apply share ledger = .ok ledger')
    (hdrawn : Drawn start m (ledger i)) :
    Drawn start (m + if event.settles i then 1 else 0) (ledger' i) := by
  obtain ⟨enrolled, unit, hsettles, -, rfl⟩ | ⟨j, s', hsettles, -, hsettled, rfl⟩ := apply_cases h
  · rw [hsettles, if_neg Bool.false_ne_true, Nat.add_zero]
    dsimp only
    split
    · exact hdrawn.grow
    · exact hdrawn
  · rw [hsettles]
    by_cases hj : j = i
    · subst hj
      simpa using hdrawn.settled hsettled
    · simpa [hj, Function.update_of_ne (Ne.symm hj)] using hdrawn

theorem runFees_drawn (h : runFees share ledger events = .ok ledger')
    (hdrawn : Drawn start m (ledger i)) : Drawn start (m + settlements i events) (ledger' i) := by
  induction events generalizing ledger m with
  | nil =>
    simp only [runFees, List.foldlM_nil, pure_ok] at h
    exact h ▸ hdrawn
  | cons event events ih =>
    simp only [runFees, List.foldlM_cons, bind_ok] at h
    obtain ⟨next, hnext, hrest⟩ := h
    rw [settlements_cons, ← Nat.add_assoc]
    exact ih hrest (FeeEvent.apply_drawn hnext hdrawn)

/-- The accumulators of some sharers together grow by no more than the allocation. -/
theorem FeeEvent.apply_grows (S : Finset ι) (h : event.apply share ledger = .ok ledger') :
    ∑ i ∈ S, (ledger' i).acc ≤ ∑ i ∈ S, (ledger i).acc + event.allocated * ACC_PRECISION := by
  obtain ⟨enrolled, unit, -, hunit, rfl⟩ | ⟨j, s', -, -, hsettled, rfl⟩ := apply_cases h
  · have hsplit : ∀ i, (if i ∈ enrolled then { ledger i with acc := (ledger i).acc + unit }
        else ledger i).acc = (ledger i).acc + if i ∈ enrolled then unit else 0 := by
      intro i
      split <;> rfl
    have henrolled : ∑ i ∈ S, (if i ∈ enrolled then unit else 0) ≤ enrolled.card * unit := by
      rw [← Finset.sum_filter, Finset.sum_const_nat fun _ _ => rfl]
      refine Nat.mul_le_mul_right _ (Finset.card_le_card fun i hi => ?_)
      exact (Finset.mem_filter.mp hi).2
    rw [Finset.sum_congr rfl fun i _ => hsplit i, Finset.sum_add_distrib]
    exact Nat.add_le_add_left (henrolled.trans hunit) _
  · refine (Finset.sum_le_sum fun i _ => ?_).trans (Nat.le_add_right _ _)
    by_cases hj : i = j
    · subst hj
      rw [Function.update_self, hsettled.acc]
    · rw [Function.update_of_ne hj]

theorem runFees_grows (S : Finset ι) (h : runFees share ledger events = .ok ledger') :
    ∑ i ∈ S, (ledger' i).acc ≤ ∑ i ∈ S, (ledger i).acc + allocated events * ACC_PRECISION := by
  induction events generalizing ledger with
  | nil =>
    simp only [runFees, List.foldlM_nil, pure_ok] at h
    rw [h]
    exact Nat.le_add_right _ _
  | cons event events ih =>
    simp only [runFees, List.foldlM_cons, bind_ok] at h
    obtain ⟨next, hnext, hrest⟩ := h
    have hfirst := FeeEvent.apply_grows S hnext
    have hafter := ih hrest
    have hsum : allocated (event :: events) = event.allocated + allocated events := rfl
    rw [hsum, Nat.add_mul]
    omega

end

/-- The sharers together receive no more than the fees' allocations. A sharer receives no more than
one settlement at the end would pay. Its checkpoint is its accumulator at its last settlement: what
one settlement there would pay, it misses by at most a unit for each of its settlements but one. A
withdrawal now pays it off. -/
theorem fee_shares (share : Share) (start : ι → ℕ) {events : List (FeeEvent ι)}
    {ledger : ι → Sharer}
    (h : runFees share (fun i => Sharer.fresh (start i)) events = .ok ledger) :
    (∀ S : Finset ι, ∑ i ∈ S, (ledger i).received ≤ allocated events) ∧
    ∀ i,
      (∀ single, positionFeePayout (ledger i).acc (start i) 0 = .ok single →
        (ledger i).received ≤ single) ∧
      (0 < settlements i events →
        ∀ single, positionFeePayout (ledger i).checkpoint (start i) 0 = .ok single →
          single ≤ (ledger i).received + (settlements i events - 1)) ∧
      PaysOff (start i) (settlements i events) (ledger i) := by
  have hdrawn : ∀ i, Drawn (start i) (settlements i events) (ledger i) := fun i => by
    simpa using runFees_drawn h (Drawn.fresh (start i))
  constructor
  · intro S
    refine Nat.le_of_mul_le_mul_right ?_ ACC_PRECISION_pos
    have hgrows : ∑ i ∈ S, (ledger i).acc ≤ ∑ i ∈ S, start i + allocated events * ACC_PRECISION :=
      runFees_grows S h
    have hreceived : ∑ i ∈ S, (start i + (ledger i).received * ACC_PRECISION)
        ≤ ∑ i ∈ S, (ledger i).acc := Finset.sum_le_sum fun i _ => by
      have hbegun := (hdrawn i).begun
      have hahead := (hdrawn i).ahead
      have hle := (hdrawn i).floored.le
      omega
    rw [Finset.sum_add_distrib, ← Finset.sum_mul] at hreceived
    omega
  · intro i
    refine ⟨?_, ?_, (hdrawn i).paysOff⟩
    · intro single hsingle
      obtain ⟨-, -, rfl⟩ := positionFeePayout_ok.mp hsingle
      have hahead := Nat.sub_le_sub_right (hdrawn i).ahead (start i)
      exact ((hdrawn i).floored.le_div ACC_PRECISION_pos).trans (Nat.div_le_div_right hahead)
    · intro hsettles single hsingle
      obtain ⟨-, -, rfl⟩ := positionFeePayout_ok.mp hsingle
      exact (hdrawn i).floored.div_le ACC_PRECISION_pos hsettles

/-- A fee, the settlement of its one sharer, and another fee. -/
def lateFees : List (FeeEvent (Fin 1)) :=
  [.fee DEFAULT_FEE DEFAULT_ALLOC_EQUAL_BPS 7 {0} (by decide), .settle 0,
    .fee DEFAULT_FEE DEFAULT_ALLOC_EQUAL_BPS 7 {0} (by decide)]

/-- What a settlement at the end would pay is not what a single settlement before it misses by
nothing: the fee after it is outstanding. -/
theorem fee_shares_late : ¬∀ (share : Share) (start : Fin 1 → ℕ) (events : List (FeeEvent (Fin 1)))
    (ledger : Fin 1 → Sharer),
    runFees share (fun i => Sharer.fresh (start i)) events = .ok ledger →
      ∀ i, 0 < settlements i events →
        ∀ single, positionFeePayout (ledger i).acc (start i) 0 = .ok single →
          single ≤ (ledger i).received + (settlements i events - 1) := by
  intro hclaim
  obtain ⟨ledger, hrun⟩ : ∃ ledger,
      runFees .equal (fun i => Sharer.fresh ((fun _ => 0) i)) lateFees = .ok ledger :=
    isOk_iff.mp (by decide +kernel)
  have hends : (runFees .equal (fun i => Sharer.fresh ((fun _ => 0) i)) lateFees).toOption.map
      (fun ledger => ((ledger 0).acc, (ledger 0).received)) = some (192857142857142856, 96428) := by
    decide +kernel
  rw [hrun] at hends
  obtain ⟨hacc, hreceived⟩ := Prod.mk.inj (Option.some.inj hends)
  have hlost := hclaim .equal (fun _ => 0) lateFees ledger hrun 0 (by decide) 192857
    (by rw [hacc]; decide +kernel)
  rw [hreceived] at hlost
  exact absurd hlost (by decide)

/-- Two fees at the default allocation: two sharers of seven at the first, one of three at the
second. The first sharer settles between them and is paid at the end. -/
def defaultFees : List (FeeEvent (Fin 2)) :=
  [.fee DEFAULT_FEE DEFAULT_ALLOC_EQUAL_BPS 7 {0, 1} (by decide), .settle 0,
    .fee DEFAULT_FEE DEFAULT_ALLOC_EQUAL_BPS 3 {0} (by decide), .pay 0]

theorem fee_shares_default :
    ∃ ledger : Fin 2 → Sharer,
      runFees .equal (fun i => Sharer.fresh (![0, 7] i)) defaultFees = .ok ledger ∧
      ∑ i ∈ {0, 1}, (ledger i).received ≤ 1350000 ∧
      (ledger 0).received ≤ 321428 ∧ 321428 ≤ (ledger 0).received + 1 := by
  obtain ⟨ledger, hrun⟩ : ∃ ledger,
      runFees .equal (fun i => Sharer.fresh (![0, 7] i)) defaultFees = .ok ledger :=
    isOk_iff.mp (by decide +kernel)
  have hends : (runFees .equal (fun i => Sharer.fresh (![0, 7] i)) defaultFees).toOption.map
      (fun ledger => ((ledger 0).acc, (ledger 0).checkpoint))
        = some (321428571428571428, 321428571428571428) := by decide +kernel
  rw [hrun] at hends
  obtain ⟨hacc, hcheckpoint⟩ := Prod.mk.inj (Option.some.inj hends)
  obtain ⟨htotal, hsharer⟩ := fee_shares .equal ![0, 7] hrun
  obtain ⟨hle, hlost, -⟩ := hsharer 0
  exact ⟨ledger, hrun, (htotal {0, 1}).trans (by decide +kernel),
    hle 321428 (by rw [hacc]; decide +kernel),
    hlost (by decide +kernel) 321428 (by rw [hcheckpoint]; decide +kernel)⟩

end ByeMachine
