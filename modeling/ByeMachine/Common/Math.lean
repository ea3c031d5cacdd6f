import ByeMachine.Common.Constants
import ByeMachine.Common.Errors

/-!
# Weights and fee payouts

`common/math.rs`: the Fenwick weight of a value, the aggregate weight with the
blanks, the ticket quote, the accumulator units of a fee and a position's fee
payout since its checkpoint.
-/

namespace ByeMachine

open Fallible

/-- `checked_*(..).ok_or(ByeMachineError::ArithmeticFailure)`. -/
def orArithmeticFailure {α : Type} (o : Option α) : Result α :=
  okOr o (.program .arithmeticFailure)

theorem orArithmeticFailure_ok {α : Type} {o : Option α} {a : α} :
    orArithmeticFailure o = .ok a ↔ o = some a := okOr_ok

@[simp] theorem orArithmeticFailure_some {α : Type} (a : α) :
    orArithmeticFailure (some a) = .ok a := rfl

/-- A position's Fenwick weight for a given value, floor division. -/
def weightOf (value : ℕ) : Result ℕ := do
  require (0 < value) (.program .zeroValue)
  let w ← orArithmeticFailure (Checked.div WEIGHT_C value)
  require (0 < w) (.program .arithmeticFailure)
  orArithmeticFailure (Checked.narrow 64 w)

/-- The pool's total draw weight: real positions plus each blank denomination's counter
weight times its count. -/
def aggregateWeight (wReal : ℕ) (blanks : Denomination → ℕ)
    (blankFaces : Denomination → ℕ) : Result ℕ :=
  [0, 1, 2].foldlM (fun total d => do
    let faceWeight ← weightOf (blankFaces d)
    let contribution ← orArithmeticFailure (Checked.mul 128 faceWeight (blanks d))
    orArithmeticFailure (Checked.add 128 total contribution)) wReal

/-- The published expected-value ticket quote: `n_total` slots priced against the pool's
aggregate weight, floor. -/
def ticketQuote (nTotal aggregateWeight : ℕ) : Result ℕ := do
  require (0 < aggregateWeight) (.program .arithmeticFailure)
  let numerator ← orArithmeticFailure (Checked.mul 128 WEIGHT_C nTotal)
  let quote ← orArithmeticFailure (Checked.div numerator aggregateWeight)
  orArithmeticFailure (Checked.narrow 64 quote)

/-- `ACC_PRECISION`-scaled share of `alloc_bps` out of `fee` for each of `denom`, floor. -/
def accumulatorUnit (fee allocBps denom : ℕ) : Result ℕ := do
  require (0 < denom) (.program .zeroValue)
  let scaled ← orArithmeticFailure (Checked.mul 128 fee allocBps)
  let bpsShare ← orArithmeticFailure (Checked.div scaled 10000)
  let scaled ← orArithmeticFailure (Checked.mul 128 bpsShare ACC_PRECISION)
  orArithmeticFailure (Checked.div scaled denom)

def equalShareUnit (fee allocEqualBps nTotal : ℕ) : Result ℕ :=
  accumulatorUnit fee allocEqualBps nTotal

def tierShareUnit (fee allocTierBps tierLen : ℕ) : Result ℕ :=
  accumulatorUnit fee allocTierBps tierLen

/-- A position's unpaid fee-accumulator delta since its checkpoint, plus anything already
settled to `accrued`, floor. -/
def positionFeePayout (accNow checkpoint : ℕ) (accrued : ℕ) : Result ℕ := do
  let delta ← orArithmeticFailure (Checked.sub accNow checkpoint)
  let scaled ← orArithmeticFailure (Checked.div delta ACC_PRECISION)
  let scaled ← orArithmeticFailure (Checked.narrow 64 scaled)
  orArithmeticFailure (Checked.add 64 scaled accrued)

/-- The weight a value has where `weightOf` gives it one. -/
def weight (value : ℕ) : ℕ := WEIGHT_C / value

/-- The whole fee units an accumulator moved by since a checkpoint. -/
def pendingFees (accNow checkpoint : ℕ) : ℕ := (accNow - checkpoint) / ACC_PRECISION

-- ---------------------------------------------------------------------------
-- What a success says
-- ---------------------------------------------------------------------------

theorem weight_le (value : ℕ) : weight value ≤ WEIGHT_C := Nat.div_le_self _ _

theorem weight_lt (value : ℕ) : weight value < 2 ^ 64 :=
  lt_of_le_of_lt (weight_le value) (by decide)

/-- `weight_of` succeeds exactly on `1 ≤ value ≤ C`; the narrowing never fails. -/
theorem weightOf_ok {value : ℕ} {w : ℕ} :
    weightOf value = .ok w ↔ 0 < value ∧ value ≤ WEIGHT_C ∧ w = weight value := by
  simp only [weightOf, bind_ok, require_ok, orArithmeticFailure_ok, Checked.div_some,
    Checked.narrow_some]
  constructor
  · rintro ⟨-, hv, _, ⟨-, rfl⟩, -, hw, -, rfl⟩
    exact ⟨hv, (Nat.div_pos_iff.mp hw).2, rfl⟩
  · rintro ⟨hv, hC, rfl⟩
    exact ⟨(), hv, _, ⟨hv.ne', rfl⟩, (), Nat.div_pos hC hv, weight_lt value, rfl⟩

theorem weight_pos {value : ℕ} (h0 : 0 < value) (hC : value ≤ WEIGHT_C) : 0 < weight value :=
  Nat.div_pos hC h0

theorem weightOf_pos {value w : ℕ} (h : weightOf value = .ok w) : 0 < w := by
  obtain ⟨h0, hC, rfl⟩ := weightOf_ok.mp h
  exact weight_pos h0 hC

theorem ticketQuote_ok {nTotal aggregateWeight quote : ℕ} :
    ticketQuote nTotal aggregateWeight = .ok quote ↔
      0 < aggregateWeight ∧ WEIGHT_C * nTotal < 2 ^ 128 ∧ quote < 2 ^ 64 ∧
        quote = WEIGHT_C * nTotal / aggregateWeight := by
  simp only [ticketQuote, bind_ok, require_ok, orArithmeticFailure_ok, Checked.mul_some,
    Checked.div_some, Checked.narrow_some]
  constructor
  · rintro ⟨-, hpos, _, ⟨hlt, rfl⟩, _, ⟨-, rfl⟩, hnarrow, rfl⟩
    exact ⟨hpos, hlt, hnarrow, rfl⟩
  · rintro ⟨hpos, hlt, hnarrow, rfl⟩
    exact ⟨(), hpos, _, ⟨hlt, rfl⟩, _, ⟨hpos.ne', rfl⟩, hnarrow, rfl⟩

theorem accumulatorUnit_ok {fee allocBps denom unit : ℕ} :
    accumulatorUnit fee allocBps denom = .ok unit ↔
      0 < denom ∧ fee * allocBps < 2 ^ 128 ∧ fee * allocBps / 10000 * ACC_PRECISION < 2 ^ 128 ∧
        unit = fee * allocBps / 10000 * ACC_PRECISION / denom := by
  simp only [accumulatorUnit, bind_ok, require_ok, orArithmeticFailure_ok, Checked.mul_some,
    Checked.div_some]
  constructor
  · rintro ⟨-, hpos, _, ⟨hfee, rfl⟩, _, ⟨-, rfl⟩, _, ⟨hscaled, rfl⟩, -, rfl⟩
    exact ⟨hpos, hfee, hscaled, rfl⟩
  · rintro ⟨hpos, hfee, hscaled, rfl⟩
    exact ⟨(), hpos, _, ⟨hfee, rfl⟩, _, ⟨by decide, rfl⟩, _, ⟨hscaled, rfl⟩, hpos.ne', rfl⟩

theorem positionFeePayout_ok {accNow checkpoint : ℕ} {accrued paid : ℕ} :
    positionFeePayout accNow checkpoint accrued = .ok paid ↔
      checkpoint ≤ accNow ∧ pendingFees accNow checkpoint + accrued < 2 ^ 64 ∧
        paid = pendingFees accNow checkpoint + accrued := by
  simp only [positionFeePayout, bind_ok, orArithmeticFailure_ok, Checked.sub_some,
    Checked.div_some, Checked.narrow_some, Checked.add_some, pendingFees]
  constructor
  · rintro ⟨_, ⟨hle, rfl⟩, _, ⟨-, rfl⟩, _, ⟨-, rfl⟩, hlt, rfl⟩
    exact ⟨hle, hlt, rfl⟩
  · rintro ⟨hle, hlt, rfl⟩
    exact ⟨_, ⟨hle, rfl⟩, _, ⟨by decide, rfl⟩, _, ⟨by omega, rfl⟩, hlt, rfl⟩

@[simp] theorem pendingFees_self (acc : ℕ) : pendingFees acc acc = 0 := by
  simp [pendingFees]

end ByeMachine
