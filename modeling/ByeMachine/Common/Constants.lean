import Mathlib.Algebra.Order.Ring.Nat
import Mathlib.Data.Int.Notation
import Mathlib.Data.Fin.VecNotation

/-!
# Constants and machine integers

An unsigned machine integer is a natural and an `i64` an integer: every
operation of the source that can leave its width is written with the width it
is checked at.
-/

namespace ByeMachine

/-- `w = WEIGHT_C / V`, floor division. -/
def WEIGHT_C : ℕ := 1000000000000000000

/-- Fee-accumulator fixed-point scaling. -/
def ACC_PRECISION : ℕ := 1000000000000

def MAX_BATCH_CAPACITY : ℕ := 10

/-- Leaves per `WeightIndex` Fenwick tree. -/
def FENWICK_CAPACITY : ℕ := 16384

def DEFAULT_PRICE : ℕ := 9900000
def DEFAULT_TICKET_TARGET : ℕ := 9000000
def DEFAULT_FEE : ℕ := 900000
def DEFAULT_ALLOC_EQUAL_BPS : ℕ := 7500
def DEFAULT_ALLOC_TIER_BPS : ℕ := 500
def DEFAULT_ALLOC_PROTOCOL_BPS : ℕ := 2000
def DEFAULT_ADMISSION_FLOOR : ℕ := 12000000
def DEFAULT_T04_CEILING : ℕ := 2000000000
def DEFAULT_SWEEP_CADENCE_HOURS : ℕ := 24
def DEFAULT_TIER_SIZE : ℕ := 20
def DEFAULT_BUYBACK_RATE_BPS : ℕ := 8500

/-- A blank denomination: the `$1`, `$2` and `$5` cards, in that order. -/
abbrev Denomination := Fin 3

-- A named instance, so that a denomination's literal is the same term in every module.
instance neZeroThree : NeZero 3 := ⟨Nat.succ_ne_zero 2⟩

def DEFAULT_BLANK_FACES : Denomination → ℕ := ![1000000, 2000000, 5000000]

theorem WEIGHT_C_pos : 0 < WEIGHT_C := by decide

theorem ACC_PRECISION_pos : 0 < ACC_PRECISION := by decide

end ByeMachine
