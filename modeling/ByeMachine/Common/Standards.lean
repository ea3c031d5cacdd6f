import Mathlib.Algebra.Order.Ring.Nat
import Mathlib.Data.Nat.Bitwise

/-!
# Token standards

`common/standards.rs`: the custody discriminants and the admitted-standards
bitmask of a `PoolCollection`.
-/

namespace ByeMachine

def STANDARD_PNFT : ℕ := 0
def STANDARD_LEGACY : ℕ := 1
def STANDARD_CORE : ℕ := 2

def STANDARDS_BIT_PNFT : ℕ := 1
def STANDARDS_BIT_LEGACY : ℕ := 2
def STANDARDS_BIT_CORE : ℕ := 4

/-- Every bit any `PoolCollection.standards` may set. -/
def DEFINED_STANDARDS : ℕ := STANDARDS_BIT_PNFT ||| STANDARDS_BIT_LEGACY ||| STANDARDS_BIT_CORE

/-- The mask bit for a `Position.standard` discriminant, a closed match. -/
def maskFor (standard : ℕ) : Option ℕ :=
  if standard = STANDARD_PNFT then some STANDARDS_BIT_PNFT
  else if standard = STANDARD_LEGACY then some STANDARDS_BIT_LEGACY
  else if standard = STANDARD_CORE then some STANDARDS_BIT_CORE
  else none

def maskAdmits (mask standard : ℕ) : Bool :=
  match maskFor standard with
  | some bit => mask &&& bit != 0
  | none => false

/-- At least one standard, and no bit outside the defined three: `mask & !DEFINED_STANDARDS == 0`
of an eight-bit mask. -/
def maskIsValid (mask : ℕ) : Bool :=
  mask != 0 && mask &&& (255 ^^^ DEFINED_STANDARDS) == 0

def clearsABit (old new : ℕ) : Bool := new &&& old != old

end ByeMachine
