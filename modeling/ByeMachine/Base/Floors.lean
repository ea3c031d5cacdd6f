import Mathlib.Algebra.Order.Ring.Nat
import Mathlib.Tactic.Ring

/-!
# Sums of floors

An amount divided by `P` in parts loses less than one unit a part; a sum of
floors is therefore never above the floor of the sum, and below it by less than
the number of parts.
-/

namespace Floors

variable {P exact total parts : ℕ}

/-- `total` is the sum of the floors of `parts` parts of `exact`, each divided by `P`. -/
structure Floored (P exact total parts : ℕ) : Prop where
  le : total * P ≤ exact
  lost : exact ≤ total * P + parts * (P - 1)

namespace Floored

theorem zero (P : ℕ) : Floored P 0 0 0 := ⟨by simp, by simp⟩

theorem add (hP : 0 < P) (h : Floored P exact total parts) (part : ℕ) :
    Floored P (exact + part) (total + part / P) (parts + 1) := by
  have hle := h.le
  have hlost := h.lost
  have hfloor := Nat.div_mul_le_self part P
  have hrest : part ≤ part / P * P + (P - 1) := by
    have hdiv := Nat.div_add_mod part P
    have hmod := Nat.mod_lt part hP
    rw [Nat.mul_comm] at hdiv
    omega
  constructor
  · rw [Nat.add_mul]
    omega
  · rw [Nat.add_mul, Nat.add_mul, Nat.one_mul]
    omega

theorem le_div (hP : 0 < P) (h : Floored P exact total parts) : total ≤ exact / P :=
  (Nat.le_div_iff_mul_le hP).mpr h.le

theorem div_le (hP : 0 < P) (hparts : 0 < parts) (h : Floored P exact total parts) :
    exact / P ≤ total + (parts - 1) := by
  refine Nat.lt_succ_iff.mp ((Nat.div_lt_iff_lt_mul hP).mpr ?_)
  have hlost := h.lost
  have hbound : parts * (P - 1) < (parts - 1 + 1) * P := by
    rw [Nat.sub_add_cancel hparts]
    exact Nat.mul_lt_mul_of_pos_left (Nat.sub_one_lt hP.ne') hparts
  calc exact ≤ total * P + parts * (P - 1) := hlost
    _ < total * P + (parts - 1 + 1) * P := Nat.add_lt_add_left hbound _
    _ = (total + (parts - 1) + 1) * P := by ring

end Floored

end Floors
