import Mathlib.Algebra.Order.Ring.Nat
import Mathlib.Data.List.TakeDrop

/-!
# Byte strings

Windows of a byte string, little-endian numbers, and records laid out field
after field. A field of a record is found at the sum of the widths before it,
and a window that covers consecutive fields is their concatenation.
-/

abbrev Bytes := List UInt8

namespace Bytes

-- ---------------------------------------------------------------------------
-- Windows
-- ---------------------------------------------------------------------------

/-- The `n` bytes from `i` on, where there are so many. -/
def window (b : Bytes) (i n : ℕ) : Option Bytes :=
  if i + n ≤ b.length then some ((b.drop i).take n) else none

example : window [7, 8, 9] 1 2 = some [8, 9] := by simp [window]

variable {a b c x : Bytes} {i j m n stop : ℕ}

theorem window_some : window b i n = some x ↔ i + n ≤ b.length ∧ (b.drop i).take n = x := by
  by_cases h : i + n ≤ b.length <;> simp [window, h]

theorem window_of_le (h : i + n ≤ b.length) : window b i n = some ((b.drop i).take n) := if_pos h

theorem length_of_window (h : window b i n = some x) : x.length = n := by
  obtain ⟨hle, rfl⟩ := window_some.mp h
  simp
  omega

theorem le_of_window (h : window b i n = some x) : i + n ≤ b.length := (window_some.mp h).1

theorem window_add (h : window b i (m + n) = some x) :
    window b i m = some (x.take m) ∧ window b (i + m) n = some (x.drop m) := by
  obtain ⟨hle, rfl⟩ := window_some.mp h
  refine ⟨window_some.mpr ⟨by omega, ?_⟩, window_some.mpr ⟨by omega, ?_⟩⟩
  · rw [List.take_take, Nat.min_eq_left (Nat.le_add_right m n)]
  · rw [List.drop_take, List.drop_drop, Nat.add_sub_cancel_left]

theorem window_join (h : window b i m = some x) (h' : window b (i + m) n = some c) :
    window b i (m + n) = some (x ++ c) := by
  obtain ⟨-, rfl⟩ := window_some.mp h
  obtain ⟨hle, rfl⟩ := window_some.mp h'
  refine window_some.mpr ⟨by omega, ?_⟩
  rw [List.take_add, List.drop_drop]

theorem getElem?_of_window {byte : UInt8} (h : window b i 1 = some [byte]) : b[i]? = some byte := by
  obtain ⟨-, h⟩ := window_some.mp h
  rw [← Nat.add_zero i, ← List.getElem?_drop]
  have := congrArg (·[0]?) h
  simpa using this

theorem window_one {byte : UInt8} (h : b[i]? = some byte) : window b i 1 = some [byte] := by
  obtain ⟨hi, rfl⟩ := List.getElem?_eq_some_iff.mp h
  refine window_some.mpr ⟨hi, ?_⟩
  rw [List.drop_eq_getElem_cons hi]
  rfl

theorem window_zero (h : i ≤ b.length) : window b i 0 = some [] := by
  simp [window, h]

theorem window_congr (hfirst : a.take stop = b.take stop) (ha : stop ≤ a.length)
    (hb : stop ≤ b.length) (h : i + n ≤ stop) : window a i n = window b i n := by
  rw [window_of_le (h.trans ha), window_of_le (h.trans hb)]
  have hin : ∀ d : Bytes, (d.drop i).take n = ((d.take stop).drop i).take n := by
    intro d
    rw [List.drop_take, List.take_take, Nat.min_eq_left (by omega)]
  rw [hin a, hin b, hfirst]

-- ---------------------------------------------------------------------------
-- Records
-- ---------------------------------------------------------------------------

/-- The fields stand in the bytes one after the other, from `i` on. -/
def Stands (b : Bytes) : ℕ → List Bytes → Prop
  | i, [] => i ≤ b.length
  | i, field :: fields => b.window i field.length = some field ∧ Stands b (i + field.length) fields

example : Stands [7, 8, 9] 0 [[7], [8, 9]] := by simp [Stands, window]

theorem stands_iff {fields : List Bytes} :
    Stands b i fields ↔ b.window i fields.flatten.length = some fields.flatten := by
  induction fields generalizing i with
  | nil => simp [Stands, window_some]
  | cons field fields ih =>
    rw [Stands, ih, List.flatten_cons, List.length_append]
    constructor
    · exact fun ⟨hfield, hfields⟩ => window_join hfield hfields
    · intro h
      obtain ⟨hfield, hfields⟩ := window_add h
      rw [List.take_left] at hfield
      rw [List.drop_left] at hfields
      exact ⟨hfield, hfields⟩

theorem Stands.drop {fields rest : List Bytes} (h : Stands b i (fields ++ rest)) :
    Stands b (i + fields.flatten.length) rest := by
  induction fields generalizing i with
  | nil => exact h
  | cons field fields ih =>
    rw [List.flatten_cons, List.length_append, ← Nat.add_assoc]
    exact ih h.2

theorem Stands.take {fields rest : List Bytes} (h : Stands b i (fields ++ rest)) :
    Stands b i fields := by
  rw [stands_iff, List.flatten_append, List.length_append] at h
  have hfirst := (window_add h).1
  rwa [List.take_left, ← stands_iff] at hfirst

theorem Stands.window (width : ℕ) {fields : List Bytes} {k : ℕ} (h : Stands b i fields)
    (hwidth : ∀ field ∈ fields, field.length = width) (hk : k < fields.length) :
    b.window (i + k * width) width = some fields[k] := by
  induction fields generalizing i k with
  | nil => simp at hk
  | cons field fields ih =>
    have hfield := hwidth field (by simp)
    cases k with
    | zero =>
      rw [Nat.zero_mul, Nat.add_zero, ← hfield]
      exact h.1
    | succ k =>
      have hrest := ih h.2 (fun x hx => hwidth x (by simp [hx])) (Nat.lt_of_succ_lt_succ hk)
      rw [hfield, Nat.add_assoc, ← Nat.add_comm (k * width), ← Nat.succ_mul] at hrest
      exact hrest

theorem length_flatten_of_width (width : ℕ) {fields : List Bytes}
    (hwidth : ∀ field ∈ fields, field.length = width) :
    fields.flatten.length = width * fields.length := by
  induction fields with
  | nil => rfl
  | cons field fields ih =>
    have hrest := ih fun x hx => hwidth x (by simp [hx])
    rw [List.flatten_cons, List.length_append, hwidth field (by simp), hrest, List.length_cons,
      Nat.mul_succ, Nat.add_comm]

theorem stands_flatten (fields : List Bytes) : Stands fields.flatten 0 fields :=
  stands_iff.mpr (window_some.mpr ⟨by rw [Nat.zero_add], by rw [List.drop_zero, List.take_length]⟩)

-- ---------------------------------------------------------------------------
-- Little-endian numbers
-- ---------------------------------------------------------------------------

def leNat : Bytes → ℕ
  | [] => 0
  | byte :: bytes => byte.toNat + 256 * leNat bytes

/-- The low `n` bytes of a number. -/
def leBytes : ℕ → ℕ → Bytes
  | 0, _ => []
  | n + 1, value => UInt8.ofNat value :: leBytes n (value / 256)

/-- A signed number's 64 bits in two's complement. -/
def i64Bytes (value : ℤ) : Bytes := leBytes 8 (value % 2 ^ 64).toNat

def signed64 (bits : ℕ) : ℤ := if bits < 2 ^ 63 then bits else bits - 2 ^ 64

variable {value : ℕ}

@[simp] theorem length_leBytes (n value : ℕ) : (leBytes n value).length = n := by
  induction n generalizing value with
  | zero => rfl
  | succ n ih => simp [leBytes, ih]

theorem leNat_leBytes_mod (n value : ℕ) : leNat (leBytes n value) = value % 256 ^ n := by
  induction n generalizing value with
  | zero => rw [pow_zero, Nat.mod_one, leBytes, leNat]
  | succ n ih =>
    rw [leBytes, leNat, ih, UInt8.toNat_ofNat', pow_succ (256 : ℕ) n, Nat.mul_comm (256 ^ n),
      Nat.mod_mul]

theorem leNat_leBytes (h : value < 256 ^ n) : leNat (leBytes n value) = value := by
  rw [leNat_leBytes_mod, Nat.mod_eq_of_lt h]

theorem leBytes_add (m n value : ℕ) :
    leBytes (m + n) value = leBytes m value ++ leBytes n (value / 256 ^ m) := by
  induction m generalizing value with
  | zero => rw [Nat.zero_add, pow_zero, Nat.div_one, leBytes, List.nil_append]
  | succ m ih =>
    rw [Nat.add_right_comm, leBytes, ih, leBytes, List.cons_append, Nat.div_div_eq_div_mul,
      pow_succ, Nat.mul_comm (256 ^ m)]

@[simp] theorem length_i64Bytes (value : ℤ) : (i64Bytes value).length = 8 := length_leBytes _ _

theorem signed64_i64Bytes {value : ℤ} (hlow : -2 ^ 63 ≤ value) (hhigh : value < 2 ^ 63) :
    signed64 (leNat (i64Bytes value)) = value := by
  rw [i64Bytes, leNat_leBytes (by omega), signed64]
  split <;> omega

theorem leBytes_leNat (b : Bytes) : leBytes b.length (leNat b) = b := by
  induction b with
  | nil => rfl
  | cons byte bytes ih =>
    have hbyte := byte.toNat_lt
    have hdiv : (byte.toNat + 256 * leNat bytes) / 256 = leNat bytes := by omega
    simp only [List.length_cons, leNat, leBytes, hdiv, ih, List.cons.injEq, and_true]
    apply UInt8.toNat_inj.mp
    rw [UInt8.toNat_ofNat']
    omega

theorem leBytes_mod (n value : ℕ) : leBytes n (value % 256 ^ n) = leBytes n value := by
  have h := leBytes_leNat (leBytes n value)
  rwa [length_leBytes, leNat_leBytes_mod] at h

theorem leNat_lt (b : Bytes) : leNat b < 256 ^ b.length := by
  induction b with
  | nil => simp [leNat]
  | cons byte bytes ih =>
    have hbyte := byte.toNat_lt
    rw [List.length_cons, pow_succ, leNat]
    omega

end Bytes
