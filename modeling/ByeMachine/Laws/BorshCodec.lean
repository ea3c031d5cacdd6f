import ByeMachine.Client.Decoders
import ByeMachine.Common.EventLayout

/-!
# What the client's primitives read and write

One law for each method of the reader and of the writer: the fields it stands
for, and the value.
-/

namespace ByeMachine

open Bytes Borsh

variable {w : Encoding}

-- ---------------------------------------------------------------------------
-- The reader
-- ---------------------------------------------------------------------------

namespace BorshReader

theorem reads_u8 {value : ℕ} (h : value < 2 ^ 8) : Reads u8 [leBytes 1 value] value := .unsigned h

theorem reads_u16 {value : ℕ} (h : value < 2 ^ 16) : Reads u16 [leBytes 2 value] value := .unsigned h

theorem reads_u32 {value : ℕ} (h : value < 2 ^ 32) : Reads u32 [leBytes 4 value] value := .unsigned h

theorem reads_u64 {value : ℕ} (h : value < 2 ^ 64) : Reads u64 [leBytes 8 value] value := .unsigned h

theorem reads_i64 {value : ℤ} (h : FitsI64 value) : Reads i64 [i64Bytes value] value := .signed h

theorem reads_u128 {value : ℕ} (h : value < 2 ^ 128) : Reads u128 [leBytes 16 value] value := by
  have hlow : value % 2 ^ 64 < 2 ^ 64 := Nat.mod_lt _ (by decide)
  have hhigh : value / 2 ^ 64 < 2 ^ 64 := Nat.div_lt_of_lt_mul (by omega)
  have hwhole : value % 2 ^ 64 ||| (value / 2 ^ 64) <<< 64 = value := by
    rw [lor_shiftLeft _ hlow, Nat.mod_add_div]
  have hlo : Reads u64 [leBytes 8 value] (value % 2 ^ 64) := .unsigned_mod 8 value
  have hread : Reads u128 [leBytes 8 value, leBytes 8 (value / 2 ^ 64)] _ :=
    hlo.cons <| (reads_u64 hhigh).cons .pure
  rw [hwhole] at hread
  have hcut : leBytes 16 value = leBytes 8 value ++ leBytes 8 (value / 2 ^ 64) :=
    leBytes_add 8 8 value
  exact hread.recut (by simp [hcut])

theorem reads_bool (b : Bool) : Reads bool [[boolByte b]] b := by
  have hread := (reads_u8 (boolByte b).toNat_lt).cons (f := fun byte => pure (byte != 0)) .pure
  cases b <;> exact hread

theorem reads_bytes {field : Bytes} {n : ℕ} (h : field.length = n) : Reads (bytes n) [field] field :=
  .take_of_length h

theorem reads_pubkey {key : Pubkey} (h : w.Faithful key) : Reads (pubkey w) [w.encode key] key := by
  have hread : Reads (pubkey w) [w.encode key] _ := .whole w.decode (w.length_encode key)
  rwa [h] at hread

theorem reads_absent {α : Type} {m : BorshReader α} :
    Reads (do let tag ← u8; if tag = 0 then pure none else some <$> m) [leBytes 1 0] none :=
  (reads_u8 (by decide)).cons .pure

theorem reads_present {α : Type} {m : BorshReader α} {field : Bytes} {a : α}
    (h : Reads m [field] a) :
    Reads (do let tag ← u8; if tag = 0 then pure none else some <$> m) [leBytes 1 1, field]
      (some a) :=
  (reads_u8 (by decide)).cons (h.map some)

/-- A table that lists the variants in the order of their bytes. -/
theorem reads_tagged {α : Type} {name : String} {table : List α} {byte : UInt8} {value : α}
    (h : table[byte.toNat]? = some value) : Reads (tagged name table) [[byte]] value := by
  have hbyte : leBytes 1 byte.toNat = [byte] := by simp [leBytes]
  have htag : Reads u8 [[byte]] byte.toNat := hbyte ▸ reads_u8 byte.toNat_lt
  refine htag.cons ?_
  rw [h]
  exact .pure

-- ---------------------------------------------------------------------------
-- Where a field breaks off
-- ---------------------------------------------------------------------------

theorem frames_u8 {value : ℕ} (h : value < 2 ^ 8) : Frames u8 [leBytes 1 value] value :=
  .of_needs (reads_u8 h) (by rw [length_leBytes]; exact .unsigned 1)

theorem frames_u16 {value : ℕ} (h : value < 2 ^ 16) : Frames u16 [leBytes 2 value] value :=
  .of_needs (reads_u16 h) (by rw [length_leBytes]; exact .unsigned 2)

theorem frames_u32 {value : ℕ} (h : value < 2 ^ 32) : Frames u32 [leBytes 4 value] value :=
  .of_needs (reads_u32 h) (by rw [length_leBytes]; exact .unsigned 4)

theorem frames_u64 {value : ℕ} (h : value < 2 ^ 64) : Frames u64 [leBytes 8 value] value :=
  .of_needs (reads_u64 h) (by rw [length_leBytes]; exact .unsigned 8)

theorem frames_i64 {value : ℤ} (h : FitsI64 value) : Frames i64 [i64Bytes value] value :=
  .of_needs (reads_i64 h) (by rw [length_i64Bytes]; exact .signed)

theorem frames_u128 {value : ℕ} (h : value < 2 ^ 128) : Frames u128 [leBytes 16 value] value := by
  have hlow : value % 2 ^ 64 < 2 ^ 64 := Nat.mod_lt _ (by decide)
  have hhigh : value / 2 ^ 64 < 2 ^ 64 := Nat.div_lt_of_lt_mul (by omega)
  have hwhole : value % 2 ^ 64 ||| (value / 2 ^ 64) <<< 64 = value := by
    rw [lor_shiftLeft _ hlow, Nat.mod_add_div]
  have hframes : Frames u128 [leBytes 8 (value % 2 ^ 64), leBytes 8 (value / 2 ^ 64)] _ :=
    (frames_u64 hlow).cons <| (frames_u64 hhigh).cons .pure
  rw [hwhole] at hframes
  refine hframes.recut ?_
  have hcut : leBytes 16 value = leBytes 8 value ++ leBytes 8 (value / 2 ^ 64) :=
    leBytes_add 8 8 value
  have hmod : leBytes 8 (value % 2 ^ 64) = leBytes 8 value := leBytes_mod 8 value
  rw [hcut, hmod]
  rfl

theorem frames_bool (b : Bool) : Frames bool [[boolByte b]] b :=
  .of_needs (reads_bool b) ((Needs.unsigned 1).bind _)

theorem frames_pubkey {key : Pubkey} (h : w.Faithful key) : Frames (pubkey w) [w.encode key] key :=
  .of_needs (reads_pubkey h) (by rw [w.length_encode]; exact (Needs.take 32).bind _)

theorem frames_option {α : Type} {m : BorshReader α} {field : α → Bytes} {o : Option α}
    (h : ∀ a ∈ o, Frames m [field a] a) :
    Frames (do let tag ← u8; if tag = 0 then pure none else some <$> m) (optionFields field o) o := by
  cases o with
  | none => exact (frames_u8 (by decide)).cons .pure
  | some a => exact (frames_u8 (by decide)).cons ((h a rfl).map some)

theorem frames_string {replaced : Bytes → JsString} {s : String} (h : FitsString s) :
    Frames (string replaced) (stringFields s) (.ofBuffer replaced (utf8Bytes s)) := by
  exact (frames_u32 h).cons (.of_needs (.whole _ rfl) ((Needs.take _).bind _))

theorem frames_tagged {α : Type} {name : String} {table : List α} {byte : UInt8} {value : α}
    (h : table[byte.toNat]? = some value) : Frames (tagged name table) [[byte]] value :=
  .of_needs (reads_tagged h) ((Needs.unsigned 1).bind _)

end BorshReader

-- ---------------------------------------------------------------------------
-- The writer
-- ---------------------------------------------------------------------------

namespace BorshWriter

theorem writes_uint {n : ℕ} {value : ℤ} (h : 0 ≤ value ∧ value < 256 ^ n) :
    Writes (uint n value) [leBytes n value.toNat] := by
  rw [uint, if_pos h]
  exact .push _

theorem writes_u8 {value : ℕ} (h : value < 2 ^ 8) : Writes (u8 value) [leBytes 1 value] :=
  writes_uint (by omega)

theorem writes_u16 {value : ℕ} (h : value < 2 ^ 16) : Writes (u16 value) [leBytes 2 value] :=
  writes_uint (by omega)

theorem writes_u64 {value : ℕ} (h : value < 2 ^ 64) : Writes (u64 value) [leBytes 8 value] :=
  writes_uint (by omega)

theorem writes_array {write : ℤ → BorshWriter Unit} {items : List ℤ} {part : ℤ → Bytes}
    (h : ∀ item ∈ items, Writes (write item) [part item]) :
    Writes (array write items items.length) (items.map part) := by
  rw [array, if_neg (by simp), List.map_eq_flatMap]
  exact Writes.nil.bind (.forM h)

end BorshWriter

end ByeMachine
