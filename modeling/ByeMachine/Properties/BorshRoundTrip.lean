import ByeMachine.Client.Node
import ByeMachine.Laws.BorshCodec

/-!
# The writer against the reader

What the client writes it reads back, or some write throws, except where a `u32`
is taken modulo its width and where a string holds a surrogate that UTF-8 has no
bytes for.
-/

namespace ByeMachine

open Bytes Borsh

/-- An address that is 32 bytes. -/
structure Address (w : Encoding) where
  key : Pubkey
  faithful : w.Faithful key

inductive TypedWrite (w : Encoding) where
  | u8 (n : ℤ)
  | u16 (n : ℤ)
  | u32 (n : ℤ)
  | u64 (n : ℤ)
  | i64 (n : ℤ)
  | u128 (n : ℤ)
  | bool (v : Bool)
  | string (s : JsString)
  | pubkey (a : Address w)
  | optionU16 (n : Option ℤ)
  | optionPubkey (a : Option (Address w))
  | arrayU64 (items : List ℤ) (len : ℕ)
  | arrayU32 (items : List ℤ) (len : ℕ)
  | bytes (b : Bytes)
  | fixed (b : Bytes) (len : ℕ)

inductive WireType where
  | u8 | u16 | u32 | u64 | i64 | u128 | bool | string | pubkey | optionU16 | optionPubkey
  | arrayU64 (len : ℕ)
  | arrayU32 (len : ℕ)
  | bytes (len : ℕ)

/-- What is handed to a writer or comes out of a reader. -/
inductive WireValue where
  | int (n : ℤ)
  | bool (v : Bool)
  | string (s : JsString)
  | pubkey (a : Pubkey)
  | optionInt (n : Option ℤ)
  | optionPubkey (a : Option Pubkey)
  | ints (items : List ℤ)
  | bytes (b : Bytes)

def WireType.read (w : Encoding) (replaced : Bytes → JsString) : WireType → BorshReader WireValue
  | .u8 => (fun n : ℕ => .int n) <$> BorshReader.u8
  | .u16 => (fun n : ℕ => .int n) <$> BorshReader.u16
  | .u32 => (fun n : ℕ => .int n) <$> BorshReader.u32
  | .u64 => (fun n : ℕ => .int n) <$> BorshReader.u64
  | .i64 => .int <$> BorshReader.i64
  | .u128 => (fun n : ℕ => .int n) <$> BorshReader.u128
  | .bool => .bool <$> BorshReader.bool
  | .string => .string <$> BorshReader.string replaced
  | .pubkey => .pubkey <$> BorshReader.pubkey w
  | .optionU16 => (fun n : Option ℕ => .optionInt (n.map Int.ofNat)) <$> BorshReader.optionU16
  | .optionPubkey => .optionPubkey <$> BorshReader.optionPubkey w
  | .arrayU64 len => (fun items : List ℕ => .ints (items.map Int.ofNat)) <$> BorshReader.arrayU64 len
  | .arrayU32 len => (fun items : List ℕ => .ints (items.map Int.ofNat)) <$> BorshReader.arrayU32 len
  | .bytes len => .bytes <$> BorshReader.bytes len

namespace TypedWrite

variable {w : Encoding}

def run : TypedWrite w → BorshWriter Unit
  | .u8 n => BorshWriter.u8 n
  | .u16 n => BorshWriter.u16 n
  | .u32 n => BorshWriter.u32 n
  | .u64 n => BorshWriter.u64 n
  | .i64 n => BorshWriter.i64 n
  | .u128 n => BorshWriter.u128 n
  | .bool v => BorshWriter.bool v
  | .string s => BorshWriter.string s
  | .pubkey a => BorshWriter.pubkey w a.key
  | .optionU16 n => BorshWriter.optionU16 n
  | .optionPubkey a => BorshWriter.optionPubkey w (a.map (·.key))
  | .arrayU64 items len => BorshWriter.arrayU64 items len
  | .arrayU32 items len => BorshWriter.arrayU32 items len
  | .bytes b => BorshWriter.bytes b
  | .fixed b len => BorshWriter.fixed b len

def type : TypedWrite w → WireType
  | .u8 _ => .u8
  | .u16 _ => .u16
  | .u32 _ => .u32
  | .u64 _ => .u64
  | .i64 _ => .i64
  | .u128 _ => .u128
  | .bool _ => .bool
  | .string _ => .string
  | .pubkey _ => .pubkey
  | .optionU16 _ => .optionU16
  | .optionPubkey _ => .optionPubkey
  | .arrayU64 _ len => .arrayU64 len
  | .arrayU32 _ len => .arrayU32 len
  | .bytes b => .bytes b.length
  | .fixed _ len => .bytes len

def value : TypedWrite w → WireValue
  | .u8 n | .u16 n | .u32 n | .u64 n | .i64 n | .u128 n => .int n
  | .bool v => .bool v
  | .string s => .string s
  | .pubkey a => .pubkey a.key
  | .optionU16 n => .optionInt n
  | .optionPubkey a => .optionPubkey (a.map (·.key))
  | .arrayU64 items _ | .arrayU32 items _ => .ints items
  | .bytes b | .fixed b _ => .bytes b

end TypedWrite

/-- Some write throws, or the reader returns the values that were written and ends at the end. -/
def RoundTrips (w : Encoding) (replaced : Bytes → JsString) (writes : List (TypedWrite w)) : Prop :=
  (∃ e, build (writes.forM TypedWrite.run) = .error e) ∨
  ∃ b, build (writes.forM TypedWrite.run) = .ok b ∧
    (writes.mapM fun x : TypedWrite w => x.type.read w replaced) ⟨b, 0⟩ =
      .ok (writes.map TypedWrite.value, ⟨b, b.length⟩)

-- ---------------------------------------------------------------------------
-- Which arguments
-- ---------------------------------------------------------------------------

def InWidth (bits : ℕ) (n : ℤ) : Prop := 0 ≤ n ∧ n < 2 ^ bits

/-- An argument that the writer refuses. -/
def TypedWrite.Refused {w : Encoding} : TypedWrite w → Prop
  | .u8 n => ¬InWidth 8 n
  | .u16 n => ¬InWidth 16 n
  | .u64 n => ¬InWidth 64 n
  | .i64 n => ¬FitsI64 n
  | .u128 n => ¬InWidth 128 n
  | .optionU16 (some n) => ¬InWidth 16 n
  | .arrayU64 items len => items.length ≠ len ∨ ∃ n ∈ items, ¬InWidth 64 n
  | .arrayU32 items len => items.length ≠ len
  | .fixed b len => b.length ≠ len
  | _ => False

/-- An argument that is written as itself: the widths that wrap hold it, and no surrogate stands
alone. -/
def TypedWrite.Exact {w : Encoding} : TypedWrite w → Prop
  | .u32 n => InWidth 32 n
  | .arrayU32 items _ => ∀ n ∈ items, InWidth 32 n
  | .string s => ∀ p ∈ s.points, p = .scalar p.char
  | _ => True

-- ---------------------------------------------------------------------------
-- One write
-- ---------------------------------------------------------------------------

section

variable {w : Encoding} {replaced : Bytes → JsString} {x : TypedWrite w} {n : ℤ}

namespace TypedWrite

def fields : TypedWrite w → List Bytes
  | .u8 n => [leBytes 1 n.toNat]
  | .u16 n => [leBytes 2 n.toNat]
  | .u32 n => [leBytes 4 (BorshWriter.toUint32 n).toNat]
  | .u64 n => [leBytes 8 n.toNat]
  | .i64 n => [i64Bytes n]
  | .u128 n => [leBytes 16 n.toNat]
  | .bool v => [[boolByte v]]
  | .string s => [leBytes 4 (utf8 s.points).length, utf8 s.points]
  | .pubkey a => [w.encode a.key]
  | .optionU16 none | .optionPubkey none => [leBytes 1 0]
  | .optionU16 (some n) => [leBytes 1 1, leBytes 2 n.toNat]
  | .optionPubkey (some a) => [leBytes 1 1, w.encode a.key]
  | .arrayU64 items _ => items.map fun n => leBytes 8 n.toNat
  | .arrayU32 items _ => items.map fun n => leBytes 4 (BorshWriter.toUint32 n).toNat
  | .bytes b | .fixed b _ => [b]

def seen (replaced : Bytes → JsString) : TypedWrite w → WireValue
  | .u32 n => .int (BorshWriter.toUint32 n)
  | .arrayU32 items _ => .ints (items.map BorshWriter.toUint32)
  | .string s => .string (.ofBuffer replaced (utf8 s.points))
  | x => x.value

end TypedWrite

open BorshWriter TypedWrite

theorem toUint32_inWidth (n : ℤ) : InWidth 32 (toUint32 n) := by
  unfold InWidth toUint32
  omega

theorem toUint32_eq : toUint32 n = n ↔ InWidth 32 n := by
  unfold InWidth toUint32
  omega

theorem writes_absent : Writes (BorshWriter.u8 0) [leBytes 1 0] := writes_uint (by decide)

theorem writes_present : Writes (BorshWriter.u8 1) [leBytes 1 1] := writes_uint (by decide)

theorem writes_u32 (n : ℤ) : Writes (BorshWriter.u32 n) [leBytes 4 (toUint32 n).toNat] :=
  writes_uint (toUint32_inWidth n)

theorem writes_u128 (h : InWidth 128 n) : Writes (BorshWriter.u128 n) [leBytes 16 n.toNat] := by
  obtain ⟨value, rfl⟩ := Int.eq_ofNat_of_zero_le h.1
  have hhigh : 0 ≤ (value : ℤ) / 2 ^ 64 ∧ (value : ℤ) / 2 ^ 64 < 2 ^ 64 := by
    obtain ⟨-, hlt⟩ := h
    omega
  have hlow : ((value : ℤ) % 2 ^ 64).toNat = value % 256 ^ 8 := by omega
  have hdiv : ((value : ℤ) / 2 ^ 64).toNat = value / 256 ^ 8 := by omega
  have hbytes : leBytes 8 ((value : ℤ) % 2 ^ 64).toNat ++ leBytes 8 ((value : ℤ) / 2 ^ 64).toNat =
      leBytes 16 value := by
    rw [hlow, hdiv, leBytes_mod, ← leBytes_add]
  rw [BorshWriter.u128, if_pos hhigh, hbytes]
  exact .push _

theorem writes_run (h : ¬x.Refused) : Writes x.run x.fields := by
  cases x with
  | u8 n => exact writes_uint (not_not.mp h)
  | u16 n => exact writes_uint (not_not.mp h)
  | u32 n => exact writes_u32 n
  | u64 n => exact writes_uint (not_not.mp h)
  | i64 n =>
    have hrange : -2 ^ 63 ≤ n ∧ n < 2 ^ 63 := not_not.mp h
    rw [run, BorshWriter.i64, if_pos hrange]
    exact .push _
  | u128 n => exact writes_u128 (not_not.mp h)
  | bool v =>
    cases v with
    | false => exact writes_absent
    | true => exact writes_present
  | string s =>
    have hlength : toUint32 (utf8 s.points).length = (utf8 s.points).length := by
      have hshort := s.short
      unfold toUint32
      omega
    have hprefix := writes_u32 (utf8 s.points).length
    rw [hlength] at hprefix
    exact hprefix.cons (.push _)
  | pubkey a => exact .push _
  | optionU16 n =>
    cases n with
    | none => exact writes_absent
    | some n => exact writes_present.cons (writes_uint (not_not.mp h))
  | optionPubkey a =>
    cases a with
    | none => exact writes_absent
    | some a => exact writes_present.cons (.push _)
  | arrayU64 items len =>
    simp only [Refused, not_or, not_not, not_exists, not_and] at h
    obtain ⟨rfl, hitems⟩ := h
    exact writes_array fun n hn => writes_uint (hitems n hn)
  | arrayU32 items len =>
    obtain rfl := not_not.mp h
    exact writes_array fun n _ => writes_u32 n
  | bytes b => exact .push _
  | fixed b len =>
    have hlength : ¬b.length ≠ len := h
    rw [run, BorshWriter.fixed, if_neg hlength]
    exact Writes.nil.bind (.push _)

theorem fails_uint {bits k : ℕ} (hbits : (2 : ℤ) ^ bits = 256 ^ k) (h : ¬InWidth bits n) :
    Fails (uint k n) := by
  rw [InWidth, hbits] at h
  rw [uint, if_neg h]
  exact .throw _

theorem fails_run (h : x.Refused) : Fails x.run := by
  cases x with
  | u8 n => exact fails_uint (by norm_num) h
  | u16 n => exact fails_uint (by norm_num) h
  | u64 n => exact fails_uint (by norm_num) h
  | i64 n =>
    have hrange : ¬(-2 ^ 63 ≤ n ∧ n < 2 ^ 63) := h
    rw [run, BorshWriter.i64, if_neg hrange]
    exact .throw _
  | u128 n =>
    have hhigh : ¬(0 ≤ n / 2 ^ 64 ∧ n / 2 ^ 64 < 2 ^ 64) := by
      have hrange : ¬(0 ≤ n ∧ n < 2 ^ 128) := h
      omega
    rw [run, BorshWriter.u128, if_neg hhigh]
    exact .throw _
  | optionU16 n =>
    cases n with
    | none => exact h.elim
    | some n => exact .after writes_present (fails_uint (by norm_num) h)
  | arrayU64 items len =>
    rw [run, BorshWriter.arrayU64, array]
    by_cases hlength : items.length ≠ len
    · rw [if_pos hlength]
      exact (Fails.throw _).bind
    · rw [if_neg hlength]
      obtain hne | hitem := h
      · exact absurd hne hlength
      · have hwrites : ∀ n : ℤ, ¬¬InWidth 64 n → Writes (u64 n) [leBytes 8 n.toNat] :=
          fun n hn => writes_uint (not_not.mp hn)
        have hfails : ∀ n, ¬InWidth 64 n → Fails (u64 n) := fun n => fails_uint (by norm_num)
        exact .after Writes.nil (.forM hwrites hfails hitem)
  | arrayU32 items len =>
    have hlength : items.length ≠ len := h
    rw [run, BorshWriter.arrayU32, array, if_pos hlength]
    exact (Fails.throw _).bind
  | fixed b len =>
    have hlength : b.length ≠ len := h
    rw [run, BorshWriter.fixed, if_pos hlength]
    exact (Fails.throw _).bind
  | u32 | bool | string | pubkey | optionPubkey | bytes => exact h.elim

-- ---------------------------------------------------------------------------
-- One read
-- ---------------------------------------------------------------------------

theorem reads_int {m : BorshReader ℕ} {field : Bytes} (hn : 0 ≤ n) (h : Reads m [field] n.toNat) :
    Reads ((fun n : ℕ => WireValue.int n) <$> m) [field] (.int n) := by
  have hread := h.map fun n : ℕ => WireValue.int n
  rwa [Int.toNat_of_nonneg hn] at hread

theorem reads_ints {m : BorshReader ℕ} {items : List ℤ} {part : ℤ → Bytes}
    (h : ∀ n ∈ items, 0 ≤ n ∧ Reads m [part n] n.toNat) :
    Reads ((fun items : List ℕ => WireValue.ints (items.map Int.ofNat)) <$> times m items.length)
      (items.map part) (.ints items) := by
  have hread := (Reads.times fun n hn => (h n hn).2).map
    fun items : List ℕ => WireValue.ints (items.map Int.ofNat)
  have hitems : (items.map Int.toNat).map Int.ofNat = items := by
    rw [List.map_map]
    exact List.map_congr_left (fun n hn => Int.toNat_of_nonneg (h n hn).1) |>.trans (List.map_id _)
  rw [hitems, ← List.map_eq_flatMap] at hread
  exact hread

theorem toNat_lt {bits : ℕ} (h : InWidth bits n) : n.toNat < 2 ^ bits := by
  obtain ⟨hlow, hhigh⟩ := h
  have hcast : ((2 ^ bits : ℕ) : ℤ) = 2 ^ bits := by norm_num
  omega

/-- UTF-8 has the code points back, apart from the surrogates. -/
theorem ofBuffer_utf8 (replaced : Bytes → JsString) (s : JsString) :
    (JsString.ofBuffer replaced (utf8 s.points)).points =
      s.points.map fun p => .scalar p.char := by
  have hencode : (utf8 s.points).toByteArray =
      (String.ofList (s.points.map CodePoint.char)).toByteArray := String.toByteArray_ofList.symm
  have hdecode : String.fromUTF8? (utf8 s.points).toByteArray =
      some (String.ofList (s.points.map CodePoint.char)) := by
    rw [hencode, String.fromUTF8?, dif_pos (String.isValidUTF8 _)]
    rfl
  have hpoints : (s.points.map CodePoint.char).map CodePoint.scalar =
      s.points.map fun p => .scalar p.char := by
    rw [List.map_map]
    rfl
  have hchars : (s.points.map fun p => CodePoint.scalar p.char).map CodePoint.char =
      s.points.map CodePoint.char := by
    rw [List.map_map]
    rfl
  have hshort : (utf8 (s.points.map fun p => .scalar p.char)).length < 2 ^ 32 := by
    have h := s.short
    unfold utf8 at h ⊢
    rwa [hchars]
  simp only [JsString.ofBuffer, hdecode]
  rw [dif_pos (by rwa [String.toList_ofList, hpoints])]
  change (String.ofList (s.points.map CodePoint.char)).toList.map CodePoint.scalar = _
  rw [String.toList_ofList, hpoints]

theorem reads_seen (h : ¬x.Refused) :
    Reads (x.type.read w replaced) x.fields (x.seen replaced) := by
  cases x with
  | u8 n =>
    have hn : InWidth 8 n := not_not.mp h
    exact reads_int hn.1 (BorshReader.reads_u8 (toNat_lt hn))
  | u16 n =>
    have hn : InWidth 16 n := not_not.mp h
    exact reads_int hn.1 (BorshReader.reads_u16 (toNat_lt hn))
  | u32 n =>
    have hn := toUint32_inWidth n
    exact reads_int hn.1 (BorshReader.reads_u32 (toNat_lt hn))
  | u64 n =>
    have hn : InWidth 64 n := not_not.mp h
    exact reads_int hn.1 (BorshReader.reads_u64 (toNat_lt hn))
  | i64 n => exact (BorshReader.reads_i64 (not_not.mp h)).map _
  | u128 n =>
    have hn : InWidth 128 n := not_not.mp h
    exact reads_int hn.1 (BorshReader.reads_u128 (toNat_lt hn))
  | bool v => exact (BorshReader.reads_bool v).map _
  | string s =>
    have hstring : Reads (BorshReader.string replaced) _ _ :=
      (BorshReader.reads_u32 s.short).cons (.whole (JsString.ofBuffer replaced) rfl)
    exact hstring.map _
  | pubkey a => exact (BorshReader.reads_pubkey a.faithful).map _
  | optionU16 n =>
    cases n with
    | none =>
      have hnone : Reads BorshReader.optionU16 _ none := BorshReader.reads_absent
      exact hnone.map _
    | some n =>
      have hn : InWidth 16 n := not_not.mp h
      have hsome : Reads BorshReader.optionU16 _ (some n.toNat) :=
        BorshReader.reads_present (BorshReader.reads_u16 (toNat_lt hn))
      have hread := hsome.map fun n : Option ℕ => WireValue.optionInt (n.map Int.ofNat)
      rw [Option.map_some, Int.ofNat_eq_natCast, Int.toNat_of_nonneg hn.1] at hread
      exact hread
  | optionPubkey a =>
    cases a with
    | none =>
      have hnone : Reads (BorshReader.optionPubkey w) _ none := BorshReader.reads_absent
      exact hnone.map _
    | some a =>
      have hsome : Reads (BorshReader.optionPubkey w) _ (some a.key) :=
        BorshReader.reads_present (BorshReader.reads_pubkey a.faithful)
      exact hsome.map _
  | arrayU64 items len =>
    simp only [Refused, not_or, not_not, not_exists, not_and] at h
    obtain ⟨rfl, hitems⟩ := h
    exact reads_ints fun n hn =>
      ⟨(hitems n hn).1, BorshReader.reads_u64 (toNat_lt (hitems n hn))⟩
  | arrayU32 items len =>
    obtain rfl := not_not.mp h
    have hread : Reads ((fun items : List ℕ => WireValue.ints (items.map Int.ofNat)) <$>
        times BorshReader.u32 (items.map toUint32).length)
        ((items.map toUint32).map fun n => leBytes 4 n.toNat) (.ints (items.map toUint32)) := by
      refine reads_ints fun n hn => ?_
      obtain ⟨m, -, rfl⟩ := List.mem_map.mp hn
      have hm := toUint32_inWidth m
      exact ⟨hm.1, BorshReader.reads_u32 (toNat_lt hm)⟩
    rw [List.length_map, List.map_map] at hread
    exact hread
  | bytes b => exact (BorshReader.reads_bytes rfl).map _
  | fixed b len =>
    obtain rfl : b.length = len := not_not.mp h
    exact (BorshReader.reads_bytes rfl).map _

/-- What is seen is what was written, where nothing wraps and no surrogate stands alone. -/
theorem seen_eq_value : x.seen replaced = x.value ↔ x.Exact := by
  cases x with
  | u32 n =>
    rw [seen, value, WireValue.int.injEq, toUint32_eq]
    rfl
  | arrayU32 items len =>
    rw [seen, value, WireValue.ints.injEq]
    conv_lhs => rw [← List.map_id items, List.map_map, List.map_inj_left]
    exact forall₂_congr fun n _ => toUint32_eq
  | string s =>
    have hpoints : JsString.ofBuffer replaced (utf8 s.points) = s ↔
        (JsString.ofBuffer replaced (utf8 s.points)).points = s.points := ⟨congrArg _, JsString.ext⟩
    rw [seen, value, WireValue.string.injEq, hpoints, ofBuffer_utf8]
    conv_lhs => rw [← List.map_id s.points, List.map_map, List.map_inj_left]
    exact forall₂_congr fun p _ => eq_comm
  | _ => exact ⟨fun _ => trivial, fun _ => rfl⟩

-- ---------------------------------------------------------------------------
-- Sequences of writes
-- ---------------------------------------------------------------------------

variable {writes : List (TypedWrite w)}

theorem roundTrips_accepted (h : ∀ x ∈ writes, ¬x.Refused) :
    RoundTrips w replaced writes ↔ ∀ x ∈ writes, x.Exact := by
  have hbuild := (Writes.forM fun x hx => writes_run (h x hx)).build
  have hreads : Reads (writes.mapM fun x : TypedWrite w => x.type.read w replaced) _ _ :=
    .mapM fun x hx => reads_seen (h x hx)
  have hseen : writes.map (seen replaced) = writes.map value ↔ ∀ x ∈ writes, x.Exact := by
    rw [List.map_inj_left]
    exact forall₂_congr fun _ _ => seen_eq_value
  rw [RoundTrips, hbuild, ← hseen]
  constructor
  · rintro (⟨e, he⟩ | ⟨b, hb, hvalues⟩)
    · cases he
    · cases hb
      rw [hreads.run] at hvalues
      exact congrArg Prod.fst (Except.ok.inj hvalues)
  · intro hvalues
    refine .inr ⟨_, rfl, ?_⟩
    rw [hreads.run, hvalues]

/-- A sequence comes back exactly where some write throws, or none of its arguments is one that
wraps or loses a surrogate. -/
theorem roundTrips_iff (w : Encoding) (replaced : Bytes → JsString) (writes : List (TypedWrite w)) :
    RoundTrips w replaced writes ↔ (∃ x ∈ writes, x.Refused) ∨ ∀ x ∈ writes, x.Exact := by
  by_cases h : ∃ x ∈ writes, x.Refused
  · have hfails : Fails (writes.forM TypedWrite.run) :=
      .forM (fun _ => writes_run) (fun _ => fails_run) h
    exact ⟨fun _ => .inl h, fun _ => .inl hfails.build⟩
  · have haccepted : ∀ x ∈ writes, ¬x.Refused := fun x hx hrefused => h ⟨x, hx, hrefused⟩
    rw [roundTrips_accepted haccepted, or_iff_right h]

end

/-- `-1` is written as `4294967295`. -/
theorem u32_wraps :
    ¬RoundTrips bankEncoding (fun _ => ⟨[], .nil, by decide⟩) [.u32 (-1)] := by
  rw [roundTrips_accepted (by simp [TypedWrite.Refused])]
  simp [TypedWrite.Exact, InWidth]

end ByeMachine
