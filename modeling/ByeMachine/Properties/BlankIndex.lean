import ByeMachine.Client.Node
import ByeMachine.Instructions.Admin

/-!
# A blank weight index

`init_pool` compares the account's payload with zeros chunk by chunk. Whatever
the chunk length, that accepts exactly the zero payload, and a zero payload is
the image of a blank index only.
-/

namespace ByeMachine

open Fallible Bytes

/-- The walk of `assert_weight_index_blank` with chunks of any length. -/
def assertChunksZeroBy (size : ℕ) : ℕ → List ℕ → Result Unit
  | _, [] => .ok ()
  | 0, _ :: _ => .error .diverged
  | fuel + 1, payload => do
    let chunk := payload.take size
    require (chunk = List.replicate chunk.length 0) (.program .weightIndexNotBlank)
    assertChunksZeroBy size fuel (payload.drop size)

def assertWeightIndexBlankBy (size : ℕ) (data : List ℕ) : Result Unit := do
  require (data.length = 8 + WEIGHT_INDEX_SPACE) (.program .weightIndexNotBlank)
  assertChunksZeroBy size data.length (data.drop 8)

/-- The layout size, and zero past the discriminator. -/
def BlankLayout (data : List ℕ) : Prop :=
  data.length = 8 + WEIGHT_INDEX_SPACE ∧ ∀ byte ∈ data.drop 8, byte = 0

variable {size : ℕ}

-- ---------------------------------------------------------------------------
-- The walk
-- ---------------------------------------------------------------------------

theorem assertChunksZero_eq (fuel : ℕ) (payload : List ℕ) :
    assertChunksZero fuel payload = assertChunksZeroBy ZERO_CHUNK_LEN fuel payload := by
  induction fuel generalizing payload with
  | zero => cases payload <;> rfl
  | succ fuel ih =>
    cases payload with
    | nil => rfl
    | cons byte payload => simp only [assertChunksZero, assertChunksZeroBy, ih]

theorem assertChunksZeroBy_ok (hsize : 0 < size) {fuel : ℕ} {payload : List ℕ}
    (hfuel : payload.length ≤ fuel) :
    assertChunksZeroBy size fuel payload = .ok () ↔ ∀ byte ∈ payload, byte = 0 := by
  induction fuel generalizing payload with
  | zero =>
    obtain rfl := List.eq_nil_of_length_eq_zero (Nat.le_zero.mp hfuel)
    simp [assertChunksZeroBy]
  | succ fuel ih =>
    cases payload with
    | nil => simp [assertChunksZeroBy]
    | cons byte payload =>
      have hrest : ((byte :: payload).drop size).length ≤ fuel := by
        rw [List.length_drop]
        omega
      have hsplit : (∀ x ∈ byte :: payload, x = 0) ↔
          (∀ x ∈ (byte :: payload).take size, x = 0) ∧ ∀ x ∈ (byte :: payload).drop size, x = 0 := by
        rw [← List.forall_mem_append, List.take_append_drop]
      simp only [assertChunksZeroBy, bind_ok, require_ok, exists_const, ih hrest, hsplit,
        List.eq_replicate_iff, true_and]

theorem assertWeightIndexBlankBy_ok (hsize : 0 < size) {data : List ℕ} :
    assertWeightIndexBlankBy size data = .ok () ↔ BlankLayout data := by
  have hfuel : (data.drop 8).length ≤ data.length := by simp
  simp only [assertWeightIndexBlankBy, bind_ok, require_ok, exists_const,
    assertChunksZeroBy_ok hsize hfuel, BlankLayout]

-- ---------------------------------------------------------------------------
-- What a zero payload is the image of
-- ---------------------------------------------------------------------------

theorem leNat_zeros {b : Bytes} (h : ∀ byte ∈ b, byte = 0) : leNat b = 0 := by
  induction b with
  | nil => rfl
  | cons byte b ih =>
    rw [leNat, h byte (by simp), ih fun x hx => h x (by simp [hx])]
    rfl

theorem eq_zero_of_leBytes {n value : ℕ} (h : ∀ byte ∈ leBytes n value, byte = 0)
    (hfits : value < 256 ^ n) : value = 0 := by
  rw [← leNat_leBytes hfits, leNat_zeros h]

theorem WeightIndex.slots_of_zeros {w : Encoding} {x : WeightIndex} {padding : Bytes}
    (hfits : x.Fits w) (h : ∀ byte ∈ (x.bytes w padding).drop 8, byte = 0) :
    x.slots = (WeightIndex.blank x.pool).slots := by
  rw [WeightIndex.bytes, List.drop_left' (w.length_discriminator _)] at h
  simp only [List.flatten_append, List.forall_mem_append] at h
  obtain ⟨⟨hhead, htree⟩, hstack⟩ := h
  have hfield : ∀ field ∈ x.headFields w padding, ∀ byte ∈ field, byte = 0 :=
    fun field hmem byte hbyte => hhead byte (List.mem_flatten.mpr ⟨field, hmem, hbyte⟩)
  have htotal : x.slots.totalWeight = 0 := eq_zero_of_leBytes
    (hfield (leBytes 8 x.slots.totalWeight) (by simp [WeightIndex.headFields])) hfits.totalWeight
  have hwater : x.slots.highWater = 0 := eq_zero_of_leBytes
    (hfield (leBytes 4 x.slots.highWater) (by simp [WeightIndex.headFields])) hfits.highWater
  have hcount : x.slots.freeCount = 0 := eq_zero_of_leBytes
    (hfield (leBytes 4 x.slots.freeCount) (by simp [WeightIndex.headFields])) hfits.freeCount
  have hnodes : x.slots.tree = fun _ => 0 := funext fun i => eq_zero_of_leBytes
    (fun byte hbyte => htree byte (List.mem_flatten.mpr ⟨_, List.mem_ofFn.mpr ⟨i, rfl⟩, hbyte⟩))
    (hfits.tree i)
  have hfree : x.slots.freeStack = fun _ => 0 := funext fun i => eq_zero_of_leBytes
    (fun byte hbyte => hstack byte (List.mem_flatten.mpr ⟨_, List.mem_ofFn.mpr ⟨i, rfl⟩, hbyte⟩))
    (hfits.freeStack i)
  have heta : x.slots = ⟨x.slots.totalWeight, x.slots.highWater, x.slots.freeCount, x.slots.tree,
    x.slots.freeStack⟩ := rfl
  rw [heta, htotal, hwater, hcount, hnodes, hfree]
  rfl

-- ---------------------------------------------------------------------------
-- Acceptance
-- ---------------------------------------------------------------------------

/-- For any chunk length the account is accepted exactly where its layout is blank, and then it is
the image of a blank index only. -/
theorem weightIndexBlank_exact (w : Encoding) (hsize : 0 < size) (account : Bytes) :
    let data := account.map UInt8.toNat
    (assertWeightIndexBlankBy size data = .ok () ↔ BlankLayout data) ∧
    (assertWeightIndexBlank data = .ok () ↔ BlankLayout data) ∧
    (assertWeightIndexBlankBy size data = .ok () → ∀ (x : WeightIndex) (padding : Bytes),
      x.Fits w → (x.bytes w padding).drop 8 = account.drop 8 →
        x.slots = (WeightIndex.blank x.pool).slots) := by
  intro data
  have hprogram : assertWeightIndexBlank data = assertWeightIndexBlankBy ZERO_CHUNK_LEN data := by
    rw [assertWeightIndexBlank, assertWeightIndexBlankBy, assertChunksZero_eq]
  refine ⟨assertWeightIndexBlankBy_ok hsize, ?_, fun haccepted x padding hfits hsame => ?_⟩
  · rw [hprogram]
    exact assertWeightIndexBlankBy_ok (by decide)
  · obtain ⟨-, hzero⟩ := (assertWeightIndexBlankBy_ok hsize).mp haccepted
    have hzeros : ∀ byte ∈ (x.bytes w padding).drop 8, byte = 0 := by
      intro byte hbyte
      rw [hsame] at hbyte
      have hvalue := hzero byte.toNat (by
        rw [← List.map_drop]
        exact List.mem_map_of_mem hbyte)
      exact UInt8.toNat_inj.mp hvalue
    exact WeightIndex.slots_of_zeros hfits hzeros

theorem weightIndexBlank_exact_short :
    let account : Bytes := List.replicate (8 + WEIGHT_INDEX_SPACE) 0
    assertWeightIndexBlankBy 4097 (account.map UInt8.toNat) = .ok () := by
  intro account
  have haccount : account.map UInt8.toNat = List.replicate (8 + WEIGHT_INDEX_SPACE) 0 :=
    List.map_replicate
  refine (weightIndexBlank_exact bankEncoding (by decide : 0 < 4097) account).1.mpr ?_
  rw [haccount]
  exact ⟨List.length_replicate, fun byte hbyte =>
    List.eq_of_mem_replicate (List.mem_of_mem_drop hbyte)⟩

end ByeMachine
