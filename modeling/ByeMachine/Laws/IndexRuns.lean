import ByeMachine.Laws.WeightIndex

/-!
# Runs of the weight index

The account's operations against the slot invariant, and what holds after any
sequence of calls from the blank index, next to the plain array of leaves the
same successful calls would write.
-/

namespace ByeMachine

open Fallible Fenwick

-- ---------------------------------------------------------------------------
-- The account's operations
-- ---------------------------------------------------------------------------

theorem capacity_lt : FENWICK_CAPACITY < 2 ^ 32 := by decide

/-- The account's slots agree with a plain array of leaves. -/
def WeightIndex.Inv (w : WeightIndex) (leaves : ℕ → ℕ) : Prop := w.slots.Inv leaves

theorem WeightIndex.blank_inv (pool : Pubkey) : (WeightIndex.blank pool).Inv fun _ => 0 :=
  Slots.blank_inv

theorem weightOf_fails {v : ℕ} (h : ∀ w, weightOf v ≠ .ok w) :
    ∃ e, weightOf v = .error (.program e) := by
  by_cases h0 : 0 < v
  · by_cases hC : v ≤ WEIGHT_C
    · exact absurd (weightOf_ok.mpr ⟨h0, hC, rfl⟩) (h _)
    · have hz : WEIGHT_C / v = 0 := Nat.div_eq_of_lt (by omega)
      exact ⟨.arithmeticFailure, by
        simp [weightOf, require_pos h0, Checked.div_of_ne h0.ne', hz, require_neg]⟩
  · exact ⟨.zeroValue, by simp [weightOf, require_neg h0]⟩

theorem WeightIndex.insert_spec {w : WeightIndex} {leaves : ℕ → ℕ} (h : w.Inv leaves)
    {value expectedTotal : ℕ} (h0 : 0 < value) (hC : value ≤ WEIGHT_C)
    (hok : w.slots.InsertOk (weight value) expectedTotal) :
    ∃ w', w.insert value expectedTotal = .ok (w.slots.nextSlot, w') ∧ w'.pool = w.pool ∧
      w'.Inv (Function.update leaves w.slots.nextSlot (weight value)) ∧
      leaves w.slots.nextSlot = 0 ∧ w.slots.nextSlot < FENWICK_CAPACITY ∧
      w'.slots.totalWeight = expectedTotal := by
  obtain ⟨s', hrun, hinv, hzero, hslot, htotal⟩ :=
    opsInsert_spec h capacity_lt (weight_pos h0 hC) hok
  refine ⟨{ w with slots := s' }, ?_, rfl, hinv, hzero, hslot, htotal⟩
  simp [WeightIndex.insert, weightOf_ok.mpr ⟨h0, hC, rfl⟩, hrun, pure, Except.pure]

theorem WeightIndex.insert_ok {w w' : WeightIndex} {leaves : ℕ → ℕ} (h : w.Inv leaves)
    {value expectedTotal slot : ℕ} (hrun : w.insert value expectedTotal = .ok (slot, w')) :
    0 < value ∧ value ≤ WEIGHT_C ∧ w'.pool = w.pool ∧ slot = w.slots.nextSlot ∧
      w'.Inv (Function.update leaves slot (weight value)) ∧ leaves slot = 0 ∧
      slot < FENWICK_CAPACITY ∧ w'.slots.totalWeight = expectedTotal ∧
      expectedTotal = w.slots.totalWeight + weight value := by
  have hrun' := hrun
  simp only [WeightIndex.insert, bind_ok, weightOf_ok] at hrun'
  obtain ⟨_, ⟨h0, hC, rfl⟩, ⟨_, _⟩, hops, -⟩ := hrun'
  by_cases hok : w.slots.InsertOk (weight value) expectedTotal
  · obtain ⟨w'', heq, hpool, hinv, hzero, hslot, htotal⟩ := WeightIndex.insert_spec h h0 hC hok
    obtain ⟨rfl, rfl⟩ : w.slots.nextSlot = slot ∧ w'' = w' := by simpa [hrun] using heq.symm
    exact ⟨h0, hC, hpool, rfl, hinv, hzero, hslot, htotal, hok.2.2.symm⟩
  · obtain ⟨e, herr⟩ := opsInsert_fails h capacity_lt hok
    rw [herr] at hops
    exact absurd hops (by simp)

theorem WeightIndex.remove_spec {w : WeightIndex} {leaves : ℕ → ℕ} (h : w.Inv leaves)
    {slot value expectedTotal : ℕ} (h0 : 0 < value) (hC : value ≤ WEIGHT_C)
    (hok : w.slots.RemoveOk leaves slot (weight value) expectedTotal) :
    ∃ w', w.remove slot value expectedTotal = .ok w' ∧ w'.pool = w.pool ∧
      w'.Inv (Function.update leaves slot 0) ∧ w'.slots.totalWeight = expectedTotal := by
  obtain ⟨s', hrun, hinv, htotal, -, -⟩ := opsRemove_spec h capacity_lt (weight_pos h0 hC) hok
  refine ⟨{ w with slots := s' }, ?_, rfl, hinv, htotal⟩
  simp [WeightIndex.remove, weightOf_ok.mpr ⟨h0, hC, rfl⟩, hrun, pure, Except.pure]

theorem WeightIndex.remove_ok {w w' : WeightIndex} {leaves : ℕ → ℕ} (h : w.Inv leaves)
    {slot value expectedTotal : ℕ} (hrun : w.remove slot value expectedTotal = .ok w') :
    0 < value ∧ value ≤ WEIGHT_C ∧ w'.pool = w.pool ∧ slot < FENWICK_CAPACITY ∧
      leaves slot = weight value ∧ w'.Inv (Function.update leaves slot 0) ∧
      w'.slots.totalWeight = expectedTotal ∧
      w.slots.totalWeight = expectedTotal + weight value := by
  have hrun' := hrun
  simp only [WeightIndex.remove, bind_ok, weightOf_ok] at hrun'
  obtain ⟨_, ⟨h0, hC, rfl⟩, _, hops, -⟩ := hrun'
  by_cases hok : w.slots.RemoveOk leaves slot (weight value) expectedTotal
  · obtain ⟨w'', heq, hpool, hinv, htotal⟩ := WeightIndex.remove_spec h h0 hC hok
    obtain rfl : w'' = w' := by simpa [hrun] using heq.symm
    have hle := h.leaf_le_total hok.1
    have hexp := hok.2.2
    exact ⟨h0, hC, hpool, hok.1, hok.2.1, hinv, htotal, by have := hok.2.1; omega⟩
  · rw [opsRemove_fails h capacity_lt (weight_pos h0 hC) hok] at hops
    exact absurd hops (by simp)

theorem WeightIndex.update_spec {w : WeightIndex} {leaves : ℕ → ℕ} (h : w.Inv leaves)
    {slot oldValue newValue expectedTotal : ℕ} (h0 : 0 < oldValue) (hC : oldValue ≤ WEIGHT_C)
    (h0' : 0 < newValue) (hC' : newValue ≤ WEIGHT_C)
    (hok : w.slots.UpdateOk leaves slot (weight oldValue) (weight newValue) expectedTotal) :
    ∃ w', w.update slot oldValue newValue expectedTotal = .ok w' ∧ w'.pool = w.pool ∧
      w'.Inv (Function.update leaves slot (weight newValue)) ∧
      w'.slots.totalWeight = expectedTotal := by
  obtain ⟨s', hrun, hinv, htotal, -, -⟩ :=
    opsUpdate_spec h capacity_lt (weight_pos h0 hC) (weight_pos h0' hC') hok
  refine ⟨{ w with slots := s' }, ?_, rfl, hinv, htotal⟩
  simp [WeightIndex.update, weightOf_ok.mpr ⟨h0, hC, rfl⟩, weightOf_ok.mpr ⟨h0', hC', rfl⟩, hrun,
    pure, Except.pure]

theorem WeightIndex.update_ok {w w' : WeightIndex} {leaves : ℕ → ℕ} (h : w.Inv leaves)
    {slot oldValue newValue expectedTotal : ℕ}
    (hrun : w.update slot oldValue newValue expectedTotal = .ok w') :
    0 < newValue ∧ newValue ≤ WEIGHT_C ∧ w'.pool = w.pool ∧ slot < FENWICK_CAPACITY ∧
      leaves slot = weight oldValue ∧ w'.Inv (Function.update leaves slot (weight newValue)) ∧
      w'.slots.totalWeight = expectedTotal ∧
      w.slots.totalWeight + weight newValue = expectedTotal + weight oldValue := by
  have hrun' := hrun
  simp only [WeightIndex.update, bind_ok, weightOf_ok] at hrun'
  obtain ⟨_, ⟨h0, hC, rfl⟩, _, ⟨h0', hC', rfl⟩, _, hops, -⟩ := hrun'
  by_cases hok : w.slots.UpdateOk leaves slot (weight oldValue) (weight newValue) expectedTotal
  · obtain ⟨w'', heq, hpool, hinv, htotal⟩ := WeightIndex.update_spec h h0 hC h0' hC' hok
    obtain rfl : w'' = w' := by simpa [hrun] using heq.symm
    have hle := h.leaf_le_total hok.1
    obtain ⟨hslot, hleaf, -, hexp⟩ := hok
    exact ⟨h0', hC', hpool, hslot, hleaf, hinv, htotal, by omega⟩
  · rw [opsUpdate_fails h capacity_lt hok] at hops
    exact absurd hops (by simp)

-- ---------------------------------------------------------------------------
-- Calls and runs
-- ---------------------------------------------------------------------------

/-- One call of the account, with arbitrary arguments. -/
inductive IndexCall where
  | insert (value expectedTotal : ℕ)
  | remove (slot value expectedTotal : ℕ)
  | update (slot oldValue newValue expectedTotal : ℕ)
  deriving DecidableEq, Repr

namespace IndexCall

def run (w : WeightIndex) : IndexCall → Result WeightIndex
  | .insert value expectedTotal => (·.2) <$> w.insert value expectedTotal
  | .remove slot value expectedTotal => w.remove slot value expectedTotal
  | .update slot oldValue newValue expectedTotal => w.update slot oldValue newValue expectedTotal

/-- A call on the index beside the plain array of leaves. A failing call reverts. -/
def step (st : WeightIndex × (ℕ → ℕ)) : IndexCall → WeightIndex × (ℕ → ℕ)
  | .insert value expectedTotal =>
    match st.1.insert value expectedTotal with
    | .ok (slot, w) => (w, Function.update st.2 slot (weight value))
    | .error _ => st
  | .remove slot value expectedTotal =>
    match st.1.remove slot value expectedTotal with
    | .ok w => (w, Function.update st.2 slot 0)
    | .error _ => st
  | .update slot oldValue newValue expectedTotal =>
    match st.1.update slot oldValue newValue expectedTotal with
    | .ok w => (w, Function.update st.2 slot (weight newValue))
    | .error _ => st

/-- The state a sequence of calls reaches from the blank index. -/
def runAll (pool : Pubkey) (calls : List IndexCall) : WeightIndex × (ℕ → ℕ) :=
  calls.foldl step (WeightIndex.blank pool, fun _ => 0)

end IndexCall

theorem step_inv {st : WeightIndex × (ℕ → ℕ)} (h : st.1.Inv st.2) (call : IndexCall) :
    (call.step st).1.Inv (call.step st).2 := by
  cases call with
  | insert value expectedTotal =>
    cases hrun : st.1.insert value expectedTotal with
    | error e => simpa only [IndexCall.step, hrun] using h
    | ok r =>
      obtain ⟨slot, w⟩ := r
      simpa only [IndexCall.step, hrun] using (WeightIndex.insert_ok h hrun).2.2.2.2.1
  | remove slot value expectedTotal =>
    cases hrun : st.1.remove slot value expectedTotal with
    | error e => simpa only [IndexCall.step, hrun] using h
    | ok w =>
      simpa only [IndexCall.step, hrun] using (WeightIndex.remove_ok h hrun).2.2.2.2.2.1
  | update slot oldValue newValue expectedTotal =>
    cases hrun : st.1.update slot oldValue newValue expectedTotal with
    | error e => simpa only [IndexCall.step, hrun] using h
    | ok w =>
      simpa only [IndexCall.step, hrun] using (WeightIndex.update_ok h hrun).2.2.2.2.2.1

theorem runAll_inv (pool : Pubkey) (calls : List IndexCall) :
    (IndexCall.runAll pool calls).1.Inv (IndexCall.runAll pool calls).2 := by
  induction calls using List.reverseRecOn with
  | nil => exact WeightIndex.blank_inv pool
  | append_singleton calls call ih =>
    rw [IndexCall.runAll, List.foldl_append]
    exact step_inv ih call

-- ---------------------------------------------------------------------------
-- No call aborts
-- ---------------------------------------------------------------------------

theorem noPanic_ok {α : Type*} (a : α) : NoPanic (.ok a : Result α) := by simp [NoPanic]

theorem noPanic_program {α : Type*} (e : ByeMachineError) :
    NoPanic (.error (.program e) : Result α) := by simp [NoPanic]

theorem weightOf_bind_noPanic {α : Type} {value : ℕ} {f : ℕ → Result α}
    (h : 0 < value → value ≤ WEIGHT_C → NoPanic (f (weight value))) :
    NoPanic (weightOf value >>= f) := by
  by_cases hok : 0 < value ∧ value ≤ WEIGHT_C
  · rw [weightOf_ok.mpr ⟨hok.1, hok.2, rfl⟩, ok_bind]
    exact h hok.1 hok.2
  · obtain ⟨e, he⟩ := weightOf_fails (v := value) fun w hw =>
      hok ⟨(weightOf_ok.mp hw).1, (weightOf_ok.mp hw).2.1⟩
    rw [he, error_bind]
    exact noPanic_program e

theorem WeightIndex.insert_noPanic {w : WeightIndex} {leaves : ℕ → ℕ} (h : w.Inv leaves)
    (value expectedTotal : ℕ) : NoPanic (w.insert value expectedTotal) := by
  refine weightOf_bind_noPanic fun h0 hC => ?_
  by_cases hok : w.slots.InsertOk (weight value) expectedTotal
  · obtain ⟨s', hrun, -⟩ := opsInsert_spec h capacity_lt (weight_pos h0 hC) hok
    rw [hrun]
    exact noPanic_ok _
  · obtain ⟨e, herr⟩ := opsInsert_fails h capacity_lt hok
    rw [herr]
    exact noPanic_program e

theorem WeightIndex.remove_noPanic {w : WeightIndex} {leaves : ℕ → ℕ} (h : w.Inv leaves)
    (slot value expectedTotal : ℕ) : NoPanic (w.remove slot value expectedTotal) := by
  refine weightOf_bind_noPanic fun h0 hC => ?_
  by_cases hok : w.slots.RemoveOk leaves slot (weight value) expectedTotal
  · obtain ⟨s', hrun, -⟩ := opsRemove_spec h capacity_lt (weight_pos h0 hC) hok
    rw [hrun]
    exact noPanic_ok _
  · rw [opsRemove_fails h capacity_lt (weight_pos h0 hC) hok]
    exact noPanic_program _

theorem WeightIndex.update_noPanic {w : WeightIndex} {leaves : ℕ → ℕ} (h : w.Inv leaves)
    (slot oldValue newValue expectedTotal : ℕ) :
    NoPanic (w.update slot oldValue newValue expectedTotal) := by
  refine weightOf_bind_noPanic fun h0 hC => weightOf_bind_noPanic fun h0' hC' => ?_
  by_cases hok : w.slots.UpdateOk leaves slot (weight oldValue) (weight newValue) expectedTotal
  · obtain ⟨s', hrun, -⟩ := opsUpdate_spec h capacity_lt (weight_pos h0 hC) (weight_pos h0' hC') hok
    rw [hrun]
    exact noPanic_ok _
  · rw [opsUpdate_fails h capacity_lt hok]
    exact noPanic_program _

theorem IndexCall.run_noPanic {w : WeightIndex} {leaves : ℕ → ℕ} (h : w.Inv leaves)
    (call : IndexCall) : NoPanic (call.run w) := by
  cases call with
  | insert value expectedTotal =>
    have hno := WeightIndex.insert_noPanic h value expectedTotal
    cases hrun : w.insert value expectedTotal with
    | error e => simpa [IndexCall.run, hrun, NoPanic] using hno
    | ok r => simp [IndexCall.run, hrun, NoPanic]
  | remove slot value expectedTotal => exact WeightIndex.remove_noPanic h _ _ _
  | update slot oldValue newValue expectedTotal => exact WeightIndex.update_noPanic h _ _ _ _

-- ---------------------------------------------------------------------------
-- What every run reaches
-- ---------------------------------------------------------------------------

def WeightIndex.IsFree (w : WeightIndex) (slot : ℕ) : Prop :=
  ∃ i : Fin FENWICK_CAPACITY, i.val < w.slots.freeCount ∧ w.slots.freeStack i = slot

/-- The representation invariant of an index over the leaves of a plain array. -/
structure WeightIndex.Represents (w : WeightIndex) (leaves : ℕ → ℕ) : Prop where
  /-- Tree element `i` is the sum of the leaves `(i + 1 - lowbit (i + 1), i + 1]`, from one. -/
  node : ∀ i : Fin FENWICK_CAPACITY, w.slots.tree i
    = ∑ j ∈ Finset.Ioc (i.val + 1 - lowbit (i.val + 1)) (i.val + 1), leaves (j - 1)
  total : w.slots.totalWeight = ∑ slot ∈ Finset.range FENWICK_CAPACITY, leaves slot
  distinct : ∀ i j : Fin FENWICK_CAPACITY, i.val < w.slots.freeCount → j.val < w.slots.freeCount →
    w.slots.freeStack i = w.slots.freeStack j → i = j
  free : ∀ slot, w.IsFree slot → slot < w.slots.highWater ∧ leaves slot = 0
  live : ∀ slot, slot < w.slots.highWater → Xor (w.IsFree slot) (0 < leaves slot)
  above : ∀ slot, w.slots.highWater ≤ slot → leaves slot = 0
  freeCount : w.slots.freeCount ≤ w.slots.highWater
  highWater : w.slots.highWater ≤ FENWICK_CAPACITY

theorem WeightIndex.Inv.mem_free {w : WeightIndex} {leaves : ℕ → ℕ} (h : w.Inv leaves)
    {slot : ℕ} : slot ∈ w.slots.free ↔ w.IsFree slot := by
  have hcount : w.slots.freeCount ≤ FENWICK_CAPACITY := h.freeCount_le.trans h.highWater
  simp only [Slots.free, List.mem_map, List.mem_range, WeightIndex.IsFree]
  constructor
  · rintro ⟨i, hi, rfl⟩
    exact ⟨⟨i, by omega⟩, hi, by rw [dif_pos]⟩
  · rintro ⟨i, hi, rfl⟩
    exact ⟨i.val, hi, by rw [dif_pos i.isLt]⟩

theorem WeightIndex.Inv.represents {w : WeightIndex} {leaves : ℕ → ℕ} (h : w.Inv leaves) :
    w.Represents leaves where
  node := by
    intro i
    have hnode := h.tree (i.val + 1) (by omega) (by omega)
    rw [lowbit_eq_span (by omega) (by have := i.isLt; have := capacity_lt; omega)]
    rw [ByeMachine.node, dif_pos (by omega)] at hnode
    refine hnode.trans (Finset.sum_congr rfl fun j hj => ?_)
    obtain ⟨k, rfl⟩ : ∃ k, j = k + 1 := ⟨j - 1, by have := Finset.mem_Ioc.mp hj; omega⟩
    rfl
  total := h.total
  distinct := by
    intro i j hi hj heq
    have hnodup := h.nodup
    rw [Slots.free, List.nodup_map_iff_inj_on List.nodup_range] at hnodup
    exact Fin.ext (hnodup i.val (List.mem_range.mpr hi) j.val (List.mem_range.mpr hj)
      (by rw [dif_pos i.isLt, dif_pos j.isLt]; exact heq))
  free := fun slot hslot => (h.free slot).mp (h.mem_free.mpr hslot)
  live := by
    intro slot hlt
    have hfree := h.free slot
    rw [h.mem_free] at hfree
    by_cases hz : leaves slot = 0
    · exact .inl ⟨hfree.mpr ⟨hlt, hz⟩, by omega⟩
    · exact .inr ⟨by omega, fun hf => hz (hfree.mp hf).2⟩
  above := h.above
  freeCount := h.freeCount_le
  highWater := h.highWater

/-- Whatever calls are made from the blank index, the state is the one a plain array of leaves
describes, and no further call reaches an `expect`, an index out of bounds or an overflow. -/
theorem runAll_represents (pool : Pubkey) (calls : List IndexCall) :
    (IndexCall.runAll pool calls).1.Represents (IndexCall.runAll pool calls).2 ∧
      ∀ call : IndexCall, NoPanic (call.run (IndexCall.runAll pool calls).1) :=
  ⟨(runAll_inv pool calls).represents, IndexCall.run_noPanic (runAll_inv pool calls)⟩

end ByeMachine
