import ByeMachine.Laws.IndexRuns
import ByeMachine.State.InPlace

/-!
# When the index's operations succeed

On every index that calls reach, each operation succeeds exactly when what it
names is so; a removal or an update of another leaf is refused before anything
is written.
-/

namespace ByeMachine

open Fallible

-- ---------------------------------------------------------------------------
-- The slots released
-- ---------------------------------------------------------------------------

/-- The slots released and not handed out again, the most recently released one last: read off what
the calls answer, not off the index. -/
def IndexCall.released (w : WeightIndex) (slots : List ℕ) : IndexCall → List ℕ
  | .insert value expectedTotal =>
    match w.insert value expectedTotal with
    | .ok (slot, _) => slots.erase slot
    | .error _ => slots
  | .remove slot value expectedTotal =>
    match w.remove slot value expectedTotal with
    | .ok _ => slots ++ [slot]
    | .error _ => slots
  | .update _ _ _ _ => slots

def IndexCall.releasedAll (pool : Pubkey) (calls : List IndexCall) : List ℕ :=
  (calls.foldl (fun st call => (call.step st.1, call.released st.1.1 st.2))
    ((WeightIndex.blank pool, fun _ => 0), [])).2

section Released

variable {st : WeightIndex × (ℕ → ℕ)}

theorem WeightIndex.insert_takes {w w' : WeightIndex} {value expectedTotal slot : ℕ}
    (h : w.insert value expectedTotal = .ok (slot, w')) :
    w'.slots.free = w.slots.free.dropLast ∧ w'.slots.highWater
      = if w.slots.free = [] then w.slots.highWater + 1 else w.slots.highWater := by
  simp only [WeightIndex.insert, bind_ok, pure_ok, Prod.mk.injEq, Prod.exists] at h
  obtain ⟨_, -, _, _, hops, -, rfl⟩ := h
  exact opsInsert_takes hops

theorem WeightIndex.remove_free {w w' : WeightIndex} {leaves : ℕ → ℕ} (h : w.Inv leaves)
    {slot value expectedTotal : ℕ} (hrun : w.remove slot value expectedTotal = .ok w') :
    w'.slots.free = w.slots.free ++ [slot] := by
  obtain ⟨h0, hC, -, hslot, hleaf, -, -, htotal⟩ := WeightIndex.remove_ok h hrun
  have hok : w.slots.RemoveOk leaves slot (weight value) expectedTotal := ⟨hslot, hleaf, by omega⟩
  obtain ⟨s', hops, -, -, hfree, -⟩ := opsRemove_spec h capacity_lt (weight_pos h0 hC) hok
  simp only [WeightIndex.remove, weightOf_ok.mpr ⟨h0, hC, rfl⟩, ok_bind, hops] at hrun
  obtain rfl := Except.ok.inj hrun
  exact hfree

theorem WeightIndex.update_free {w w' : WeightIndex} {leaves : ℕ → ℕ} (h : w.Inv leaves)
    {slot oldValue newValue expectedTotal : ℕ}
    (hrun : w.update slot oldValue newValue expectedTotal = .ok w') :
    w'.slots.free = w.slots.free := by
  obtain ⟨h0', hC', -, hslot, hleaf, hinv, htotal', htotal⟩ := WeightIndex.update_ok h hrun
  have hrun' := hrun
  simp only [WeightIndex.update, bind_ok, weightOf_ok] at hrun'
  obtain ⟨_, ⟨h0, hC, -⟩, -⟩ := hrun'
  have hle := h.leaf_le_total hslot
  have hfits : expectedTotal < 2 ^ 64 := htotal' ▸ Slots.Inv.fits hinv
  have hok : w.slots.UpdateOk leaves slot (weight oldValue) (weight newValue) expectedTotal :=
    ⟨hslot, hleaf, by omega, by omega⟩
  obtain ⟨s', hops, -, -, hfree, -⟩ :=
    opsUpdate_spec h capacity_lt (weight_pos h0 hC) (weight_pos h0' hC') hok
  simp only [WeightIndex.update, weightOf_ok.mpr ⟨h0, hC, rfl⟩, weightOf_ok.mpr ⟨h0', hC', rfl⟩,
    ok_bind, hops] at hrun
  obtain rfl := Except.ok.inj hrun
  exact hfree

theorem Slots.erase_nextSlot {n : ℕ} {s : Slots n} {leaves : ℕ → ℕ} (h : s.Inv leaves) :
    s.free.erase s.nextSlot = s.free.dropLast := by
  cases hlast : s.free.getLast? with
  | none =>
    rw [List.getLast?_eq_none_iff] at hlast
    rw [hlast]
    rfl
  | some slot =>
    obtain ⟨init, hfree⟩ := List.getLast?_eq_some_iff.mp hlast
    have hnodup := h.nodup
    rw [hfree, List.nodup_append] at hnodup
    have hnot : slot ∉ init := fun hmem =>
      hnodup.2.2 slot hmem slot (List.mem_singleton_self slot) rfl
    rw [Slots.nextSlot, hlast, Option.getD_some, hfree, List.erase_append_right _ hnot,
      List.dropLast_concat, List.erase_cons_head, List.append_nil]

theorem released_step (h : st.1.Inv st.2) (call : IndexCall) :
    (call.step st).1.slots.free = call.released st.1 st.1.slots.free := by
  cases call with
  | insert value expectedTotal =>
    cases hrun : st.1.insert value expectedTotal with
    | error e => simp only [IndexCall.step, IndexCall.released, hrun]
    | ok r =>
      obtain ⟨slot, w⟩ := r
      simp only [IndexCall.step, IndexCall.released, hrun]
      obtain ⟨-, -, -, rfl, -⟩ := WeightIndex.insert_ok h hrun
      rw [(WeightIndex.insert_takes hrun).1, Slots.erase_nextSlot h]
  | remove slot value expectedTotal =>
    cases hrun : st.1.remove slot value expectedTotal with
    | error e => simp only [IndexCall.step, IndexCall.released, hrun]
    | ok w =>
      simp only [IndexCall.step, IndexCall.released, hrun]
      exact WeightIndex.remove_free h hrun
  | update slot oldValue newValue expectedTotal =>
    cases hrun : st.1.update slot oldValue newValue expectedTotal with
    | error e => simp only [IndexCall.step, IndexCall.released, hrun]
    | ok w =>
      simp only [IndexCall.step, IndexCall.released, hrun]
      exact WeightIndex.update_free h hrun

theorem releasedAll_free (pool : Pubkey) (calls : List IndexCall) :
    (IndexCall.runAll pool calls).1.slots.free = IndexCall.releasedAll pool calls := by
  suffices hboth : ∀ calls, calls.foldl (fun st call => (call.step st.1, call.released st.1.1 st.2))
      ((WeightIndex.blank pool, fun _ => 0), [])
        = (IndexCall.runAll pool calls, (IndexCall.runAll pool calls).1.slots.free) by
    rw [IndexCall.releasedAll, hboth]
  intro calls
  induction calls using List.reverseRecOn with
  | nil => rfl
  | append_singleton calls call ih =>
    have hlast : IndexCall.runAll pool (calls ++ [call]) = call.step (IndexCall.runAll pool calls) :=
      List.foldl_append
    rw [List.foldl_append, ih, hlast]
    exact congrArg (Prod.mk _) (released_step (runAll_inv pool calls) call).symm

end Released

-- ---------------------------------------------------------------------------
-- When each succeeds
-- ---------------------------------------------------------------------------

/-- The slot is out of range or free, or the value's weight is not the leaf's. -/
def Mismatched (leaves : ℕ → ℕ) (slot value : ℕ) : Prop :=
  FENWICK_CAPACITY ≤ slot ∨ leaves slot = 0 ∨ ∀ w, weightOf value = .ok w → leaves slot ≠ w

/-- When the operations succeed and what they refuse untouched, over the leaves the index holds and
the slots released. -/
structure WeightIndex.Exact (w : WeightIndex) (leaves : ℕ → ℕ) (released : List ℕ) : Prop where
  leaf : ∀ slot, slot < FENWICK_CAPACITY → fenwickLeaf w.slots.tree (slot + 1) = .ok (leaves slot)
  insert : ∀ value t, (∃ slot w', w.insert value t = .ok (slot, w')) ↔
    ∃ v, weightOf value = .ok v ∧ (liveSlots FENWICK_CAPACITY leaves).card < FENWICK_CAPACITY ∧
      w.slots.totalWeight + v < 2 ^ 64 ∧ t = w.slots.totalWeight + v
  reuse : ∀ value t slot w', w.insert value t = .ok (slot, w') →
    slot = released.getLast?.getD w.slots.highWater ∧
      w'.slots.highWater
        = if released = [] then w.slots.highWater + 1 else w.slots.highWater
  remove : ∀ slot value t, (∃ w', w.remove slot value t = .ok w') ↔
    ∃ v, weightOf value = .ok v ∧ slot < FENWICK_CAPACITY ∧ 0 < leaves slot ∧ leaves slot = v ∧
      t = w.slots.totalWeight - v
  update : ∀ slot oldValue newValue t, (∃ w', w.update slot oldValue newValue t = .ok w') ↔
    ∃ v v', weightOf oldValue = .ok v ∧ weightOf newValue = .ok v' ∧ slot < FENWICK_CAPACITY ∧
      leaves slot = v ∧ w.slots.totalWeight - v + v' < 2 ^ 64 ∧ t = w.slots.totalWeight - v + v'
  removeRefused : ∀ slot value t, Mismatched leaves slot value →
    (∀ v, weightOf value = .ok v →
      (removeInPlace slot value t).run w.slots = .error (.program .weightDesync) w.slots) ∧
    ∀ e, weightOf value = .error e → (removeInPlace slot value t).run w.slots = .error e w.slots
  updateRefused : ∀ slot oldValue newValue t, Mismatched leaves slot oldValue →
    (∀ v v', weightOf oldValue = .ok v → weightOf newValue = .ok v' →
      (updateInPlace slot oldValue newValue t).run w.slots
        = .error (.program .weightDesync) w.slots) ∧
    (∀ e, weightOf oldValue = .error e →
      (updateInPlace slot oldValue newValue t).run w.slots = .error e w.slots) ∧
    ∀ v e, weightOf oldValue = .ok v → weightOf newValue = .error e →
      (updateInPlace slot oldValue newValue t).run w.slots = .error e w.slots

section Exact

variable {w : WeightIndex} {leaves : ℕ → ℕ}

theorem WeightIndex.Inv.insert_iff (h : w.Inv leaves) (value t : ℕ) :
    (∃ slot w', w.insert value t = .ok (slot, w')) ↔
      ∃ v, weightOf value = .ok v ∧ (liveSlots FENWICK_CAPACITY leaves).card < FENWICK_CAPACITY ∧
        w.slots.totalWeight + v < 2 ^ 64 ∧ t = w.slots.totalWeight + v := by
  rw [← Slots.Inv.hasRoom_iff h]
  constructor
  · rintro ⟨slot, w', hrun⟩
    obtain ⟨h0, hC, -⟩ := WeightIndex.insert_ok h hrun
    by_cases hok : w.slots.InsertOk (weight value) t
    · exact ⟨_, weightOf_ok.mpr ⟨h0, hC, rfl⟩, hok.1, hok.2.1, hok.2.2.symm⟩
    · obtain ⟨e, hfails⟩ := opsInsert_fails h capacity_lt hok
      simp [WeightIndex.insert, weightOf_ok.mpr ⟨h0, hC, rfl⟩, hfails] at hrun
  · rintro ⟨v, hv, hroom, hfits, rfl⟩
    obtain ⟨h0, hC, rfl⟩ := weightOf_ok.mp hv
    obtain ⟨w', hrun, -⟩ := WeightIndex.insert_spec h h0 hC ⟨hroom, hfits, rfl⟩
    exact ⟨_, w', hrun⟩

theorem WeightIndex.Inv.remove_iff (h : w.Inv leaves) (slot value t : ℕ) :
    (∃ w', w.remove slot value t = .ok w') ↔
      ∃ v, weightOf value = .ok v ∧ slot < FENWICK_CAPACITY ∧ 0 < leaves slot ∧ leaves slot = v ∧
        t = w.slots.totalWeight - v := by
  constructor
  · rintro ⟨w', hrun⟩
    obtain ⟨h0, hC, -, hslot, hleaf, -, -, htotal⟩ := WeightIndex.remove_ok h hrun
    have hpos := weight_pos h0 hC
    exact ⟨_, weightOf_ok.mpr ⟨h0, hC, rfl⟩, hslot, by omega, hleaf, by omega⟩
  · rintro ⟨v, hv, hslot, -, hleaf, rfl⟩
    obtain ⟨h0, hC, rfl⟩ := weightOf_ok.mp hv
    obtain ⟨w', hrun, -⟩ := WeightIndex.remove_spec h h0 hC ⟨hslot, hleaf, rfl⟩
    exact ⟨w', hrun⟩

theorem WeightIndex.Inv.update_iff (h : w.Inv leaves) (slot oldValue newValue t : ℕ) :
    (∃ w', w.update slot oldValue newValue t = .ok w') ↔
      ∃ v v', weightOf oldValue = .ok v ∧ weightOf newValue = .ok v' ∧ slot < FENWICK_CAPACITY ∧
        leaves slot = v ∧ w.slots.totalWeight - v + v' < 2 ^ 64 ∧
          t = w.slots.totalWeight - v + v' := by
  constructor
  · rintro ⟨w', hrun⟩
    obtain ⟨h0', hC', -, hslot, hleaf, hinv, htotal, hsum⟩ := WeightIndex.update_ok h hrun
    have hfits := Slots.Inv.fits hinv
    have hle := h.leaf_le_total hslot
    simp only [WeightIndex.update, bind_ok, weightOf_ok] at hrun
    obtain ⟨_, ⟨h0, hC, -⟩, -⟩ := hrun
    exact ⟨_, _, weightOf_ok.mpr ⟨h0, hC, rfl⟩, weightOf_ok.mpr ⟨h0', hC', rfl⟩, hslot, hleaf,
      by omega, by omega⟩
  · rintro ⟨v, v', hv, hv', hslot, hleaf, hfits, rfl⟩
    obtain ⟨h0, hC, rfl⟩ := weightOf_ok.mp hv
    obtain ⟨h0', hC', rfl⟩ := weightOf_ok.mp hv'
    obtain ⟨w', hrun, -⟩ := WeightIndex.update_spec h h0 hC h0' hC' ⟨hslot, hleaf, hfits, rfl⟩
    exact ⟨w', hrun⟩

theorem Mismatched.misnamed {slot value v : ℕ} (hmismatch : Mismatched leaves slot value)
    (h : w.Inv leaves) (hv : weightOf value = .ok v) : w.slots.Misnamed slot v := by
  by_cases hslot : slot < FENWICK_CAPACITY
  · refine .inr ⟨leaves slot, Slots.Inv.leaf h capacity_lt hslot, ?_⟩
    rcases hmismatch with hout | hzero | hother
    · exact absurd hslot (Nat.not_lt.mpr hout)
    · rw [hzero]
      exact (weightOf_pos hv).ne
    · exact hother v hv
  · exact .inl (Nat.not_lt.mp hslot)

theorem WeightIndex.Inv.exact (h : w.Inv leaves) : w.Exact leaves w.slots.free where
  leaf := fun _ hslot => Slots.Inv.leaf h capacity_lt hslot
  insert := h.insert_iff
  reuse := by
    intro value t slot w' hrun
    obtain ⟨-, -, -, rfl, -⟩ := WeightIndex.insert_ok h hrun
    exact ⟨rfl, (WeightIndex.insert_takes hrun).2⟩
  remove := h.remove_iff
  update := h.update_iff
  removeRefused := by
    intro slot value t hmismatch
    refine ⟨fun v hv => removeInPlace_misnamed hv (hmismatch.misnamed h hv) t, fun e he => ?_⟩
    rw [removeInPlace, EStateM.run_bind, he]
    rfl
  updateRefused := by
    intro slot oldValue newValue t hmismatch
    refine ⟨fun v v' hv hv' => updateInPlace_misnamed hv hv' (hmismatch.misnamed h hv) t,
      fun e he => ?_, fun v e hv he => ?_⟩
    · rw [updateInPlace, EStateM.run_bind, he]
      rfl
    · rw [updateInPlace, EStateM.run_bind, hv, InPlace.run_of_ok]
      simp only [EStateM.run_bind, he, InPlace.run_of_error]

end Exact

/-- Whatever calls were made from the blank index, its operations succeed exactly when they
should. -/
theorem weightIndex_exact (pool : Pubkey) (calls : List IndexCall) :
    (IndexCall.runAll pool calls).1.Exact (IndexCall.runAll pool calls).2
      (IndexCall.releasedAll pool calls) := by
  rw [← releasedAll_free]
  exact (runAll_inv pool calls).exact

/-- A removal out of range that names a value of zero is refused for the value. -/
theorem remove_out_of_range_zero :
    FENWICK_CAPACITY ≤ FENWICK_CAPACITY ∧
    (removeInPlace FENWICK_CAPACITY 0 0).run (IndexCall.runAll .default []).1.slots
      = .error (.program .zeroValue) (IndexCall.runAll .default []).1.slots ∧
    (IndexCall.runAll .default []).1.remove FENWICK_CAPACITY 0 0
      = .error (.program .zeroValue) ∧
    (IndexCall.runAll .default []).1.remove FENWICK_CAPACITY 0 0
      ≠ .error (.program .weightDesync) := by
  have hzero : weightOf 0 = .error (.program .zeroValue) := rfl
  have hrun : (IndexCall.runAll .default []).1.remove FENWICK_CAPACITY 0 0
      = .error (.program .zeroValue) := by
    rw [WeightIndex.remove, hzero, error_bind]
  refine ⟨le_rfl, ?_, hrun, ?_⟩
  · rw [removeInPlace, EStateM.run_bind, hzero]
    rfl
  · rw [hrun]
    simp

end ByeMachine
