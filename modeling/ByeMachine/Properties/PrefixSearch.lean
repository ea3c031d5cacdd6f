import ByeMachine.Laws.IndexRuns
import Mathlib.Data.Set.Card

/-!
# The prefix search is a linear scan

On every index that successful calls reach, `prefix_search` finds the slot a
scan of the leaves from the first one on would find.
-/

namespace ByeMachine

open Fallible Fenwick

def weightBelow (leaves : ℕ → ℕ) (slot : ℕ) : ℕ := ∑ i ∈ Finset.range slot, leaves i

/-- The first slot at which the running sum of the leaves exceeds `r`. -/
def linearScan (leaves : ℕ → ℕ) (capacity r : ℕ) : Option ℕ :=
  (List.range capacity).find? fun slot => r < weightBelow leaves (slot + 1)

/-- `r` falls into the range of the running sum that is the slot's own. -/
def FallsInto (leaves : ℕ → ℕ) (capacity r slot : ℕ) : Prop :=
  slot < capacity ∧ weightBelow leaves slot ≤ r ∧ r < weightBelow leaves (slot + 1)

section Scan

variable {leaves : ℕ → ℕ} {capacity r slot other : ℕ}

theorem weightBelow_mono (leaves : ℕ → ℕ) {i j : ℕ} (h : i ≤ j) :
    weightBelow leaves i ≤ weightBelow leaves j :=
  Finset.sum_le_sum_of_subset (Finset.range_mono h)

theorem FallsInto.unique (h : FallsInto leaves capacity r slot)
    (h' : FallsInto leaves capacity r other) : slot = other := by
  obtain ⟨-, hbelow, habove⟩ := h
  obtain ⟨-, hbelow', habove'⟩ := h'
  rcases Nat.lt_trichotomy slot other with hlt | heq | hgt
  · have := weightBelow_mono leaves (show slot + 1 ≤ other from hlt)
    omega
  · exact heq
  · have := weightBelow_mono leaves (show other + 1 ≤ slot from hgt)
    omega

theorem linearScan_some : linearScan leaves capacity r = some slot ↔
    FallsInto leaves capacity r slot := by
  rw [linearScan, List.find?_eq_some_iff_getElem]
  constructor
  · rintro ⟨hslot, i, hi, hget, hbefore⟩
    rw [List.getElem_range] at hget
    subst hget
    rw [List.length_range] at hi
    refine ⟨hi, ?_, by simpa using hslot⟩
    cases i with
    | zero => exact Nat.zero_le _
    | succ i =>
      have hprevious := hbefore i (Nat.lt_succ_self i)
      simpa using hprevious
  · rintro ⟨hlt, hbelow, habove⟩
    refine ⟨by simpa using habove, slot, by simpa using hlt, by simp, fun j hj => ?_⟩
    have hmono := weightBelow_mono leaves (show j + 1 ≤ slot from hj)
    simpa using hmono.trans hbelow

theorem linearScan_none : linearScan leaves capacity r = none ↔ weightBelow leaves capacity ≤ r := by
  rw [linearScan, List.find?_eq_none]
  simp only [List.mem_range, decide_eq_true_eq, Nat.not_lt]
  constructor
  · intro h
    cases capacity with
    | zero => exact Nat.zero_le _
    | succ capacity => exact h capacity (Nat.lt_succ_self _)
  · intro h slot hslot
    exact (weightBelow_mono leaves hslot).trans h

end Scan

/-- What a search of the index answers, over the leaves it holds. -/
structure WeightIndex.SearchesLinearly (w : WeightIndex) (leaves : ℕ → ℕ) : Prop where
  leaf : ∀ slot, slot < FENWICK_CAPACITY → fenwickLeaf w.slots.tree (slot + 1) = .ok (leaves slot)
  scan : ∀ r, w.prefixSearch r = .ok (linearScan leaves FENWICK_CAPACITY r)
  found : ∀ r, r < w.slots.totalWeight → ∃ slot, w.prefixSearch r = .ok (some slot) ∧
    FallsInto leaves FENWICK_CAPACITY r slot ∧
    ∀ other, FallsInto leaves FENWICK_CAPACITY r other → other = slot
  none : ∀ r, w.prefixSearch r = .ok none ↔ w.slots.totalWeight ≤ r
  positive : ∀ r slot, w.prefixSearch r = .ok (some slot) → 0 < leaves slot
  share : ∀ slot, slot < FENWICK_CAPACITY →
    {r | r < w.slots.totalWeight ∧ w.prefixSearch r = .ok (some slot)}.ncard = leaves slot

variable {w : WeightIndex} {leaves : ℕ → ℕ}

theorem WeightIndex.Inv.total (h : w.Inv leaves) :
    w.slots.totalWeight = weightBelow leaves FENWICK_CAPACITY := Slots.Inv.total h

theorem WeightIndex.Inv.prefixSearch (h : w.Inv leaves) (r : ℕ) :
    w.prefixSearch r = .ok (linearScan leaves FENWICK_CAPACITY r) := by
  have htotal := h.total
  by_cases hr : w.slots.totalWeight ≤ r
  · rw [linearScan_none.mpr (by rwa [← htotal])]
    simp only [WeightIndex.prefixSearch, opsPrefixSearch, hr, or_true, if_true]
    rfl
  · have hsum : r < prefixSum (atPosition leaves) FENWICK_CAPACITY := by
      rw [prefixSum_atPosition]
      exact (Nat.not_le.mp hr).trans_eq htotal
    obtain ⟨slot, hfind, hslot, hbelow, habove⟩ := fenwickFind_spec (Slots.Inv.tree h) hsum
    rw [prefixSum_atPosition] at hbelow habove
    rw [linearScan_some.mpr ⟨hslot, hbelow, habove⟩]
    have hpos : ¬(w.slots.totalWeight = 0 ∨ w.slots.totalWeight ≤ r) := by omega
    have hnarrow : slot % 2 ^ 32 = slot := Nat.mod_eq_of_lt (hslot.trans capacity_lt)
    simp only [WeightIndex.prefixSearch, opsPrefixSearch, if_neg hpos, hfind, ok_bind, hnarrow]
    rfl

theorem WeightIndex.Inv.searchesLinearly (h : w.Inv leaves) : w.SearchesLinearly leaves where
  leaf := fun _ hslot => Slots.Inv.leaf h capacity_lt hslot
  scan := h.prefixSearch
  found := by
    intro r hr
    rw [h.total] at hr
    cases hscan : linearScan leaves FENWICK_CAPACITY r with
    | none => exact absurd (linearScan_none.mp hscan) (Nat.not_le.mpr hr)
    | some slot =>
      have hfalls := linearScan_some.mp hscan
      refine ⟨slot, ?_, hfalls, fun other hother => hother.unique hfalls⟩
      rw [h.prefixSearch, hscan]
  none := by
    intro r
    rw [h.prefixSearch, h.total, ← linearScan_none, Except.ok.injEq]
  positive := by
    intro r slot hsearch
    rw [h.prefixSearch, Except.ok.injEq, linearScan_some] at hsearch
    obtain ⟨-, hbelow, habove⟩ := hsearch
    rw [weightBelow, Finset.sum_range_succ] at habove
    unfold weightBelow at hbelow
    omega
  share := by
    intro slot hslot
    -- The weights that search to the slot are its own range of the running sum.
    have hrange : {r | r < w.slots.totalWeight ∧ w.prefixSearch r = .ok (some slot)}
        = Finset.Ico (weightBelow leaves slot) (weightBelow leaves (slot + 1)) := by
      ext r
      rw [Finset.coe_Ico, Set.mem_Ico, Set.mem_ofPred_eq, h.prefixSearch, Except.ok.injEq,
        linearScan_some, h.total]
      have hmono := weightBelow_mono leaves (show slot + 1 ≤ FENWICK_CAPACITY from hslot)
      constructor
      · exact fun hr => hr.2.2
      · exact fun hr => ⟨hr.2.trans_le hmono, hslot, hr⟩
    rw [hrange, Set.ncard_coe_finset, Nat.card_Ico, weightBelow, weightBelow,
      Finset.sum_range_succ, Nat.add_sub_cancel_left]

/-- Whatever calls were made from the blank index, a search scans the leaves they left. -/
theorem prefixSearch_linear (pool : Pubkey) (calls : List IndexCall) :
    (IndexCall.runAll pool calls).1.SearchesLinearly (IndexCall.runAll pool calls).2 :=
  (runAll_inv pool calls).searchesLinearly

end ByeMachine
