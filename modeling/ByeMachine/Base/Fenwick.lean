import Mathlib.NumberTheory.Padics.PadicVal.Basic
import Mathlib.Algebra.BigOperators.Intervals

/-!
# Fenwick trees

A Fenwick tree over leaves `1, 2, …, n` keeps, at node `i`, the sum of the
leaves in the half-open range `(i - span i, i]`, where `span i` is the largest
power of two dividing `i`. This module is the arithmetic behind it: which nodes
cover a leaf, how the climb `i ↦ i + span i` visits exactly those, and how a
prefix sum splits along the descent `i ↦ i - span i`.
-/

open Finset

namespace Fenwick

/-- The largest power of two dividing `i`: the number of leaves under node `i`. -/
def span (i : ℕ) : ℕ := 2 ^ padicValNat 2 i

/-- Node `i` counts leaf `j`. -/
def Covers (i j : ℕ) : Prop := i - span i < j ∧ j ≤ i

instance (i j : ℕ) : Decidable (Covers i j) := inferInstanceAs (Decidable (_ ∧ _))

/-- The nodes `1, …, n` hold the range sums of the leaves `f`. -/
def IsTree (n : ℕ) (t f : ℕ → ℕ) : Prop :=
  ∀ i, 0 < i → i ≤ n → t i = ∑ j ∈ Ioc (i - span i) i, f j

def prefixSum (f : ℕ → ℕ) (i : ℕ) : ℕ := ∑ j ∈ Ioc 0 i, f j

-- ---------------------------------------------------------------------------
-- Spans
-- ---------------------------------------------------------------------------

theorem span_eq (k m : ℕ) : span (2 ^ k * (2 * m + 1)) = 2 ^ k := by
  have hodd : padicValNat 2 (2 * m + 1) = 0 := padicValNat.eq_zero_of_not_dvd (by omega)
  rw [span, padicValNat.mul (by positivity) (by omega), padicValNat.prime_pow, hodd, add_zero]

theorem exists_span {i : ℕ} (hi : 0 < i) : ∃ k m, i = 2 ^ k * (2 * m + 1) := by
  obtain ⟨k, m, ⟨a, rfl⟩, hm⟩ := Nat.exists_eq_two_pow_mul_odd (n := i) (by omega)
  exact ⟨k, a, hm⟩

theorem span_pos (i : ℕ) : 0 < span i := Nat.two_pow_pos _

theorem span_le {i : ℕ} (hi : 0 < i) : span i ≤ i := by
  obtain ⟨k, m, rfl⟩ := exists_span hi
  rw [span_eq]
  exact Nat.le_mul_of_pos_right _ (by omega)

theorem span_add {i r : ℕ} (hi : 0 < i) (hr : 0 < r) (hlt : r < span i) :
    span (i + r) = span r := by
  obtain ⟨k, m, rfl⟩ := exists_span hi
  obtain ⟨l, q, rfl⟩ := exists_span hr
  rw [span_eq] at hlt
  have hlk : l < k := by
    by_contra hkl
    have hpow : 2 ^ k ≤ 2 ^ l := Nat.pow_le_pow_right (by omega) (by omega)
    nlinarith
  obtain ⟨d, rfl⟩ : ∃ d, k = l + (d + 1) := ⟨k - l - 1, by omega⟩
  have hsum : 2 ^ (l + (d + 1)) * (2 * m + 1) + 2 ^ l * (2 * q + 1)
      = 2 ^ l * (2 * (2 ^ d * (2 * m + 1) + q) + 1) := by ring
  rw [hsum, span_eq, span_eq]

theorem two_span_le_span_next {i : ℕ} (hi : 0 < i) : 2 * span i ≤ span (i + span i) := by
  obtain ⟨k, m, rfl⟩ := exists_span hi
  rw [span_eq]
  obtain ⟨l, q, hq⟩ := exists_span (i := m + 1) (by omega)
  have hsum : 2 ^ k * (2 * m + 1) + 2 ^ k = 2 ^ (k + 1 + l) * (2 * q + 1) := by
    calc 2 ^ k * (2 * m + 1) + 2 ^ k = 2 ^ (k + 1) * (m + 1) := by ring
      _ = 2 ^ (k + 1 + l) * (2 * q + 1) := by rw [hq]; ring
  rw [hsum, span_eq]
  calc 2 * 2 ^ k = 2 ^ (k + 1) := by ring
    _ ≤ 2 ^ (k + 1 + l) := Nat.pow_le_pow_right (by omega) (by omega)

-- ---------------------------------------------------------------------------
-- The climb visits the covering nodes
-- ---------------------------------------------------------------------------

theorem covers_self {i : ℕ} (hi : 0 < i) : Covers i i :=
  ⟨Nat.sub_lt hi (span_pos i), le_rfl⟩

theorem Covers.pos {i j : ℕ} (h : Covers i j) : 0 < i := by
  have hj := h.1
  have hi := h.2
  omega

theorem Covers.next {i j : ℕ} (h : Covers i j) : Covers (i + span i) j := by
  have hspan := two_span_le_span_next h.pos
  obtain ⟨hlo, hhi⟩ := h
  exact ⟨by omega, by omega⟩

/-- No node strictly between one covering node and the next covers the leaf. -/
theorem Covers.not_between {i j k : ℕ} (h : Covers i j) (hik : i < k) (hki : k < i + span i) :
    ¬Covers k j := by
  rintro ⟨hlo, -⟩
  obtain ⟨r, rfl⟩ : ∃ r, k = i + r := ⟨k - i, by omega⟩
  have hspan := span_add h.pos (by omega) (by omega : r < span i)
  have hle := span_le (i := r) (by omega)
  have hhi := h.2
  omega

/-- Above one covering node, the nodes covering a leaf are that node and those from the next on. -/
theorem Covers.iff_next {i j k : ℕ} (h : Covers i j) :
    (i ≤ k ∧ Covers k j) ↔ k = i ∨ (i + span i ≤ k ∧ Covers k j) := by
  constructor
  · rintro ⟨hik, hk⟩
    by_contra hno
    push Not at hno
    exact h.not_between (by omega) (by by_contra hge; exact hno.2 (by omega) hk) hk
  · rintro (rfl | ⟨hk, hc⟩)
    · exact ⟨le_rfl, h⟩
    · exact ⟨by have := span_pos i; omega, hc⟩

-- ---------------------------------------------------------------------------
-- Sums
-- ---------------------------------------------------------------------------

@[simp] theorem prefixSum_zero (f : ℕ → ℕ) : prefixSum f 0 = 0 := by simp [prefixSum]

theorem prefixSum_succ (f : ℕ → ℕ) (i : ℕ) : prefixSum f (i + 1) = prefixSum f i + f (i + 1) :=
  Finset.sum_Ioc_succ_top (Nat.zero_le i) f

theorem prefixSum_mono (f : ℕ → ℕ) {i j : ℕ} (h : i ≤ j) : prefixSum f i ≤ prefixSum f j :=
  Finset.sum_le_sum_of_subset (Finset.Ioc_subset_Ioc_right h)

theorem IsTree.prefixSum_node {n : ℕ} {t f : ℕ → ℕ} (h : IsTree n t f) {i : ℕ} (hi : 0 < i)
    (hn : i ≤ n) : prefixSum f i = prefixSum f (i - span i) + t i := by
  rw [h i hi hn, prefixSum, prefixSum]
  exact (Finset.sum_Ioc_consecutive f (Nat.zero_le _) (Nat.sub_le _ _)).symm

/-- Half a step past a boundary of two steps, a node holds exactly that half step. -/
theorem IsTree.prefixSum_step {n : ℕ} {t f : ℕ → ℕ} (h : IsTree n t f) {a k : ℕ}
    (hn : 2 ^ (k + 1) * a + 2 ^ k ≤ n) :
    prefixSum f (2 ^ (k + 1) * a + 2 ^ k)
      = prefixSum f (2 ^ (k + 1) * a) + t (2 ^ (k + 1) * a + 2 ^ k) := by
  have hodd : 2 ^ (k + 1) * a + 2 ^ k = 2 ^ k * (2 * a + 1) := by ring
  have hspan : span (2 ^ (k + 1) * a + 2 ^ k) = 2 ^ k := by rw [hodd, span_eq]
  have hpos := Nat.two_pow_pos k
  have hsplit := h.prefixSum_node (i := 2 ^ (k + 1) * a + 2 ^ k) (by omega) hn
  rwa [hspan, Nat.add_sub_cancel] at hsplit

theorem IsTree.node_le_prefixSum {n : ℕ} {t f : ℕ → ℕ} (h : IsTree n t f) {i : ℕ}
    (hi : 0 < i) (hn : i ≤ n) : t i ≤ prefixSum f n := by
  have hsplit := h.prefixSum_node hi hn
  have hmono := prefixSum_mono f hn
  omega

theorem IsTree.leaf_le_node {n : ℕ} {t f : ℕ → ℕ} (h : IsTree n t f) {i j : ℕ}
    (hc : Covers i j) (hn : i ≤ n) : f j ≤ t i := by
  rw [h i hc.pos hn]
  exact Finset.single_le_sum (f := f) (fun _ _ => Nat.zero_le _) (Finset.mem_Ioc.mpr hc)

theorem sum_update {f : ℕ → ℕ} {i j v : ℕ} :
    (∑ x ∈ Ioc (i - span i) i, Function.update f j v x) + (if Covers i j then f j else 0)
      = (∑ x ∈ Ioc (i - span i) i, f x) + (if Covers i j then v else 0) := by
  by_cases hc : Covers i j
  · have hmem : j ∈ Ioc (i - span i) i := Finset.mem_Ioc.mpr hc
    rw [if_pos hc, if_pos hc, Finset.sum_update_of_mem hmem,
      ← Finset.sum_sdiff (Finset.singleton_subset_iff.mpr hmem) (f := f), Finset.sum_singleton]
    omega
  · have hmem : j ∉ Ioc (i - span i) i := fun h => hc (Finset.mem_Ioc.mp h)
    rw [if_neg hc, if_neg hc, Finset.sum_update_of_notMem hmem]

theorem IsTree.raise {n : ℕ} {t t' f : ℕ → ℕ} (h : IsTree n t f) {j d : ℕ}
    (ht : ∀ i, 0 < i → i ≤ n → t' i = t i + if Covers i j then d else 0) :
    IsTree n t' (Function.update f j (f j + d)) := by
  intro i hi hn
  have hsum := sum_update (f := f) (i := i) (j := j) (v := f j + d)
  rw [ht i hi hn, h i hi hn]
  by_cases hc : Covers i j
  · simp only [if_pos hc] at hsum ⊢
    omega
  · simp only [if_neg hc] at hsum ⊢
    omega

theorem IsTree.lower {n : ℕ} {t t' f : ℕ → ℕ} (h : IsTree n t f) {j d : ℕ} (hd : d ≤ f j)
    (ht : ∀ i, 0 < i → i ≤ n → t i = t' i + if Covers i j then d else 0) :
    IsTree n t' (Function.update f j (f j - d)) := by
  intro i hi hn
  have hsum := sum_update (f := f) (i := i) (j := j) (v := f j - d)
  have htree := ht i hi hn
  rw [h i hi hn] at htree
  by_cases hc : Covers i j
  · simp only [if_pos hc] at hsum htree
    omega
  · simp only [if_neg hc] at hsum htree
    omega

end Fenwick
