import ByeMachine.Base.Fenwick
import ByeMachine.State.WeightIndex

/-!
# The weight index keeps its invariant

The tree is a Fenwick tree over a plain array of leaves, the free stack lists
the empty slots below the high-water mark, and the total is the sum of the
leaves. Every operation that succeeds keeps this, and none aborts.
-/

namespace ByeMachine

open Fallible Fenwick

variable {n : ℕ}

-- ---------------------------------------------------------------------------
-- Indexing
-- ---------------------------------------------------------------------------

theorem index_of_lt {α : Type} {xs : Fin n → α} {i : ℕ} (h : i < n) :
    index xs i = .ok (xs ⟨i, h⟩) := dif_pos h

theorem index_ok {α : Type} {xs : Fin n → α} {i : ℕ} {x : α} :
    index xs i = .ok x ↔ ∃ h : i < n, xs ⟨i, h⟩ = x := by
  unfold index
  split <;> simp_all

theorem setIndex_of_lt {α : Type} {xs : Fin n → α} {i : ℕ} {x : α} (h : i < n) :
    setIndex xs i x = .ok (Function.update xs ⟨i, h⟩ x) := dif_pos h

theorem subOne_succ (i : ℕ) : subOne (i + 1) = .ok i := by
  simp [subOne, Checked.sub]

theorem subOne_of_pos {i : ℕ} (hi : 0 < i) : subOne i = .ok (i - 1) := by
  obtain ⟨k, rfl⟩ : ∃ k, i = k + 1 := ⟨i - 1, by omega⟩
  exact subOne_succ k

theorem lowbit_eq_span {i : ℕ} (hi : 0 < i) (h64 : i < 2 ^ 64) : lowbit i = span i := by
  obtain ⟨k, m, rfl⟩ := exists_span hi
  rw [span_eq]
  have hval : 2 ^ k * (2 * m + 1) = 2 ^ (k + 1) * m + 2 ^ k := by ring
  have hk : k < 64 := (Nat.pow_lt_pow_iff_right (by omega : 1 < 2)).mp (by rw [hval] at h64; omega)
  have hpos := Nat.two_pow_pos k
  have hlt : 2 ^ k < 2 ^ (k + 1) := Nat.pow_lt_pow_right (by omega) (by omega)
  have hpred : 2 ^ 64 - 2 ^ k * (2 * m + 1) = 2 ^ 64 - (2 ^ (k + 1) * m + (2 ^ k - 1) + 1) := by
    omega
  rw [lowbit, Nat.mod_eq_of_lt (by omega), hpred, hval]
  apply Nat.eq_of_testBit_eq
  intro j
  rw [Nat.testBit_and, Nat.testBit_two_pow_sub_succ (by omega),
    Nat.testBit_two_pow_mul_add _ hlt, Nat.testBit_two_pow_mul_add _ (by omega),
    Nat.testBit_two_pow_sub_one, Nat.testBit_two_pow]
  by_cases hj : j < k + 1
  · simp only [if_pos hj]
    by_cases hjk : k = j
    · subst hjk; simp [hk]
    · simp [hjk]
  · -- Above the low bit the number and its negation have opposite bits.
    have hne : k ≠ j := by omega
    simp +contextual [hj, hne]

-- ---------------------------------------------------------------------------
-- The tree's loops
-- ---------------------------------------------------------------------------

/-- Node `i` of a tree, counted from one. -/
def node (tree : Fin n → ℕ) (i : ℕ) : ℕ := if h : i - 1 < n then tree ⟨i - 1, h⟩ else 0

theorem index_node {tree : Fin n → ℕ} {i : ℕ} (hi : 0 < i) (hn : i ≤ n) :
    index tree (i - 1) = .ok (node tree i) := by
  have h : i - 1 < n := by omega
  rw [index_of_lt h, node, dif_pos h]

theorem node_update {tree : Fin n → ℕ} {i k : ℕ} {v : ℕ} (hi : 0 < i) (hn : i ≤ n)
    (hk : 0 < k) :
    node (Function.update tree ⟨i - 1, by omega⟩ v) k = if k = i then v else node tree k := by
  unfold node
  by_cases hki : k = i
  · subst hki
    have h : k - 1 < n := by omega
    simp [h]
  · by_cases h : k - 1 < n
    · have hne : (⟨k - 1, h⟩ : Fin n) ≠ ⟨i - 1, by omega⟩ := by
        simp only [ne_eq, Fin.mk.injEq]; omega
      simp [h, hki, Function.update_of_ne hne]
    · simp [h, hki]

/-- The climb from a node rewrites exactly the nodes above it that cover the leaf. -/
theorem fenwickClimb_spec (write : ℕ → Result ℕ) (g : ℕ → ℕ) {j : ℕ}
    (hn64 : n < 2 ^ 64) {fuel : ℕ} (tree : Fin n → ℕ) {i : ℕ} (hc : Covers i j)
    (hfuel : 0 < fuel) (hbound : n + 1 < i + fuel)
    (hwrite : ∀ k, i ≤ k → k ≤ n → Covers k j → write (node tree k) = .ok (g (node tree k))) :
    ∃ tree', fenwickClimb write fuel tree i = .ok tree' ∧
      ∀ k, 0 < k → k ≤ n →
        node tree' k = if i ≤ k ∧ Covers k j then g (node tree k) else node tree k := by
  induction fuel generalizing tree i with
  | zero => omega
  | succ fuel ih =>
    by_cases hin : i ≤ n
    · have hi := hc.pos
      have hspan := span_pos i
      have hlow : lowbit i = span i := lowbit_eq_span hi (by omega)
      have hset : setIndex tree (i - 1) (g (node tree i))
          = .ok (Function.update tree ⟨i - 1, by omega⟩ (g (node tree i))) :=
        setIndex_of_lt (by omega)
      obtain ⟨tree', hrun, hnodes⟩ := ih
        (Function.update tree ⟨i - 1, by omega⟩ (g (node tree i))) hc.next
        (by omega) (by omega) (fun k hk hkn hck => by
          rw [node_update hi hin hck.pos, if_neg (by omega)]
          exact hwrite k (by omega) hkn hck)
      refine ⟨tree', ?_, ?_⟩
      · rw [fenwickClimb, if_pos hin, subOne_of_pos hi, ok_bind, index_node hi hin, ok_bind,
          hwrite i le_rfl hin hc, ok_bind, hset, ok_bind, hlow, hrun]
      · intro k hk hkn
        rw [hnodes k hk hkn, node_update hi hin hk]
        have hiff := hc.iff_next (k := k)
        by_cases hki : k = i
        · subst hki
          simp [hc, show ¬(k + span k ≤ k) by omega]
        · simp only [hki, false_or] at hiff
          simp only [hiff, if_neg hki]
    · refine ⟨tree, by rw [fenwickClimb, if_neg hin], ?_⟩
      intro k _ hkn
      rw [if_neg (by omega)]

theorem fenwickAdd_spec (tree : Fin n → ℕ) {i : ℕ} (delta : ℕ) (hn64 : n < 2 ^ 64)
    (hi : 0 < i)
    (hfits : ∀ k, k ≤ n → Covers k i → node tree k + delta < 2 ^ 64) :
    ∃ tree', fenwickAdd tree i delta = .ok tree' ∧
      ∀ k, 0 < k → k ≤ n → node tree' k = node tree k + if Covers k i then delta else 0 := by
  obtain ⟨tree', hrun, hnodes⟩ := fenwickClimb_spec
    (fun node => okOr (Checked.add 64 node delta) (.panic "fenwick node exceeds u64 range"))
    (fun v => v + delta) hn64 tree (covers_self hi) n.succ_pos (by omega)
    (fun k _ hkn hck => by rw [Checked.add_of_lt (hfits k hkn hck), okOr_some])
  refine ⟨tree', hrun, fun k hk hkn => ?_⟩
  rw [hnodes k hk hkn]
  by_cases hck : Covers k i
  · simp [hck, hck.2]
  · simp [hck]

theorem fenwickSub_spec (tree : Fin n → ℕ) {i : ℕ} (delta : ℕ) (hn64 : n < 2 ^ 64)
    (hi : 0 < i)
    (hfits : ∀ k, k ≤ n → Covers k i → delta ≤ node tree k) :
    ∃ tree', fenwickSub tree i delta = .ok tree' ∧
      ∀ k, 0 < k → k ≤ n → node tree k = node tree' k + if Covers k i then delta else 0 := by
  obtain ⟨tree', hrun, hnodes⟩ := fenwickClimb_spec
    (fun node => okOr (Checked.sub node delta) (.panic "fenwick node underflows below zero"))
    (fun v => v - delta) hn64 tree (covers_self hi) n.succ_pos (by omega)
    (fun k _ hkn hck => by rw [Checked.sub_of_le (hfits k hkn hck), okOr_some])
  refine ⟨tree', hrun, fun k hk hkn => ?_⟩
  rw [hnodes k hk hkn]
  by_cases hck : Covers k i
  · have := hfits k hkn hck
    simp only [hck, hck.2, and_self, if_true]
    omega
  · simp [hck]

theorem fenwickPrefixLoop_spec {tree : Fin n → ℕ} {f : ℕ → ℕ} (htree : IsTree n (node tree) f)
    (hn64 : n < 2 ^ 64) {fuel i : ℕ} {sum : ℕ} (hfuel : i < fuel) (hin : i ≤ n)
    (hfits : sum + prefixSum f i < 2 ^ 64) :
    fenwickPrefixLoop fuel tree i sum = .ok (sum + prefixSum f i) := by
  induction fuel generalizing i sum with
  | zero => omega
  | succ fuel ih =>
    by_cases hi : 0 < i
    · have hspan := span_pos i
      have hsplit := htree.prefixSum_node hi hin
      have hadd : Checked.add 64 sum (node tree i) = some (sum + node tree i) :=
        Checked.add_of_lt (by omega)
      rw [fenwickPrefixLoop, if_pos hi, subOne_of_pos hi, ok_bind, index_node hi hin, ok_bind,
        hadd, okOr_some, ok_bind, lowbit_eq_span hi (by omega),
        ih (by omega) (by omega) (by omega), hsplit]
      congr 1
      omega
    · obtain rfl : i = 0 := by omega
      simp [fenwickPrefixLoop]

theorem fenwickPrefix_spec {tree : Fin n → ℕ} {f : ℕ → ℕ} (htree : IsTree n (node tree) f)
    (hn64 : n < 2 ^ 64) {i : ℕ} (hin : i ≤ n) (hfits : prefixSum f n < 2 ^ 64) :
    fenwickPrefix tree i = .ok (prefixSum f i) := by
  have hmono := prefixSum_mono f hin
  rw [fenwickPrefix, fenwickPrefixLoop_spec htree hn64 (by omega) hin (by omega), zero_add]

theorem fenwickLeaf_spec {tree : Fin n → ℕ} {f : ℕ → ℕ} (htree : IsTree n (node tree) f)
    (hn64 : n < 2 ^ 64) {i : ℕ} (hin : i < n) (hfits : prefixSum f n < 2 ^ 64) :
    fenwickLeaf tree (i + 1) = .ok (f (i + 1)) := by
  have hsucc := prefixSum_succ f i
  rw [fenwickLeaf, fenwickPrefix_spec htree hn64 (by omega) hfits, ok_bind, subOne_succ, ok_bind,
    fenwickPrefix_spec htree hn64 (by omega) hfits, ok_bind, Checked.sub_of_le (by omega), okOr_some]
  congr 1
  omega

/-- The slot sought lies in the next `width` slots from `pos`, as far as there are any. -/
structure Brackets (n : ℕ) (f : ℕ → ℕ) (target pos width : ℕ) : Prop where
  start : pos ≤ n
  below : prefixSum f pos ≤ target
  above : n < pos + width ∨ target < prefixSum f (pos + width)

theorem Brackets.found {f : ℕ → ℕ} {target pos : ℕ} (h : Brackets n f target pos 1)
    (htarget : target < prefixSum f n) :
    pos < n ∧ prefixSum f pos ≤ target ∧ target < prefixSum f (pos + 1) := by
  obtain ⟨hstart, hbelow, hpast | habove⟩ := h
  · obtain rfl : pos = n := by omega
    exact absurd htarget (Nat.not_lt.mpr hbelow)
  · refine ⟨?_, hbelow, habove⟩
    by_contra hge
    obtain rfl : pos = n := by omega
    exact absurd htarget (Nat.not_lt.mpr hbelow)

/-- Each turn of the descent halves what is bracketed. -/
theorem fenwickFindLoop_turn {tree : Fin n → ℕ} {f : ℕ → ℕ} (htree : IsTree n (node tree) f)
    {target k a r : ℕ} (fuel : ℕ) (h : Brackets n f target (2 ^ (k + 1) * a) (2 ^ (k + 1)))
    (hr : prefixSum f (2 ^ (k + 1) * a) + r = target) :
    ∃ b r', fenwickFindLoop (fuel + 1) tree (2 ^ (k + 1) * a) (2 ^ k) r
        = fenwickFindLoop fuel tree (2 ^ k * b) (2 ^ k >>> 1) r' ∧
      Brackets n f target (2 ^ k * b) (2 ^ k) ∧ prefixSum f (2 ^ k * b) + r' = target := by
  obtain ⟨hstart, hbelow, habove⟩ := h
  have hstep : 0 < 2 ^ k := Nat.two_pow_pos k
  have hwidth : 2 ^ (k + 1) = 2 ^ k + 2 ^ k := by ring
  have hstay : 2 ^ k * (2 * a) = 2 ^ (k + 1) * a := by ring
  have hmove : 2 ^ k * (2 * a + 1) = 2 ^ (k + 1) * a + 2 ^ k := by ring
  by_cases hnext : 2 ^ (k + 1) * a + 2 ^ k ≤ n
  · have hsum := htree.prefixSum_step hnext
    have hnode : index tree (2 ^ (k + 1) * a + 2 ^ k - 1)
        = .ok (node tree (2 ^ (k + 1) * a + 2 ^ k)) := index_node (by omega) hnext
    by_cases hdown : node tree (2 ^ (k + 1) * a + 2 ^ k) ≤ r
    · refine ⟨2 * a + 1, r - node tree (2 ^ (k + 1) * a + 2 ^ k), ?_, ⟨?_, ?_, ?_⟩, ?_⟩
      · rw [fenwickFindLoop, if_pos hstep]
        simp only [if_pos hnext, subOne_of_pos (show 0 < 2 ^ (k + 1) * a + 2 ^ k by omega),
          ok_bind, hnode, if_pos hdown, hmove]
      · rwa [hmove]
      · rw [hmove]
        omega
      · rwa [hmove, Nat.add_assoc, ← hwidth]
      · rw [hmove]
        omega
    · refine ⟨2 * a, r, ?_, ⟨?_, ?_, .inr ?_⟩, ?_⟩
      · rw [fenwickFindLoop, if_pos hstep]
        simp only [if_pos hnext, subOne_of_pos (show 0 < 2 ^ (k + 1) * a + 2 ^ k by omega),
          ok_bind, hnode, if_neg hdown, hstay]
      · rwa [hstay]
      · rwa [hstay]
      · rw [hstay]
        omega
      · rwa [hstay]
  · refine ⟨2 * a, r, ?_, ⟨?_, ?_, .inl ?_⟩, ?_⟩
    · rw [fenwickFindLoop, if_pos hstep]
      simp only [if_neg hnext, hstay]
    · rwa [hstay]
    · rwa [hstay]
    · rw [hstay]
      omega
    · rwa [hstay]

theorem fenwickFindLoop_spec {tree : Fin n → ℕ} {f : ℕ → ℕ} (htree : IsTree n (node tree) f)
    {target : ℕ} (htarget : target < prefixSum f n) {k fuel a r : ℕ} (hfuel : k + 2 ≤ fuel)
    (h : Brackets n f target (2 ^ (k + 1) * a) (2 ^ (k + 1)))
    (hr : prefixSum f (2 ^ (k + 1) * a) + r = target) :
    ∃ slot, fenwickFindLoop fuel tree (2 ^ (k + 1) * a) (2 ^ k) r = .ok slot ∧
      slot < n ∧ prefixSum f slot ≤ target ∧ target < prefixSum f (slot + 1) := by
  induction k generalizing fuel a r with
  | zero =>
    obtain ⟨fuel, rfl⟩ : ∃ rest, fuel = rest + 1 + 1 := ⟨fuel - 2, by omega⟩
    obtain ⟨b, r', hturn, hbrackets, -⟩ := fenwickFindLoop_turn htree (fuel + 1) h hr
    refine ⟨2 ^ 0 * b, ?_, hbrackets.found htarget⟩
    rw [hturn]
    rfl
  | succ k ih =>
    obtain ⟨fuel, rfl⟩ : ∃ rest, fuel = rest + 1 := ⟨fuel - 1, by omega⟩
    obtain ⟨b, r', hturn, hbrackets, hr'⟩ := fenwickFindLoop_turn htree fuel h hr
    have hhalf : 2 ^ (k + 1) >>> 1 = 2 ^ k := by
      rw [Nat.shiftRight_one, Nat.pow_succ, Nat.mul_div_cancel _ (by decide)]
    rw [hturn, hhalf]
    exact ih (by omega) hbrackets hr'

theorem fenwickFind_spec {tree : Fin n → ℕ} {f : ℕ → ℕ} (htree : IsTree n (node tree) f) {r : ℕ}
    (hr : r < prefixSum f n) :
    ∃ slot, fenwickFind tree r = .ok slot ∧ slot < n ∧ prefixSum f slot ≤ r ∧
      r < prefixSum f (slot + 1) := by
  have hn : n ≠ 0 := by
    rintro rfl
    simp at hr
  have hlow : 2 ^ n.log2 ≤ n := Nat.log2_self_le hn
  have hhigh : n < 2 ^ (n.log2 + 1) := Nat.lt_log2_self
  have hfuel : n.log2 + 2 ≤ n + 1 := by
    have := Nat.lt_two_pow_self (n := n.log2)
    omega
  have hbrackets : Brackets n f r (2 ^ (n.log2 + 1) * 0) (2 ^ (n.log2 + 1)) :=
    ⟨Nat.zero_le _, by simp, .inl (by omega)⟩
  have hfirst : firstStep n = 2 ^ n.log2 := by
    rw [firstStep, if_neg hn, Nat.one_shiftLeft]
  obtain ⟨slot, hrun, hslot⟩ := fenwickFindLoop_spec (r := r) htree hr hfuel hbrackets (by simp)
  refine ⟨slot, ?_, hslot⟩
  rwa [fenwickFind, hfirst]

-- ---------------------------------------------------------------------------
-- The free stack
-- ---------------------------------------------------------------------------

/-- `free_stack[0..free_count]`. -/
def Slots.free (s : Slots n) : List ℕ :=
  (List.range s.freeCount).map fun i => if h : i < n then s.freeStack ⟨i, h⟩ else 0

@[simp] theorem Slots.length_free (s : Slots n) : s.free.length = s.freeCount := by
  simp [Slots.free]

theorem Slots.free_pop {s : Slots n} {c : ℕ} (hc : s.freeCount = c + 1) (hn : c < n) :
    s.free = Slots.free { s with freeCount := c } ++ [s.freeStack ⟨c, hn⟩] := by
  simp [Slots.free, hc, List.range_succ, hn]

theorem Slots.free_push {s : Slots n} {slot : ℕ} (hn : s.freeCount < n) :
    Slots.free { s with
      freeStack := Function.update s.freeStack ⟨s.freeCount, hn⟩ slot
      freeCount := s.freeCount + 1 } = s.free ++ [slot] := by
  simp only [Slots.free, List.range_succ, List.map_append, List.map_cons, List.map_nil]
  congr 1
  · apply List.map_congr_left
    intro i hi
    have hlt : i < s.freeCount := List.mem_range.mp hi
    by_cases h : i < n
    · have hne : (⟨i, h⟩ : Fin n) ≠ ⟨s.freeCount, hn⟩ := by
        simp only [ne_eq, Fin.mk.injEq]; omega
      simp [h, Function.update_of_ne hne]
    · simp [h]
  · simp [hn]

-- ---------------------------------------------------------------------------
-- The invariant
-- ---------------------------------------------------------------------------

/-- The leaves as the tree counts them: position `slot + 1` holds slot `slot`. -/
def atPosition (leaves : ℕ → ℕ) : ℕ → ℕ
  | 0 => 0
  | slot + 1 => leaves slot

theorem atPosition_update (leaves : ℕ → ℕ) (slot v : ℕ) :
    atPosition (Function.update leaves slot v)
      = Function.update (atPosition leaves) (slot + 1) v := by
  funext j
  cases j with
  | zero => rfl
  | succ j =>
    by_cases hj : j = slot
    · subst hj; simp [atPosition]
    · simp [atPosition, Function.update_of_ne hj, Function.update_of_ne (by omega : j + 1 ≠ slot + 1)]

theorem prefixSum_atPosition (leaves : ℕ → ℕ) (k : ℕ) :
    prefixSum (atPosition leaves) k = ∑ slot ∈ Finset.range k, leaves slot := by
  induction k with
  | zero => simp
  | succ k ih => rw [prefixSum_succ, ih, Finset.sum_range_succ]; rfl

theorem sum_update_leaf (leaves : ℕ → ℕ) {slot : ℕ} (v : ℕ) (h : slot < n) :
    (∑ i ∈ Finset.range n, Function.update leaves slot v i) + leaves slot
      = (∑ i ∈ Finset.range n, leaves i) + v := by
  have hmem : slot ∈ Finset.range n := Finset.mem_range.mpr h
  rw [Finset.sum_update_of_mem hmem, ← Finset.add_sum_erase _ leaves hmem,
    Finset.sdiff_singleton_eq_erase]
  omega

theorem leaf_le_sum {leaves : ℕ → ℕ} {slot : ℕ} (h : slot < n) :
    leaves slot ≤ ∑ i ∈ Finset.range n, leaves i :=
  Finset.single_le_sum (f := leaves) (fun _ _ => Nat.zero_le _) (Finset.mem_range.mpr h)

/-- What ties the tree, the free stack and the high-water mark together, over a plain array of
leaves. -/
structure Slots.Inv (s : Slots n) (leaves : ℕ → ℕ) : Prop where
  tree : IsTree n (node s.tree) (atPosition leaves)
  total : s.totalWeight = ∑ slot ∈ Finset.range n, leaves slot
  fits : s.totalWeight < 2 ^ 64
  highWater : s.highWater ≤ n
  nodup : s.free.Nodup
  free : ∀ slot, slot ∈ s.free ↔ slot < s.highWater ∧ leaves slot = 0
  above : ∀ slot, s.highWater ≤ slot → leaves slot = 0

theorem Slots.Inv.freeCount_le {s : Slots n} {leaves : ℕ → ℕ} (h : s.Inv leaves) :
    s.freeCount ≤ s.highWater := by
  have hsub : s.free ⊆ List.range s.highWater := fun slot hslot =>
    List.mem_range.mpr ((h.free slot).mp hslot).1
  simpa using (h.nodup.subperm hsub).length_le

theorem Slots.Inv.freeCount_lt {s : Slots n} {leaves : ℕ → ℕ} (h : s.Inv leaves) {slot : ℕ}
    (hpos : 0 < leaves slot) : s.freeCount < s.highWater := by
  have hlive : slot < s.highWater := by
    by_contra hge
    exact hpos.ne' (h.above slot (by omega))
  have hnot : slot ∉ s.free := fun hmem => hpos.ne' ((h.free slot).mp hmem).2
  have hsub : slot :: s.free ⊆ List.range s.highWater := by
    intro x hx
    rcases List.mem_cons.mp hx with rfl | hx
    · exact List.mem_range.mpr hlive
    · exact List.mem_range.mpr ((h.free x).mp hx).1
  simpa using ((List.nodup_cons.mpr ⟨hnot, h.nodup⟩).subperm hsub).length_le

theorem Slots.Inv.prefixSum_lt {s : Slots n} {leaves : ℕ → ℕ} (h : s.Inv leaves) :
    prefixSum (atPosition leaves) n < 2 ^ 64 := by
  rw [prefixSum_atPosition, ← h.total]
  exact h.fits

theorem Slots.Inv.leaf {s : Slots n} {leaves : ℕ → ℕ} (h : s.Inv leaves) (hn : n < 2 ^ 32)
    {slot : ℕ} (hslot : slot < n) : fenwickLeaf s.tree (slot + 1) = .ok (leaves slot) :=
  fenwickLeaf_spec h.tree (by omega) hslot h.prefixSum_lt

theorem Slots.Inv.leaf_le_total {s : Slots n} {leaves : ℕ → ℕ} (h : s.Inv leaves) {slot : ℕ}
    (hslot : slot < n) : leaves slot ≤ s.totalWeight := by
  rw [h.total]
  exact leaf_le_sum hslot

theorem Slots.Inv.node_le_total {s : Slots n} {leaves : ℕ → ℕ} (h : s.Inv leaves) {k : ℕ}
    (hk : 0 < k) (hkn : k ≤ n) : node s.tree k ≤ s.totalWeight := by
  have := h.tree.node_le_prefixSum hk hkn
  rwa [prefixSum_atPosition, ← h.total] at this

theorem Slots.blank_inv : (⟨0, 0, 0, fun _ => 0, fun _ => 0⟩ : Slots n).Inv fun _ => 0 where
  tree := by
    intro i hi hn
    have hz : ∀ j, atPosition (fun _ => 0) j = 0 := fun j => by cases j <;> rfl
    simp [node, hz]
  total := by simp
  fits := by simp
  highWater := Nat.zero_le _
  nodup := by simp [Slots.free]
  free := by simp [Slots.free]
  above := by simp

-- ---------------------------------------------------------------------------
-- Allocation and release
-- ---------------------------------------------------------------------------

/-- The slot `slot_alloc` hands out: the most recently released one, else the high-water mark. -/
def Slots.nextSlot (s : Slots n) : ℕ := s.free.getLast?.getD s.highWater

def Slots.HasRoom (s : Slots n) : Prop := 0 < s.freeCount ∨ s.highWater < n

instance (s : Slots n) : Decidable s.HasRoom := inferInstanceAs (Decidable (_ ∨ _))

/-- The state between an allocation and the write of its leaf: `slot` is out on loan. -/
structure Slots.Lent (s s' : Slots n) (leaves : ℕ → ℕ) (slot : ℕ) : Prop where
  tree : s'.tree = s.tree
  total : s'.totalWeight = s.totalWeight
  empty : leaves slot = 0
  below : slot < s'.highWater
  highWater : s'.highWater ≤ n
  nodup : s'.free.Nodup
  free : ∀ x, x ∈ s'.free ↔ x < s'.highWater ∧ leaves x = 0 ∧ x ≠ slot
  above : ∀ x, s'.highWater ≤ x → leaves x = 0

theorem slotAlloc_spec {s : Slots n} {leaves : ℕ → ℕ} (h : s.Inv leaves) (hn : n < 2 ^ 32)
    (hroom : s.HasRoom) :
    ∃ s', slotAlloc s = .ok (s.nextSlot, s') ∧ s.Lent s' leaves s.nextSlot := by
  by_cases hfree : 0 < s.freeCount
  · obtain ⟨c, hc⟩ : ∃ c, s.freeCount = c + 1 := ⟨s.freeCount - 1, by omega⟩
    have hcn : c < n := by have := h.freeCount_le; have := h.highWater; omega
    have hpop := Slots.free_pop hc hcn
    have hnext : s.nextSlot = s.freeStack ⟨c, hcn⟩ := by simp [Slots.nextSlot, hpop]
    have hmem : s.nextSlot ∈ s.free := by rw [hpop, hnext]; simp
    obtain ⟨hlt, hzero⟩ := (h.free _).mp hmem
    have hnodup := h.nodup
    rw [hpop, List.nodup_append] at hnodup
    refine ⟨{ s with freeCount := c }, ?_, rfl, rfl, hzero, hlt, h.highWater, hnodup.1, ?_,
      h.above⟩
    · have hlt' : s.nextSlot < n := by have := h.highWater; omega
      have hleaf := h.leaf hn hlt'
      rw [hzero] at hleaf
      simp [slotAlloc, hc, index_of_lt hcn, ← hnext, hleaf, require_pos, hlt', pure, Except.pure]
    · intro x
      have hx := h.free x
      rw [hpop, List.mem_append, List.mem_singleton, ← hnext] at hx
      constructor
      · intro hin
        have := hx.mp (.inl hin)
        refine ⟨this.1, this.2, ?_⟩
        rintro rfl
        exact hnodup.2.2 _ hin _ (List.mem_singleton.mpr hnext) rfl
      · rintro ⟨hlt, hz, hne⟩
        exact (hx.mpr ⟨hlt, hz⟩).resolve_right hne
  · have hhw : s.highWater < n := hroom.resolve_left hfree
    have hnil : s.free = [] := List.length_eq_zero_iff.mp (by simp; omega)
    have hnext : s.nextSlot = s.highWater := by simp [Slots.nextSlot, hnil]
    have hzero : leaves s.nextSlot = 0 := h.above _ (by omega)
    have hfree' : Slots.free { s with highWater := s.highWater + 1 } = [] := hnil
    refine ⟨{ s with highWater := s.highWater + 1 }, ?_, rfl, rfl, hzero, ?_, hhw, ?_, ?_, ?_⟩
    · have hleaf := h.leaf hn hhw
      have hadd : Checked.add 32 s.highWater 1 = some (s.highWater + 1) :=
        Checked.add_of_lt (by omega)
      rw [hnext] at hzero
      rw [hzero] at hleaf
      simp [slotAlloc, hfree, hnext, hleaf, require_pos, hhw, hadd, pure, Except.pure]
    · rw [hnext]; exact Nat.lt_succ_self _
    · rw [hfree']; exact List.nodup_nil
    · intro x
      rw [hfree', hnext]
      simp only [List.not_mem_nil, false_iff]
      rintro ⟨hlt, hz, hne⟩
      have hmem := (h.free x).mpr ⟨by omega, hz⟩
      rw [hnil] at hmem
      exact absurd hmem List.not_mem_nil
    · intro x hx
      exact h.above x (Nat.le_of_succ_le hx)

theorem slotAlloc_full {s : Slots n} (hroom : ¬s.HasRoom) :
    slotAlloc s = .error (.program .weightIndexFull) := by
  simp only [Slots.HasRoom, not_or] at hroom
  simp [slotAlloc, hroom.1, require_neg hroom.2]

theorem slotRelease_spec {s : Slots n} (slot : ℕ) (hn : n < 2 ^ 32) (hroom : s.freeCount < n) :
    ∃ s', slotRelease s slot = .ok s' ∧ s'.free = s.free ++ [slot] ∧ s'.tree = s.tree ∧
      s'.totalWeight = s.totalWeight ∧ s'.highWater = s.highWater := by
  refine ⟨_, ?_, Slots.free_push hroom, rfl, rfl, rfl⟩
  simp [slotRelease, require_pos hroom, setIndex_of_lt hroom,
    Checked.add_of_lt (show s.freeCount + 1 < 2 ^ 32 by omega), pure, Except.pure]

-- ---------------------------------------------------------------------------
-- The three operations
-- ---------------------------------------------------------------------------

theorem Slots.Inv.cover_le {s : Slots n} {leaves : ℕ → ℕ} (h : s.Inv leaves) {slot : ℕ}
    {k : ℕ} (hk : k ≤ n) (hc : Covers k (slot + 1)) : leaves slot ≤ node s.tree k :=
  h.tree.leaf_le_node hc hk

theorem raise_leaf {s : Slots n} {leaves : ℕ → ℕ} (h : s.Inv leaves) (hn : n < 2 ^ 32)
    {slot delta : ℕ} (hslot : slot < n) (hfits : s.totalWeight + delta < 2 ^ 64) :
    ∃ tree', fenwickAdd s.tree (slot + 1) delta = .ok tree' ∧
      IsTree n (node tree') (atPosition (Function.update leaves slot (leaves slot + delta))) ∧
      s.totalWeight + delta
        = ∑ i ∈ Finset.range n, Function.update leaves slot (leaves slot + delta) i := by
  obtain ⟨tree', hrun, hnodes⟩ := fenwickAdd_spec s.tree (i := slot + 1) delta (by omega) (by omega)
    (fun k hk hc => by have := h.node_le_total hc.pos hk; omega)
  refine ⟨tree', hrun, ?_, ?_⟩
  · rw [atPosition_update]
    exact h.tree.raise hnodes
  · have := sum_update_leaf leaves (leaves slot + delta) hslot
    rw [h.total]
    omega

theorem lower_leaf {s : Slots n} {leaves : ℕ → ℕ} (h : s.Inv leaves) (hn : n < 2 ^ 32)
    {slot delta : ℕ} (hslot : slot < n) (hle : delta ≤ leaves slot) :
    ∃ tree', fenwickSub s.tree (slot + 1) delta = .ok tree' ∧
      IsTree n (node tree') (atPosition (Function.update leaves slot (leaves slot - delta))) ∧
      s.totalWeight - delta
        = ∑ i ∈ Finset.range n, Function.update leaves slot (leaves slot - delta) i := by
  obtain ⟨tree', hrun, hnodes⟩ := fenwickSub_spec s.tree (i := slot + 1) delta (by omega) (by omega)
    (fun k hk hc => by have := h.cover_le hk hc; omega)
  refine ⟨tree', hrun, ?_, ?_⟩
  · rw [atPosition_update]
    exact h.tree.lower hle hnodes
  · have := sum_update_leaf leaves (leaves slot - delta) hslot
    rw [h.total]
    omega

/-- When an insertion lands: a slot is left, the sum fits and is the one expected. -/
def Slots.InsertOk (s : Slots n) (weight expectedTotal : ℕ) : Prop :=
  s.HasRoom ∧ s.totalWeight + weight < 2 ^ 64 ∧ s.totalWeight + weight = expectedTotal

theorem opsInsert_spec {s : Slots n} {leaves : ℕ → ℕ} (h : s.Inv leaves) (hn : n < 2 ^ 32)
    {weight expectedTotal : ℕ} (hw : 0 < weight) (hok : s.InsertOk weight expectedTotal) :
    ∃ s', opsInsert s weight expectedTotal = .ok (s.nextSlot, s') ∧
      s'.Inv (Function.update leaves s.nextSlot weight) ∧ leaves s.nextSlot = 0 ∧
      s.nextSlot < n ∧ s'.totalWeight = expectedTotal := by
  obtain ⟨hroom, hfits, hexp⟩ := hok
  obtain ⟨s', halloc, hlent⟩ := slotAlloc_spec h hn hroom
  have hslot : s.nextSlot < n := by have := hlent.below; have := hlent.highWater; omega
  obtain ⟨tree', hadd, htree, htotal⟩ := raise_leaf h hn hslot hfits
  simp only [hlent.empty, Nat.zero_add] at htree htotal
  refine ⟨{ s' with totalWeight := s.totalWeight + weight, tree := tree' }, ?_, ?_, hlent.empty,
    hslot, hexp⟩
  · simp [opsInsert, halloc, hlent.tree, hlent.total, Checked.add_of_lt hfits, hadd,
      require_pos hexp, pure, Except.pure]
  · constructor
    · exact htree
    · exact htotal
    · exact hfits
    · exact hlent.highWater
    · exact hlent.nodup
    · intro x
      have hx := hlent.free x
      by_cases hxs : x = s.nextSlot
      · subst hxs
        simp only [ne_eq, not_true_eq_false, and_false, iff_false] at hx
        simp only [Function.update_self]
        exact ⟨fun hin => absurd hin hx, fun hin => absurd hin.2 (by omega)⟩
      · rw [Function.update_of_ne hxs]
        have hx' : x ∈ s'.free ↔ x < s'.highWater ∧ leaves x = 0 := by simpa [hxs] using hx
        exact hx'
    · intro x hx
      have hne : x ≠ s.nextSlot := by have := hlent.below; rintro rfl; exact absurd hx (by simpa)
      rw [Function.update_of_ne hne]
      exact hlent.above x hx

theorem opsInsert_fails {s : Slots n} {leaves : ℕ → ℕ} (h : s.Inv leaves) (hn : n < 2 ^ 32)
    {weight expectedTotal : ℕ} (hok : ¬s.InsertOk weight expectedTotal) :
    ∃ e, opsInsert s weight expectedTotal = .error (.program e) := by
  by_cases hroom : s.HasRoom
  · obtain ⟨s', halloc, hlent⟩ := slotAlloc_spec h hn hroom
    have hslot : s.nextSlot < n := by have := hlent.below; have := hlent.highWater; omega
    by_cases hfits : s.totalWeight + weight < 2 ^ 64
    · obtain ⟨tree', hadd, -, -⟩ := raise_leaf h hn hslot hfits
      have hexp : s.totalWeight + weight ≠ expectedTotal := fun he => hok ⟨hroom, hfits, he⟩
      exact ⟨.weightDesync, by
        simp [opsInsert, halloc, hlent.tree, hlent.total, Checked.add_of_lt hfits, hadd,
          require_neg hexp]⟩
    · exact ⟨.weightDesync, by simp [opsInsert, halloc, hlent.total, Checked.add_of_not_lt hfits]⟩
  · exact ⟨.weightIndexFull, by simp [opsInsert, slotAlloc_full hroom]⟩

theorem slotAlloc_ok {s s' : Slots n} {slot : ℕ} (h : slotAlloc s = .ok (slot, s')) :
    (∃ c, s.freeCount = c + 1 ∧ c < n ∧ s' = { s with freeCount := c }) ∨
      (s.freeCount = 0 ∧ s' = { s with highWater := s.highWater + 1 }) := by
  unfold slotAlloc at h
  cases hcount : s.freeCount with
  | zero =>
    simp only [hcount, Nat.lt_irrefl, if_false, bind_ok, pure_ok, okOr_ok, Checked.add_some,
      Prod.mk.injEq, Prod.exists] at h
    obtain ⟨_, -, _, ⟨-, rfl⟩, _, _, ⟨-, rfl⟩, _, -, _, -, _, -, -, rfl⟩ := h
    exact .inr ⟨rfl, rfl⟩
  | succ c =>
    simp only [hcount, Nat.succ_pos, if_true, bind_ok, pure_ok, Prod.mk.injEq, Prod.exists] at h
    obtain ⟨_, hindex, _, _, ⟨-, rfl⟩, _, -, _, -, _, -, -, rfl⟩ := h
    exact .inl ⟨c, rfl, (index_ok.mp hindex).1, rfl⟩

theorem opsInsert_takes {s s' : Slots n} {slot weight expectedTotal : ℕ}
    (h : opsInsert s weight expectedTotal = .ok (slot, s')) :
    s'.free = s.free.dropLast ∧
      s'.highWater = if s.free = [] then s.highWater + 1 else s.highWater := by
  simp only [opsInsert, bind_ok, pure_ok, Prod.mk.injEq, Prod.exists] at h
  obtain ⟨_, s₁, halloc, _, -, _, -, -, -, -, rfl⟩ := h
  obtain ⟨c, hc, hcn, rfl⟩ | ⟨hnone, rfl⟩ := slotAlloc_ok halloc
  · have hpop := Slots.free_pop hc hcn
    refine ⟨?_, ?_⟩
    · rw [hpop, List.dropLast_concat]
      rfl
    · rw [if_neg (by rw [hpop]; simp)]
  · have hnil : s.free = [] := List.length_eq_zero_iff.mp (by rw [Slots.length_free, hnone])
    refine ⟨?_, by rw [if_pos hnil]⟩
    rw [hnil]
    exact hnil

def liveSlots (n : ℕ) (leaves : ℕ → ℕ) : Finset ℕ := {slot ∈ Finset.range n | leaves slot ≠ 0}

/-- Every slot below the high-water mark is free or live. -/
theorem Slots.Inv.card_live {s : Slots n} {leaves : ℕ → ℕ} (h : s.Inv leaves) :
    (liveSlots n leaves).card + s.freeCount = s.highWater := by
  have hfree : s.free.toFinset = {slot ∈ Finset.range s.highWater | leaves slot = 0} := by
    ext slot
    rw [List.mem_toFinset, h.free, Finset.mem_filter, Finset.mem_range]
  have hlive : liveSlots n leaves = {slot ∈ Finset.range s.highWater | ¬leaves slot = 0} := by
    ext slot
    simp only [liveSlots, Finset.mem_filter, Finset.mem_range, ne_eq]
    constructor
    · rintro ⟨-, hne⟩
      refine ⟨?_, hne⟩
      by_contra hge
      exact hne (h.above slot (Nat.not_lt.mp hge))
    · rintro ⟨hlt, hne⟩
      exact ⟨hlt.trans_le h.highWater, hne⟩
  have hcount : s.free.toFinset.card = s.freeCount := by
    rw [List.toFinset_card_of_nodup h.nodup, Slots.length_free]
  rw [hlive, ← hcount, hfree, Nat.add_comm, Finset.card_filter_add_card_filter_not,
    Finset.card_range]

theorem Slots.Inv.hasRoom_iff {s : Slots n} {leaves : ℕ → ℕ} (h : s.Inv leaves) :
    s.HasRoom ↔ (liveSlots n leaves).card < n := by
  have hcount := h.card_live
  have hmark := h.highWater
  unfold Slots.HasRoom
  omega

/-- When a removal lands: the slot holds the weight named and the rest is the sum expected. -/
def Slots.RemoveOk (s : Slots n) (leaves : ℕ → ℕ) (slot weight expectedTotal : ℕ) : Prop :=
  slot < n ∧ leaves slot = weight ∧ s.totalWeight - weight = expectedTotal

theorem opsRemove_spec {s : Slots n} {leaves : ℕ → ℕ} (h : s.Inv leaves) (hn : n < 2 ^ 32)
    {slot weight expectedTotal : ℕ} (hw : 0 < weight)
    (hok : s.RemoveOk leaves slot weight expectedTotal) :
    ∃ s', opsRemove s slot weight expectedTotal = .ok s' ∧
      s'.Inv (Function.update leaves slot 0) ∧ s'.totalWeight = expectedTotal ∧
      s'.free = s.free ++ [slot] ∧ s'.highWater = s.highWater := by
  obtain ⟨hslot, rfl, rfl⟩ := hok
  have hle := h.leaf_le_total hslot
  have hroom : s.freeCount < n := by have := h.freeCount_lt hw; have := h.highWater; omega
  obtain ⟨tree', hsub, htree, htotal⟩ := lower_leaf h hn hslot le_rfl
  simp only [Nat.sub_self] at htree htotal
  obtain ⟨s', hrelease, hfree, htr, htot, hhw⟩ := slotRelease_spec slot hn
    (s := { s with totalWeight := s.totalWeight - leaves slot, tree := tree' }) hroom
  refine ⟨s', ?_, ?_, htot, hfree, hhw⟩
  · simp [opsRemove, require_pos hslot, h.leaf hn hslot, require_pos,
      Checked.sub_of_le hle, hsub, hrelease, pure, Except.pure]
  · have hnot : slot ∉ s.free := fun hmem => hw.ne' ((h.free slot).mp hmem).2
    have hlive : slot < s.highWater := by
      by_contra hge
      exact hw.ne' (h.above slot (by omega))
    replace hfree : s'.free = s.free ++ [slot] := hfree
    constructor
    · rw [htr]; exact htree
    · rw [htot]; exact htotal
    · rw [htot]; have := h.fits; simp only; omega
    · rw [hhw]; exact h.highWater
    · rw [hfree, List.nodup_append]
      exact ⟨h.nodup, List.nodup_singleton _, fun a ha b hb => by
        rw [List.mem_singleton.mp hb]; rintro rfl; exact hnot ha⟩
    · intro x
      rw [hfree, hhw, List.mem_append, List.mem_singleton, h.free x]
      by_cases hxs : x = slot
      · subst hxs; simp [hlive]
      · simp [hxs]
    · intro x hx
      rw [hhw] at hx
      have hne : x ≠ slot := by rintro rfl; exact absurd hx (by simpa using hlive)
      rw [Function.update_of_ne hne]
      exact h.above x hx

theorem opsRemove_fails {s : Slots n} {leaves : ℕ → ℕ} (h : s.Inv leaves) (hn : n < 2 ^ 32)
    {slot weight expectedTotal : ℕ} (hw : 0 < weight)
    (hok : ¬s.RemoveOk leaves slot weight expectedTotal) :
    opsRemove s slot weight expectedTotal = .error (.program .weightDesync) := by
  by_cases hslot : slot < n
  · by_cases hleaf : leaves slot = weight
    · subst hleaf
      have hle := h.leaf_le_total hslot
      have hroom : s.freeCount < n := by have := h.freeCount_lt hw; have := h.highWater; omega
      obtain ⟨tree', hsub, -, -⟩ := lower_leaf h hn hslot le_rfl
      obtain ⟨s', hrelease, -⟩ := slotRelease_spec slot hn
        (s := { s with totalWeight := s.totalWeight - leaves slot, tree := tree' }) hroom
      have hexp : s.totalWeight - leaves slot ≠ expectedTotal := fun he => hok ⟨hslot, rfl, he⟩
      simp [opsRemove, require_pos hslot, h.leaf hn hslot, require_pos, Checked.sub_of_le hle,
        hsub, hrelease, require_neg hexp]
    · simp [opsRemove, require_pos hslot, h.leaf hn hslot, require_neg hleaf]
  · simp [opsRemove, require_neg hslot]

/-- When an update lands: the slot holds the old weight, and the sum with the new one fits and
is the one expected. -/
def Slots.UpdateOk (s : Slots n) (leaves : ℕ → ℕ) (slot oldWeight newWeight expectedTotal : ℕ) :
    Prop :=
  slot < n ∧ leaves slot = oldWeight ∧ s.totalWeight - oldWeight + newWeight < 2 ^ 64 ∧
    s.totalWeight - oldWeight + newWeight = expectedTotal

theorem opsUpdate_eq {s : Slots n} {leaves : ℕ → ℕ} (h : s.Inv leaves) (hn : n < 2 ^ 32)
    {slot newWeight : ℕ} (expectedTotal : ℕ) (hslot : slot < n)
    (hfits : s.totalWeight - leaves slot + newWeight < 2 ^ 64) :
    ∃ tree', IsTree n (node tree') (atPosition (Function.update leaves slot newWeight)) ∧
      s.totalWeight - leaves slot + newWeight
        = ∑ i ∈ Finset.range n, Function.update leaves slot newWeight i ∧
      opsUpdate s slot (leaves slot) newWeight expectedTotal =
        (require (s.totalWeight - leaves slot + newWeight = expectedTotal)
          (.program .weightDesync) >>= fun _ =>
          pure { s with
            totalWeight := s.totalWeight - leaves slot + newWeight, tree := tree' }) := by
  have hle := h.leaf_le_total hslot
  by_cases hup : leaves slot ≤ newWeight
  · obtain ⟨delta, rfl⟩ : ∃ delta, newWeight = leaves slot + delta :=
      ⟨newWeight - leaves slot, by omega⟩
    have htot : s.totalWeight - leaves slot + (leaves slot + delta) = s.totalWeight + delta := by
      omega
    rw [htot] at hfits ⊢
    obtain ⟨tree', hadd, htree, htotal⟩ := raise_leaf h hn hslot hfits
    refine ⟨tree', htree, htotal, ?_⟩
    simp [opsUpdate, require_pos hslot, h.leaf hn hslot, require_pos, Checked.sub_of_le,
      Checked.add_of_lt hfits, hadd, pure, Except.pure]
  · obtain ⟨delta, hdelta, hnew⟩ : ∃ delta, delta ≤ leaves slot ∧ newWeight = leaves slot - delta :=
      ⟨leaves slot - newWeight, by omega, by omega⟩
    have htot : s.totalWeight - leaves slot + newWeight = s.totalWeight - delta := by omega
    obtain ⟨tree', hsub, htree, htotal⟩ := lower_leaf h hn hslot hdelta
    rw [htot, hnew]
    refine ⟨tree', htree, htotal, ?_⟩
    have hnone : Checked.sub (leaves slot - delta) (leaves slot) = none :=
      Checked.sub_of_not_le (by omega)
    have hdiff : leaves slot - (leaves slot - delta) = delta := by omega
    simp [opsUpdate, require_pos hslot, h.leaf hn hslot, require_pos, hnone, hdiff,
      Checked.sub_of_le (show delta ≤ s.totalWeight by omega), hsub, pure, Except.pure]

theorem opsUpdate_spec {s : Slots n} {leaves : ℕ → ℕ} (h : s.Inv leaves) (hn : n < 2 ^ 32)
    {slot oldWeight newWeight expectedTotal : ℕ} (hold : 0 < oldWeight) (hnew : 0 < newWeight)
    (hok : s.UpdateOk leaves slot oldWeight newWeight expectedTotal) :
    ∃ s', opsUpdate s slot oldWeight newWeight expectedTotal = .ok s' ∧
      s'.Inv (Function.update leaves slot newWeight) ∧ s'.totalWeight = expectedTotal ∧
      s'.free = s.free ∧ s'.highWater = s.highWater := by
  obtain ⟨hslot, rfl, hfits, hexp⟩ := hok
  obtain ⟨tree', htree, htotal, heq⟩ := opsUpdate_eq h hn expectedTotal hslot hfits
  refine ⟨{ s with totalWeight := s.totalWeight - leaves slot + newWeight, tree := tree' },
    by rw [heq, require_pos hexp]; rfl, ?_, hexp, rfl, rfl⟩
  have hlive : slot < s.highWater := by
    by_contra hge
    exact hold.ne' (h.above slot (by omega))
  constructor
  · exact htree
  · exact htotal
  · exact hfits
  · exact h.highWater
  · exact h.nodup
  · intro x
    have hx : x ∈ s.free ↔ _ := h.free x
    by_cases hxs : x = slot
    · subst hxs
      simp only [Function.update_self]
      exact hx.trans ⟨fun hz => absurd hz.2 hold.ne', fun hz => absurd hz.2 hnew.ne'⟩
    · rw [Function.update_of_ne hxs]; exact hx
  · intro x hx
    have hne : x ≠ slot := by rintro rfl; exact absurd hx (by simpa using hlive)
    rw [Function.update_of_ne hne]
    exact h.above x hx

theorem opsUpdate_fails {s : Slots n} {leaves : ℕ → ℕ} (h : s.Inv leaves) (hn : n < 2 ^ 32)
    {slot oldWeight newWeight expectedTotal : ℕ}
    (hok : ¬s.UpdateOk leaves slot oldWeight newWeight expectedTotal) :
    opsUpdate s slot oldWeight newWeight expectedTotal = .error (.program .weightDesync) := by
  by_cases hslot : slot < n
  · by_cases hleaf : leaves slot = oldWeight
    · subst hleaf
      by_cases hfits : s.totalWeight - leaves slot + newWeight < 2 ^ 64
      · obtain ⟨tree', -, -, heq⟩ := opsUpdate_eq h hn expectedTotal hslot hfits
        rw [heq, require_neg fun he => hok ⟨hslot, rfl, hfits, he⟩, error_bind]
      · -- Only a rise can overflow: a fall stays below the old total.
        have hle := h.leaf_le_total hslot
        have hfit := h.fits
        have hsub : Checked.sub newWeight (leaves slot) = some (newWeight - leaves slot) :=
          Checked.sub_of_le (by omega)
        have hadd : Checked.add 64 s.totalWeight (newWeight - leaves slot) = none :=
          Checked.add_of_not_lt (by omega)
        simp [opsUpdate, require_pos hslot, h.leaf hn hslot, require_pos, hsub, hadd]
    · simp [opsUpdate, require_pos hslot, h.leaf hn hslot, require_neg hleaf]
  · simp [opsUpdate, require_neg hslot]

end ByeMachine
