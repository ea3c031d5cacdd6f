import ByeMachine.Laws.Rebalance
import Mathlib.Order.Bounds.Basic

/-!
# The blank controller's optimum

The `$2` anchor is the last count that leaves the real set short of its target,
so one of the two candidates about it is within half a `$2` step; the scan's
answer is the least candidate, and no further off.
-/

namespace ByeMachine

open Fallible

namespace Rebalance

variable {t nReal wReal w2 b2Star : ℕ} {weights faces : Denomination → ℕ} {b b' : BlankTargets}

-- ---------------------------------------------------------------------------
-- Candidates
-- ---------------------------------------------------------------------------

structure InDomain (b2Star : ℕ) (b : BlankTargets) : Prop where
  b1 : b.b1 = 0 ∨ b.b1 = 1
  b2 : b.b2 = b2Star ∨ b.b2 = b2Star + 1
  b5 : b.b5 = 0 ∨ b.b5 = 1

theorem mem_candidates {a1 a5 delta : ℕ} :
    (a1, a5, delta) ∈ candidates ↔ a1 ≤ 1 ∧ a5 ≤ 1 ∧ delta ≤ 1 := by
  simp [candidates]
  omega

theorem inDomain_iff :
    InDomain b2Star b ↔ ∃ candidate ∈ candidates, b = targetsOf b2Star candidate := by
  constructor
  · rintro ⟨h1, h2, h5⟩
    refine ⟨(b.b1, b.b5, b.b2 - b2Star), mem_candidates.mpr (by omega), ?_⟩
    have hb2 : b2Star + (b.b2 - b2Star) = b.b2 := by omega
    simp only [targetsOf, hb2]
  · rintro ⟨⟨a1, a5, delta⟩, hmem, rfl⟩
    obtain ⟨h1, h5, hdelta⟩ := mem_candidates.mp hmem
    exact ⟨by dsimp only [targetsOf]; omega, by dsimp only [targetsOf]; omega,
      by dsimp only [targetsOf]; omega⟩

def targetGap (t wReal nReal : ℕ) (weights : Denomination → ℕ) (b : BlankTargets) : ℤ :=
  priceGap t WEIGHT_C (totalWeight wReal weights b) (totalCount nReal b)

/-- The order the controller documents: the price error, then fewer blanks, then fewer `$1`, then
fewer `$5`. -/
def targetOrder (t wReal nReal : ℕ) (weights : Denomination → ℕ) (b : BlankTargets) :
    ℕ ×ₗ ℕ ×ₗ ℕ ×ₗ ℕ :=
  (targetKey t WEIGHT_C wReal nReal weights b).order

theorem targetGap_eq (b : BlankTargets) :
    targetGap t wReal nReal weights b = priceGap t WEIGHT_C wReal nReal
      + b.b1 * priceGap t WEIGHT_C (weights 0) 1 + b.b2 * priceGap t WEIGHT_C (weights 1) 1
      + b.b5 * priceGap t WEIGHT_C (weights 2) 1 := by
  have hweight : totalWeight wReal weights b
      = wReal + weights 0 * b.b1 + weights 1 * b.b2 + weights 2 * b.b5 := rfl
  rw [targetGap, hweight, totalCount]
  simp only [priceGap, Nat.cast_mul, Nat.cast_add]
  ring

theorem targetOrder_injective : Function.Injective (targetOrder t wReal nReal weights) := by
  rintro ⟨b1, b2, b5⟩ ⟨b1', b2', b5'⟩ h
  have hkey := Key.order_injective h
  simp only [targetKey, Key.mk.injEq] at hkey
  obtain ⟨-, hblanks, rfl, rfl⟩ := hkey
  obtain rfl : b2 = b2' := by omega
  rfl

-- ---------------------------------------------------------------------------
-- The anchor
-- ---------------------------------------------------------------------------

/-- The largest number of `$2` blanks that leaves the set short of its target, or none. -/
def IsAnchor (t wReal nReal w2 b2Star : ℕ) : Prop :=
  IsGreatest {b | t * (wReal + b * w2) ≤ WEIGHT_C * (nReal + b)} b2Star ∨
    (∀ b, ¬t * (wReal + b * w2) ≤ WEIGHT_C * (nReal + b)) ∧ b2Star = 0

theorem short_iff (hw2 : WEIGHT_C < t * w2) (b2 : ℕ) :
    t * (wReal + b2 * w2) ≤ WEIGHT_C * (nReal + b2) ↔
      t * wReal + b2 * (t * w2 - WEIGHT_C) ≤ nReal * WEIGHT_C := by
  have hstep : b2 * (t * w2) = b2 * (t * w2 - WEIGHT_C) + b2 * WEIGHT_C := by
    rw [← Nat.mul_add, Nat.sub_add_cancel hw2.le]
  have hleft : t * (wReal + b2 * w2) = t * wReal + b2 * (t * w2) := by ring
  have hright : WEIGHT_C * (nReal + b2) = nReal * WEIGHT_C + b2 * WEIGHT_C := by ring
  omega

theorem isAnchor_anchor (hw2 : WEIGHT_C < t * weight (faces 1)) :
    IsAnchor t wReal nReal (weight (faces 1)) (anchor nReal wReal faces t) := by
  have hden : 0 < t * weight (faces 1) - WEIGHT_C := Nat.sub_pos_of_lt hw2
  by_cases hshort : t * wReal ≤ nReal * WEIGHT_C
  · refine .inl ⟨(short_iff hw2 _).mpr ?_, fun b2 hb2 => ?_⟩
    · have hle := Nat.div_mul_le_self (nReal * WEIGHT_C - t * wReal)
        (t * weight (faces 1) - WEIGHT_C)
      rw [anchor]
      omega
    · have hle := (short_iff hw2 _).mp hb2
      exact (Nat.le_div_iff_mul_le hden).mpr (by omega)
  · refine .inr ⟨fun b2 hb2 => ?_, ?_⟩
    · have hle := (short_iff hw2 _).mp hb2
      omega
    · rw [anchor, Nat.sub_eq_zero_of_le (by omega), Nat.zero_div]

theorem targetGap_b2 (b2 : ℕ) :
    targetGap t wReal nReal weights ⟨0, b2, 0⟩
      = priceGap t WEIGHT_C wReal nReal + b2 * priceGap t WEIGHT_C (weights 1) 1 := by
  rw [targetGap_eq]
  simp

theorem short_iff_gap (b2 : ℕ) :
    t * (wReal + b2 * weights 1) ≤ WEIGHT_C * (nReal + b2) ↔
      targetGap t wReal nReal weights ⟨0, b2, 0⟩ ≤ 0 := by
  have hweight : totalWeight wReal weights ⟨0, b2, 0⟩ = wReal + b2 * weights 1 := by
    show wReal + weights 0 * 0 + weights 1 * b2 + weights 2 * 0 = _
    ring
  rw [targetGap, priceGap, hweight, sub_nonpos, Nat.cast_le]
  rfl

/-- With the anchor a short set is still short, and one more `$2` blank takes it past. -/
theorem IsAnchor.gap (h : IsAnchor t wReal nReal (weights 1) b2Star)
    (hshort : t * wReal ≤ WEIGHT_C * nReal) :
    targetGap t wReal nReal weights ⟨0, b2Star, 0⟩ ≤ 0 ∧
      0 < targetGap t wReal nReal weights ⟨0, b2Star + 1, 0⟩ := by
  obtain ⟨hmem, hgreatest⟩ | ⟨hnone, -⟩ := h
  · refine ⟨(short_iff_gap _).mp hmem, ?_⟩
    by_contra hle
    have hnext := hgreatest ((short_iff_gap _).mpr (not_lt.mp hle))
    omega
  · exact absurd (by simpa using hshort) (hnone 0)

theorem IsAnchor.eq_zero (h : IsAnchor t wReal nReal w2 b2Star) (hw2 : WEIGHT_C < t * w2)
    (hpast : WEIGHT_C * nReal ≤ t * wReal) : b2Star = 0 := by
  obtain ⟨hmem, -⟩ | ⟨-, hzero⟩ := h
  · have hle := (short_iff hw2 _).mp hmem
    have hnone : b2Star * (t * w2 - WEIGHT_C) = 0 := by
      rw [Nat.mul_comm WEIGHT_C] at hpast
      omega
    exact (Nat.mul_eq_zero.mp hnone).resolve_right (Nat.sub_pos_of_lt hw2).ne'
  · exact hzero

-- ---------------------------------------------------------------------------
-- The least candidate
-- ---------------------------------------------------------------------------

/-- The answer is a candidate, and none comes before it. -/
structure Least (t wReal nReal : ℕ) (weights : Denomination → ℕ) (b2Star : ℕ) (b : BlankTargets) :
    Prop where
  mem : InDomain b2Star b
  le : ∀ b', InDomain b2Star b' →
    targetOrder t wReal nReal weights b ≤ targetOrder t wReal nReal weights b'

namespace Least

variable (h : Least t wReal nReal weights b2Star b)
include h

theorem lt (hmem : InDomain b2Star b') (hne : b' ≠ b) :
    targetOrder t wReal nReal weights b < targetOrder t wReal nReal weights b' :=
  lt_of_le_of_ne (h.le b' hmem) fun heq => hne (targetOrder_injective heq).symm

theorem gap_le (hmem : InDomain b2Star b') :
    |targetGap t wReal nReal weights b| ≤ |targetGap t wReal nReal weights b'| := by
  have hscore : (targetGap t wReal nReal weights b).natAbs
      ≤ (targetGap t wReal nReal weights b').natAbs := Prod.Lex.monotone_fst _ _ (h.le b' hmem)
  rw [Int.abs_eq_natAbs, Int.abs_eq_natAbs]
  exact_mod_cast hscore

/-- The two candidates about the anchor are a `$2` step apart, on either side of the target. -/
theorem two_mul_gap_le (hanchor : IsAnchor t wReal nReal (weights 1) b2Star)
    (hshort : t * wReal ≤ WEIGHT_C * nReal) :
    2 * |targetGap t wReal nReal weights b| ≤ t * weights 1 - WEIGHT_C := by
  obtain ⟨hbelow, habove⟩ := hanchor.gap hshort
  have hanchorIn : InDomain b2Star ⟨0, b2Star, 0⟩ := ⟨.inl rfl, .inl rfl, .inl rfl⟩
  have hnextIn : InDomain b2Star ⟨0, b2Star + 1, 0⟩ := ⟨.inl rfl, .inr rfl, .inl rfl⟩
  have hfirst := h.gap_le hanchorIn
  have hnext := h.gap_le hnextIn
  rw [abs_of_nonpos hbelow] at hfirst
  rw [abs_of_pos habove] at hnext
  have hstep : targetGap t wReal nReal weights ⟨0, b2Star + 1, 0⟩
      = targetGap t wReal nReal weights ⟨0, b2Star, 0⟩ + (t * weights 1 - WEIGHT_C) := by
    rw [targetGap_b2, targetGap_b2]
    simp only [priceGap, Nat.cast_add, Nat.cast_mul, Nat.cast_one]
    ring
  omega

theorem eq_zero (hanchor : IsAnchor t wReal nReal (weights 1) b2Star)
    (hpast : WEIGHT_C * nReal ≤ t * wReal) (houtweighs : ∀ d, WEIGHT_C < t * weights d) :
    b = ⟨0, 0, 0⟩ := by
  obtain rfl := hanchor.eq_zero (houtweighs 1) hpast
  have hnoneIn : InDomain 0 ⟨0, 0, 0⟩ := ⟨.inl rfl, .inl rfl, .inl rfl⟩
  have hle := h.gap_le hnoneIn
  have hstart : 0 ≤ priceGap t WEIGHT_C wReal nReal := sub_nonneg.mpr (Nat.cast_le.mpr hpast)
  have hstep : ∀ d, 1 ≤ priceGap t WEIGHT_C (weights d) 1 := fun d => by
    have hd := houtweighs d
    unfold priceGap
    omega
  have hwiden : ∀ d (n : ℕ), (n : ℤ) ≤ n * priceGap t WEIGHT_C (weights d) 1 := fun d n =>
    le_mul_of_one_le_right (Nat.cast_nonneg n) (hstep d)
  have h1 := hwiden 0 b.b1
  have h2 := hwiden 1 b.b2
  have h5 := hwiden 2 b.b5
  rw [targetGap_eq, targetGap_eq] at hle
  simp only [Nat.cast_zero, zero_mul, add_zero] at hle
  rw [abs_of_nonneg (by omega), abs_of_nonneg hstart] at hle
  cases b
  simp only [BlankTargets.mk.injEq]
  dsimp only at h1 h2 h5 hle
  omega

end Least

/-- Half a step of the gap is half a step over the weight of the price, and a unit for the floor. -/
theorem ticketQuote_near {W N quote : ℕ} {step : ℤ} (hgap : 2 * |priceGap t WEIGHT_C W N| ≤ step)
    (h : ticketQuote N W = .ok quote) : |(quote : ℤ) - t| ≤ step / (2 * W) + 1 := by
  obtain ⟨hpos, -, -, rfl⟩ := ticketQuote_ok.mp h
  have hW : (0 : ℤ) < 2 * W := by omega
  obtain ⟨q, hq⟩ : ∃ q, WEIGHT_C * N / W = q := ⟨_, rfl⟩
  have hlow : q * W ≤ WEIGHT_C * N := hq ▸ Nat.div_mul_le_self _ _
  have hhigh : WEIGHT_C * N < W * (q + 1) := hq ▸ Nat.lt_mul_div_succ _ hpos
  zify at hlow hhigh
  simp only [priceGap, Nat.cast_mul] at hgap
  rw [hq, abs_le]
  constructor
  · have hle : (t - q - 1 : ℤ) ≤ step / (2 * W) := by
      refine (Int.le_ediv_iff_mul_le hW).mpr (le_trans ?_ hgap)
      have habs := le_abs_self ((t : ℤ) * W - WEIGHT_C * N)
      nlinarith only [habs, hhigh]
    omega
  · have hle : (q - t : ℤ) ≤ step / (2 * W) := by
      refine (Int.le_ediv_iff_mul_le hW).mpr (le_trans ?_ hgap)
      have habs := neg_abs_le ((t : ℤ) * W - WEIGHT_C * N)
      nlinarith only [habs, hlow]
    omega

-- ---------------------------------------------------------------------------
-- The answer
-- ---------------------------------------------------------------------------

theorem weightOf_faceWeights (hfaces : ∀ d, 0 < faces d ∧ faces d ≤ WEIGHT_C) (d : Denomination) :
    weightOf (faces d) = .ok (faceWeights faces d) := by
  refine weightOf_ok.mpr ⟨(hfaces d).1, (hfaces d).2, ?_⟩
  revert d
  exact Fin.forall_fin_succ.mpr ⟨rfl, Fin.forall_fin_two.mpr ⟨rfl, rfl⟩⟩

theorem evaluate_least (hn : 0 < nReal) (h : evaluate nReal wReal faces t = .ok b) :
    Least t wReal nReal (faceWeights faces) (anchor nReal wReal faces t) b := by
  obtain ⟨-, -, -, -, -, key, hscan⟩ := (evaluate_ok hn).mp h
  obtain ⟨hmem, hle⟩ := scan_least hscan
  refine ⟨inDomain_iff.mpr hmem, fun b' hmem' => ?_⟩
  obtain ⟨candidate, hcandidate, rfl⟩ := inDomain_iff.mp hmem'
  exact hle candidate hcandidate

/-- The answer over a real set is the one least candidate about the anchor; short of the target it
is within half a `$2` step, and past it there are no blanks. -/
theorem evaluate_optimal (hn : 0 < nReal) (h : evaluate nReal wReal faces t = .ok b) :
    ∃ (weights : Denomination → ℕ) (b2Star : ℕ), (∀ d, weightOf (faces d) = .ok (weights d)) ∧
      IsAnchor t wReal nReal (weights 1) b2Star ∧ InDomain b2Star b ∧
      (∀ b', InDomain b2Star b' → b' ≠ b →
        targetOrder t wReal nReal weights b < targetOrder t wReal nReal weights b') ∧
      (t * wReal ≤ WEIGHT_C * nReal →
        2 * |targetGap t wReal nReal weights b| ≤ t * weights 1 - WEIGHT_C ∧
        ∀ quote, ticketQuote (totalCount nReal b) (totalWeight wReal weights b) = .ok quote →
          |(quote : ℤ) - t|
            ≤ (t * weights 1 - WEIGHT_C : ℤ) / (2 * totalWeight wReal weights b) + 1) ∧
      (WEIGHT_C * nReal ≤ t * wReal → (∀ d, WEIGHT_C < t * weights d) → b = ⟨0, 0, 0⟩) := by
  have hleast := evaluate_least hn h
  obtain ⟨hfaces, -, -, -, hw2, -⟩ := (evaluate_ok hn).mp h
  have hanchor : IsAnchor t wReal nReal (faceWeights faces 1) (anchor nReal wReal faces t) :=
    isAnchor_anchor hw2
  refine ⟨faceWeights faces, anchor nReal wReal faces t, weightOf_faceWeights hfaces, hanchor,
    hleast.mem, fun b' hmem hne => hleast.lt hmem hne, fun hshort => ?_, hleast.eq_zero hanchor⟩
  have hgap := hleast.two_mul_gap_le hanchor hshort
  exact ⟨hgap, fun quote hquote => ticketQuote_near hgap hquote⟩

/-- Three cards that weigh as one of `$50`, under the default configuration. -/
theorem evaluate_optimal_default :
    evaluate 3 (weight 50000000) DEFAULT_BLANK_FACES DEFAULT_TICKET_TARGET = .ok ⟨0, 1, 0⟩ ∧
      ∃ (weights : Denomination → ℕ) (b2Star : ℕ),
        (∀ d, weightOf (DEFAULT_BLANK_FACES d) = .ok (weights d)) ∧
        IsAnchor DEFAULT_TICKET_TARGET (weight 50000000) 3 (weights 1) b2Star ∧
        InDomain b2Star ⟨0, 1, 0⟩ := by
  have h : evaluate 3 (weight 50000000) DEFAULT_BLANK_FACES DEFAULT_TICKET_TARGET
      = .ok ⟨0, 1, 0⟩ := by decide +kernel
  obtain ⟨weights, b2Star, hweights, hanchor, hmem, -⟩ := evaluate_optimal (by decide) h
  exact ⟨h, weights, b2Star, hweights, hanchor, hmem⟩

end Rebalance

end ByeMachine
