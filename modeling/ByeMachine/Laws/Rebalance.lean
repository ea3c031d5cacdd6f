import ByeMachine.Common.Rebalance
import Mathlib.Data.List.MinMax
import Mathlib.Data.Prod.Lex
import Mathlib.Tactic.Ring
import Mathlib.Tactic.Linarith

/-!
# When the blank controller answers, and what

Every candidate of the scan is scored whatever the best so far, so the scan
succeeds exactly where its largest candidate fits (`scan_succeeds`), and
`evaluate_succeeds` reads that as bounds on the inputs. A scan that succeeds
keeps a candidate of the least key (`scan_least`).
-/

namespace ByeMachine

open Fallible

namespace Rebalance

-- ---------------------------------------------------------------------------
-- One candidate
-- ---------------------------------------------------------------------------

def weighed (wReal : ℕ) (weights counts : Denomination → ℕ) : ℕ :=
  wReal + weights 0 * counts 0 + weights 1 * counts 1 + weights 2 * counts 2

theorem absDiff_ok (a b : ℕ) : ∃ d, absDiff a b = .ok d := by
  unfold absDiff
  split
  · rename_i h
    exact ⟨_, by rw [Checked.sub_of_le h]; rfl⟩
  · rename_i h
    exact ⟨_, by rw [Checked.sub_of_le (by omega)]; rfl⟩

theorem score_succeeds {t c wReal nReal : ℕ} {weights : Denomination → ℕ}
    (counts : Denomination → ℕ) (ht : 0 < t) (hc : 0 < c) :
    (∃ s, score t c wReal nReal weights counts = .ok s) ↔
      t * weighed wReal weights counts < 2 ^ 128 ∧
        c * (nReal + counts 0 + counts 1 + counts 2) < 2 ^ 128 := by
  simp only [score, bind_ok, orArithmeticFailure_ok, Checked.mul_some, Checked.add_some,
    List.foldlM_cons, List.foldlM_nil, pure_ok, Prod.exists, Prod.mk.injEq]
  constructor
  · rintro ⟨s, _, _, ⟨_, _, ⟨_, ⟨-, rfl⟩, _, ⟨-, rfl⟩, _, ⟨-, rfl⟩, rfl, rfl⟩, _, _, ⟨_, ⟨-, rfl⟩, _,
      ⟨-, rfl⟩, _, ⟨-, rfl⟩, rfl, rfl⟩, _, _, ⟨_, ⟨-, rfl⟩, _, ⟨-, rfl⟩, _, ⟨-, rfl⟩, rfl, rfl⟩, rfl,
      rfl⟩, _, ⟨hl, rfl⟩, _, ⟨hr, rfl⟩, -⟩
    exact ⟨hl, hr⟩
  · rintro ⟨hl, hr⟩
    have hw := lt_of_le_of_lt (Nat.le_mul_of_pos_left _ ht) hl
    have hn := lt_of_le_of_lt (Nat.le_mul_of_pos_left _ hc) hr
    unfold weighed at hw
    obtain ⟨s, hs⟩ := absDiff_ok (t * weighed wReal weights counts)
      (c * (nReal + counts 0 + counts 1 + counts 2))
    exact ⟨s, _, _, ⟨_, _, ⟨_, ⟨by omega, rfl⟩, _, ⟨by omega, rfl⟩, _, ⟨by omega, rfl⟩, rfl, rfl⟩,
      _, _, ⟨_, ⟨by omega, rfl⟩, _, ⟨by omega, rfl⟩, _, ⟨by omega, rfl⟩, rfl, rfl⟩, _, _,
      ⟨_, ⟨by omega, rfl⟩, _, ⟨by omega, rfl⟩, _, ⟨by omega, rfl⟩, rfl, rfl⟩, rfl, rfl⟩, _, ⟨hl, rfl⟩,
      _, ⟨hr, rfl⟩, hs⟩

-- ---------------------------------------------------------------------------
-- The scan
-- ---------------------------------------------------------------------------

section
variable {t c wReal nReal b2Star : ℕ} {weights : Denomination → ℕ}

def counted (b2Star : ℕ) (candidate : ℕ × ℕ × ℕ) : Denomination → ℕ :=
  ![candidate.1, b2Star + candidate.2.2, candidate.2.1]

/-- A candidate whose counts fit `u32` and whose score fits `u128`. -/
structure Fits (t c wReal nReal : ℕ) (weights counts : Denomination → ℕ) : Prop where
  narrow : ∀ d, counts d < 2 ^ 32
  weighed : t * weighed wReal weights counts < 2 ^ 128
  count : c * (nReal + counts 0 + counts 1 + counts 2) < 2 ^ 128

theorem Fits.mono {counts counts' : Denomination → ℕ}
    (h : Fits t c wReal nReal weights counts') (hle : ∀ d, counts d ≤ counts' d) :
    Fits t c wReal nReal weights counts where
  narrow := fun d => lt_of_le_of_lt (hle d) (h.narrow d)
  weighed := by
    refine lt_of_le_of_lt (Nat.mul_le_mul_left t ?_) h.weighed
    unfold Rebalance.weighed
    gcongr <;> exact hle _
  count := by
    refine lt_of_le_of_lt (Nat.mul_le_mul_left c ?_) h.count
    gcongr <;> exact hle _

theorem scanStep_succeeds (ht : 0 < t) (hc : 0 < c) (best : Option (Key × BlankTargets))
    (candidate : ℕ × ℕ × ℕ) :
    (∃ best', scanStep t c wReal nReal weights b2Star best candidate = .ok best') ↔
      Fits t c wReal nReal weights (counted b2Star candidate) := by
  obtain ⟨a1, a5, delta⟩ := candidate
  have hscore : (∃ s, score t c wReal nReal weights ![a1, b2Star + delta, a5] = .ok s) ↔ _ :=
    score_succeeds _ ht hc
  simp only [scanStep, bind_ok, orArithmeticFailure_ok, Checked.add_some, Checked.narrow_some,
    Option.bind_eq_some_iff, pure_ok]
  constructor
  · rintro ⟨_, _, ⟨-, rfl⟩, s, hs, _, -, _, ⟨h1, -⟩, _, ⟨h2, -⟩, _, ⟨h5, -⟩, -⟩
    obtain ⟨hweighed, hcount⟩ := hscore.mp ⟨s, hs⟩
    exact ⟨Fin.forall_fin_succ.mpr ⟨h1, Fin.forall_fin_two.mpr ⟨h2, h5⟩⟩, hweighed, hcount⟩
  · rintro ⟨hnarrow, hweighed, hcount⟩
    obtain ⟨s, hs⟩ := hscore.mpr ⟨hweighed, hcount⟩
    have h1 : a1 < 2 ^ 32 := hnarrow 0
    have h2 : b2Star + delta < 2 ^ 32 := hnarrow 1
    have h5 : a5 < 2 ^ 32 := hnarrow 2
    exact ⟨_, _, ⟨by omega, rfl⟩, s, hs, _, ⟨_, ⟨by omega, rfl⟩, by omega, rfl⟩, _, ⟨h1, rfl⟩, _,
      ⟨h2, rfl⟩, _, ⟨h5, rfl⟩, rfl⟩

/-- The largest candidate adds one of each denomination to the anchor. -/
theorem scan_succeeds (ht : 0 < t) (hc : 0 < c) :
    (∃ best, candidates.foldlM (scanStep t c wReal nReal weights b2Star) none = .ok best) ↔
      Fits t c wReal nReal weights ![1, b2Star + 1, 1] := by
  rw [foldlM_succeeds (scanStep_succeeds ht hc)]
  constructor
  · intro h
    exact h (1, 1, 1) (by decide)
  · rintro h ⟨a1, a5, delta⟩ hmem
    have hle : a1 ≤ 1 ∧ a5 ≤ 1 ∧ delta ≤ 1 := by
      revert hmem
      simp only [candidates, List.flatMap_cons, List.map_cons, List.map_nil, List.flatMap_nil]
      simp
      omega
    refine h.mono (Fin.forall_fin_succ.mpr ⟨hle.1, Fin.forall_fin_two.mpr ⟨?_, hle.2.1⟩⟩)
    exact Nat.add_le_add_left hle.2.2 _

def BestNarrow (best : Option (Key × BlankTargets)) : Prop :=
  ∃ key b, best = some (key, b) ∧ ∀ d, b.toBlanks d < 2 ^ 32

theorem scanStep_narrow {best best' : Option (Key × BlankTargets)} {candidate : ℕ × ℕ × ℕ}
    (hbest : best = none ∨ BestNarrow best)
    (h : scanStep t c wReal nReal weights b2Star best candidate = .ok best') :
    BestNarrow best' := by
  obtain ⟨a1, a5, delta⟩ := candidate
  simp only [scanStep, bind_ok, orArithmeticFailure_ok, Checked.add_some, Checked.narrow_some,
    pure_ok] at h
  obtain ⟨_, -, _, -, _, -, b1, ⟨h1, rfl⟩, b2, ⟨h2, rfl⟩, b5, ⟨h5, rfl⟩, rfl⟩ := h
  have hnarrow : ∀ d, (BlankTargets.mk b1 b2 b5).toBlanks d < 2 ^ 32 :=
    Fin.forall_fin_succ.mpr ⟨h1, Fin.forall_fin_two.mpr ⟨h2, h5⟩⟩
  obtain rfl | ⟨key, b, rfl, hb⟩ := hbest
  · exact ⟨_, _, rfl, hnarrow⟩
  · dsimp only
    split
    · exact ⟨_, _, rfl, hnarrow⟩
    · exact ⟨_, _, rfl, hb⟩

theorem scan_narrow {best : Option (Key × BlankTargets)}
    (h : candidates.foldlM (scanStep t c wReal nReal weights b2Star) none = .ok best) :
    BestNarrow best := by
  have hcons : candidates = (0, 0, 0) :: candidates.tail := rfl
  rw [hcons, List.foldlM_cons, bind_ok] at h
  obtain ⟨first, hfirst, h⟩ := h
  exact foldlM_keeps (fun _ _ _ hb hstep => scanStep_narrow (.inr hb) hstep)
    (scanStep_narrow (.inl rfl) hfirst) h

end

-- ---------------------------------------------------------------------------
-- The least key
-- ---------------------------------------------------------------------------

def Key.order (key : Key) : ℕ ×ₗ ℕ ×ₗ ℕ ×ₗ ℕ :=
  toLex (key.score, toLex (key.totalBlanks, toLex (key.a1, key.a5)))

theorem Key.lt_iff {a b : Key} : a.lt b ↔ a.order < b.order := by
  simp [Key.lt, Key.order, Prod.Lex.toLex_lt_toLex]

theorem Key.order_injective : Function.Injective Key.order := by
  rintro ⟨s, n, a, f⟩ ⟨s', n', a', f'⟩ h
  simpa [Key.order] using h

/-- How far a total weight and a count leave the ticket price from its target. -/
def priceGap (t c weight count : ℕ) : ℤ := (t * weight : ℕ) - (c * count : ℕ)

theorem absDiff_eq {a b d : ℕ} (h : absDiff a b = .ok d) : d = ((a : ℤ) - b).natAbs := by
  unfold absDiff at h
  split at h
  all_goals
    simp only [okOr_ok, Checked.sub_some] at h
    omega

theorem score_ok {t c wReal nReal s : ℕ} {weights counts : Denomination → ℕ}
    (h : score t c wReal nReal weights counts = .ok s) :
    s = (priceGap t c (weighed wReal weights counts)
      (nReal + counts 0 + counts 1 + counts 2)).natAbs := by
  simp only [score, bind_ok, orArithmeticFailure_ok, Checked.mul_some, Checked.add_some,
    List.foldlM_cons, List.foldlM_nil, pure_ok, Prod.exists, Prod.mk.injEq] at h
  obtain ⟨_, _, ⟨_, _, ⟨_, ⟨-, rfl⟩, _, ⟨-, rfl⟩, _, ⟨-, rfl⟩, rfl, rfl⟩, _, _, ⟨_, ⟨-, rfl⟩, _,
    ⟨-, rfl⟩, _, ⟨-, rfl⟩, rfl, rfl⟩, _, _, ⟨_, ⟨-, rfl⟩, _, ⟨-, rfl⟩, _, ⟨-, rfl⟩, rfl, rfl⟩, rfl,
    rfl⟩, _, ⟨-, rfl⟩, _, ⟨-, rfl⟩, hs⟩ := h
  exact absDiff_eq hs

def totalWeight (wReal : ℕ) (weights : Denomination → ℕ) (b : BlankTargets) : ℕ :=
  weighed wReal weights b.toBlanks

def totalCount (nReal : ℕ) (b : BlankTargets) : ℕ := nReal + b.b1 + b.b2 + b.b5

/-- What the scan minimizes over the targets. -/
def targetKey (t c wReal nReal : ℕ) (weights : Denomination → ℕ) (b : BlankTargets) : Key where
  score := (priceGap t c (totalWeight wReal weights b) (totalCount nReal b)).natAbs
  totalBlanks := b.b1 + b.b2 + b.b5
  a1 := b.b1
  a5 := b.b5

def targetsOf (b2Star : ℕ) (candidate : ℕ × ℕ × ℕ) : BlankTargets :=
  ⟨candidate.1, b2Star + candidate.2.2, candidate.2.1⟩

section
variable {t c wReal nReal b2Star : ℕ} {weights : Denomination → ℕ}

def keyed (t c wReal nReal : ℕ) (weights : Denomination → ℕ) (b2Star : ℕ)
    (candidate : ℕ × ℕ × ℕ) : Key × BlankTargets :=
  (targetKey t c wReal nReal weights (targetsOf b2Star candidate), targetsOf b2Star candidate)

/-- A turn of the scan is a turn of the library's search for the least element. -/
theorem scanStep_ok {best best' : Option (Key × BlankTargets)} {candidate : ℕ × ℕ × ℕ}
    (h : scanStep t c wReal nReal weights b2Star best candidate = .ok best') :
    best' = List.argAux (fun a b => a.1.order < b.1.order) best
      (keyed t c wReal nReal weights b2Star candidate) := by
  obtain ⟨a1, a5, delta⟩ := candidate
  simp only [scanStep, bind_ok, orArithmeticFailure_ok, Checked.add_some, Checked.narrow_some,
    Option.bind_eq_some_iff, pure_ok] at h
  obtain ⟨_, ⟨-, rfl⟩, s, hs, _, ⟨_, ⟨-, rfl⟩, -, rfl⟩, _, ⟨-, rfl⟩, _, ⟨-, rfl⟩, _, ⟨-, rfl⟩, rfl⟩ := h
  obtain rfl := score_ok hs
  cases best with
  | none => rfl
  | some best =>
    simp only [Key.lt_iff]
    exact apply_ite some _ _ _

theorem scan_least {key : Key} {b : BlankTargets}
    (h : candidates.foldlM (scanStep t c wReal nReal weights b2Star) none = .ok (some (key, b))) :
    (∃ candidate ∈ candidates, b = targetsOf b2Star candidate) ∧
      ∀ candidate ∈ candidates, (targetKey t c wReal nReal weights b).order
        ≤ (targetKey t c wReal nReal weights (targetsOf b2Star candidate)).order := by
  have hargmin : (candidates.map (keyed t c wReal nReal weights b2Star)).argmin
      (fun kept => kept.1.order) = some (key, b) := by
    rw [List.argmin, List.foldl_map]
    exact (foldlM_eq_foldl (fun _ _ _ => scanStep_ok) h).symm
  obtain ⟨candidate, hmem, hkeyed⟩ := List.mem_map.mp (List.argmin_mem hargmin)
  simp only [keyed, Prod.mk.injEq] at hkeyed
  obtain ⟨rfl, rfl⟩ := hkeyed
  refine ⟨⟨candidate, hmem, rfl⟩, fun other hother => ?_⟩
  have hkept : keyed t c wReal nReal weights b2Star other
      ∈ candidates.map (keyed t c wReal nReal weights b2Star) := List.mem_map_of_mem hother
  have hle := List.le_of_mem_argmin hkept hargmin
  exact hle

end

-- ---------------------------------------------------------------------------
-- The controller
-- ---------------------------------------------------------------------------

def faceWeights (faces : Denomination → ℕ) : Denomination → ℕ :=
  ![weight (faces 0), weight (faces 1), weight (faces 2)]

def anchor (nReal wReal : ℕ) (faces : Denomination → ℕ) (t : ℕ) : ℕ :=
  (nReal * WEIGHT_C - t * wReal) / (t * weight (faces 1) - WEIGHT_C)

section
variable {nReal wReal t : ℕ} {faces : Denomination → ℕ}

@[simp] theorem evaluate_empty : evaluate 0 wReal faces t = .ok ⟨0, 0, 0⟩ := rfl

theorem evaluate_ok (hn : 0 < nReal) {b : BlankTargets} :
    evaluate nReal wReal faces t = .ok b ↔
      (∀ d, 0 < faces d ∧ faces d ≤ WEIGHT_C) ∧
        nReal * WEIGHT_C < 2 ^ 128 ∧ t * wReal < 2 ^ 128 ∧ t * weight (faces 1) < 2 ^ 128 ∧
        WEIGHT_C < t * weight (faces 1) ∧
        ∃ key, candidates.foldlM (scanStep t WEIGHT_C wReal nReal (faceWeights faces)
          (anchor nReal wReal faces t)) none = .ok (some (key, b)) := by
  have hforall : (∀ d, 0 < faces d ∧ faces d ≤ WEIGHT_C) ↔ (0 < faces 0 ∧ faces 0 ≤ WEIGHT_C) ∧
      (0 < faces 1 ∧ faces 1 ≤ WEIGHT_C) ∧ (0 < faces 2 ∧ faces 2 ≤ WEIGHT_C) := by
    simp [Fin.forall_fin_succ]
  rw [hforall]
  simp only [evaluate, if_neg hn.ne', bind_ok, weightOf_ok, orArithmeticFailure_ok,
    Checked.mul_some, Checked.sub_some, Checked.div_some, require_ok, okOr_ok, pure_ok]
  constructor
  · rintro ⟨_, ⟨h0, h0', rfl⟩, _, ⟨h1, h1', rfl⟩, _, ⟨h2, h2', rfl⟩, _, ⟨hscaledN, rfl⟩, _,
      ⟨hscaledW, rfl⟩, _, ⟨hscaled, rfl⟩, den, ⟨hle, hden⟩, _, hpos, _, ⟨hne, rfl⟩, _, hscan, best,
      rfl, rfl⟩
    rw [hden] at hpos hscan
    exact ⟨⟨⟨h0, h0'⟩, ⟨h1, h1'⟩, h2, h2'⟩, hscaledN, hscaledW, hscaled,
      Nat.lt_of_sub_pos hpos, best.1, hscan⟩
  · rintro ⟨⟨⟨h0, h0'⟩, ⟨h1, h1'⟩, h2, h2'⟩, hscaledN, hscaledW, hscaled, hpos, key, hscan⟩
    exact ⟨_, ⟨h0, h0', rfl⟩, _, ⟨h1, h1', rfl⟩, _, ⟨h2, h2', rfl⟩, _, ⟨hscaledN, rfl⟩, _,
      ⟨hscaledW, rfl⟩, _, ⟨hscaled, rfl⟩, _, ⟨hpos.le, rfl⟩, (), Nat.sub_pos_of_lt hpos, _,
      ⟨(Nat.sub_pos_of_lt hpos).ne', rfl⟩, _, hscan, _, rfl, rfl⟩

/-- The controller answers over a real set exactly where its products and its largest candidate
fit. -/
theorem evaluate_succeeds (hn : 0 < nReal) :
    (∃ b, evaluate nReal wReal faces t = .ok b) ↔
      (∀ d, 0 < faces d ∧ faces d ≤ WEIGHT_C) ∧
        nReal * WEIGHT_C < 2 ^ 128 ∧ t * wReal < 2 ^ 128 ∧ t * weight (faces 1) < 2 ^ 128 ∧
        WEIGHT_C < t * weight (faces 1) ∧
        Fits t WEIGHT_C wReal nReal (faceWeights faces)
          ![1, anchor nReal wReal faces t + 1, 1] := by
  simp only [evaluate_ok hn, exists_and_left]
  refine and_congr_right fun _ => and_congr_right fun _ => and_congr_right fun _ =>
    and_congr_right fun _ => and_congr_right fun hpos => ?_
  have ht : 0 < t := Nat.pos_of_ne_zero fun h => by simp [h] at hpos
  rw [← scan_succeeds ht WEIGHT_C_pos]
  constructor
  · rintro ⟨b, key, hscan⟩
    exact ⟨_, hscan⟩
  · rintro ⟨best, hscan⟩
    obtain ⟨key, b, rfl, -⟩ := scan_narrow hscan
    exact ⟨b, key, hscan⟩

theorem evaluate_narrow {b : BlankTargets} (h : evaluate nReal wReal faces t = .ok b)
    (d : Denomination) : b.toBlanks d < 2 ^ 32 := by
  obtain rfl | hn := Nat.eq_zero_or_pos nReal
  · obtain rfl := Except.ok.inj h
    revert d
    decide
  · obtain ⟨-, -, -, -, -, key, hscan⟩ := (evaluate_ok hn).mp h
    obtain ⟨_, _, heq, hb⟩ := scan_narrow hscan
    simp only [Option.some.injEq, Prod.mk.injEq] at heq
    exact heq.2 ▸ hb d

end

end Rebalance

theorem aggregateWeight_ok {wReal total : ℕ} {blanks faces : Denomination → ℕ} :
    aggregateWeight wReal blanks faces = .ok total ↔
      (∀ d, 0 < faces d ∧ faces d ≤ WEIGHT_C) ∧
        Rebalance.weighed wReal (Rebalance.faceWeights faces) blanks < 2 ^ 128 ∧
        total = Rebalance.weighed wReal (Rebalance.faceWeights faces) blanks := by
  have hforall : (∀ d, 0 < faces d ∧ faces d ≤ WEIGHT_C) ↔ (0 < faces 0 ∧ faces 0 ≤ WEIGHT_C) ∧
      (0 < faces 1 ∧ faces 1 ≤ WEIGHT_C) ∧ (0 < faces 2 ∧ faces 2 ≤ WEIGHT_C) := by
    simp [Fin.forall_fin_succ]
  rw [hforall]
  simp only [aggregateWeight, List.foldlM_cons, List.foldlM_nil, bind_ok, weightOf_ok,
    orArithmeticFailure_ok, Checked.mul_some, Checked.add_some, pure_ok]
  constructor
  · rintro ⟨_, ⟨_, ⟨h0, h0', rfl⟩, _, ⟨-, rfl⟩, -, rfl⟩, _, ⟨_, ⟨h1, h1', rfl⟩, _, ⟨-, rfl⟩, -, rfl⟩, _,
      ⟨_, ⟨h2, h2', rfl⟩, _, ⟨-, rfl⟩, hlt, rfl⟩, rfl⟩
    exact ⟨⟨⟨h0, h0'⟩, ⟨h1, h1'⟩, h2, h2'⟩, hlt, rfl⟩
  · rintro ⟨⟨⟨h0, h0'⟩, ⟨h1, h1'⟩, h2, h2'⟩, hlt, rfl⟩
    have hsum : wReal + weight (faces 0) * blanks 0 + weight (faces 1) * blanks 1 +
      weight (faces 2) * blanks 2 < 2 ^ 128 := hlt
    exact ⟨_, ⟨_, ⟨h0, h0', rfl⟩, _, ⟨by omega, rfl⟩, by omega, rfl⟩, _, ⟨_, ⟨h1, h1', rfl⟩, _,
      ⟨by omega, rfl⟩, by omega, rfl⟩, _, ⟨_, ⟨h2, h2', rfl⟩, _, ⟨by omega, rfl⟩, hsum, rfl⟩, rfl⟩

end ByeMachine
