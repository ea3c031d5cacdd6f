import ByeMachine.Invariants.Ranked
import ByeMachine.Laws.Rebalance
import ByeMachine.Script

/-!
# Which configurations the controller can serve

The validations compare the faces with the ticket target and nothing else. The
controller also needs the target to outweigh the floor division of every face,
and the `$2` anchor to fit its width.
-/

namespace ByeMachine

open Fallible

/-- Faces and a ticket target that one of the two validations accepts. -/
def AcceptedFaces (faces : Denomination → ℕ) (t : ℕ) : Prop :=
  (∃ args, validateConfig args = .ok () ∧ args.blankFaces = faces ∧ args.ticketTarget = t) ∨
    ∃ config, validate config = .ok () ∧ config.blankFaces = faces ∧ config.ticketTarget = t

/-- The controller answers and its answer can be aggregated; every face outweighs the target. -/
structure ControllerServes (nReal wReal : ℕ) (faces : Denomination → ℕ) (t : ℕ) : Prop where
  answers : ∃ b total, Rebalance.evaluate nReal wReal faces t = .ok b ∧
    aggregateWeight wReal b.toBlanks faces = .ok total
  outweighs : ∀ d, ∃ w, weightOf (faces d) = .ok w ∧ WEIGHT_C < t * w

/-- What the target loses to each floor division is less than its distance from the face, the
anchor's divisor is not too small for the real set, and the total weight not too large. -/
structure ControllerBounded (nReal wReal : ℕ) (faces : Denomination → ℕ) (t : ℕ) : Prop where
  remainder : ∀ d, t * (WEIGHT_C % faces d) < (t - faces d) * WEIGHT_C
  anchor : nReal ≠ 0 →
    nReal * WEIGHT_C < t * wReal + (2 ^ 32 - 1) * (t * (WEIGHT_C / faces 1) - WEIGHT_C)
  total : nReal ≠ 0 →
    t * (wReal + WEIGHT_C / faces 0 + WEIGHT_C / faces 1 + WEIGHT_C / faces 2) < 2 ^ 128

variable {faces : Denomination → ℕ} {t nReal wReal : ℕ}

theorem AcceptedFaces.below (h : AcceptedFaces faces t) (d : Denomination) :
    0 < faces d ∧ faces d < t := by
  obtain ⟨args, hvalid, rfl, rfl⟩ | ⟨config, hvalid, rfl, rfl⟩ := h
  · simp only [validateConfig, bind_ok, validateFaces_ok] at hvalid
    obtain ⟨_, _, _, _, _, _, _, hfaces, _⟩ := hvalid
    exact hfaces d
  · exact (validate_ok hvalid).2.1 d

theorem outweighs_iff {face : ℕ} (hpos : 0 < face) (hlt : face < t) :
    WEIGHT_C < t * weight face ↔ t * (WEIGHT_C % face) < (t - face) * WEIGHT_C := by
  have hsplit : t * WEIGHT_C = face * (t * weight face) + t * (WEIGHT_C % face) := by
    calc t * WEIGHT_C = t * (face * (WEIGHT_C / face) + WEIGHT_C % face) := by
          rw [Nat.div_add_mod]
      _ = face * (t * weight face) + t * (WEIGHT_C % face) := by
          rw [weight]; ring
  have hle : face * WEIGHT_C ≤ t * WEIGHT_C := Nat.mul_le_mul_right _ hlt.le
  rw [Nat.sub_mul, ← Nat.mul_lt_mul_left hpos]
  omega

theorem face_le_of_outweighs {face : ℕ} (h : WEIGHT_C < t * weight face) : face ≤ WEIGHT_C := by
  by_contra hgt
  rw [weight, Nat.div_eq_of_lt (not_le.mp hgt)] at h
  exact absurd h (Nat.not_lt_zero _)

theorem anchor_lt_iff (hpos : WEIGHT_C < t * weight (faces 1)) :
    Rebalance.anchor nReal wReal faces t + 1 < 2 ^ 32 ↔
      nReal * WEIGHT_C < t * wReal + (2 ^ 32 - 1) * (t * weight (faces 1) - WEIGHT_C) := by
  have hden : 0 < t * weight (faces 1) - WEIGHT_C := Nat.sub_pos_of_lt hpos
  rw [← Nat.lt_sub_iff_add_lt, Rebalance.anchor, Nat.div_lt_iff_lt_mul hden]
  generalize t * weight (faces 1) - WEIGHT_C = den at hden ⊢
  omega

theorem weighed_anchor_lt (hpos : WEIGHT_C < t * weight (faces 1)) (ht : t < 2 ^ 64)
    (hn : nReal ≤ FENWICK_CAPACITY) (hanchor : Rebalance.anchor nReal wReal faces t + 1 < 2 ^ 32)
    (htotal : t * (wReal + weight (faces 0) + weight (faces 1) + weight (faces 2)) < 2 ^ 128) :
    t * Rebalance.weighed wReal (Rebalance.faceWeights faces)
      ![1, Rebalance.anchor nReal wReal faces t + 1, 1] < 2 ^ 128 := by
  have hden : 0 < t * weight (faces 1) - WEIGHT_C := Nat.sub_pos_of_lt hpos
  obtain ⟨b, hb⟩ : ∃ b, Rebalance.anchor nReal wReal faces t = b := ⟨_, rfl⟩
  rw [hb] at hanchor ⊢
  have hweighed : t * Rebalance.weighed wReal (Rebalance.faceWeights faces) ![1, b + 1, 1]
      = t * (wReal + weight (faces 0) + weight (faces 1) + weight (faces 2))
        + t * weight (faces 1) * b := by
    show t * (wReal + weight (faces 0) * 1 + weight (faces 1) * (b + 1) + weight (faces 2) * 1) = _
    ring
  rw [hweighed]
  by_cases hshort : nReal * WEIGHT_C ≤ t * wReal
  · have hzero : b = 0 := by
      rw [← hb, Rebalance.anchor, Nat.sub_eq_zero_of_le hshort, Nat.zero_div]
    rw [hzero, Nat.mul_zero]
    exact htotal
  · have hanchored : b * (t * weight (faces 1) - WEIGHT_C) ≤ nReal * WEIGHT_C - t * wReal := by
      rw [← hb]
      exact Nat.div_mul_le_self _ _
    have hblanks : t * weight (faces 1) * b
        = b * (t * weight (faces 1) - WEIGHT_C) + b * WEIGHT_C := by
      rw [← Nat.mul_add, Nat.sub_add_cancel hpos.le, Nat.mul_comm]
    have hfaces : t * (weight (faces 0) + weight (faces 1) + weight (faces 2))
        ≤ 2 ^ 64 * (3 * WEIGHT_C) := by
      refine Nat.mul_le_mul ht.le ?_
      have h0 := weight_le (faces 0)
      have h1 := weight_le (faces 1)
      have h2 := weight_le (faces 2)
      omega
    have hsplit : t * (wReal + weight (faces 0) + weight (faces 1) + weight (faces 2))
        = t * wReal + t * (weight (faces 0) + weight (faces 1) + weight (faces 2)) := by ring
    have hset : nReal * WEIGHT_C ≤ FENWICK_CAPACITY * WEIGHT_C := Nat.mul_le_mul_right _ hn
    have hwide : b * WEIGHT_C ≤ 2 ^ 32 * WEIGHT_C := Nat.mul_le_mul_right _ (by omega)
    rw [hsplit, hblanks]
    have hC : FENWICK_CAPACITY * WEIGHT_C + 2 ^ 32 * WEIGHT_C + 2 ^ 64 * (3 * WEIGHT_C) < 2 ^ 128 := by
      decide
    omega

/-- The parameters both validations read, as `init_pool` receives them. -/
def PoolConfigArgs.effective (args : PoolConfigArgs) : EffectiveConfig where
  price := args.price
  ticketTarget := args.ticketTarget
  fee := args.fee
  allocEqualBps := args.allocEqualBps
  allocTierBps := args.allocTierBps
  allocProtocolBps := args.allocProtocolBps
  admissionFloor := args.admissionFloor
  blankFaces := args.blankFaces
  maxN := args.maxN
  tierSize := args.tierSize

/-- Faces of `$1,500`, and a ticket target one unit above them. -/
def steepArgs (treasury03 : Pubkey) : PoolConfigArgs :=
  { defaultArgs treasury03 with
    price := 1500900001
    ticketTarget := 1500000001
    admissionFloor := 2000000000
    blankFaces := ![1500000000, 1500000000, 1500000000] }

/-- Over an accepted configuration the controller serves a real set exactly within its bounds. -/
theorem controllerServes_iff (haccepted : AcceptedFaces faces t) (ht : t < 2 ^ 64)
    (hn : nReal ≤ FENWICK_CAPACITY) (hw : wReal < 2 ^ 64) :
    ControllerServes nReal wReal faces t ↔ ControllerBounded nReal wReal faces t := by
  have hbelow := haccepted.below
  constructor
  · rintro ⟨⟨b, total, hevaluate, -⟩, houtweighs⟩
    have hgap : ∀ d, WEIGHT_C < t * weight (faces d) := fun d => by
      obtain ⟨w, hw, hlt⟩ := houtweighs d
      obtain ⟨-, -, rfl⟩ := weightOf_ok.mp hw
      exact hlt
    refine ⟨fun d => (outweighs_iff (hbelow d).1 (hbelow d).2).mp (hgap d), fun hne => ?_,
      fun hne => ?_⟩ <;>
    obtain ⟨-, -, -, -, -, hfits⟩ :=
      (Rebalance.evaluate_succeeds (Nat.pos_of_ne_zero hne)).mp ⟨b, hevaluate⟩
    · exact (anchor_lt_iff (hgap 1)).mp (hfits.narrow 1)
    · refine lt_of_le_of_lt (Nat.mul_le_mul_left t ?_) hfits.weighed
      show _ ≤ wReal + weight (faces 0) * 1
        + weight (faces 1) * (Rebalance.anchor nReal wReal faces t + 1) + weight (faces 2) * 1
      simp only [Nat.mul_one]
      have hone := Nat.le_mul_of_pos_right (weight (faces 1))
        (Nat.succ_pos (Rebalance.anchor nReal wReal faces t))
      simp only [Nat.succ_eq_add_one] at hone
      unfold weight at *
      omega
  · rintro ⟨hremainder, hanchor, htotal⟩
    have hgap : ∀ d, WEIGHT_C < t * weight (faces d) := fun d =>
      (outweighs_iff (hbelow d).1 (hbelow d).2).mpr (hremainder d)
    have hfaces : ∀ d, 0 < faces d ∧ faces d ≤ WEIGHT_C := fun d =>
      ⟨(hbelow d).1, face_le_of_outweighs (hgap d)⟩
    refine ⟨?_, fun d => ⟨_, weightOf_ok.mpr ⟨(hfaces d).1, (hfaces d).2, rfl⟩, hgap d⟩⟩
    obtain ⟨b, hevaluate⟩ : ∃ b, Rebalance.evaluate nReal wReal faces t = .ok b := by
      obtain rfl | hpos := Nat.eq_zero_or_pos nReal
      · exact ⟨_, Rebalance.evaluate_empty⟩
      · have hnarrow := (anchor_lt_iff (hgap 1)).mpr (hanchor hpos.ne')
        have hproducts : nReal * WEIGHT_C < 2 ^ 128 ∧ t * wReal < 2 ^ 128 ∧
            t * weight (faces 1) < 2 ^ 128 := by
          refine ⟨lt_of_le_of_lt (Nat.mul_le_mul_right _ hn) (by decide), ?_, ?_⟩
          · exact lt_of_lt_of_le (Nat.mul_lt_mul'' ht hw) (by decide)
          · exact lt_of_lt_of_le (Nat.mul_lt_mul'' ht (weight_lt _)) (by decide)
        refine (Rebalance.evaluate_succeeds hpos).mpr ⟨hfaces, hproducts.1, hproducts.2.1,
          hproducts.2.2, hgap 1, ?_, ?_, ?_⟩
        · exact Fin.forall_fin_succ.mpr ⟨Nat.one_lt_two_pow (by decide),
            Fin.forall_fin_two.mpr ⟨hnarrow, Nat.one_lt_two_pow (by decide)⟩⟩
        · exact weighed_anchor_lt (hgap 1) ht hn hnarrow (htotal hpos.ne')
        · show WEIGHT_C * (nReal + 1 + (Rebalance.anchor nReal wReal faces t + 1) + 1) < 2 ^ 128
          have hcount : nReal + 1 + (Rebalance.anchor nReal wReal faces t + 1) + 1 ≤ 2 ^ 33 := by
            unfold FENWICK_CAPACITY at hn
            omega
          exact lt_of_le_of_lt (Nat.mul_le_mul_left _ hcount) (by decide)
    refine ⟨b, _, hevaluate, aggregateWeight_ok.mpr ⟨hfaces, ?_, rfl⟩⟩
    refine lt_of_le_of_lt ?_ (show 2 ^ 64 + WEIGHT_C * 2 ^ 32 + WEIGHT_C * 2 ^ 32
      + WEIGHT_C * 2 ^ 32 < 2 ^ 128 by decide)
    have hproduct : ∀ d, weight (faces d) * b.toBlanks d ≤ WEIGHT_C * 2 ^ 32 := fun d =>
      Nat.mul_le_mul (weight_le _) (Rebalance.evaluate_narrow hevaluate d).le
    exact Nat.add_le_add (Nat.add_le_add (Nat.add_le_add hw.le (hproduct 0)) (hproduct 1))
      (hproduct 2)

/-- The default configuration serves a pool of one position at the admission floor. -/
theorem controllerServes_default :
    AcceptedFaces DEFAULT_BLANK_FACES DEFAULT_TICKET_TARGET ∧
      (ControllerServes 1 (weight DEFAULT_ADMISSION_FLOOR) DEFAULT_BLANK_FACES
          DEFAULT_TICKET_TARGET ↔
        ControllerBounded 1 (weight DEFAULT_ADMISSION_FLOOR) DEFAULT_BLANK_FACES
          DEFAULT_TICKET_TARGET) := by
  have haccepted : AcceptedFaces DEFAULT_BLANK_FACES DEFAULT_TICKET_TARGET :=
    .inl ⟨defaultArgs .default, by decide +kernel, rfl, rfl⟩
  exact ⟨haccepted, controllerServes_iff haccepted (by decide) (by decide) (by decide +kernel)⟩

/-- Both validations accept faces a unit below the target, and the controller then fails over a
single position at the admission floor. -/
theorem controller_refuses_accepted :
    validateConfig (steepArgs .default) = .ok () ∧
      validate (steepArgs .default).effective = .ok () ∧
      Rebalance.evaluate 1 (weight 2000000000) (steepArgs .default).blankFaces
        (steepArgs .default).ticketTarget = .error (.program .arithmeticFailure) ∧
      ¬ControllerServes 1 (weight 2000000000) (steepArgs .default).blankFaces
        (steepArgs .default).ticketTarget := by
  have hrefused : Rebalance.evaluate 1 (weight 2000000000) (steepArgs .default).blankFaces
      (steepArgs .default).ticketTarget = .error (.program .arithmeticFailure) := by
    decide +kernel
  refine ⟨by decide +kernel, by decide +kernel, hrefused, fun hserves => ?_⟩
  obtain ⟨b, total, hevaluate, -⟩ := hserves.answers
  rw [hrefused] at hevaluate
  cases hevaluate

end ByeMachine
