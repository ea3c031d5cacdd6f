import ByeMachine.Ledger

/-!
# The accounting steps

A position leaves the weighted set by a withdrawal, by a re-attestation below
the floor, or by a seizure. What the three accountings ask and write, over what
they share; and what a re-attestation that keeps its position writes.
-/

namespace ByeMachine

open Fallible

def Position.tierLeg (p : Position) (accTier : ℕ) : ℕ :=
  if p.inTier then pendingFees accTier p.tierCheckpoint else 0

def Position.tierStamp (p : Position) (accTier : ℕ) : ℕ :=
  if p.inTier then accTier else p.tierCheckpoint

/-- What a position is owed when it departs: its equal leg, its tier leg while it is a member, and
what was settled before. -/
def Position.legs (p : Position) (accEqual accTier : ℕ) : ℕ :=
  pendingFees accEqual p.equalCheckpoint + (p.tierLeg accTier + p.accrued)

variable {pool : Pool} {p : Position} {stats : WalletStats} {accTier : ℕ} {now : ℤ}

theorem narrowExpectedTotal_ok {wReal total : ℕ} :
    WeightIndex.narrowExpectedTotal wReal = .ok total ↔ wReal < 2 ^ 64 ∧ total = wReal := by
  simp only [WeightIndex.narrowExpectedTotal, okOr_ok, Checked.narrow_some]

theorem assertWeightOpen_ok {u : Unit} : assertWeightOpen pool = .ok u ↔ pool.openBatches = 0 :=
  require_ok

-- ---------------------------------------------------------------------------
-- withdraw
-- ---------------------------------------------------------------------------

theorem settleTierLeg_ok {carried stamp : ℕ} :
    settleTierLeg p accTier = .ok (carried, stamp) ↔
      (p.inTier = true → p.tierCheckpoint ≤ accTier ∧ p.tierLeg accTier + p.accrued < 2 ^ 64) ∧
        carried = p.tierLeg accTier + p.accrued ∧ stamp = p.tierStamp accTier := by
  cases hin : p.inTier with
  | false =>
    simp only [settleTierLeg, Position.tierLeg, Position.tierStamp, hin, Bool.false_eq_true,
      if_false, pure_ok, Prod.mk.injEq, zero_add, false_implies, true_and]
    rw [eq_comm, eq_comm (a := p.tierCheckpoint)]
  | true =>
    simp only [settleTierLeg, Position.tierLeg, Position.tierStamp, hin, if_true, bind_ok,
      positionFeePayout_ok, pure_ok, Prod.mk.injEq, true_implies]
    constructor
    · rintro ⟨_, ⟨hle, hlt, rfl⟩, rfl, rfl⟩
      exact ⟨⟨hle, hlt⟩, rfl, rfl⟩
    · rintro ⟨⟨hle, hlt⟩, rfl, rfl⟩
      exact ⟨_, ⟨hle, hlt, rfl⟩, rfl, rfl⟩

/-- What `apply_withdraw` leaves. -/
def withdrawn (pool : Pool) (p : Position) (stats : WalletStats) (accTier : ℕ)
    (targets : BlankTargets) : Booked WithdrawEffect where
  pool := { pool.without p.recordedValue targets with
    owedFees := pool.owedFees - p.legs pool.accEqual accTier }
  position := { p with
    tierCheckpoint := p.tierStamp accTier, equalCheckpoint := pool.accEqual, accrued := 0 }
  walletStats := stats.without p.recordedValue
  effect := {
    feesPaid := p.legs pool.accEqual accTier, recordedValue := p.recordedValue
    slotIndex := p.slotIndex, expectedTotal := pool.wReal - weight p.recordedValue
    blanksBefore := pool.blanks, wasMember := p.inTier }

theorem applyWithdraw_ok {booked : Booked WithdrawEffect} :
    applyWithdraw pool p stats accTier now = .ok booked ↔
      ∃ targets, DepartsFrom pool p stats targets ∧ p.lockUntil ≤ now ∧
        (p.inTier = true → p.tierCheckpoint ≤ accTier) ∧
        p.legs pool.accEqual accTier < 2 ^ 64 ∧ p.legs pool.accEqual accTier ≤ pool.owedFees ∧
        booked = withdrawn pool p stats accTier targets := by
  simp only [applyWithdraw, bind_ok, require_ok, assertWeightOpen_ok, orArithmeticFailure_ok,
    Checked.sub_some, weightOf_ok, positionFeePayout_ok, narrowExpectedTotal_ok, pure_ok,
    Prod.exists, settleTierLeg_ok]
  constructor
  · rintro ⟨-, hopen, -, hactive, -, hlock, _, _, ⟨htier, rfl, rfl⟩, _, ⟨hle, hlt, rfl⟩, _,
      ⟨howed, rfl⟩, _, ⟨h0, hC, rfl⟩, _, ⟨hw, rfl⟩, _, ⟨hn, rfl⟩, _, ⟨hc, rfl⟩, _, ⟨hv, rfl⟩,
      targets, ht, _, ⟨hfits, rfl⟩, rfl⟩
    exact ⟨targets, ⟨hopen, hactive, ⟨h0, hC⟩, hle, hw, hn, hc, hv, ht, hfits⟩, hlock,
      fun hin => (htier hin).1, hlt, howed, rfl⟩
  · rintro ⟨targets, ⟨hopen, hactive, ⟨h0, hC⟩, hle, hw, hn, hc, hv, ht, hfits⟩, hlock, htier, hlt,
      howed, rfl⟩
    have hcarried : p.tierLeg accTier + p.accrued < 2 ^ 64 := (Nat.le_add_left _ _).trans_lt hlt
    exact ⟨(), hopen, (), hactive, (), hlock, _, _, ⟨fun hin => ⟨htier hin, hcarried⟩, rfl, rfl⟩, _,
      ⟨hle, hlt, rfl⟩, _, ⟨howed, rfl⟩, _, ⟨h0, hC, rfl⟩, _, ⟨hw, rfl⟩, _, ⟨hn, rfl⟩, _,
      ⟨hc, rfl⟩, _, ⟨hv, rfl⟩, targets, ht, _, ⟨hfits, rfl⟩, rfl⟩

-- ---------------------------------------------------------------------------
-- close_seized
-- ---------------------------------------------------------------------------

/-- What `depart_weight` leaves. -/
def departed (pool : Pool) (p : Position) (stats : WalletStats) (targets : BlankTargets) :
    Booked WeightDeparture where
  pool := pool.without p.recordedValue targets
  position := p.departed p.state pool.accEqual
  walletStats := stats.without p.recordedValue
  effect := {
    slotIndex := p.slotIndex, recordedValue := p.recordedValue
    expectedTotal := pool.wReal - weight p.recordedValue
    blanksBefore := pool.blanks, wasMember := p.inTier }

theorem departWeight_ok {booked : Booked WeightDeparture} (hopen : pool.openBatches = 0)
    (hactive : p.state = .active) :
    departWeight pool p stats = .ok booked ↔
      ∃ targets, DepartsFrom pool p stats targets ∧
        pendingFees pool.accEqual p.equalCheckpoint + p.accrued < 2 ^ 64 ∧
        booked = departed pool p stats targets := by
  simp only [departWeight, bind_ok, orArithmeticFailure_ok, Checked.sub_some, weightOf_ok,
    positionFeePayout_ok, narrowExpectedTotal_ok, pure_ok]
  constructor
  · rintro ⟨_, ⟨hle, hlt, rfl⟩, _, ⟨h0, hC, rfl⟩, _, ⟨hw, rfl⟩, _, ⟨hn, rfl⟩, _, ⟨hc, rfl⟩, _,
      ⟨hv, rfl⟩, targets, ht, _, ⟨hfits, rfl⟩, rfl⟩
    exact ⟨targets, ⟨hopen, hactive, ⟨h0, hC⟩, hle, hw, hn, hc, hv, ht, hfits⟩, hlt, rfl⟩
  · rintro ⟨targets, ⟨-, -, ⟨h0, hC⟩, hle, hw, hn, hc, hv, ht, hfits⟩, hlt, rfl⟩
    exact ⟨_, ⟨hle, hlt, rfl⟩, _, ⟨h0, hC, rfl⟩, _, ⟨hw, rfl⟩, _, ⟨hn, rfl⟩, _, ⟨hc, rfl⟩, _,
      ⟨hv, rfl⟩, targets, ht, _, ⟨hfits, rfl⟩, rfl⟩

theorem applyCloseSeized_active {kind : SeizureKind} {booked : Booked SeizeEffect}
    (hactive : p.state = .active) (h : applyCloseSeized pool p stats kind now = .ok booked) :
    ∃ targets, DepartsFrom pool p stats targets ∧
      pendingFees pool.accEqual p.equalCheckpoint + p.accrued < 2 ^ 64 ∧
      booked.pool = pool.without p.recordedValue targets ∧
      booked.position = p.departed .seized pool.accEqual ∧
      booked.walletStats = stats.without p.recordedValue ∧
      booked.effect = ⟨.active, p.recordedValue, some (departed pool p stats targets).effect⟩ := by
  simp only [applyCloseSeized, seizeRow, hactive, bind_ok, pure_ok, assertWeightOpen_ok] at h
  obtain ⟨_, ⟨-, -, -, hopen, row, hdepart, rfl⟩, rfl⟩ := h
  obtain ⟨targets, hfrom, hlt, rfl⟩ := (departWeight_ok hopen hactive).mp hdepart
  exact ⟨targets, hfrom, hlt, rfl, rfl, rfl, rfl⟩

theorem applyCloseSeized_inactive {kind : SeizureKind} {booked : Booked SeizeEffect}
    (hactive : p.state ≠ .active) (h : applyCloseSeized pool p stats kind now = .ok booked) :
    booked.pool = pool ∧ booked.position = { p with state := .seized } ∧
      booked.walletStats = stats ∧ booked.effect = ⟨p.state, p.recordedValue, none⟩ := by
  simp only [applyCloseSeized, bind_ok, pure_ok] at h
  obtain ⟨row, hrow, rfl⟩ := h
  cases hstate : p.state with
  | active => exact absurd hstate hactive
  | seized =>
    simp only [seizeRow, hstate, throw_ok] at hrow
  | pending | rejected | closedBelowFloor =>
    simp only [seizeRow, hstate, pure_ok] at hrow
    obtain rfl := hrow
    exact ⟨rfl, rfl, rfl, rfl⟩

-- ---------------------------------------------------------------------------
-- record_value
-- ---------------------------------------------------------------------------

/-- What a re-attestation asks before it classifies the value. -/
structure Revalues (pool : Pool) (p : Position) (value : ℕ) : Prop where
  sweep : pool.sweepPending = true
  opened : pool.openBatches = 0
  active : p.state = .active
  positive : 0 < value

theorem moveWReal_some {wReal wReal' old value : ℕ} :
    moveWReal wReal old (some value) = .ok wReal' →
      (0 < old ∧ old ≤ WEIGHT_C) ∧ (0 < value ∧ value ≤ WEIGHT_C) ∧
        wReal' + weight old = wReal + weight value := by
  simp only [moveWReal, weightOrZero, bind_ok, weightOf_ok]
  rintro ⟨_, ⟨h0, hC, rfl⟩, _, ⟨h0', hC', rfl⟩, h⟩
  refine ⟨⟨h0, hC⟩, ⟨h0', hC'⟩, ?_⟩
  by_cases hle : weight old ≤ weight value
  · rw [Checked.sub_of_le hle] at h
    simp only [orArithmeticFailure_ok, Checked.add_some] at h
    omega
  · rw [Checked.sub_of_not_le hle] at h
    simp only [orArithmeticFailure_ok, Checked.sub_some] at h
    omega

theorem moveWReal_none {wReal wReal' old : ℕ} :
    moveWReal wReal old none = .ok wReal' ↔
      (0 < old ∧ old ≤ WEIGHT_C) ∧ weight old ≤ wReal ∧ wReal' = wReal - weight old := by
  simp only [moveWReal, weightOrZero, bind_ok, weightOf_ok, pure_ok, exists_eq_left']
  constructor
  · rintro ⟨_, ⟨h0, hC, rfl⟩, h⟩
    have hpos := weight_pos h0 hC
    rw [Checked.sub_of_not_le (by omega)] at h
    simp only [orArithmeticFailure_ok, Checked.sub_some, Nat.sub_zero] at h
    exact ⟨⟨h0, hC⟩, h⟩
  · rintro ⟨⟨h0, hC⟩, hle, rfl⟩
    have hpos := weight_pos h0 hC
    refine ⟨_, ⟨h0, hC, rfl⟩, ?_⟩
    rw [Checked.sub_of_not_le (by omega)]
    simp only [orArithmeticFailure_ok, Checked.sub_some, Nat.sub_zero]
    exact ⟨hle, trivial⟩

theorem moveActiveValue_some {activeValue activeValue' old value : ℕ}
    (h : moveActiveValue activeValue old (some value) = .ok activeValue') :
    activeValue' + old = activeValue + value := by
  simp only [moveActiveValue, Option.getD_some, orArithmeticFailure_ok] at h
  by_cases hle : old ≤ value
  · rw [Checked.sub_of_le hle] at h
    simp only [Checked.add_some] at h
    omega
  · rw [Checked.sub_of_not_le hle] at h
    simp only [Checked.sub_some] at h
    omega

theorem moveActiveValue_none {activeValue activeValue' old : ℕ} (hold : 0 < old) :
    moveActiveValue activeValue old none = .ok activeValue' ↔
      old ≤ activeValue ∧ activeValue' = activeValue - old := by
  simp only [moveActiveValue, Option.getD_none, orArithmeticFailure_ok]
  rw [Checked.sub_of_not_le (by omega)]
  simp only [Checked.sub_some, Nat.sub_zero]

/-- What `apply_record_value` leaves where it keeps the position. -/
def reattested (pool : Pool) (p : Position) (stats : WalletStats) (targets : BlankTargets)
    (wReal activeValue sweepUpdates value : ℕ) (observedAt now : ℤ) : Booked RecordEffect where
  pool := { pool.rebalanced pool.nReal wReal targets with sweepUpdates }
  position := p.revalued value observedAt
  walletStats := { stats with activeValue }
  effect := {
    outcome := classify value pool.admissionFloor p.lockUntil now, oldValue := p.recordedValue
    slotIndex := p.slotIndex, expectedTotal := wReal, blanksBefore := pool.blanks }

theorem applyRecordValue_kept {value : ℕ} {observedAt : ℤ} {booked : Booked RecordEffect}
    (h : applyRecordValue pool p stats value observedAt now = .ok booked)
    (hkept : classify value pool.admissionFloor p.lockUntil now ≠ .close) :
    ∃ targets wReal activeValue sweepUpdates, Revalues pool p value ∧
      wReal + weight p.recordedValue = pool.wReal + weight value ∧
      activeValue + p.recordedValue = stats.activeValue + value ∧
      Rebalance.evaluate pool.nReal wReal pool.blankFaces pool.ticketTarget = .ok targets ∧
      booked =
        reattested pool p stats targets wReal activeValue sweepUpdates value observedAt now := by
  simp only [applyRecordValue, bind_ok, require_ok, assertWeightOpen_ok, if_neg hkept, deactivate,
    pure_ok, Prod.exists, Prod.mk.injEq, narrowExpectedTotal_ok] at h
  obtain ⟨-, hsweep, -, hopen, -, hactive, -, hpositive, sweepUpdates, -, wReal, hwReal,
    activeValue, hvalue, _, _, _, ⟨rfl, rfl, rfl⟩, targets, htargets, _, ⟨-, rfl⟩, rfl⟩ := h
  exact ⟨targets, _, activeValue, sweepUpdates, ⟨hsweep, hopen, hactive, hpositive⟩,
    (moveWReal_some hwReal).2.2, moveActiveValue_some hvalue, htargets, rfl⟩

/-- What `apply_record_value` leaves where it closes the position. -/
def closedBelow (pool : Pool) (p : Position) (stats : WalletStats) (targets : BlankTargets)
    (sweepUpdates value : ℕ) (observedAt : ℤ) : Booked RecordEffect where
  pool := { pool.without p.recordedValue targets with sweepUpdates }
  position := (p.departed .closedBelowFloor pool.accEqual).revalued value observedAt
  walletStats := stats.without p.recordedValue
  effect := {
    outcome := .close, oldValue := p.recordedValue, slotIndex := p.slotIndex
    expectedTotal := pool.wReal - weight p.recordedValue, blanksBefore := pool.blanks }

theorem applyRecordValue_closed {value : ℕ} {observedAt : ℤ} {booked : Booked RecordEffect}
    (h : applyRecordValue pool p stats value observedAt now = .ok booked)
    (hclose : classify value pool.admissionFloor p.lockUntil now = .close) :
    ∃ targets sweepUpdates, Revalues pool p value ∧ DepartsFrom pool p stats targets ∧
      pendingFees pool.accEqual p.equalCheckpoint + p.accrued < 2 ^ 64 ∧
      booked = closedBelow pool p stats targets sweepUpdates value observedAt := by
  simp only [applyRecordValue, bind_ok, require_ok, assertWeightOpen_ok, hclose, if_true,
    deactivate, pure_ok, Prod.exists, Prod.mk.injEq, narrowExpectedTotal_ok, moveWReal_none,
    positionFeePayout_ok, orArithmeticFailure_ok, Checked.sub_some] at h
  obtain ⟨-, hsweep, -, hopen, -, hactive, -, hpositive, sweepUpdates, -, _, ⟨hattested, hw, rfl⟩,
    _, hvalue, _, _, _, ⟨_, ⟨hn, rfl⟩, _, ⟨hc, rfl⟩, _, ⟨hle, hlt, rfl⟩, rfl, rfl, rfl⟩, targets,
    htargets, _, ⟨hfits, rfl⟩, rfl⟩ := h
  obtain ⟨hv, rfl⟩ := (moveActiveValue_none hattested.1).mp hvalue
  exact ⟨targets, sweepUpdates, ⟨hsweep, hopen, hactive, hpositive⟩,
    ⟨hopen, hactive, hattested, hle, hw, hn, hc, hv, htargets, hfits⟩, hlt, rfl⟩

end ByeMachine
