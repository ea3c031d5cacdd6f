import ByeMachine.Invariants.Entitled
import ByeMachine.Invariants.Settlement
import ByeMachine.Script

/-!
# The three departures agree

A withdrawal, a close below the floor and the seizure of an active position
leave the same weight records and the same tier, and account for the same fees.
-/

namespace ByeMachine

open Fallible

structure Departure where
  pool : Pool
  position : Position
  walletStats : WalletStats
  weightIndex : WeightIndex
  topTier : TopTier

def vacateMember (wasMember : Bool) (topTier : TopTier) (positionKey : Pubkey)
    (position : Position) : Result (TopTier × Position) :=
  if wasMember then do
    let (topTier, position, _) ← Tier.vacate topTier positionKey position topTier.accTier
    pure (topTier, position)
  else pure (topTier, position)

def byWithdraw (a : Loaded) (positionKey : Pubkey) (now : ℤ) : Result (Departure × ℕ) := do
  let booked ← applyWithdraw a.pool a.position a.walletStats a.topTier.accTier now
  let effect := booked.effect
  let weightIndex ←
    a.weightIndex.remove effect.slotIndex effect.recordedValue effect.expectedTotal
  let (topTier, position) ← vacateMember effect.wasMember a.topTier positionKey booked.position
  pure (⟨booked.pool, position, booked.walletStats, weightIndex, topTier⟩, effect.feesPaid)

def byRecordValue (a : Loaded) (positionKey : Pubkey) (value : ℕ) (observedAt now : ℤ) :
    Result Departure := do
  let booked ← applyRecordValue a.pool a.position a.walletStats value observedAt now
  let weightIndex ← moveLeaf a.weightIndex booked.effect value
  let (topTier, position) ←
    vacateMember booked.position.inTier a.topTier positionKey booked.position
  pure ⟨booked.pool, position, booked.walletStats, weightIndex, topTier⟩

def byCloseSeized (a : Loaded) (positionKey : Pubkey) (kind : SeizureKind) (now : ℤ) :
    Result Departure := do
  let booked ← applyCloseSeized a.pool a.position a.walletStats kind now
  let (weightIndex, topTier, position, _) ←
    removeDeparted a.weightIndex a.topTier positionKey booked.position booked.effect.departure
  pure ⟨booked.pool, position, booked.walletStats, weightIndex, topTier⟩

/-- An active position departs in one of the three ways; what it earned is paid by a withdrawal,
and left on the position by the other two. -/
inductive DepartsBy (a : Loaded) (positionKey : Pubkey) : Departure → ℕ → Prop where
  | withdraw {d : Departure} {feesPaid : ℕ} {now : ℤ}
      (h : byWithdraw a positionKey now = .ok (d, feesPaid)) : DepartsBy a positionKey d feesPaid
  | close {d : Departure} {value : ℕ} {observedAt now : ℤ}
      (hclose : classify value a.pool.admissionFloor a.position.lockUntil now = .close)
      (h : byRecordValue a positionKey value observedAt now = .ok d) :
      DepartsBy a positionKey d d.position.accrued
  | seize {d : Departure} {kind : SeizureKind} {now : ℤ} (hactive : a.position.state = .active)
      (h : byCloseSeized a positionKey kind now = .ok d) :
      DepartsBy a positionKey d d.position.accrued

/-- The weight records and the tier of two departures are the same. -/
structure Departure.Agrees (d d' : Departure) : Prop where
  wReal : d'.pool.wReal = d.pool.wReal
  nReal : d'.pool.nReal = d.pool.nReal
  blanks : d'.pool.blanks = d.pool.blanks
  walletStats : d'.walletStats = d.walletStats
  weightIndex : d'.weightIndex = d.weightIndex
  topTier : d'.topTier = d.topTier

variable {a : Loaded} {k : Pubkey} {d d' : Departure} {earned earned' feesPaid : ℕ} {now : ℤ}

def LeavesTier (a : Loaded) (k : Pubkey) (t : TopTier) : Prop :=
  if a.position.inTier then ∃ removed, Tier.demote a.topTier k = .ok (t, some removed)
  else t = a.topTier

/-- What every departure leaves: the records without the position, and what it earned. -/
structure Leaves (a : Loaded) (k : Pubkey) (d : Departure) (earned : ℕ) : Prop where
  targets : ∃ targets, DepartsFrom a.pool a.position a.walletStats targets ∧
    d.pool.wReal = a.pool.wReal - weight a.position.recordedValue ∧
    d.pool.nReal = a.pool.nReal - 1 ∧ d.pool.blanks = targets.toBlanks
  walletStats : d.walletStats = a.walletStats.without a.position.recordedValue
  weightIndex : a.weightIndex.remove a.position.slotIndex a.position.recordedValue
    (a.pool.wReal - weight a.position.recordedValue) = .ok d.weightIndex
  topTier : LeavesTier a k d.topTier
  earned : earned = a.position.legs a.pool.accEqual a.topTier.accTier

theorem vacateMember_ok {p p' : Position} {t : TopTier}
    (h : vacateMember a.position.inTier a.topTier k p = .ok (t, p')) :
    LeavesTier a k t ∧ (a.position.inTier = true → p' = p.leftTier a.topTier.accTier) ∧
      (a.position.inTier = false → p' = p) := by
  cases hin : a.position.inTier with
  | false =>
    simp only [vacateMember, hin, Bool.false_eq_true, if_false, pure_ok, Prod.mk.injEq] at h
    obtain ⟨rfl, rfl⟩ := h
    exact ⟨by simp [LeavesTier, hin], by simp, fun _ => rfl⟩
  | true =>
    simp only [vacateMember, hin, if_true, bind_ok, pure_ok, Prod.mk.injEq, Prod.exists,
      Tier.vacate, okOr_ok, Tier.settleMember_ok] at h
    obtain ⟨_, _, _, ⟨_, _, hdemote, _, rfl, _, ⟨-, -, rfl⟩, rfl, rfl, -⟩, rfl, rfl⟩ := h
    exact ⟨by rw [LeavesTier, if_pos hin]; exact ⟨_, hdemote⟩, fun _ => rfl, by simp⟩

theorem accrued_of_vacated {p p' : Position} {t : TopTier}
    (h : vacateMember a.position.inTier a.topTier k p = .ok (t, p'))
    (hcheckpoint : p.tierCheckpoint = a.position.tierCheckpoint)
    (haccrued : p.accrued = a.position.equalOwed a.pool.accEqual) :
    p'.accrued = a.position.legs a.pool.accEqual a.topTier.accTier := by
  obtain ⟨-, hmember, hother⟩ := vacateMember_ok h
  cases hin : a.position.inTier with
  | false => rw [hother hin, haccrued, Position.legs_out hin]
  | true =>
    rw [hmember hin, Position.legs, Position.tierLeg_in hin]
    show pendingFees a.topTier.accTier p.tierCheckpoint + p.accrued = _
    rw [hcheckpoint, haccrued, Position.equalOwed]
    omega

theorem byWithdraw_leaves (h : byWithdraw a k now = .ok (d, feesPaid)) :
    Leaves a k d feesPaid ∧ d.position.accrued = 0 := by
  simp only [byWithdraw, bind_ok, pure_ok, Prod.mk.injEq, Prod.exists, applyWithdraw_ok] at h
  obtain ⟨_, ⟨targets, hfrom, -, -, -, -, rfl⟩, index, hindex, t, p', hvacate, rfl, rfl⟩ := h
  obtain ⟨hleaves, hmember, hother⟩ := vacateMember_ok hvacate
  refine ⟨⟨⟨targets, hfrom, rfl, rfl, rfl⟩, rfl, hindex, hleaves, rfl⟩, ?_⟩
  cases hin : a.position.inTier with
  | false => rw [hother hin]; rfl
  | true =>
    -- The accounting stamped the tier checkpoint, so there is nothing left to settle.
    rw [hmember hin]
    show pendingFees a.topTier.accTier (a.position.tierStamp a.topTier.accTier) + 0 = 0
    rw [Position.tierStamp, if_pos hin, pendingFees_self]

theorem byRecordValue_leaves {value : ℕ} {observedAt : ℤ}
    (hclose : classify value a.pool.admissionFloor a.position.lockUntil now = .close)
    (h : byRecordValue a k value observedAt now = .ok d) : Leaves a k d d.position.accrued := by
  simp only [byRecordValue, bind_ok, pure_ok, Prod.exists] at h
  obtain ⟨booked, hbooked, index, hindex, t, p', hvacate, rfl⟩ := h
  obtain ⟨targets, sweepUpdates, -, hfrom, -, rfl⟩ := applyRecordValue_closed hbooked hclose
  exact ⟨⟨targets, hfrom, rfl, rfl, rfl⟩, rfl, hindex, (vacateMember_ok hvacate).1,
    accrued_of_vacated hvacate rfl rfl⟩

theorem byCloseSeized_leaves {kind : SeizureKind} (hactive : a.position.state = .active)
    (h : byCloseSeized a k kind now = .ok d) : Leaves a k d d.position.accrued := by
  simp only [byCloseSeized, bind_ok, pure_ok, Prod.exists] at h
  obtain ⟨booked, hbooked, index, t, p', change, hremove, rfl⟩ := h
  obtain ⟨targets, hfrom, -, hpool, hposition, hstats, heffect⟩ :=
    applyCloseSeized_active hactive hbooked
  rw [heffect, hposition] at hremove
  simp only [removeDeparted, bind_ok, pure_ok, Prod.mk.injEq, Prod.exists] at hremove
  obtain ⟨_, hindex, t₁, p₁, _, hdeparted, rfl, rfl, rfl, -⟩ := hremove
  have hvacate : vacateMember a.position.inTier a.topTier k
      (a.position.departed .seized a.pool.accEqual) = .ok (t₁, p₁) := by
    cases hin : a.position.inTier with
    | false =>
      simp only [departed, vacateDeparted, hin, Bool.false_eq_true, if_false, pure_ok,
        Prod.mk.injEq] at hdeparted
      obtain ⟨rfl, rfl, -⟩ := hdeparted
      rfl
    | true =>
      simp only [departed, vacateDeparted, hin, if_true, bind_ok, pure_ok, Prod.mk.injEq,
        Prod.exists] at hdeparted
      obtain ⟨_, _, removed, hvacated, rfl, rfl, -⟩ := hdeparted
      simp only [vacateMember, if_true, bind_ok, pure_ok, Prod.exists]
      exact ⟨_, _, removed, hvacated, rfl⟩
  exact ⟨⟨targets, hfrom, by rw [hpool]; rfl, by rw [hpool]; rfl, by rw [hpool]; rfl⟩, hstats,
    hindex, (vacateMember_ok hvacate).1, accrued_of_vacated hvacate rfl rfl⟩

theorem DepartsBy.leaves (h : DepartsBy a k d earned) : Leaves a k d earned := by
  cases h with
  | withdraw h => exact (byWithdraw_leaves h).1
  | close hclose h => exact byRecordValue_leaves hclose h
  | seize hactive h => exact byCloseSeized_leaves hactive h

theorem Leaves.agrees (h : Leaves a k d earned) (h' : Leaves a k d' earned') : d.Agrees d' := by
  obtain ⟨targets, hfrom, hw, hn, hb⟩ := h.targets
  obtain ⟨targets', hfrom', hw', hn', hb'⟩ := h'.targets
  obtain rfl := Except.ok.inj (hfrom.targets.symm.trans hfrom'.targets)
  refine ⟨hw'.trans hw.symm, hn'.trans hn.symm, hb'.trans hb.symm,
    h'.walletStats.trans h.walletStats.symm,
    (Except.ok.inj (h.weightIndex.symm.trans h'.weightIndex)).symm, ?_⟩
  have htier := h.topTier
  have htier' := h'.topTier
  cases hin : a.position.inTier with
  | false =>
    rw [LeavesTier, if_neg (by simp [hin])] at htier htier'
    rw [htier, htier']
  | true =>
    rw [LeavesTier, if_pos hin] at htier htier'
    obtain ⟨removed, hdemote⟩ := htier
    obtain ⟨removed', hdemote'⟩ := htier'
    exact (Prod.mk.inj (Except.ok.inj (hdemote'.symm.trans hdemote))).1

/-- However an active position departs, the records and the tier it leaves are the same, and so is
what it earned: each leg once, the tier leg for a member alone. Nothing is left to settle on a
withdrawn one. -/
theorem departures_agree (h : DepartsBy a k d earned) (h' : DepartsBy a k d' earned') :
    d.Agrees d' ∧ earned' = earned ∧
      earned = a.position.accrued + pendingFees a.pool.accEqual a.position.equalCheckpoint +
        (if a.position.inTier then pendingFees a.topTier.accTier a.position.tierCheckpoint else 0) ∧
      ∀ now d feesPaid, byWithdraw a k now = .ok (d, feesPaid) → d.position.accrued = 0 := by
  have hleaves := h.leaves
  have hleaves' := h'.leaves
  refine ⟨hleaves.agrees hleaves', hleaves'.earned.trans hleaves.earned.symm, ?_,
    fun now d feesPaid hwithdraw => (byWithdraw_leaves hwithdraw).2⟩
  rw [hleaves.earned, Position.legs, Position.tierLeg]
  omega

/-- A sweep over two members with both legs accrued. -/
def bankSwept : Chain :=
  (bankRun [admitCards, depositCard 30, depositCard 31, approveCard 30 12000000 100,
    approveCard 31 15000000 100, (⟨3, 3⟩, .beginSweep (.key 2) (.pool 0))]).settle (.pool 0)
      ⟨5 * ACC_PRECISION, 3 * ACC_PRECISION, 16, 0, 0⟩

theorem departures_agree_bank :
    ∃ a withdrawn closed seized, loadThroughPool bankSwept (.pool 0) (bankPosition 30) = .ok a ∧
      DepartsBy a (bankPosition 30) withdrawn 8 ∧
      DepartsBy a (bankPosition 30) closed 8 ∧ withdrawn.Agrees closed ∧
      DepartsBy a (bankPosition 30) seized 8 ∧ withdrawn.Agrees seized := by
  have hruns : (loadThroughPool bankSwept (.pool 0) (bankPosition 30)).toOption.map (fun a =>
      ((byWithdraw a (bankPosition 30) 100).toOption.map (·.2),
        (byRecordValue a (bankPosition 30) 4000000 99 100).isOk,
        (byCloseSeized a (bankPosition 30) .transferred 100).isOk,
        classify 4000000 a.pool.admissionFloor a.position.lockUntil 100, a.position.state))
      = some (some 8, true, true, .close, .active) := by decide +kernel
  obtain ⟨a, hload, hruns⟩ := Option.map_eq_some_iff.mp hruns
  simp only [Prod.mk.injEq, Option.map_eq_some_iff] at hruns
  obtain ⟨⟨⟨withdrawn, feesPaid⟩, hwithdraw, rfl⟩, hclosed, hseized, hclassify, hactive⟩ := hruns
  obtain ⟨closed, hclosed⟩ := isOk_iff.mp hclosed
  obtain ⟨seized, hseized⟩ := isOk_iff.mp hseized
  have hwithdrawn := DepartsBy.withdraw (toOption_eq_some.mp hwithdraw)
  obtain ⟨hagrees, hearned, -⟩ := departures_agree hwithdrawn (.close hclassify hclosed)
  obtain ⟨hagrees', hearned', -⟩ := departures_agree hwithdrawn (.seize hactive hseized)
  exact ⟨a, withdrawn, closed, seized, toOption_eq_some.mp hload, hwithdrawn,
    hearned ▸ .close hclassify hclosed, hagrees, hearned' ▸ .seize hactive hseized, hagrees'⟩

end ByeMachine
