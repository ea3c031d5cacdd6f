import ByeMachine.Refinement.Fate
import ByeMachine.Refinement.TierLog

/-!
# What an instruction does to one membership

An instruction leaves a membership alone, starts one, or ends one, and it ends
one by crediting exactly the tier leg. No position leaves and comes back within
one instruction.
-/

namespace ByeMachine

open Fallible

def memberOf : Option Position → Bool
  | none => false
  | some p => p.inTier

/-- What a position earned of the fees, its tier leg apart. -/
def Position.equalEarned (p : Position) (accEqual : ℕ) : ℕ :=
  if p.state = .active then p.equalOwed accEqual else p.accrued

/-- What an instruction credited to a position beyond its equal leg. An active position that closes
is credited in its payout. -/
def tierCredit (accEqual paid : ℕ) : Option Position → Option Position → ℤ
  | some p, some p' => (p'.equalEarned accEqual : ℤ) - p.equalEarned accEqual
  | some p, none => if p.state = .active then (paid : ℤ) - p.equalEarned accEqual else 0
  | none, _ => 0

/-- What an instruction does to a membership, under the tier accumulator. -/
inductive TierFate (accEqual accTier paid : ℕ) : Option Position → Option Position → Prop where
  | outside {before after : Option Position} (hbefore : memberOf before = false)
      (hafter : memberOf after = false) (hcredit : tierCredit accEqual paid before after = 0) :
      TierFate accEqual accTier paid before after
  | enters {before : Option Position} {p : Position} (hbefore : memberOf before = false)
      (hin : p.inTier = true) (hstamp : p.tierCheckpoint = accTier)
      (hcredit : tierCredit accEqual paid before (some p) = 0) :
      TierFate accEqual accTier paid before (some p)
  | stays {p q : Position} (hin : p.inTier = true) (hin' : q.inTier = true)
      (hstamp : q.tierCheckpoint = p.tierCheckpoint)
      (hcredit : tierCredit accEqual paid (some p) (some q) = 0) :
      TierFate accEqual accTier paid (some p) (some q)
  | leaves {p : Position} {after : Option Position} (hin : p.inTier = true)
      (hafter : memberOf after = false) (hstamp : p.tierCheckpoint ≤ accTier)
      (hcredit : tierCredit accEqual paid (some p) after = pendingFees accTier p.tierCheckpoint) :
      TierFate accEqual accTier paid (some p) after

section

variable {accEqual accTier paid : ℕ} {p q : Position} {positions positions' : Positions}
  {key k : Pubkey} {remaining : List AccountMeta}

theorem equalEarned_active (h : p.state = .active) :
    p.equalEarned accEqual = p.equalOwed accEqual := if_pos h

theorem equalEarned_inactive (h : p.state ≠ .active) : p.equalEarned accEqual = p.accrued :=
  if_neg h

theorem equalEarned_departed {state : PositionState} (hactive : p.state = .active)
    (hafter : state ≠ .active) :
    (p.departed state accEqual).equalEarned accEqual = p.equalEarned accEqual := by
  rw [equalEarned_inactive (p := p.departed state accEqual) hafter, equalEarned_active hactive]
  rfl

theorem tierCredit_self (found : Option Position) : tierCredit accEqual paid found found = 0 := by
  cases found with
  | none => rfl
  | some p => simp [tierCredit]

theorem TierFate.refl (found : Option Position) : TierFate accEqual accTier paid found found := by
  cases hmember : memberOf found with
  | false => exact .outside hmember hmember (tierCredit_self found)
  | true =>
    cases found with
    | none => cases hmember
    | some p => exact .stays hmember hmember rfl (tierCredit_self (some p))

theorem TierFate.of_eq (hin : q.inTier = p.inTier) (hstamp : q.tierCheckpoint = p.tierCheckpoint)
    (hearned : q.equalEarned accEqual = p.equalEarned accEqual) :
    TierFate accEqual accTier paid (some p) (some q) := by
  have hcredit : tierCredit accEqual paid (some p) (some q) = 0 := by simp [tierCredit, hearned]
  cases hmember : p.inTier with
  | false => exact .outside hmember (hin.trans hmember) hcredit
  | true => exact .stays hmember (hin.trans hmember) hstamp hcredit

theorem equalEarned_entered : (p.entered accTier).equalEarned accEqual = p.equalEarned accEqual := rfl

theorem TierFate.of_entered (hout : p.inTier = false)
    (hearned : q.equalEarned accEqual = p.equalEarned accEqual) :
    TierFate accEqual accTier paid (some p) (some (q.entered accTier)) :=
  .enters hout rfl rfl (by simp [tierCredit, equalEarned_entered, hearned])

theorem TierFate.of_settled (hin : p.inTier = true) (hearned : q.equalEarned accEqual
      = pendingFees accTier p.tierCheckpoint + p.equalEarned accEqual)
    (hout : q.inTier = false) (hstamp : p.tierCheckpoint ≤ accTier) :
    TierFate accEqual accTier paid (some p) (some q) :=
  .leaves hin hout hstamp (by simp [tierCredit, hearned])

theorem equalEarned_leftTier : (p.leftTier accTier).equalEarned accEqual
    = pendingFees accTier p.tierCheckpoint + p.equalEarned accEqual := by
  by_cases hactive : p.state = .active
  · rw [equalEarned_active (p := p.leftTier accTier) hactive, equalEarned_active hactive]
    simp only [Position.equalOwed, Position.leftTier]
    omega
  · rw [equalEarned_inactive (p := p.leftTier accTier) hactive, equalEarned_inactive hactive]
    rfl

theorem TierFate.of_settleMember (hin : p.inTier = true)
    (h : Tier.settleMember p accTier = .ok q) :
    TierFate accEqual accTier paid (some p) (some q) := by
  obtain ⟨hstamp, -, rfl⟩ := Tier.settleMember_ok.mp h
  exact .of_settled hin equalEarned_leftTier rfl hstamp

end

-- ---------------------------------------------------------------------------
-- All memberships
-- ---------------------------------------------------------------------------

def TierFates (accEqual accTier paid : ℕ) (positions positions' : Positions) : Prop :=
  ∀ k, TierFate accEqual accTier paid (positions.lookup k) (positions'.lookup k)

section

variable {accEqual accTier paid : ℕ} {p q : Position} {positions positions' : Positions}
  {key k : Pubkey} {remaining : List AccountMeta} {c : Chain} {L : Ledger} {t' : TopTier}

theorem TierFates.refl (positions : Positions) :
    TierFates accEqual accTier paid positions positions := fun _ => .refl _

theorem TierFates.write (h : TierFates accEqual accTier paid positions positions')
    (hk : TierFate accEqual accTier paid (positions.lookup k) (some q)) :
    TierFates accEqual accTier paid positions (positions'.insert k q) := by
  intro x
  by_cases hx : x = k
  · subst hx
    rwa [Finmap.lookup_insert]
  · rw [Finmap.lookup_insert_of_ne _ hx]
    exact h x

theorem TierFates.erase (h : TierFates accEqual accTier paid positions positions')
    (hk : TierFate accEqual accTier paid (positions.lookup k) none) :
    TierFates accEqual accTier paid positions (positions'.erase k) := by
  intro x
  by_cases hx : x = k
  · subst hx
    rwa [Finmap.lookup_erase]
  · rw [Finmap.lookup_erase_ne hx]
    exact h x

/-- Nothing that a leg reads differs. -/
structure SameLegs (accEqual : ℕ) (p q : Position) : Prop where
  inTier : q.inTier = p.inTier
  stamp : q.tierCheckpoint = p.tierCheckpoint
  earned : q.equalEarned accEqual = p.equalEarned accEqual

theorem SameLegs.tierFate (h : SameLegs accEqual p q) :
    TierFate accEqual accTier paid (some p) (some q) := .of_eq h.inTier h.stamp h.earned

/-- A position whose legs stood still shares the fate of what it was written to. -/
theorem SameLegs.trans_fate {q' : Position} (h : SameLegs accEqual p q)
    (hfate : TierFate accEqual accTier paid (some q) (some q')) :
    TierFate accEqual accTier paid (some p) (some q') := by
  obtain ⟨hin, hstamp, hearned⟩ := h
  have hcredit : tierCredit accEqual paid (some p) (some q')
      = tierCredit accEqual paid (some q) (some q') := by simp [tierCredit, hearned]
  generalize hafter : some q' = after at hfate
  cases hfate with
  | outside hbefore hafter' hnone =>
    subst hafter
    exact .outside (hin.symm.trans hbefore) hafter' (hcredit.trans hnone)
  | enters hbefore hin' hstamp' hnone =>
    obtain rfl := Option.some.inj hafter
    exact .enters (hin.symm.trans hbefore) hin' hstamp' (hcredit.trans hnone)
  | stays hwas hin' hstamp' hnone =>
    obtain rfl := Option.some.inj hafter
    exact .stays (hin ▸ hwas) hin' (hstamp'.trans hstamp) (hcredit.trans hnone)
  | leaves hwas hout hle hsettled =>
    subst hafter
    exact .leaves (hin ▸ hwas) hout (hstamp ▸ hle) (hstamp ▸ hcredit.trans hsettled)

-- ---------------------------------------------------------------------------
-- The tier branches
-- ---------------------------------------------------------------------------

theorem Crossed.tierFates {tierSize : ℕ} {entry : TierEntry} {entered : Bool} (hL : c.Reads key L)
    (hranked : L.Ranked) (hsize : tierSize = L.pool.tierSize)
    (h : Crossed tierSize L.topTier entry c.positions t' positions' entered) :
    TierFates accEqual L.topTier.accTier paid c.positions positions' := by
  subst hsize
  cases h with
  | inserted | rejected => exact .refl _
  | swapped hpromote hq hsettle =>
    obtain ⟨hmem, -⟩ := Tier.promote_swapped hranked.len_le hranked.tierSize_pos
      hranked.tierSize_le hpromote
    obtain ⟨q₀, hq₀, hin, -⟩ := hranked.listed.lookup hmem
    obtain rfl := Option.some.inj (hq.symm.trans (hL.lookup.mp hq₀).1)
    refine (TierFates.refl _).write ?_
    rw [hq]
    exact .of_settleMember hin hsettle

theorem Filled.tierFates {tierSize : ℕ} {t : TopTier}
    (h : Filled key tierSize accTier t t' positions positions' k) :
    TierFates accEqual accTier paid positions positions' := by
  obtain ⟨q, hq, -, -, hout, -, rfl⟩ := h.candidate
  refine (TierFates.refl _).write ?_
  rw [hq]
  exact .of_entered hout rfl

theorem vacateAndFill_tierFates {tierSize : ℕ} {change : TierChange} (hin : p.inTier = true)
    (h : vacateAndFill L.topTier tierSize key k p remaining positions
      = .ok (t', q, positions', change)) :
    TierFate accEqual L.topTier.accTier paid (some p) (some q) ∧
      TierFates accEqual L.topTier.accTier paid positions positions' := by
  simp only [vacateAndFill, Tier.vacate, bind_ok, okOr_ok, pure_ok, Prod.mk.injEq, Prod.exists] at h
  obtain ⟨_, _, _, ⟨_, _, -, _, -, _, hsettle, rfl, rfl, -⟩, _, _, _, hfill, -, rfl, rfl, -⟩ := h
  refine ⟨.of_settleMember hin hsettle, ?_⟩
  obtain ⟨-, rfl⟩ | ⟨kc, hfilled⟩ := fillVacancyFromCandidate_ok hfill
  · exact .refl _
  · exact hfilled.tierFates

/-- A close ends a membership, a refresh leaves it alone, a crossing may start one. -/
theorem recordTier_tierFates {outcome : RecordOutcome} {value : ℕ} {change : TierChange}
    (hL : c.Reads key L) (hranked : L.Ranked)
    (h : recordTier outcome L.topTier L.pool.tierSize key k p value remaining c.positions
      = .ok (t', q, positions', change)) :
    TierFate accEqual L.topTier.accTier paid (some p) (some q) ∧
      TierFates accEqual L.topTier.accTier paid c.positions positions' := by
  cases hin : p.inTier with
  | true =>
    cases outcome with
    | close =>
      simp only [recordTier, hin, if_true] at h
      exact vacateAndFill_tierFates hin h
    | refresh | retained =>
      simp only [recordTier, hin, reduceCtorEq, if_false, if_true, bind_ok, pure_ok,
        Prod.mk.injEq] at h
      obtain ⟨_, -, -, rfl, rfl, -⟩ := h
      exact ⟨.refl _, .refl _⟩
  | false =>
    cases outcome with
    | close =>
      simp only [recordTier, hin, if_true, Bool.false_eq_true, if_false, pure_ok,
        Prod.mk.injEq] at h
      obtain ⟨-, rfl, rfl, -⟩ := h
      exact ⟨.refl _, .refl _⟩
    | refresh | retained =>
      simp only [recordTier, hin, reduceCtorEq, Bool.false_eq_true, if_false] at h
      obtain ⟨entered, hcross, rfl⟩ := crossAndSettle_ok h
      refine ⟨?_, hcross.tierFates hL hranked rfl⟩
      cases entered with
      | true => exact .of_entered hin rfl
      | false => exact .refl _

theorem settleEvicted_tierFates {slot : ℕ} {evicted : List TierEntry} {events : List Event}
    (hmembers : ∀ e ∈ evicted, ∃ q, positions.lookup e.position = some q ∧ q.inTier = true)
    (h : settleEvicted remaining accTier key slot evicted positions = .ok (positions', events)) :
    TierFates accEqual accTier paid positions positions' := by
  intro k
  obtain ⟨hleft, hkept⟩ := settleEvicted_lookup h k
  by_cases hk : k ∈ evicted.map (·.position)
  · obtain ⟨p, hp, hstamp, hp'⟩ := hleft hk
    obtain ⟨e, he, rfl⟩ := List.mem_map.mp hk
    obtain ⟨q, hq, hin⟩ := hmembers e he
    obtain rfl := Option.some.inj (hp.symm.trans hq)
    rw [hp, hp']
    exact .of_settled hin equalEarned_leftTier rfl hstamp
  · rw [hkept hk]
    exact .refl _

theorem demotions_tierFates {slot : ℕ} {update : ConfigUpdate} {events : List Event}
    (hL : c.Reads key L) (hranked : L.Ranked)
    (h : demotions L.topTier remaining c.positions key slot update
      = .ok (t', positions', events)) :
    TierFates accEqual L.topTier.accTier paid c.positions positions' := by
  cases update with
  | tierSize value =>
    simp only [demotions, demoteShrinkExcess, bind_ok, pure_ok, Prod.mk.injEq, Prod.exists] at h
    obtain ⟨_, _, hshrink, _, _, hsettle, -, rfl, -⟩ := h
    obtain ⟨rfl, -, -⟩ := Tier.shrink_ok hranked.len_le_max hshrink
    refine settleEvicted_tierFates (fun e he => ?_) hsettle
    obtain ⟨q, hq, hin, -⟩ := hranked.listed.lookup (List.mem_of_mem_drop he)
    exact ⟨q, (hL.lookup.mp hq).1, hin⟩
  | _ =>
    simp only [demotions, pure_ok, Prod.mk.injEq] at h
    obtain ⟨-, rfl, -⟩ := h
    exact .refl _

end

end ByeMachine
