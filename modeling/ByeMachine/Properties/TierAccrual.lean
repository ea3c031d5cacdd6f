import ByeMachine.Invariants.Evolution
import ByeMachine.Properties.Isolation
import ByeMachine.Refinement.Stints

/-!
# Tier accrual

Whatever becomes of a position, and however the tier's accumulator rises
meanwhile, the position is credited exactly what the accumulator rose during
each of its stints in the tier. A refresh ends no stint, and time outside earns
nothing.
-/

namespace ByeMachine

open Fallible

variable {X : Programs} {clock : Clock} {c c' : Chain} {events : List Event} {key k : Pubkey}
  {L L' : Ledger} {remaining : List AccountMeta} {accEqual accTier paid : ℕ} {p : Position}

-- ---------------------------------------------------------------------------
-- The instructions
-- ---------------------------------------------------------------------------

theorem Chain.Sound.inactive_out (hsound : c.Sound) (hp : c.positions.lookup k = some p)
    (hinactive : p.state ≠ .active) : p.inTier = false := by
  obtain ⟨pool, hpool⟩ := hsound.wellFormed.positionPool k p hp
  obtain ⟨L, -, hL, -⟩ := hsound.ledger hpool
  exact (hsound.ranked _ L hL).listed.inTier_eq_false (hL.lookup.mpr ⟨hp, rfl⟩) hinactive

theorem TierFate.of_closed (hout : p.inTier = false) (hinactive : p.state ≠ .active) :
    TierFate accEqual accTier paid (some p) none :=
  .outside hout rfl (by simp [tierCredit, hinactive])

theorem approveDeposit_tierFates {operator : Pubkey} {value : ℕ} {observedAt lockUntil : ℤ}
    (hsound : c.Sound) (hL : c.Reads key L)
    (h : approveDeposit clock c operator key k remaining value observedAt lockUntil
      = .ok (c', events)) :
    TierFates L.pool.accEqual L.topTier.accTier paid c.positions c'.positions := by
  simp only [approveDeposit, bind_ok, require_ok, pure_ok, Prod.mk.injEq, Prod.exists] at h
  obtain ⟨_, -, a, ha, -, hstate, -, -, -, -, -, -, _, -, _, -, _, -, _, -, slot, _, -, _, -, _, -,
    _, positions', entered, _, hpromote, _, -, _, -, rfl, -⟩ := h
  obtain ⟨M, p, stats, rfl, hM, hbound⟩ := hsound.wellFormed.loadThroughPool ha
  obtain rfl := hL.unique hM
  have hranked := hsound.ranked key L hL
  have hstate : p.state = .pending := hstate
  have hinactive : p.state ≠ .active := by rw [hstate]; decide
  have hout := hranked.listed.inTier_eq_false hbound.position hinactive
  have hsame : SameLegs L.pool.accEqual p (p.activated value slot L.pool.accEqual observedAt
      clock.unixTimestamp lockUntil) := by
    refine ⟨rfl, rfl, ?_⟩
    rw [equalEarned_active (p := p.activated value slot L.pool.accEqual observedAt
      clock.unixTimestamp lockUntil) rfl, equalEarned_inactive hinactive]
    simp [Position.equalOwed, Position.activated, pendingFees_self]
  have hentered : TierFate L.pool.accEqual L.topTier.accTier paid (some (p.activated value slot
      L.pool.accEqual observedAt clock.unixTimestamp lockUntil)) (some ((p.activated value slot
      L.pool.accEqual observedAt clock.unixTimestamp lockUntil).entered L.topTier.accTier)) :=
    .of_entered hout rfl
  refine ((promoteActivated_ok hpromote).tierFates hL hranked rfl).write ?_
  rw [(hL.lookup.mp hbound.position).1]
  cases entered with
  | false => exact hsame.tierFate
  | true => exact hsame.trans_fate hentered

theorem recordValue_tierFates {operator : Pubkey} {value : ℕ} {observedAt : ℤ}
    (hsound : c.Sound) (hL : c.Reads key L)
    (h : recordValue clock c operator key k remaining value observedAt = .ok (c', events)) :
    TierFates L.pool.accEqual L.topTier.accTier paid c.positions c'.positions := by
  simp only [recordValue, bind_ok, pure_ok, Prod.mk.injEq, Prod.exists] at h
  obtain ⟨_, -, a, ha, booked, hbooked, _, -, _, q, positions', _, htier, rfl, -⟩ := h
  obtain ⟨M, p, stats, rfl, hM, hbound⟩ := hsound.wellFormed.loadThroughPool ha
  obtain rfl := hL.unique hM
  have hranked := hsound.ranked key L hL
  dsimp only at hbooked htier
  obtain ⟨hown, hothers⟩ := recordTier_tierFates hL hranked htier
  refine hothers.write ?_
  rw [(hL.lookup.mp hbound.position).1]
  refine SameLegs.trans_fate ?_ hown
  by_cases hclose : classify value L.pool.admissionFloor p.lockUntil clock.unixTimestamp = .close
  · obtain ⟨targets, _, -, hfrom, -, rfl⟩ := applyRecordValue_closed hbooked hclose
    have hearned : (p.departed .closedBelowFloor L.pool.accEqual).equalEarned L.pool.accEqual
        = p.equalEarned L.pool.accEqual := equalEarned_departed hfrom.active (by decide)
    exact ⟨rfl, rfl, hearned⟩
  · obtain ⟨_, _, _, _, -, -, -, -, rfl⟩ := applyRecordValue_kept hbooked hclose
    exact ⟨rfl, rfl, rfl⟩

/-- The owed fees fall by what a withdrawal pays, so what it paid beyond the equal leg is the tier
leg. -/
theorem withdrawAccounting_tierFates {stats : WalletStats} {depositorUsdc : Option Pubkey}
    {c₁ : Chain} (hp : L.positions.lookup k = some p) (hL : c.Reads key L) (hL' : c'.Reads key L')
    (h : withdrawAccounting clock c key k depositorUsdc remaining
      ⟨L.pool, p, L.weightIndex, L.topTier, stats⟩ = .ok (c₁, events))
    (hpools : c'.pools = c₁.pools) (hpositions : c'.positions = c₁.positions) :
    TierFates L.pool.accEqual L.topTier.accTier (L.pool.owedFees - L'.pool.owedFees)
      c.positions c'.positions := by
  simp only [withdrawAccounting, bind_ok, pure_ok, Prod.mk.injEq, Prod.exists] at h
  obtain ⟨booked, hbooked, _, -, t', q, positions', _, htier, _, -, rfl, -⟩ := h
  obtain ⟨targets, hfrom, -, hstamp, -, howed, rfl⟩ := applyWithdraw_ok.mp hbooked
  have hpool := hL'.pool
  rw [hpools, Finmap.lookup_insert, Option.some.injEq] at hpool
  have hpaid : L.pool.owedFees - L'.pool.owedFees
      = p.legs L.pool.accEqual L.topTier.accTier := by
    rw [← hpool]
    exact Nat.sub_sub_self howed
  rw [hpositions, hpaid]
  have hcredit : tierCredit L.pool.accEqual (p.legs L.pool.accEqual L.topTier.accTier) (some p) none
      = p.tierLeg L.topTier.accTier := by
    simp only [tierCredit, hfrom.active, if_true, Position.equalEarned, Position.equalOwed,
      Position.legs]
    omega
  have hothers : TierFates L.pool.accEqual L.topTier.accTier
      (p.legs L.pool.accEqual L.topTier.accTier) c.positions positions' := by
    have htier : withdrawTier p.inTier L.topTier L.pool.tierSize key k _ remaining c.positions
      = .ok (t', q, positions', _) := htier
    cases hin : p.inTier with
    | true =>
      have hin' : (withdrawn L.pool p stats L.topTier.accTier targets).position.inTier = true := hin
      simp only [withdrawTier, hin, if_true] at htier
      exact (vacateAndFill_tierFates hin' htier).2
    | false =>
      simp only [withdrawTier, hin, Bool.false_eq_true, if_false, pure_ok, Prod.mk.injEq] at htier
      obtain ⟨-, -, rfl, -⟩ := htier
      exact .refl _
  refine hothers.erase ?_
  rw [(hL.lookup.mp hp).1]
  cases hin : p.inTier with
  | true => exact .leaves hin rfl (hstamp hin) (by rw [hcredit, Position.tierLeg, if_pos hin])
  | false => exact .outside hin rfl (by rw [hcredit, Position.tierLeg, hin]; rfl)

theorem closeSeized_tierFates {caller collection : Pubkey} (hsound : c.Sound) (hL : c.Reads key L)
    (h : closeSeized X clock c caller key k collection = .ok (c', events)) :
    TierFates L.pool.accEqual L.topTier.accTier paid c.positions c'.positions := by
  simp only [closeSeized, bind_ok, require_ok, pure_ok, Prod.mk.injEq, Prod.exists] at h
  obtain ⟨-, -, a, ha, -, -, -, -, kind, owner, -, booked, hbooked, _, _, q, _, hremove, rfl,
    -⟩ := h
  obtain ⟨M, p, stats, rfl, hM, hbound⟩ := hsound.wellFormed.loadThroughPool ha
  obtain rfl := hL.unique hM
  dsimp only at hbooked hremove
  refine (TierFates.refl _).write ?_
  rw [(hL.lookup.mp hbound.position).1]
  by_cases hactive : p.state = .active
  · obtain ⟨_, -, -, -, hposition, -, heffect⟩ := applyCloseSeized_active hactive hbooked
    rw [hposition, heffect] at hremove
    have hsame : SameLegs L.pool.accEqual p (p.departed .seized L.pool.accEqual) :=
      ⟨rfl, rfl, equalEarned_departed hactive (by decide)⟩
    refine hsame.trans_fate ?_
    simp only [removeDeparted, bind_ok, pure_ok, Prod.mk.injEq, Prod.exists] at hremove
    obtain ⟨_, -, t', q', change, hvacated, -, -, rfl, -⟩ := hremove
    have hvacated : vacateDeparted p.inTier L.topTier k (p.departed .seized L.pool.accEqual)
      = .ok (t', q', change) := hvacated
    cases hin : p.inTier with
    | true =>
      simp only [vacateDeparted, Tier.vacate, hin, if_true, bind_ok, pure_ok, Prod.mk.injEq,
        Prod.exists] at hvacated
      obtain ⟨_, _, _, ⟨_, _, -, _, -, _, hsettle, -, rfl, -⟩, -, rfl, -⟩ := hvacated
      exact .of_settleMember hin hsettle
    | false =>
      simp only [vacateDeparted, hin, Bool.false_eq_true, if_false, pure_ok,
        Prod.mk.injEq] at hvacated
      obtain ⟨-, rfl, -⟩ := hvacated
      exact .refl _
  · obtain ⟨-, hposition, -, heffect⟩ := applyCloseSeized_inactive hactive hbooked
    rw [hposition, heffect] at hremove
    simp only [removeDeparted, pure_ok, Prod.mk.injEq] at hremove
    obtain ⟨-, -, rfl, -⟩ := hremove
    have hsame : SameLegs L.pool.accEqual p { p with state := .seized } := by
      refine ⟨rfl, rfl, ?_⟩
      rw [equalEarned_inactive (p := { p with state := .seized }) (by simp),
        equalEarned_inactive hactive]
    exact hsame.tierFate

theorem updateTier_tierFates {operator : Pubkey} (hsound : c.Sound) (hL : c.Reads key L)
    (h : updateTier clock c operator key k remaining = .ok (c', events)) :
    TierFates L.pool.accEqual L.topTier.accTier paid c.positions c'.positions := by
  simp only [updateTier, bind_ok, require_ok, pure_ok, Prod.mk.injEq, Prod.exists,
    Tier.isEligibleCandidate, Bool.and_eq_true, decide_eq_true_eq, Bool.not_eq_true'] at h
  obtain ⟨_, -, pool, hpool, topTier, htopTier, p, hposition, -, ⟨-, hout⟩, t', p', crossed,
    hcross, positions', _, hsettle, rfl, -⟩ := h
  obtain ⟨M, hM, rfl, -⟩ := hsound.wellFormed.loadPool hpool
  obtain rfl := hL.unique hM
  obtain ⟨hp, -, -⟩ := hsound.wellFormed.loadPositionOf hposition
  obtain rfl := Option.some.inj ((loadTopTier_ok.mp htopTier).symm.trans hL.topTier)
  obtain ⟨hcrossed, rfl⟩ := settleCrossed_ok hcross hsettle
  refine (hcrossed.tierFates hL (hsound.ranked key L hL) rfl).write ?_
  rw [hp]
  exact .of_entered hout rfl

theorem updateConfig_tierFates {administrator : Pubkey} {update : ConfigUpdate} (hsound : c.Sound)
    (hL : c.Reads key L)
    (h : updateConfig clock c administrator key remaining update = .ok (c', events)) :
    TierFates L.pool.accEqual L.topTier.accTier paid c.positions c'.positions := by
  simp only [updateConfig, bind_ok, pure_ok, Prod.mk.injEq, Prod.exists] at h
  obtain ⟨_, -, pool, hpool, topTier, htopTier, _, -, _, -, _, _, _, hdemote, rfl, -⟩ := h
  obtain rfl := Option.some.inj ((loadTopTier_ok.mp htopTier).symm.trans hL.topTier)
  exact demotions_tierFates hL (hsound.ranked key _ hL) hdemote

theorem deposit_tierFates {a : DepositAccounts} (h : deposit X clock c a = .ok (c', events)) :
    TierFates accEqual accTier paid c.positions c'.positions := by
  simp only [deposit, bind_ok, require_ok, recordDeposit, pure_ok, Prod.mk.injEq, Prod.exists] at h
  obtain ⟨-, -, pool, -, _, -, -, hfree, _, -, _, -, _, -, -, -, -, -, -, -, standard, -, _, _, -, _,
    -, rfl, -⟩ := h
  refine (TierFates.refl _).write ?_
  rw [hfree]
  exact .outside rfl rfl rfl

theorem depositCore_tierFates {a : DepositCoreAccounts}
    (h : depositCore X clock c a = .ok (c', events)) :
    TierFates accEqual accTier paid c.positions c'.positions := by
  simp only [depositCore, bind_ok, require_ok, recordDeposit, pure_ok, Prod.mk.injEq] at h
  obtain ⟨-, -, pool, -, _, -, -, hfree, -, -, _, -, -, -, _, -, _, -, -, -, _, -, _, -, rfl, -⟩ := h
  refine (TierFates.refl _).write ?_
  rw [hfree]
  exact .outside rfl rfl rfl

theorem rejectDeposit_tierFates {operator : Pubkey} {reason : ℕ}
    (h : rejectDeposit clock c operator k reason = .ok (c', events)) :
    TierFates accEqual accTier paid c.positions c'.positions := by
  simp only [rejectDeposit, bind_ok, require_ok, loadOwnPosition_ok, pure_ok, Prod.mk.injEq] at h
  obtain ⟨_, -, p, ⟨hp, -⟩, -, hstate, -, -, rfl, -⟩ := h
  refine (TierFates.refl _).write ?_
  rw [hp]
  refine .of_eq rfl rfl ?_
  rw [equalEarned_inactive (p := { p with state := .rejected, rejectReason := reason }) (by simp),
    equalEarned_inactive (by rw [hstate]; decide)]

theorem TierFates.of_release (hsound : c.Sound) (hp : c.positions.lookup k = some p)
    (hinactive : p.state ≠ .active) :
    TierFates accEqual accTier paid c.positions (c.positions.erase k) := by
  refine (TierFates.refl _).erase ?_
  rw [hp]
  exact .of_closed (hsound.inactive_out hp hinactive) hinactive

-- ---------------------------------------------------------------------------
-- The positions of a pool
-- ---------------------------------------------------------------------------

theorem Chain.Reads.lookup_position (hL : c.Reads key L) (hwf : c.WellFormed) (mint : Pubkey) :
    L.positions.lookup (.position key mint) = c.positions.lookup (.position key mint) := by
  refine Option.ext fun p => hL.lookup.trans ⟨And.left, fun hp => ⟨hp, ?_⟩⟩
  have hkey := hwf.positionKey _ p hp
  rw [Pubkey.position.injEq] at hkey
  exact hkey.1.symm

theorem Chain.Reads.lookup_none (hL : c.Reads key L) (hwf : c.WellFormed)
    (hne : ∀ mint, k ≠ .position key mint) : L.positions.lookup k = none := by
  refine Option.eq_none_iff_forall_ne_some.mpr fun p hp => ?_
  obtain ⟨hlookup, rfl⟩ := hL.lookup.mp hp
  exact hne _ (hwf.positionKey k p hlookup)

theorem TierFates.ledger (h : TierFates accEqual accTier paid c.positions c'.positions)
    (hwf : c.WellFormed) (hwf' : c'.WellFormed) (hL : c.Reads key L) (hL' : c'.Reads key L')
    (k : Pubkey) :
    TierFate accEqual accTier paid (L.positions.lookup k) (L'.positions.lookup k) := by
  by_cases hk : ∃ mint, k = .position key mint
  · obtain ⟨mint, rfl⟩ := hk
    rw [hL.lookup_position hwf, hL'.lookup_position hwf']
    exact h _
  · have hne : ∀ mint, k ≠ .position key mint := fun mint heq => hk ⟨mint, heq⟩
    rw [hL.lookup_none hwf hne, hL'.lookup_none hwf' hne]
    exact .refl _

theorem Apart.same_positions (h : Apart c c' key) (hL : c.Reads key L) (hL' : c'.Reads key L')
    (k : Pubkey) : L'.positions.lookup k = L.positions.lookup k := by
  refine Option.ext fun p => ?_
  rw [hL.lookup, hL'.lookup]
  exact and_congr_left fun hpool => h.positions k p hpool

/-- Every instruction gives every membership of every pool one of the fates. -/
theorem exec_tierFate {instr : Instr} (hsound : c.Sound) (hL : c.Reads key L)
    (hL' : c'.Reads key L') (h : exec X clock c instr = .ok (c', events)) (k : Pubkey) :
    TierFate L.pool.accEqual L.topTier.accTier (L.pool.owedFees - L'.pool.owedFees)
      (L.positions.lookup k) (L'.positions.lookup k) := by
  have hwf := hsound.wellFormed
  have hstep : Step X c c' := .instruction clock instr events trivial h
  have hsound' := hstep.sound hsound
  by_cases hother : instr.runsOn c ≠ some key
  · rw [(exec_apart hsound h hother).same_positions hL hL']
    exact .refl _
  have hruns : instr.runsOn c = some key := not_not.mp hother
  clear hother
  suffices hfates : TierFates L.pool.accEqual L.topTier.accTier
      (L.pool.owedFees - L'.pool.owedFees) c.positions c'.positions from
    hfates.ledger hwf hsound'.wellFormed hL hL' k
  cases hkeeps : instr.keepsHouse with
  | true =>
    rw [(exec_housekeeping hkeeps h).positions]
    exact .refl _
  | false =>
    cases instr with
    | updateConfig administrator pool remaining update =>
      obtain rfl := Option.some.inj hruns
      exact updateConfig_tierFates hsound hL h
    | approveDeposit operator pool position remaining value observedAt lockUntil =>
      obtain rfl := Option.some.inj hruns
      exact approveDeposit_tierFates hsound hL h
    | recordValue operator pool position remaining value observedAt =>
      obtain rfl := Option.some.inj hruns
      exact recordValue_tierFates hsound hL h
    | updateTier operator pool position remaining =>
      obtain rfl := Option.some.inj hruns
      exact updateTier_tierFates hsound hL h
    | closeSeized caller pool position collection =>
      obtain rfl := Option.some.inj hruns
      exact closeSeized_tierFates hsound hL h
    | withdraw depositor pool position depositorUsdc remaining accounts =>
      obtain rfl := Option.some.inj hruns
      simp only [exec, withdraw, bind_ok, require_ok, pure_ok, Prod.mk.injEq, Prod.exists] at h
      obtain ⟨-, -, a, ha, -, -, -, -, -, -, c₁, _, haccounting, _, _, -, rfl, -⟩ := h
      obtain ⟨M, p, stats, rfl, hM, hbound⟩ := hwf.loadThroughPool ha
      obtain rfl := hL.unique hM
      exact withdrawAccounting_tierFates hbound.position hL hL' haccounting rfl rfl
    | withdrawCore depositor pool position depositorUsdc collection remaining =>
      obtain rfl := Option.some.inj hruns
      simp only [exec, withdrawCore, bind_ok, require_ok, pure_ok, Prod.mk.injEq, Prod.exists] at h
      obtain ⟨-, -, a, ha, -, -, -, -, -, -, _, -, c₁, _, haccounting, _, -, rfl, -⟩ := h
      obtain ⟨M, p, stats, rfl, hM, hbound⟩ := hwf.loadThroughPool ha
      obtain rfl := hL.unique hM
      exact withdrawAccounting_tierFates hbound.position hL hL' haccounting rfl rfl
    | deposit accounts => exact deposit_tierFates h
    | depositCore accounts => exact depositCore_tierFates h
    | rejectDeposit operator position reason => exact rejectDeposit_tierFates h
    | returnRejected payer position accounts =>
      simp only [exec, returnRejected, bind_ok, require_ok, loadOwnPosition_ok, pure_ok,
        Prod.mk.injEq, Prod.exists] at h
      obtain ⟨-, -, p, ⟨hp, -⟩, _, -, -, hstate, _, _, -, rfl, -⟩ := h
      exact .of_release hsound hp (by rw [hstate]; decide)
    | returnRejectedCore payer position collection =>
      simp only [exec, returnRejectedCore, bind_ok, require_ok, loadOwnPosition_ok, pure_ok,
        Prod.mk.injEq] at h
      obtain ⟨-, -, p, ⟨hp, -⟩, -, -, -, hstate, _, -, _, -, rfl, -⟩ := h
      exact .of_release hsound hp (by rw [hstate]; decide)
    | claimNft depositor position accounts =>
      simp only [exec, claimNft, bind_ok, require_ok, loadOwnPosition_ok, pure_ok, Prod.mk.injEq,
        Prod.exists] at h
      obtain ⟨-, -, p, ⟨hp, -⟩, -, -, _, -, -, hstate, _, _, -, rfl, -⟩ := h
      exact .of_release hsound hp (by rw [hstate]; decide)
    | claimNftCore depositor position collection =>
      simp only [exec, claimNftCore, bind_ok, require_ok, loadOwnPosition_ok, pure_ok,
        Prod.mk.injEq] at h
      obtain ⟨-, -, p, ⟨hp, -⟩, -, -, -, -, -, hstate, _, -, _, -, rfl, -⟩ := h
      refine .of_release hsound hp ?_
      obtain hstate | hstate := hstate <;> rw [hstate] <;> decide
    | initPool administrator weightIndex args =>
      simp only [exec, initPool, bind_ok, require_ok, pure_ok, Prod.mk.injEq] at h
      obtain ⟨config, -, -, -, -, -, -, -, -, -, _, -, _, -, _, -, -, -, _, -, rfl, -⟩ := h
      exact .refl _
    | commitRolls roller pool rollerUsdc n =>
      simp only [exec, commitRolls, bind_ok, pure_ok, Prod.mk.injEq, Prod.exists] at h
      obtain ⟨-, -, _, -, _, -, _, -, -, -, _, -, _, -, -, -, -, -, -, -, _, _, _, -, _, -, _, -,
        rfl, -⟩ := h
      exact .refl _
    | vrfCallback signer batch pool randomness =>
      simp only [exec, vrfCallback, bind_ok, pure_ok, Prod.mk.injEq] at h
      obtain ⟨-, -, _, -, -, -, _, -, -, -, _, -, rfl, -⟩ := h
      exact .refl _
    | _ => cases hkeeps

-- ---------------------------------------------------------------------------
-- Stints
-- ---------------------------------------------------------------------------

/-- What is seen of one membership over a run: the accumulator where the current stint began, where
each earlier one began and ended, and what was credited beyond the equal leg. -/
structure TierTally where
  current : Option ℕ
  ended : List (ℕ × ℕ)
  credited : ℤ
  deriving DecidableEq

def TierTally.stints (t : TierTally) (accTier : ℕ) : List (ℕ × ℕ) :=
  t.ended ++ (t.current.map (·, accTier)).toList

/-- What stints earn: each the rise of the accumulator, rounded down once. -/
def earned (stints : List (ℕ × ℕ)) : ℕ := (stints.map fun s => (s.2 - s.1) / ACC_PRECISION).sum

/-- What one step shows: the membership before and after it, and the credit. -/
def TierTally.advance (t : TierTally) (accEqual accTier paid : ℕ) (before after : Option Position) :
    TierTally where
  current := if memberOf after then (if memberOf before then t.current else some accTier) else none
  ended :=
    if memberOf before && !memberOf after then t.ended ++ (t.current.map (·, accTier)).toList
    else t.ended
  credited := t.credited + tierCredit accEqual paid before after

/-- The tier's accumulator does not fall; the rest may be anything. -/
def Rises (L : Ledger) (s : Settlement) : Prop := L.topTier.accTier ≤ s.accTier

/-- A run watched from a state in which there is no member at `k` on. -/
inductive Tallied (X : Programs) (key k : Pubkey) : TierTally → Chain → Prop where
  | start {c : Chain} {L : Ledger} (hc : SettlingReachable X Rises c) (hL : c.Reads key L)
      (hout : memberOf (L.positions.lookup k) = false) : Tallied X key k ⟨none, [], 0⟩ c
  | step {t : TierTally} {c c' : Chain} {L L' : Ledger} (h : Tallied X key k t c)
      (hstep : SettlingStep X Rises c c') (hL : c.Reads key L) (hL' : c'.Reads key L') :
      Tallied X key k (t.advance L.pool.accEqual L'.topTier.accTier
        (L.pool.owedFees - L'.pool.owedFees) (L.positions.lookup k) (L'.positions.lookup k)) c'

theorem Change.topTier_accTier {update : Option ConfigUpdate} (h : Change update L L')
    (hranked : L.Ranked) : L'.topTier.accTier = L.topTier.accTier := by
  cases h with
  | moves hmoves => exact (Moves.evolves hmoves hranked).accTier
  | intake hintake hmoves =>
    have hmoved := (Moves.evolves hmoves (hintake.ranked hranked)).accTier
    cases hintake with
    | intro => exact hmoved
  | configure _ hconfig => exact (hconfig.evolves hranked).accTier

/-- An instruction moves no accumulator, and every other step no membership. -/
theorem SettlingStep.tierFate (h : SettlingStep X Rises c c') (hsound : c.Sound)
    (hL : c.Reads key L) (hL' : c'.Reads key L') (k : Pubkey) :
    TierFate L.pool.accEqual L.topTier.accTier (L.pool.owedFees - L'.pool.owedFees)
        (L.positions.lookup k) (L'.positions.lookup k) ∧
      L'.topTier.accTier = L.topTier.accTier ∨
    L'.positions.lookup k = L.positions.lookup k ∧ L.topTier.accTier ≤ L'.topTier.accTier := by
  cases h with
  | run hstep =>
    obtain ⟨configures, heffect, -⟩ := hstep.effect hsound
    obtain ⟨M, hM, hchange⟩ := heffect.forward hsound.wellFormed hL
    obtain rfl := hL'.unique hM
    have hstands := hchange.topTier_accTier (hsound.ranked key L hL)
    cases hstep with
    | instruction clock instr events _ hrun =>
      exact .inl ⟨exec_tierFate hsound hL hL' hrun k, hstands⟩
    | elsewhere tokens externals =>
      refine .inr ⟨?_, Nat.le_of_eq hstands.symm⟩
      rw [hL.positions, hL'.positions]
  | settle hM hrises =>
    obtain ⟨rfl, rfl⟩ | ⟨-, hother⟩ := settle_backward hsound.wellFormed hM hL'
    · obtain rfl := hL.unique hM
      exact .inr ⟨rfl, hrises⟩
    · obtain rfl := hL.unique hother
      exact .inr ⟨rfl, Nat.le_refl _⟩

-- ---------------------------------------------------------------------------
-- The tally is exact
-- ---------------------------------------------------------------------------

structure TierTally.Exact (t : TierTally) (accTier : ℕ) (found : Option Position) : Prop where
  ended : ∀ s ∈ t.ended, s.1 ≤ s.2
  credited : t.credited = earned t.ended
  outside : memberOf found = false → t.current = none
  inside : ∀ p, found = some p → p.inTier = true →
    t.current = some p.tierCheckpoint ∧ p.tierCheckpoint ≤ accTier

section

variable {t : TierTally} {accTier' : ℕ} {found before after : Option Position}

theorem TierTally.Exact.same (h : t.Exact accTier found) (hrises : accTier ≤ accTier') :
    (t.advance accEqual accTier' paid found found).Exact accTier' found := by
  have hadvance : t.advance accEqual accTier' paid found found = t := by
    obtain ⟨current, ended, credited⟩ := t
    cases hmember : memberOf found with
    | false =>
      have hcurrent : current = none := h.outside hmember
      simp [TierTally.advance, hmember, tierCredit_self, hcurrent]
    | true => simp [TierTally.advance, hmember, tierCredit_self]
  rw [hadvance]
  refine ⟨h.ended, h.credited, h.outside, fun p hp hin => ?_⟩
  obtain ⟨hcurrent, hle⟩ := h.inside p hp hin
  exact ⟨hcurrent, hle.trans hrises⟩

/-- Only leaving credits, and it credits the stint that ends. -/
theorem TierTally.Exact.fate (h : t.Exact accTier before)
    (hfate : TierFate accEqual accTier paid before after) :
    (t.advance accEqual accTier paid before after).Exact accTier after := by
  obtain ⟨hended, hcredited, -, hinside⟩ := h
  cases hfate with
  | outside hout hout' hcredit =>
    have hnone : t.advance accEqual accTier paid before after = ⟨none, t.ended, t.credited⟩ := by
      simp [TierTally.advance, hout, hout', hcredit]
    rw [hnone]
    refine ⟨hended, hcredited, fun _ => rfl, fun p hp hin => ?_⟩
    subst hp
    rw [show p.inTier = false from hout'] at hin
    cases hin
  | @enters _ p hout hin hstamp hcredit =>
    have hin' : memberOf (some p) = true := hin
    have hentered : t.advance accEqual accTier paid before (some p)
        = ⟨some accTier, t.ended, t.credited⟩ := by
      simp [TierTally.advance, hout, hin', hcredit]
    rw [hentered]
    refine ⟨hended, hcredited, fun hnot => ?_, fun q hq _ => ?_⟩
    · rw [hin'] at hnot
      cases hnot
    · obtain rfl := Option.some.inj hq
      exact ⟨congrArg some hstamp.symm, Nat.le_of_eq hstamp⟩
  | @stays p q hin hin' hstamp hcredit =>
    have hwas : memberOf (some p) = true := hin
    have his : memberOf (some q) = true := hin'
    have hstayed : t.advance accEqual accTier paid (some p) (some q) = t := by
      simp [TierTally.advance, hwas, his, hcredit]
    rw [hstayed]
    refine ⟨hended, hcredited, fun hnot => ?_, fun q' hq' _ => ?_⟩
    · rw [his] at hnot
      cases hnot
    · obtain rfl := Option.some.inj hq'
      rw [hstamp]
      exact hinside p rfl hin
  | @leaves p _ hin hout hle hcredit =>
    have hwas : memberOf (some p) = true := hin
    obtain ⟨hcurrent, -⟩ := hinside p rfl hin
    have hleft : t.advance accEqual accTier paid (some p) after
        = ⟨none, t.ended ++ [(p.tierCheckpoint, accTier)],
          t.credited + pendingFees accTier p.tierCheckpoint⟩ := by
      simp [TierTally.advance, hwas, hout, hcurrent, hcredit]
    rw [hleft]
    refine ⟨fun s hs => ?_, ?_, fun _ => rfl, fun q hq hin' => ?_⟩
    · obtain hs | hs := List.mem_append.mp hs
      · exact hended s hs
      · rw [List.mem_singleton.mp hs]
        exact hle
    · simp [hcredited, earned, pendingFees]
    · subst hq
      rw [show q.inTier = false from hout] at hin'
      cases hin'

theorem Tallied.exact (h : Tallied X key k t c) :
    c.Sound ∧ ∀ L, c.Reads key L → t.Exact L.topTier.accTier (L.positions.lookup k) := by
  induction h with
  | start hc hL hout =>
    refine ⟨hc.sound, fun M hM => ?_⟩
    obtain rfl := hL.unique hM
    refine ⟨by simp, rfl, fun _ => rfl, fun p hp hin => ?_⟩
    rw [hp, show memberOf (some p) = p.inTier from rfl, hin] at hout
    cases hout
  | step _ hstep hL hL' ih =>
    obtain ⟨hsound, hexact⟩ := ih
    refine ⟨hstep.sound hsound, fun M hM => ?_⟩
    obtain rfl := hL'.unique hM
    obtain ⟨hfate, hstands⟩ | ⟨hsame, hrises⟩ := hstep.tierFate hsound hL hL' k
    · rw [hstands]
      exact (hexact _ hL).fate hfate
    · rw [hsame]
      exact (hexact _ hL).same hrises

def tierPending (accTier : ℕ) (found : Option Position) : ℕ :=
  (found.map (·.tierLeg accTier)).getD 0

/-- The pending leg is what the current stint has earned so far. -/
theorem TierTally.Exact.pending (h : t.Exact accTier found) :
    (∀ s ∈ t.stints accTier, s.1 ≤ s.2) ∧ t.current.isSome = memberOf found ∧
      t.credited + tierPending accTier found = earned (t.stints accTier) := by
  obtain ⟨hended, hcredited, houtside, hinside⟩ := h
  have hout : t.current = none → (∀ s ∈ t.stints accTier, s.1 ≤ s.2) ∧
      t.credited = earned (t.stints accTier) := fun hcurrent => by
    have hstints : t.stints accTier = t.ended := by simp [TierTally.stints, hcurrent]
    rw [hstints]
    exact ⟨hended, hcredited⟩
  cases found with
  | none =>
    have hcurrent := houtside rfl
    obtain ⟨hordered, hall⟩ := hout hcurrent
    exact ⟨hordered, by rw [hcurrent]; rfl, by simpa [tierPending] using hall⟩
  | some p =>
    cases hin : p.inTier with
    | false =>
      have hcurrent := houtside hin
      obtain ⟨hordered, hall⟩ := hout hcurrent
      refine ⟨hordered, by rw [hcurrent]; exact hin.symm, ?_⟩
      simpa [tierPending, Position.tierLeg, hin] using hall
    | true =>
      obtain ⟨hcurrent, hle⟩ := hinside p rfl hin
      have hstints : t.stints accTier = t.ended ++ [(p.tierCheckpoint, accTier)] := by
        simp [TierTally.stints, hcurrent]
      rw [hstints]
      refine ⟨fun s hs => ?_, by rw [hcurrent]; exact hin.symm, ?_⟩
      · obtain hs | hs := List.mem_append.mp hs
        · exact hended s hs
        · rw [List.mem_singleton.mp hs]
          exact hle
      · simp [hcredited, earned, tierPending, Position.tierLeg, hin, pendingFees]

/-- However its membership came and went, a position is credited the rise of the accumulator over
each stint that ended, rounded down once, and nothing else; with its pending leg that is the rise
over all its stints. -/
theorem tier_accrual (h : Tallied X key k t c) (hL : c.ledger key = some L) :
    (∀ s ∈ t.stints L.topTier.accTier, s.1 ≤ s.2) ∧
    t.current.isSome = memberOf (L.positions.lookup k) ∧
    t.credited = earned t.ended ∧
    t.credited + tierPending L.topTier.accTier (L.positions.lookup k)
      = earned (t.stints L.topTier.accTier) := by
  have hexact := h.exact.2 L (ledger_eq_some.mp hL)
  obtain ⟨hordered, hmember, hall⟩ := hexact.pending
  exact ⟨hordered, hmember, hexact.credited, hall⟩

end

-- ---------------------------------------------------------------------------
-- A refreshed stint
-- ---------------------------------------------------------------------------

def TierTally.watch (t : TierTally) (key k : Pubkey) (c c' : Chain) : Option TierTally := do
  let L ← c.ledger key
  let L' ← c'.ledger key
  pure (t.advance L.pool.accEqual L'.topTier.accTier (L.pool.owedFees - L'.pool.owedFees)
    (L.positions.lookup k) (L'.positions.lookup k))

theorem Tallied.watch {t t' : TierTally} (h : Tallied X key k t c)
    (hstep : SettlingStep X Rises c c') (hwatch : t.watch key k c c' = some t') :
    Tallied X key k t' c' := by
  simp only [TierTally.watch, Option.bind_eq_bind, Option.bind_eq_some_iff, Option.pure_def,
    Option.some.injEq] at hwatch
  obtain ⟨L, hL, L', hL', rfl⟩ := hwatch
  exact h.step hstep (ledger_eq_some.mp hL) (ledger_eq_some.mp hL')

/-- Card 30 waits; it joins the tier, and the accumulator rises by two and a half units. -/
def waitingBank : Chain := bankRun [admitCards, depositCard 30]

def joinedBank : Chain := waitingBank.after bank [approveCard 30 12000000 100]

def risenBank : Chain :=
  joinedBank.settle (.pool 0) ⟨0, 5 * ACC_PRECISION / 2, 0, 0, 0⟩

/-- It is revalued, and the accumulator rises as much again. -/
def sweepingBank : Chain := risenBank.after bank [(⟨3, 3⟩, .beginSweep (.key 2) (.pool 0))]

def refreshedBank : Chain := sweepingBank.after bank [revalueCard ⟨4, 4⟩ 13000000]

def twiceRisenBank : Chain :=
  refreshedBank.settle (.pool 0) ⟨0, 5 * ACC_PRECISION, 0, 0, 0⟩

/-- Unlocked and below the floor, it is closed. -/
def closedBank : Chain := twiceRisenBank.after bank [revalueCard ⟨5, 200⟩ 1]

theorem SettlingStep.of_script {s : Clock × Instr} (h : (runScript X [s] c).isOk) :
    SettlingStep X Rises c (c.after X [s]) := by
  obtain ⟨events, hrun⟩ := exec_after h
  exact .run (.instruction _ _ events trivial hrun)

theorem SettlingStep.of_rise {s : Settlement}
    (h : (c.ledger key).any (fun L => L.topTier.accTier ≤ s.accTier) = true) :
    SettlingStep X Rises c (c.settle key s) := by
  obtain ⟨L, hL, hrises⟩ := (Option.any_eq_true _ _).mp h
  exact .settle (ledger_eq_some.mp hL) (by simpa [Rises] using hrises)

/-- Two rises of two and a half units with a refresh between them earn five units, not four. -/
theorem tier_accrual_bank :
    ∃ t L, Tallied bank (.pool 0) (bankPosition 30) t closedBank ∧
      closedBank.ledger (.pool 0) = some L ∧ t.ended = [(0, 5 * ACC_PRECISION)] ∧
      t.credited = 5 ∧ earned (t.stints L.topTier.accTier) = 5 := by
  have hseen : (do
      let t ← (⟨none, [], 0⟩ : TierTally).watch (.pool 0) (bankPosition 30) waitingBank joinedBank
      let t ← t.watch (.pool 0) (bankPosition 30) joinedBank risenBank
      let t ← t.watch (.pool 0) (bankPosition 30) risenBank sweepingBank
      let t ← t.watch (.pool 0) (bankPosition 30) sweepingBank refreshedBank
      let t ← t.watch (.pool 0) (bankPosition 30) refreshedBank twiceRisenBank
      t.watch (.pool 0) (bankPosition 30) twiceRisenBank closedBank)
      = some ⟨none, [(0, 5 * ACC_PRECISION)], 5⟩ := by decide +kernel
  simp only [Option.bind_eq_bind, Option.bind_eq_some_iff] at hseen
  obtain ⟨t₁, h₁, t₂, h₂, t₃, h₃, t₄, h₄, t₅, h₅, h₆⟩ := hseen
  have hwaiting : Reachable bank waitingBank := bankRun_reachable (by decide +kernel)
  have hstart : (waitingBank.ledger (.pool 0)).map
      (fun L => memberOf (L.positions.lookup (bankPosition 30))) = some false := by decide +kernel
  obtain ⟨L₀, hL₀, hout⟩ := Option.map_eq_some_iff.mp hstart
  have htally : Tallied bank (.pool 0) (bankPosition 30) ⟨none, [(0, 5 * ACC_PRECISION)], 5⟩
      closedBank :=
    ((((((Tallied.start hwaiting.settling (ledger_eq_some.mp hL₀) hout).watch
      (.of_script (by decide +kernel)) h₁).watch (.of_rise (by decide +kernel)) h₂).watch
      (.of_script (by decide +kernel)) h₃).watch (.of_script (by decide +kernel)) h₄).watch
      (.of_rise (by decide +kernel)) h₅).watch (.of_script (by decide +kernel)) h₆
  have hend : (closedBank.ledger (.pool 0)).isSome = true := by decide +kernel
  obtain ⟨L, hL⟩ := Option.isSome_iff_exists.mp hend
  obtain ⟨-, -, hcredited, -⟩ := tier_accrual htally hL
  refine ⟨_, L, htally, hL, rfl, rfl, ?_⟩
  have hcredited : (5 : ℤ) = earned [(0, 5 * ACC_PRECISION)] := hcredited
  have hearned : earned [(0, 5 * ACC_PRECISION)] = 5 := by omega
  simpa [TierTally.stints] using hearned

end ByeMachine
