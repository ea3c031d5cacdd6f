import ByeMachine.Refinement.Accounting
import ByeMachine.Refinement.Deposits

/-!
# Re-attestations as moves

A re-attestation ticks the sweep and then revalues its position, which may cross
into the tier, or closes it: its member leaves the tier, its leaf goes back and
a successor may join.
-/

namespace ByeMachine

open Fallible

variable {clock : Clock} {c c' : Chain} {events : List Event} {poolKey k : Pubkey} {L : Ledger}

-- ---------------------------------------------------------------------------
-- begin_sweep and end_sweep
-- ---------------------------------------------------------------------------

theorem Touches.of_pool {pool' : Pool} (hwf : c.WellFormed) (hL : c.Reads poolKey L)
    (hpoolId : pool'.poolId = L.pool.poolId) (hindex : pool'.weightIndex = L.pool.weightIndex) :
    Touches c { c with pools := c.pools.insert poolKey pool' } poolKey L
      { L with pool := pool' } :=
  .of_write_pool hL rfl hpoolId hindex rfl (Store.insert_of_lookup hL.topTier).symm
    (.refl hwf.positionKey) hL.positions.symm rfl (.of_eq hwf hL rfl rfl)

theorem beginSweep_carries {operator : Pubkey} {update : Option ConfigUpdate} (hwf : c.WellFormed)
    (h : beginSweep clock c operator poolKey = .ok (c', events)) : Carries c c' poolKey update := by
  simp only [beginSweep, applyBeginSweep, bind_ok, require_ok, pure_ok, Prod.mk.injEq,
    Prod.exists] at h
  obtain ⟨_, -, _, hpool, _, _, ⟨-, -, rfl, -⟩, rfl, -⟩ := h
  obtain ⟨L, hL, rfl, -⟩ := hwf.loadPool hpool
  exact .of_moves (.of_pool hwf hL rfl rfl) (.single .tick)

theorem endSweep_carries {operator : Pubkey} {update : Option ConfigUpdate} (hwf : c.WellFormed)
    (h : endSweep clock c operator poolKey = .ok (c', events)) : Carries c c' poolKey update := by
  simp only [endSweep, applyEndSweep, bind_ok, require_ok, pure_ok, Prod.mk.injEq,
    Prod.exists] at h
  obtain ⟨_, -, _, hpool, _, _, _, ⟨-, -, _, -, rfl, -⟩, rfl, -⟩ := h
  obtain ⟨L, hL, rfl, -⟩ := hwf.loadPool hpool
  exact .of_moves (.of_pool hwf hL rfl rfl) (.single .tick)

-- ---------------------------------------------------------------------------
-- The close path's tier
-- ---------------------------------------------------------------------------

theorem vacate_departed {p p' : Position} {t' : TopTier} {removed : TierEntry}
    {state : PositionState} {accEqual : ℕ} (value : ℕ) (observedAt : ℤ) (hin : p.inTier = true)
    (hmax : L.topTier.len ≤ MAX_TIER_SIZE)
    (h : Tier.vacate L.topTier k ((p.departed state accEqual).revalued value observedAt)
      L.topTier.accTier = .ok (t', p', removed)) :
    TierAfter L k p t' ∧
      p' = p.settledOut state accEqual L.topTier.accTier value observedAt := by
  obtain ⟨-, hsettle⟩ := Tier.vacate_ok hmax h
  obtain ⟨hle, hlt, rfl⟩ := Tier.settleMember_ok.mp hsettle
  have hpending : pendingFees L.topTier.accTier p.tierCheckpoint
      + (pendingFees accEqual p.equalCheckpoint + p.accrued) < 2 ^ 64 := hlt
  simp only [Tier.vacate, bind_ok, okOr_ok, pure_ok, Prod.mk.injEq, Prod.exists] at h
  obtain ⟨_, _, hdemote, _, rfl, _, -, rfl, -⟩ := h
  refine ⟨?_, ?_⟩
  · rw [TierAfter, if_pos hin]
    exact ⟨hle, by omega, _, hdemote⟩
  · simp [Position.settledOut, Position.tierSettled, hin, Position.leftTier, Position.departed,
      Position.revalued, Position.equalOwed, Nat.add_left_comm]

/-- The tier a closing leaves, a successor having joined where one did. -/
def Succeeded (poolKey : Pubkey) (L : Ledger) (c : Chain) (p : Position) (t t' : TopTier)
    (positions' : Positions) : Prop :=
  (t' = t ∧ positions' = c.positions) ∨ p.inTier = true ∧
    ∃ k, Filled poolKey L.pool.tierSize L.topTier.accTier t t' c.positions positions' k

theorem vacateAndFill_ok {p p' : Position} {t' : TopTier} {tierSize : ℕ}
    {remaining : List AccountMeta} {positions positions' : Positions} {change : TierChange}
    (h : vacateAndFill L.topTier tierSize poolKey k p remaining positions
      = .ok (t', p', positions', change)) :
    ∃ t removed, Tier.vacate L.topTier k p L.topTier.accTier = .ok (t, p', removed) ∧
      ((t' = t ∧ positions' = positions) ∨
        ∃ kc, Filled poolKey tierSize L.topTier.accTier t t' positions positions' kc) := by
  simp only [vacateAndFill, bind_ok, pure_ok, Prod.mk.injEq, Prod.exists] at h
  obtain ⟨t, _, removed, hvacate, _, _, _, hfill, rfl, rfl, rfl, -⟩ := h
  exact ⟨t, removed, hvacate, fillVacancyFromCandidate_ok hfill⟩

theorem vacancy_moves {p : Position} {t t' : TopTier} {positions' : Positions} (hwf : c.WellFormed)
    (hL : c.Reads poolKey L) (hranked : L.Ranked) (hp : L.positions.lookup k = some p)
    (hopen : L.pool.openBatches = 0) (htier : TierAfter L k p t)
    (hsucceeded : Succeeded poolKey L c p t t' positions') :
    OnlyPool poolKey c.positions positions' ∧
      Moves L { L with
        topTier := t'
        positions := (Store.restrict (ofPool poolKey) positions').insert k
          (p.tierSettled L.topTier.accTier) } := by
  have hleave := htier.moves hp hopen
  obtain ⟨hfound, hpool⟩ := hL.lookup.mp hp
  have hsettled : (p.tierSettled L.topTier.accTier).pool = poolKey := by simpa using hpool
  obtain ⟨rfl, rfl⟩ | ⟨hin, kc, hfill⟩ := hsucceeded
  · refine ⟨.refl hwf.positionKey, ?_⟩
    rw [← hL.positions]
    exact hleave
  · rw [← htier.accTier hranked.len_le_max] at hfill
    obtain ⟨honly, hjoin⟩ := Filled.moves (k := k)
      (L := { L with
        topTier := t, positions := L.positions.insert k (p.tierSettled L.topTier.accTier) })
      hfill (.refl hwf.positionKey) (congrArg (Finmap.insert _ _) hL.positions)
      (fun q hq => by rwa [← Option.some.inj (hfound.symm.trans hq)]) hsettled
    rw [restrict_write hsettled] at hjoin
    exact ⟨honly, hleave.trans hjoin⟩

theorem closing_moves {p : Position} {stats : WalletStats} {index : WeightIndex}
    {targets : BlankTargets} (state : PositionState) {t t' : TopTier} {positions' : Positions}
    (value : ℕ) (observedAt : ℤ) (hwf : c.WellFormed) (hL : c.Reads poolKey L) (hranked : L.Ranked)
    (hp : L.positions.lookup k = some p) (hfrom : DepartsFrom L.pool p stats targets)
    (hstats : L.walletStats p.depositor = some stats)
    (hafter : state = .closedBelowFloor ∨ state = .seized)
    (hindex : L.weightIndex.remove p.slotIndex p.recordedValue
      (L.pool.wReal - weight p.recordedValue) = .ok index)
    (htier : TierAfter L k p t) (hsucceeded : Succeeded poolKey L c p t t' positions') :
    OnlyPool poolKey c.positions positions' ∧
      Moves L { L with
        pool := L.pool.without p.recordedValue targets
        weightIndex := index
        topTier := t'
        positions := (Store.restrict (ofPool poolKey) positions').insert k
          (p.settledOut state L.pool.accEqual L.topTier.accTier value observedAt)
        walletStats := Function.update L.walletStats p.depositor
          (some (stats.without p.recordedValue)) } := by
  obtain ⟨honly, hvacated⟩ := vacancy_moves hwf hL hranked hp hfrom.opened htier hsucceeded
  have hdepart := @Move.depart { L with
      topTier := t'
      positions := (Store.restrict (ofPool poolKey) positions').insert k
        (p.tierSettled L.topTier.accTier) } _ _ _ _ _ _ value observedAt
    (Finmap.lookup_insert _) (by simp) (hfrom.tierSettled _) (by simpa using hstats) hafter
    (by simpa using hindex)
  simp only [Finmap.insert_insert, Position.tierSettled_recordedValue,
    Position.tierSettled_depositor] at hdepart
  exact ⟨honly, .tail hvacated hdepart⟩

-- ---------------------------------------------------------------------------
-- record_value
-- ---------------------------------------------------------------------------

theorem recordTier_kept {outcome : RecordOutcome} {p p' : Position} {t' : TopTier}
    {tierSize value : ℕ} {remaining : List AccountMeta} {positions positions' : Positions}
    {change : TierChange} (hkept : outcome ≠ .close) (hvalue : p.recordedValue = value)
    (h : recordTier outcome L.topTier tierSize poolKey k p value remaining positions
      = .ok (t', p', positions', change)) :
    (p.inTier = true ∧
      Tier.refreshMember L.topTier tierSize k (Tier.entryOf k p) = .ok t' ∧
      p' = p ∧ positions' = positions) ∨
    (p.inTier = false ∧ ∃ entered,
      Crossed tierSize L.topTier (Tier.entryOf k p) positions t' positions' entered ∧
      p' = if entered then p.entered L.topTier.accTier else p) := by
  subst hvalue
  cases hin : p.inTier with
  | true =>
    simp only [recordTier, if_neg hkept, hin, if_true, bind_ok, pure_ok, Prod.mk.injEq] at h
    obtain ⟨_, hrefresh, rfl, rfl, rfl, -⟩ := h
    exact .inl ⟨rfl, hrefresh, rfl, rfl⟩
  | false =>
    simp only [recordTier, if_neg hkept, hin, Bool.false_eq_true, if_false] at h
    exact .inr ⟨rfl, crossAndSettle_ok h⟩

theorem recordTier_closed {p p' : Position} {t' : TopTier} {tierSize value : ℕ}
    {remaining : List AccountMeta} {positions positions' : Positions} {change : TierChange}
    (h : recordTier .close L.topTier tierSize poolKey k p value remaining positions
      = .ok (t', p', positions', change)) :
    (p.inTier = true ∧ vacateAndFill L.topTier tierSize poolKey k p remaining positions
      = .ok (t', p', positions', change)) ∨
    (p.inTier = false ∧ t' = L.topTier ∧ p' = p ∧ positions' = positions) := by
  cases hin : p.inTier with
  | true =>
    simp only [recordTier, if_true, hin] at h
    exact .inl ⟨rfl, h⟩
  | false =>
    simp only [recordTier, if_true, hin, Bool.false_eq_true, if_false, pure_ok,
      Prod.mk.injEq] at h
    obtain ⟨rfl, rfl, rfl, -⟩ := h
    exact .inr ⟨rfl, rfl, rfl, rfl⟩

theorem recordTier_closing {p p' : Position} {t' : TopTier} {accEqual value : ℕ} {observedAt : ℤ}
    {remaining : List AccountMeta} {positions' : Positions} {change : TierChange}
    (hmax : L.topTier.len ≤ MAX_TIER_SIZE)
    (h : recordTier .close L.topTier L.pool.tierSize poolKey k
      ((p.departed .closedBelowFloor accEqual).revalued value observedAt) value remaining
      c.positions = .ok (t', p', positions', change)) :
    ∃ t, TierAfter L k p t ∧
      p' = p.settledOut .closedBelowFloor accEqual L.topTier.accTier value observedAt ∧
      Succeeded poolKey L c p t t' positions' := by
  obtain ⟨hin, hvacate⟩ | ⟨hout, rfl, rfl, rfl⟩ := recordTier_closed h
  · have hin : p.inTier = true := hin
    obtain ⟨t, removed, hvacate, hfill⟩ := vacateAndFill_ok hvacate
    obtain ⟨hafter, hp'⟩ := vacate_departed _ _ hin hmax hvacate
    exact ⟨t, hafter, hp', hfill.imp_right (And.intro hin)⟩
  · have hout : p.inTier = false := hout
    exact ⟨L.topTier, by simp [TierAfter, hout],
      by simp [Position.settledOut, Position.tierSettled, hout], .inl ⟨rfl, rfl⟩⟩

theorem closing_carries {p : Position} {stats : WalletStats} {index : WeightIndex}
    {targets : BlankTargets} {state : PositionState} {t t' : TopTier} {positions' : Positions}
    {sweepUpdates value : ℕ} {observedAt : ℤ} {update : Option ConfigUpdate} (hwf : c.WellFormed)
    (hL : c.Reads poolKey L) (hranked : L.Ranked) (hbound : Bound L poolKey k p stats)
    (hfrom : DepartsFrom L.pool p stats targets)
    (hafter : state = .closedBelowFloor ∨ state = .seized)
    (hindex : L.weightIndex.remove p.slotIndex p.recordedValue
      (L.pool.wReal - weight p.recordedValue) = .ok index)
    (htier : TierAfter L k p t) (hsucceeded : Succeeded poolKey L c p t t' positions') :
    Carries c { c with
      pools := c.pools.insert poolKey { L.pool.without p.recordedValue targets with sweepUpdates }
      positions := positions'.insert k
        (p.settledOut state L.pool.accEqual L.topTier.accTier value observedAt)
      weightIndexes := c.weightIndexes.insert L.pool.weightIndex index
      topTiers := c.topTiers.insert (.topTier poolKey) t'
      walletStats := c.walletStats.insert (.walletStats poolKey p.depositor)
        (stats.without p.recordedValue) } poolKey update := by
  obtain ⟨hp, hstats, hofPool, hkey, -⟩ := hbound
  obtain ⟨honly, hmoves⟩ := closing_moves state value observedAt hwf hL hranked hp hfrom hstats
    hafter hindex htier hsucceeded
  have hsettled := (Position.tierSettled_pool p L.topTier.accTier).trans hofPool
  exact .of_moves (Touches.of_write_stats hL rfl rfl rfl rfl rfl
    (honly.write hsettled (hkey.trans (congrArg _ (Position.tierSettled_nftMint _ _).symm)))
    (restrict_write hsettled) rfl (.of_eq hwf hL rfl rfl)) (.tail hmoves .tick)

theorem reattested_carries {p p' : Position} {stats : WalletStats} {index : WeightIndex}
    {targets : BlankTargets} {t' : TopTier} {positions' : Positions}
    {wReal activeValue sweepUpdates value : ℕ} {observedAt : ℤ} {outcome : RecordOutcome}
    {remaining : List AccountMeta} {change : TierChange} {update : Option ConfigUpdate}
    (hwf : c.WellFormed) (hL : c.Reads poolKey L) (hranked : L.Ranked)
    (hbound : Bound L poolKey k p stats) (hrevalues : Revalues L.pool p value)
    (hweight : wReal + weight p.recordedValue = L.pool.wReal + weight value)
    (hvalue : activeValue + p.recordedValue = stats.activeValue + value)
    (htargets : Rebalance.evaluate L.pool.nReal wReal L.pool.blankFaces L.pool.ticketTarget
      = .ok targets)
    (hindex : L.weightIndex.update p.slotIndex p.recordedValue value wReal = .ok index)
    (hkept : outcome ≠ .close)
    (htier : recordTier outcome L.topTier L.pool.tierSize poolKey k (p.revalued value observedAt)
      value remaining c.positions = .ok (t', p', positions', change)) :
    Carries c { c with
      pools := c.pools.insert poolKey
        { L.pool.rebalanced L.pool.nReal wReal targets with sweepUpdates }
      positions := positions'.insert k p'
      weightIndexes := c.weightIndexes.insert L.pool.weightIndex index
      topTiers := c.topTiers.insert (.topTier poolKey) t'
      walletStats := c.walletStats.insert (.walletStats poolKey p.depositor)
        { stats with activeValue } } poolKey update := by
  obtain ⟨hp, hstats, hofPool, hkey, -⟩ := hbound
  obtain ⟨-, hopen, hactive, -⟩ := hrevalues
  obtain ⟨hin, hrefresh, rfl, rfl⟩ | ⟨hout, entered, hcross, rfl⟩ := recordTier_kept hkept rfl htier
  · have hin : p.inTier = true := hin
    have hmove := Move.revalue hp hactive hopen hstats hindex hweight hvalue htargets
      (fun _ => hrefresh) (fun hout => absurd hin (by simp [hout]))
    exact .of_moves (Touches.of_write_stats hL rfl rfl rfl rfl rfl
      ((OnlyPool.refl hwf.positionKey).write hofPool hkey)
      ((restrict_write (p := p.revalued value observedAt) hofPool).trans
        (congrArg (Finmap.insert _ _) hL.positions.symm)) rfl
      (.of_eq hwf hL rfl rfl)) (.tail (.single hmove) .tick)
  · have hout : p.inTier = false := hout
    have hmove := @Move.revalue _ _ _ _ _ _ _ _ _ _ observedAt hp hactive hopen hstats hindex hweight
      hvalue htargets (fun hin => absurd hin (by simp [hout])) (fun _ => rfl)
    obtain ⟨honly, hmoves⟩ := Crossed.moves poolKey (hmove.ranked hranked) hcross
      (.refl hwf.positionKey) (congrArg (Finmap.insert _ _) hL.positions) hofPool hactive hout
    refine .of_moves (Touches.of_write_stats hL rfl rfl rfl rfl rfl (honly.write ?_ ?_) rfl rfl
      (.of_eq hwf hL rfl rfl)) (.tail (.head hmove hmoves) .tick)
    · cases entered <;> exact hofPool
    · cases entered <;> exact hkey

theorem recordValue_carries {operator : Pubkey} {remaining : List AccountMeta} {value : ℕ}
    {observedAt : ℤ} {update : Option ConfigUpdate} (hwf : c.WellFormed)
    (hranked : ∀ L, c.Reads poolKey L → L.Ranked)
    (h : recordValue clock c operator poolKey k remaining value observedAt = .ok (c', events)) :
    Carries c c' poolKey update := by
  simp only [recordValue, bind_ok, pure_ok, Prod.mk.injEq, Prod.exists] at h
  obtain ⟨_, -, a, ha, booked, hbooked, index, hindex, t', p', positions', _, htier, rfl, -⟩ := h
  obtain ⟨L, p, stats, rfl, hL, hbound⟩ := hwf.loadThroughPool ha
  dsimp only at hbooked hindex htier ⊢
  by_cases hclose : classify value L.pool.admissionFloor p.lockUntil clock.unixTimestamp = .close
  · obtain ⟨targets, sweepUpdates, -, hfrom, -, rfl⟩ := applyRecordValue_closed hbooked hclose
    obtain ⟨t, hafter, rfl, hsucceeded⟩ :=
      recordTier_closing (hranked L hL).len_le_max htier
    exact closing_carries hwf hL (hranked L hL) hbound hfrom (.inl rfl) hindex hafter hsucceeded
  · obtain ⟨targets, wReal, activeValue, sweepUpdates, hrevalues, hweight, hvalue, htargets, rfl⟩ :=
      applyRecordValue_kept hbooked hclose
    refine reattested_carries hwf hL (hranked L hL) hbound hrevalues hweight hvalue htargets ?_
      hclose htier
    revert hindex
    simp only [moveLeaf, reattested]
    cases hclass : classify value L.pool.admissionFloor p.lockUntil clock.unixTimestamp with
    | close => exact absurd hclass hclose
    | refresh | retained => exact id

end ByeMachine
