import ByeMachine.Invariants.Entitled
import ByeMachine.Invariants.Settlement

/-!
# The fee accounts' invariant

Where settlements only raise the accumulators and keep the owed fees above what
the active positions are owed, no checkpoint is ever ahead of its accumulator
and every active position can be paid. With the weight records in step, what a
departure asks is then always there.
-/

namespace ByeMachine

open Fallible

/-- An active position's checkpoints are not ahead, and a pending one has nothing settled. -/
structure Position.Checked (p : Position) (accEqual accTier : ℕ) : Prop where
  equal : p.state = .active → p.equalCheckpoint ≤ accEqual
  tier : p.state = .active → p.inTier = true → p.tierCheckpoint ≤ accTier
  pending : p.state = .pending → p.accrued = 0

def Ledger.activeOwed (L : Ledger) : ℕ :=
  sumActive (fun p => p.legs L.pool.accEqual L.topTier.accTier) L.positions

structure Ledger.Accounted (L : Ledger) : Prop where
  checked : ∀ k p, L.positions.lookup k = some p → p.Checked L.pool.accEqual L.topTier.accTier
  owed : L.activeOwed ≤ L.pool.owedFees
  width : L.pool.owedFees < 2 ^ 64

/-- An accrual: the accumulators rise, and the owed fees cover what the active positions are owed
under them. -/
structure Accrues (L : Ledger) (s : Settlement) : Prop where
  accEqual : L.pool.accEqual ≤ s.accEqual
  accTier : L.topTier.accTier ≤ s.accTier
  owed : (L.settled s).activeOwed ≤ s.owedFees
  width : s.owedFees < 2 ^ 64

variable {accEqual accTier : ℕ} {p q : Position} {k : Pubkey} {L L' : Ledger} {s : Settlement}
  {stats : WalletStats} {targets : BlankTargets}

-- ---------------------------------------------------------------------------
-- One position
-- ---------------------------------------------------------------------------

theorem PositionStep.checked (h : PositionStep accEqual accTier p q)
    (hchecked : p.Checked accEqual accTier) : q.Checked accEqual accTier := by
  cases h with
  | activate hstate hout =>
    exact ⟨fun _ => le_rfl, fun _ hin => absurd (hout.symm.trans hin) (by decide), nofun⟩
  | revalue => exact ⟨hchecked.equal, hchecked.tier, hchecked.pending⟩
  | depart hactive hout hafter =>
    obtain rfl | rfl := hafter <;> exact ⟨nofun, nofun, nofun⟩
  | leave hactive => exact ⟨hchecked.equal, fun _ => nofun,
      fun hpending => absurd (hactive.symm.trans hpending) (by decide)⟩
  | join => exact ⟨hchecked.equal, fun _ _ => le_rfl, hchecked.pending⟩
  | retire hinactive hafter =>
    obtain rfl | rfl := hafter <;> exact ⟨nofun, nofun, nofun⟩

/-- No change adds to what an active position is owed: it was active before, or it was pending and
had nothing. -/
theorem PositionStep.share_le (h : PositionStep accEqual accTier p q)
    (hchecked : p.Checked accEqual accTier) :
    q.share (fun p => p.legs accEqual accTier) ≤ p.share fun p => p.legs accEqual accTier := by
  by_cases hq : q.state = .active
  · have hentitlement := h.entitlement
    rw [Position.share_active hq, ← Position.entitlement_active hq, hentitlement]
    by_cases hp : p.state = .active
    · rw [Position.share_active hp, Position.entitlement_active hp]
    · cases h with
      | activate hstate =>
        rw [Position.entitlement_inactive hp, hchecked.pending hstate]
        exact Nat.zero_le _
      | revalue hactive | leave hactive | join hactive => exact absurd hactive hp
      | depart hactive => exact absurd hactive hp
      | retire _ hafter => obtain rfl | rfl := hafter <;> cases hq
  · rw [Position.share_inactive hq]
    exact Nat.zero_le _

theorem PositionSteps.checked (h : PositionSteps accEqual accTier p q)
    (hchecked : p.Checked accEqual accTier) :
    q.Checked accEqual accTier ∧
      q.share (fun p => p.legs accEqual accTier) ≤ p.share fun p => p.legs accEqual accTier := by
  induction h with
  | refl => exact ⟨hchecked, le_rfl⟩
  | tail _ hstep ih => exact ⟨hstep.checked ih.1, (hstep.share_le ih.1).trans ih.2⟩

-- ---------------------------------------------------------------------------
-- Every run
-- ---------------------------------------------------------------------------

theorem Ledger.Evolves.checked (h : L.Evolves L') (haccounted : L.Accounted)
    (hp : L'.positions.lookup k = some p) : p.Checked L'.pool.accEqual L'.topTier.accTier := by
  obtain ⟨p₀, hp₀, hsteps⟩ := h.positions k p hp
  rw [h.accEqual, h.accTier]
  exact (PositionSteps.checked hsteps (haccounted.checked k p₀ hp₀)).1

theorem Ledger.Evolves.activeOwed_le (h : L.Evolves L') (haccounted : L.Accounted) :
    L'.activeOwed ≤ L.activeOwed := by
  unfold Ledger.activeOwed
  rw [h.accEqual, h.accTier]
  have hevolves : Store.Evolves
      (fun p q => p.Checked L.pool.accEqual L.topTier.accTier ∧
        PositionSteps L.pool.accEqual L.topTier.accTier p q) L.positions L'.positions := by
    intro k p hp
    obtain ⟨p₀, hp₀, hsteps⟩ := h.positions k p hp
    exact ⟨p₀, hp₀, haccounted.checked k p₀ hp₀, hsteps⟩
  exact hevolves.total_le fun _ _ _ hpq => (PositionSteps.checked hpq.2 hpq.1).2

theorem Move.accounted (h : Move L L') (hranked : L.Ranked) (haccounted : L.Accounted) :
    L'.Accounted := by
  have hevolves := h.evolves hranked
  have hle := (hevolves.activeOwed_le haccounted).trans haccounted.owed
  refine ⟨fun k p hp => hevolves.checked haccounted hp, ?_, ?_⟩
  · cases h with
    | @withdraw k p stats index targets hp htier hfrom =>
      have htotal := Store.total_erase (f := fun _ p => Position.share
        (fun p => p.legs L.pool.accEqual L.topTier.accTier) p) hp
      rw [Position.share_active hfrom.active, Position.legs_out htier] at htotal
      have howed := haccounted.owed
      unfold Ledger.activeOwed sumActive at howed
      show Store.total (fun _ p => Position.share
        (fun p => p.legs L.pool.accEqual L.topTier.accTier) p) (L.positions.erase k)
        ≤ L.pool.owedFees - p.equalOwed L.pool.accEqual
      omega
    | _ => exact hle
  · cases h with
    | withdraw => exact lt_of_le_of_lt (Nat.sub_le _ _) haccounted.width
    | _ => exact haccounted.width

theorem Moves.accounted (h : Moves L L') (hranked : L.Ranked) (haccounted : L.Accounted) :
    L'.Accounted := by
  induction h with
  | refl => exact haccounted
  | tail hmoves hmove ih => exact hmove.accounted (Moves.ranked hmoves hranked) ih

theorem Intake.accounted (h : Intake L L') (haccounted : L.Accounted) : L'.Accounted := by
  cases h with
  | @intro k p stats hfree hstate htier haccrued =>
    refine ⟨fun x q hq => ?_, ?_, haccounted.width⟩
    · by_cases hx : x = k
      · subst hx
        rw [Finmap.lookup_insert, Option.some.injEq] at hq
        subst hq
        have hinactive : p.state ≠ .active := by rw [hstate]; decide
        exact ⟨fun hactive => absurd hactive hinactive, fun hactive => absurd hactive hinactive,
          fun _ => haccrued⟩
      · exact haccounted.checked x q (Finmap.lookup_insert_of_ne _ hx ▸ hq)
    · show sumActive _ (L.positions.insert k p) ≤ L.pool.owedFees
      rw [sumActive_intake _ hfree (by rw [hstate]; decide)]
      exact haccounted.owed

theorem Configure.accounted {update : ConfigUpdate} (h : Configure update L L')
    (hranked : L.Ranked) (haccounted : L.Accounted) : L'.Accounted := by
  have hevolves := h.evolves hranked
  have hle := (hevolves.activeOwed_le haccounted).trans haccounted.owed
  have howed : L'.pool.owedFees = L.pool.owedFees := by
    cases h
    exact (applyUpdate_sameLedger L.pool update).owedFees
  exact ⟨fun k p hp => hevolves.checked haccounted hp, howed ▸ hle, howed ▸ haccounted.width⟩

theorem Change.accounted {update : Option ConfigUpdate} (h : Change update L L')
    (hranked : L.Ranked) (haccounted : L.Accounted) : L'.Accounted := by
  cases h with
  | moves hmoves => exact Moves.accounted hmoves hranked haccounted
  | intake hintake hmoves =>
    exact Moves.accounted hmoves (hintake.ranked hranked) (hintake.accounted haccounted)
  | configure hupdate hconfig => exact hconfig.accounted hranked haccounted

theorem Ledger.Founded.accounted (h : L.Founded) : L.Accounted := by
  obtain ⟨key, poolId, weightIndex, args, bump, tierBump, -, rfl⟩ := h
  exact ⟨fun k p hp => absurd hp (by simp [Ledger.founded]), le_rfl, Nat.two_pow_pos 64⟩

theorem Accrues.accounted (h : Accrues L s) (haccounted : L.Accounted) :
    (L.settled s).Accounted where
  checked := by
    intro k p hp
    obtain ⟨hequal, htier, hpending⟩ := haccounted.checked k p hp
    exact ⟨fun hactive => (hequal hactive).trans h.accEqual,
      fun hactive hin => (htier hactive hin).trans h.accTier, hpending⟩
  owed := h.owed
  width := h.width

/-- Every pool's fee accounts are in order, whatever accrues between the instructions. -/
theorem SettlingReachable.accounted {X : Programs} {c : Chain} {key : Pubkey}
    (h : SettlingReachable X Accrues c) (hL : c.Reads key L) : L.Accounted :=
  h.ledger (P := Ledger.Accounted) (fun _ hfounded => hfounded.accounted)
    (fun _ _ _ hranked _ hchange haccounted => hchange.accounted hranked haccounted)
    (fun _ _ haccrues haccounted => haccrues.accounted haccounted) hL

-- ---------------------------------------------------------------------------
-- Rollups
-- ---------------------------------------------------------------------------

def Ledger.RolledUp (L : Ledger) : Prop :=
  ∀ k p, L.positions.lookup k = some p → ∃ stats, L.walletStats p.depositor = some stats

theorem PositionSteps.depositor (h : PositionSteps accEqual accTier p q) :
    q.depositor = p.depositor := by
  induction h with
  | refl => rfl
  | tail _ hstep ih =>
    rw [← ih]
    cases hstep <;> rfl

theorem update_isSome {f : Pubkey → Option WalletStats} {owner other : Pubkey}
    (h : ∃ stats, f other = some stats) :
    ∃ stats', Function.update f owner (some stats) other = some stats' := by
  by_cases hother : other = owner
  · subst hother
    exact ⟨stats, Function.update_self ..⟩
  · rwa [Function.update_of_ne hother]

theorem Move.walletStats (h : Move L L') {owner : Pubkey}
    (hstats : ∃ stats, L.walletStats owner = some stats) :
    ∃ stats, L'.walletStats owner = some stats := by
  cases h with
  | activate | revalue | depart | withdraw => exact update_isSome hstats
  | _ => exact hstats

theorem Ledger.Evolves.rolledUp (h : L.Evolves L')
    (hstats : ∀ owner, (∃ stats, L.walletStats owner = some stats) →
      ∃ stats, L'.walletStats owner = some stats) (hrolled : L.RolledUp) : L'.RolledUp := by
  intro k q hq
  obtain ⟨p, hp, hsteps⟩ := h.positions k q hq
  rw [PositionSteps.depositor hsteps]
  exact hstats _ (hrolled k p hp)

theorem Moves.rolledUp (h : Moves L L') (hranked : L.Ranked) (hrolled : L.RolledUp) :
    L'.RolledUp := by
  induction h with
  | refl => exact hrolled
  | tail hmoves hmove ih =>
    exact (hmove.evolves (Moves.ranked hmoves hranked)).rolledUp (fun _ => hmove.walletStats) ih

theorem Intake.rolledUp (h : Intake L L') (hrolled : L.RolledUp) : L'.RolledUp := by
  cases h with
  | @intro k p stats =>
    intro x q hq
    by_cases hx : x = k
    · subst hx
      rw [Finmap.lookup_insert, Option.some.injEq] at hq
      exact ⟨stats, hq ▸ Function.update_self ..⟩
    · exact update_isSome (hrolled x q (Finmap.lookup_insert_of_ne _ hx ▸ hq))

theorem Change.rolledUp {update : Option ConfigUpdate} (h : Change update L L')
    (hranked : L.Ranked) (hrolled : L.RolledUp) : L'.RolledUp := by
  cases h with
  | moves hmoves => exact Moves.rolledUp hmoves hranked hrolled
  | intake hintake hmoves =>
    exact Moves.rolledUp hmoves (hintake.ranked hranked) (hintake.rolledUp hrolled)
  | configure hupdate hconfig =>
    refine (hconfig.evolves hranked).rolledUp (fun _ hstats => ?_) hrolled
    cases hconfig
    exact hstats

theorem SettlingReachable.rolledUp {X : Programs} {may : Ledger → Settlement → Prop} {c : Chain}
    {key : Pubkey} (h : SettlingReachable X may c) (hL : c.Reads key L) : L.RolledUp := by
  refine h.ledger (P := Ledger.RolledUp) ?_
    (fun _ _ _ hranked _ hchange hrolled => hchange.rolledUp hranked hrolled)
    (fun _ _ _ hrolled => hrolled) hL
  rintro L ⟨key, poolId, weightIndex, args, bump, tierBump, -, rfl⟩ k p hp
  exact absurd hp (by simp [Ledger.founded])

-- ---------------------------------------------------------------------------
-- What a departure finds
-- ---------------------------------------------------------------------------

theorem Ledger.Accounted.legs_le (h : L.Accounted) (hp : L.positions.lookup k = some p)
    (hactive : p.state = .active) :
    p.legs L.pool.accEqual L.topTier.accTier ≤ L.pool.owedFees :=
  (le_sumActive (fun p => p.legs L.pool.accEqual L.topTier.accTier) hp hactive).trans h.owed

theorem Ledger.Synced.stats_exists (h : L.Synced) (hp : L.positions.lookup k = some p)
    (hactive : p.state = .active) : ∃ stats, L.walletStats p.depositor = some stats := by
  refine Option.ne_none_iff_exists'.mp fun hnone => ?_
  have hcount := h.count p.depositor
  rw [countOf, hnone] at hcount
  have hle := le_sumActive (ownedCount p.depositor) hp hactive
  rw [← hcount, ownedCount, if_pos rfl] at hle
  exact absurd hle (by decide)

/-- With the weight records in step, only the freeze, the checkpoint and the controller stand in
the way of a departure. -/
theorem Ledger.Synced.departsFrom (h : L.Synced) (hp : L.positions.lookup k = some p)
    (hactive : p.state = .active) (hstats : L.walletStats p.depositor = some stats)
    (hopen : L.pool.openBatches = 0) (hcheckpoint : p.equalCheckpoint ≤ L.pool.accEqual)
    (htargets : Rebalance.evaluate (L.pool.nReal - 1)
      (L.pool.wReal - weight p.recordedValue) L.pool.blankFaces L.pool.ticketTarget
        = .ok targets) : DepartsFrom L.pool p stats targets where
  opened := hopen
  active := hactive
  attested := h.attested k p hp hactive
  checkpoint := hcheckpoint
  weight := by
    rw [h.wReal, h.total]
    exact le_sumActive (fun p => ByeMachine.weight p.recordedValue) hp hactive
  nReal := by
    rw [h.nReal]
    exact le_sumActive (fun _ => 1) hp hactive
  count := by
    have hcount := h.count p.depositor
    rw [countOf, hstats] at hcount
    have hle := le_sumActive (ownedCount p.depositor) hp hactive
    rw [ownedCount, if_pos rfl] at hle
    exact hle.trans hcount.ge
  value := by
    have hvalue := h.value p.depositor
    rw [valueOf, hstats] at hvalue
    have hle := le_sumActive (ownedValue p.depositor) hp hactive
    rw [ownedValue, if_pos rfl] at hle
    exact hle.trans hvalue.ge
  targets := htargets
  fits := by
    have hfits := h.slots.fits
    rw [← h.wReal] at hfits
    exact lt_of_le_of_lt (Nat.sub_le _ _) hfits

theorem Ledger.Synced.remove_succeeds (h : L.Synced) (hp : L.positions.lookup k = some p)
    (hactive : p.state = .active) :
    ∃ index, L.weightIndex.remove p.slotIndex p.recordedValue
      (L.pool.wReal - weight p.recordedValue) = .ok index := by
  obtain ⟨h0, hC⟩ := h.attested k p hp hactive
  obtain ⟨index, hrun, -⟩ := WeightIndex.remove_spec h.slots h0 hC
    ⟨h.slot_lt hp hactive, h.leaf hp hactive, rfl⟩
  rw [← h.wReal] at hrun
  exact ⟨index, hrun⟩

theorem Ledger.Ranked.vacate_succeeds (h : L.Ranked) (hp : L.positions.lookup k = some p)
    (hin : p.inTier = true) {q : Position} (hle : q.tierCheckpoint ≤ L.topTier.accTier)
    (hlt : pendingFees L.topTier.accTier q.tierCheckpoint + q.accrued < 2 ^ 64) :
    ∃ t, Tier.vacate L.topTier k q L.topTier.accTier
      = .ok (t, q.leftTier L.topTier.accTier, Tier.entryOf k p) := by
  obtain ⟨t, hdemote⟩ := h.listed.demote_succeeds h.len_le_max hp hin
  have hsettle : Tier.settleMember q L.topTier.accTier = .ok (q.leftTier L.topTier.accTier) :=
    Tier.settleMember_ok.mpr ⟨hle, hlt, rfl⟩
  exact ⟨t, by simp [Tier.vacate, hdemote, hsettle, pure, Except.pure]⟩

end ByeMachine
