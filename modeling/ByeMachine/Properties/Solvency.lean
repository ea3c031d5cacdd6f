import ByeMachine.Invariants.Entitled
import ByeMachine.Invariants.Settlement
import ByeMachine.Script

/-!
# Solvency

Whatever the accumulators stand at, an instruction pays a position exactly its
entitlement out of the owed fees and the vault, and changes no other position's.
-/

namespace ByeMachine

open Fallible

/-- The owed fees cover every entitlement, and the vault covers the owed fees and the rolls. -/
structure Ledger.Solvent (L : Ledger) : Prop where
  owed : L.entitlements ≤ L.pool.owedFees
  vault : L.pool.owedFees + L.pool.pendingRollLiability ≤ L.vault

/-- From `L` to `L'` the accumulators stand; a position that stays keeps its entitlement, and a new
one has none. -/
structure Ledger.Entitles (L L' : Ledger) : Prop where
  accEqual : L'.pool.accEqual = L.pool.accEqual
  accTier : L'.topTier.accTier = L.topTier.accTier
  stays : ∀ k p p', L.positions.lookup k = some p → L'.positions.lookup k = some p' →
    L'.entitled p' = L.entitled p
  new : ∀ k p', L.positions.lookup k = none → L'.positions.lookup k = some p' →
    L'.entitled p' = 0

variable {X : Programs} {c c' : Chain} {key : Pubkey} {L L' L'' : Ledger}

theorem Ledger.Evolves.entitles (h : L.Evolves L') : L.Entitles L' where
  accEqual := h.accEqual
  accTier := h.accTier
  stays := by
    intro k p p' hp hp'
    obtain ⟨q, hq, heq⟩ := h.kept hp'
    obtain rfl := Option.some.inj (hp.symm.trans hq)
    exact heq
  new := by
    intro k p' hnone hp'
    obtain ⟨q, hq, -⟩ := h.kept hp'
    rw [hnone] at hq
    cases hq

/-- A payout leaves the owed fees and the vault by exactly the entitlement it ends. -/
theorem Move.solvent (h : Move L L') (hranked : L.Ranked) (hsolvent : L.Solvent) : L'.Solvent := by
  obtain ⟨howed, hvault⟩ := hsolvent
  have hle := (h.evolves hranked).entitlements_le.trans howed
  cases h with
  | @withdraw k p stats index targets hp htier hfrom hstats howedFees hcovered =>
    have hpaid : L.entitled p = p.equalOwed L.pool.accEqual := by
      rw [Ledger.entitled, Position.entitlement_active hfrom.active, Position.legs_out htier]
    have htotal : p.equalOwed L.pool.accEqual + Store.total (fun _ p => L.entitled p)
        (L.positions.erase k) = L.entitlements := by
      rw [← hpaid]
      exact Store.total_erase (f := fun _ p => L.entitled p) hp
    have hrest : Store.total (fun _ p => L.entitled p) (L.positions.erase k)
        ≤ L.pool.owedFees - p.equalOwed L.pool.accEqual := by omega
    refine ⟨hrest, ?_⟩
    show L.pool.owedFees - p.equalOwed L.pool.accEqual + L.pool.pendingRollLiability
      ≤ L.vault - p.equalOwed L.pool.accEqual
    omega
  | @commit liability =>
    refine ⟨hle, ?_⟩
    show L.pool.owedFees + (L.pool.pendingRollLiability + liability) ≤ L.vault + liability
    omega
  | @credit amount => exact ⟨hle, hvault.trans (Nat.le_add_right _ _)⟩
  | activate | revalue | depart | leave | join | swap | retire | release | tick =>
    exact ⟨hle, hvault⟩

theorem Moves.solvent (h : Moves L L') (hranked : L.Ranked) (hsolvent : L.Solvent) :
    L'.Solvent := by
  induction h with
  | refl => exact hsolvent
  | tail hmoves hmove ih => exact hmove.solvent (Moves.ranked hmoves hranked) ih

theorem Intake.entitles (h : Intake L L') : L.Entitles L' := by
  cases h with
  | @intro k p stats hfree hstate htier haccrued =>
    have hzero : L.entitled p = 0 := by
      rw [Ledger.entitled, Position.entitlement_inactive (by rw [hstate]; decide), haccrued]
    refine ⟨rfl, rfl, fun x q q' hq hq' => ?_, fun x q' hnone hq' => ?_⟩
    · have hx : x ≠ k := by
        rintro rfl
        rw [hfree] at hq
        cases hq
      rw [Finmap.lookup_insert_of_ne _ hx] at hq'
      obtain rfl := Option.some.inj (hq.symm.trans hq')
      rfl
    · by_cases hx : x = k
      · subst hx
        rw [Finmap.lookup_insert, Option.some.injEq] at hq'
        subst hq'
        exact hzero
      · rw [Finmap.lookup_insert_of_ne _ hx, hnone] at hq'
        cases hq'

theorem Intake.solvent (h : Intake L L') (hsolvent : L.Solvent) : L'.Solvent := by
  cases h with
  | @intro k p stats hfree hstate htier haccrued =>
    have hzero : L.entitled p = 0 := by
      rw [Ledger.entitled, Position.entitlement_inactive (by rw [hstate]; decide), haccrued]
    refine ⟨?_, hsolvent.vault⟩
    show Store.total (fun _ p => L.entitled p) (L.positions.insert k p) ≤ L.pool.owedFees
    rw [Store.total_insert_new (Store.notMem_of_lookup hfree), hzero, Nat.zero_add]
    exact hsolvent.owed

theorem Ledger.Entitles.evolves (h : L.Entitles L') (h' : L'.Evolves L'') :
    L.Entitles L'' where
  accEqual := h'.accEqual.trans h.accEqual
  accTier := h'.accTier.trans h.accTier
  stays := by
    intro k p p'' hp hp''
    obtain ⟨p', hp', heq⟩ := h'.kept hp''
    exact heq.trans (h.stays k p p' hp hp')
  new := by
    intro k p'' hnone hp''
    obtain ⟨p', hp', heq⟩ := h'.kept hp''
    exact heq.trans (h.new k p' hnone hp')

theorem Configure.solvent {update : ConfigUpdate} (h : Configure update L L') (hranked : L.Ranked)
    (hsolvent : L.Solvent) : L'.Solvent := by
  have hle := (h.evolves hranked).entitlements_le.trans hsolvent.owed
  cases h with
  | intro =>
    have hsame := applyUpdate_sameLedger L.pool update
    refine ⟨hle.trans hsame.owedFees.ge, ?_⟩
    show (applyUpdate L.pool update).owedFees + (applyUpdate L.pool update).pendingRollLiability
      ≤ L.vault
    rw [hsame.owedFees, hsame.pendingRollLiability]
    exact hsolvent.vault

theorem Change.solvent {update : Option ConfigUpdate} (h : Change update L L') (hranked : L.Ranked)
    (hsolvent : L.Solvent) : L'.Solvent ∧ L.Entitles L' := by
  cases h with
  | moves hmoves =>
    exact ⟨Moves.solvent hmoves hranked hsolvent, (Moves.evolves hmoves hranked).entitles⟩
  | intake hintake hmoves =>
    have hranked' := hintake.ranked hranked
    exact ⟨Moves.solvent hmoves hranked' (hintake.solvent hsolvent),
      hintake.entitles.evolves (Moves.evolves hmoves hranked')⟩
  | configure hupdate hconfig =>
    exact ⟨hconfig.solvent hranked hsolvent, (hconfig.evolves hranked).entitles⟩

/-- Whatever settlements have made of the accumulators and the fee ledger, a step keeps a pool
solvent and every entitlement that it does not pay out or close. -/
theorem step_solvent (h : SettlingReachable X (fun _ _ => True) c) (hstep : Step X c c')
    (hL : c.ledger key = some L) (hsolvent : L.Solvent) :
    ∃ L', c'.ledger key = some L' ∧ L'.Solvent ∧ L.Entitles L' := by
  have hsound := h.sound
  have hreads := ledger_eq_some.mp hL
  obtain ⟨configures, heffect, -⟩ := hstep.effect hsound
  obtain ⟨L', hL', hchange⟩ := heffect.forward hsound.wellFormed hreads
  obtain ⟨hsolvent', hentitles⟩ := hchange.solvent (hsound.ranked key L hreads) hsolvent
  exact ⟨L', ledger_eq_some.mpr hL', hsolvent', hentitles⟩

/-- A member owed eight units of fees, and a vault with what one roll paid. -/
def bankOwing : Chain :=
  (bankRun [admitCards, depositCard 30, approveCard 30 12000000 100, commitBatch 1]).settle
    (.pool 0) ⟨5 * ACC_PRECISION, 3 * ACC_PRECISION, 8, 0, 0⟩

/-- Its depositor withdraws it, and is paid the eight units. -/
theorem step_solvent_bank :
    ∃ L L' : Ledger, bankOwing.ledger (.pool 0) = some L ∧ L.entitlements = 8 ∧
      (bankOwing.after bank [withdrawCard 30]).ledger (.pool 0) = some L' ∧
      L'.pool.owedFees = 0 ∧ L'.Solvent ∧ L.Entitles L' := by
  have howing : (bankOwing.ledger (.pool 0)).map (fun L => (L.entitlements, L.pool.owedFees,
      L.pool.pendingRollLiability, L.vault)) = some (8, 8, 0, 9900000) := by decide +kernel
  obtain ⟨L, hL, heq⟩ := Option.map_eq_some_iff.mp howing
  simp only [Prod.mk.injEq] at heq
  obtain ⟨hentitlements, howed, hliability, hvault⟩ := heq
  have hsettled : SettlingReachable bank (fun _ _ => True) bankOwing :=
    bankRun_settled (by decide +kernel) (by decide +kernel) fun _ => trivial
  obtain ⟨events, hrun⟩ := exec_after (X := bank) (c := bankOwing) (s := withdrawCard 30)
    (by decide +kernel)
  obtain ⟨L', hL', hsolvent, hentitles⟩ :=
    step_solvent hsettled (.instruction _ _ events trivial hrun) hL ⟨by omega, by omega⟩
  have hpaid : ((bankOwing.after bank [withdrawCard 30]).ledger (.pool 0)).map
      (·.pool.owedFees) = some 0 := by decide +kernel
  rw [hL'] at hpaid
  exact ⟨L, L', hL, hentitlements, hL', Option.some.inj hpaid, hsolvent, hentitles⟩

end ByeMachine
