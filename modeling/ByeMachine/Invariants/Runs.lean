import ByeMachine.Invariants.Synced
import ByeMachine.Refinement.Exec

/-!
# Invariants over whole runs

A property of ledgers that a founded pool has and every change keeps holds in
every reachable state. The two structural invariants come first; the others may
use them.
-/

namespace ByeMachine

open Fallible

variable {X : Programs} {allowed : Chain → Instr → Prop} {c c' : Chain} {key : Pubkey}
  {L L' : Ledger}

-- ---------------------------------------------------------------------------
-- The structural invariants
-- ---------------------------------------------------------------------------

theorem Change.ranked {update : Option ConfigUpdate} (h : Change update L L') (hranked : L.Ranked) :
    L'.Ranked := by
  cases h with
  | moves hmoves => exact Moves.ranked hmoves hranked
  | intake hintake hmoves => exact Moves.ranked hmoves (hintake.ranked hranked)
  | configure hupdate hconfig => exact hconfig.ranked hranked

theorem Change.synced {update : Option ConfigUpdate} (h : Change update L L') (hranked : L.Ranked)
    (hsynced : L.Synced) : L'.Synced := by
  cases h with
  | moves hmoves => exact Moves.synced hmoves hranked hsynced
  | intake hintake hmoves =>
    exact Moves.synced hmoves (hintake.ranked hranked) (hintake.synced hsynced)
  | configure hupdate hconfig => exact hconfig.synced hsynced

theorem validateConfig_ok {args : PoolConfigArgs} {u : Unit} (h : validateConfig args = .ok u) :
    args.ticketTarget < args.admissionFloor ∧
      (∀ d, 0 < args.blankFaces d ∧ args.blankFaces d < args.ticketTarget) ∧
      1 ≤ args.tierSize ∧ args.tierSize ≤ MAX_TIER_SIZE := by
  simp only [validateConfig, bind_ok, require_ok, validateFaces_ok] at h
  obtain ⟨-, -, -, -, -, hfloor, -, hfaces, -, -, htier⟩ := h
  exact ⟨hfloor, hfaces, htier⟩

theorem Ledger.Founded.ranked (h : L.Founded) : L.Ranked := by
  obtain ⟨key, poolId, weightIndex, args, bump, tierBump, hvalid, rfl⟩ := h
  obtain ⟨-, -, hpos, hsize⟩ := validateConfig_ok hvalid
  have hmembers : (genesisTier key tierBump).members = [] := by
    simp [TopTier.members, genesisTier]
  refine ⟨?_, ⟨fun k p hp => absurd hp (by simp [Ledger.founded]),
    fun k _ p _ hp => absurd hp (by simp [Ledger.founded])⟩, Nat.zero_le _, hpos, hsize⟩
  show Tier.Listed (genesisTier key tierBump).members ∅
  rw [hmembers]
  exact ⟨List.Pairwise.nil, by simp, by simp⟩

theorem Ledger.Founded.synced (h : L.Founded) : L.Synced := by
  obtain ⟨key, poolId, weightIndex, args, bump, tierBump, -, rfl⟩ := h
  have hnone : ∀ k, (∅ : Positions).lookup k = none := fun k => by simp
  exact {
    slots := WeightIndex.blank_inv key
    attested := fun k p hp => absurd hp (by simp [Ledger.founded])
    distinct := fun k _ p _ hp => absurd hp (by simp [Ledger.founded])
    total := rfl
    wReal := rfl
    nReal := rfl
    count := fun _ => rfl
    value := fun _ => rfl }

/-- What every reachable chain satisfies. -/
structure Chain.Sound (c : Chain) : Prop where
  wellFormed : c.WellFormed
  ranked : ∀ key L, c.Reads key L → L.Ranked
  synced : ∀ key L, c.Reads key L → L.Synced

theorem Chain.Sound.ledger (h : c.Sound) {pool : Pool} (hpool : c.pools.lookup key = some pool) :
    ∃ L, c.ledger key = some L ∧ c.Reads key L ∧ L.pool = pool := by
  obtain ⟨L, hL⟩ := h.wellFormed.ledger key pool hpool
  have hreads := ledger_eq_some.mp hL
  exact ⟨L, hL, hreads, Option.some.inj (hreads.pool.symm.trans hpool)⟩

/-- A step changes every ledger it finds, by configuration moves it was allowed at most. -/
theorem StepWhere.effect (h : StepWhere X allowed c c') (hsound : c.Sound) :
    ∃ configures, Effect configures c c' ∧ ∀ key u, configures key = some u →
      ∃ administrator remaining, allowed c (.updateConfig administrator key remaining u) := by
  cases h with
  | instruction clock instr events permitted run =>
    refine ⟨_, exec_effect hsound.wellFormed hsound.ranked run, fun key u hu => ?_⟩
    cases instr with
    | updateConfig administrator pool remaining update =>
      simp only [Instr.configures, Option.ite_none_right_eq_some, Option.some.injEq] at hu
      obtain ⟨rfl, rfl⟩ := hu
      exact ⟨administrator, remaining, permitted⟩
    | _ => cases hu
  | elsewhere tokens externals untouched =>
    exact ⟨fun _ => none, .quiet ⟨rfl, rfl, rfl, rfl, rfl, fun key _ _ => untouched key, .of_eq rfl⟩,
      fun _ _ hu => by cases hu⟩

theorem Effect.sound {configures : Pubkey → Option ConfigUpdate} (h : Effect configures c c')
    (hsound : c.Sound) : c'.Sound where
  wellFormed := h.wellFormed hsound.wellFormed
  ranked := by
    intro key L' hL'
    obtain ⟨L, hL, hchange⟩ | hfounded := h.backward hsound.wellFormed hL'
    · exact hchange.ranked (hsound.ranked key L hL)
    · exact hfounded.ranked
  synced := by
    intro key L' hL'
    obtain ⟨L, hL, hchange⟩ | hfounded := h.backward hsound.wellFormed hL'
    · exact hchange.synced (hsound.ranked key L hL) (hsound.synced key L hL)
    · exact hfounded.synced

theorem StepWhere.sound (h : StepWhere X allowed c c') (hsound : c.Sound) : c'.Sound := by
  obtain ⟨configures, heffect, -⟩ := h.effect hsound
  exact heffect.sound hsound

theorem Genesis.pool_none (h : Genesis c) (key : Pubkey) : c.pools.lookup key = none := by
  simp [h.pools]

theorem Genesis.sound (h : Genesis c) : c.Sound := by
  have hpool := h.pool_none
  have hreads : ∀ key L, ¬c.Reads key L := fun key L hL => by
    have := hL.pool
    rw [hpool] at this
    cases this
  refine ⟨⟨?_, ?_, ?_, ?_, ?_, ?_, ?_⟩, fun key L hL => absurd hL (hreads key L),
    fun key L hL => absurd hL (hreads key L)⟩
  all_goals simp [h.pools, h.positions, h.walletStats]

theorem sound_of_steps (hsteps : Relation.ReflTransGen (StepWhere X allowed) c c')
    (hsound : c.Sound) : c'.Sound := by
  induction hsteps with
  | refl => exact hsound
  | tail _ hstep ih => exact hstep.sound ih

theorem ReachableWhere.sound (h : ReachableWhere X allowed c) : c.Sound := by
  obtain ⟨c₀, hgenesis, hsteps⟩ := h
  exact sound_of_steps hsteps hgenesis.sound

-- ---------------------------------------------------------------------------
-- Further invariants
-- ---------------------------------------------------------------------------

/-- A property a founded pool has and every allowed change keeps holds wherever a run leads. -/
theorem ReachableWhere.ledger {P : Ledger → Prop} (h : ReachableWhere X allowed c)
    (hfounded : ∀ L, L.Founded → P L)
    (hchange : ∀ c key L L' update, c.Reads key L → L.Ranked → L.Synced → Change update L L' →
      (∀ u, update = some u → ∃ administrator remaining,
        allowed c (.updateConfig administrator key remaining u)) → P L → P L')
    (hL : c.Reads key L) : P L := by
  obtain ⟨c₀, hgenesis, hsteps⟩ := h
  induction hsteps generalizing key L with
  | refl =>
    have := hL.pool
    rw [hgenesis.pool_none] at this
    cases this
  | tail hsteps hstep ih =>
    have hsound := sound_of_steps hsteps hgenesis.sound
    obtain ⟨configures, heffect, hallowed⟩ := hstep.effect hsound
    obtain ⟨M, hM, hchanged⟩ | hnew := heffect.backward hsound.wellFormed hL
    · exact hchange _ key M L _ hM (hsound.ranked key M hM) (hsound.synced key M hM) hchanged
        (hallowed key) (ih hM)
    · exact hfounded L hnew

end ByeMachine
