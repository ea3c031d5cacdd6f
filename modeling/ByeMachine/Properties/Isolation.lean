import ByeMachine.Invariants.Settlement
import ByeMachine.Refinement.Pools
import ByeMachine.Script

/-!
# Isolation

An instruction that runs on one pool leaves every account of every other pool as
it was, whatever accounts its sender chose.
-/

namespace ByeMachine

open Fallible

/-- The pool an instruction runs on: the one it names, the one its position belongs to, or the one
it founds. -/
def Instr.runsOn (c : Chain) : Instr → Option Pubkey
  | .initPool .. => c.protocolConfig.map fun config => .pool config.poolCounter
  | .updateConfig _ pool _ _ | .admitCollection _ pool _ _ _ | .withdrawCollection _ pool _ _
  | .setPause _ pool _ _ _ | .approveDeposit _ pool _ _ _ _ _ | .beginSweep _ pool
  | .recordValue _ pool _ _ _ _ | .endSweep _ pool | .withdraw _ pool _ _ _ _
  | .withdrawCore _ pool _ _ _ _ | .closeSeized _ pool _ _ | .commitRolls _ pool _ _
  | .vrfCallback _ _ pool _ | .updateTier _ pool _ _ => some pool
  | .deposit accounts => some accounts.pool
  | .depositCore accounts => some accounts.pool
  | .rejectDeposit _ position _ | .returnRejected _ position _ | .returnRejectedCore _ position _
  | .claimNft _ position _ | .claimNftCore _ position _ =>
    (c.positions.lookup position).map (·.pool)
  | .initProtocol .. | .updateVrfConfig .. | .setAuthorities .. => none

/-- Every account of the pool at `other` is as it was. -/
structure Apart (c c' : Chain) (other : Pubkey) : Prop where
  pool : c'.pools.lookup other = c.pools.lookup other
  topTier : c'.topTiers.lookup (.topTier other) = c.topTiers.lookup (.topTier other)
  weightIndex : ∀ pool, c.pools.lookup other = some pool →
    c'.weightIndexes.lookup pool.weightIndex = c.weightIndexes.lookup pool.weightIndex
  walletStats : ∀ owner, c'.walletStats.lookup (.walletStats other owner)
    = c.walletStats.lookup (.walletStats other owner)
  positions : ∀ k p, p.pool = other →
    (c'.positions.lookup k = some p ↔ c.positions.lookup k = some p)
  poolCollections : ∀ collection, c'.poolCollections.lookup (.poolCollection other collection)
    = c.poolCollections.lookup (.poolCollection other collection)
  rollBatches : ∀ batchId, c'.rollBatches.lookup (.rollBatch other batchId)
    = c.rollBatches.lookup (.rollBatch other batchId)

section

variable {X : Programs} {may : Ledger → Settlement → Prop} {clock : Clock} {c c' : Chain}
  {events : List Event} {instr : Instr} {key other : Pubkey} {L L' : Ledger}

-- ---------------------------------------------------------------------------
-- Collections and batches
-- ---------------------------------------------------------------------------

theorem exec_records_other (h : exec X clock c instr = .ok (c', events))
    (hother : instr.runsOn c ≠ some other) :
    (∀ collection, c'.poolCollections.lookup (.poolCollection other collection)
      = c.poolCollections.lookup (.poolCollection other collection)) ∧
    ∀ batchId, c'.rollBatches.lookup (.rollBatch other batchId)
      = c.rollBatches.lookup (.rollBatch other batchId) := by
  have hrecords := exec_records h
  cases instr with
  | admitCollection administrator pool collection standards reason =>
    have hne : pool ≠ other := fun heq => hother (congrArg some heq)
    simp only [exec, admitCollection, bind_ok, pure_ok, Prod.mk.injEq] at h
    obtain ⟨_, -, _, -, -, -, rfl, -⟩ := h
    exact ⟨fun named => Finmap.lookup_insert_of_ne _ (by simp [Ne.symm hne]), fun _ => rfl⟩
  | withdrawCollection administrator pool collection reason =>
    have hne : pool ≠ other := fun heq => hother (congrArg some heq)
    simp only [exec, withdrawCollection, bind_ok, pure_ok, Prod.mk.injEq] at h
    obtain ⟨_, -, _, -, _, -, rfl, -⟩ := h
    exact ⟨fun named => Finmap.lookup_erase_ne (by simp [Ne.symm hne]), fun _ => rfl⟩
  | commitRolls roller pool rollerUsdc n =>
    have hne : pool ≠ other := fun heq => hother (congrArg some heq)
    simp only [exec, commitRolls, bind_ok, pure_ok, Prod.mk.injEq, Prod.exists] at h
    obtain ⟨-, -, _, -, _, -, _, -, -, -, _, -, _, -, -, -, -, -, -, -, _, _, _, -, _, -, _, -,
      rfl, -⟩ := h
    exact ⟨fun _ => rfl, fun batchId => Finmap.lookup_insert_of_ne _ (by simp [Ne.symm hne])⟩
  | vrfCallback signer batch pool randomness =>
    have hne : pool ≠ other := fun heq => hother (congrArg some heq)
    simp only [exec, vrfCallback, bind_ok, require_ok, pure_ok, Prod.mk.injEq] at h
    obtain ⟨-, -, old, -, -, hkey, _, -, -, hpool, _, -, rfl, -⟩ := h
    refine ⟨fun _ => rfl, fun batchId => Finmap.lookup_insert_of_ne _ fun heq => hne ?_⟩
    rw [hkey, Pubkey.rollBatch.injEq] at heq
    exact hpool.trans heq.1.symm
  | _ => exact ⟨fun _ => by rw [hrecords.collections rfl], fun _ => by rw [hrecords.batches rfl]⟩

-- ---------------------------------------------------------------------------
-- One pool's accounts
-- ---------------------------------------------------------------------------

theorem Touches.apart (h : Touches c c' key L L') (hwf : c.WellFormed) (hne : key ≠ other)
    (hrecords : (∀ collection, c'.poolCollections.lookup (.poolCollection other collection)
        = c.poolCollections.lookup (.poolCollection other collection)) ∧
      ∀ batchId, c'.rollBatches.lookup (.rollBatch other batchId)
        = c.rollBatches.lookup (.rollBatch other batchId)) : Apart c c' other where
  pool := h.pools other hne.symm
  topTier := h.topTiers other hne.symm
  weightIndex := by
    intro pool hpool
    refine h.indexes _ fun heq => hne ?_
    exact (hwf.indexOwner other key pool L.pool hpool h.before.pool heq).symm
  walletStats := fun owner => h.walletStats other owner hne.symm
  positions := by
    rintro k p rfl
    have hsame := h.positions.restrict_other hwf.positionKey hne.symm
    have hof : ofPool p.pool k p = true := by simp [ofPool]
    constructor
    · intro hp
      exact (Store.lookup_restrict.mp (hsame ▸ Store.lookup_restrict.mpr ⟨hp, hof⟩)).1
    · intro hp
      exact (Store.lookup_restrict.mp (hsame ▸ Store.lookup_restrict.mpr ⟨hp, hof⟩)).1
  poolCollections := hrecords.1
  rollBatches := hrecords.2

theorem closed_other {positions : Positions} {k : Pubkey} {p : Position}
    (hp : positions.lookup k = some p) (hne : p.pool ≠ other) (x : Pubkey) (q : Position)
    (hq : q.pool = other) : (positions.erase k).lookup x = some q ↔ positions.lookup x = some q := by
  by_cases hx : x = k
  · subst hx
    refine ⟨fun h => by simp at h, fun h => ?_⟩
    obtain rfl := Option.some.inj (hp.symm.trans h)
    exact absurd hq hne
  · rw [Finmap.lookup_erase_ne hx]

theorem written_other {positions : Positions} {k : Pubkey} {p p' : Position}
    (hp : positions.lookup k = some p) (hpool : p'.pool = p.pool) (hne : p.pool ≠ other) (x : Pubkey)
    (q : Position) (hq : q.pool = other) :
    (positions.insert k p').lookup x = some q ↔ positions.lookup x = some q := by
  by_cases hx : x = k
  · subst hx
    rw [Finmap.lookup_insert, hp]
    constructor
    · rintro h
      obtain rfl := Option.some.inj h
      exact absurd (hpool.symm.trans hq) hne
    · rintro h
      obtain rfl := Option.some.inj h
      exact absurd hq hne
  · rw [Finmap.lookup_insert_of_ne _ hx]

theorem runsOn_position {k : Pubkey} {p : Position} (hp : c.positions.lookup k = some p)
    (hother : (c.positions.lookup k).map (·.pool) ≠ some other) : p.pool ≠ other := by
  rintro rfl
  exact hother (by rw [hp]; rfl)

theorem exec_apart (hsound : c.Sound) (h : exec X clock c instr = .ok (c', events))
    (hother : instr.runsOn c ≠ some other) : Apart c c' other := by
  have hwf := hsound.wellFormed
  have hrecords := exec_records_other h hother
  have hnamed {pool : Pubkey} (hruns : instr.runsOn c = some pool) : pool ≠ other := by
    rintro rfl
    exact hother hruns
  cases instr with
  | initProtocol payer args =>
    simp only [exec, initProtocol, bind_ok, pure_ok, Prod.mk.injEq] at h
    obtain ⟨-, -, -, -, -, -, rfl, -⟩ := h
    exact ⟨rfl, rfl, fun _ _ => rfl, fun _ => rfl, fun _ _ _ => .rfl, hrecords.1, hrecords.2⟩
  | initPool administrator weightIndex args =>
    simp only [exec, initPool, loadForAdministrator, Chain.loadConfig, bind_ok, require_ok, okOr_ok,
      pure_ok, Prod.mk.injEq] at h
    obtain ⟨_, ⟨-, -, config, hconfig, -, -, rfl⟩, -, -, -, ⟨hindex, -, -⟩, -, -, -, -, _, -, _, -,
      _, -, -, -, _, -, rfl, -⟩ := h
    have hne : other ≠ .pool config.poolCounter := by
      rintro rfl
      exact hother (by simp [Instr.runsOn, hconfig])
    refine ⟨Finmap.lookup_insert_of_ne _ hne, Finmap.lookup_insert_of_ne _ (by simpa using hne),
      fun pool hpool => Finmap.lookup_insert_of_ne _ ?_, fun _ => rfl, fun _ _ _ => .rfl, hrecords.1,
      hrecords.2⟩
    -- The index of a pool already there is in use.
    rintro rfl
    obtain ⟨M, hM, hreads, rfl⟩ := hsound.ledger hpool
    rw [hreads.weightIndex] at hindex
    cases hindex
  | updateConfig administrator pool remaining update =>
    obtain ⟨L, L', htouches, -⟩ := updateConfig_carries hwf (hsound.ranked pool) h
    exact htouches.apart hwf (hnamed rfl) hrecords
  | updateVrfConfig administrator vrfProgram oracleQueue swapPool =>
    simp only [exec, updateVrfConfig, bind_ok, pure_ok, Prod.mk.injEq] at h
    obtain ⟨_, -, rfl, -⟩ := h
    exact ⟨rfl, rfl, fun _ _ => rfl, fun _ => rfl, fun _ _ _ => .rfl, hrecords.1, hrecords.2⟩
  | admitCollection administrator pool collection standards reason =>
    simp only [exec, admitCollection, bind_ok, pure_ok, Prod.mk.injEq] at h
    obtain ⟨_, -, _, -, -, -, rfl, -⟩ := h
    exact ⟨rfl, rfl, fun _ _ => rfl, fun _ => rfl, fun _ _ _ => .rfl, hrecords.1, hrecords.2⟩
  | withdrawCollection administrator pool collection reason =>
    simp only [exec, withdrawCollection, bind_ok, pure_ok, Prod.mk.injEq] at h
    obtain ⟨_, -, _, -, _, -, rfl, -⟩ := h
    exact ⟨rfl, rfl, fun _ _ => rfl, fun _ => rfl, fun _ _ _ => .rfl, hrecords.1, hrecords.2⟩
  | setPause administrator pool deposits rolls reason =>
    obtain ⟨L, L', htouches, -⟩ : Carries c c' pool none := setPause_carries hwf h
    exact htouches.apart hwf (hnamed rfl) hrecords
  | setAuthorities signer role newAuthority =>
    simp only [exec, setAuthorities, bind_ok] at h
    obtain ⟨-, -, _, -, h⟩ := h
    cases newAuthority with
    | some proposed =>
      simp only [bind_ok, pure_ok, Prod.mk.injEq] at h
      obtain ⟨-, -, rfl, -⟩ := h
      exact ⟨rfl, rfl, fun _ _ => rfl, fun _ => rfl, fun _ _ _ => .rfl, hrecords.1, hrecords.2⟩
    | none =>
      simp only [bind_ok, pure_ok, Prod.mk.injEq] at h
      obtain ⟨-, -, -, -, rfl, -⟩ := h
      exact ⟨rfl, rfl, fun _ _ => rfl, fun _ => rfl, fun _ _ _ => .rfl, hrecords.1, hrecords.2⟩
  | deposit accounts =>
    obtain ⟨L, L', htouches, -⟩ : Carries c c' accounts.pool none := deposit_carries hwf h
    exact htouches.apart hwf (hnamed rfl) hrecords
  | depositCore accounts =>
    obtain ⟨L, L', htouches, -⟩ : Carries c c' accounts.pool none := depositCore_carries hwf h
    exact htouches.apart hwf (hnamed rfl) hrecords
  | approveDeposit operator pool position remaining value observedAt lockUntil =>
    obtain ⟨L, L', htouches, -⟩ : Carries c c' pool none :=
      approveDeposit_carries hwf (hsound.ranked pool) h
    exact htouches.apart hwf (hnamed rfl) hrecords
  | rejectDeposit operator position reason =>
    simp only [exec, rejectDeposit, bind_ok, require_ok, loadOwnPosition_ok, pure_ok,
      Prod.mk.injEq] at h
    obtain ⟨_, -, p, ⟨hp, -⟩, -, -, -, -, rfl, -⟩ := h
    exact ⟨rfl, rfl, fun _ _ => rfl, fun _ => rfl,
      written_other hp rfl (runsOn_position hp hother), hrecords.1, hrecords.2⟩
  | returnRejected payer position accounts =>
    simp only [exec, returnRejected, bind_ok, loadOwnPosition_ok, pure_ok, Prod.mk.injEq,
      Prod.exists] at h
    obtain ⟨-, -, p, ⟨hp, -⟩, _, -, -, -, _, _, -, rfl, -⟩ := h
    exact ⟨rfl, rfl, fun _ _ => rfl, fun _ => rfl, closed_other hp (runsOn_position hp hother),
      hrecords.1, hrecords.2⟩
  | returnRejectedCore payer position collection =>
    simp only [exec, returnRejectedCore, bind_ok, loadOwnPosition_ok, pure_ok, Prod.mk.injEq] at h
    obtain ⟨-, -, p, ⟨hp, -⟩, -, -, -, -, _, -, _, -, rfl, -⟩ := h
    exact ⟨rfl, rfl, fun _ _ => rfl, fun _ => rfl, closed_other hp (runsOn_position hp hother),
      hrecords.1, hrecords.2⟩
  | beginSweep operator pool =>
    obtain ⟨L, L', htouches, -⟩ : Carries c c' pool none := beginSweep_carries hwf h
    exact htouches.apart hwf (hnamed rfl) hrecords
  | recordValue operator pool position remaining value observedAt =>
    obtain ⟨L, L', htouches, -⟩ : Carries c c' pool none :=
      recordValue_carries hwf (hsound.ranked pool) h
    exact htouches.apart hwf (hnamed rfl) hrecords
  | endSweep operator pool =>
    obtain ⟨L, L', htouches, -⟩ : Carries c c' pool none := endSweep_carries hwf h
    exact htouches.apart hwf (hnamed rfl) hrecords
  | withdraw depositor pool position depositorUsdc remaining accounts =>
    obtain ⟨L, L', htouches, -⟩ : Carries c c' pool none :=
      withdraw_carries hwf (hsound.ranked pool) h
    exact htouches.apart hwf (hnamed rfl) hrecords
  | withdrawCore depositor pool position depositorUsdc collection remaining =>
    obtain ⟨L, L', htouches, -⟩ : Carries c c' pool none :=
      withdrawCore_carries hwf (hsound.ranked pool) h
    exact htouches.apart hwf (hnamed rfl) hrecords
  | claimNft depositor position accounts =>
    simp only [exec, claimNft, bind_ok, loadOwnPosition_ok, pure_ok, Prod.mk.injEq,
      Prod.exists] at h
    obtain ⟨-, -, p, ⟨hp, -⟩, -, -, _, -, -, -, _, _, -, rfl, -⟩ := h
    exact ⟨rfl, rfl, fun _ _ => rfl, fun _ => rfl, closed_other hp (runsOn_position hp hother),
      hrecords.1, hrecords.2⟩
  | claimNftCore depositor position collection =>
    simp only [exec, claimNftCore, bind_ok, loadOwnPosition_ok, pure_ok, Prod.mk.injEq] at h
    obtain ⟨-, -, p, ⟨hp, -⟩, -, -, -, -, -, -, _, -, _, -, rfl, -⟩ := h
    exact ⟨rfl, rfl, fun _ _ => rfl, fun _ => rfl, closed_other hp (runsOn_position hp hother),
      hrecords.1, hrecords.2⟩
  | closeSeized caller pool position collection =>
    obtain ⟨L, L', htouches, -⟩ : Carries c c' pool none :=
      closeSeized_carries hwf (hsound.ranked pool) h
    exact htouches.apart hwf (hnamed rfl) hrecords
  | commitRolls roller pool rollerUsdc n =>
    obtain ⟨L, L', htouches, -⟩ : Carries c c' pool none := commitRolls_carries hwf h
    exact htouches.apart hwf (hnamed rfl) hrecords
  | vrfCallback signer batch pool randomness =>
    simp only [exec, vrfCallback, bind_ok, pure_ok, Prod.mk.injEq] at h
    obtain ⟨-, -, _, -, -, -, _, -, -, -, _, -, rfl, -⟩ := h
    exact ⟨rfl, rfl, fun _ _ => rfl, fun _ => rfl, fun _ _ _ => .rfl, hrecords.1, hrecords.2⟩
  | updateTier operator pool position remaining =>
    obtain ⟨L, L', htouches, -⟩ : Carries c c' pool none :=
      updateTier_carries hwf (hsound.ranked pool) h
    exact htouches.apart hwf (hnamed rfl) hrecords

/-- In every reachable state, a successful instruction leaves every pool but its own apart. -/
theorem pools_isolated (hc : SettlingReachable X may c)
    (h : exec X clock c instr = .ok (c', events)) {other : Pubkey}
    (hother : instr.runsOn c ≠ some other) : Apart c c' other :=
  exec_apart hc.sound h hother

end

def bankBesideConfig : ProtocolConfig := { bankConfig with poolCounter := 1 }

/-- The bank after its first pool, with a second blank index account. -/
def bankBeside : Chain :=
  { bankPool (defaultArgs .default) with
    externals := Function.update bankExternals (.key 13)
      ⟨.program .byeMachine, List.replicate (8 + WEIGHT_INDEX_SPACE) 0⟩ }

def bankPair : Chain := bankBeside.withPool bank bankBesideConfig (.key 13) (defaultArgs .default)

theorem bankPair_reachable : Reachable bank bankPair := by
  have hfounded : Reachable bank (bankRun []) := bankRun_reachable rfl
  obtain ⟨c₀, hgenesis, hsteps⟩ := hfounded
  have hbeside : Step bank (bankRun []) bankBeside :=
    .elsewhere _ _ fun pool account h => ⟨account, h, rfl, rfl, le_rfl⟩
  have hrun : (exec bank ⟨0, 0⟩ bankBeside
      (.initPool bankBesideConfig.administrator (.key 13) (defaultArgs .default))).map Prod.fst
        = .ok bankPair :=
    initPool_succeeds (X := bank) rfl (by decide) (by decide +kernel) (by decide +kernel)
      (by simp [bankBeside]) (by decide +kernel) (by decide +kernel) (by decide +kernel)
      (by decide +kernel) defaultArgs_valid (by decide)
  obtain ⟨events, hexec⟩ := exec_of_map hrun
  exact ⟨c₀, hgenesis, (hsteps.tail hbeside).tail (.instruction _ _ events trivial hexec)⟩

/-- Card 31 is activated in the second pool, and card 30 in the first. -/
def bankCards : List (Clock × Instr) :=
  [admitCards, depositCard 30, approveCard 30 12000000 100,
    (⟨2, 2⟩, .admitCollection (.key 1) (.pool 1) bankCollection STANDARDS_BIT_CORE none),
    (⟨2, 2⟩, .depositCore
      ⟨.key 20, .pool 1, .poolCollection (.pool 1) bankCollection, .key 31, bankCollection⟩),
    (⟨2, 2⟩, .approveDeposit (.key 2) (.pool 1) (.position (.pool 1) (.key 31)) [] 12000000 2 100)]

/-- Its withdrawal from the second pool leaves the first apart. -/
theorem pools_isolated_bank :
    ∃ c c', Apart c c' (.pool 0) ∧ (c.pools.lookup (.pool 0)).map (·.nReal) = some 1 ∧
      (c.pools.lookup (.pool 1)).map (·.nReal) = some 1 ∧
      (c'.pools.lookup (.pool 1)).map (·.nReal) = some 0 := by
  have hreachable : Reachable bank (bankPair.after bank bankCards) :=
    ReachableWhere.after bankPair_reachable (fun _ _ _ => trivial) (by decide +kernel)
  have hsettling : SettlingReachable bank (fun _ _ => False) _ := hreachable.settling
  obtain ⟨events, hexec⟩ := exec_after (X := bank) (c := bankPair.after bank bankCards)
    (s := (⟨5, 200⟩, .withdrawCore (.key 20) (.pool 1) (.position (.pool 1) (.key 31))
      (some (.key 41)) bankCollection [])) (by decide +kernel)
  exact ⟨_, _, pools_isolated hsettling hexec (by decide), by decide +kernel, by decide +kernel,
    by decide +kernel⟩

end ByeMachine
