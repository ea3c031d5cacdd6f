import ByeMachine.Refinement.Admin

/-!
# One step, on every ledger

A successful instruction carries one pool's ledger through a change, founds a
new pool, or leaves every ledger alone; other programs at work only credit the
vaults. From this every invariant of a ledger is an invariant of the chain.
-/

namespace ByeMachine

open Fallible

def Instr.configures : Instr → Pubkey → Option ConfigUpdate
  | .updateConfig _ pool _ update, key => if key = pool then some update else none
  | _, _ => none

/-- No pool's account is written; vaults may be credited. -/
structure Quiet (c c' : Chain) : Prop where
  pools : c'.pools = c.pools
  weightIndexes : c'.weightIndexes = c.weightIndexes
  topTiers : c'.topTiers = c.topTiers
  positions : c'.positions = c.positions
  walletStats : c'.walletStats = c.walletStats
  vaults : ∀ key pool, c.pools.lookup key = some pool →
    Keeps c.tokens c'.tokens (.principalVault key)
  batches : BatchesKept c c'

def Ledger.founded (key : Pubkey) (poolId : ℕ) (weightIndex : Pubkey) (args : PoolConfigArgs)
    (bump tierBump : ℕ) : Ledger where
  pool := genesisPool poolId weightIndex args bump
  weightIndex := .blank key
  topTier := genesisTier key tierBump
  positions := ∅
  walletStats := fun _ => none
  vault := 0

/-- A pool is created beside the others, under a configuration that was validated. -/
structure Founds (c c' : Chain) (key : Pubkey) (L : Ledger) : Prop where
  fresh : c.pools.lookup key = none
  after : c'.Reads key L
  founded : ∃ poolId weightIndex args bump tierBump, validateConfig args = .ok () ∧
    c.weightIndexes.lookup weightIndex = none ∧ key = .pool poolId ∧
    L = .founded key poolId weightIndex args bump tierBump
  pools : ∀ other, other ≠ key → c'.pools.lookup other = c.pools.lookup other
  indexes : ∀ other, other ≠ L.pool.weightIndex →
    c'.weightIndexes.lookup other = c.weightIndexes.lookup other
  topTiers : ∀ other, other ≠ key →
    c'.topTiers.lookup (.topTier other) = c.topTiers.lookup (.topTier other)
  positions : c'.positions = c.positions
  walletStats : c'.walletStats = c.walletStats
  vaults : ∀ other pool, c.pools.lookup other = some pool →
    Keeps c.tokens c'.tokens (.principalVault other)
  vaultOwner : ∀ vault, c'.tokens.lookup (.principalVault key) = some vault → vault.owner = key
  batches : BatchesKept c c'

/-- What one step does; `configures` names the configuration move it makes of each pool. -/
inductive Effect (configures : Pubkey → Option ConfigUpdate) (c c' : Chain) : Prop where
  | quiet (hquiet : Quiet c c')
  | carries (key : Pubkey) (hcarries : Carries c c' key (configures key))
  | founds (key : Pubkey) (L : Ledger) (hfounds : Founds c c' key L)

-- ---------------------------------------------------------------------------
-- The instructions
-- ---------------------------------------------------------------------------

section Instructions

variable {X : Programs} {clock : Clock} {c c' : Chain} {events : List Event}

theorem Quiet.of_config {config : Option ProtocolConfig} :
    Quiet c { c with protocolConfig := config } :=
  ⟨rfl, rfl, rfl, rfl, rfl, fun _ _ _ => Keeps.refl _ _, .of_eq rfl⟩

theorem initPool_founds {administrator weightIndex : Pubkey} {args : PoolConfigArgs}
    (hwf : c.WellFormed) (h : initPool X clock c administrator weightIndex args = .ok (c', events)) :
    ∃ key L, Founds c c' key L := by
  simp only [initPool, bind_ok, require_ok, pure_ok, Prod.mk.injEq] at h
  obtain ⟨config, -, -, hfresh, -, ⟨hindex, -, -⟩, -, -, -, -, t₁, hinit₁, t₂, hinit₂, _, hvalid, -,
    -, _, -, rfl, -⟩ := h
  have hpositions : ∅ = Store.restrict (ofPool (.pool config.poolCounter)) c.positions := by
    refine Store.ext_some fun k p => ⟨fun hp => absurd hp (by simp), fun hp => ?_⟩
    obtain ⟨hp, hofPool⟩ := Store.lookup_restrict.mp hp
    obtain ⟨pool, hpool⟩ := hwf.positionPool k p hp
    rw [show p.pool = .pool config.poolCounter by simpa [ofPool] using hofPool, hfresh] at hpool
    cases hpool
  have hstats : ∀ owner,
      none = c.walletStats.lookup (.walletStats (.pool config.poolCounter) owner) := by
    intro owner
    cases hfound : c.walletStats.lookup (.walletStats (.pool config.poolCounter) owner) with
    | none => rfl
    | some stats =>
      obtain ⟨pool, hpool⟩ := hwf.statsPool _ _ _ hfound
      rw [hfresh] at hpool
      cases hpool
  have hvault : t₂.lookup (.principalVault (.pool config.poolCounter))
      = some ⟨config.usdcMint, .pool config.poolCounter, 0, false⟩ := by
    simp only [initToken, bind_ok, require_ok, pure_ok] at hinit₁ hinit₂
    obtain ⟨-, -, rfl⟩ := hinit₁
    obtain ⟨-, -, rfl⟩ := hinit₂
    rw [Finmap.lookup_insert_of_ne _ (by simp), Finmap.lookup_insert]
  refine ⟨.pool config.poolCounter, .founded (.pool config.poolCounter) config.poolCounter
    weightIndex args (X.bumpOf (.pool config.poolCounter))
    (X.bumpOf (.topTier (.pool config.poolCounter))), ?_⟩
  exact {
    fresh := hfresh
    after := ⟨Finmap.lookup_insert _, Finmap.lookup_insert _, Finmap.lookup_insert _, hpositions,
      hstats, _, hvault, rfl⟩
    founded := ⟨_, _, _, _, _, hvalid, hindex, rfl, rfl⟩
    pools := fun other hne => Finmap.lookup_insert_of_ne _ hne
    indexes := fun other hne => Finmap.lookup_insert_of_ne _ hne
    topTiers := fun other hne => Finmap.lookup_insert_of_ne _ (by simpa using hne)
    positions := rfl
    walletStats := rfl
    vaults := fun other _ _ => (initToken_keeps hinit₁ _).trans (initToken_keeps hinit₂ _)
    vaultOwner := by
      intro vault hfound
      rw [hvault, Option.some.injEq] at hfound
      rw [← hfound]
    batches := .of_eq rfl }

/-- Every successful instruction has one of the three effects. -/
theorem exec_effect {instr : Instr} (hwf : c.WellFormed)
    (hranked : ∀ key L, c.Reads key L → L.Ranked)
    (h : exec X clock c instr = .ok (c', events)) : Effect instr.configures c c' := by
  cases instr with
  | initProtocol payer args =>
    simp only [exec, initProtocol, bind_ok, pure_ok, Prod.mk.injEq] at h
    obtain ⟨-, -, -, -, -, -, rfl, -⟩ := h
    exact .quiet .of_config
  | initPool administrator weightIndex args =>
    obtain ⟨key, L, hfounds⟩ := initPool_founds hwf h
    exact .founds key L hfounds
  | updateConfig administrator pool remaining update =>
    refine .carries pool ?_
    rw [Instr.configures, if_pos rfl]
    exact updateConfig_carries hwf (hranked pool) h
  | updateVrfConfig administrator vrfProgram oracleQueue swapPool =>
    simp only [exec, updateVrfConfig, bind_ok, pure_ok, Prod.mk.injEq] at h
    obtain ⟨_, -, rfl, -⟩ := h
    exact .quiet .of_config
  | admitCollection administrator pool collection standards reason =>
    simp only [exec, admitCollection, bind_ok, pure_ok, Prod.mk.injEq] at h
    obtain ⟨_, -, _, -, -, -, rfl, -⟩ := h
    exact .quiet ⟨rfl, rfl, rfl, rfl, rfl, fun _ _ _ => Keeps.refl _ _, .of_eq rfl⟩
  | withdrawCollection administrator pool collection reason =>
    simp only [exec, withdrawCollection, bind_ok, pure_ok, Prod.mk.injEq] at h
    obtain ⟨_, -, _, -, _, -, rfl, -⟩ := h
    exact .quiet ⟨rfl, rfl, rfl, rfl, rfl, fun _ _ _ => Keeps.refl _ _, .of_eq rfl⟩
  | setPause administrator pool deposits rolls reason => exact .carries pool (setPause_carries hwf h)
  | setAuthorities signer role newAuthority =>
    simp only [exec, setAuthorities, bind_ok] at h
    obtain ⟨-, -, _, -, h⟩ := h
    cases newAuthority with
    | some proposed =>
      simp only [bind_ok, pure_ok, Prod.mk.injEq] at h
      obtain ⟨-, -, rfl, -⟩ := h
      exact .quiet .of_config
    | none =>
      simp only [bind_ok, pure_ok, Prod.mk.injEq] at h
      obtain ⟨-, -, -, -, rfl, -⟩ := h
      exact .quiet .of_config
  | deposit accounts => exact .carries _ (deposit_carries hwf h)
  | depositCore accounts => exact .carries _ (depositCore_carries hwf h)
  | approveDeposit operator pool position remaining value observedAt lockUntil =>
    exact .carries pool (approveDeposit_carries hwf (hranked pool) h)
  | rejectDeposit operator position reason =>
    obtain ⟨key, hcarries⟩ := rejectDeposit_carries hwf h
    exact .carries key hcarries
  | returnRejected payer position accounts =>
    obtain ⟨key, hcarries⟩ := returnRejected_carries hwf h
    exact .carries key hcarries
  | returnRejectedCore payer position collection =>
    obtain ⟨key, hcarries⟩ := returnRejectedCore_carries hwf h
    exact .carries key hcarries
  | beginSweep operator pool => exact .carries pool (beginSweep_carries hwf h)
  | recordValue operator pool position remaining value observedAt =>
    exact .carries pool (recordValue_carries hwf (hranked pool) h)
  | endSweep operator pool => exact .carries pool (endSweep_carries hwf h)
  | withdraw depositor pool position depositorUsdc remaining accounts =>
    exact .carries pool (withdraw_carries hwf (hranked pool) h)
  | withdrawCore depositor pool position depositorUsdc collection remaining =>
    exact .carries pool (withdrawCore_carries hwf (hranked pool) h)
  | claimNft depositor position accounts =>
    obtain ⟨key, hcarries⟩ := claimNft_carries hwf h
    exact .carries key hcarries
  | claimNftCore depositor position collection =>
    obtain ⟨key, hcarries⟩ := claimNftCore_carries hwf h
    exact .carries key hcarries
  | closeSeized caller pool position collection =>
    exact .carries pool (closeSeized_carries hwf (hranked pool) h)
  | commitRolls roller pool rollerUsdc n => exact .carries pool (commitRolls_carries hwf h)
  | vrfCallback signer batch pool randomness =>
    simp only [exec, vrfCallback, applyResolve, bind_ok, okOr_ok, pure_ok, Prod.mk.injEq] at h
    obtain ⟨-, -, old, hbatch, -, -, _, -, -, -, _, ⟨-, -, _, -, rfl⟩, rfl, -⟩ := h
    refine .quiet ⟨rfl, rfl, rfl, rfl, rfl, fun _ _ _ => Keeps.refl _ _, fun k kept hkept => ?_⟩
    by_cases hk : k = batch
    · subst hk
      obtain rfl := Option.some.inj (hbatch.symm.trans hkept)
      exact ⟨_, Finmap.lookup_insert _, rfl, rfl⟩
    · exact ⟨kept, (Finmap.lookup_insert_of_ne _ hk).trans hkept, rfl, rfl⟩
  | updateTier operator pool position remaining =>
    exact .carries pool (updateTier_carries hwf (hranked pool) h)

end Instructions

-- ---------------------------------------------------------------------------
-- Ledgers before and after
-- ---------------------------------------------------------------------------

section Ledgers

variable {c c' : Chain} {key : Pubkey} {L L' : Ledger} {configures : Pubkey → Option ConfigUpdate}

theorem Quiet.reads (h : Quiet c c') (hL : c.Reads key L) :
    ∃ amount, c'.Reads key { L with vault := L.vault + amount } :=
  hL.kept (by rw [h.pools]) (by rw [h.weightIndexes]) (by rw [h.topTiers]) (by rw [h.positions])
    (by simp [h.walletStats]) (h.vaults key L.pool hL.pool)

theorem Quiet.wellFormed (h : Quiet c c') (hwf : c.WellFormed) : c'.WellFormed where
  poolKey := by
    rw [h.pools]
    exact hwf.poolKey
  ledger := by
    intro key pool hpool
    obtain ⟨L, hL⟩ := hwf.ledger key pool (h.pools ▸ hpool)
    obtain ⟨amount, hL'⟩ := h.reads (ledger_eq_some.mp hL)
    exact ⟨_, ledger_eq_some.mpr hL'⟩
  vaultOwner := by
    intro key pool vault hpool hvault
    have hpool' := h.pools ▸ hpool
    rw [hwf.vaultOwner_of_keeps hpool' (h.vaults key pool hpool') hvault]
    exact (hwf.poolKey key pool hpool').symm
  indexOwner := by
    rw [h.pools]
    exact hwf.indexOwner
  positionKey := by
    rw [h.positions]
    exact hwf.positionKey
  positionPool := by
    rw [h.positions, h.pools]
    exact hwf.positionPool
  statsPool := by
    rw [h.walletStats, h.pools]
    exact hwf.statsPool

theorem Founds.reads_other (h : Founds c c' key L) {other : Pubkey}
    {M : Ledger} (hM : c.Reads other M) :
    ∃ amount, c'.Reads other { M with vault := M.vault + amount } := by
  have hne : other ≠ key := by
    rintro rfl
    have hfresh := h.fresh
    rw [hM.pool] at hfresh
    cases hfresh
  have hindex : M.pool.weightIndex ≠ L.pool.weightIndex := by
    obtain ⟨_, weightIndex, _, _, _, -, hfresh, -, rfl⟩ := h.founded
    rintro heq
    rw [show weightIndex = M.pool.weightIndex from heq.symm, hM.weightIndex] at hfresh
    cases hfresh
  exact hM.kept (h.pools other hne) (h.indexes _ hindex) (h.topTiers other hne)
    (by rw [h.positions]) (by simp [h.walletStats]) (h.vaults other M.pool hM.pool)

theorem Founds.wellFormed (h : Founds c c' key L) (hwf : c.WellFormed) : c'.WellFormed where
  poolKey := by
    intro other pool hpool
    by_cases hother : other = key
    · subst hother
      obtain ⟨poolId, _, _, _, _, -, -, hkey, hL⟩ := h.founded
      rw [h.after.pool, Option.some.injEq, hL] at hpool
      rw [← hpool]
      exact hkey
    · exact hwf.poolKey other pool (h.pools other hother ▸ hpool)
  ledger := by
    intro other pool hpool
    by_cases hother : other = key
    · subst hother
      exact ⟨L, ledger_eq_some.mpr h.after⟩
    · obtain ⟨M, hM⟩ := hwf.ledger other pool (h.pools other hother ▸ hpool)
      obtain ⟨amount, hM'⟩ := h.reads_other (ledger_eq_some.mp hM)
      exact ⟨_, ledger_eq_some.mpr hM'⟩
  vaultOwner := by
    intro other pool vault hpool hvault
    by_cases hother : other = key
    · subst hother
      exact h.vaultOwner vault hvault
    · have hpool' := h.pools other hother ▸ hpool
      rw [hwf.vaultOwner_of_keeps hpool' (h.vaults other pool hpool') hvault]
      exact (hwf.poolKey other pool hpool').symm
  indexOwner := by
    -- The new pool's index account was free, so no pool before holds it.
    have hold : ∀ other pool, c.pools.lookup other = some pool →
        pool.weightIndex ≠ L.pool.weightIndex := by
      intro other pool hpool heq
      obtain ⟨M, hM⟩ := hwf.ledger other pool hpool
      have hM := ledger_eq_some.mp hM
      obtain rfl : M.pool = pool := Option.some.inj (hM.pool.symm.trans hpool)
      obtain ⟨_, weightIndex, _, _, _, -, hfresh, -, rfl⟩ := h.founded
      rw [show weightIndex = M.pool.weightIndex from heq.symm, hM.weightIndex] at hfresh
      cases hfresh
    intro other other' pool pool' hpool hpool' heq
    by_cases hother : other = key <;> by_cases hother' : other' = key
    · rw [hother, hother']
    · subst hother
      rw [h.after.pool, Option.some.injEq] at hpool
      exact absurd (by rw [hpool, heq]) (hold other' pool' (h.pools other' hother' ▸ hpool'))
    · subst hother'
      rw [h.after.pool, Option.some.injEq] at hpool'
      exact absurd (by rw [hpool', heq]) (hold other pool (h.pools other hother ▸ hpool))
    · exact hwf.indexOwner other other' pool pool' (h.pools other hother ▸ hpool)
        (h.pools other' hother' ▸ hpool') heq
  positionKey := by
    rw [h.positions]
    exact hwf.positionKey
  positionPool := by
    intro k p hp
    obtain ⟨pool, hpool⟩ := hwf.positionPool k p (h.positions ▸ hp)
    have hne : p.pool ≠ key := by
      intro heq
      rw [heq, h.fresh] at hpool
      cases hpool
    exact ⟨pool, (h.pools _ hne).trans hpool⟩
  statsPool := by
    intro other owner stats hstats
    obtain ⟨pool, hpool⟩ := hwf.statsPool other owner stats (h.walletStats ▸ hstats)
    have hne : other ≠ key := by
      rintro rfl
      rw [h.fresh] at hpool
      cases hpool
    exact ⟨pool, (h.pools _ hne).trans hpool⟩

theorem Effect.wellFormed (h : Effect configures c c') (hwf : c.WellFormed) : c'.WellFormed := by
  cases h with
  | quiet hquiet => exact hquiet.wellFormed hwf
  | carries key hcarries =>
    obtain ⟨L, L', htouches, -⟩ := hcarries
    exact htouches.wellFormed hwf
  | founds key L hfounds => exact hfounds.wellFormed hwf

theorem Effect.batches (h : Effect configures c c') : BatchesKept c c' := by
  cases h with
  | quiet hquiet => exact hquiet.batches
  | carries key hcarries =>
    obtain ⟨L, L', htouches, -⟩ := hcarries
    exact htouches.batches
  | founds key L hfounds => exact hfounds.batches

theorem Effect.forward (h : Effect configures c c') (hwf : c.WellFormed) (hL : c.Reads key L) :
    ∃ L', c'.Reads key L' ∧ Change (configures key) L L' := by
  cases h with
  | quiet hquiet =>
    obtain ⟨amount, hL'⟩ := hquiet.reads hL
    exact ⟨_, hL', .moves (.single .credit)⟩
  | carries other hcarries =>
    obtain ⟨M, M', htouches, hchange⟩ := hcarries
    by_cases hkey : key = other
    · subst hkey
      obtain rfl := hL.unique htouches.before
      exact ⟨M', htouches.after, hchange⟩
    · obtain ⟨amount, hL'⟩ := htouches.reads_other hwf hkey hL
      exact ⟨_, hL', .moves (.single .credit)⟩
  | founds other M hfounds =>
    obtain ⟨amount, hL'⟩ := hfounds.reads_other hL
    exact ⟨_, hL', .moves (.single .credit)⟩

/-- A pool as `init_pool` leaves it. -/
def Ledger.Founded (L : Ledger) : Prop :=
  ∃ key poolId weightIndex args bump tierBump, validateConfig args = .ok () ∧
    L = .founded key poolId weightIndex args bump tierBump

/-- Every ledger after a step came through a change, or was just founded. -/
theorem Effect.backward (h : Effect configures c c') (hwf : c.WellFormed) (hL' : c'.Reads key L') :
    (∃ L, c.Reads key L ∧ Change (configures key) L L') ∨ L'.Founded := by
  cases hpool : c.pools.lookup key with
  | some pool =>
    obtain ⟨L, hL⟩ := hwf.ledger key pool hpool
    obtain ⟨M, hM, hchange⟩ := h.forward hwf (ledger_eq_some.mp hL)
    obtain rfl := hM.unique hL'
    exact .inl ⟨L, ledger_eq_some.mp hL, hchange⟩
  | none =>
    -- Only the founding of this very pool makes it appear.
    have hpool' := hL'.pool
    cases h with
    | quiet hquiet =>
      rw [hquiet.pools, hpool] at hpool'
      cases hpool'
    | carries other hcarries =>
      obtain ⟨M, M', htouches, -⟩ := hcarries
      have hne : key ≠ other := by
        rintro rfl
        rw [htouches.before.pool] at hpool
        cases hpool
      rw [htouches.pools key hne, hpool] at hpool'
      cases hpool'
    | founds other M hfounds =>
      by_cases hkey : key = other
      · subst hkey
        obtain rfl := hL'.unique hfounds.after
        obtain ⟨poolId, weightIndex, args, bump, tierBump, hvalid, -, -, rfl⟩ := hfounds.founded
        exact .inr ⟨_, poolId, weightIndex, args, bump, tierBump, hvalid, rfl⟩
      · rw [hfounds.pools key hkey, hpool] at hpool'
        cases hpool'

end Ledgers

end ByeMachine
