import ByeMachine.Refinement.Exits

/-!
# Administration and rolls on the ledgers

A configuration move, a pause and a commitment change one pool's ledger. A new
pool comes with an empty one. The other instructions leave every ledger alone.
-/

namespace ByeMachine

open Fallible

variable {X : Programs} {clock : Clock} {c c' : Chain} {events : List Event} {poolKey : Pubkey}
  {L : Ledger}

-- ---------------------------------------------------------------------------
-- update_config and set_pause
-- ---------------------------------------------------------------------------

theorem settleEvicted_ok {remaining : List AccountMeta} {accTier slot : ℕ} {key : Pubkey}
    {evicted : List TierEntry} {base positions positions' : Positions}
    (honly : OnlyPool poolKey base positions)
    (hmember : ∀ e ∈ evicted, ∃ q, positions.lookup e.position = some q ∧ q.pool = poolKey)
    (h : settleEvicted remaining accTier key slot evicted positions = .ok (positions', events)) :
    OnlyPool poolKey base positions' ∧ SettledAll accTier evicted
      (Store.restrict (ofPool poolKey) positions) (Store.restrict (ofPool poolKey) positions') := by
  induction evicted generalizing positions events with
  | nil =>
    simp only [settleEvicted, pure_ok, Prod.mk.injEq] at h
    obtain ⟨rfl, -⟩ := h
    exact ⟨honly, rfl⟩
  | cons e evicted ih =>
    simp only [settleEvicted, bind_ok, pure_ok, Prod.mk.injEq, Prod.exists] at h
    obtain ⟨_, hdisplaced, _, _, hrest, rfl, -⟩ := h
    obtain ⟨q, q', hq, hsettle, rfl⟩ := settleDisplacedMember_ok hdisplaced
    obtain ⟨q₀, hq₀, hqpool⟩ := hmember e (by simp)
    obtain rfl : q = q₀ := Option.some.inj (hq.symm.trans hq₀)
    have hq'pool : q'.pool = poolKey := by
      obtain ⟨-, -, rfl⟩ := Tier.settleMember_ok.mp hsettle
      exact hqpool
    have hkey : e.position = .position poolKey q'.nftMint := by
      obtain ⟨-, -, rfl⟩ := Tier.settleMember_ok.mp hsettle
      have hown := honly.keyed _ _ hq
      rwa [hqpool] at hown
    have hrestMember : ∀ e' ∈ evicted, ∃ q,
        (positions.insert e.position q').lookup e'.position = some q ∧ q.pool = poolKey := by
      intro e' he'
      by_cases heq : e'.position = e.position
      · exact ⟨q', by rw [heq, Finmap.lookup_insert], hq'pool⟩
      · rw [Finmap.lookup_insert_of_ne _ heq]
        exact hmember e' (by simp [he'])
    obtain ⟨honly', hsettled⟩ := ih (honly.write hq'pool hkey) hrestMember hrest
    refine ⟨honly', q, q', Store.lookup_restrict.mpr ⟨hq, by simp [ofPool, hqpool]⟩, hsettle, ?_⟩
    rwa [restrict_write hq'pool] at hsettled

theorem demotions_ok {topTier : TopTier} {remaining : List AccountMeta} {slot : ℕ}
    {positions' : Positions} {update : ConfigUpdate} (hwf : c.WellFormed)
    (hL : c.Reads poolKey L) (hranked : L.Ranked)
    (h : demotions L.topTier remaining c.positions poolKey slot update
      = .ok (topTier, positions', events)) :
    OnlyPool poolKey c.positions positions' ∧
      Demotes L topTier (Store.restrict (ofPool poolKey) positions') update := by
  cases update with
  | tierSize value =>
    simp only [demotions, demoteShrinkExcess, bind_ok, pure_ok, Prod.mk.injEq, Prod.exists] at h
    obtain ⟨_, evicted, hshrink, _, _, hsettle, rfl, rfl, -⟩ := h
    obtain ⟨rfl, -, -⟩ := Tier.shrink_ok hranked.len_le_max hshrink
    have hmember : ∀ e ∈ L.topTier.members.drop value,
        ∃ q, c.positions.lookup e.position = some q ∧ q.pool = poolKey := by
      intro e he
      obtain ⟨q, hq, -⟩ := hranked.listed.lookup (List.mem_of_mem_drop he)
      exact ⟨q, hL.lookup.mp hq⟩
    obtain ⟨honly, hsettled⟩ := settleEvicted_ok (OnlyPool.refl hwf.positionKey) hmember hsettle
    rw [← hL.positions] at hsettled
    exact ⟨honly, _, hshrink, hsettled⟩
  | _ =>
    simp only [demotions, pure_ok, Prod.mk.injEq] at h
    obtain ⟨rfl, rfl, -⟩ := h
    exact ⟨.refl hwf.positionKey, rfl, hL.positions.symm⟩

theorem requireFreeze_ok {pool : Pool} {update : ConfigUpdate} {u : Unit}
    (h : requireFreeze pool update = .ok u) (hfreeze : requiresWeightFreeze pool update = true) :
    pool.openBatches = 0 := by
  rw [requireFreeze, if_pos hfreeze] at h
  exact assertWeightOpen_ok.mp h

theorem applyUpdate_poolId (pool : Pool) (update : ConfigUpdate) :
    (applyUpdate pool update).poolId = pool.poolId := by
  cases update <;> rfl

theorem applyUpdate_weightIndex (pool : Pool) (update : ConfigUpdate) :
    (applyUpdate pool update).weightIndex = pool.weightIndex := by
  cases update <;> rfl

theorem updateConfig_carries {administrator : Pubkey} {remaining : List AccountMeta}
    {update : ConfigUpdate} (hwf : c.WellFormed) (hranked : ∀ L, c.Reads poolKey L → L.Ranked)
    (h : updateConfig clock c administrator poolKey remaining update = .ok (c', events)) :
    Carries c c' poolKey (some update) := by
  simp only [updateConfig, bind_ok, pure_ok, Prod.mk.injEq, Prod.exists] at h
  obtain ⟨_, -, pool, hpool, topTier, htopTier, _, hvalid, _, hfreeze, t', positions', _, hdemote,
    rfl, -⟩ := h
  obtain ⟨L, hL, rfl, -⟩ := hwf.loadPool hpool
  obtain rfl := Option.some.inj ((loadTopTier_ok.mp htopTier).symm.trans hL.topTier)
  obtain ⟨honly, hdemoted⟩ := demotions_ok hwf hL (hranked L hL) hdemote
  exact ⟨L, _, Touches.of_write_pool hL rfl (applyUpdate_poolId _ _) (applyUpdate_weightIndex _ _)
    rfl rfl honly rfl rfl (.of_eq hwf hL rfl rfl),
    .configure rfl (.intro hvalid (requireFreeze_ok hfreeze) hdemoted)⟩

theorem setPause_carries {administrator : Pubkey} {deposits rolls : Bool} {reason : ℕ}
    {update : Option ConfigUpdate} (hwf : c.WellFormed)
    (h : setPause clock c administrator poolKey deposits rolls reason = .ok (c', events)) :
    Carries c c' poolKey update := by
  simp only [setPause, bind_ok, pure_ok, Prod.mk.injEq] at h
  obtain ⟨_, -, pool, hpool, rfl, -⟩ := h
  obtain ⟨L, hL, rfl, -⟩ := hwf.loadPool hpool
  exact .of_moves (.of_pool hwf hL rfl rfl) (.single .tick)

-- ---------------------------------------------------------------------------
-- commit_rolls
-- ---------------------------------------------------------------------------

theorem applyCommit_ok {pool pool' : Pool} {tierLen n batchId liability : ℕ}
    (h : applyCommit pool tierLen n = .ok (pool', batchId, liability)) :
    pool.openBatches = 0 ∧ tierLen = requiredTierLen pool.tierSize pool.nReal ∧
      batchId = pool.batchCounter ∧ pool' = { pool with
        pendingRollLiability := pool.pendingRollLiability + liability
        openBatches := pool.openBatches + 1, batchCounter := pool.batchCounter + 1 } := by
  simp only [applyCommit, bind_ok, require_ok, assertWeightOpen_ok, okOr_ok, Checked.add_some,
    Checked.mul_some, pure_ok, Prod.mk.injEq] at h
  obtain ⟨-, -, -, -, -, hopen, -, -, -, -, -, htier, _, -, _, ⟨-, rfl⟩, _, ⟨-, rfl⟩, _, ⟨-, rfl⟩,
    rfl, rfl, rfl⟩ := h
  exact ⟨hopen, htier, rfl, rfl⟩

theorem commitRolls_carries {roller rollerUsdc : Pubkey} {n : ℕ} {update : Option ConfigUpdate}
    (hwf : c.WellFormed)
    (h : commitRolls X clock c roller poolKey rollerUsdc n = .ok (c', events)) :
    Carries c c' poolKey update := by
  simp only [commitRolls, bind_ok, require_ok, requireSigner_ok, pure_ok, Prod.mk.injEq,
    Prod.exists, loadToken, okOr_ok] at h
  obtain ⟨-, hsign, _, -, pool, hpool, topTier, htopTier, -, hfree, source, hsource, vault, hvault,
    -, -, -, howner, -, -, pool', _, liability, hcommit, tokens, htransfer, externals, -, rfl, -⟩ := h
  obtain ⟨L, hL, rfl, hkey⟩ := hwf.loadPool hpool
  obtain rfl := Option.some.inj ((loadTopTier_ok.mp htopTier).symm.trans hL.topTier)
  obtain ⟨hopen, htier, rfl, rfl⟩ := applyCommit_ok hcommit
  -- The roller pays from an account of its own.
  have hne : rollerUsdc ≠ .principalVault poolKey := by
    rintro rfl
    obtain ⟨vault', hvault', howner', -⟩ := hwf.vault hL
    rw [hsource, Option.some.injEq] at hvault'
    rw [hvault', howner', hkey] at howner
    exact Pubkey.ne_pool_of_canSign hsign _ howner.symm
  obtain ⟨vault', hvault', hcredited⟩ := splTransfer_credit htransfer hne
  obtain ⟨vault'', hvault'', howner', hamount⟩ := hwf.vault hL
  obtain rfl : vault' = vault'' := Option.some.inj (hvault'.symm.trans hvault'')
  refine .of_moves (Touches.of_write_pool hL rfl rfl rfl rfl
    (Store.insert_of_lookup hL.topTier).symm (.refl hwf.positionKey) hL.positions.symm rfl
    ⟨fun other pool' _ hpool' => splTransfer_keeps htransfer (hwf.not_owner hpool' (Keeps.refl _ _)
      (Pubkey.ne_pool_of_canSign hsign)), ⟨_, hcredited, howner', congrArg (· + liability) hamount⟩,
      fun k batch hbatch => ?_⟩) (.single (.commit hopen htier))
  have hk : k ≠ .rollBatch poolKey L.pool.batchCounter := by
    rintro rfl
    rw [hfree] at hbatch
    cases hbatch
  exact ⟨batch, (Finmap.lookup_insert_of_ne _ hk).trans hbatch, rfl, rfl⟩

end ByeMachine
