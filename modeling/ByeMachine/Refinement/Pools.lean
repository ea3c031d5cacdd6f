import ByeMachine.Refinement.Fate

/-!
# What an instruction does to one pool

An instruction writes at most one pool's record, and of it the fields that are
its own.
-/

namespace ByeMachine

open Fallible

def Instr.poolWritten : Instr → Option Pubkey
  | .updateConfig _ pool _ _ | .setPause _ pool _ _ _ | .approveDeposit _ pool _ _ _ _ _
  | .beginSweep _ pool | .recordValue _ pool _ _ _ _ | .endSweep _ pool | .withdraw _ pool _ _ _ _
  | .withdrawCore _ pool _ _ _ _ | .closeSeized _ pool _ _ | .commitRolls _ pool _ _ => some pool
  | .deposit accounts => some accounts.pool
  | .depositCore accounts => some accounts.pool
  | _ => none

def Pool.weighed (pool : Pool) (nReal wReal : ℕ) (blanks : Denomination → ℕ) : Pool :=
  { pool with nReal, wReal, blanks }

/-- What an instruction does to the pool at `key`. -/
inductive PoolFate (X : Programs) (clock : Clock) (key : Pubkey) :
    Instr → Option Pool → Option Pool → Prop where
  | kept {instr : Instr} {pool : Option Pool} (hother : instr.poolWritten ≠ some key) :
      PoolFate X clock key instr pool pool
  | founded {administrator weightIndex : Pubkey} {args : PoolConfigArgs} {poolId bump : ℕ}
      (hkey : key = .pool poolId) (hvalid : validateConfig args = .ok ()) :
      PoolFate X clock key (.initPool administrator weightIndex args) none
        (some (genesisPool poolId weightIndex args bump))
  | configured {administrator : Pubkey} {remaining : List AccountMeta} {update : ConfigUpdate}
      {pool : Pool} (hvalid : validate (effectiveConfig pool update) = .ok ()) :
      PoolFate X clock key (.updateConfig administrator key remaining update) (some pool)
        (some (applyUpdate pool update))
  | paused {administrator : Pubkey} {deposits rolls : Bool} {reason : ℕ} {pool : Pool} :
      PoolFate X clock key (.setPause administrator key deposits rolls reason) (some pool)
        (some { pool with
          depositsPaused := deposits, rollsPaused := rolls, pauseReason := reason })
  | deposited {a : DepositAccounts} {pool : Pool} (hkey : a.pool = key) :
      PoolFate X clock key (.deposit a) (some pool)
        (some { pool with positionCounter := pool.positionCounter + 1 })
  | depositedCore {a : DepositCoreAccounts} {pool : Pool} (hkey : a.pool = key) :
      PoolFate X clock key (.depositCore a) (some pool)
        (some { pool with positionCounter := pool.positionCounter + 1 })
  | approved {operator position : Pubkey} {remaining : List AccountMeta} {value : ℕ}
      {observedAt lockUntil : ℤ} {pool : Pool} {nReal wReal : ℕ} {blanks : Denomination → ℕ} :
      PoolFate X clock key (.approveDeposit operator key position remaining value observedAt
        lockUntil) (some pool) (some (pool.weighed nReal wReal blanks))
  | begun {operator : Pubkey} {pool : Pool} (hsweep : pool.sweepPending = false) :
      PoolFate X clock key (.beginSweep operator key) (some pool)
        (some { pool with sweepPending := true, sweepUpdates := 0 })
  | recorded {operator position : Pubkey} {remaining : List AccountMeta} {value : ℕ}
      {observedAt : ℤ} {pool : Pool} {nReal wReal : ℕ} {blanks : Denomination → ℕ}
      (hsweep : pool.sweepPending = true) (hopen : pool.openBatches = 0) :
      PoolFate X clock key (.recordValue operator key position remaining value observedAt)
        (some pool) (some { pool.weighed nReal wReal blanks with
          sweepUpdates := pool.sweepUpdates + 1 })
  | ended {operator : Pubkey} {pool : Pool} (hsweep : pool.sweepPending = true) :
      PoolFate X clock key (.endSweep operator key) (some pool)
        (some { pool with
          sweepPending := false, sweepEpoch := pool.sweepEpoch + 1
          lastSweepAt := clock.unixTimestamp })
  | withdrawn {depositor position : Pubkey} {depositorUsdc : Option Pubkey}
      {remaining : List AccountMeta} {accounts : ReleaseAccounts} {pool : Pool}
      {nReal wReal owedFees : ℕ} {blanks : Denomination → ℕ} :
      PoolFate X clock key (.withdraw depositor key position depositorUsdc remaining accounts)
        (some pool) (some { pool.weighed nReal wReal blanks with owedFees })
  | withdrawnCore {depositor position collection : Pubkey} {depositorUsdc : Option Pubkey}
      {remaining : List AccountMeta} {pool : Pool} {nReal wReal owedFees : ℕ}
      {blanks : Denomination → ℕ} :
      PoolFate X clock key
        (.withdrawCore depositor key position depositorUsdc collection remaining)
        (some pool) (some { pool.weighed nReal wReal blanks with owedFees })
  | seized {caller position collection : Pubkey} {pool : Pool} {nReal wReal : ℕ}
      {blanks : Denomination → ℕ} :
      PoolFate X clock key (.closeSeized caller key position collection) (some pool)
        (some (pool.weighed nReal wReal blanks))
  | committed {roller rollerUsdc : Pubkey} {n tierLen batchId liability : ℕ} {pool pool' : Pool}
      (hcommit : applyCommit pool tierLen n = .ok (pool', batchId, liability)) :
      PoolFate X clock key (.commitRolls roller key rollerUsdc n) (some pool) (some pool')

section Fates

variable {X : Programs} {clock : Clock} {c c' : Chain} {events : List Event} {key : Pubkey}
  {instr : Instr}

theorem PoolFate.of_write {poolKey : Pubkey} {pool pool' : Pool}
    (hpool : c.pools.lookup poolKey = some pool) (hwritten : instr.poolWritten = some poolKey)
    (h : PoolFate X clock poolKey instr (some pool) (some pool')) (key : Pubkey) :
    PoolFate X clock key instr (c.pools.lookup key) ((c.pools.insert poolKey pool').lookup key) := by
  by_cases hkey : key = poolKey
  · subst hkey
    rwa [Finmap.lookup_insert, hpool]
  · rw [Finmap.lookup_insert_of_ne _ hkey]
    exact .kept (by rw [hwritten]; simpa using Ne.symm hkey)

theorem applyRecordValue_pool {pool : Pool} {p : Position} {stats : WalletStats} {value : ℕ}
    {observedAt now : ℤ} {booked : Booked RecordEffect}
    (h : applyRecordValue pool p stats value observedAt now = .ok booked) :
    pool.sweepPending = true ∧ pool.openBatches = 0 ∧ ∃ nReal wReal blanks,
      booked.pool = { pool.weighed nReal wReal blanks with
        sweepUpdates := pool.sweepUpdates + 1 } := by
  simp only [applyRecordValue, bind_ok, require_ok, assertWeightOpen_ok, orArithmeticFailure_ok,
    Checked.add_some, pure_ok, Prod.exists] at h
  obtain ⟨-, hsweep, -, hopen, -, -, -, -, _, ⟨-, rfl⟩, wReal, -, _, -, nReal, _, _, -, targets, -,
    _, -, rfl⟩ := h
  exact ⟨hsweep, hopen, nReal, wReal, targets.toBlanks, rfl⟩

theorem applyCloseSeized_pool {pool : Pool} {p : Position} {stats : WalletStats}
    {kind : SeizureKind} {now : ℤ} {booked : Booked SeizeEffect}
    (h : applyCloseSeized pool p stats kind now = .ok booked) :
    ∃ nReal wReal blanks, booked.pool = pool.weighed nReal wReal blanks := by
  by_cases hactive : p.state = .active
  · obtain ⟨targets, -, -, hpool, -⟩ := applyCloseSeized_active hactive h
    exact ⟨_, _, _, hpool⟩
  · exact ⟨pool.nReal, pool.wReal, pool.blanks, (applyCloseSeized_inactive hactive h).1⟩

theorem withdrawAccounting_pool {poolKey position : Pubkey} {depositorUsdc : Option Pubkey}
    {remaining : List AccountMeta} {a : Loaded} {c₁ : Chain}
    (h : withdrawAccounting clock c poolKey position depositorUsdc remaining a = .ok (c₁, events)) :
    ∃ nReal wReal blanks owedFees, c₁.pools
      = c.pools.insert poolKey { a.pool.weighed nReal wReal blanks with owedFees } := by
  simp only [withdrawAccounting, bind_ok, pure_ok, Prod.mk.injEq, Prod.exists] at h
  obtain ⟨booked, hbooked, _, -, _, _, _, _, -, _, -, rfl, -⟩ := h
  obtain ⟨targets, -, -, -, -, -, rfl⟩ := applyWithdraw_ok.mp hbooked
  exact ⟨_, _, _, _, rfl⟩

theorem recordDeposit_pool {poolKey depositor nftMint : Pubkey} {pool : Pool} {standard : ℕ}
    {tokens : Tokens} {externals : Externals}
    (h : recordDeposit X clock c poolKey depositor nftMint pool standard tokens externals
      = .ok (c', events)) : c'.pools
        = c.pools.insert poolKey { pool with positionCounter := pool.positionCounter + 1 } := by
  simp only [recordDeposit, bind_ok, okOr_ok, Checked.add_some, pure_ok, Prod.mk.injEq] at h
  obtain ⟨_, ⟨-, rfl⟩, rfl, -⟩ := h
  rfl

/-- Every successful instruction gives every pool one of the fates. -/
theorem exec_pool (h : exec X clock c instr = .ok (c', events)) (key : Pubkey) :
    PoolFate X clock key instr (c.pools.lookup key) (c'.pools.lookup key) := by
  cases instr with
  | initProtocol payer args =>
    simp only [exec, initProtocol, bind_ok, pure_ok, Prod.mk.injEq] at h
    obtain ⟨-, -, -, -, -, -, rfl, -⟩ := h
    exact .kept (by simp [Instr.poolWritten])
  | initPool administrator weightIndex args =>
    simp only [exec, initPool, bind_ok, require_ok, pure_ok, Prod.mk.injEq] at h
    obtain ⟨config, -, -, hfresh, -, -, -, -, -, -, _, -, _, -, _, hvalid, -, -, _, -, rfl, -⟩ := h
    by_cases hkey : key = .pool config.poolCounter
    · subst hkey
      rw [hfresh, Finmap.lookup_insert]
      exact .founded rfl hvalid
    · rw [Finmap.lookup_insert_of_ne _ hkey]
      exact .kept (by simp [Instr.poolWritten])
  | updateConfig administrator pool remaining update =>
    simp only [exec, updateConfig, bind_ok, pure_ok, Prod.mk.injEq, Prod.exists] at h
    obtain ⟨_, -, found, hpool, _, -, _, hvalid, _, -, _, _, _, -, rfl, -⟩ := h
    exact .of_write (loadPool_ok.mp hpool).1 rfl (.configured hvalid) key
  | updateVrfConfig administrator vrfProgram oracleQueue swapPool =>
    simp only [exec, updateVrfConfig, bind_ok, pure_ok, Prod.mk.injEq] at h
    obtain ⟨_, -, rfl, -⟩ := h
    exact .kept (by simp [Instr.poolWritten])
  | admitCollection administrator pool collection standards reason =>
    simp only [exec, admitCollection, bind_ok, pure_ok, Prod.mk.injEq] at h
    obtain ⟨_, -, _, -, -, -, rfl, -⟩ := h
    exact .kept (by simp [Instr.poolWritten])
  | withdrawCollection administrator pool collection reason =>
    simp only [exec, withdrawCollection, bind_ok, pure_ok, Prod.mk.injEq] at h
    obtain ⟨_, -, _, -, _, -, rfl, -⟩ := h
    exact .kept (by simp [Instr.poolWritten])
  | setPause administrator pool deposits rolls reason =>
    simp only [exec, setPause, bind_ok, pure_ok, Prod.mk.injEq] at h
    obtain ⟨_, -, found, hpool, rfl, -⟩ := h
    exact .of_write (loadPool_ok.mp hpool).1 rfl .paused key
  | setAuthorities signer role newAuthority =>
    simp only [exec, setAuthorities, bind_ok] at h
    obtain ⟨-, -, _, -, h⟩ := h
    cases newAuthority with
    | some proposed =>
      simp only [bind_ok, pure_ok, Prod.mk.injEq] at h
      obtain ⟨-, -, rfl, -⟩ := h
      exact .kept (by simp [Instr.poolWritten])
    | none =>
      simp only [bind_ok, pure_ok, Prod.mk.injEq] at h
      obtain ⟨-, -, -, -, rfl, -⟩ := h
      exact .kept (by simp [Instr.poolWritten])
  | deposit accounts =>
    simp only [exec, deposit, bind_ok, Prod.exists] at h
    obtain ⟨-, -, pool, hpool, _, -, -, -, _, -, _, -, _, -, -, -, -, -, -, -, _, -, _, _, -,
      hrecord⟩ := h
    rw [recordDeposit_pool hrecord]
    exact .of_write (loadPool_ok.mp hpool).1 rfl (.deposited rfl) key
  | depositCore accounts =>
    simp only [exec, depositCore, bind_ok] at h
    obtain ⟨-, -, pool, hpool, _, -, -, -, -, -, _, -, -, -, _, -, _, -, -, -, _, -, hrecord⟩ := h
    rw [recordDeposit_pool hrecord]
    exact .of_write (loadPool_ok.mp hpool).1 rfl (.depositedCore rfl) key
  | approveDeposit operator pool position remaining value observedAt lockUntil =>
    simp only [exec, approveDeposit, bind_ok, pure_ok, Prod.mk.injEq, Prod.exists] at h
    obtain ⟨_, -, a, ha, -, -, -, -, -, -, -, -, _, -, wReal, -, nReal, -, _, -, _, _, -, _, -, _,
      -, _, _, _, _, -, targets, -, _, -, rfl, -⟩ := h
    exact .of_write (loadThroughPool_ok ha).1 rfl
      .approved key
  | rejectDeposit operator position reason =>
    simp only [exec, rejectDeposit, bind_ok, pure_ok, Prod.mk.injEq] at h
    obtain ⟨_, -, _, -, -, -, -, -, rfl, -⟩ := h
    exact .kept (by simp [Instr.poolWritten])
  | returnRejected payer position accounts =>
    simp only [exec, returnRejected, bind_ok, pure_ok, Prod.mk.injEq, Prod.exists] at h
    obtain ⟨-, -, _, -, _, -, -, -, _, _, -, rfl, -⟩ := h
    exact .kept (by simp [Instr.poolWritten])
  | returnRejectedCore payer position collection =>
    simp only [exec, returnRejectedCore, bind_ok, pure_ok, Prod.mk.injEq] at h
    obtain ⟨-, -, _, -, -, -, -, -, _, -, _, -, rfl, -⟩ := h
    exact .kept (by simp [Instr.poolWritten])
  | beginSweep operator pool =>
    simp only [exec, beginSweep, applyBeginSweep, bind_ok, require_ok, pure_ok, Prod.mk.injEq,
      Prod.exists] at h
    obtain ⟨_, -, found, hpool, _, _, ⟨-, hsweep, rfl, -⟩, rfl, -⟩ := h
    exact .of_write (loadPool_ok.mp hpool).1 rfl (.begun hsweep) key
  | recordValue operator pool position remaining value observedAt =>
    simp only [exec, recordValue, bind_ok, pure_ok, Prod.mk.injEq, Prod.exists] at h
    obtain ⟨_, -, a, ha, booked, hbooked, _, -, _, _, _, _, -, rfl, -⟩ := h
    obtain ⟨hsweep, hopen, nReal, wReal, blanks, hbooked⟩ := applyRecordValue_pool hbooked
    dsimp only
    rw [hbooked]
    exact .of_write (loadThroughPool_ok ha).1 rfl (.recorded hsweep hopen) key
  | endSweep operator pool =>
    simp only [exec, endSweep, applyEndSweep, bind_ok, require_ok, orArithmeticFailure_ok,
      Checked.add_some, pure_ok, Prod.mk.injEq, Prod.exists] at h
    obtain ⟨_, -, found, hpool, _, _, _, ⟨-, hsweep, _, ⟨-, rfl⟩, rfl, -, -⟩, rfl, -⟩ := h
    exact .of_write (loadPool_ok.mp hpool).1 rfl (.ended hsweep) key
  | withdraw depositor pool position depositorUsdc remaining accounts =>
    simp only [exec, withdraw, bind_ok, pure_ok, Prod.mk.injEq, Prod.exists] at h
    obtain ⟨-, -, a, ha, -, -, _, -, -, -, c₁, _, haccounting, _, _, -, rfl, -⟩ := h
    obtain ⟨nReal, wReal, blanks, owedFees, hpools⟩ := withdrawAccounting_pool haccounting
    dsimp only
    rw [hpools]
    exact .of_write (loadThroughPool_ok ha).1 rfl .withdrawn key
  | withdrawCore depositor pool position depositorUsdc collection remaining =>
    simp only [exec, withdrawCore, bind_ok, pure_ok, Prod.mk.injEq, Prod.exists] at h
    obtain ⟨-, -, a, ha, -, -, -, -, -, -, _, -, c₁, _, haccounting, _, -, rfl, -⟩ := h
    obtain ⟨nReal, wReal, blanks, owedFees, hpools⟩ := withdrawAccounting_pool haccounting
    dsimp only
    rw [hpools]
    exact .of_write (loadThroughPool_ok ha).1 rfl .withdrawnCore key
  | claimNft depositor position accounts =>
    simp only [exec, claimNft, bind_ok, pure_ok, Prod.mk.injEq, Prod.exists] at h
    obtain ⟨-, -, _, -, -, -, _, -, -, -, _, _, -, rfl, -⟩ := h
    exact .kept (by simp [Instr.poolWritten])
  | claimNftCore depositor position collection =>
    simp only [exec, claimNftCore, bind_ok, pure_ok, Prod.mk.injEq] at h
    obtain ⟨-, -, _, -, -, -, -, -, -, -, _, -, _, -, rfl, -⟩ := h
    exact .kept (by simp [Instr.poolWritten])
  | closeSeized caller pool position collection =>
    simp only [exec, closeSeized, bind_ok, pure_ok, Prod.mk.injEq, Prod.exists] at h
    obtain ⟨-, -, a, ha, -, -, -, -, kind, _, -, booked, hbooked, _, _, _, _, -, rfl, -⟩ := h
    obtain ⟨nReal, wReal, blanks, hbooked⟩ := applyCloseSeized_pool hbooked
    dsimp only
    rw [hbooked]
    exact .of_write (loadThroughPool_ok ha).1 rfl .seized key
  | commitRolls roller pool rollerUsdc n =>
    simp only [exec, commitRolls, bind_ok, pure_ok, Prod.mk.injEq, Prod.exists] at h
    obtain ⟨-, -, _, -, found, hpool, _, -, -, -, _, -, _, -, -, -, -, -, -, -, _, _, _, hcommit, _,
      -, _, -, rfl, -⟩ := h
    exact .of_write (loadPool_ok.mp hpool).1 rfl (.committed hcommit) key
  | vrfCallback signer batch pool randomness =>
    simp only [exec, vrfCallback, bind_ok, pure_ok, Prod.mk.injEq] at h
    obtain ⟨-, -, _, -, -, -, _, -, -, -, _, -, rfl, -⟩ := h
    exact .kept (by simp [Instr.poolWritten])
  | updateTier operator pool position remaining =>
    simp only [exec, updateTier, bind_ok, pure_ok, Prod.mk.injEq, Prod.exists] at h
    obtain ⟨_, -, _, -, _, -, _, -, -, -, _, _, _, -, _, _, -, rfl, -⟩ := h
    exact .kept (by simp [Instr.poolWritten])

-- ---------------------------------------------------------------------------
-- Collections and batches
-- ---------------------------------------------------------------------------

def Instr.collectionWritten : Instr → Option (Pubkey × Pubkey)
  | .admitCollection _ pool collection _ _ | .withdrawCollection _ pool collection _ =>
    some (pool, collection)
  | _ => none

def Instr.writesBatch : Instr → Bool
  | .commitRolls .. | .vrfCallback .. => true
  | _ => false

/-- The collections' records and the batches stay where the instruction writes none. -/
structure SameRecords (instr : Instr) (c c' : Chain) : Prop where
  collections : instr.collectionWritten = none → c'.poolCollections = c.poolCollections
  batches : instr.writesBatch = false → c'.rollBatches = c.rollBatches

theorem SameRecords.of_eq (hcollections : c'.poolCollections = c.poolCollections)
    (hbatches : c'.rollBatches = c.rollBatches) : SameRecords instr c c' :=
  ⟨fun _ => hcollections, fun _ => hbatches⟩

def Instr.writesConfig : Instr → Bool
  | .initProtocol .. | .initPool .. | .updateVrfConfig .. | .setAuthorities .. => true
  | _ => false

def Instr.writesTier : Instr → Bool
  | .initPool .. | .updateConfig .. | .approveDeposit .. | .recordValue .. | .withdraw ..
  | .withdrawCore .. | .closeSeized .. | .updateTier .. => true
  | _ => false

/-- So do the protocol configuration and the tiers. -/
structure SameAccounts (instr : Instr) (c c' : Chain) : Prop extends SameRecords instr c c' where
  config : instr.writesConfig = false → c'.protocolConfig = c.protocolConfig
  topTiers : instr.writesTier = false → c'.topTiers = c.topTiers

theorem recordDeposit_records {poolKey depositor nftMint : Pubkey} {pool : Pool} {standard : ℕ}
    {tokens : Tokens} {externals : Externals}
    (h : recordDeposit X clock c poolKey depositor nftMint pool standard tokens externals
      = .ok (c', events)) : SameAccounts instr c c' := by
  simp only [recordDeposit, bind_ok, pure_ok, Prod.mk.injEq] at h
  obtain ⟨_, -, rfl, -⟩ := h
  exact ⟨.of_eq rfl rfl, fun _ => rfl, fun _ => rfl⟩

theorem withdrawAccounting_records {poolKey position : Pubkey} {depositorUsdc : Option Pubkey}
    {remaining : List AccountMeta} {a : Loaded} {c₁ : Chain}
    (h : withdrawAccounting clock c poolKey position depositorUsdc remaining a = .ok (c₁, events)) :
    c₁.poolCollections = c.poolCollections ∧ c₁.rollBatches = c.rollBatches ∧
      c₁.protocolConfig = c.protocolConfig := by
  simp only [withdrawAccounting, bind_ok, pure_ok, Prod.mk.injEq, Prod.exists] at h
  obtain ⟨_, -, _, -, _, _, _, _, -, _, -, rfl, -⟩ := h
  exact ⟨rfl, rfl, rfl⟩

theorem exec_accounts (h : exec X clock c instr = .ok (c', events)) : SameAccounts instr c c' := by
  cases instr with
  | initProtocol payer args =>
    simp only [exec, initProtocol, bind_ok, pure_ok, Prod.mk.injEq] at h
    obtain ⟨-, -, -, -, -, -, rfl, -⟩ := h
    exact ⟨.of_eq rfl rfl, fun hkept => (by cases hkept), fun _ => rfl⟩
  | initPool administrator weightIndex args =>
    simp only [exec, initPool, bind_ok, pure_ok, Prod.mk.injEq] at h
    obtain ⟨_, -, -, -, -, -, -, -, -, -, _, -, _, -, -, -, -, -, _, -, rfl, -⟩ := h
    exact ⟨.of_eq rfl rfl, fun hkept => (by cases hkept), fun hkept => (by cases hkept)⟩
  | updateConfig administrator pool remaining update =>
    simp only [exec, updateConfig, bind_ok, pure_ok, Prod.mk.injEq, Prod.exists] at h
    obtain ⟨_, -, _, -, _, -, -, -, -, -, _, _, _, -, rfl, -⟩ := h
    exact ⟨.of_eq rfl rfl, fun _ => rfl, fun hkept => (by cases hkept)⟩
  | updateVrfConfig administrator vrfProgram oracleQueue swapPool =>
    simp only [exec, updateVrfConfig, bind_ok, pure_ok, Prod.mk.injEq] at h
    obtain ⟨_, -, rfl, -⟩ := h
    exact ⟨.of_eq rfl rfl, fun hkept => (by cases hkept), fun _ => rfl⟩
  | admitCollection administrator pool collection standards reason =>
    simp only [exec, admitCollection, bind_ok, pure_ok, Prod.mk.injEq] at h
    obtain ⟨_, -, _, -, -, -, rfl, -⟩ := h
    exact ⟨⟨fun hnone => (by cases hnone), fun _ => rfl⟩, fun _ => rfl, fun _ => rfl⟩
  | withdrawCollection administrator pool collection reason =>
    simp only [exec, withdrawCollection, bind_ok, pure_ok, Prod.mk.injEq] at h
    obtain ⟨_, -, _, -, _, -, rfl, -⟩ := h
    exact ⟨⟨fun hnone => (by cases hnone), fun _ => rfl⟩, fun _ => rfl, fun _ => rfl⟩
  | setPause administrator pool deposits rolls reason =>
    simp only [exec, setPause, bind_ok, pure_ok, Prod.mk.injEq] at h
    obtain ⟨_, -, _, -, rfl, -⟩ := h
    exact ⟨.of_eq rfl rfl, fun _ => rfl, fun _ => rfl⟩
  | setAuthorities signer role newAuthority =>
    simp only [exec, setAuthorities, bind_ok] at h
    obtain ⟨-, -, _, -, h⟩ := h
    cases newAuthority with
    | some proposed =>
      simp only [bind_ok, pure_ok, Prod.mk.injEq] at h
      obtain ⟨-, -, rfl, -⟩ := h
      exact ⟨.of_eq rfl rfl, fun hkept => (by cases hkept), fun _ => rfl⟩
    | none =>
      simp only [bind_ok, pure_ok, Prod.mk.injEq] at h
      obtain ⟨-, -, -, -, rfl, -⟩ := h
      exact ⟨.of_eq rfl rfl, fun hkept => (by cases hkept), fun _ => rfl⟩
  | deposit accounts =>
    simp only [exec, deposit, bind_ok, Prod.exists] at h
    obtain ⟨-, -, _, -, _, -, -, -, _, -, _, -, _, -, -, -, -, -, -, -, _, -, _, _, -, hrecord⟩ := h
    exact recordDeposit_records hrecord
  | depositCore accounts =>
    simp only [exec, depositCore, bind_ok] at h
    obtain ⟨-, -, _, -, _, -, -, -, -, -, _, -, -, -, _, -, _, -, -, -, _, -, hrecord⟩ := h
    exact recordDeposit_records hrecord
  | approveDeposit operator pool position remaining value observedAt lockUntil =>
    simp only [exec, approveDeposit, bind_ok, pure_ok, Prod.mk.injEq, Prod.exists] at h
    obtain ⟨_, -, _, -, -, -, -, -, -, -, -, -, _, -, _, -, _, -, _, -, _, _, -, _, -, _, -, _, _,
      _, _, -, _, -, _, -, rfl, -⟩ := h
    exact ⟨.of_eq rfl rfl, fun _ => rfl, fun hkept => (by cases hkept)⟩
  | rejectDeposit operator position reason =>
    simp only [exec, rejectDeposit, bind_ok, pure_ok, Prod.mk.injEq] at h
    obtain ⟨_, -, _, -, -, -, -, -, rfl, -⟩ := h
    exact ⟨.of_eq rfl rfl, fun _ => rfl, fun _ => rfl⟩
  | returnRejected payer position accounts =>
    simp only [exec, returnRejected, bind_ok, pure_ok, Prod.mk.injEq, Prod.exists] at h
    obtain ⟨-, -, _, -, _, -, -, -, _, _, -, rfl, -⟩ := h
    exact ⟨.of_eq rfl rfl, fun _ => rfl, fun _ => rfl⟩
  | returnRejectedCore payer position collection =>
    simp only [exec, returnRejectedCore, bind_ok, pure_ok, Prod.mk.injEq] at h
    obtain ⟨-, -, _, -, -, -, -, -, _, -, _, -, rfl, -⟩ := h
    exact ⟨.of_eq rfl rfl, fun _ => rfl, fun _ => rfl⟩
  | beginSweep operator pool =>
    simp only [exec, beginSweep, bind_ok, pure_ok, Prod.mk.injEq, Prod.exists] at h
    obtain ⟨_, -, _, -, _, _, -, rfl, -⟩ := h
    exact ⟨.of_eq rfl rfl, fun _ => rfl, fun _ => rfl⟩
  | recordValue operator pool position remaining value observedAt =>
    simp only [exec, recordValue, bind_ok, pure_ok, Prod.mk.injEq, Prod.exists] at h
    obtain ⟨_, -, _, -, _, -, _, -, _, _, _, _, -, rfl, -⟩ := h
    exact ⟨.of_eq rfl rfl, fun _ => rfl, fun hkept => (by cases hkept)⟩
  | endSweep operator pool =>
    simp only [exec, endSweep, bind_ok, pure_ok, Prod.mk.injEq, Prod.exists] at h
    obtain ⟨_, -, _, -, _, _, _, -, rfl, -⟩ := h
    exact ⟨.of_eq rfl rfl, fun _ => rfl, fun _ => rfl⟩
  | withdraw depositor pool position depositorUsdc remaining accounts =>
    simp only [exec, withdraw, bind_ok, pure_ok, Prod.mk.injEq, Prod.exists] at h
    obtain ⟨-, -, _, -, -, -, _, -, -, -, c₁, _, haccounting, _, _, -, rfl, -⟩ := h
    obtain ⟨hcollections, hbatches, hconfig⟩ := withdrawAccounting_records haccounting
    exact ⟨.of_eq hcollections hbatches, fun _ => hconfig, fun hkept => (by cases hkept)⟩
  | withdrawCore depositor pool position depositorUsdc collection remaining =>
    simp only [exec, withdrawCore, bind_ok, pure_ok, Prod.mk.injEq, Prod.exists] at h
    obtain ⟨-, -, _, -, -, -, -, -, -, -, _, -, c₁, _, haccounting, _, -, rfl, -⟩ := h
    obtain ⟨hcollections, hbatches, hconfig⟩ := withdrawAccounting_records haccounting
    exact ⟨.of_eq hcollections hbatches, fun _ => hconfig, fun hkept => (by cases hkept)⟩
  | claimNft depositor position accounts =>
    simp only [exec, claimNft, bind_ok, pure_ok, Prod.mk.injEq, Prod.exists] at h
    obtain ⟨-, -, _, -, -, -, _, -, -, -, _, _, -, rfl, -⟩ := h
    exact ⟨.of_eq rfl rfl, fun _ => rfl, fun _ => rfl⟩
  | claimNftCore depositor position collection =>
    simp only [exec, claimNftCore, bind_ok, pure_ok, Prod.mk.injEq] at h
    obtain ⟨-, -, _, -, -, -, -, -, -, -, _, -, _, -, rfl, -⟩ := h
    exact ⟨.of_eq rfl rfl, fun _ => rfl, fun _ => rfl⟩
  | closeSeized caller pool position collection =>
    simp only [exec, closeSeized, bind_ok, pure_ok, Prod.mk.injEq, Prod.exists] at h
    obtain ⟨-, -, _, -, -, -, -, -, _, _, -, _, -, _, _, _, _, -, rfl, -⟩ := h
    exact ⟨.of_eq rfl rfl, fun _ => rfl, fun hkept => (by cases hkept)⟩
  | commitRolls roller pool rollerUsdc n =>
    simp only [exec, commitRolls, bind_ok, pure_ok, Prod.mk.injEq, Prod.exists] at h
    obtain ⟨-, -, _, -, _, -, _, -, -, -, _, -, _, -, -, -, -, -, -, -, _, _, _, -, _, -, _, -,
      rfl, -⟩ := h
    exact ⟨⟨fun _ => rfl, fun hfalse => (by cases hfalse)⟩, fun _ => rfl, fun _ => rfl⟩
  | vrfCallback signer batch pool randomness =>
    simp only [exec, vrfCallback, bind_ok, pure_ok, Prod.mk.injEq] at h
    obtain ⟨-, -, _, -, -, -, _, -, -, -, _, -, rfl, -⟩ := h
    exact ⟨⟨fun _ => rfl, fun hfalse => (by cases hfalse)⟩, fun _ => rfl, fun _ => rfl⟩
  | updateTier operator pool position remaining =>
    simp only [exec, updateTier, bind_ok, pure_ok, Prod.mk.injEq, Prod.exists] at h
    obtain ⟨_, -, _, -, _, -, _, -, -, -, _, _, _, -, _, _, -, rfl, -⟩ := h
    exact ⟨.of_eq rfl rfl, fun _ => rfl, fun hkept => (by cases hkept)⟩

theorem exec_records (h : exec X clock c instr = .ok (c', events)) : SameRecords instr c c' :=
  (exec_accounts h).toSameRecords

end Fates

end ByeMachine
