import ByeMachine.Chain

/-!
# Rolls

`instructions/roll`: a roller opens a batch against the pool as it stands, and
the randomness provider resolves it.
-/

namespace ByeMachine

open Fallible

variable (X : Programs)

-- ---------------------------------------------------------------------------
-- commit_rolls
-- ---------------------------------------------------------------------------

/-- How many of the pool's real cards the tier must hold before a batch may open. -/
def requiredTierLen (tierSize nReal : ℕ) : ℕ := min tierSize nReal % 2 ^ 8

/-- Every roll of the batch starts here: nothing drawn, nothing settled. -/
def UNDRAWN : RollRecord where
  status := .pending
  outcome := .none
  selectedMint := .default
  blankFaceIdx := 0
  drawValue := 0
  attempts := 0
  wAtDraw := 0
  nRealAtDraw := 0
  blanksAtDraw := fun _ => 0
  refundReason := 0

/-- Every entry condition, and the pool-side ledger move they authorise: the batch's id and
liability. -/
def applyCommit (pool : Pool) (tierLen n : ℕ) : Result (Pool × ℕ × ℕ) := do
  require (pool.rollsPaused = false) (.program .rollsPaused)
  require (pool.sweepPending = false) (.program .sweepPending)
  assertWeightOpen pool
  require (1 ≤ n ∧ n ≤ pool.maxN ∧ n ≤ MAX_BATCH_CAPACITY) (.program .rollCountOutOfBounds)
  require (0 < pool.nReal) (.program .realPoolEmpty)
  require (tierLen = requiredTierLen pool.tierSize pool.nReal) (.program .tierNotFull)
  let liability ← okOr (Checked.mul 64 n pool.price) (.program .rollCountOutOfBounds)
  let batchId := pool.batchCounter
  let pendingRollLiability ← okOr (Checked.add 64 pool.pendingRollLiability liability)
    (.program .principalShortfall)
  let openBatches ← okOr (Checked.add 32 pool.openBatches 1) (.program .rollBatchInFlight)
  let batchCounter ← okOr (Checked.add 64 batchId 1) (.program .rollCountOutOfBounds)
  pure ({ pool with pendingRollLiability, openBatches, batchCounter }, batchId, liability)

def committedBatch (poolKey roller batchKey : Pubkey) (pool : Pool) (batchId n slot bump : ℕ) :
    RollBatch where
  pool := poolKey
  roller
  batchId
  state := .committed
  n
  nextRoll := 0
  settled := 0
  refunded := 0
  requestSlot := slot
  callerSeed := batchKey
  randomness := 0
  -- Seeded by the callback from live state, not here.
  expectedW := 0
  expectedBlanks := fun _ => 0
  sPrice := pool.price
  sTicket := pool.ticketTarget
  sFee := pool.fee
  sAllocBps := ![pool.allocEqualBps, pool.allocTierBps, pool.allocProtocolBps]
  sBlankFaces := pool.blankFaces
  rolls := fun _ => UNDRAWN
  bump

def commitRolls (clock : Clock) (c : Chain) (roller poolKey rollerUsdc : Pubkey) (n : ℕ) :
    Outcome := do
  requireSigner roller
  let config ← c.loadConfig
  let pool ← c.loadPool poolKey
  let topTier ← c.loadTopTier poolKey
  let batchKey := Pubkey.rollBatch poolKey pool.batchCounter
  require (c.rollBatches.lookup batchKey = none) (.anchor .accountAlreadyInUse)
  let source ← loadToken c.tokens rollerUsdc
  let vault ← loadToken c.tokens (.principalVault poolKey)
  require (source.mint = vault.mint) (.program .standardNotAdmitted)
  require (source.owner = roller) (.program .unauthorized)
  c.loadMint X config.usdcMint
  let (pool, batchId, liability) ← applyCommit pool topTier.len n
  let tokens ← splTransfer c.tokens rollerUsdc (.principalVault poolKey) roller liability
  let batch :=
    committedBatch poolKey roller batchKey pool batchId n clock.slot (X.bumpOf batchKey)
  let externals ← invoke (X.requestRandomness
    ⟨roller, config.oracleQueue, batchKey, batchKey, poolKey, batchKey⟩ c.externals)
  pure ({ c with
    pools := c.pools.insert poolKey pool
    rollBatches := c.rollBatches.insert batchKey batch
    tokens
    externals },
    [.batchCommitted poolKey clock.slot roller batchKey n batch.sPrice batch.sTicket batch.sFee
      batch.sAllocBps batch.sBlankFaces])

-- ---------------------------------------------------------------------------
-- vrf_callback
-- ---------------------------------------------------------------------------

/-- The state transition and both writes. A second delivery finds the batch resolved. -/
def applyResolve (batch : RollBatch) (pool : Pool) (randomness : ℕ) : Result RollBatch := do
  require (batch.state = .committed) (.program .batchNotResolved)
  let expectedW ← aggregateWeight pool.wReal pool.blanks pool.blankFaces
  pure { batch with
    randomness, state := .resolved, expectedW, expectedBlanks := pool.blanks }

/-- The sole signer is the provider's scoped identity. The pool is read-only. -/
def vrfCallback (clock : Clock) (c : Chain) (signer batchKey poolKey : Pubkey) (randomness : ℕ) :
    Outcome := do
  require (signer = X.scopedVrfIdentity) (.anchor .constraintAddress)
  let batch ← okOr (c.rollBatches.lookup batchKey) (.anchor .accountNotInitialized)
  require (batchKey = .rollBatch batch.pool batch.batchId) (.anchor .constraintSeeds)
  let pool ← c.loadPool poolKey
  require (poolKey = batch.pool) (.program .batchPoolMismatch)
  let batch ← applyResolve batch pool randomness
  pure ({ c with rollBatches := c.rollBatches.insert batchKey batch },
    [.batchResolved poolKey clock.slot batchKey])

end ByeMachine
