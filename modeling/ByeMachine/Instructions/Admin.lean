import ByeMachine.Instructions.UpdateConfig

/-!
# Administration

The rest of `instructions/admin`: genesis of the protocol and of a pool, the
admitted collections, pause, VRF configuration and authority rotation.
-/

namespace ByeMachine

open Fallible

-- ---------------------------------------------------------------------------
-- init_protocol
-- ---------------------------------------------------------------------------

structure ProtocolConfigArgs where
  operator : Pubkey
  t03Authority : Pubkey
  t02Authority : Pubkey
  protocolRevenue : Pubkey
  usdcMint : Pubkey
  byeMint : Pubkey
  vrfProgram : Pubkey
  oracleQueue : Pubkey
  swapPool : Pubkey
  maxSwapSlippageBps : ℕ

def initProtocol (X : Programs) (clock : Clock) (c : Chain) (payer : Pubkey)
    (args : ProtocolConfigArgs) : Outcome := do
  requireSigner payer
  require (payer = X.initialAdministrator) (.program .unauthorized)
  require c.protocolConfig.isNone (.anchor .accountAlreadyInUse)
  let config : ProtocolConfig := {
    administrator := payer
    pendingAdministrator := .default
    pendingOperator := .default
    pendingT03Authority := .default
    pendingT02Authority := .default
    operator := args.operator
    t03Authority := args.t03Authority
    t02Authority := args.t02Authority
    protocolRevenue := args.protocolRevenue
    usdcMint := args.usdcMint
    byeMint := args.byeMint
    vrfProgram := args.vrfProgram
    oracleQueue := args.oracleQueue
    swapPool := args.swapPool
    maxSwapSlippageBps := args.maxSwapSlippageBps
    poolCounter := 0
    bump := X.bumpOf .protocolConfig }
  pure ({ c with protocolConfig := some config },
    [.protocolInitialized clock.slot config.administrator args.operator args.t02Authority
      args.t03Authority args.protocolRevenue args.usdcMint args.byeMint args.vrfProgram
      args.oracleQueue args.swapPool args.maxSwapSlippageBps])

-- ---------------------------------------------------------------------------
-- init_pool
-- ---------------------------------------------------------------------------

structure PoolConfigArgs where
  treasury03 : Pubkey
  price : ℕ
  ticketTarget : ℕ
  fee : ℕ
  allocEqualBps : ℕ
  allocTierBps : ℕ
  allocProtocolBps : ℕ
  admissionFloor : ℕ
  admissionCeiling : ℕ
  walletValueCap : ℕ
  maxN : ℕ
  buybackRateBps : ℕ
  blankFaces : Denomination → ℕ
  t04Ceiling : ℕ
  sweepCadenceHours : ℕ
  tierSize : ℕ

/-- The ceiling and the wallet cap are not bounded: zero encodes "no limit". -/
def validateConfig (args : PoolConfigArgs) : Result Unit := do
  require (args.allocEqualBps + args.allocTierBps + args.allocProtocolBps = 10000)
    (.program .allocationBpsNotFullyAllocated)
  require (Checked.sub args.price args.ticketTarget = some args.fee)
    (.program .feeNotPriceMinusTicket)
  require (args.ticketTarget < args.admissionFloor) (.program .admissionFloorNotAboveTicket)
  validateFaces args.blankFaces args.ticketTarget
  require (1 ≤ args.maxN ∧ args.maxN ≤ MAX_BATCH_CAPACITY) (.program .maxNOutOfBounds)
  require (1 ≤ args.tierSize ∧ args.tierSize ≤ MAX_TIER_SIZE) (.program .tierSizeOutOfBounds)

def WEIGHT_INDEX_SPACE : ℕ := 32 + 8 + 4 + 4 + 8 + 8 * FENWICK_CAPACITY + 4 * FENWICK_CAPACITY

def ZERO_CHUNK_LEN : ℕ := 4096

/-- `for chunk in payload.chunks(ZERO_CHUNK.len())`: each compares equal to as many zeros. -/
def assertChunksZero : ℕ → List ℕ → Result Unit
  | _, [] => .ok ()
  | 0, _ :: _ => .error .diverged
  | fuel + 1, payload => do
    let chunk := payload.take ZERO_CHUNK_LEN
    require (chunk = List.replicate chunk.length 0) (.program .weightIndexNotBlank)
    assertChunksZero fuel (payload.drop ZERO_CHUNK_LEN)

/-- Rejects a weight-index account that is not blank at the exact layout size. -/
def assertWeightIndexBlank (data : List ℕ) : Result Unit := do
  require (data.length = 8 + WEIGHT_INDEX_SPACE) (.program .weightIndexNotBlank)
  assertChunksZero data.length (data.drop 8)

def blankEntry : TierEntry := ⟨.default, 0, 0, 0⟩

def genesisPool (poolId : ℕ) (weightIndex : Pubkey) (args : PoolConfigArgs) (bump : ℕ) : Pool where
  poolId
  weightIndex
  treasury03 := args.treasury03
  price := args.price
  ticketTarget := args.ticketTarget
  fee := args.fee
  allocEqualBps := args.allocEqualBps
  allocTierBps := args.allocTierBps
  allocProtocolBps := args.allocProtocolBps
  admissionFloor := args.admissionFloor
  admissionCeiling := args.admissionCeiling
  walletValueCap := args.walletValueCap
  maxN := args.maxN
  buybackRateBps := args.buybackRateBps
  blankFaces := args.blankFaces
  t04Ceiling := args.t04Ceiling
  sweepCadenceHours := args.sweepCadenceHours
  tierSize := args.tierSize
  depositsPaused := false
  rollsPaused := false
  pauseReason := 0
  nReal := 0
  blanks := fun _ => 0
  wReal := 0
  openBatches := 0
  batchCounter := 0
  positionCounter := 0
  pendingRollLiability := 0
  owedFees := 0
  accEqual := 0
  sweepPending := false
  sweepEpoch := 0
  lastSweepAt := 0
  sweepUpdates := 0
  bump

def genesisTier (pool : Pubkey) (bump : ℕ) : TopTier where
  pool
  len := 0
  entries := fun _ => blankEntry
  accTier := 0
  bump

/-- `weightIndex` is an account of this program with a zero discriminator (`#[account(zero)]`). -/
def initPool (X : Programs) (clock : Clock) (c : Chain) (administrator weightIndex : Pubkey)
    (args : PoolConfigArgs) : Outcome := do
  let config ← loadForAdministrator c administrator
  let poolId := config.poolCounter
  let poolKey := Pubkey.pool poolId
  require (c.pools.lookup poolKey = none) (.anchor .accountAlreadyInUse)
  require (c.weightIndexes.lookup weightIndex = none ∧
    (c.externals weightIndex).owner = .program .byeMachine ∧
    (c.externals weightIndex).data.take 8 = List.replicate 8 0) (.anchor .constraintZero)
  require (c.topTiers.lookup (.topTier poolKey) = none) (.anchor .accountAlreadyInUse)
  c.loadMint X config.usdcMint
  let tokens ← initToken c.tokens (.principalVault poolKey) config.usdcMint poolKey
  let tokens ← initToken tokens (.treasury04 poolKey) config.usdcMint poolKey
  validateConfig args
  assertWeightIndexBlank (c.externals weightIndex).data
  let pool := genesisPool poolId weightIndex args (X.bumpOf poolKey)
  let poolCounter ← okOr (Checked.add 16 poolId 1) .arithmeticOverflow
  pure ({ c with
    protocolConfig := some { config with poolCounter }
    pools := c.pools.insert poolKey pool
    weightIndexes := c.weightIndexes.insert weightIndex (.blank poolKey)
    topTiers := c.topTiers.insert (.topTier poolKey)
      (genesisTier poolKey (X.bumpOf (.topTier poolKey)))
    tokens },
    [.poolInitialized poolKey clock.slot administrator poolId weightIndex args.treasury03
      args.price args.ticketTarget args.fee args.allocEqualBps args.allocTierBps
      args.allocProtocolBps args.admissionFloor args.admissionCeiling args.walletValueCap
      args.maxN args.buybackRateBps args.blankFaces args.t04Ceiling args.sweepCadenceHours
      args.tierSize])

-- ---------------------------------------------------------------------------
-- Collections
-- ---------------------------------------------------------------------------

def checkUpdate (oldStandards standards : ℕ) (reason : Option ℕ) : Result Unit := do
  require (maskIsValid standards) (.program .standardsMaskInvalid)
  require (standards ≠ oldStandards) (.program .standardsUpdateNoOp)
  let narrowing := clearsABit oldStandards standards
  require (narrowing = reason.isSome)
    (.program (if narrowing then .narrowingReasonRequired else .reasonNotApplicable))

/-- A record `init_if_needed` just created still has the default pool key. -/
def admitCollection (X : Programs) (clock : Clock) (c : Chain) (administrator poolKey : Pubkey)
    (collection : Pubkey) (standards : ℕ) (reason : Option ℕ) : Outcome := do
  let _ ← loadForAdministrator c administrator
  let _ ← c.loadPool poolKey
  let key := Pubkey.poolCollection poolKey collection
  let record := (c.poolCollections.lookup key).getD ⟨.default, .default, 0, 0, 0⟩
  let isNew := record.pool = .default
  let oldStandards := if isNew then 0 else record.standards
  checkUpdate oldStandards standards reason
  let bump := X.bumpOf key
  let record :=
    if isNew then
      { record with pool := poolKey, collection, admittedAt := clock.unixTimestamp, bump }
    else record
  pure ({ c with poolCollections := c.poolCollections.insert key { record with standards } },
    [.collectionAdmitted poolKey clock.slot collection standards oldStandards reason
      administrator])

def withdrawCollection (clock : Clock) (c : Chain) (administrator poolKey collection : Pubkey)
    (reason : ℕ) : Outcome := do
  let _ ← loadForAdministrator c administrator
  let _ ← c.loadPool poolKey
  let key := Pubkey.poolCollection poolKey collection
  let record ← okOr (c.poolCollections.lookup key) (.anchor .accountNotInitialized)
  pure ({ c with poolCollections := c.poolCollections.erase key },
    [.collectionWithdrawn poolKey clock.slot collection record.standards reason administrator])

-- ---------------------------------------------------------------------------
-- Pause, VRF configuration, authorities
-- ---------------------------------------------------------------------------

def setPause (clock : Clock) (c : Chain) (administrator poolKey : Pubkey) (deposits rolls : Bool)
    (reason : ℕ) : Outcome := do
  let _ ← loadForAdministrator c administrator
  let pool ← c.loadPool poolKey
  let pool := { pool with depositsPaused := deposits, rollsPaused := rolls, pauseReason := reason }
  pure ({ c with pools := c.pools.insert poolKey pool },
    [.pauseSet poolKey clock.slot administrator deposits rolls reason])

def updateVrfConfig (clock : Clock) (c : Chain) (administrator vrfProgram oracleQueue
    swapPool : Pubkey) : Outcome := do
  let config ← loadForAdministrator c administrator
  pure ({ c with protocolConfig := some { config with vrfProgram, oracleQueue, swapPool } },
    [.vrfConfigChanged clock.slot administrator config.vrfProgram config.oracleQueue
      config.swapPool vrfProgram oracleQueue swapPool])

def currentAuthority (config : ProtocolConfig) : AuthorityRole → Pubkey
  | .administrator => config.administrator
  | .operator => config.operator
  | .t03 => config.t03Authority
  | .t02 => config.t02Authority

/-- `*live_slot(config, role) = key`. -/
def setLive (config : ProtocolConfig) (key : Pubkey) : AuthorityRole → ProtocolConfig
  | .administrator => { config with administrator := key }
  | .operator => { config with operator := key }
  | .t03 => { config with t03Authority := key }
  | .t02 => { config with t02Authority := key }

/-- `*pending_slot(config, role)`. -/
def pendingAuthority (config : ProtocolConfig) : AuthorityRole → Pubkey
  | .administrator => config.pendingAdministrator
  | .operator => config.pendingOperator
  | .t03 => config.pendingT03Authority
  | .t02 => config.pendingT02Authority

/-- `*pending_slot(config, role) = key`. -/
def setPending (config : ProtocolConfig) (key : Pubkey) : AuthorityRole → ProtocolConfig
  | .administrator => { config with pendingAdministrator := key }
  | .operator => { config with pendingOperator := key }
  | .t03 => { config with pendingT03Authority := key }
  | .t02 => { config with pendingT02Authority := key }

def setAuthorities (clock : Clock) (c : Chain) (signer : Pubkey) (role : AuthorityRole)
    (newAuthority : Option Pubkey) : Outcome := do
  requireSigner signer
  let config ← c.loadConfig
  let old := currentAuthority config role
  match newAuthority with
  | some proposed => do
    require (signer = config.administrator) (.program .unauthorized)
    pure ({ c with protocolConfig := some (setPending config proposed role) },
      [.authorityRotated clock.slot signer role old proposed .proposed])
  | none => do
    let pending := pendingAuthority config role
    require (pending ≠ .default) (.program .unauthorized)
    require (signer = pending) (.program .unauthorized)
    pure ({ c with protocolConfig := some (setPending (setLive config signer role) .default role) },
      [.authorityRotated clock.slot signer role old signer .accepted])

end ByeMachine
