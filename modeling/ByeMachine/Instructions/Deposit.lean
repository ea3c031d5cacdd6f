import ByeMachine.Chain
import ByeMachine.Common.Rebalance

/-!
# Deposits

`instructions/deposit`: a card enters escrow as a pending position, and the
operator activates it on an attested value or rejects it; a rejected card goes
back to its depositor.
-/

namespace ByeMachine

open Fallible

variable (X : Programs)

-- ---------------------------------------------------------------------------
-- deposit and deposit_core
-- ---------------------------------------------------------------------------

structure DepositAccounts where
  depositor : Pubkey
  pool : Pubkey
  poolCollection : Pubkey
  nftMint : Pubkey
  depositorToken : Pubkey
  metadata : Pubkey
  masterEdition : Pubkey
  pnft : PnftRelease
  deriving DecidableEq, Repr

def pendingPosition (pool depositor nftMint : Pubkey) (positionId standard bump vaultBump : ℕ) :
    Position where
  pool
  depositor
  nftMint
  positionId
  state := .pending
  recordedValue := 0
  valueObservedAt := 0
  depositValue := 0
  slotIndex := 0
  activatedAt := 0
  equalCheckpoint := 0
  accrued := 0
  inTier := false
  tierCheckpoint := 0
  lockUntil := 0
  rejectReason := 0
  standard
  bump
  vaultBump

/-- What both intakes write once the card is in escrow. -/
def recordDeposit (clock : Clock) (c : Chain) (poolKey depositor nftMint : Pubkey) (pool : Pool)
    (standard : ℕ) (tokens : Tokens) (externals : Externals) : Outcome := do
  let positionKey := Pubkey.position poolKey nftMint
  let statsKey := Pubkey.walletStats poolKey depositor
  let positionId := pool.positionCounter
  let positionCounter ← okOr (Checked.add 64 positionId 1) .arithmeticOverflow
  let position := pendingPosition poolKey depositor nftMint positionId standard
    (X.bumpOf positionKey) (X.bumpOf (.positionVault positionKey))
  let stats := (c.walletStats.lookup statsKey).getD ⟨.default, .default, 0, 0, 0⟩
  let stats := { stats with pool := poolKey, owner := depositor, bump := X.bumpOf statsKey }
  pure ({ c with
    pools := c.pools.insert poolKey { pool with positionCounter }
    positions := c.positions.insert positionKey position
    walletStats := c.walletStats.insert statsKey stats
    tokens
    externals }, [.depositPending poolKey clock.slot positionKey depositor nftMint])

/-- The card moves into the position's vault by the route its standard names. -/
def takeCustody (standard : ℕ) (a : DepositAccounts) (tokens : Tokens) (externals : Externals) :
    Result (Tokens × Externals) :=
  let positionKey := Pubkey.position a.pool a.nftMint
  let vaultKey := Pubkey.positionVault positionKey
  if standard = STANDARD_PNFT then do
    let tokenRecord ← okOr a.pnft.depositorTokenRecord (.anchor .accountNotEnoughKeys)
    let destinationTokenRecord ← okOr a.pnft.positionTokenRecord (.anchor .accountNotEnoughKeys)
    let _ ← okOr a.pnft.sysvarInstructions (.anchor .accountNotEnoughKeys)
    transferPnft X {
      token := a.depositorToken, tokenOwner := a.depositor, destinationToken := vaultKey
      destinationOwner := positionKey, mint := a.nftMint, metadata := a.metadata
      edition := a.masterEdition, tokenRecord, destinationTokenRecord
      authority := a.depositor, payer := a.depositor
      authorizationRulesProgram := a.pnft.authorizationRulesProgram
      authorizationRules := a.pnft.authorizationRules } tokens externals
  else if standard = STANDARD_LEGACY then do
    require a.pnft.allAbsent (.anchor .constraintRaw)
    let tokens ← splTransfer tokens a.depositorToken vaultKey a.depositor 1
    pure (tokens, externals)
  else throw (.program .wrongStandardForInstruction)

def deposit (clock : Clock) (c : Chain) (a : DepositAccounts) : Outcome := do
  requireSigner a.depositor
  let pool ← c.loadPool a.pool
  let record ← okOr (c.poolCollections.lookup a.poolCollection) (.anchor .accountNotInitialized)
  let positionKey := Pubkey.position a.pool a.nftMint
  let vaultKey := Pubkey.positionVault positionKey
  require (c.positions.lookup positionKey = none) (.anchor .accountAlreadyInUse)
  let tokens ← initToken c.tokens vaultKey a.nftMint positionKey
  c.loadMint X a.nftMint
  let depositorToken ← loadToken tokens a.depositorToken
  require (depositorToken.mint = a.nftMint) (.program .standardNotAdmitted)
  require (depositorToken.owner = a.depositor) (.program .notPositionOwner)
  require (pool.depositsPaused = false) (.program .depositsPaused)
  let standard ← validateAdmission X c.externals a.nftMint a.metadata a.masterEdition a.pool
    a.poolCollection record
  let (tokens, externals) ← takeCustody X standard a tokens c.externals
  recordDeposit X clock c a.pool a.depositor a.nftMint pool standard tokens externals

structure DepositCoreAccounts where
  depositor : Pubkey
  pool : Pubkey
  poolCollection : Pubkey
  asset : Pubkey
  collection : Pubkey
  deriving DecidableEq, Repr

def depositCore (clock : Clock) (c : Chain) (a : DepositCoreAccounts) : Outcome := do
  requireSigner a.depositor
  let pool ← c.loadPool a.pool
  let record ← okOr (c.poolCollections.lookup a.poolCollection) (.anchor .accountNotInitialized)
  let positionKey := Pubkey.position a.pool a.asset
  require (c.positions.lookup positionKey = none) (.anchor .accountAlreadyInUse)
  require (pool.depositsPaused = false) (.program .depositsPaused)
  let asset ← readCoreAsset X (c.externals a.asset)
  require (asset.owner = a.depositor) (.program .notPositionOwner)
  let collection ← declaredCoreCollection asset
  requireAdmits a.pool collection a.poolCollection record STANDARD_CORE
  require (a.collection = collection) (.program .collectionNotAdmitted)
  let externals ← invoke (X.transferCore
    ⟨a.asset, some a.collection, .positionVault positionKey, a.depositor, a.depositor⟩ c.externals)
  recordDeposit X clock c a.pool a.depositor a.asset pool STANDARD_CORE c.tokens externals

-- ---------------------------------------------------------------------------
-- approve_deposit
-- ---------------------------------------------------------------------------

/-- The admission limits: each is inclusive, and zero encodes "not configured". -/
def validateAdmissionLimits (pool : Pool) (value walletActiveValue : ℕ) : Result Unit := do
  require (0 < value) (.program .zeroValue)
  require (pool.admissionFloor ≤ value) (.program .belowAdmissionFloor)
  if 0 < pool.admissionCeiling then
    require (value ≤ pool.admissionCeiling) (.program .aboveAdmissionCeiling)
  if 0 < pool.walletValueCap then
    let walletTotal ← orArithmeticFailure (Checked.add 64 walletActiveValue value)
    require (walletTotal ≤ pool.walletValueCap) (.program .walletValueCapExceeded)

/-- `checked_sub` of two `i64`s. -/
def checkedSubI64 (a b : ℤ) : Option ℤ :=
  if -2 ^ 63 ≤ a - b ∧ a - b < 2 ^ 63 then some (a - b) else none

/-- The promotion at activation: whether the candidate entered, and whom it displaced. -/
def promoteActivated (topTier : TopTier) (tierSize : ℕ) (candidate : TierEntry)
    (remaining : List AccountMeta) (positions : Positions) :
    Result (TopTier × Positions × Bool × Option Pubkey) := do
  let accTier := topTier.accTier
  let (topTier, promoted) ← Tier.promote topTier tierSize candidate
  match promoted with
  | .inserted => pure (topTier, positions, true, none)
  | .swapped evicted => do
    let positions ← Tier.settleDisplacedMember remaining positions evicted accTier
    pure (topTier, positions, true, some evicted.position)
  | .rejected => pure (topTier, positions, false, none)

def approveDeposit (clock : Clock) (c : Chain) (operator poolKey positionKey : Pubkey)
    (remaining : List AccountMeta) (value : ℕ) (observedAt lockUntil : ℤ) : Outcome := do
  let _ ← loadForOperator c operator
  let a ← loadThroughPool c poolKey positionKey
  require (a.position.state = .pending) (.program .positionNotPending)
  assertNotTreasuryPosition poolKey a.position.depositor
  assertWeightOpen a.pool
  validateAdmissionLimits a.pool value a.walletStats.activeValue
  let now := clock.unixTimestamp
  let leaf ← weightOf value
  let wReal ← orArithmeticFailure (Checked.add 128 a.pool.wReal leaf)
  let nReal ← orArithmeticFailure (Checked.add 32 a.pool.nReal 1)
  let expectedTotal ← WeightIndex.narrowExpectedTotal wReal
  let (slotIndex, weightIndex) ← a.weightIndex.insert value expectedTotal
  let position := { a.position with
    state := .active, recordedValue := value, valueObservedAt := observedAt
    depositValue := value, slotIndex, activatedAt := now, equalCheckpoint := a.pool.accEqual
    lockUntil }
  let activePositions ← orArithmeticFailure (Checked.add 32 a.walletStats.activePositions 1)
  let activeValue ← orArithmeticFailure (Checked.add 64 a.walletStats.activeValue value)
  let accTier := a.topTier.accTier
  let (topTier, positions, enteredTier, displaced) ← promoteActivated a.topTier a.pool.tierSize
    ⟨positionKey, value, now, position.positionId⟩ remaining c.positions
  let position :=
    if enteredTier then { position with inTier := true, tierCheckpoint := accTier } else position
  let targets ← Rebalance.evaluate nReal wReal a.pool.blankFaces a.pool.ticketTarget
  let observedAge ← orArithmeticFailure (checkedSubI64 now observedAt)
  let tierEvents :=
    if enteredTier then [Event.tierChanged poolKey clock.slot displaced (some positionKey)] else []
  pure ({ c with
    pools := c.pools.insert poolKey { a.pool with wReal, nReal, blanks := targets.toBlanks }
    positions := positions.insert positionKey position
    weightIndexes := c.weightIndexes.insert a.pool.weightIndex weightIndex
    topTiers := c.topTiers.insert (.topTier poolKey) topTier
    walletStats := c.walletStats.insert (.walletStats poolKey a.position.depositor)
      { a.walletStats with activePositions, activeValue } },
    [.depositApproved poolKey clock.slot operator positionKey value observedAt observedAge,
      .rebalanceEvaluated poolKey clock.slot nReal wReal a.pool.blanks targets.toBlanks] ++
      tierEvents)

-- ---------------------------------------------------------------------------
-- reject_deposit and the two returns
-- ---------------------------------------------------------------------------

def rejectDeposit (clock : Clock) (c : Chain) (operator positionKey : Pubkey) (reason : ℕ) :
    Outcome := do
  let _ ← loadForOperator c operator
  let position ← c.loadOwnPosition positionKey
  require (position.state = .pending) (.program .positionNotPending)
  assertNotTreasuryPosition position.pool position.depositor
  pure ({ c with positions := c.positions.insert positionKey
                    { position with state := .rejected, rejectReason := reason } },
    [.depositRejected position.pool clock.slot operator positionKey reason])

/-- The accounts of a Token Metadata exit the caller chooses. -/
structure ReleaseAccounts where
  depositorToken : Pubkey
  metadata : Pubkey
  masterEdition : Pubkey
  pnft : PnftRelease
  deriving DecidableEq, Repr

/-- The custody leg the Token Metadata exits share: the card to the depositor, the emptied vault
closed. -/
def releaseAndClose (position : Position) (positionKey payer : Pubkey) (a : ReleaseAccounts)
    (tokens : Tokens) (externals : Externals) : Result (Tokens × Externals) := do
  let vaultKey := Pubkey.positionVault positionKey
  let (tokens, externals) ← releaseFromVault X position.standard vaultKey positionKey
    a.depositorToken position.depositor position.nftMint a.metadata a.masterEdition payer a.pnft
    tokens externals
  let tokens ← closeToken tokens vaultKey positionKey
  pure (tokens, externals)

/-- The position, its vault and its mint, as every Token Metadata exit's accounts struct checks
them. -/
def requireTokenMetadataExit (c : Chain) (position : Position) (positionKey : Pubkey) :
    Result Unit := do
  require (position.standard = STANDARD_PNFT ∨ position.standard = STANDARD_LEGACY)
    (.program .wrongStandardForInstruction)
  let _ ← loadToken c.tokens (.positionVault positionKey)
  c.loadMint X position.nftMint

def returnRejected (clock : Clock) (c : Chain) (payer positionKey : Pubkey) (a : ReleaseAccounts) :
    Outcome := do
  requireSigner payer
  let position ← c.loadOwnPosition positionKey
  requireTokenMetadataExit X c position positionKey
  require (position.state = .rejected) (.program .invalidPositionState)
  let (tokens, externals) ← releaseAndClose X position positionKey payer a c.tokens c.externals
  pure ({ c with positions := c.positions.erase positionKey, tokens, externals },
    [.nftReturned position.pool clock.slot positionKey position.depositor position.nftMint])

/-- The asset is the position's own card; the collection is the caller's. -/
def returnRejectedCore (clock : Clock) (c : Chain) (payer positionKey collection : Pubkey) :
    Outcome := do
  requireSigner payer
  let position ← c.loadOwnPosition positionKey
  require (position.standard = STANDARD_CORE) (.program .wrongStandardForInstruction)
  require (position.state = .rejected) (.program .invalidPositionState)
  let vaultKey := Pubkey.positionVault positionKey
  let named ← requireCollateralSettleable X c.externals position.nftMint collection vaultKey
  let externals ← releaseCoreFromVault X c.externals position.nftMint named position.depositor
    vaultKey payer
  pure ({ c with positions := c.positions.erase positionKey, externals },
    [.nftReturned position.pool clock.slot positionKey position.depositor position.nftMint])

end ByeMachine
