import ByeMachine.Common.ExitAccounting
import ByeMachine.Instructions.Deposit
import ByeMachine.Instructions.Value

/-!
# Exits

`instructions/exit`: a depositor's withdrawal of an active card, the claim of a
closed one, and the cleanup of a position whose card a third party has taken.
-/

namespace ByeMachine

open Fallible

variable (X : Programs)

-- ---------------------------------------------------------------------------
-- withdraw and withdraw_core
-- ---------------------------------------------------------------------------

/-- `principal_vault` and the optional `depositor_usdc`, with the latter's two constraints. -/
def checkDepositorUsdc (c : Chain) (poolKey depositor : Pubkey) (depositorUsdc : Option Pubkey) :
    Result Unit := do
  let vault ← loadToken c.tokens (.principalVault poolKey)
  match depositorUsdc with
  | none => pure ()
  | some key => do
    let account ← loadToken c.tokens key
    require (account.mint = vault.mint) (.program .standardNotAdmitted)
    require (account.owner = depositor) (.program .notPositionOwner)

/-- `if effect.fees_paid > 0`: the payout out of the principal vault, signed for by the pool. -/
def payFees (tokens : Tokens) (poolKey : Pubkey) (depositorUsdc : Option Pubkey) (feesPaid : ℕ) :
    Result Tokens :=
  if 0 < feesPaid then do
    let destination ← okOr depositorUsdc (.anchor .accountNotEnoughKeys)
    splTransfer tokens (.principalVault poolKey) destination poolKey feesPaid
  else pure tokens

/-- The tier branch of a withdrawal: only a member vacates, and only then is a successor read. -/
def withdrawTier (wasMember : Bool) (topTier : TopTier) (tierSize : ℕ)
    (poolKey positionKey : Pubkey) (position : Position) (remaining : List AccountMeta)
    (positions : Positions) : Result (TopTier × Position × Positions × TierChange) :=
  if wasMember then
    vacateAndFill topTier tierSize poolKey positionKey position remaining positions
  else pure (topTier, position, positions, none)

/-- What the two handlers share: the accounting, the removal, the tier branch and the payout. The
position's account closes when the handler returns. -/
def withdrawAccounting (clock : Clock) (c : Chain) (poolKey positionKey : Pubkey)
    (depositorUsdc : Option Pubkey) (remaining : List AccountMeta) (a : Loaded) : Outcome := do
  let booked ← applyWithdraw a.pool a.position a.walletStats a.topTier.accTier clock.unixTimestamp
  let effect := booked.effect
  let weightIndex ←
    a.weightIndex.remove effect.slotIndex effect.recordedValue effect.expectedTotal
  let (topTier, _, positions, tierChange) ← withdrawTier effect.wasMember a.topTier
    a.pool.tierSize poolKey positionKey booked.position remaining c.positions
  let tokens ← payFees c.tokens poolKey depositorUsdc effect.feesPaid
  pure ({ c with
    pools := c.pools.insert poolKey booked.pool
    positions := positions.erase positionKey
    weightIndexes := c.weightIndexes.insert a.pool.weightIndex weightIndex
    topTiers := c.topTiers.insert (.topTier poolKey) topTier
    walletStats := c.walletStats.insert (.walletStats poolKey a.position.depositor)
      booked.walletStats
    tokens },
    [.withdrawn poolKey clock.slot positionKey a.position.depositor effect.feesPaid,
      .rebalanceEvaluated poolKey clock.slot booked.pool.nReal booked.pool.wReal
        effect.blanksBefore booked.pool.blanks] ++ tierEvents poolKey clock.slot tierChange)

def withdraw (clock : Clock) (c : Chain) (depositor poolKey positionKey : Pubkey)
    (depositorUsdc : Option Pubkey) (remaining : List AccountMeta) (release : ReleaseAccounts) :
    Outcome := do
  requireSigner depositor
  let a ← loadThroughPool c poolKey positionKey
  require (a.position.depositor = depositor) (.program .notPositionOwner)
  requireTokenMetadataExit X c a.position positionKey
  checkDepositorUsdc c poolKey depositor depositorUsdc
  let (c, events) ← withdrawAccounting clock c poolKey positionKey depositorUsdc remaining a
  let (tokens, externals) ←
    releaseAndClose X a.position positionKey depositor release c.tokens c.externals
  pure ({ c with tokens, externals }, events)

/-- The collateral gate runs before the accounting. -/
def withdrawCore (clock : Clock) (c : Chain) (depositor poolKey positionKey : Pubkey)
    (depositorUsdc : Option Pubkey) (collection : Pubkey) (remaining : List AccountMeta) :
    Outcome := do
  requireSigner depositor
  let a ← loadThroughPool c poolKey positionKey
  require (a.position.depositor = depositor) (.program .notPositionOwner)
  require (a.position.standard = STANDARD_CORE) (.program .wrongStandardForInstruction)
  checkDepositorUsdc c poolKey depositor depositorUsdc
  let vaultKey := Pubkey.positionVault positionKey
  let named ← requireCollateralSettleable X c.externals a.position.nftMint collection vaultKey
  let (c, events) ← withdrawAccounting clock c poolKey positionKey depositorUsdc remaining a
  let externals ← releaseCoreFromVault X c.externals a.position.nftMint named depositor vaultKey
    depositor
  pure ({ c with externals }, events)

-- ---------------------------------------------------------------------------
-- claim_nft and claim_nft_core
-- ---------------------------------------------------------------------------

def claimNft (clock : Clock) (c : Chain) (depositor positionKey : Pubkey) (a : ReleaseAccounts) :
    Outcome := do
  requireSigner depositor
  let position ← c.loadOwnPosition positionKey
  require (position.depositor = depositor) (.program .notPositionOwner)
  requireTokenMetadataExit X c position positionKey
  require (position.state = .closedBelowFloor) (.program .invalidPositionState)
  let (tokens, externals) ←
    releaseAndClose X position positionKey depositor a c.tokens c.externals
  pure ({ c with positions := c.positions.erase positionKey, tokens, externals },
    [.nftClaimed position.pool clock.slot positionKey depositor position.nftMint])

/-- The one exit that must survive a seizure. -/
def claimNftCore (clock : Clock) (c : Chain) (depositor positionKey collection : Pubkey) :
    Outcome := do
  requireSigner depositor
  let position ← c.loadOwnPosition positionKey
  require (position.depositor = depositor) (.program .notPositionOwner)
  require (position.standard = STANDARD_CORE) (.program .wrongStandardForInstruction)
  require (position.state = .closedBelowFloor ∨ position.state = .seized)
    (.program .invalidPositionState)
  let vaultKey := Pubkey.positionVault positionKey
  let named ← requireCollateralSettleable X c.externals position.nftMint collection vaultKey
  let externals ← releaseCoreFromVault X c.externals position.nftMint named depositor vaultKey
    depositor
  pure ({ c with positions := c.positions.erase positionKey, externals },
    [.nftClaimed position.pool clock.slot positionKey depositor position.nftMint])

-- ---------------------------------------------------------------------------
-- close_seized
-- ---------------------------------------------------------------------------

/-- What the removal from the index must be driven with. -/
structure WeightDeparture where
  slotIndex : ℕ
  recordedValue : ℕ
  expectedTotal : ℕ
  blanksBefore : Denomination → ℕ
  wasMember : Bool

structure SeizeEffect where
  sourceState : PositionState
  recordedValue : ℕ
  departure : Option WeightDeparture

/-- The active row's accounting: the equal leg settles onto the position, and `owed_fees` keeps
carrying it. The tier leg is left to `vacate`. -/
def departWeight (pool : Pool) (position : Position) (walletStats : WalletStats) :
    Result (Booked WeightDeparture) := do
  let recordedValue := position.recordedValue
  let slotIndex := position.slotIndex
  let wasMember := position.inTier
  let accrued ← positionFeePayout pool.accEqual position.equalCheckpoint position.accrued
  let leaf ← weightOf recordedValue
  let wReal ← orArithmeticFailure (Checked.sub pool.wReal leaf)
  let nReal ← orArithmeticFailure (Checked.sub pool.nReal 1)
  let activePositions ← orArithmeticFailure (Checked.sub walletStats.activePositions 1)
  let activeValue ← orArithmeticFailure (Checked.sub walletStats.activeValue recordedValue)
  let targets ← Rebalance.evaluate nReal wReal pool.blankFaces pool.ticketTarget
  let expectedTotal ← WeightIndex.narrowExpectedTotal wReal
  pure {
    pool := { pool with wReal, nReal, blanks := targets.toBlanks }
    position := { position with accrued, equalCheckpoint := pool.accEqual }
    walletStats := { walletStats with activePositions, activeValue }
    effect := { slotIndex, recordedValue, expectedTotal, blanksBefore := pool.blanks, wasMember } }

/-- The lock, on every cause a depositor could arrange while still ending up with the card. -/
def requireSeizable (position : Position) (kind : SeizureKind) (now : ℤ) : Result Unit :=
  if kind.depositorMayKeepTheCard then
    require (position.lockUntil ≤ now) (.program .positionLocked)
  else pure ()

/-- The branch on the source state: the active row alone holds weight. -/
def seizeRow (pool : Pool) (position : Position) (walletStats : WalletStats) (kind : SeizureKind)
    (now : ℤ) : Result (Booked (Option WeightDeparture)) :=
  match position.state with
  | .active => do
    requireSeizable position kind now
    assertWeightOpen pool
    let departed ← departWeight pool position walletStats
    pure { departed with effect := some departed.effect }
  | .pending | .rejected | .closedBelowFloor => pure ⟨pool, position, walletStats, none⟩
  | .seized => throw (.program .invalidPositionState)

/-- The branch on the source state, and the one write every source state shares. -/
def applyCloseSeized (pool : Pool) (position : Position) (walletStats : WalletStats)
    (kind : SeizureKind) (now : ℤ) : Result (Booked SeizeEffect) := do
  let sourceState := position.state
  let recordedValue := position.recordedValue
  let row ← seizeRow pool position walletStats kind now
  pure {
    pool := row.pool
    position := { row.position with state := .seized }
    walletStats := row.walletStats
    effect := { sourceState, recordedValue, departure := row.effect } }

/-- `constraint = matches!(position.state, Pending | Active | ClosedBelowFloor | Rejected)`. -/
def cardInVault : PositionState → Bool
  | .pending | .active | .closedBelowFloor | .rejected => true
  | .seized => false

/-- The departure only: the vacancy stays open. -/
def vacateDeparted (wasMember : Bool) (topTier : TopTier) (positionKey : Pubkey)
    (position : Position) : Result (TopTier × Position × TierChange) :=
  if wasMember then do
    let (topTier, position, _) ← Tier.vacate topTier positionKey position topTier.accTier
    pure (topTier, position, some (some positionKey, none))
  else pure (topTier, position, none)

/-- The index and tier half, driven by the departure alone. -/
def removeDeparted (weightIndex : WeightIndex) (topTier : TopTier) (positionKey : Pubkey)
    (position : Position) : Option WeightDeparture →
    Result (WeightIndex × TopTier × Position × TierChange)
  | none => pure (weightIndex, topTier, position, none)
  | some departure => do
    let weightIndex ←
      weightIndex.remove departure.slotIndex departure.recordedValue departure.expectedTotal
    let (topTier, position, tierChange) ←
      vacateDeparted departure.wasMember topTier positionKey position
    pure (weightIndex, topTier, position, tierChange)

/-- Permissionless: the collateral reading is the authorisation. -/
def closeSeized (clock : Clock) (c : Chain) (caller poolKey positionKey collection : Pubkey) :
    Outcome := do
  requireSigner caller
  let a ← loadThroughPool c poolKey positionKey
  require (a.position.standard = STANDARD_CORE) (.program .wrongStandardForInstruction)
  require (cardInVault a.position.state) (.program .invalidPositionState)
  let (kind, ownerObserved) ← requireCollateralUnreachable X c.externals a.position.nftMint
    collection (.positionVault positionKey)
  let booked ← applyCloseSeized a.pool a.position a.walletStats kind clock.unixTimestamp
  let effect := booked.effect
  let (weightIndex, topTier, position, tierChange) ←
    removeDeparted a.weightIndex a.topTier positionKey booked.position effect.departure
  let rebalanced :=
    match effect.departure with
    | some departure =>
      [Event.rebalanceEvaluated poolKey clock.slot booked.pool.nReal booked.pool.wReal
        departure.blanksBefore booked.pool.blanks]
    | none => []
  pure ({ c with
    pools := c.pools.insert poolKey booked.pool
    positions := c.positions.insert positionKey position
    weightIndexes := c.weightIndexes.insert a.pool.weightIndex weightIndex
    topTiers := c.topTiers.insert (.topTier poolKey) topTier
    walletStats := c.walletStats.insert (.walletStats poolKey a.position.depositor)
      booked.walletStats },
    [.positionSeized poolKey clock.slot positionKey kind ownerObserved effect.sourceState
      effect.recordedValue] ++ rebalanced ++ tierEvents poolKey clock.slot tierChange)

end ByeMachine
