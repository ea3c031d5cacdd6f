import ByeMachine.Chain
import ByeMachine.Common.ExitAccounting

/-!
# Re-attestation

`instructions/value`: the sweep that brackets re-attestations, and the three
dispositions a re-attested value can take.
-/

namespace ByeMachine

open Fallible

-- ---------------------------------------------------------------------------
-- begin_sweep and end_sweep
-- ---------------------------------------------------------------------------

def applyBeginSweep (pool : Pool) : Result (Pool × ℕ) := do
  require (pool.sweepPending = false) (.program .sweepAlreadyOpen)
  pure ({ pool with sweepPending := true, sweepUpdates := 0 }, pool.sweepEpoch)

def beginSweep (clock : Clock) (c : Chain) (operator poolKey : Pubkey) : Outcome := do
  let _ ← loadForOperator c operator
  let pool ← c.loadPool poolKey
  let (pool, sweepEpoch) ← applyBeginSweep pool
  pure ({ c with pools := c.pools.insert poolKey pool },
    [.sweepBegun poolKey clock.slot operator sweepEpoch])

def applyEndSweep (pool : Pool) (now : ℤ) : Result (Pool × ℕ × ℕ) := do
  require pool.sweepPending (.program .sweepNotOpen)
  let sweepEpoch ← orArithmeticFailure (Checked.add 64 pool.sweepEpoch 1)
  pure ({ pool with sweepPending := false, sweepEpoch, lastSweepAt := now },
    pool.sweepEpoch, pool.sweepUpdates)

def endSweep (clock : Clock) (c : Chain) (operator poolKey : Pubkey) : Outcome := do
  let _ ← loadForOperator c operator
  let pool ← c.loadPool poolKey
  let (pool, closingEpoch, positionsUpdated) ← applyEndSweep pool clock.unixTimestamp
  pure ({ c with pools := c.pools.insert poolKey pool },
    [.sweepEnded poolKey clock.slot operator closingEpoch positionsUpdated clock.unixTimestamp])

-- ---------------------------------------------------------------------------
-- record_value
-- ---------------------------------------------------------------------------

inductive RecordOutcome where
  /-- `value >= admission_floor`. -/
  | refresh
  /-- Below the floor but locked: recorded, and still active. -/
  | retained
  /-- Below the floor and unlocked: the position deactivates. -/
  | close
  deriving DecidableEq, Repr

def classify (value admissionFloor : ℕ) (lockUntil now : ℤ) : RecordOutcome :=
  if admissionFloor ≤ value then .refresh
  else if now < lockUntil then .retained
  else .close

/-- The new leaf weight; the close path has none. -/
def weightOrZero : Option ℕ → Result ℕ
  | some value => weightOf value
  | none => pure 0

/-- Moves `w_real` from `oldValue`'s leaf weight to `newValue`'s, or to zero on the close path. -/
def moveWReal (wReal oldValue : ℕ) (newValue : Option ℕ) : Result ℕ := do
  let oldWeight ← weightOf oldValue
  let newWeight ← weightOrZero newValue
  orArithmeticFailure <|
    match Checked.sub newWeight oldWeight with
    | some delta => Checked.add 128 wReal delta
    | none => Checked.sub wReal (oldWeight - newWeight)

def moveActiveValue (activeValue oldValue : ℕ) (newValue : Option ℕ) : Result ℕ :=
  let newValue := newValue.getD 0
  orArithmeticFailure <|
    match Checked.sub newValue oldValue with
    | some delta => Checked.add 64 activeValue delta
    | none => Checked.sub activeValue (oldValue - newValue)

structure RecordEffect where
  outcome : RecordOutcome
  oldValue : ℕ
  slotIndex : ℕ
  expectedTotal : ℕ
  blanksBefore : Denomination → ℕ

/-- The close path's deactivation and fee settle-up: `n_real`, `active_positions` and the position
after it. -/
def deactivate (outcome : RecordOutcome) (pool : Pool) (position : Position)
    (walletStats : WalletStats) : Result (ℕ × ℕ × Position) :=
  if outcome = .close then do
    let nReal ← orArithmeticFailure (Checked.sub pool.nReal 1)
    let activePositions ← orArithmeticFailure (Checked.sub walletStats.activePositions 1)
    let accrued ← positionFeePayout pool.accEqual position.equalCheckpoint position.accrued
    pure (nReal, activePositions,
      { position with state := .closedBelowFloor, accrued, equalCheckpoint := pool.accEqual })
  else pure (pool.nReal, walletStats.activePositions, position)

/-- The guards, the every-path obligations, the close-path deactivation and the fee settle-up. -/
def applyRecordValue (pool : Pool) (position : Position) (walletStats : WalletStats) (value : ℕ)
    (observedAt now : ℤ) : Result (Booked RecordEffect) := do
  require pool.sweepPending (.program .sweepNotOpen)
  assertWeightOpen pool
  require (position.state = .active) (.program .invalidPositionState)
  require (0 < value) (.program .zeroValue)
  let sweepUpdates ← orArithmeticFailure (Checked.add 32 pool.sweepUpdates 1)
  let oldValue := position.recordedValue
  let slotIndex := position.slotIndex
  let outcome := classify value pool.admissionFloor position.lockUntil now
  let refreshedTo := if outcome = .close then none else some value
  let wReal ← moveWReal pool.wReal oldValue refreshedTo
  let activeValue ← moveActiveValue walletStats.activeValue oldValue refreshedTo
  let (nReal, activePositions, position) ← deactivate outcome pool position walletStats
  let targets ← Rebalance.evaluate nReal wReal pool.blankFaces pool.ticketTarget
  let expectedTotal ← WeightIndex.narrowExpectedTotal wReal
  pure {
    pool := { pool with sweepUpdates, wReal, nReal, blanks := targets.toBlanks }
    position := { position with recordedValue := value, valueObservedAt := observedAt }
    walletStats := { walletStats with activePositions, activeValue }
    effect := { outcome, oldValue, slotIndex, expectedTotal, blanksBefore := pool.blanks } }

/-- `TierChanged{left, entered}`, where there is one to publish. -/
abbrev TierChange := Option (Option Pubkey × Option Pubkey)

/-- A departing member leaves the tier, and the caller's candidate may take the vacancy. -/
def vacateAndFill (topTier : TopTier) (tierSize : ℕ) (poolKey positionKey : Pubkey)
    (position : Position) (remaining : List AccountMeta) (positions : Positions) :
    Result (TopTier × Position × Positions × TierChange) := do
  let accTier := topTier.accTier
  let (topTier, position, _) ← Tier.vacate topTier positionKey position accTier
  let (topTier, positions, entered) ←
    Tier.fillVacancyFromCandidate topTier tierSize remaining positions poolKey accTier
  pure (topTier, position, positions, some (some positionKey, entered))

/-- A non-member is offered to the tier; whoever it displaces is settled. -/
def crossAndSettle (topTier : TopTier) (tierSize : ℕ) (positionKey : Pubkey) (position : Position)
    (candidate : TierEntry) (remaining : List AccountMeta) (positions : Positions) :
    Result (TopTier × Position × Positions × TierChange) := do
  let accTier := topTier.accTier
  let (topTier, position, crossed) ←
    Tier.crossIntoTier topTier tierSize position candidate accTier
  match crossed with
  | .inserted => pure (topTier, position, positions, some (none, some positionKey))
  | .swapped evicted => do
    let positions ← Tier.settleDisplacedMember remaining positions evicted accTier
    pure (topTier, position, positions, some (some evicted.position, some positionKey))
  | .rejected => pure (topTier, position, positions, none)

def recordTier (outcome : RecordOutcome) (topTier : TopTier) (tierSize : ℕ)
    (poolKey positionKey : Pubkey) (position : Position) (value : ℕ)
    (remaining : List AccountMeta) (positions : Positions) :
    Result (TopTier × Position × Positions × TierChange) :=
  let entry : TierEntry := ⟨positionKey, value, position.activatedAt, position.positionId⟩
  if outcome = .close then
    if position.inTier then
      vacateAndFill topTier tierSize poolKey positionKey position remaining positions
    else pure (topTier, position, positions, none)
  else if position.inTier then do
    let topTier ← Tier.refreshMember topTier tierSize positionKey entry
    pure (topTier, position, positions, none)
  else crossAndSettle topTier tierSize positionKey position entry remaining positions

def tierEvents (poolKey : Pubkey) (slot : ℕ) : TierChange → List Event
  | some (left, entered) => [.tierChanged poolKey slot left entered]
  | none => []

def moveLeaf (weightIndex : WeightIndex) (effect : RecordEffect) (value : ℕ) : Result WeightIndex :=
  match effect.outcome with
  | .close => weightIndex.remove effect.slotIndex effect.oldValue effect.expectedTotal
  | .refresh | .retained =>
    weightIndex.update effect.slotIndex effect.oldValue value effect.expectedTotal

def recordValue (clock : Clock) (c : Chain) (operator poolKey positionKey : Pubkey)
    (remaining : List AccountMeta) (value : ℕ) (observedAt : ℤ) : Outcome := do
  let _ ← loadForOperator c operator
  let a ← loadThroughPool c poolKey positionKey
  let booked ←
    applyRecordValue a.pool a.position a.walletStats value observedAt clock.unixTimestamp
  let effect := booked.effect
  let weightIndex ← moveLeaf a.weightIndex effect value
  let (topTier, position, positions, tierChange) ← recordTier effect.outcome a.topTier
    a.pool.tierSize poolKey positionKey booked.position value remaining c.positions
  let outcomeEvents :=
    match effect.outcome with
    | .close =>
      [Event.belowFloorClosed poolKey clock.slot operator positionKey a.position.depositor]
    | .retained =>
      [Event.belowFloorRetained poolKey clock.slot operator positionKey position.lockUntil]
    | .refresh => []
  pure ({ c with
    pools := c.pools.insert poolKey booked.pool
    positions := positions.insert positionKey position
    weightIndexes := c.weightIndexes.insert a.pool.weightIndex weightIndex
    topTiers := c.topTiers.insert (.topTier poolKey) topTier
    walletStats := c.walletStats.insert (.walletStats poolKey a.position.depositor)
      booked.walletStats },
    [.valueRecorded poolKey clock.slot operator positionKey effect.oldValue value observedAt,
      .rebalanceEvaluated poolKey clock.slot booked.pool.nReal booked.pool.wReal
        effect.blanksBefore booked.pool.blanks] ++
      outcomeEvents ++ tierEvents poolKey clock.slot tierChange)

end ByeMachine
