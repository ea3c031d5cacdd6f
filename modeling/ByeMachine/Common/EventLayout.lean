import ByeMachine.Common.Discriminators
import ByeMachine.Common.Events
import ByeMachine.State.Layout

/-!
# Event layout

What `emit!` logs: the discriminator of the event's name, then its fields in
Borsh, in the order `common/events.rs` declares them. Eight of its events belong
to instructions that are yet to come; clients decode them all the same.
-/

namespace ByeMachine

open Bytes

/-- The declared events that no instruction here publishes. -/
inductive PlannedEvent where
  | rollSettled (pool : Pubkey) (slot : ℕ) (batch : Pubkey) (rollIndex : ℕ) (outcome : RollOutcome)
      (selectedMint : Pubkey) (blankFaceIdx drawValue attempts wAtDraw nRealAtDraw : ℕ)
      (blanksAtDraw : Denomination → ℕ) (feeEqual feeTier feeProtocol feeT04 : ℕ)
  | rollRefunded (pool : Pubkey) (slot : ℕ) (batch : Pubkey) (rollIndex reason : ℕ)
      (wallet : Pubkey)
  | batchCompleted (pool : Pubkey) (slot : ℕ) (batch : Pubkey) (openBatchesRemaining : ℕ)
  | batchRecovered (pool : Pubkey) (slot : ℕ) (batch wallet : Pubkey) (openBatchesRemaining : ℕ)
  | batchClosed (pool : Pubkey) (slot : ℕ) (batch rentRecipient : Pubkey)
  | acquiredActivated (pool : Pubkey) (slot : ℕ) (authority position : Pubkey) (value : ℕ)
      (observedAt observedAgeSeconds : ℤ)
  | t04CeilingOverflow (pool : Pubkey) (slot amount : ℕ)
  | instantSold (pool : Pubkey) (slot : ℕ) (position seller : Pubkey) (value : ℕ)
      (observedAt observedAgeSeconds : ℤ) (rateBps paid standard : ℕ)

/-- Any event that `common/events.rs` declares. -/
inductive LoggedEvent where
  | published (event : Event)
  | planned (event : PlannedEvent)

-- ---------------------------------------------------------------------------
-- Names
-- ---------------------------------------------------------------------------

def Event.name : Event → EventName
  | .protocolInitialized .. => .protocolInitialized
  | .poolInitialized .. => .poolInitialized
  | .configChanged .. => .configChanged
  | .vrfConfigChanged .. => .vrfConfigChanged
  | .pauseSet .. => .pauseSet
  | .authorityRotated .. => .authorityRotated
  | .depositPending .. => .depositPending
  | .depositApproved .. => .depositApproved
  | .rebalanceEvaluated .. => .rebalanceEvaluated
  | .tierChanged .. => .tierChanged
  | .depositRejected .. => .depositRejected
  | .nftReturned .. => .nftReturned
  | .withdrawn .. => .withdrawn
  | .nftClaimed .. => .nftClaimed
  | .valueRecorded .. => .valueRecorded
  | .belowFloorClosed .. => .belowFloorClosed
  | .belowFloorRetained .. => .belowFloorRetained
  | .sweepBegun .. => .sweepBegun
  | .sweepEnded .. => .sweepEnded
  | .collectionAdmitted .. => .collectionAdmitted
  | .collectionWithdrawn .. => .collectionWithdrawn
  | .positionSeized .. => .positionSeized
  | .batchCommitted .. => .batchCommitted
  | .batchResolved .. => .batchResolved

def PlannedEvent.name : PlannedEvent → EventName
  | .rollSettled .. => .rollSettled
  | .rollRefunded .. => .rollRefunded
  | .batchCompleted .. => .batchCompleted
  | .batchRecovered .. => .batchRecovered
  | .batchClosed .. => .batchClosed
  | .acquiredActivated .. => .acquiredActivated
  | .t04CeilingOverflow .. => .t04CeilingOverflow
  | .instantSold .. => .instantSold

def LoggedEvent.name : LoggedEvent → EventName
  | .published event => event.name
  | .planned event => event.name

-- ---------------------------------------------------------------------------
-- Fields in order
-- ---------------------------------------------------------------------------

def SeizureKind.byte : SeizureKind → UInt8
  | .burned => 0
  | .transferred => 1
  | .frozen => 2
  | .undecidable => 3

def AuthorityRole.byte : AuthorityRole → UInt8
  | .administrator => 0
  | .operator => 1
  | .t03 => 2
  | .t02 => 3

def RotationPhase.byte : RotationPhase → UInt8
  | .proposed => 0
  | .accepted => 1

/-- The declaration index, then the payload: an hour count is variant 4. -/
def ConfigValue.fields : ConfigValue → List Bytes
  | .amount value => [leBytes 1 0, leBytes 8 value]
  | .bps value => [leBytes 1 1, leBytes 2 value]
  | .count value => [leBytes 1 2, leBytes 1 value]
  | .faces value => leBytes 1 3 :: blankFields 8 value
  | .hours value => [leBytes 1 4, leBytes 2 value]

/-- Borsh's `String`: its byte length, then UTF-8. -/
def stringFields (s : String) : List Bytes := [leBytes 4 (utf8Bytes s).length, utf8Bytes s]

def optionFields {α : Type} (field : α → Bytes) : Option α → List Bytes
  | none => [leBytes 1 0]
  | some value => [leBytes 1 1, field value]

variable (w : Encoding)

def Event.fields : Event → List Bytes
  | .protocolInitialized slot administrator operator t02Authority t03Authority protocolRevenue
      usdcMint byeMint vrfProgram oracleQueue swapPool maxSwapSlippageBps =>
    [leBytes 8 slot, w.encode administrator, w.encode operator, w.encode t02Authority,
      w.encode t03Authority, w.encode protocolRevenue, w.encode usdcMint, w.encode byeMint,
      w.encode vrfProgram, w.encode oracleQueue, w.encode swapPool, leBytes 2 maxSwapSlippageBps]
  | .poolInitialized pool slot authority poolId weightIndex treasury03 price ticketTarget fee
      allocEqualBps allocTierBps allocProtocolBps admissionFloor admissionCeiling walletValueCap
      maxN buybackRateBps blankFaces t04Ceiling sweepCadenceHours tierSize =>
    [w.encode pool, leBytes 8 slot, w.encode authority, leBytes 2 poolId, w.encode weightIndex,
      w.encode treasury03, leBytes 8 price, leBytes 8 ticketTarget, leBytes 8 fee,
      leBytes 2 allocEqualBps, leBytes 2 allocTierBps, leBytes 2 allocProtocolBps,
      leBytes 8 admissionFloor, leBytes 8 admissionCeiling, leBytes 8 walletValueCap,
      leBytes 1 maxN, leBytes 2 buybackRateBps] ++ blankFields 8 blankFaces ++
      [leBytes 8 t04Ceiling, leBytes 2 sweepCadenceHours, leBytes 1 tierSize]
  | .configChanged pool slot authority param old new =>
    [w.encode pool, leBytes 8 slot, w.encode authority] ++ stringFields param ++ old.fields ++
      new.fields
  | .vrfConfigChanged slot authority oldVrfProgram oldOracleQueue oldSwapPool vrfProgram
      oracleQueue swapPool =>
    [leBytes 8 slot, w.encode authority, w.encode oldVrfProgram, w.encode oldOracleQueue,
      w.encode oldSwapPool, w.encode vrfProgram, w.encode oracleQueue, w.encode swapPool]
  | .pauseSet pool slot authority depositsPaused rollsPaused reason =>
    [w.encode pool, leBytes 8 slot, w.encode authority, [boolByte depositsPaused],
      [boolByte rollsPaused], leBytes 2 reason]
  | .authorityRotated slot authority role old new phase =>
    [leBytes 8 slot, w.encode authority, [role.byte], w.encode old, w.encode new, [phase.byte]]
  | .depositPending pool slot position depositor nftMint
  | .nftReturned pool slot position depositor nftMint
  | .nftClaimed pool slot position depositor nftMint =>
    [w.encode pool, leBytes 8 slot, w.encode position, w.encode depositor, w.encode nftMint]
  | .depositApproved pool slot authority position value observedAt observedAgeSeconds =>
    [w.encode pool, leBytes 8 slot, w.encode authority, w.encode position, leBytes 8 value,
      i64Bytes observedAt, i64Bytes observedAgeSeconds]
  | .rebalanceEvaluated pool slot nReal wReal blanksBefore blanksAfter =>
    [w.encode pool, leBytes 8 slot, leBytes 4 nReal, leBytes 16 wReal] ++
      blankFields 4 blanksBefore ++ blankFields 4 blanksAfter
  | .tierChanged pool slot left entered =>
    [w.encode pool, leBytes 8 slot] ++ optionFields w.encode left ++ optionFields w.encode entered
  | .depositRejected pool slot authority position reason =>
    [w.encode pool, leBytes 8 slot, w.encode authority, w.encode position, leBytes 2 reason]
  | .withdrawn pool slot position depositor feesPaid =>
    [w.encode pool, leBytes 8 slot, w.encode position, w.encode depositor, leBytes 8 feesPaid]
  | .valueRecorded pool slot authority position old new observedAt =>
    [w.encode pool, leBytes 8 slot, w.encode authority, w.encode position, leBytes 8 old,
      leBytes 8 new, i64Bytes observedAt]
  | .belowFloorClosed pool slot authority position depositor =>
    [w.encode pool, leBytes 8 slot, w.encode authority, w.encode position, w.encode depositor]
  | .belowFloorRetained pool slot authority position lockUntil =>
    [w.encode pool, leBytes 8 slot, w.encode authority, w.encode position, i64Bytes lockUntil]
  | .sweepBegun pool slot authority sweepEpoch =>
    [w.encode pool, leBytes 8 slot, w.encode authority, leBytes 8 sweepEpoch]
  | .sweepEnded pool slot authority sweepEpoch positionsUpdated lastSweepAt =>
    [w.encode pool, leBytes 8 slot, w.encode authority, leBytes 8 sweepEpoch,
      leBytes 4 positionsUpdated, i64Bytes lastSweepAt]
  | .collectionAdmitted pool slot collection standards oldStandards reason authority =>
    [w.encode pool, leBytes 8 slot, w.encode collection, leBytes 1 standards,
      leBytes 1 oldStandards] ++ optionFields (leBytes 2) reason ++ [w.encode authority]
  | .collectionWithdrawn pool slot collection standards reason authority =>
    [w.encode pool, leBytes 8 slot, w.encode collection, leBytes 1 standards, leBytes 2 reason,
      w.encode authority]
  | .positionSeized pool slot position kind ownerObserved sourceState recordedValue =>
    [w.encode pool, leBytes 8 slot, w.encode position, [kind.byte], w.encode ownerObserved,
      [sourceState.byte], leBytes 8 recordedValue]
  | .batchCommitted pool slot roller batch n sPrice sTicket sFee sAllocBps sBlankFaces =>
    [w.encode pool, leBytes 8 slot, w.encode roller, w.encode batch, leBytes 1 n,
      leBytes 8 sPrice, leBytes 8 sTicket, leBytes 8 sFee] ++ blankFields 2 sAllocBps ++
      blankFields 8 sBlankFaces
  | .batchResolved pool slot batch => [w.encode pool, leBytes 8 slot, w.encode batch]

def PlannedEvent.fields : PlannedEvent → List Bytes
  | .rollSettled pool slot batch rollIndex outcome selectedMint blankFaceIdx drawValue attempts
      wAtDraw nRealAtDraw blanksAtDraw feeEqual feeTier feeProtocol feeT04 =>
    [w.encode pool, leBytes 8 slot, w.encode batch, leBytes 1 rollIndex, [outcome.byte],
      w.encode selectedMint, leBytes 1 blankFaceIdx, leBytes 16 drawValue, leBytes 1 attempts,
      leBytes 16 wAtDraw, leBytes 4 nRealAtDraw] ++ blankFields 4 blanksAtDraw ++
      [leBytes 8 feeEqual, leBytes 8 feeTier, leBytes 8 feeProtocol, leBytes 8 feeT04]
  | .rollRefunded pool slot batch rollIndex reason wallet =>
    [w.encode pool, leBytes 8 slot, w.encode batch, leBytes 1 rollIndex, leBytes 2 reason,
      w.encode wallet]
  | .batchCompleted pool slot batch openBatchesRemaining =>
    [w.encode pool, leBytes 8 slot, w.encode batch, leBytes 4 openBatchesRemaining]
  | .batchRecovered pool slot batch wallet openBatchesRemaining =>
    [w.encode pool, leBytes 8 slot, w.encode batch, w.encode wallet,
      leBytes 4 openBatchesRemaining]
  | .batchClosed pool slot batch rentRecipient =>
    [w.encode pool, leBytes 8 slot, w.encode batch, w.encode rentRecipient]
  | .acquiredActivated pool slot authority position value observedAt observedAgeSeconds =>
    [w.encode pool, leBytes 8 slot, w.encode authority, w.encode position, leBytes 8 value,
      i64Bytes observedAt, i64Bytes observedAgeSeconds]
  | .t04CeilingOverflow pool slot amount => [w.encode pool, leBytes 8 slot, leBytes 8 amount]
  | .instantSold pool slot position seller value observedAt observedAgeSeconds rateBps paid
      standard =>
    [w.encode pool, leBytes 8 slot, w.encode position, w.encode seller, leBytes 8 value,
      i64Bytes observedAt, i64Bytes observedAgeSeconds, leBytes 2 rateBps, leBytes 8 paid,
      leBytes 1 standard]

def LoggedEvent.fields : LoggedEvent → List Bytes
  | .published event => event.fields w
  | .planned event => event.fields w

def LoggedEvent.bytes (e : LoggedEvent) : Bytes := (e.name.discriminator :: e.fields w).flatten

-- ---------------------------------------------------------------------------
-- Values of the declared types
-- ---------------------------------------------------------------------------

def ConfigValue.Fits : ConfigValue → Prop
  | .amount value => value < 2 ^ 64
  | .bps value | .hours value => value < 2 ^ 16
  | .count value => value < 2 ^ 8
  | .faces value => ∀ d, value d < 2 ^ 64

def FitsString (s : String) : Prop := (utf8Bytes s).length < 2 ^ 32

def Event.Fits : Event → Prop
  | .protocolInitialized slot administrator operator t02Authority t03Authority protocolRevenue
      usdcMint byeMint vrfProgram oracleQueue swapPool maxSwapSlippageBps =>
    slot < 2 ^ 64 ∧ maxSwapSlippageBps < 2 ^ 16 ∧
      ∀ key ∈ [administrator, operator, t02Authority, t03Authority, protocolRevenue, usdcMint,
        byeMint, vrfProgram, oracleQueue, swapPool], w.Faithful key
  | .poolInitialized pool slot authority poolId weightIndex treasury03 price ticketTarget fee
      allocEqualBps allocTierBps allocProtocolBps admissionFloor admissionCeiling walletValueCap
      maxN buybackRateBps blankFaces t04Ceiling sweepCadenceHours tierSize =>
    (∀ key ∈ [pool, authority, weightIndex, treasury03], w.Faithful key) ∧
      (∀ value ∈ [slot, price, ticketTarget, fee, admissionFloor, admissionCeiling,
        walletValueCap, t04Ceiling], value < 2 ^ 64) ∧
      (∀ value ∈ [poolId, allocEqualBps, allocTierBps, allocProtocolBps, buybackRateBps,
        sweepCadenceHours], value < 2 ^ 16) ∧
      maxN < 2 ^ 8 ∧ tierSize < 2 ^ 8 ∧ ∀ d, blankFaces d < 2 ^ 64
  | .configChanged pool slot authority param old new =>
    w.Faithful pool ∧ slot < 2 ^ 64 ∧ w.Faithful authority ∧ FitsString param ∧ old.Fits ∧ new.Fits
  | .vrfConfigChanged slot authority oldVrfProgram oldOracleQueue oldSwapPool vrfProgram
      oracleQueue swapPool =>
    slot < 2 ^ 64 ∧ ∀ key ∈ [authority, oldVrfProgram, oldOracleQueue, oldSwapPool, vrfProgram,
      oracleQueue, swapPool], w.Faithful key
  | .pauseSet pool slot authority _ _ reason =>
    w.Faithful pool ∧ slot < 2 ^ 64 ∧ w.Faithful authority ∧ reason < 2 ^ 16
  | .authorityRotated slot authority _ old new _ =>
    slot < 2 ^ 64 ∧ w.Faithful authority ∧ w.Faithful old ∧ w.Faithful new
  | .depositPending pool slot position depositor nftMint
  | .nftReturned pool slot position depositor nftMint
  | .nftClaimed pool slot position depositor nftMint =>
    w.Faithful pool ∧ slot < 2 ^ 64 ∧ w.Faithful position ∧ w.Faithful depositor ∧
      w.Faithful nftMint
  | .depositApproved pool slot authority position value observedAt observedAgeSeconds =>
    w.Faithful pool ∧ slot < 2 ^ 64 ∧ w.Faithful authority ∧ w.Faithful position ∧
      value < 2 ^ 64 ∧ FitsI64 observedAt ∧ FitsI64 observedAgeSeconds
  | .rebalanceEvaluated pool slot nReal wReal blanksBefore blanksAfter =>
    w.Faithful pool ∧ slot < 2 ^ 64 ∧ nReal < 2 ^ 32 ∧ wReal < 2 ^ 128 ∧
      (∀ d, blanksBefore d < 2 ^ 32) ∧ ∀ d, blanksAfter d < 2 ^ 32
  | .tierChanged pool slot left entered =>
    w.Faithful pool ∧ slot < 2 ^ 64 ∧ (∀ key ∈ left, w.Faithful key) ∧
      ∀ key ∈ entered, w.Faithful key
  | .depositRejected pool slot authority position reason =>
    w.Faithful pool ∧ slot < 2 ^ 64 ∧ w.Faithful authority ∧ w.Faithful position ∧ reason < 2 ^ 16
  | .withdrawn pool slot position depositor feesPaid =>
    w.Faithful pool ∧ slot < 2 ^ 64 ∧ w.Faithful position ∧ w.Faithful depositor ∧
      feesPaid < 2 ^ 64
  | .valueRecorded pool slot authority position old new observedAt =>
    w.Faithful pool ∧ slot < 2 ^ 64 ∧ w.Faithful authority ∧ w.Faithful position ∧
      old < 2 ^ 64 ∧ new < 2 ^ 64 ∧ FitsI64 observedAt
  | .belowFloorClosed pool slot authority position depositor =>
    w.Faithful pool ∧ slot < 2 ^ 64 ∧ w.Faithful authority ∧ w.Faithful position ∧
      w.Faithful depositor
  | .belowFloorRetained pool slot authority position lockUntil =>
    w.Faithful pool ∧ slot < 2 ^ 64 ∧ w.Faithful authority ∧ w.Faithful position ∧
      FitsI64 lockUntil
  | .sweepBegun pool slot authority sweepEpoch =>
    w.Faithful pool ∧ slot < 2 ^ 64 ∧ w.Faithful authority ∧ sweepEpoch < 2 ^ 64
  | .sweepEnded pool slot authority sweepEpoch positionsUpdated lastSweepAt =>
    w.Faithful pool ∧ slot < 2 ^ 64 ∧ w.Faithful authority ∧ sweepEpoch < 2 ^ 64 ∧
      positionsUpdated < 2 ^ 32 ∧ FitsI64 lastSweepAt
  | .collectionAdmitted pool slot collection standards oldStandards reason authority =>
    w.Faithful pool ∧ slot < 2 ^ 64 ∧ w.Faithful collection ∧ standards < 2 ^ 8 ∧
      oldStandards < 2 ^ 8 ∧ (∀ value ∈ reason, value < 2 ^ 16) ∧ w.Faithful authority
  | .collectionWithdrawn pool slot collection standards reason authority =>
    w.Faithful pool ∧ slot < 2 ^ 64 ∧ w.Faithful collection ∧ standards < 2 ^ 8 ∧
      reason < 2 ^ 16 ∧ w.Faithful authority
  | .positionSeized pool slot position _ ownerObserved _ recordedValue =>
    w.Faithful pool ∧ slot < 2 ^ 64 ∧ w.Faithful position ∧ w.Faithful ownerObserved ∧
      recordedValue < 2 ^ 64
  | .batchCommitted pool slot roller batch n sPrice sTicket sFee sAllocBps sBlankFaces =>
    w.Faithful pool ∧ slot < 2 ^ 64 ∧ w.Faithful roller ∧ w.Faithful batch ∧ n < 2 ^ 8 ∧
      sPrice < 2 ^ 64 ∧ sTicket < 2 ^ 64 ∧ sFee < 2 ^ 64 ∧ (∀ i, sAllocBps i < 2 ^ 16) ∧
      ∀ d, sBlankFaces d < 2 ^ 64
  | .batchResolved pool slot batch => w.Faithful pool ∧ slot < 2 ^ 64 ∧ w.Faithful batch

def PlannedEvent.Fits : PlannedEvent → Prop
  | .rollSettled pool slot batch rollIndex _ selectedMint blankFaceIdx drawValue attempts wAtDraw
      nRealAtDraw blanksAtDraw feeEqual feeTier feeProtocol feeT04 =>
    (∀ key ∈ [pool, batch, selectedMint], w.Faithful key) ∧
      (∀ value ∈ [slot, feeEqual, feeTier, feeProtocol, feeT04], value < 2 ^ 64) ∧
      (∀ value ∈ [rollIndex, blankFaceIdx, attempts], value < 2 ^ 8) ∧
      drawValue < 2 ^ 128 ∧ wAtDraw < 2 ^ 128 ∧ nRealAtDraw < 2 ^ 32 ∧ ∀ d, blanksAtDraw d < 2 ^ 32
  | .rollRefunded pool slot batch rollIndex reason wallet =>
    w.Faithful pool ∧ slot < 2 ^ 64 ∧ w.Faithful batch ∧ rollIndex < 2 ^ 8 ∧ reason < 2 ^ 16 ∧
      w.Faithful wallet
  | .batchCompleted pool slot batch openBatchesRemaining =>
    w.Faithful pool ∧ slot < 2 ^ 64 ∧ w.Faithful batch ∧ openBatchesRemaining < 2 ^ 32
  | .batchRecovered pool slot batch wallet openBatchesRemaining =>
    w.Faithful pool ∧ slot < 2 ^ 64 ∧ w.Faithful batch ∧ w.Faithful wallet ∧
      openBatchesRemaining < 2 ^ 32
  | .batchClosed pool slot batch rentRecipient =>
    w.Faithful pool ∧ slot < 2 ^ 64 ∧ w.Faithful batch ∧ w.Faithful rentRecipient
  | .acquiredActivated pool slot authority position value observedAt observedAgeSeconds =>
    w.Faithful pool ∧ slot < 2 ^ 64 ∧ w.Faithful authority ∧ w.Faithful position ∧
      value < 2 ^ 64 ∧ FitsI64 observedAt ∧ FitsI64 observedAgeSeconds
  | .t04CeilingOverflow pool slot amount => w.Faithful pool ∧ slot < 2 ^ 64 ∧ amount < 2 ^ 64
  | .instantSold pool slot position seller value observedAt observedAgeSeconds rateBps paid
      standard =>
    w.Faithful pool ∧ slot < 2 ^ 64 ∧ w.Faithful position ∧ w.Faithful seller ∧ value < 2 ^ 64 ∧
      FitsI64 observedAt ∧ FitsI64 observedAgeSeconds ∧ rateBps < 2 ^ 16 ∧ paid < 2 ^ 64 ∧
      standard < 2 ^ 8

def LoggedEvent.Fits : LoggedEvent → Prop
  | .published event => event.Fits w
  | .planned event => event.Fits w

end ByeMachine
