import ByeMachine.Client.Decoders
import ByeMachine.Common.EventLayout

/-!
# The event decoders

`scripts/lib/decoders.ts`: one decoder for each event, and the dispatch on the
discriminator that a log line opens with.
-/

namespace ByeMachine

open Fallible Borsh BorshReader

inductive EventError where
  | discriminator (name : EventName) (got want : Bytes)
  | unknown (discriminator : Bytes)
  | fields (error : DecodeError)
  deriving DecidableEq, Repr

/-- An event as the client holds it: a parameter's name is a string of the engine. -/
inductive DecodedEvent where
  | published (event : Event)
  | configChanged (pool : Pubkey) (slot : ℕ) (authority : Pubkey) (param : JsString)
      (old new : ConfigValue)
  | planned (event : PlannedEvent)

namespace Decoders

def checkEventDiscriminator (data : Bytes) (name : EventName) : Except EventError Cursor := do
  let actual := data.take 8
  let expected := name.discriminator
  require (actual = expected) (.discriminator name actual expected)
  pure ⟨data.drop 8, 0⟩

def readConsumed {α : Type} (fields : BorshReader α) (r : Cursor) : Except DecodeError α := do
  let (record, r) ← fields r
  let _ ← assertConsumed r
  pure record

def decodeNamed {α : Type} (name : EventName) (fields : BorshReader α) (data : Bytes) :
    Except EventError α := do
  let r ← checkEventDiscriminator data name
  (readConsumed fields r).mapError .fields

-- ---------------------------------------------------------------------------
-- Tagged enums
-- ---------------------------------------------------------------------------

def SEIZURE_KIND_BY_TAG : List SeizureKind := [.burned, .transferred, .frozen, .undecidable]

def AUTHORITY_ROLE_BY_TAG : List AuthorityRole := [.administrator, .operator, .t03, .t02]

def ROTATION_PHASE_BY_TAG : List RotationPhase := [.proposed, .accepted]

def decodeSeizureKind : BorshReader SeizureKind := tagged "SeizureKind" SEIZURE_KIND_BY_TAG

def decodeAuthorityRole : BorshReader AuthorityRole := tagged "AuthorityRole" AUTHORITY_ROLE_BY_TAG

def decodeRotationPhase : BorshReader RotationPhase := tagged "RotationPhase" ROTATION_PHASE_BY_TAG

/-- What follows a `ConfigValue`'s tag. -/
def configPayload : ℕ → BorshReader ConfigValue
  | 0 => .amount <$> u64
  | 1 => .bps <$> u16
  | 2 => .count <$> u8
  | 3 => .faces <$> triple u64
  | 4 => .hours <$> u16
  | tag => throw (.unknownTag "ConfigValue" tag)

def decodeConfigValue : BorshReader ConfigValue := do
  let tag ← u8
  configPayload tag

-- ---------------------------------------------------------------------------
-- Events
-- ---------------------------------------------------------------------------

section

variable (w : Encoding)

def decodeProtocolInitialized : Bytes → Except EventError DecodedEvent :=
  decodeNamed .protocolInitialized do
    let slot ← u64
    let administrator ← pubkey w
    let operator ← pubkey w
    let t02Authority ← pubkey w
    let t03Authority ← pubkey w
    let protocolRevenue ← pubkey w
    let usdcMint ← pubkey w
    let byeMint ← pubkey w
    let vrfProgram ← pubkey w
    let oracleQueue ← pubkey w
    let swapPool ← pubkey w
    let maxSwapSlippageBps ← u16
    pure (.published (.protocolInitialized slot administrator operator t02Authority t03Authority
      protocolRevenue usdcMint byeMint vrfProgram oracleQueue swapPool maxSwapSlippageBps))

def decodePoolInitialized : Bytes → Except EventError DecodedEvent :=
  decodeNamed .poolInitialized do
    let pool ← pubkey w
    let slot ← u64
    let authority ← pubkey w
    let poolId ← u16
    let weightIndex ← pubkey w
    let treasury03 ← pubkey w
    let price ← u64
    let ticketTarget ← u64
    let fee ← u64
    let allocEqualBps ← u16
    let allocTierBps ← u16
    let allocProtocolBps ← u16
    let admissionFloor ← u64
    let admissionCeiling ← u64
    let walletValueCap ← u64
    let maxN ← u8
    let buybackRateBps ← u16
    let blankFaces ← triple u64
    let t04Ceiling ← u64
    let sweepCadenceHours ← u16
    let tierSize ← u8
    pure (.published (.poolInitialized pool slot authority poolId weightIndex treasury03 price
      ticketTarget fee allocEqualBps allocTierBps allocProtocolBps admissionFloor admissionCeiling
      walletValueCap maxN buybackRateBps blankFaces t04Ceiling sweepCadenceHours tierSize))

def decodeConfigChanged (replaced : Bytes → JsString) : Bytes → Except EventError DecodedEvent :=
  decodeNamed .configChanged do
    let pool ← pubkey w
    let slot ← u64
    let authority ← pubkey w
    let param ← string replaced
    let old ← decodeConfigValue
    let new ← decodeConfigValue
    pure (.configChanged pool slot authority param old new)

def decodeVrfConfigChanged : Bytes → Except EventError DecodedEvent :=
  decodeNamed .vrfConfigChanged do
    let slot ← u64
    let authority ← pubkey w
    let oldVrfProgram ← pubkey w
    let oldOracleQueue ← pubkey w
    let oldSwapPool ← pubkey w
    let vrfProgram ← pubkey w
    let oracleQueue ← pubkey w
    let swapPool ← pubkey w
    pure (.published (.vrfConfigChanged slot authority oldVrfProgram oldOracleQueue oldSwapPool
      vrfProgram oracleQueue swapPool))

def decodePauseSet : Bytes → Except EventError DecodedEvent :=
  decodeNamed .pauseSet do
    let pool ← pubkey w
    let slot ← u64
    let authority ← pubkey w
    let depositsPaused ← bool
    let rollsPaused ← bool
    let reason ← u16
    pure (.published (.pauseSet pool slot authority depositsPaused rollsPaused reason))

def decodeAuthorityRotated : Bytes → Except EventError DecodedEvent :=
  decodeNamed .authorityRotated do
    let slot ← u64
    let authority ← pubkey w
    let role ← decodeAuthorityRole
    let old ← pubkey w
    let new ← pubkey w
    let phase ← decodeRotationPhase
    pure (.published (.authorityRotated slot authority role old new phase))

def decodeDepositPending : Bytes → Except EventError DecodedEvent :=
  decodeNamed .depositPending do
    let pool ← pubkey w
    let slot ← u64
    let position ← pubkey w
    let depositor ← pubkey w
    let nftMint ← pubkey w
    pure (.published (.depositPending pool slot position depositor nftMint))

def decodeDepositApproved : Bytes → Except EventError DecodedEvent :=
  decodeNamed .depositApproved do
    let pool ← pubkey w
    let slot ← u64
    let authority ← pubkey w
    let position ← pubkey w
    let value ← u64
    let observedAt ← i64
    let observedAgeSeconds ← i64
    pure (.published (.depositApproved pool slot authority position value observedAt
      observedAgeSeconds))

def decodeRebalanceEvaluated : Bytes → Except EventError DecodedEvent :=
  decodeNamed .rebalanceEvaluated do
    let pool ← pubkey w
    let slot ← u64
    let nReal ← u32
    let wReal ← u128
    let blanksBefore ← triple u32
    let blanksAfter ← triple u32
    pure (.published (.rebalanceEvaluated pool slot nReal wReal blanksBefore blanksAfter))

def decodeTierChanged : Bytes → Except EventError DecodedEvent :=
  decodeNamed .tierChanged do
    let pool ← pubkey w
    let slot ← u64
    let left ← optionPubkey w
    let entered ← optionPubkey w
    pure (.published (.tierChanged pool slot left entered))

def decodeDepositRejected : Bytes → Except EventError DecodedEvent :=
  decodeNamed .depositRejected do
    let pool ← pubkey w
    let slot ← u64
    let authority ← pubkey w
    let position ← pubkey w
    let reason ← u16
    pure (.published (.depositRejected pool slot authority position reason))

def decodeCollectionAdmitted : Bytes → Except EventError DecodedEvent :=
  decodeNamed .collectionAdmitted do
    let pool ← pubkey w
    let slot ← u64
    let collection ← pubkey w
    let standards ← u8
    let oldStandards ← u8
    let reason ← optionU16
    let authority ← pubkey w
    pure (.published (.collectionAdmitted pool slot collection standards oldStandards reason
      authority))

def decodeCollectionWithdrawn : Bytes → Except EventError DecodedEvent :=
  decodeNamed .collectionWithdrawn do
    let pool ← pubkey w
    let slot ← u64
    let collection ← pubkey w
    let standards ← u8
    let reason ← u16
    let authority ← pubkey w
    pure (.published (.collectionWithdrawn pool slot collection standards reason authority))

def decodePositionSeized : Bytes → Except EventError DecodedEvent :=
  decodeNamed .positionSeized do
    let pool ← pubkey w
    let slot ← u64
    let position ← pubkey w
    let kind ← decodeSeizureKind
    let ownerObserved ← pubkey w
    let sourceState ← decodePositionState
    let recordedValue ← u64
    pure (.published (.positionSeized pool slot position kind ownerObserved sourceState
      recordedValue))

def decodeNftReturned : Bytes → Except EventError DecodedEvent :=
  decodeNamed .nftReturned do
    let pool ← pubkey w
    let slot ← u64
    let position ← pubkey w
    let depositor ← pubkey w
    let nftMint ← pubkey w
    pure (.published (.nftReturned pool slot position depositor nftMint))

def decodeWithdrawn : Bytes → Except EventError DecodedEvent :=
  decodeNamed .withdrawn do
    let pool ← pubkey w
    let slot ← u64
    let position ← pubkey w
    let depositor ← pubkey w
    let feesPaid ← u64
    pure (.published (.withdrawn pool slot position depositor feesPaid))

def decodeNftClaimed : Bytes → Except EventError DecodedEvent :=
  decodeNamed .nftClaimed do
    let pool ← pubkey w
    let slot ← u64
    let position ← pubkey w
    let depositor ← pubkey w
    let nftMint ← pubkey w
    pure (.published (.nftClaimed pool slot position depositor nftMint))

def decodeValueRecorded : Bytes → Except EventError DecodedEvent :=
  decodeNamed .valueRecorded do
    let pool ← pubkey w
    let slot ← u64
    let authority ← pubkey w
    let position ← pubkey w
    let old ← u64
    let new ← u64
    let observedAt ← i64
    pure (.published (.valueRecorded pool slot authority position old new observedAt))

def decodeBelowFloorClosed : Bytes → Except EventError DecodedEvent :=
  decodeNamed .belowFloorClosed do
    let pool ← pubkey w
    let slot ← u64
    let authority ← pubkey w
    let position ← pubkey w
    let depositor ← pubkey w
    pure (.published (.belowFloorClosed pool slot authority position depositor))

def decodeBelowFloorRetained : Bytes → Except EventError DecodedEvent :=
  decodeNamed .belowFloorRetained do
    let pool ← pubkey w
    let slot ← u64
    let authority ← pubkey w
    let position ← pubkey w
    let lockUntil ← i64
    pure (.published (.belowFloorRetained pool slot authority position lockUntil))

def decodeSweepBegun : Bytes → Except EventError DecodedEvent :=
  decodeNamed .sweepBegun do
    let pool ← pubkey w
    let slot ← u64
    let authority ← pubkey w
    let sweepEpoch ← u64
    pure (.published (.sweepBegun pool slot authority sweepEpoch))

def decodeSweepEnded : Bytes → Except EventError DecodedEvent :=
  decodeNamed .sweepEnded do
    let pool ← pubkey w
    let slot ← u64
    let authority ← pubkey w
    let sweepEpoch ← u64
    let positionsUpdated ← u32
    let lastSweepAt ← i64
    pure (.published (.sweepEnded pool slot authority sweepEpoch positionsUpdated lastSweepAt))

def decodeBatchCommitted : Bytes → Except EventError DecodedEvent :=
  decodeNamed .batchCommitted do
    let pool ← pubkey w
    let slot ← u64
    let roller ← pubkey w
    let batch ← pubkey w
    let n ← u8
    let sPrice ← u64
    let sTicket ← u64
    let sFee ← u64
    let sAllocBps ← triple u16
    let sBlankFaces ← triple u64
    pure (.published (.batchCommitted pool slot roller batch n sPrice sTicket sFee sAllocBps
      sBlankFaces))

def decodeBatchResolved : Bytes → Except EventError DecodedEvent :=
  decodeNamed .batchResolved do
    let pool ← pubkey w
    let slot ← u64
    let batch ← pubkey w
    pure (.published (.batchResolved pool slot batch))

def decodeRollSettled : Bytes → Except EventError DecodedEvent :=
  decodeNamed .rollSettled do
    let pool ← pubkey w
    let slot ← u64
    let batch ← pubkey w
    let rollIndex ← u8
    let outcome ← decodeRollOutcome
    let selectedMint ← pubkey w
    let blankFaceIdx ← u8
    let drawValue ← u128
    let attempts ← u8
    let wAtDraw ← u128
    let nRealAtDraw ← u32
    let blanksAtDraw ← triple u32
    let feeEqual ← u64
    let feeTier ← u64
    let feeProtocol ← u64
    let feeT04 ← u64
    pure (.planned (.rollSettled pool slot batch rollIndex outcome selectedMint blankFaceIdx
      drawValue attempts wAtDraw nRealAtDraw blanksAtDraw feeEqual feeTier feeProtocol feeT04))

def decodeRollRefunded : Bytes → Except EventError DecodedEvent :=
  decodeNamed .rollRefunded do
    let pool ← pubkey w
    let slot ← u64
    let batch ← pubkey w
    let rollIndex ← u8
    let reason ← u16
    let wallet ← pubkey w
    pure (.planned (.rollRefunded pool slot batch rollIndex reason wallet))

def decodeBatchCompleted : Bytes → Except EventError DecodedEvent :=
  decodeNamed .batchCompleted do
    let pool ← pubkey w
    let slot ← u64
    let batch ← pubkey w
    let openBatchesRemaining ← u32
    pure (.planned (.batchCompleted pool slot batch openBatchesRemaining))

def decodeBatchRecovered : Bytes → Except EventError DecodedEvent :=
  decodeNamed .batchRecovered do
    let pool ← pubkey w
    let slot ← u64
    let batch ← pubkey w
    let wallet ← pubkey w
    let openBatchesRemaining ← u32
    pure (.planned (.batchRecovered pool slot batch wallet openBatchesRemaining))

def decodeBatchClosed : Bytes → Except EventError DecodedEvent :=
  decodeNamed .batchClosed do
    let pool ← pubkey w
    let slot ← u64
    let batch ← pubkey w
    let rentRecipient ← pubkey w
    pure (.planned (.batchClosed pool slot batch rentRecipient))

def decodeAcquiredActivated : Bytes → Except EventError DecodedEvent :=
  decodeNamed .acquiredActivated do
    let pool ← pubkey w
    let slot ← u64
    let authority ← pubkey w
    let position ← pubkey w
    let value ← u64
    let observedAt ← i64
    let observedAgeSeconds ← i64
    pure (.planned (.acquiredActivated pool slot authority position value observedAt
      observedAgeSeconds))

def decodeT04CeilingOverflow : Bytes → Except EventError DecodedEvent :=
  decodeNamed .t04CeilingOverflow do
    let pool ← pubkey w
    let slot ← u64
    let amount ← u64
    pure (.planned (.t04CeilingOverflow pool slot amount))

def decodeInstantSold : Bytes → Except EventError DecodedEvent :=
  decodeNamed .instantSold do
    let pool ← pubkey w
    let slot ← u64
    let position ← pubkey w
    let seller ← pubkey w
    let value ← u64
    let observedAt ← i64
    let observedAgeSeconds ← i64
    let rateBps ← u16
    let paid ← u64
    let standard ← u8
    pure (.planned (.instantSold pool slot position seller value observedAt observedAgeSeconds
      rateBps paid standard))

end

-- ---------------------------------------------------------------------------
-- Dispatch
-- ---------------------------------------------------------------------------

def eventDecoder (w : Encoding) (replaced : Bytes → JsString) :
    EventName → Bytes → Except EventError DecodedEvent
  | .acquiredActivated => decodeAcquiredActivated w
  | .authorityRotated => decodeAuthorityRotated w
  | .batchClosed => decodeBatchClosed w
  | .batchCommitted => decodeBatchCommitted w
  | .batchCompleted => decodeBatchCompleted w
  | .batchRecovered => decodeBatchRecovered w
  | .batchResolved => decodeBatchResolved w
  | .belowFloorClosed => decodeBelowFloorClosed w
  | .belowFloorRetained => decodeBelowFloorRetained w
  | .collectionAdmitted => decodeCollectionAdmitted w
  | .collectionWithdrawn => decodeCollectionWithdrawn w
  | .configChanged => decodeConfigChanged w replaced
  | .depositApproved => decodeDepositApproved w
  | .depositPending => decodeDepositPending w
  | .depositRejected => decodeDepositRejected w
  | .instantSold => decodeInstantSold w
  | .nftClaimed => decodeNftClaimed w
  | .nftReturned => decodeNftReturned w
  | .pauseSet => decodePauseSet w
  | .poolInitialized => decodePoolInitialized w
  | .positionSeized => decodePositionSeized w
  | .protocolInitialized => decodeProtocolInitialized w
  | .rebalanceEvaluated => decodeRebalanceEvaluated w
  | .rollRefunded => decodeRollRefunded w
  | .rollSettled => decodeRollSettled w
  | .sweepBegun => decodeSweepBegun w
  | .sweepEnded => decodeSweepEnded w
  | .t04CeilingOverflow => decodeT04CeilingOverflow w
  | .tierChanged => decodeTierChanged w
  | .valueRecorded => decodeValueRecorded w
  | .vrfConfigChanged => decodeVrfConfigChanged w
  | .withdrawn => decodeWithdrawn w

/-- `EVENT_DECODER_BY_DISCRIMINATOR`: a `Map` keeps the last of two equal keys. -/
def decoderByDiscriminator (disc : Bytes) : Option EventName :=
  EventName.all.reverse.find? fun name => name.discriminator = disc

def decodeEvent (w : Encoding) (replaced : Bytes → JsString) (data : Bytes) :
    Except EventError DecodedEvent := do
  let disc := data.take 8
  let name ← okOr (decoderByDiscriminator disc) (.unknown disc)
  eventDecoder w replaced name data

end Decoders

end ByeMachine
