import ByeMachine.Base.Fallible
import ByeMachine.Client.Anchor

/-!
# The account decoders

`scripts/lib/decoders.ts`: one decoder for each account, a sequential reader of
the fields after the discriminator, and pinned offsets for the weight index. A
client's record has the fields of the program's under the same names; where a
type differs it has a structure of its own here.
-/

namespace ByeMachine

open Fallible Borsh

inductive DecodeError where
  /-- `expected n byte(s) at offset o, only r remain`. -/
  | short (expected offset remain : ℕ)
  | discriminator (name : AccountType) (got want : Bytes)
  | unknownTag (name : String) (tag : ℕ)
  | tierLength (len capacity : ℕ)
  | size (expected got : ℕ)
  /-- `Buffer` refuses a read past its end. -/
  | outOfRange
  | unconsumed (bytes : ℕ)
  deriving DecidableEq, Repr

abbrev BorshReader := Reader DecodeError

namespace BorshReader

def short (n : ℕ) (r : Cursor) : DecodeError := .short n r.offset (r.buf.length - r.offset)

def take (n : ℕ) : BorshReader Bytes := Borsh.take short n

def u8 : BorshReader ℕ := unsigned short 1

def u16 : BorshReader ℕ := unsigned short 2

def u32 : BorshReader ℕ := unsigned short 4

def u64 : BorshReader ℕ := unsigned short 8

def i64 : BorshReader ℤ := signed short

/-- `lo | (hi << 64n)`. -/
def u128 : BorshReader ℕ := do
  let lo ← u64
  let hi ← u64
  pure (lo ||| hi <<< 64)

def bool : BorshReader Bool := do
  let byte ← u8
  pure (byte != 0)

def pubkey (w : Encoding) : BorshReader Pubkey := do
  let bytes ← take 32
  pure (w.decode bytes)

def optionPubkey (w : Encoding) : BorshReader (Option Pubkey) := do
  let tag ← u8
  if tag = 0 then pure none else some <$> pubkey w

def optionU16 : BorshReader (Option ℕ) := do
  let tag ← u8
  if tag = 0 then pure none else some <$> u16

/-- `u32` byte-length prefix, then UTF-8 bytes. -/
def string (replaced : Bytes → JsString) : BorshReader JsString := do
  let len ← u32
  let bytes ← take len
  pure (JsString.ofBuffer replaced bytes)

def arrayU64 (len : ℕ) : BorshReader (List ℕ) := times u64 len

def arrayU32 (len : ℕ) : BorshReader (List ℕ) := times u32 len

/-- An opaque `[u8; N]`. -/
def bytes (n : ℕ) : BorshReader Bytes := take n

def assertConsumed : BorshReader Unit := fun r =>
  if r.offset = r.buf.length then .ok ((), r) else .error (.unconsumed (r.buf.length - r.offset))

def tagged {α : Type} (name : String) (table : List α) : BorshReader α := do
  let tag ← u8
  match table[tag]? with
  | some value => pure value
  | none => throw (.unknownTag name tag)

end BorshReader

open BorshReader

namespace Decoders

def POSITION_STATE_BY_TAG : List PositionState :=
  [.pending, .active, .closedBelowFloor, .rejected, .seized]

def ROLL_OUTCOME_BY_TAG : List RollOutcome := [.none, .realCard, .blank]

def BATCH_STATE_BY_TAG : List BatchState := [.committed, .resolved, .recovered, .complete]

def ROLL_STATUS_BY_TAG : List RollStatus := [.pending, .settled, .refunded]

def decodePositionState : BorshReader PositionState := tagged "PositionState" POSITION_STATE_BY_TAG

def decodeRollOutcome : BorshReader RollOutcome := tagged "RollOutcome" ROLL_OUTCOME_BY_TAG

def decodeBatchState : BorshReader BatchState := tagged "BatchState" BATCH_STATE_BY_TAG

def decodeRollStatus : BorshReader RollStatus := tagged "RollStatus" ROLL_STATUS_BY_TAG

variable (w : Encoding)

def checkAccountDiscriminator (data : Bytes) (name : AccountType) : Except DecodeError Cursor := do
  let actual := data.take 8
  let expected := w.discriminator name
  require (actual = expected) (.discriminator name actual expected)
  pure ⟨data.drop 8, 0⟩

/-- The shape of every decoder: the discriminator, the fields, and nothing after them. -/
def decodeAccount {α : Type} (name : AccountType) (fields : BorshReader α) (data : Bytes) :
    Except DecodeError α := do
  let r ← checkAccountDiscriminator w data name
  let (record, r) ← fields r
  let _ ← assertConsumed r
  pure record

-- ---------------------------------------------------------------------------
-- Accounts
-- ---------------------------------------------------------------------------

def decodeProtocolConfig : Bytes → Except DecodeError ProtocolConfig :=
  decodeAccount w .protocolConfig do
    let administrator ← pubkey w
    let pendingAdministrator ← pubkey w
    let pendingOperator ← pubkey w
    let pendingT03Authority ← pubkey w
    let pendingT02Authority ← pubkey w
    let operator ← pubkey w
    let t03Authority ← pubkey w
    let t02Authority ← pubkey w
    let protocolRevenue ← pubkey w
    let usdcMint ← pubkey w
    let byeMint ← pubkey w
    let vrfProgram ← pubkey w
    let oracleQueue ← pubkey w
    let swapPool ← pubkey w
    let maxSwapSlippageBps ← u16
    let poolCounter ← u16
    let bump ← u8
    pure {
      administrator, pendingAdministrator, pendingOperator, pendingT03Authority
      pendingT02Authority, operator, t03Authority, t02Authority, protocolRevenue, usdcMint, byeMint
      vrfProgram, oracleQueue, swapPool, maxSwapSlippageBps, poolCounter, bump }

def decodePool : Bytes → Except DecodeError Pool :=
  decodeAccount w .pool do
    let poolId ← u16
    let weightIndex ← pubkey w
    let treasury03 ← pubkey w
    let price ← u64
    let ticketTarget ← u64
    let fee ← u64
    let allocEqualBps ← u16
    let allocTierBps ← u16
    let allocProtocolBps ← u16
    let admissionFloor ← u64
    let admissionCeiling ← u64
    let walletValueCap ← u64
    let maxN ← u8
    let buybackRateBps ← u16
    let blankFaces ← triple u64
    let t04Ceiling ← u64
    let sweepCadenceHours ← u16
    let tierSize ← u8
    let depositsPaused ← bool
    let rollsPaused ← bool
    let pauseReason ← u16
    let nReal ← u32
    let blanks ← triple u32
    let wReal ← u128
    let openBatches ← u32
    let batchCounter ← u64
    let positionCounter ← u64
    let pendingRollLiability ← u64
    let owedFees ← u64
    let accEqual ← u128
    let sweepPending ← bool
    let sweepEpoch ← u64
    let lastSweepAt ← i64
    let sweepUpdates ← u32
    let bump ← u8
    pure {
      poolId, weightIndex, treasury03, price, ticketTarget, fee, allocEqualBps, allocTierBps
      allocProtocolBps, admissionFloor, admissionCeiling, walletValueCap, maxN, buybackRateBps
      blankFaces, t04Ceiling, sweepCadenceHours, tierSize, depositsPaused, rollsPaused, pauseReason
      nReal, blanks, wReal, openBatches, batchCounter, positionCounter, pendingRollLiability
      owedFees, accEqual, sweepPending, sweepEpoch, lastSweepAt, sweepUpdates, bump }

def decodePosition : Bytes → Except DecodeError Position :=
  decodeAccount w .position do
    let pool ← pubkey w
    let depositor ← pubkey w
    let nftMint ← pubkey w
    let positionId ← u64
    let state ← decodePositionState
    let recordedValue ← u64
    let valueObservedAt ← i64
    let depositValue ← u64
    let slotIndex ← u32
    let activatedAt ← i64
    let equalCheckpoint ← u128
    let accrued ← u64
    let inTier ← bool
    let tierCheckpoint ← u128
    let lockUntil ← i64
    let rejectReason ← u16
    let standard ← u8
    let bump ← u8
    let vaultBump ← u8
    pure {
      pool, depositor, nftMint, positionId, state, recordedValue, valueObservedAt, depositValue
      slotIndex, activatedAt, equalCheckpoint, accrued, inTier, tierCheckpoint, lockUntil
      rejectReason, standard, bump, vaultBump }

def decodePoolCollection : Bytes → Except DecodeError PoolCollection :=
  decodeAccount w .poolCollection do
    let pool ← pubkey w
    let collection ← pubkey w
    let standards ← u8
    let admittedAt ← i64
    let bump ← u8
    pure { pool, collection, standards, admittedAt, bump }

def decodeWalletStats : Bytes → Except DecodeError WalletStats :=
  decodeAccount w .walletStats do
    let pool ← pubkey w
    let owner ← pubkey w
    let activePositions ← u32
    let activeValue ← u64
    let bump ← u8
    pure { pool, owner, activePositions, activeValue, bump }

def decodeTierEntry : BorshReader TierEntry := do
  let position ← pubkey w
  let value ← u64
  let activatedAt ← i64
  let positionId ← u64
  pure { position, value, activatedAt, positionId }

def TOP_TIER_CAPACITY : ℕ := 20

/-- Only `entries[0..len]`: the slots past `len` are stale. -/
structure TopTier where
  pool : Pubkey
  len : ℕ
  entries : List TierEntry
  accTier : ℕ
  bump : ℕ

def decodeTopTier : Bytes → Except DecodeError TopTier :=
  decodeAccount w .topTier do
    let pool ← pubkey w
    let len ← u8
    let _ ← (if TOP_TIER_CAPACITY < len then throw (.tierLength len TOP_TIER_CAPACITY) else pure () :
      BorshReader Unit)
    let allEntries ← times (decodeTierEntry w) TOP_TIER_CAPACITY
    let accTier ← u128
    let bump ← u8
    pure { pool, len, entries := allEntries.take len, accTier, bump }

def decodeRollRecord : BorshReader RollRecord := do
  let status ← decodeRollStatus
  let outcome ← decodeRollOutcome
  let selectedMint ← pubkey w
  let blankFaceIdx ← u8
  let drawValue ← u128
  let attempts ← u8
  let wAtDraw ← u128
  let nRealAtDraw ← u32
  let blanksAtDraw ← triple u32
  let refundReason ← u16
  pure {
    status, outcome, selectedMint, blankFaceIdx, drawValue, attempts, wAtDraw, nRealAtDraw
    blanksAtDraw, refundReason }

def ROLL_BATCH_CAPACITY : ℕ := 10

/-- `callerSeed` and `randomness` stay raw bytes. -/
structure RollBatch where
  pool : Pubkey
  roller : Pubkey
  batchId : ℕ
  state : BatchState
  n : ℕ
  nextRoll : ℕ
  settled : ℕ
  refunded : ℕ
  requestSlot : ℕ
  callerSeed : Bytes
  randomness : Bytes
  expectedW : ℕ
  expectedBlanks : Denomination → ℕ
  sPrice : ℕ
  sTicket : ℕ
  sFee : ℕ
  sAllocBps : Fin 3 → ℕ
  sBlankFaces : Denomination → ℕ
  rolls : List RollRecord
  bump : ℕ

def decodeRollBatch : Bytes → Except DecodeError RollBatch :=
  decodeAccount w .rollBatch do
    let pool ← pubkey w
    let roller ← pubkey w
    let batchId ← u64
    let state ← decodeBatchState
    let n ← u8
    let nextRoll ← u8
    let settled ← u8
    let refunded ← u8
    let requestSlot ← u64
    let callerSeed ← bytes 32
    let randomness ← bytes 32
    let expectedW ← u128
    let expectedBlanks ← triple u32
    let sPrice ← u64
    let sTicket ← u64
    let sFee ← u64
    let sAllocBps ← triple u16
    let sBlankFaces ← triple u64
    let rolls ← times (decodeRollRecord w) ROLL_BATCH_CAPACITY
    let bump ← u8
    pure {
      pool, roller, batchId, state, n, nextRoll, settled, refunded, requestSlot, callerSeed
      randomness, expectedW, expectedBlanks, sPrice, sTicket, sFee, sAllocBps, sBlankFaces, rolls
      bump }

-- ---------------------------------------------------------------------------
-- The weight index
-- ---------------------------------------------------------------------------

structure WeightIndex where
  pool : Pubkey
  totalWeight : ℕ
  highWater : ℕ
  freeCount : ℕ
  tree : List ℕ
  freeStack : List ℕ

def WI_TOTAL_WEIGHT_OFFSET : ℕ := 32

def WI_HIGH_WATER_OFFSET : ℕ := 40

def WI_FREE_COUNT_OFFSET : ℕ := 44

def WI_TREE_OFFSET : ℕ := 56

def WI_FREE_STACK_OFFSET : ℕ := WI_TREE_OFFSET + 8 * FENWICK_CAPACITY

def WI_STRUCT_SIZE : ℕ := WI_FREE_STACK_OFFSET + 4 * FENWICK_CAPACITY

def WI_ACCOUNT_SIZE : ℕ := 8 + WI_STRUCT_SIZE

/-- `body.readBigUInt64LE(offset)` and `body.readUInt32LE(offset)`. -/
def readUInt (n : ℕ) (body : Bytes) (offset : ℕ) : Except DecodeError ℕ := do
  let bytes ← okOr (body.window offset n) .outOfRange
  pure (Bytes.leNat bytes)

def decodeWeightIndex (data : Bytes) : Except DecodeError WeightIndex := do
  let actual := data.take 8
  let expected := w.discriminator .weightIndex
  require (actual = expected) (.discriminator .weightIndex actual expected)
  require (data.length = WI_ACCOUNT_SIZE) (.size WI_ACCOUNT_SIZE data.length)
  let body := data.drop 8
  let pool := w.decode (body.take 32)
  let totalWeight ← readUInt 8 body WI_TOTAL_WEIGHT_OFFSET
  let highWater ← readUInt 4 body WI_HIGH_WATER_OFFSET
  let freeCount ← readUInt 4 body WI_FREE_COUNT_OFFSET
  let tree ← (List.range FENWICK_CAPACITY).mapM fun i => readUInt 8 body (WI_TREE_OFFSET + i * 8)
  let freeStack ← (List.range FENWICK_CAPACITY).mapM fun i =>
    readUInt 4 body (WI_FREE_STACK_OFFSET + i * 4)
  pure { pool, totalWeight, highWater, freeCount, tree, freeStack }

end Decoders

end ByeMachine
