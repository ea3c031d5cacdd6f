import ByeMachine.Base.Bytes
import ByeMachine.State.Accounts
import ByeMachine.State.WeightIndex

/-!
# Account layout

What a reader off the chain finds in an account: the 8-byte discriminator of its
type, then its fields in Borsh, in declaration order. Addresses and
discriminators are what an encoding makes them. A record fits when each field is
a value of the type that the source declares it with.
-/

namespace ByeMachine

open Bytes

inductive AccountType where
  | protocolConfig | pool | weightIndex | topTier | position | walletStats | poolCollection
  | rollBatch
  deriving DecidableEq, Repr

/-- How addresses are written, and each account type's discriminator. -/
structure Encoding where
  encode : Pubkey → Bytes
  decode : Bytes → Pubkey
  discriminator : AccountType → Bytes
  length_encode : ∀ key, (encode key).length = 32
  length_discriminator : ∀ type, (discriminator type).length = 8
  discriminator_injective : Function.Injective discriminator

namespace Encoding

variable (w : Encoding)

def Faithful (key : Pubkey) : Prop := w.decode (w.encode key) = key

theorem encode_injOn {a b : Pubkey} (ha : w.Faithful a) (hb : w.Faithful b)
    (h : w.encode a = w.encode b) : a = b := by
  rw [← ha, ← hb, h]

end Encoding

variable (w : Encoding)

-- ---------------------------------------------------------------------------
-- Fields in order
-- ---------------------------------------------------------------------------

/-- The declaration index. -/
def PositionState.byte : PositionState → UInt8
  | .pending => 0
  | .active => 1
  | .closedBelowFloor => 2
  | .rejected => 3
  | .seized => 4

def BatchState.byte : BatchState → UInt8
  | .committed => 0
  | .resolved => 1
  | .recovered => 2
  | .complete => 3

def RollStatus.byte : RollStatus → UInt8
  | .pending => 0
  | .settled => 1
  | .refunded => 2

def RollOutcome.byte : RollOutcome → UInt8
  | .none => 0
  | .realCard => 1
  | .blank => 2

def boolByte (b : Bool) : UInt8 := if b then 1 else 0

def ProtocolConfig.fields (c : ProtocolConfig) : List Bytes :=
  [w.discriminator .protocolConfig, w.encode c.administrator, w.encode c.pendingAdministrator,
    w.encode c.pendingOperator, w.encode c.pendingT03Authority, w.encode c.pendingT02Authority,
    w.encode c.operator, w.encode c.t03Authority, w.encode c.t02Authority,
    w.encode c.protocolRevenue, w.encode c.usdcMint, w.encode c.byeMint, w.encode c.vrfProgram,
    w.encode c.oracleQueue, w.encode c.swapPool, leBytes 2 c.maxSwapSlippageBps,
    leBytes 2 c.poolCounter, leBytes 1 c.bump]

def ProtocolConfig.bytes (c : ProtocolConfig) : Bytes := (c.fields w).flatten

def Position.fields (p : Position) : List Bytes :=
  [w.discriminator .position, w.encode p.pool, w.encode p.depositor, w.encode p.nftMint,
    leBytes 8 p.positionId, [p.state.byte], leBytes 8 p.recordedValue, i64Bytes p.valueObservedAt,
    leBytes 8 p.depositValue, leBytes 4 p.slotIndex, i64Bytes p.activatedAt,
    leBytes 16 p.equalCheckpoint, leBytes 8 p.accrued, [boolByte p.inTier],
    leBytes 16 p.tierCheckpoint, i64Bytes p.lockUntil, leBytes 2 p.rejectReason,
    leBytes 1 p.standard, leBytes 1 p.bump, leBytes 1 p.vaultBump]

def Position.bytes (p : Position) : Bytes := (p.fields w).flatten

def TierEntry.fields (e : TierEntry) : List Bytes :=
  [w.encode e.position, leBytes 8 e.value, i64Bytes e.activatedAt, leBytes 8 e.positionId]

def TopTier.fields (t : TopTier) : List Bytes :=
  [w.discriminator .topTier, w.encode t.pool, leBytes 1 t.len] ++
    (List.ofFn t.entries).flatMap (TierEntry.fields w) ++ [leBytes 16 t.accTier, leBytes 1 t.bump]

def TopTier.bytes (t : TopTier) : Bytes := (t.fields w).flatten

/-- A count or an amount for each of the three denominations. -/
def blankFields (n : ℕ) (f : Denomination → ℕ) : List Bytes := List.ofFn fun d => leBytes n (f d)

def Pool.configFields (p : Pool) : List Bytes :=
  [w.discriminator .pool, leBytes 2 p.poolId, w.encode p.weightIndex, w.encode p.treasury03,
    leBytes 8 p.price, leBytes 8 p.ticketTarget, leBytes 8 p.fee, leBytes 2 p.allocEqualBps,
    leBytes 2 p.allocTierBps, leBytes 2 p.allocProtocolBps, leBytes 8 p.admissionFloor,
    leBytes 8 p.admissionCeiling, leBytes 8 p.walletValueCap, leBytes 1 p.maxN,
    leBytes 2 p.buybackRateBps] ++ blankFields 8 p.blankFaces ++
    [leBytes 8 p.t04Ceiling, leBytes 2 p.sweepCadenceHours]

def Pool.liveFields (p : Pool) : List Bytes :=
  [leBytes 1 p.tierSize, [boolByte p.depositsPaused], [boolByte p.rollsPaused],
    leBytes 2 p.pauseReason, leBytes 4 p.nReal] ++ blankFields 4 p.blanks ++
    [leBytes 16 p.wReal, leBytes 4 p.openBatches, leBytes 8 p.batchCounter,
      leBytes 8 p.positionCounter, leBytes 8 p.pendingRollLiability, leBytes 8 p.owedFees,
      leBytes 16 p.accEqual, [boolByte p.sweepPending], leBytes 8 p.sweepEpoch,
      i64Bytes p.lastSweepAt, leBytes 4 p.sweepUpdates, leBytes 1 p.bump]

def Pool.bytes (p : Pool) : Bytes := (p.configFields w ++ p.liveFields).flatten

def WalletStats.fields (s : WalletStats) : List Bytes :=
  [w.discriminator .walletStats, w.encode s.pool, w.encode s.owner, leBytes 4 s.activePositions,
    leBytes 8 s.activeValue, leBytes 1 s.bump]

def WalletStats.bytes (s : WalletStats) : Bytes := (s.fields w).flatten

def PoolCollection.fields (c : PoolCollection) : List Bytes :=
  [w.discriminator .poolCollection, w.encode c.pool, w.encode c.collection, leBytes 1 c.standards,
    i64Bytes c.admittedAt, leBytes 1 c.bump]

def PoolCollection.bytes (c : PoolCollection) : Bytes := (c.fields w).flatten

def RollRecord.fields (r : RollRecord) : List Bytes :=
  [[r.status.byte], [r.outcome.byte], w.encode r.selectedMint, leBytes 1 r.blankFaceIdx,
    leBytes 16 r.drawValue, leBytes 1 r.attempts, leBytes 16 r.wAtDraw, leBytes 4 r.nRealAtDraw] ++
    blankFields 4 r.blanksAtDraw ++ [leBytes 2 r.refundReason]

def RollBatch.headFields (b : RollBatch) : List Bytes :=
  [w.discriminator .rollBatch, w.encode b.pool, w.encode b.roller, leBytes 8 b.batchId,
    [b.state.byte], leBytes 1 b.n, leBytes 1 b.nextRoll, leBytes 1 b.settled, leBytes 1 b.refunded,
    leBytes 8 b.requestSlot, w.encode b.callerSeed, leBytes 32 b.randomness,
    leBytes 16 b.expectedW] ++ blankFields 4 b.expectedBlanks ++
    [leBytes 8 b.sPrice, leBytes 8 b.sTicket, leBytes 8 b.sFee] ++ blankFields 2 b.sAllocBps ++
    blankFields 8 b.sBlankFaces

def RollBatch.fields (b : RollBatch) : List Bytes :=
  b.headFields w ++ (List.ofFn b.rolls).flatMap (RollRecord.fields w) ++ [leBytes 1 b.bump]

def RollBatch.bytes (b : RollBatch) : Bytes := (b.fields w).flatten

/-- The fields before the arrays. `repr(C)` pads nothing: each starts at a multiple of its width. -/
def WeightIndex.headFields (x : WeightIndex) (padding : Bytes) : List Bytes :=
  [w.encode x.pool, leBytes 8 x.slots.totalWeight, leBytes 4 x.slots.highWater,
    leBytes 4 x.slots.freeCount, padding]

/-- The zero-copy account: its memory, with whatever its padding holds. -/
def WeightIndex.bytes (x : WeightIndex) (padding : Bytes) : Bytes :=
  w.discriminator .weightIndex ++ (x.headFields w padding ++
    (List.ofFn fun i => leBytes 8 (x.slots.tree i)) ++
    List.ofFn fun i => leBytes 4 (x.slots.freeStack i)).flatten

-- ---------------------------------------------------------------------------
-- Values of the declared types
-- ---------------------------------------------------------------------------

def FitsI64 (value : ℤ) : Prop := -2 ^ 63 ≤ value ∧ value < 2 ^ 63

structure ProtocolConfig.Fits (c : ProtocolConfig) : Prop where
  administrator : w.Faithful c.administrator
  pendingAdministrator : w.Faithful c.pendingAdministrator
  pendingOperator : w.Faithful c.pendingOperator
  pendingT03Authority : w.Faithful c.pendingT03Authority
  pendingT02Authority : w.Faithful c.pendingT02Authority
  operator : w.Faithful c.operator
  t03Authority : w.Faithful c.t03Authority
  t02Authority : w.Faithful c.t02Authority
  protocolRevenue : w.Faithful c.protocolRevenue
  usdcMint : w.Faithful c.usdcMint
  byeMint : w.Faithful c.byeMint
  vrfProgram : w.Faithful c.vrfProgram
  oracleQueue : w.Faithful c.oracleQueue
  swapPool : w.Faithful c.swapPool
  maxSwapSlippageBps : c.maxSwapSlippageBps < 2 ^ 16
  poolCounter : c.poolCounter < 2 ^ 16
  bump : c.bump < 2 ^ 8

structure Pool.Fits (p : Pool) : Prop where
  poolId : p.poolId < 2 ^ 16
  weightIndex : w.Faithful p.weightIndex
  treasury03 : w.Faithful p.treasury03
  price : p.price < 2 ^ 64
  ticketTarget : p.ticketTarget < 2 ^ 64
  fee : p.fee < 2 ^ 64
  allocEqualBps : p.allocEqualBps < 2 ^ 16
  allocTierBps : p.allocTierBps < 2 ^ 16
  allocProtocolBps : p.allocProtocolBps < 2 ^ 16
  admissionFloor : p.admissionFloor < 2 ^ 64
  admissionCeiling : p.admissionCeiling < 2 ^ 64
  walletValueCap : p.walletValueCap < 2 ^ 64
  maxN : p.maxN < 2 ^ 8
  buybackRateBps : p.buybackRateBps < 2 ^ 16
  blankFaces : ∀ d, p.blankFaces d < 2 ^ 64
  t04Ceiling : p.t04Ceiling < 2 ^ 64
  sweepCadenceHours : p.sweepCadenceHours < 2 ^ 16
  tierSize : p.tierSize < 2 ^ 8
  pauseReason : p.pauseReason < 2 ^ 16
  nReal : p.nReal < 2 ^ 32
  blanks : ∀ d, p.blanks d < 2 ^ 32
  wReal : p.wReal < 2 ^ 128
  openBatches : p.openBatches < 2 ^ 32
  batchCounter : p.batchCounter < 2 ^ 64
  positionCounter : p.positionCounter < 2 ^ 64
  pendingRollLiability : p.pendingRollLiability < 2 ^ 64
  owedFees : p.owedFees < 2 ^ 64
  accEqual : p.accEqual < 2 ^ 128
  sweepEpoch : p.sweepEpoch < 2 ^ 64
  lastSweepAt : FitsI64 p.lastSweepAt
  sweepUpdates : p.sweepUpdates < 2 ^ 32
  bump : p.bump < 2 ^ 8

structure Position.Fits (p : Position) : Prop where
  pool : w.Faithful p.pool
  depositor : w.Faithful p.depositor
  nftMint : w.Faithful p.nftMint
  positionId : p.positionId < 2 ^ 64
  recordedValue : p.recordedValue < 2 ^ 64
  valueObservedAt : FitsI64 p.valueObservedAt
  depositValue : p.depositValue < 2 ^ 64
  slotIndex : p.slotIndex < 2 ^ 32
  activatedAt : FitsI64 p.activatedAt
  equalCheckpoint : p.equalCheckpoint < 2 ^ 128
  accrued : p.accrued < 2 ^ 64
  tierCheckpoint : p.tierCheckpoint < 2 ^ 128
  lockUntil : FitsI64 p.lockUntil
  rejectReason : p.rejectReason < 2 ^ 16
  standard : p.standard < 2 ^ 8
  bump : p.bump < 2 ^ 8
  vaultBump : p.vaultBump < 2 ^ 8

/-- An entry that the fields' widths hold, at an address that reads back. -/
structure TierEntry.Fits (e : TierEntry) : Prop where
  position : w.Faithful e.position
  value : e.value < 2 ^ 64
  activatedAt : -2 ^ 63 ≤ e.activatedAt ∧ e.activatedAt < 2 ^ 63
  positionId : e.positionId < 2 ^ 64

structure TopTier.Fits (t : TopTier) : Prop where
  pool : w.Faithful t.pool
  len : t.len < 2 ^ 8
  entries : ∀ i, (t.entries i).Fits w
  accTier : t.accTier < 2 ^ 128
  bump : t.bump < 2 ^ 8

structure WalletStats.Fits (s : WalletStats) : Prop where
  pool : w.Faithful s.pool
  owner : w.Faithful s.owner
  activePositions : s.activePositions < 2 ^ 32
  activeValue : s.activeValue < 2 ^ 64
  bump : s.bump < 2 ^ 8

structure PoolCollection.Fits (c : PoolCollection) : Prop where
  pool : w.Faithful c.pool
  collection : w.Faithful c.collection
  standards : c.standards < 2 ^ 8
  admittedAt : FitsI64 c.admittedAt
  bump : c.bump < 2 ^ 8

structure RollRecord.Fits (r : RollRecord) : Prop where
  selectedMint : w.Faithful r.selectedMint
  blankFaceIdx : r.blankFaceIdx < 2 ^ 8
  drawValue : r.drawValue < 2 ^ 128
  attempts : r.attempts < 2 ^ 8
  wAtDraw : r.wAtDraw < 2 ^ 128
  nRealAtDraw : r.nRealAtDraw < 2 ^ 32
  blanksAtDraw : ∀ d, r.blanksAtDraw d < 2 ^ 32
  refundReason : r.refundReason < 2 ^ 16

structure RollBatch.Fits (b : RollBatch) : Prop where
  pool : w.Faithful b.pool
  roller : w.Faithful b.roller
  batchId : b.batchId < 2 ^ 64
  n : b.n < 2 ^ 8
  nextRoll : b.nextRoll < 2 ^ 8
  settled : b.settled < 2 ^ 8
  refunded : b.refunded < 2 ^ 8
  requestSlot : b.requestSlot < 2 ^ 64
  randomness : b.randomness < 2 ^ 256
  expectedW : b.expectedW < 2 ^ 128
  expectedBlanks : ∀ d, b.expectedBlanks d < 2 ^ 32
  sPrice : b.sPrice < 2 ^ 64
  sTicket : b.sTicket < 2 ^ 64
  sFee : b.sFee < 2 ^ 64
  sAllocBps : ∀ i, b.sAllocBps i < 2 ^ 16
  sBlankFaces : ∀ d, b.sBlankFaces d < 2 ^ 64
  rolls : ∀ i, (b.rolls i).Fits w
  bump : b.bump < 2 ^ 8

structure WeightIndex.Fits (x : WeightIndex) : Prop where
  pool : w.Faithful x.pool
  totalWeight : x.slots.totalWeight < 2 ^ 64
  highWater : x.slots.highWater < 2 ^ 32
  freeCount : x.slots.freeCount < 2 ^ 32
  tree : ∀ i, x.slots.tree i < 2 ^ 64
  freeStack : ∀ i, x.slots.freeStack i < 2 ^ 32

end ByeMachine
