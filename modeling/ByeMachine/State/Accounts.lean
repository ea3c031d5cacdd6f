import ByeMachine.Common.Seeds

/-!
# Account state

The program's accounts, field for field, apart from their bytes; a fixed
array is a function from its index type.
-/

namespace ByeMachine

/-- Singleton protocol-wide configuration. Seeds: `[PROTOCOL_CONFIG_SEED]`. -/
structure ProtocolConfig where
  administrator : Pubkey
  pendingAdministrator : Pubkey
  pendingOperator : Pubkey
  pendingT03Authority : Pubkey
  pendingT02Authority : Pubkey
  operator : Pubkey
  t03Authority : Pubkey
  t02Authority : Pubkey
  protocolRevenue : Pubkey
  usdcMint : Pubkey
  byeMint : Pubkey
  vrfProgram : Pubkey
  oracleQueue : Pubkey
  swapPool : Pubkey
  maxSwapSlippageBps : ℕ
  poolCounter : ℕ
  bump : ℕ

/-- A single pool's config, live counters, and accrual state. Seeds: `[POOL_SEED, pool_id]`. -/
structure Pool where
  poolId : ℕ
  weightIndex : Pubkey
  treasury03 : Pubkey
  price : ℕ
  ticketTarget : ℕ
  fee : ℕ
  allocEqualBps : ℕ
  allocTierBps : ℕ
  allocProtocolBps : ℕ
  admissionFloor : ℕ
  admissionCeiling : ℕ
  walletValueCap : ℕ
  maxN : ℕ
  buybackRateBps : ℕ
  blankFaces : Denomination → ℕ
  t04Ceiling : ℕ
  sweepCadenceHours : ℕ
  tierSize : ℕ
  depositsPaused : Bool
  rollsPaused : Bool
  pauseReason : ℕ
  nReal : ℕ
  blanks : Denomination → ℕ
  wReal : ℕ
  openBatches : ℕ
  batchCounter : ℕ
  positionCounter : ℕ
  pendingRollLiability : ℕ
  owedFees : ℕ
  accEqual : ℕ
  sweepPending : Bool
  sweepEpoch : ℕ
  lastSweepAt : ℤ
  sweepUpdates : ℕ
  bump : ℕ

inductive PositionState where
  | pending | active | closedBelowFloor | rejected | seized
  deriving DecidableEq, Repr

/-- One deposited NFT's custody and accrual record. Seeds: `[POSITION_SEED, pool, nft_mint]`. -/
structure Position where
  pool : Pubkey
  depositor : Pubkey
  nftMint : Pubkey
  positionId : ℕ
  state : PositionState
  recordedValue : ℕ
  valueObservedAt : ℤ
  depositValue : ℕ
  slotIndex : ℕ
  activatedAt : ℤ
  equalCheckpoint : ℕ
  accrued : ℕ
  inTier : Bool
  tierCheckpoint : ℕ
  lockUntil : ℤ
  rejectReason : ℕ
  standard : ℕ
  bump : ℕ
  vaultBump : ℕ
  deriving DecidableEq, Repr

/-- A single ranked slot in `TopTier.entries`. -/
structure TierEntry where
  position : Pubkey
  value : ℕ
  activatedAt : ℤ
  positionId : ℕ
  deriving DecidableEq, Repr

def MAX_TIER_SIZE : ℕ := 20

/-- Top-value ranking, sorted `value` desc, `activated_at` asc, `position_id` asc.
Seeds: `[TOP_TIER_SEED, pool]`. -/
structure TopTier where
  pool : Pubkey
  len : ℕ
  entries : Fin MAX_TIER_SIZE → TierEntry
  accTier : ℕ
  bump : ℕ

/-- Per-wallet, per-pool rollup of active positions. Seeds: `[WALLET_STATS_SEED, pool, owner]`. -/
structure WalletStats where
  pool : Pubkey
  owner : Pubkey
  activePositions : ℕ
  activeValue : ℕ
  bump : ℕ
  deriving DecidableEq, Repr

/-- One admitted collection's record. Seeds: `[COLLECTION_SEED, pool, collection]`. -/
structure PoolCollection where
  pool : Pubkey
  collection : Pubkey
  standards : ℕ
  admittedAt : ℤ
  bump : ℕ
  deriving DecidableEq, Repr

inductive BatchState where
  | committed | resolved | recovered | complete
  deriving DecidableEq, Repr

inductive RollStatus where
  | pending | settled | refunded
  deriving DecidableEq, Repr

inductive RollOutcome where
  | none | realCard | blank
  deriving DecidableEq, Repr

/-- One roll's commitment and result. -/
structure RollRecord where
  status : RollStatus
  outcome : RollOutcome
  selectedMint : Pubkey
  blankFaceIdx : ℕ
  drawValue : ℕ
  attempts : ℕ
  wAtDraw : ℕ
  nRealAtDraw : ℕ
  blanksAtDraw : Denomination → ℕ
  refundReason : ℕ

/-- One roll batch. Seeds: `[BATCH_SEED, pool, batch_id]`. The 32-byte `caller_seed` is a
public key's bytes; `randomness` is the 32 bytes read as one number. -/
structure RollBatch where
  pool : Pubkey
  roller : Pubkey
  batchId : ℕ
  state : BatchState
  n : ℕ
  nextRoll : ℕ
  settled : ℕ
  refunded : ℕ
  requestSlot : ℕ
  callerSeed : Pubkey
  randomness : ℕ
  expectedW : ℕ
  expectedBlanks : Denomination → ℕ
  sPrice : ℕ
  sTicket : ℕ
  sFee : ℕ
  sAllocBps : Fin 3 → ℕ
  sBlankFaces : Denomination → ℕ
  rolls : Fin MAX_BATCH_CAPACITY → RollRecord
  bump : ℕ

end ByeMachine
