import ByeMachine.Common.Escrow
import ByeMachine.Common.CoreAsset
import ByeMachine.Common.Guards
import ByeMachine.Common.Tier

/-!
# The ledger

The accounts an instruction can reach, by address and type, and the account
checks Anchor makes before a handler runs. An address the accounts struct pins
(by seeds, by `address =`, by a stored bump) is read at that address: a
transaction that names another is refused and changes nothing. The accounts a
caller does choose are the instruction's arguments.

A named account is read once, before the handler, and written back after it; an
account among the remaining ones is read and written where the handler does it.
-/

namespace ByeMachine

open Fallible

structure Chain where
  protocolConfig : Option ProtocolConfig
  pools : Store Pubkey Pool
  weightIndexes : Store Pubkey WeightIndex
  topTiers : Store Pubkey TopTier
  positions : Positions
  walletStats : Store Pubkey WalletStats
  poolCollections : Store Pubkey PoolCollection
  rollBatches : Store Pubkey RollBatch
  tokens : Tokens
  externals : Externals

structure Clock where
  slot : ℕ
  unixTimestamp : ℤ
  deriving DecidableEq, Repr

/-- What a handler leaves: the ledger and the events it published. -/
abbrev Outcome := Result (Chain × List Event)

namespace Chain

variable (c : Chain)

def loadConfig : Result ProtocolConfig :=
  okOr c.protocolConfig (.anchor .accountNotInitialized)

/-- `seeds = [POOL_SEED, pool.pool_id]`. -/
def loadPool (key : Pubkey) : Result Pool := do
  let pool ← okOr (c.pools.lookup key) (.anchor .accountNotInitialized)
  require (key = .pool pool.poolId) (.anchor .constraintSeeds)
  pure pool

/-- `seeds = [POSITION_SEED, pool, position.nft_mint]`. -/
def loadPositionOf (pool key : Pubkey) : Result Position := do
  let position ← loadPosition c.positions key
  require (key = .position pool position.nftMint) (.anchor .constraintSeeds)
  pure position

/-- `seeds = [POSITION_SEED, position.pool, position.nft_mint]`. -/
def loadOwnPosition (key : Pubkey) : Result Position := do
  let position ← loadPosition c.positions key
  require (key = .position position.pool position.nftMint) (.anchor .constraintSeeds)
  pure position

def loadWeightIndex (key : Pubkey) : Result WeightIndex :=
  okOr (c.weightIndexes.lookup key) (.anchor .accountNotInitialized)

def loadTopTier (pool : Pubkey) : Result TopTier :=
  okOr (c.topTiers.lookup (.topTier pool)) (.anchor .accountNotInitialized)

def loadWalletStats (pool owner : Pubkey) : Result WalletStats :=
  okOr (c.walletStats.lookup (.walletStats pool owner)) (.anchor .accountNotInitialized)

def loadMint (X : Programs) (key : Pubkey) : Result Unit :=
  require (X.isMint (c.externals key)) (.anchor .accountNotInitialized)

end Chain

/-- The accounts of an instruction that binds all five through the pool it names. -/
structure Loaded where
  pool : Pool
  position : Position
  weightIndex : WeightIndex
  topTier : TopTier
  walletStats : WalletStats

def loadThroughPool (c : Chain) (poolKey positionKey : Pubkey) : Result Loaded := do
  let pool ← c.loadPool poolKey
  let position ← c.loadPositionOf poolKey positionKey
  let weightIndex ← c.loadWeightIndex pool.weightIndex
  let topTier ← c.loadTopTier poolKey
  let walletStats ← c.loadWalletStats poolKey position.depositor
  pure { pool, position, weightIndex, topTier, walletStats }

def requireSigner (key : Pubkey) : Result Unit := require key.canSign (.anchor .constraintSigner)

def loadForAdministrator (c : Chain) (administrator : Pubkey) : Result ProtocolConfig := do
  requireSigner administrator
  let config ← c.loadConfig
  require (administrator = config.administrator) (.program .unauthorized)
  pure config

def loadForOperator (c : Chain) (operator : Pubkey) : Result ProtocolConfig := do
  requireSigner operator
  let config ← c.loadConfig
  require (operator = config.operator) (.program .unauthorized)
  pure config

end ByeMachine
