import ByeMachine.Client.Encoders
import ByeMachine.Common.Wire
import ByeMachine.Exec

/-!
# The client's builders

`scripts/lib/anchor.ts`, from the PDA helpers on, and the builders of
`admin.ts`, `deposit.ts`, `value.ts`, `exit.ts`, `roll.ts` and `tier.ts`: one for
each instruction, with its arguments and its accounts in order. A `number` or a
`bigint` is any integer.
-/

namespace ByeMachine

inductive BuildError where
  | encode (error : EncodeError)
  /-- `update_config: at most 19 demoted positions, got …` -/
  | demoted (got : ℕ)
  deriving DecidableEq, Repr

namespace Builders

open BorshWriter Encoders

-- ---------------------------------------------------------------------------
-- `anchor.ts`
-- ---------------------------------------------------------------------------

def readonly (a : Pubkey) : InstructionMeta := ⟨a, .readonly⟩

def writable (a : Pubkey) : InstructionMeta := ⟨a, .writable⟩

def signer (a : Pubkey) : InstructionMeta := ⟨a, .readonlySigner⟩

def writableSigner (a : Pubkey) : InstructionMeta := ⟨a, .writableSigner⟩

def PROGRAM_ID : Pubkey := .program .byeMachine

/-- `null` is passed as the program's own id, never omitted. -/
def optionalAddress (address : Option Pubkey) : Pubkey := address.getD PROGRAM_ID

/-- An optional account that is written where it is present: a program may not be writable. -/
def optionalWritable : Option Pubkey → InstructionMeta
  | none => readonly (optionalAddress none)
  | some a => writable a

def optionalReadonly (address : Option Pubkey) : InstructionMeta :=
  readonly (optionalAddress address)

def buildAnchorIx (name : InstructionName) (args : Bytes) (accounts remaining : List InstructionMeta) :
    Instruction where
  programAddress := PROGRAM_ID
  accounts := accounts ++ remaining
  data := name.discriminator ++ args

/-- `new Borsh()…build()`. -/
def encode (args : BorshWriter Unit) : Except BuildError Bytes :=
  (Borsh.build args).mapError .encode

/-- `seedFromU16Le`: `writeUInt16LE` refuses what it does not hold. -/
def seedFromU16Le (n : ℤ) : Except BuildError ℕ :=
  if 0 ≤ n ∧ n < 2 ^ 16 then .ok n.toNat else .error (.encode .outOfRange)

def seedFromU64Le (n : ℤ) : Except BuildError ℕ :=
  if 0 ≤ n ∧ n < 2 ^ 64 then .ok n.toNat else .error (.encode .outOfRange)

/-- `derivePda([POOL_SEED, seedFromU16Le(poolId)])`. -/
def derivePool (poolId : ℤ) : Except BuildError Pubkey := do
  let id ← seedFromU16Le poolId
  pure (.pool id)

/-- `derivePda([BATCH_SEED, seedFromPubkey(pool), seedFromU64Le(batchId)])`. -/
def deriveBatch (pool : Pubkey) (batchId : ℤ) : Except BuildError Pubkey := do
  let id ← seedFromU64Le batchId
  pure (.rollBatch pool id)

def SYSTEM_PROGRAM : Pubkey := .default

def TOKEN_PROGRAM : Pubkey := .program .splToken

def TOKEN_METADATA_PROGRAM : Pubkey := .program .tokenMetadata

def MPL_CORE_PROGRAM : Pubkey := .program .mplCore

variable (w : Encoding) (X : Programs) (K : WellKnown)

-- ---------------------------------------------------------------------------
-- `admin.ts`
-- ---------------------------------------------------------------------------

def initProtocol (payer : Pubkey) (args : ProtocolConfigArgs) : Except BuildError Instruction := do
  let args ← encode do
    pubkey w args.operator
    pubkey w args.t03Authority
    pubkey w args.t02Authority
    pubkey w args.protocolRevenue
    pubkey w args.usdcMint
    pubkey w args.byeMint
    pubkey w args.vrfProgram
    pubkey w args.oracleQueue
    pubkey w args.swapPool
    u16 args.maxSwapSlippageBps
  pure (buildAnchorIx .initProtocol args
    [writableSigner payer, writable .protocolConfig, readonly SYSTEM_PROGRAM] [])

def initPool (administrator : Pubkey) (poolId : ℤ) (weightIndex usdcMint : Pubkey)
    (args : PoolConfigArgs) : Except BuildError Instruction := do
  let pool ← derivePool poolId
  let args ← (encodePoolConfigArgs w args).mapError .encode
  pure (buildAnchorIx .initPool args
    [writableSigner administrator, writable .protocolConfig, writable pool, writable weightIndex,
      writable (.topTier pool), writable (.principalVault pool), writable (.treasury04 pool),
      readonly usdcMint, readonly TOKEN_PROGRAM, readonly SYSTEM_PROGRAM] [])

def MAX_TIER_SIZE : ℕ := 20

def updateConfig (administrator : Pubkey) (poolId : ℤ) (update : ConfigUpdate)
    (demoted : List Pubkey) : Except BuildError Instruction := do
  if MAX_TIER_SIZE - 1 < demoted.length then throw (.demoted demoted.length)
  let pool ← derivePool poolId
  let args ← (encodeConfigUpdate update).mapError .encode
  pure (buildAnchorIx .updateConfig args
    [signer administrator, readonly .protocolConfig, writable pool, writable (.topTier pool)]
    (demoted.map writable))

def setPause (administrator : Pubkey) (poolId : ℤ) (deposits rolls : Bool) (reason : ℤ) :
    Except BuildError Instruction := do
  let pool ← derivePool poolId
  let args ← encode do bool deposits; bool rolls; u16 reason
  pure (buildAnchorIx .setPause args
    [signer administrator, readonly .protocolConfig, writable pool] [])

def updateVrfConfig (administrator vrfProgram oracleQueue swapPool : Pubkey) :
    Except BuildError Instruction := do
  let args ← encode do pubkey w vrfProgram; pubkey w oracleQueue; pubkey w swapPool
  pure (buildAnchorIx .updateVrfConfig args [signer administrator, writable .protocolConfig] [])

def admitCollection (administrator : Pubkey) (poolId : ℤ) (collection : Pubkey) (standards : ℤ)
    (reason : Option ℤ) : Except BuildError Instruction := do
  let pool ← derivePool poolId
  let args ← encode do pubkey w collection; u8 standards; optionU16 reason
  pure (buildAnchorIx .admitCollection args
    [writableSigner administrator, readonly .protocolConfig, readonly pool,
      writable (.poolCollection pool collection), readonly SYSTEM_PROGRAM] [])

def withdrawCollection (administrator : Pubkey) (poolId : ℤ) (collection : Pubkey) (reason : ℤ) :
    Except BuildError Instruction := do
  let pool ← derivePool poolId
  let args ← encode do pubkey w collection; u16 reason
  pure (buildAnchorIx .withdrawCollection args
    [writableSigner administrator, readonly .protocolConfig, readonly pool,
      writable (.poolCollection pool collection)] [])

def authorityRoleIndex : AuthorityRole → ℤ
  | .administrator => 0
  | .operator => 1
  | .t03 => 2
  | .t02 => 3

def setAuthorities (signerAddress : Pubkey) (role : AuthorityRole) (newAuthority : Option Pubkey) :
    Except BuildError Instruction := do
  let args ← encode do enumVariant (authorityRoleIndex role) []; optionPubkey w newAuthority
  pure (buildAnchorIx .setAuthorities args [signer signerAddress, writable .protocolConfig] [])

-- ---------------------------------------------------------------------------
-- `deposit.ts`
-- ---------------------------------------------------------------------------

def deposit (depositor : Pubkey) (poolId : ℤ)
    (collection nftMint depositorToken metadata masterEdition : Pubkey) (pnft : PnftRelease) :
    Except BuildError Instruction := do
  let pool ← derivePool poolId
  let position := Pubkey.position pool nftMint
  pure (buildAnchorIx .deposit []
    [writableSigner depositor, writable pool, readonly (.poolCollection pool collection),
      writable position, writable (.positionVault position),
      writable (.walletStats pool depositor), readonly nftMint, writable depositorToken,
      writable metadata, readonly masterEdition, optionalWritable pnft.depositorTokenRecord,
      optionalWritable pnft.positionTokenRecord, readonly TOKEN_METADATA_PROGRAM,
      optionalReadonly pnft.authorizationRulesProgram, optionalReadonly pnft.authorizationRules,
      optionalReadonly pnft.sysvarInstructions, readonly TOKEN_PROGRAM,
      readonly K.associatedTokenProgram, readonly SYSTEM_PROGRAM] [])

def depositCore (depositor : Pubkey) (poolId : ℤ) (collection asset : Pubkey) :
    Except BuildError Instruction := do
  let pool ← derivePool poolId
  let position := Pubkey.position pool asset
  pure (buildAnchorIx .depositCore []
    [writableSigner depositor, writable pool, readonly (.poolCollection pool collection),
      writable position, readonly (.positionVault position),
      writable (.walletStats pool depositor), writable asset, readonly collection,
      readonly MPL_CORE_PROGRAM, readonly SYSTEM_PROGRAM] [])

/-- What an activation or a promotion displaces, where it displaces anyone. -/
def displacedMetas (displaced : Option Pubkey) : List InstructionMeta :=
  displaced.toList.map writable

def approveDeposit (operator : Pubkey) (poolId : ℤ) (nftMint depositor weightIndex : Pubkey)
    (displaced : Option Pubkey) (value observedAt lockUntil : ℤ) :
    Except BuildError Instruction := do
  let pool ← derivePool poolId
  let args ← encode do u64 value; i64 observedAt; i64 lockUntil
  pure (buildAnchorIx .approveDeposit args
    [signer operator, readonly .protocolConfig, writable pool, writable (.position pool nftMint),
      writable weightIndex, writable (.topTier pool), writable (.walletStats pool depositor)]
    (displacedMetas displaced))

def rejectDeposit (operator pool nftMint : Pubkey) (reason : ℤ) :
    Except BuildError Instruction := do
  let args ← encode (u16 reason)
  pure (buildAnchorIx .rejectDeposit args
    [signer operator, readonly .protocolConfig, writable (.position pool nftMint)] [])

/-- The metas from `depositorToken` on, which the Token Metadata exits share. -/
def releaseMetas (a : ReleaseAccounts) : List InstructionMeta :=
  [writable a.depositorToken, writable a.metadata, readonly a.masterEdition,
    optionalWritable a.pnft.positionTokenRecord, optionalWritable a.pnft.depositorTokenRecord,
    readonly TOKEN_METADATA_PROGRAM, optionalReadonly a.pnft.authorizationRulesProgram,
    optionalReadonly a.pnft.authorizationRules, optionalReadonly a.pnft.sysvarInstructions,
    readonly TOKEN_PROGRAM, readonly K.associatedTokenProgram, readonly SYSTEM_PROGRAM]

def returnRejected (payer depositor pool nftMint : Pubkey) (a : ReleaseAccounts) :
    Except BuildError Instruction :=
  let position := Pubkey.position pool nftMint
  pure (buildAnchorIx .returnRejected []
    ([writableSigner payer, writable depositor, writable position,
      writable (.positionVault position), readonly nftMint] ++ releaseMetas K a) [])

def returnRejectedCore (payer depositor pool asset collection : Pubkey) :
    Except BuildError Instruction :=
  let position := Pubkey.position pool asset
  pure (buildAnchorIx .returnRejectedCore []
    [writableSigner payer, writable depositor, writable position,
      readonly (.positionVault position), writable asset, readonly collection,
      readonly MPL_CORE_PROGRAM, readonly SYSTEM_PROGRAM] [])

-- ---------------------------------------------------------------------------
-- `value.ts`
-- ---------------------------------------------------------------------------

def beginSweep (operator : Pubkey) (poolId : ℤ) : Except BuildError Instruction := do
  let pool ← derivePool poolId
  pure (buildAnchorIx .beginSweep []
    [signer operator, readonly .protocolConfig, writable pool] [])

def endSweep (operator : Pubkey) (poolId : ℤ) : Except BuildError Instruction := do
  let pool ← derivePool poolId
  pure (buildAnchorIx .endSweep []
    [signer operator, readonly .protocolConfig, writable pool] [])

inductive ValueEffect where
  | close (successor : Option Pubkey)
  | cross (displaced : Option Pubkey)
  deriving DecidableEq, Repr

def valueEffectRemaining : ValueEffect → List InstructionMeta
  | .close successor => successor.toList.map writable
  | .cross displaced => displaced.toList.map writable

def recordValue (operator : Pubkey) (poolId : ℤ) (nftMint depositor weightIndex : Pubkey)
    (value observedAt : ℤ) (effect : ValueEffect) : Except BuildError Instruction := do
  let pool ← derivePool poolId
  let args ← encode do u64 value; i64 observedAt
  pure (buildAnchorIx .recordValue args
    [signer operator, readonly .protocolConfig, writable pool, writable (.position pool nftMint),
      writable weightIndex, writable (.topTier pool), writable (.walletStats pool depositor)]
    (valueEffectRemaining effect))

-- ---------------------------------------------------------------------------
-- `exit.ts`
-- ---------------------------------------------------------------------------

def successorMetas (successor : Option Pubkey) : List InstructionMeta :=
  successor.toList.map writable

def withdraw (depositor : Pubkey) (poolId : ℤ) (nftMint weightIndex : Pubkey)
    (depositorUsdc : Option Pubkey) (a : ReleaseAccounts) (successor : Option Pubkey) :
    Except BuildError Instruction := do
  let pool ← derivePool poolId
  let position := Pubkey.position pool nftMint
  pure (buildAnchorIx .withdraw []
    ([writableSigner depositor, writable pool, writable position, writable weightIndex,
      writable (.topTier pool), writable (.walletStats pool depositor),
      writable (.principalVault pool), optionalWritable depositorUsdc,
      writable (.positionVault position), readonly nftMint] ++ releaseMetas K a)
    (successorMetas successor))

def claimNft (depositor pool nftMint : Pubkey) (a : ReleaseAccounts) :
    Except BuildError Instruction :=
  let position := Pubkey.position pool nftMint
  pure (buildAnchorIx .claimNft []
    ([writableSigner depositor, writable position, writable (.positionVault position),
      readonly nftMint] ++ releaseMetas K a) [])

def withdrawCore (depositor : Pubkey) (poolId : ℤ) (asset collection weightIndex : Pubkey)
    (depositorUsdc successor : Option Pubkey) : Except BuildError Instruction := do
  let pool ← derivePool poolId
  let position := Pubkey.position pool asset
  pure (buildAnchorIx .withdrawCore []
    [writableSigner depositor, writable pool, writable position, writable weightIndex,
      writable (.topTier pool), writable (.walletStats pool depositor),
      writable (.principalVault pool), optionalWritable depositorUsdc,
      readonly (.positionVault position), writable asset, readonly collection,
      readonly MPL_CORE_PROGRAM, readonly TOKEN_PROGRAM, readonly SYSTEM_PROGRAM]
    (successorMetas successor))

def claimNftCore (depositor pool asset collection : Pubkey) : Except BuildError Instruction :=
  let position := Pubkey.position pool asset
  pure (buildAnchorIx .claimNftCore []
    [writableSigner depositor, writable position, readonly (.positionVault position),
      writable asset, readonly collection, readonly MPL_CORE_PROGRAM, readonly SYSTEM_PROGRAM] [])

def closeSeized (caller : Pubkey) (poolId : ℤ) (asset collection depositor weightIndex : Pubkey) :
    Except BuildError Instruction := do
  let pool ← derivePool poolId
  let position := Pubkey.position pool asset
  pure (buildAnchorIx .closeSeized []
    [signer caller, writable pool, writable position, writable weightIndex,
      writable (.topTier pool), writable (.walletStats pool depositor),
      readonly (.positionVault position), readonly asset, readonly collection] [])

-- ---------------------------------------------------------------------------
-- `roll.ts`
-- ---------------------------------------------------------------------------

def commitRolls (roller : Pubkey) (poolId batchCounter : ℤ)
    (rollerUsdc usdcMint oracleQueue : Pubkey) (n : ℤ) : Except BuildError Instruction := do
  let pool ← derivePool poolId
  let batch ← deriveBatch pool batchCounter
  let args ← encode (u8 n)
  pure (buildAnchorIx .commitRolls args
    [writableSigner roller, readonly .protocolConfig, writable pool, readonly (.topTier pool),
      writable batch, writable rollerUsdc, writable (.principalVault pool), readonly usdcMint,
      writable oracleQueue, readonly .vrfIdentity, readonly X.vrfProgram,
      readonly K.sysvarSlotHashes, readonly TOKEN_PROGRAM, readonly SYSTEM_PROGRAM] [])

/-- The provider's identity is an address of the VRF program, which derives it as the SDK does. -/
def vrfCallback (pool : Pubkey) (batchId : ℤ) (randomness : Bytes) :
    Except BuildError Instruction := do
  let batch ← deriveBatch pool batchId
  let args ← encode (fixed randomness 32)
  pure (buildAnchorIx .vrfCallback args
    [signer X.scopedVrfIdentity, writable batch, readonly pool] [])

-- ---------------------------------------------------------------------------
-- `tier.ts`
-- ---------------------------------------------------------------------------

def updateTier (operator : Pubkey) (poolId : ℤ) (nftMint : Pubkey) (displaced : Option Pubkey) :
    Except BuildError Instruction := do
  let pool ← derivePool poolId
  pure (buildAnchorIx .updateTier []
    [signer operator, readonly .protocolConfig, readonly pool, writable (.topTier pool),
      writable (.position pool nftMint)] (displacedMetas displaced))

end Builders

end ByeMachine
