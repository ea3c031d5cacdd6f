import ByeMachine.Base.Store
import ByeMachine.Common.Errors
import ByeMachine.Common.Seeds

/-!
# Other programs

What the instructions use of code outside the repository. Accounts other
programs own are an owner and bytes; their parsers and their cross-program calls
are the parameter `Programs`. SPL token accounts are modelled here as the token
program documents them: a transfer moves exactly its amount, on the owner's
authority, between unfrozen accounts of one mint.
-/

namespace ByeMachine

open Fallible

structure AccountInfo where
  owner : Pubkey
  data : List ℕ
  deriving DecidableEq, Repr

abbrev Externals := Pubkey → AccountInfo

-- ---------------------------------------------------------------------------
-- MPL Core and Token Metadata contents
-- ---------------------------------------------------------------------------

inductive CoreKey where
  | uninitialized | assetV1 | hashedAssetV1 | pluginHeaderV1 | pluginRegistryV1 | collectionV1
  deriving DecidableEq, Repr

inductive UpdateAuthority where
  | none
  | address (authority : Pubkey)
  | collection (collection : Pubkey)
  deriving DecidableEq, Repr

structure BaseAssetV1 where
  key : CoreKey
  owner : Pubkey
  updateAuthority : UpdateAuthority
  deriving DecidableEq, Repr

inductive PluginType where
  | royalties | freezeDelegate | burnDelegate | transferDelegate | updateDelegate
  | permanentFreezeDelegate | attributes | permanentTransferDelegate | permanentBurnDelegate
  | edition | masterEdition | addBlocker | immutableMetadata | verifiedCreators | autograph
  | bubblegumV2 | freezeExecute | permanentFreezeExecute
  deriving DecidableEq, Repr

inductive RuleSet where
  | none
  | programAllowList (programs : List Pubkey)
  | programDenyList (programs : List Pubkey)
  deriving DecidableEq, Repr

structure RegistryRecord where
  pluginType : ℕ
  deriving DecidableEq, Repr

structure ExternalRegistryRecord where
  lifecycleChecks : Option (List (ℕ × ℕ))
  deriving DecidableEq, Repr

structure PluginRegistryV1Safe where
  registry : List RegistryRecord
  externalRegistry : List ExternalRegistryRecord
  deriving DecidableEq, Repr

inductive AccountKind where
  | asset | collection
  deriving DecidableEq, Repr

inductive FreezeKind where
  | delegate | permanent
  deriving DecidableEq, Repr

inductive TokenStandard where
  | nonFungible | fungibleAsset | fungible | nonFungibleEdition | programmableNonFungible
  | programmableNonFungibleEdition
  deriving DecidableEq, Repr

structure MetadataCollection where
  verified : Bool
  key : Pubkey
  deriving DecidableEq, Repr

structure Metadata where
  tokenStandard : Option TokenStandard
  collection : Option MetadataCollection
  deriving DecidableEq, Repr

structure CoreTransfer where
  asset : Pubkey
  collection : Option Pubkey
  newOwner : Pubkey
  authority : Pubkey
  payer : Pubkey
  deriving DecidableEq, Repr

/-- A Token Metadata `TransferV1` call, of amount 1. -/
structure PnftTransfer where
  token : Pubkey
  tokenOwner : Pubkey
  destinationToken : Pubkey
  destinationOwner : Pubkey
  mint : Pubkey
  metadata : Pubkey
  edition : Pubkey
  tokenRecord : Pubkey
  destinationTokenRecord : Pubkey
  authority : Pubkey
  payer : Pubkey
  authorizationRulesProgram : Option Pubkey
  authorizationRules : Option Pubkey
  deriving DecidableEq, Repr

/-- A request for scoped randomness, called back with the batch's own key. -/
structure VrfRequest where
  payer : Pubkey
  oracleQueue : Pubkey
  callerSeed : Pubkey
  batch : Pubkey
  pool : Pubkey
  callbackArgs : Pubkey
  deriving DecidableEq, Repr

/-- The code outside the repository. A call returns the other programs' accounts after it, or
nothing where the callee refuses. -/
structure Programs where
  /-- The key `init_protocol` accepts, a build constant. -/
  initialAdministrator : Pubkey
  bumpOf : Pubkey → ℕ
  isMint : AccountInfo → Bool
  associatedTokenAddress : (owner mint : Pubkey) → Pubkey
  metadataPda : Pubkey → Pubkey
  masterEditionPda : Pubkey → Pubkey
  parseMetadata : List ℕ → Option Metadata
  /-- Whether the bytes parse as a `MasterEdition`, and whether its key is `MasterEditionV2`. -/
  parseMasterEdition : List ℕ → Option Bool
  parseAsset : List ℕ → Option BaseAssetV1
  /-- `T::load(info, 0)`: the length of the account's own body. -/
  loadBody : AccountKind → AccountInfo → Option ℕ
  parsePluginHeader : List ℕ → Option ℕ
  parsePluginRegistry : List ℕ → Option PluginRegistryV1Safe
  pluginTypeFromU8 : ℕ → Option PluginType
  transferEvent : ℕ
  fetchFrozen : AccountKind → FreezeKind → AccountInfo → Option Bool
  fetchRuleSet : AccountKind → AccountInfo → Option RuleSet
  transferCore : CoreTransfer → Externals → Option Externals
  transferPnft : PnftTransfer → Externals → Option Externals
  vrfProgram : Pubkey
  scopedVrfIdentity : Pubkey
  requestRandomness : VrfRequest → Externals → Option Externals

/-- A refused call ends the instruction. -/
def invoke {α : Type} (reply : Option α) : Result α := okOr reply .cpi

-- ---------------------------------------------------------------------------
-- SPL token
-- ---------------------------------------------------------------------------

structure TokenAccount where
  mint : Pubkey
  owner : Pubkey
  amount : ℕ
  isFrozen : Bool
  deriving DecidableEq, Repr

abbrev Tokens := Store Pubkey TokenAccount

/-- `Account::<TokenAccount>::try_from`. -/
def loadToken (tokens : Tokens) (key : Pubkey) : Result TokenAccount :=
  okOr (tokens.lookup key) (.anchor .accountNotInitialized)

/-- Exactly `amount` leaves one account and reaches another of the same mint. -/
def moveToken (tokens : Tokens) (source destination : Pubkey) (amount : ℕ) : Result Tokens := do
  let debited ← okOr (tokens.lookup source) .cpi
  let credited ← okOr (tokens.lookup destination) .cpi
  require (debited.mint = credited.mint ∧ amount ≤ debited.amount) .cpi
  if source = destination then pure tokens
  else do
    let total ← okOr (Checked.add 64 credited.amount amount) .cpi
    pure ((tokens.insert source { debited with amount := debited.amount - amount }).insert
      destination { credited with amount := total })

/-- The token program's `Transfer`, the authority being the source's owner. -/
def splTransfer (tokens : Tokens) (source destination authority : Pubkey) (amount : ℕ) :
    Result Tokens := do
  let debited ← okOr (tokens.lookup source) .cpi
  let credited ← okOr (tokens.lookup destination) .cpi
  require (debited.owner = authority ∧ debited.isFrozen = false ∧ credited.isFrozen = false) .cpi
  moveToken tokens source destination amount

/-- Anchor's `init` of a token account: an address in use is refused. -/
def initToken (tokens : Tokens) (key mint owner : Pubkey) : Result Tokens := do
  require (tokens.lookup key = none) (.anchor .accountAlreadyInUse)
  pure (tokens.insert key ⟨mint, owner, 0, false⟩)

/-- The token program's `CloseAccount`: only an empty account, by its owner. -/
def closeToken (tokens : Tokens) (key authority : Pubkey) : Result Tokens := do
  let account ← okOr (tokens.lookup key) .cpi
  require (account.amount = 0 ∧ account.owner = authority) .cpi
  pure (tokens.erase key)

/-- `create_idempotent`: an associated token account, made if absent. -/
def createIdempotent (tokens : Tokens) (key mint owner : Pubkey) : Result Tokens :=
  match tokens.lookup key with
  | none => pure (tokens.insert key ⟨mint, owner, 0, false⟩)
  | some account => do
    require (account.mint = mint ∧ account.owner = owner) .cpi
    pure tokens

end ByeMachine
