import ByeMachine.Common.Programs
import ByeMachine.Common.Standards
import ByeMachine.State.Accounts

/-!
# Token Metadata custody

`common/escrow.rs`: admission of a pNFT or legacy card, and the two ways such a
card moves in or out of a position's vault. `PoolCollection::require_admits`
comes with it.
-/

namespace ByeMachine

open Fallible

variable (X : Programs)

/-- The presented record must be the record for this pool and the collection the asset declares,
and it must admit `standard`. -/
def requireAdmits (pool declaredCollection recordKey : Pubkey) (record : PoolCollection)
    (standard : ℕ) : Result Unit := do
  require (recordKey = .poolCollection pool declaredCollection) (.program .collectionNotAdmitted)
  require (maskAdmits record.standards standard) (.program .standardNotAdmittedForCollection)

/-- A Token Metadata transfer moves the one token, for the source's owner, and whatever records
the callee keeps; the destination account is made if absent, and must be the destination owner's
where it exists. -/
def transferPnft (call : PnftTransfer) (tokens : Tokens) (externals : Externals) :
    Result (Tokens × Externals) := do
  let externals ← invoke (X.transferPnft call externals)
  let source ← okOr (tokens.lookup call.token) .cpi
  require (source.owner = call.tokenOwner) .cpi
  let tokens ← createIdempotent tokens call.destinationToken source.mint call.destinationOwner
  let tokens ← moveToken tokens call.token call.destinationToken 1
  pure (tokens, externals)

/-- The five optional accounts of a pNFT move. -/
structure PnftRelease where
  positionTokenRecord : Option Pubkey
  depositorTokenRecord : Option Pubkey
  sysvarInstructions : Option Pubkey
  authorizationRulesProgram : Option Pubkey
  authorizationRules : Option Pubkey
  deriving DecidableEq, Repr

def PnftRelease.allAbsent (pnft : PnftRelease) : Bool :=
  pnft.positionTokenRecord.isNone && pnft.depositorTokenRecord.isNone &&
    pnft.sysvarInstructions.isNone && pnft.authorizationRulesProgram.isNone &&
    pnft.authorizationRules.isNone

/-- The card leaves the position's vault by the route its stored standard names. -/
def releaseFromVault (standard : ℕ) (positionVault position depositorToken depositor nftMint
    metadata masterEdition payer : Pubkey) (pnft : PnftRelease) (tokens : Tokens)
    (externals : Externals) : Result (Tokens × Externals) :=
  if standard = STANDARD_PNFT then do
    let tokenRecord ← okOr pnft.positionTokenRecord (.anchor .accountNotEnoughKeys)
    let destinationTokenRecord ← okOr pnft.depositorTokenRecord (.anchor .accountNotEnoughKeys)
    let _ ← okOr pnft.sysvarInstructions (.anchor .accountNotEnoughKeys)
    transferPnft X {
      token := positionVault, tokenOwner := position, destinationToken := depositorToken
      destinationOwner := depositor, mint := nftMint, metadata, edition := masterEdition
      tokenRecord, destinationTokenRecord, authority := position, payer
      authorizationRulesProgram := pnft.authorizationRulesProgram
      authorizationRules := pnft.authorizationRules } tokens externals
  else if standard = STANDARD_LEGACY then do
    require pnft.allAbsent (.anchor .constraintRaw)
    require (depositorToken = X.associatedTokenAddress depositor nftMint)
      (.program .notPositionOwner)
    let tokens ← createIdempotent tokens depositorToken nftMint depositor
    let tokens ← splTransfer tokens positionVault depositorToken position 1
    pure (tokens, externals)
  else throw (.program .wrongStandardForInstruction)

def declaredCollection (metadata : Metadata) : Result Pubkey := do
  let collection ← okOr metadata.collection (.program .collectionNotAdmitted)
  require collection.verified (.program .collectionNotAdmitted)
  pure collection.key

def resolveStandard (metadata : Metadata) : Result ℕ :=
  match metadata.tokenStandard with
  | some .programmableNonFungible => pure STANDARD_PNFT
  | some .nonFungible => pure STANDARD_LEGACY
  | some .fungibleAsset | some .fungible | some .nonFungibleEdition
  | some .programmableNonFungibleEdition | none => throw (.program .standardNotAdmitted)

def checkMasterEditionV2 (data : List ℕ) : Result Unit := do
  let isV2 ← okOr (X.parseMasterEdition data) (.program .standardNotAdmitted)
  require isV2 (.program .standardNotAdmitted)

/-- The admission checks of a Token Metadata card; its standard where they pass. -/
def validateAdmission (externals : Externals) (mint metadata masterEdition pool recordKey : Pubkey)
    (record : PoolCollection) : Result ℕ := do
  require ((externals mint).owner = .program .splToken) (.program .standardNotAdmitted)
  require ((externals metadata).owner = .program .tokenMetadata) (.program .standardNotAdmitted)
  require (metadata = X.metadataPda mint) (.program .standardNotAdmitted)
  let parsed ← okOr (X.parseMetadata (externals metadata).data) (.program .standardNotAdmitted)
  let standard ← resolveStandard parsed
  let collection ← declaredCollection parsed
  require ((externals masterEdition).owner = .program .tokenMetadata)
    (.program .standardNotAdmitted)
  require (masterEdition = X.masterEditionPda mint) (.program .standardNotAdmitted)
  checkMasterEditionV2 X (externals masterEdition).data
  requireAdmits pool collection recordKey record standard
  pure standard

end ByeMachine
