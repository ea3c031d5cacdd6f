import ByeMachine.Common.Events
import ByeMachine.Common.Programs

/-!
# MPL Core collateral

`common/core_asset.rs`: what a position's card allows, read from the asset, its
collection and both plugin registries. A borrow of account data never fails
here, no other borrow being alive.
-/

namespace ByeMachine

open Fallible

variable (X : Programs)

/-- The causes a census reads as facts. -/
inductive ReadableCause where
  | burned | transferred | frozen
  deriving DecidableEq, Repr

def ReadableCause.toSeizureKind : ReadableCause → SeizureKind
  | .burned => .burned
  | .transferred => .transferred
  | .frozen => .frozen

inductive Collateral where
  | settleable
  | unreachable (cause : ReadableCause) (ownerObserved : Pubkey)
  | undecidable (ownerObserved : Pubkey)
  deriving DecidableEq, Repr

def readCoreAsset (info : AccountInfo) : Result BaseAssetV1 := do
  require (info.owner = .program .mplCore) (.program .standardNotAdmitted)
  let asset ← okOr (X.parseAsset info.data) (.program .standardNotAdmitted)
  require (asset.key = .assetV1) (.program .standardNotAdmitted)
  pure asset

def declaredCoreCollection (asset : BaseAssetV1) : Result Pubkey :=
  match asset.updateAuthority with
  | .collection collection => pure collection
  | .none | .address _ => throw (.program .collectionNotAdmitted)

inductive TransferVerdict where
  | clear
  | freeze (kind : FreezeKind)
  | undecidable
  deriving DecidableEq, Repr

inductive RecordVerdict where
  | clear
  | freeze (kind : FreezeKind)
  | ruleSet
  | undecidable
  deriving DecidableEq, Repr

def internalTransferVerdict (pluginType : ℕ) (on : AccountKind) : RecordVerdict :=
  match X.pluginTypeFromU8 pluginType with
  | none => .undecidable
  | some .freezeDelegate => .freeze .delegate
  | some .permanentFreezeDelegate => .freeze .permanent
  | some .royalties => .ruleSet
  | some .bubblegumV2 =>
    match on with
    | .collection => .clear
    | .asset => .undecidable
  | some .burnDelegate | some .transferDelegate | some .updateDelegate | some .attributes
  | some .permanentTransferDelegate | some .permanentBurnDelegate | some .edition
  | some .masterEdition | some .addBlocker | some .immutableMetadata | some .verifiedCreators
  | some .autograph | some .freezeExecute | some .permanentFreezeExecute => .clear

def externalRecordIsUndecidable (checks : Option (List (ℕ × ℕ))) : Bool :=
  match checks with
  | none => false
  | some checks => checks.any fun check => check.1 == X.transferEvent

def royaltyRuleSetIsInert (on : AccountKind) (info : AccountInfo) : Option Bool :=
  (X.fetchRuleSet on info).map fun ruleSet =>
    match ruleSet with
    | .none => true
    | .programAllowList _ | .programDenyList _ => false

/-- The walk over the internal registry: a set freeze flag answers at once, anything undecidable
is remembered. -/
def scanRegistry (on : AccountKind) (info : AccountInfo) :
    List RegistryRecord → Bool → TransferVerdict ⊕ Bool
  | [], undecidable => .inr undecidable
  | record :: records, undecidable =>
    match internalTransferVerdict X record.pluginType on with
    | .clear => scanRegistry on info records undecidable
    | .undecidable => scanRegistry on info records true
    | .freeze kind =>
      match X.fetchFrozen on kind info with
      | some true => .inl (.freeze kind)
      | some false => scanRegistry on info records undecidable
      | none => scanRegistry on info records true
    | .ruleSet =>
      match royaltyRuleSetIsInert X on info with
      | some true => scanRegistry on info records undecidable
      | some false | none => scanRegistry on info records true

/-- The plugin registry behind the body, where the header and the offsets are readable. -/
def readRegistry (info : AccountInfo) (bodyLen : ℕ) : Option PluginRegistryV1Safe := do
  if info.data.length < bodyLen then none
  let offset ← X.parsePluginHeader (info.data.drop bodyLen)
  if info.data.length < offset then none
  X.parsePluginRegistry (info.data.drop offset)

def registryVerdict (info : AccountInfo) (on : AccountKind) : TransferVerdict :=
  match X.loadBody on info with
  | none => .undecidable
  | some bodyLen =>
    if bodyLen = info.data.length then .clear
    else
      match readRegistry X info bodyLen with
      | none => .undecidable
      | some registry =>
        match scanRegistry X on info registry.registry false with
        | .inl verdict => verdict
        | .inr undecidable =>
          if undecidable || registry.externalRegistry.any fun record =>
              externalRecordIsUndecidable X record.lifecycleChecks then
            .undecidable
          else .clear

def transferSurface (asset : AccountInfo) (collection : Option AccountInfo) : TransferVerdict :=
  match registryVerdict X asset .asset,
    (collection.map fun info => registryVerdict X info .collection).getD .clear with
  | .freeze kind, _ | _, .freeze kind => .freeze kind
  | .undecidable, _ | _, .undecidable => .undecidable
  | .clear, .clear => .clear

/-- What the card allows, and the collection a transfer of it has to name. -/
def readCollateral (externals : Externals) (asset collection vault : Pubkey) :
    Result (Collateral × Option Pubkey) := do
  let info := externals asset
  if info.owner ≠ .program .mplCore then
    return (.unreachable .burned .default, none)
  match (X.parseAsset info.data).filter fun parsed => parsed.key = .assetV1 with
  | none => pure (.unreachable .burned .default, none)
  | some parsed =>
    if parsed.owner ≠ vault then
      return (.unreachable .transferred parsed.owner, none)
    let named ←
      match parsed.updateAuthority with
      | .collection declared => do
        require (collection = declared) (.program .collectionNotAdmitted)
        pure (some collection)
      | .none | .address _ => pure none
    match transferSurface X info (named.map externals) with
    | .clear => pure (.settleable, named)
    | .freeze _ => pure (.unreachable .frozen parsed.owner, none)
    | .undecidable => pure (.undecidable parsed.owner, named)

/-- The gate every exit takes. -/
def requireCollateralSettleable (externals : Externals) (asset collection vault : Pubkey) :
    Result (Option Pubkey) := do
  match ← readCollateral X externals asset collection vault with
  | (.settleable, named) => pure named
  | (.undecidable _, named) => pure named
  | (.unreachable .frozen _, _) => throw (.program .collateralFrozen)
  | (.unreachable .burned _, _) | (.unreachable .transferred _, _) =>
    throw (.program .collateralAbsent)

/-- The gate `close_seized` takes. -/
def requireCollateralUnreachable (externals : Externals) (asset collection vault : Pubkey) :
    Result (SeizureKind × Pubkey) := do
  match ← readCollateral X externals asset collection vault with
  | (.settleable, _) => throw (.program .collateralPresent)
  | (.undecidable ownerObserved, _) => pure (.undecidable, ownerObserved)
  | (.unreachable cause ownerObserved, _) => pure (cause.toSeizureKind, ownerObserved)

/-- The card leaves the position's vault, signed for by the vault's own seeds. -/
def releaseCoreFromVault (externals : Externals) (asset : Pubkey) (collection : Option Pubkey)
    (depositor positionVault payer : Pubkey) : Result Externals :=
  invoke (X.transferCore ⟨asset, collection, depositor, positionVault, payer⟩ externals)

end ByeMachine
