import ByeMachine.Common.CoreAsset

/-!
# The collateral census

What the reading of a card answers, said without the walk that finds it: facts
about the records of two registries, in the order the causes are tried.
-/

namespace ByeMachine

open Fallible

variable {X : Programs} {on : AccountKind} {info : AccountInfo} {record : RegistryRecord}
  {registry : PluginRegistryV1Safe}

-- ---------------------------------------------------------------------------
-- One record
-- ---------------------------------------------------------------------------

def FreezeKind.pluginType : FreezeKind → PluginType
  | .delegate => .freezeDelegate
  | .permanent => .permanentFreezeDelegate

/-- The plugin types that cannot reject a transfer, whatever they contain. -/
def PluginType.Inert (on : AccountKind) : PluginType → Prop
  | .freezeDelegate | .permanentFreezeDelegate | .royalties => False
  | .bubblegumV2 => on = .collection
  | _ => True

section
variable (X on info)

def ReadsFrozen (record : RegistryRecord) : Prop :=
  ∃ kind, X.pluginTypeFromU8 record.pluginType = some kind.pluginType ∧
    X.fetchFrozen on kind info = some true

/-- A record that is known not to reject a transfer. -/
inductive Harmless (record : RegistryRecord) : Prop where
  | inert {plugin : PluginType} (htype : X.pluginTypeFromU8 record.pluginType = some plugin)
      (hinert : plugin.Inert on)
  | unfrozen {kind : FreezeKind}
      (htype : X.pluginTypeFromU8 record.pluginType = some kind.pluginType)
      (hread : X.fetchFrozen on kind info = some false)
  | noRuleSet (htype : X.pluginTypeFromU8 record.pluginType = some .royalties)
      (hread : X.fetchRuleSet on info = some .none)

end

theorem FreezeKind.pluginType_inj {kind kind' : FreezeKind}
    (h : kind.pluginType = kind'.pluginType) : kind = kind' := by
  cases kind <;> cases kind' <;> simp_all [FreezeKind.pluginType]

theorem FreezeKind.not_inert (kind : FreezeKind) : ¬kind.pluginType.Inert on := by
  cases kind <;> exact id

theorem FreezeKind.ne_royalties (kind : FreezeKind) : kind.pluginType ≠ .royalties := by
  cases kind <;> simp [FreezeKind.pluginType]

section
variable {kind : FreezeKind}

theorem readsFrozen_freeze (htype : X.pluginTypeFromU8 record.pluginType = some kind.pluginType) :
    ReadsFrozen X on info record ↔ X.fetchFrozen on kind info = some true := by
  constructor
  · rintro ⟨kind', htype', hread⟩
    obtain rfl := FreezeKind.pluginType_inj (Option.some.inj (htype.symm.trans htype'))
    exact hread
  · exact fun hread => ⟨kind, htype, hread⟩

theorem harmless_freeze (htype : X.pluginTypeFromU8 record.pluginType = some kind.pluginType) :
    Harmless X on info record ↔ X.fetchFrozen on kind info = some false := by
  constructor
  · intro h
    cases h with
    | inert htype' hinert =>
      obtain rfl := Option.some.inj (htype.symm.trans htype')
      exact absurd hinert kind.not_inert
    | unfrozen htype' hread =>
      obtain rfl := FreezeKind.pluginType_inj (Option.some.inj (htype.symm.trans htype'))
      exact hread
    | noRuleSet htype' => exact absurd (Option.some.inj (htype.symm.trans htype')) kind.ne_royalties
  · exact .unfrozen htype

end

theorem harmless_royalties (htype : X.pluginTypeFromU8 record.pluginType = some .royalties) :
    Harmless X on info record ↔ X.fetchRuleSet on info = some .none := by
  constructor
  · intro h
    cases h with
    | inert htype' hinert =>
      obtain rfl := Option.some.inj (htype.symm.trans htype')
      exact absurd hinert id
    | @unfrozen kind htype' =>
      exact absurd (Option.some.inj (htype'.symm.trans htype)) kind.ne_royalties
    | noRuleSet _ hread => exact hread
  · exact .noRuleSet htype

theorem royaltyRuleSetIsInert_eq_true :
    royaltyRuleSetIsInert X on info = some true ↔ X.fetchRuleSet on info = some .none := by
  unfold royaltyRuleSetIsInert
  cases X.fetchRuleSet on info with
  | none => simp
  | some ruleSet => cases ruleSet <;> simp

theorem internalTransferVerdict_spec (X : Programs) (on : AccountKind) (info : AccountInfo)
    (record : RegistryRecord) :
    match internalTransferVerdict X record.pluginType on with
    | .clear => Harmless X on info record ∧ ¬ReadsFrozen X on info record
    | .undecidable => ¬Harmless X on info record ∧ ¬ReadsFrozen X on info record
    | .freeze kind => X.pluginTypeFromU8 record.pluginType = some kind.pluginType
    | .ruleSet => X.pluginTypeFromU8 record.pluginType = some .royalties := by
  unfold internalTransferVerdict
  cases htype : X.pluginTypeFromU8 record.pluginType with
  | none =>
    refine ⟨fun h => ?_, fun ⟨_, h, _⟩ => by rw [htype] at h; cases h⟩
    cases h <;> simp_all
  | some plugin =>
    have hfrozen : (∀ kind : FreezeKind, plugin ≠ kind.pluginType) →
        ¬ReadsFrozen X on info record :=
      fun hne ⟨kind, h, _⟩ => hne kind (Option.some.inj (htype.symm.trans h))
    cases plugin
    case bubblegumV2 =>
      have hnot := hfrozen fun kind => by cases kind <;> simp [FreezeKind.pluginType]
      cases on with
      | collection => exact ⟨.inert htype rfl, hnot⟩
      | asset =>
        refine ⟨fun h => ?_, hnot⟩
        cases h with
        | inert htype' hinert =>
          obtain rfl := Option.some.inj (htype.symm.trans htype')
          cases hinert
        | @unfrozen kind htype' => cases kind <;> simp [htype, FreezeKind.pluginType] at htype'
        | noRuleSet htype' => simp [htype] at htype'
    case freezeDelegate | permanentFreezeDelegate | royalties => rfl
    all_goals
      exact ⟨.inert htype trivial,
        hfrozen fun kind => by cases kind <;> simp [FreezeKind.pluginType]⟩

-- ---------------------------------------------------------------------------
-- One registry
-- ---------------------------------------------------------------------------

section
variable {records : List RegistryRecord} {undecidable : Bool}

theorem scanRegistry_frozen (h : ReadsFrozen X on info record) :
    ∃ kind, scanRegistry X on info (record :: records) undecidable = .inl (.freeze kind) := by
  have hspec := internalTransferVerdict_spec X on info record
  unfold scanRegistry
  cases hverdict : internalTransferVerdict X record.pluginType on with
  | clear =>
    rw [hverdict] at hspec
    exact absurd h hspec.2
  | undecidable =>
    rw [hverdict] at hspec
    exact absurd h hspec.2
  | freeze kind =>
    rw [hverdict] at hspec
    exact ⟨kind, by simp only [(readsFrozen_freeze hspec).mp h]⟩
  | ruleSet =>
    rw [hverdict] at hspec
    obtain ⟨kind, htype, -⟩ := h
    exact absurd (Option.some.inj (htype.symm.trans hspec)) kind.ne_royalties

theorem scanRegistry_harmless (h : Harmless X on info record) :
    scanRegistry X on info (record :: records) undecidable
      = scanRegistry X on info records undecidable := by
  have hspec := internalTransferVerdict_spec X on info record
  rw [scanRegistry]
  cases hverdict : internalTransferVerdict X record.pluginType on with
  | clear => rfl
  | undecidable =>
    rw [hverdict] at hspec
    exact absurd h hspec.1
  | freeze kind =>
    rw [hverdict] at hspec
    simp only [(harmless_freeze hspec).mp h]
  | ruleSet =>
    rw [hverdict] at hspec
    simp only [royaltyRuleSetIsInert_eq_true.mpr ((harmless_royalties hspec).mp h)]

theorem scanRegistry_unknown (h : ¬Harmless X on info record) (hfree : ¬ReadsFrozen X on info record) :
    scanRegistry X on info (record :: records) undecidable
      = scanRegistry X on info records true := by
  have hspec := internalTransferVerdict_spec X on info record
  rw [scanRegistry]
  cases hverdict : internalTransferVerdict X record.pluginType on with
  | clear =>
    rw [hverdict] at hspec
    exact absurd hspec.1 h
  | undecidable => rfl
  | freeze kind =>
    rw [hverdict] at hspec
    rw [harmless_freeze hspec] at h
    rw [readsFrozen_freeze hspec] at hfree
    cases hread : X.fetchFrozen on kind info with
    | none => simp only [hread]
    | some frozen => cases frozen <;> simp_all
  | ruleSet =>
    rw [hverdict] at hspec
    rw [harmless_royalties hspec, ← royaltyRuleSetIsInert_eq_true] at h
    cases hread : royaltyRuleSetIsInert X on info with
    | none => rfl
    | some inert => cases inert <;> simp_all

/-- The walk answers a freeze exactly where some record reads frozen, and has otherwise remembered
whether some record is not known to be harmless. -/
theorem scanRegistry_spec (X : Programs) (on : AccountKind) (info : AccountInfo)
    (records : List RegistryRecord) (undecidable : Bool) :
    match scanRegistry X on info records undecidable with
    | .inl verdict => (∃ kind, verdict = .freeze kind) ∧
        ∃ record ∈ records, ReadsFrozen X on info record
    | .inr unknown => (∀ record ∈ records, ¬ReadsFrozen X on info record) ∧
        (unknown = true ↔ undecidable = true ∨ ∃ record ∈ records, ¬Harmless X on info record) := by
  induction records generalizing undecidable with
  | nil => simp [scanRegistry]
  | cons record records ih =>
    by_cases hfrozen : ReadsFrozen X on info record
    · obtain ⟨kind, hscan⟩ := @scanRegistry_frozen X on info record records undecidable hfrozen
      rw [hscan]
      exact ⟨⟨kind, rfl⟩, record, by simp, hfrozen⟩
    · by_cases hharmless : Harmless X on info record
      · rw [scanRegistry_harmless hharmless]
        have hrest := ih undecidable
        cases hscan : scanRegistry X on info records undecidable with
        | inl verdict =>
          rw [hscan] at hrest
          exact ⟨hrest.1, by simpa using .inr hrest.2⟩
        | inr unknown =>
          rw [hscan] at hrest
          exact ⟨by simpa using ⟨hfrozen, hrest.1⟩, by simpa [hharmless] using hrest.2⟩
      · rw [scanRegistry_unknown hharmless hfrozen]
        have hrest := ih true
        cases hscan : scanRegistry X on info records true with
        | inl verdict =>
          rw [hscan] at hrest
          exact ⟨hrest.1, by simpa using .inr hrest.2⟩
        | inr unknown =>
          rw [hscan] at hrest
          exact ⟨by simpa using ⟨hfrozen, hrest.1⟩, by simpa [hharmless] using hrest.2⟩

end

section
variable (X on info)

def HasRegistry (registry : PluginRegistryV1Safe) : Prop :=
  ∃ bodyLen, X.loadBody on info = some bodyLen ∧
    if bodyLen = info.data.length then registry = ⟨[], []⟩
    else readRegistry X info bodyLen = some registry

def Frozen : Prop :=
  ∃ registry, HasRegistry X on info registry ∧
    ∃ record ∈ registry.registry, ReadsFrozen X on info record

def ChecksTransfers (record : ExternalRegistryRecord) : Prop :=
  ∃ checks, record.lifecycleChecks = some checks ∧ ∃ check ∈ checks, check.1 = X.transferEvent

/-- The account does not parse, or it holds a record nothing is known of. -/
def Undecided : Prop :=
  (∀ registry, ¬HasRegistry X on info registry) ∨
    ∃ registry, HasRegistry X on info registry ∧
      ((∃ record ∈ registry.registry, ¬Harmless X on info record) ∨
        ∃ record ∈ registry.externalRegistry, ChecksTransfers X record)

end

theorem HasRegistry.unique {registry' : PluginRegistryV1Safe} (h : HasRegistry X on info registry)
    (h' : HasRegistry X on info registry') : registry = registry' := by
  obtain ⟨bodyLen, hload, hread⟩ := h
  obtain ⟨bodyLen', hload', hread'⟩ := h'
  obtain rfl := Option.some.inj (hload.symm.trans hload')
  by_cases hlen : bodyLen = info.data.length
  · rw [if_pos hlen] at hread hread'
    rw [hread, hread']
  · rw [if_neg hlen] at hread hread'
    exact Option.some.inj (hread.symm.trans hread')

theorem frozen_iff (h : HasRegistry X on info registry) :
    Frozen X on info ↔ ∃ record ∈ registry.registry, ReadsFrozen X on info record :=
  ⟨fun ⟨_, h', hfrozen⟩ => h.unique h' ▸ hfrozen, fun hfrozen => ⟨registry, h, hfrozen⟩⟩

theorem undecided_iff (h : HasRegistry X on info registry) :
    Undecided X on info ↔ (∃ record ∈ registry.registry, ¬Harmless X on info record) ∨
      ∃ record ∈ registry.externalRegistry, ChecksTransfers X record := by
  constructor
  · rintro (hnone | ⟨_, h', hfound⟩)
    · exact absurd h (hnone registry)
    · exact h.unique h' ▸ hfound
  · exact fun hfound => .inr ⟨registry, h, hfound⟩

theorem externalRecordIsUndecidable_iff {record : ExternalRegistryRecord} :
    externalRecordIsUndecidable X record.lifecycleChecks = true ↔ ChecksTransfers X record := by
  unfold externalRecordIsUndecidable ChecksTransfers
  cases record.lifecycleChecks <;> simp

/-- The verdict on one account: a freeze before anything unknown, and that before nothing. -/
theorem registryVerdict_spec (X : Programs) (info : AccountInfo) (on : AccountKind) :
    match registryVerdict X info on with
    | .freeze _ => Frozen X on info
    | .undecidable => ¬Frozen X on info ∧ Undecided X on info
    | .clear => ¬Frozen X on info ∧ ¬Undecided X on info := by
  have hunparsed : (∀ registry, ¬HasRegistry X on info registry) →
      ¬Frozen X on info ∧ Undecided X on info :=
    fun hnone => ⟨fun ⟨registry, h, _⟩ => hnone registry h, .inl hnone⟩
  unfold registryVerdict
  cases hload : X.loadBody on info with
  | none => exact hunparsed fun _ ⟨_, hload', _⟩ => by rw [hload] at hload'; cases hload'
  | some bodyLen =>
    by_cases hlen : bodyLen = info.data.length
    · simp only [if_pos hlen]
      have hempty : HasRegistry X on info ⟨[], []⟩ := ⟨bodyLen, hload, by rw [if_pos hlen]⟩
      exact ⟨by simp [frozen_iff hempty], by simp [undecided_iff hempty]⟩
    · simp only [if_neg hlen]
      cases hread : readRegistry X info bodyLen with
      | none =>
        refine hunparsed fun _ ⟨_, hload', hread'⟩ => ?_
        obtain rfl := Option.some.inj (hload.symm.trans hload')
        rw [if_neg hlen, hread] at hread'
        cases hread'
      | some registry =>
        have hregistry : HasRegistry X on info registry :=
          ⟨bodyLen, hload, by rw [if_neg hlen, hread]⟩
        have hscan := scanRegistry_spec X on info registry.registry false
        dsimp only
        cases hanswer : scanRegistry X on info registry.registry false with
        | inl verdict =>
          rw [hanswer] at hscan
          obtain ⟨⟨kind, rfl⟩, hfrozen⟩ := hscan
          exact (frozen_iff hregistry).mpr hfrozen
        | inr unknown =>
          rw [hanswer] at hscan
          obtain ⟨hfree, hunknown⟩ := hscan
          have hfree' : ¬Frozen X on info := by
            rw [frozen_iff hregistry]
            exact fun ⟨record, hmem, hfrozen⟩ => hfree record hmem hfrozen
          have hundecided : (unknown || registry.externalRegistry.any fun record =>
              externalRecordIsUndecidable X record.lifecycleChecks) = true
              ↔ Undecided X on info := by
            rw [undecided_iff hregistry, Bool.or_eq_true, hunknown, List.any_eq_true]
            simp [externalRecordIsUndecidable_iff]
          dsimp only
          by_cases hund : Undecided X on info
          · rw [if_pos (hundecided.mpr hund)]
            exact ⟨hfree', hund⟩
          · rw [if_neg fun h => hund (hundecided.mp h)]
            exact ⟨hfree', hund⟩

-- ---------------------------------------------------------------------------
-- The card
-- ---------------------------------------------------------------------------

section
variable (X) (externals : Externals) (asset : Pubkey)

def HoldsCard (card : BaseAssetV1) : Prop :=
  (externals asset).owner = .program .mplCore ∧
    X.parseAsset (externals asset).data = some card ∧ card.key = .assetV1

/-- Some freeze record of the asset or of its collection reads frozen. -/
def CardFrozen (named : Option Pubkey) : Prop :=
  Frozen X .asset (externals asset) ∨ ∃ key, named = some key ∧ Frozen X .collection (externals key)

/-- The asset or its collection does not parse, or holds a record nothing is known of. -/
def CardUndecided (named : Option Pubkey) : Prop :=
  Undecided X .asset (externals asset) ∨
    ∃ key, named = some key ∧ Undecided X .collection (externals key)

/-- The collection a card declares, where it is the one supplied; none where it declares none. -/
inductive Declares (collection : Pubkey) : UpdateAuthority → Option Pubkey → Prop where
  | collection : Declares collection (.collection collection) (some collection)
  | none : Declares collection .none none
  | address {authority : Pubkey} : Declares collection (.address authority) none

/-- What the reading of a card answers, in the order the causes are tried. -/
inductive Classifies (collection vault : Pubkey) : Result (Collateral × Option Pubkey) → Prop where
  | burned (hnone : ∀ card, ¬HoldsCard X externals asset card) :
      Classifies collection vault (.ok (.unreachable .burned .default, none))
  | transferred {card : BaseAssetV1} (hcard : HoldsCard X externals asset card)
      (howner : card.owner ≠ vault) :
      Classifies collection vault (.ok (.unreachable .transferred card.owner, none))
  | misnamed {card : BaseAssetV1} {declared : Pubkey} (hcard : HoldsCard X externals asset card)
      (howner : card.owner = vault) (hdeclared : card.updateAuthority = .collection declared)
      (hother : collection ≠ declared) :
      Classifies collection vault (.error (.program .collectionNotAdmitted))
  | frozen {card : BaseAssetV1} {named : Option Pubkey} (hcard : HoldsCard X externals asset card)
      (howner : card.owner = vault) (hnamed : Declares collection card.updateAuthority named)
      (hfrozen : CardFrozen X externals asset named) :
      Classifies collection vault (.ok (.unreachable .frozen vault, none))
  | undecidable {card : BaseAssetV1} {named : Option Pubkey}
      (hcard : HoldsCard X externals asset card) (howner : card.owner = vault)
      (hnamed : Declares collection card.updateAuthority named)
      (hfree : ¬CardFrozen X externals asset named)
      (hundecided : CardUndecided X externals asset named) :
      Classifies collection vault (.ok (.undecidable vault, named))
  | settleable {card : BaseAssetV1} {named : Option Pubkey}
      (hcard : HoldsCard X externals asset card) (howner : card.owner = vault)
      (hnamed : Declares collection card.updateAuthority named)
      (hfree : ¬CardFrozen X externals asset named)
      (hdecided : ¬CardUndecided X externals asset named) :
      Classifies collection vault (.ok (.settleable, named))

end

variable {externals : Externals} {asset collection vault : Pubkey} {named : Option Pubkey}
  {card : BaseAssetV1}

/-- The verdict over both accounts keeps the order of each. -/
theorem transferSurface_spec (X : Programs) (externals : Externals) (asset : Pubkey)
    (named : Option Pubkey) :
    match transferSurface X (externals asset) (named.map externals) with
    | .freeze _ => CardFrozen X externals asset named
    | .undecidable => ¬CardFrozen X externals asset named ∧ CardUndecided X externals asset named
    | .clear => ¬CardFrozen X externals asset named ∧ ¬CardUndecided X externals asset named := by
  have hasset := registryVerdict_spec X (externals asset) .asset
  unfold transferSurface CardFrozen CardUndecided
  cases named with
  | none =>
    cases hverdict : registryVerdict X (externals asset) .asset <;> rw [hverdict] at hasset <;>
      simpa using hasset
  | some key =>
    have hcollection := registryVerdict_spec X (externals key) .collection
    cases hverdict : registryVerdict X (externals asset) .asset <;>
      cases hverdict' : registryVerdict X (externals key) .collection <;>
      rw [hverdict] at hasset <;> rw [hverdict'] at hcollection <;> simp_all

theorem transferSurface_frozen (h : CardFrozen X externals asset named) :
    ∃ kind, transferSurface X (externals asset) (named.map externals) = .freeze kind := by
  have hspec := transferSurface_spec X externals asset named
  cases hverdict : transferSurface X (externals asset) (named.map externals) with
  | freeze kind => exact ⟨kind, rfl⟩
  | clear =>
    rw [hverdict] at hspec
    exact absurd h hspec.1
  | undecidable =>
    rw [hverdict] at hspec
    exact absurd h hspec.1

theorem transferSurface_undecidable (hfree : ¬CardFrozen X externals asset named)
    (h : CardUndecided X externals asset named) :
    transferSurface X (externals asset) (named.map externals) = .undecidable := by
  have hspec := transferSurface_spec X externals asset named
  cases hverdict : transferSurface X (externals asset) (named.map externals) with
  | undecidable => rfl
  | clear =>
    rw [hverdict] at hspec
    exact absurd h hspec.2
  | freeze kind =>
    rw [hverdict] at hspec
    exact absurd hspec hfree

theorem transferSurface_clear (hfree : ¬CardFrozen X externals asset named)
    (h : ¬CardUndecided X externals asset named) :
    transferSurface X (externals asset) (named.map externals) = .clear := by
  have hspec := transferSurface_spec X externals asset named
  cases hverdict : transferSurface X (externals asset) (named.map externals) with
  | clear => rfl
  | undecidable =>
    rw [hverdict] at hspec
    exact absurd hspec.2 h
  | freeze kind =>
    rw [hverdict] at hspec
    exact absurd hspec hfree

theorem readCollateral_absent (h : ∀ card, ¬HoldsCard X externals asset card) :
    readCollateral X externals asset collection vault = .ok (.unreachable .burned .default, none) := by
  unfold readCollateral
  by_cases howned : (externals asset).owner = .program .mplCore
  · have hnone : ((X.parseAsset (externals asset).data).filter fun card => card.key = .assetV1)
        = none := by
      cases hparse : X.parseAsset (externals asset).data with
      | none => rfl
      | some card =>
        have hkey : card.key ≠ .assetV1 := fun hkey => h card ⟨howned, hparse, hkey⟩
        simp [Option.filter, hkey]
    simp [howned, hnone, pure, Except.pure]
  · simp [howned, pure, Except.pure]

section
variable (hcard : HoldsCard X externals asset card)
include hcard

theorem HoldsCard.filtered :
    ((X.parseAsset (externals asset).data).filter fun card => card.key = .assetV1) = some card := by
  simp [hcard.2.1, Option.filter, hcard.2.2]

theorem readCollateral_moved (howner : card.owner ≠ vault) :
    readCollateral X externals asset collection vault
      = .ok (.unreachable .transferred card.owner, none) := by
  unfold readCollateral
  simp [hcard.1, hcard.filtered, howner, pure, Except.pure]

theorem readCollateral_misnamed (howner : card.owner = vault) {declared : Pubkey}
    (hdeclared : card.updateAuthority = .collection declared) (hother : collection ≠ declared) :
    readCollateral X externals asset collection vault = .error (.program .collectionNotAdmitted) := by
  unfold readCollateral
  simp [hcard.1, hcard.filtered, howner, hdeclared, require_neg hother]

theorem readCollateral_named (howner : card.owner = vault)
    (hnamed : Declares collection card.updateAuthority named) :
    readCollateral X externals asset collection vault =
      match transferSurface X (externals asset) (named.map externals) with
      | .clear => .ok (.settleable, named)
      | .freeze _ => .ok (.unreachable .frozen vault, none)
      | .undecidable => .ok (.undecidable vault, named) := by
  unfold readCollateral
  cases hverdict : transferSurface X (externals asset) (named.map externals) <;>
    cases hauthority : card.updateAuthority <;> rw [hauthority] at hnamed <;> cases hnamed <;>
    simp only [Option.map_none, Option.map_some] at hverdict <;>
    simp [hcard.1, hcard.filtered, howner, hauthority, hverdict, require_pos, pure, Except.pure]

end

theorem Declares.total (collection : Pubkey) (authority : UpdateAuthority) :
    (∃ named, Declares collection authority named) ∨
      ∃ declared, authority = .collection declared ∧ collection ≠ declared := by
  cases authority with
  | none => exact .inl ⟨_, .none⟩
  | address => exact .inl ⟨_, .address⟩
  | collection declared =>
    by_cases h : collection = declared
    · subst h
      exact .inl ⟨_, .collection⟩
    · exact .inr ⟨declared, rfl, h⟩

theorem Classifies.total (X : Programs) (externals : Externals) (asset collection vault : Pubkey) :
    ∃ answer, Classifies X externals asset collection vault answer := by
  by_cases hholds : ∃ card, HoldsCard X externals asset card
  · obtain ⟨card, hcard⟩ := hholds
    by_cases howner : card.owner = vault
    · obtain ⟨named, hnamed⟩ | ⟨declared, hdeclared, hother⟩ :=
        Declares.total collection card.updateAuthority
      · by_cases hfrozen : CardFrozen X externals asset named
        · exact ⟨_, .frozen hcard howner hnamed hfrozen⟩
        · by_cases hundecided : CardUndecided X externals asset named
          · exact ⟨_, .undecidable hcard howner hnamed hfrozen hundecided⟩
          · exact ⟨_, .settleable hcard howner hnamed hfrozen hundecided⟩
      · exact ⟨_, .misnamed hcard howner hdeclared hother⟩
    · exact ⟨_, .transferred hcard howner⟩
  · exact ⟨_, .burned fun card h => hholds ⟨card, h⟩⟩

theorem Classifies.reads {answer : Result (Collateral × Option Pubkey)}
    (h : Classifies X externals asset collection vault answer) :
    readCollateral X externals asset collection vault = answer := by
  cases h with
  | burned hnone => exact readCollateral_absent hnone
  | transferred hcard howner => exact readCollateral_moved hcard howner
  | misnamed hcard howner hdeclared hother =>
    exact readCollateral_misnamed hcard howner hdeclared hother
  | frozen hcard howner hnamed hfrozen =>
    obtain ⟨kind, hverdict⟩ := transferSurface_frozen hfrozen
    rw [readCollateral_named hcard howner hnamed, hverdict]
  | undecidable hcard howner hnamed hfree hundecided =>
    rw [readCollateral_named hcard howner hnamed, transferSurface_undecidable hfree hundecided]
  | settleable hcard howner hnamed hfree hdecided =>
    rw [readCollateral_named hcard howner hnamed, transferSurface_clear hfree hdecided]

/-- The reading of a card is what the contents of the two accounts make it, whatever the order of
their records. -/
theorem readCollateral_iff {answer : Result (Collateral × Option Pubkey)} :
    readCollateral X externals asset collection vault = answer ↔
      Classifies X externals asset collection vault answer := by
  constructor
  · rintro rfl
    obtain ⟨answer, h⟩ := Classifies.total X externals asset collection vault
    rw [h.reads]
    exact h
  · exact Classifies.reads

end ByeMachine
