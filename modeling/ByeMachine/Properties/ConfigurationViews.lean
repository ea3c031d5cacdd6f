import ByeMachine.Properties.Configuration
import ByeMachine.Refinement.Fate

/-!
# The three views of a configuration move

What `update_config` judges, what it writes and what it logs are three matches
over the same update. They agree on every pool: the stored parameters are the
ones judged, and the log is the difference between the pools before and after.
-/

namespace ByeMachine

open Fallible

deriving instance DecidableEq for ConfigValue

inductive ConfigField where
  | price
  | ticketTarget
  | fee
  | allocEqualBps
  | allocTierBps
  | allocProtocolBps
  | admissionFloor
  | admissionCeiling
  | walletValueCap
  | maxN
  | buybackRateBps
  | blankFaces
  | t04Ceiling
  | sweepCadenceHours
  | tierSize
  deriving DecidableEq, Repr

def ConfigField.param : ConfigField → String
  | price => "price"
  | ticketTarget => "ticket_target"
  | fee => "fee"
  | allocEqualBps => "alloc_equal_bps"
  | allocTierBps => "alloc_tier_bps"
  | allocProtocolBps => "alloc_protocol_bps"
  | admissionFloor => "admission_floor"
  | admissionCeiling => "admission_ceiling"
  | walletValueCap => "wallet_value_cap"
  | maxN => "max_n"
  | buybackRateBps => "buyback_rate_bps"
  | blankFaces => "blank_faces"
  | t04Ceiling => "t04_ceiling"
  | sweepCadenceHours => "sweep_cadence_hours"
  | tierSize => "tier_size"

def ConfigField.value (pool : Pool) : ConfigField → ConfigValue
  | price => .amount pool.price
  | ticketTarget => .amount pool.ticketTarget
  | fee => .amount pool.fee
  | allocEqualBps => .bps pool.allocEqualBps
  | allocTierBps => .bps pool.allocTierBps
  | allocProtocolBps => .bps pool.allocProtocolBps
  | admissionFloor => .amount pool.admissionFloor
  | admissionCeiling => .amount pool.admissionCeiling
  | walletValueCap => .amount pool.walletValueCap
  | maxN => .count pool.maxN
  | buybackRateBps => .bps pool.buybackRateBps
  | blankFaces => .faces pool.blankFaces
  | t04Ceiling => .amount pool.t04Ceiling
  | sweepCadenceHours => .hours pool.sweepCadenceHours
  | tierSize => .count pool.tierSize

/-- The pool with another's configurable fields. -/
def Pool.configuredAs (pool source : Pool) : Pool :=
  { pool with
    price := source.price
    ticketTarget := source.ticketTarget
    fee := source.fee
    allocEqualBps := source.allocEqualBps
    allocTierBps := source.allocTierBps
    allocProtocolBps := source.allocProtocolBps
    admissionFloor := source.admissionFloor
    admissionCeiling := source.admissionCeiling
    walletValueCap := source.walletValueCap
    maxN := source.maxN
    buybackRateBps := source.buybackRateBps
    blankFaces := source.blankFaces
    t04Ceiling := source.t04Ceiling
    sweepCadenceHours := source.sweepCadenceHours
    tierSize := source.tierSize }

/-- The fields an update sets. -/
def ConfigUpdate.group : ConfigUpdate → List ConfigField
  | .admissionFloor _ => [.admissionFloor]
  | .admissionCeiling _ => [.admissionCeiling]
  | .walletValueCap _ => [.walletValueCap]
  | .maxN _ => [.maxN]
  | .buybackRateBps _ => [.buybackRateBps]
  | .t04Ceiling _ => [.t04Ceiling]
  | .sweepCadenceHours _ => [.sweepCadenceHours]
  | .tierSize _ => [.tierSize]
  | .pricing .. => [.price, .ticketTarget, .fee]
  | .allocation .. => [.allocEqualBps, .allocTierBps, .allocProtocolBps]
  | .blankFaces _ => [.blankFaces]

variable {clock : Clock} {c c' : Chain} {events : List Event} {poolKey : Pubkey} {pool : Pool}
  {update : ConfigUpdate} {field : ConfigField} {remaining : List AccountMeta}
  {positions positions' : Positions} {accTier slot : ℕ}

theorem ConfigField.param_injective : Function.Injective ConfigField.param := by
  intro a b h
  cases a <;> cases b <;> first | rfl | exact absurd h (by decide)

-- ---------------------------------------------------------------------------
-- The write and the log
-- ---------------------------------------------------------------------------

theorem applyUpdate_value (hfield : field ∉ update.group) :
    field.value (applyUpdate pool update) = field.value pool := by
  cases update <;> cases field <;>
    first | rfl | exact absurd (by simp [ConfigUpdate.group]) hfield

/-- An update writes configurable fields only. -/
theorem applyUpdate_configuredAs (pool : Pool) (update : ConfigUpdate) :
    (applyUpdate pool update).configuredAs pool = pool := by
  cases update <;> rfl

/-- The fields whose value differs, as the log has them. -/
def changesOf (before after : Pool) (fields : List ConfigField) : List FieldChange :=
  (fields.filter fun field => field.value before ≠ field.value after).map fun field =>
    (field.param, field.value before, field.value after)

theorem changesOf_append (before after : Pool) (fields fields' : List ConfigField) :
    changesOf before after (fields ++ fields')
      = changesOf before after fields ++ changesOf before after fields' := by
  simp [changesOf]

theorem pushChange_eq {α : Type} [DecidableEq α] {wrap : α → ConfigValue} {before after : Pool}
    {old new : α} (field : ConfigField) (hwrap : Function.Injective wrap)
    (hold : field.value before = wrap old) (hnew : field.value after = wrap new) :
    pushChange wrap field.param old new = changesOf before after [field] := by
  by_cases h : old = new
  · simp [pushChange, changesOf, h, hold, hnew]
  · simp [pushChange, changesOf, h, hold, hnew, hwrap.ne h]

theorem plannedChanges_eq (pool : Pool) (update : ConfigUpdate) :
    plannedChanges pool update = changesOf pool (applyUpdate pool update) update.group := by
  have hamount : Function.Injective ConfigValue.amount := fun _ _ => ConfigValue.amount.inj
  have hbps : Function.Injective ConfigValue.bps := fun _ _ => ConfigValue.bps.inj
  have hcount : Function.Injective ConfigValue.count := fun _ _ => ConfigValue.count.inj
  have hhours : Function.Injective ConfigValue.hours := fun _ _ => ConfigValue.hours.inj
  have hfaces : Function.Injective ConfigValue.faces := fun _ _ => ConfigValue.faces.inj
  cases update with
  | admissionFloor value => exact pushChange_eq .admissionFloor hamount rfl rfl
  | admissionCeiling value => exact pushChange_eq .admissionCeiling hamount rfl rfl
  | walletValueCap value => exact pushChange_eq .walletValueCap hamount rfl rfl
  | maxN value => exact pushChange_eq .maxN hcount rfl rfl
  | buybackRateBps value => exact pushChange_eq .buybackRateBps hbps rfl rfl
  | t04Ceiling value => exact pushChange_eq .t04Ceiling hamount rfl rfl
  | sweepCadenceHours value => exact pushChange_eq .sweepCadenceHours hhours rfl rfl
  | tierSize value => exact pushChange_eq .tierSize hcount rfl rfl
  | pricing price ticketTarget fee =>
    have hgroup : (ConfigUpdate.pricing price ticketTarget fee).group
        = [.price] ++ [.ticketTarget] ++ [.fee] := rfl
    rw [hgroup, changesOf_append, changesOf_append, ← pushChange_eq .price hamount rfl rfl,
      ← pushChange_eq .ticketTarget hamount rfl rfl, ← pushChange_eq .fee hamount rfl rfl]
    rfl
  | allocation equalBps tierBps protocolBps =>
    have hgroup : (ConfigUpdate.allocation equalBps tierBps protocolBps).group
        = [.allocEqualBps] ++ [.allocTierBps] ++ [.allocProtocolBps] := rfl
    rw [hgroup, changesOf_append, changesOf_append, ← pushChange_eq .allocEqualBps hbps rfl rfl,
      ← pushChange_eq .allocTierBps hbps rfl rfl, ← pushChange_eq .allocProtocolBps hbps rfl rfl]
    rfl
  | blankFaces faces => exact pushChange_eq .blankFaces hfaces rfl rfl

theorem group_nodup (update : ConfigUpdate) : update.group.Nodup := by
  cases update <;> simp [ConfigUpdate.group]

/-- A change is logged exactly where a field of the pool differs, under its name. -/
theorem mem_plannedChanges {param : String} {old new : ConfigValue} :
    (param, old, new) ∈ plannedChanges pool update ↔
      ∃ field : ConfigField, field.param = param ∧ field.value pool = old ∧
        field.value (applyUpdate pool update) = new ∧ old ≠ new := by
  rw [plannedChanges_eq]
  simp only [changesOf, List.mem_map, List.mem_filter, decide_eq_true_eq, Prod.mk.injEq]
  constructor
  · rintro ⟨field, ⟨-, hne⟩, rfl, rfl, rfl⟩
    exact ⟨field, rfl, rfl, rfl, hne⟩
  · rintro ⟨field, rfl, rfl, rfl, hne⟩
    have hfield : field ∈ update.group := by
      by_contra hnot
      exact hne (applyUpdate_value hnot).symm
    exact ⟨field, ⟨hfield, hne⟩, rfl, rfl, rfl⟩

theorem plannedChanges_nodup (pool : Pool) (update : ConfigUpdate) :
    ((plannedChanges pool update).map Prod.fst).Nodup := by
  rw [plannedChanges_eq, changesOf, List.map_map]
  exact ((group_nodup update).filter _).map ConfigField.param_injective

-- ---------------------------------------------------------------------------
-- The demotions
-- ---------------------------------------------------------------------------

/-- A demotion of the members below the new size, each settled at the tier's accumulator. -/
structure Shrinks (newTierSize : ℕ) (topTier topTier' : TopTier) (positions positions' : Positions) :
    Prop where
  tier : topTier' = { topTier with len := min topTier.len newTierSize }
  evicted : ∀ k ∈ (topTier.members.drop newTierSize).map (·.position),
    ∃ p, positions.lookup k = some p ∧
      positions'.lookup k = some { p with
        accrued := pendingFees topTier.accTier p.tierCheckpoint + p.accrued
        tierCheckpoint := topTier.accTier
        inTier := false }
  others : ∀ k, k ∉ (topTier.members.drop newTierSize).map (·.position) →
    positions'.lookup k = positions.lookup k

theorem demoteShrinkExcess_ok {topTier topTier' : TopTier} {newTierSize : ℕ}
    (hsize : newTierSize ≤ MAX_TIER_SIZE)
    (h : demoteShrinkExcess topTier remaining positions newTierSize poolKey slot
      = .ok (topTier', positions', events)) :
    Shrinks newTierSize topTier topTier' positions positions' := by
  simp only [demoteShrinkExcess, bind_ok, pure_ok, Prod.mk.injEq, Prod.exists] at h
  obtain ⟨_, evicted, hshrink, _, _, hsettle, rfl, rfl, -⟩ := h
  have hlen : topTier.len ≤ MAX_TIER_SIZE := by
    unfold Tier.shrink at hshrink
    split at hshrink
    case isTrue hle => exact hle.trans hsize
    case isFalse =>
      simp only [Tier.evictedEntries, bind_ok, require_ok] at hshrink
      obtain ⟨_, ⟨_, hlen, -⟩, -⟩ := hshrink
      exact hlen
  obtain ⟨rfl, rfl, -⟩ := Tier.shrink_ok hlen hshrink
  refine ⟨rfl, fun k hk => ?_, fun k hk => (settleEvicted_lookup hsettle k).2 hk⟩
  obtain ⟨p, hp, -, hleft⟩ := (settleEvicted_lookup hsettle k).1 hk
  exact ⟨p, hp, hleft⟩

theorem demotions_shrinks {topTier topTier' : TopTier}
    (hsize : ∀ n, update = .tierSize n → n ≤ MAX_TIER_SIZE)
    (h : demotions topTier remaining positions poolKey slot update
      = .ok (topTier', positions', events)) :
    (∃ n, update = .tierSize n ∧ Shrinks n topTier topTier' positions positions') ∨
      (∀ n, update ≠ .tierSize n) ∧ topTier' = topTier ∧ positions' = positions := by
  cases update with
  | tierSize n => exact .inl ⟨n, rfl, demoteShrinkExcess_ok (hsize n rfl) h⟩
  | _ =>
    simp only [demotions, pure_ok, Prod.mk.injEq] at h
    obtain ⟨rfl, rfl, -⟩ := h
    exact .inr ⟨by simp, rfl, rfl⟩

-- ---------------------------------------------------------------------------
-- The three views
-- ---------------------------------------------------------------------------

/-- The members kept all outrank the members evicted. -/
def EvictsLowest (topTier : TopTier) (newTierSize : ℕ) : Prop :=
  ∀ kept ∈ topTier.members.take newTierSize, ∀ e ∈ topTier.members.drop newTierSize,
    Tier.rank kept e = .lt

theorem Ledger.Ranked.evictsLowest {L : Ledger} (h : L.Ranked) (n : ℕ) :
    EvictsLowest L.topTier n := by
  have hsorted : (L.topTier.members.take n ++ L.topTier.members.drop n).Pairwise Tier.Outranks := by
    rw [List.take_append_drop]
    exact h.listed.sorted
  intro kept hkept e he
  exact Tier.rank_lt.mpr ((List.pairwise_append.mp hsorted).2.2 kept hkept e he)

/-- On any pool an accepted update stores what was judged, logs each field that differs once, and
changes nothing outside its own group, the members a lower tier size evicts apart. -/
theorem configuration_views {administrator : Pubkey}
    (h : updateConfig clock c administrator poolKey remaining update = .ok (c', events)) :
    ∃ pool pool' topTier topTier', c.pools.lookup poolKey = some pool ∧
      c.topTiers.lookup (.topTier poolKey) = some topTier ∧
      c' = { c with
        pools := c.pools.insert poolKey pool'
        topTiers := c.topTiers.insert (.topTier poolKey) topTier'
        positions := c'.positions } ∧
      pool'.guarded = effectiveConfig pool update ∧ validate pool'.guarded = .ok () ∧
      ((plannedChanges pool update).map Prod.fst).Nodup ∧
      (∀ param old new, (param, old, new) ∈ plannedChanges pool update ↔
        ∃ field : ConfigField, field.param = param ∧ field.value pool = old ∧
          field.value pool' = new ∧ old ≠ new) ∧
      (∃ demoted, events = demoted ++ (plannedChanges pool update).map fun (param, old, new) =>
        Event.configChanged poolKey clock.slot administrator param old new) ∧
      (∀ field, field ∉ update.group → field.value pool' = field.value pool) ∧
      pool'.configuredAs pool = pool ∧
      ((∃ n, update = .tierSize n ∧ Shrinks n topTier topTier' c.positions c'.positions ∧
          ∀ X, Reachable X c → EvictsLowest topTier n) ∨
        (∀ n, update ≠ .tierSize n) ∧ topTier' = topTier ∧ c'.positions = c.positions) := by
  simp only [updateConfig, bind_ok, pure_ok, Prod.mk.injEq, Prod.exists] at h
  obtain ⟨_, -, pool, hpool, topTier, htopTier, _, hvalid, _, -, topTier', positions', demoted,
    hdemote, rfl, rfl⟩ := h
  have hlookup := loadTopTier_ok.mp htopTier
  rw [effectiveConfig_eq] at hvalid
  have hguarded := validate_iff.mp hvalid
  have hsize : ∀ n, update = .tierSize n → n ≤ MAX_TIER_SIZE := by
    rintro n rfl
    exact hguarded.tierSize.2
  refine ⟨pool, applyUpdate pool update, topTier, topTier', (loadPool_ok.mp hpool).1, hlookup, rfl,
    (effectiveConfig_eq pool update).symm, hvalid, plannedChanges_nodup pool update,
    fun param old new => mem_plannedChanges, ⟨demoted, rfl⟩, fun field => applyUpdate_value,
    applyUpdate_configuredAs pool update, ?_⟩
  refine (demotions_shrinks hsize hdemote).imp_left ?_
  rintro ⟨n, hupdate, hshrinks⟩
  refine ⟨n, hupdate, hshrinks, fun X hc => ?_⟩
  obtain ⟨L, hL, rfl, -⟩ := hc.sound.wellFormed.loadPool hpool
  obtain rfl := Option.some.inj (hlookup.symm.trans hL.topTier)
  exact (hc.sound.ranked poolKey L hL).evictsLowest n

theorem configuration_views_bank :
    ∃ c' events pool', updateConfig ⟨4, 4⟩
        (bankRun [admitCards, depositCard 30, approveCard 30 12000000 100, depositCard 31,
          approveCard 31 20000000 100])
        (.key 1) (.pool 0) [⟨bankPosition 30, true⟩] (.tierSize 1) = .ok (c', events) ∧
      c'.pools.lookup (.pool 0) = some pool' ∧ pool'.tierSize = 1 := by
  obtain ⟨⟨c', events⟩, h⟩ : ∃ out, updateConfig ⟨4, 4⟩
      (bankRun [admitCards, depositCard 30, approveCard 30 12000000 100, depositCard 31,
        approveCard 31 20000000 100])
      (.key 1) (.pool 0) [⟨bankPosition 30, true⟩] (.tierSize 1) = .ok out :=
    isOk_iff.mp (by decide +kernel)
  obtain ⟨pool, pool', topTier, topTier', -, -, hc', hguarded, -⟩ := configuration_views h
  have hsize : pool'.tierSize = (effectiveConfig pool (.tierSize 1)).tierSize :=
    congrArg EffectiveConfig.tierSize hguarded
  exact ⟨c', events, pool', h, by rw [hc']; exact Finmap.lookup_insert _, hsize⟩

end ByeMachine
