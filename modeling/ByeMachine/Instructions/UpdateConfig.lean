import ByeMachine.Chain
import Mathlib.Data.Fintype.Basic
import Mathlib.Data.Fintype.Defs

/-!
# Changing a pool's configuration

`instructions/admin/update_config.rs`: one configuration move, judged on the
configuration it would leave, and the demotions a lower `tier_size` forces.
-/

namespace ByeMachine

open Fallible

inductive ConfigUpdate where
  | admissionFloor (value : ℕ)
  | admissionCeiling (value : ℕ)
  | walletValueCap (value : ℕ)
  | maxN (value : ℕ)
  | buybackRateBps (value : ℕ)
  | t04Ceiling (value : ℕ)
  | sweepCadenceHours (value : ℕ)
  | tierSize (value : ℕ)
  | pricing (price ticketTarget fee : ℕ)
  | allocation (equalBps tierBps protocolBps : ℕ)
  | blankFaces (faces : Denomination → ℕ)

/-- The two weight-freeze call sites: both re-target the controller and so move `W`. -/
def requiresWeightFreeze (pool : Pool) : ConfigUpdate → Bool
  | .blankFaces _ => true
  | .pricing _ ticketTarget _ => ticketTarget != pool.ticketTarget
  | _ => false

/-- The guarded parameter surface, merged from the stored `Pool` and the submitted update. -/
structure EffectiveConfig where
  price : ℕ
  ticketTarget : ℕ
  fee : ℕ
  allocEqualBps : ℕ
  allocTierBps : ℕ
  allocProtocolBps : ℕ
  admissionFloor : ℕ
  blankFaces : Denomination → ℕ
  maxN : ℕ
  tierSize : ℕ

def effectiveConfig (pool : Pool) (update : ConfigUpdate) : EffectiveConfig :=
  let config : EffectiveConfig := {
    price := pool.price
    ticketTarget := pool.ticketTarget
    fee := pool.fee
    allocEqualBps := pool.allocEqualBps
    allocTierBps := pool.allocTierBps
    allocProtocolBps := pool.allocProtocolBps
    admissionFloor := pool.admissionFloor
    blankFaces := pool.blankFaces
    maxN := pool.maxN
    tierSize := pool.tierSize }
  match update with
  | .admissionFloor value => { config with admissionFloor := value }
  | .maxN value => { config with maxN := value }
  | .tierSize value => { config with tierSize := value }
  | .blankFaces faces => { config with blankFaces := faces }
  | .pricing price ticketTarget fee => { config with price, ticketTarget, fee }
  | .allocation equalBps tierBps protocolBps =>
    { config with allocEqualBps := equalBps, allocTierBps := tierBps
                  allocProtocolBps := protocolBps }
  | _ => config

/-- `for face in blank_faces`: positive, and below the ticket target. -/
def validateFaces (blankFaces : Denomination → ℕ) (ticketTarget : ℕ) : Result Unit :=
  [0, 1, 2].forM fun d => do
    require (0 < blankFaces d) (.program .blankFaceZero)
    require (blankFaces d < ticketTarget) (.program .blankFaceNotBelowTicket)

def validate (config : EffectiveConfig) : Result Unit := do
  require (config.ticketTarget < config.admissionFloor) (.program .admissionFloorNotAboveTicket)
  validateFaces config.blankFaces config.ticketTarget
  require (config.allocEqualBps + config.allocTierBps + config.allocProtocolBps = 10000)
    (.program .allocationBpsNotFullyAllocated)
  let expectedFee ← okOr (Checked.sub config.price config.ticketTarget)
    (.program .feeNotPriceMinusTicket)
  require (config.fee = expectedFee) (.program .feeNotPriceMinusTicket)
  require (1 ≤ config.maxN ∧ config.maxN ≤ MAX_BATCH_CAPACITY) (.program .maxNOutOfBounds)
  require (1 ≤ config.tierSize ∧ config.tierSize ≤ MAX_TIER_SIZE) (.program .tierSizeOutOfBounds)

/-- One `ConfigChanged` payload. -/
abbrev FieldChange := String × ConfigValue × ConfigValue

/-- `push_amount` and its siblings: a value equal to the stored one is no change. -/
def pushChange {α : Type} [DecidableEq α] (wrap : α → ConfigValue) (param : String) (old new : α) :
    List FieldChange :=
  if old ≠ new then [(param, wrap old, wrap new)] else []

def pushAmount : String → ℕ → ℕ → List FieldChange := pushChange .amount
def pushBps : String → ℕ → ℕ → List FieldChange := pushChange .bps
def pushHours : String → ℕ → ℕ → List FieldChange := pushChange .hours
def pushCount : String → ℕ → ℕ → List FieldChange := pushChange .count

def pushFaces : String → (Denomination → ℕ) → (Denomination → ℕ) → List FieldChange :=
  pushChange .faces

def plannedChanges (pool : Pool) : ConfigUpdate → List FieldChange
  | .admissionFloor value => pushAmount "admission_floor" pool.admissionFloor value
  | .admissionCeiling value => pushAmount "admission_ceiling" pool.admissionCeiling value
  | .walletValueCap value => pushAmount "wallet_value_cap" pool.walletValueCap value
  | .maxN value => pushCount "max_n" pool.maxN value
  | .buybackRateBps value => pushBps "buyback_rate_bps" pool.buybackRateBps value
  | .t04Ceiling value => pushAmount "t04_ceiling" pool.t04Ceiling value
  | .sweepCadenceHours value => pushHours "sweep_cadence_hours" pool.sweepCadenceHours value
  | .tierSize value => pushCount "tier_size" pool.tierSize value
  | .pricing price ticketTarget fee =>
    pushAmount "price" pool.price price ++
      pushAmount "ticket_target" pool.ticketTarget ticketTarget ++ pushAmount "fee" pool.fee fee
  | .allocation equalBps tierBps protocolBps =>
    pushBps "alloc_equal_bps" pool.allocEqualBps equalBps ++
      pushBps "alloc_tier_bps" pool.allocTierBps tierBps ++
      pushBps "alloc_protocol_bps" pool.allocProtocolBps protocolBps
  | .blankFaces faces => pushFaces "blank_faces" pool.blankFaces faces

def applyUpdate (pool : Pool) : ConfigUpdate → Pool
  | .admissionFloor value => { pool with admissionFloor := value }
  | .admissionCeiling value => { pool with admissionCeiling := value }
  | .walletValueCap value => { pool with walletValueCap := value }
  | .maxN value => { pool with maxN := value }
  | .buybackRateBps value => { pool with buybackRateBps := value }
  | .t04Ceiling value => { pool with t04Ceiling := value }
  | .sweepCadenceHours value => { pool with sweepCadenceHours := value }
  | .blankFaces faces => { pool with blankFaces := faces }
  | .pricing price ticketTarget fee => { pool with price, ticketTarget, fee }
  | .allocation equalBps tierBps protocolBps =>
    { pool with allocEqualBps := equalBps, allocTierBps := tierBps
                allocProtocolBps := protocolBps }
  | .tierSize value => { pool with tierSize := value }

/-- Settles each member a shrink demoted, matched by key among the remaining accounts. -/
def settleEvicted (remaining : List AccountMeta) (accTier : ℕ) (pool : Pubkey) (slot : ℕ) :
    List TierEntry → Positions → Result (Positions × List Event)
  | [], positions => pure (positions, [])
  | entry :: evicted, positions => do
    let positions ← Tier.settleDisplacedMember remaining positions entry accTier
    let (positions, events) ← settleEvicted remaining accTier pool slot evicted positions
    pure (positions, .tierChanged pool slot (some entry.position) none :: events)

/-- The shrink: a `tier_size` lowering demotes the excess lowest-ranked members here. -/
def demoteShrinkExcess (topTier : TopTier) (remaining : List AccountMeta) (positions : Positions)
    (newTierSize : ℕ) (pool : Pubkey) (slot : ℕ) :
    Result (TopTier × Positions × List Event) := do
  let (shrunk, evicted) ← Tier.shrink topTier newTierSize
  let (positions, events) ← settleEvicted remaining topTier.accTier pool slot evicted positions
  pure (shrunk, positions, events)

/-- Only the tier-size arm touches the tier. -/
def demotions (topTier : TopTier) (remaining : List AccountMeta) (positions : Positions)
    (pool : Pubkey) (slot : ℕ) : ConfigUpdate → Result (TopTier × Positions × List Event)
  | .tierSize value => demoteShrinkExcess topTier remaining positions value pool slot
  | _ => pure (topTier, positions, [])

def requireFreeze (pool : Pool) (update : ConfigUpdate) : Result Unit :=
  if requiresWeightFreeze pool update then assertWeightOpen pool else pure ()

def updateConfig (clock : Clock) (c : Chain) (administrator poolKey : Pubkey)
    (remaining : List AccountMeta) (update : ConfigUpdate) : Outcome := do
  let _ ← loadForAdministrator c administrator
  let pool ← c.loadPool poolKey
  let topTier ← c.loadTopTier poolKey
  validate (effectiveConfig pool update)
  requireFreeze pool update
  let changes := plannedChanges pool update
  let (topTier, positions, demoted) ←
    demotions topTier remaining c.positions poolKey clock.slot update
  let changed := changes.map fun (param, old, new) =>
    Event.configChanged poolKey clock.slot administrator param old new
  pure ({ c with
    pools := c.pools.insert poolKey (applyUpdate pool update)
    topTiers := c.topTiers.insert (.topTier poolKey) topTier
    positions }, demoted ++ changed)

end ByeMachine
