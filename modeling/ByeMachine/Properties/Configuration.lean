import ByeMachine.Invariants.Runs
import ByeMachine.Script

/-!
# The configuration a pool stores

`init_pool` and `update_config` guard the same parameters by the same rules, so
what is stored meets every guard whatever group of it was moved last.
-/

namespace ByeMachine

open Fallible

/-- What both validations ask of the parameters they guard. -/
structure EffectiveConfig.Guarded (config : EffectiveConfig) : Prop where
  covered : config.ticketTarget ≤ config.price
  fee : config.fee = config.price - config.ticketTarget
  floor : config.ticketTarget < config.admissionFloor
  faces : ∀ d, 0 < config.blankFaces d ∧ config.blankFaces d < config.ticketTarget
  allocation : config.allocEqualBps + config.allocTierBps + config.allocProtocolBps = 10000
  maxN : 1 ≤ config.maxN ∧ config.maxN ≤ MAX_BATCH_CAPACITY
  tierSize : 1 ≤ config.tierSize ∧ config.tierSize ≤ MAX_TIER_SIZE

def PoolConfigArgs.guarded (args : PoolConfigArgs) : EffectiveConfig where
  price := args.price
  ticketTarget := args.ticketTarget
  fee := args.fee
  allocEqualBps := args.allocEqualBps
  allocTierBps := args.allocTierBps
  allocProtocolBps := args.allocProtocolBps
  admissionFloor := args.admissionFloor
  blankFaces := args.blankFaces
  maxN := args.maxN
  tierSize := args.tierSize

def Pool.guarded (pool : Pool) : EffectiveConfig where
  price := pool.price
  ticketTarget := pool.ticketTarget
  fee := pool.fee
  allocEqualBps := pool.allocEqualBps
  allocTierBps := pool.allocTierBps
  allocProtocolBps := pool.allocProtocolBps
  admissionFloor := pool.admissionFloor
  blankFaces := pool.blankFaces
  maxN := pool.maxN
  tierSize := pool.tierSize

-- ---------------------------------------------------------------------------
-- The two validations
-- ---------------------------------------------------------------------------

theorem validate_iff {config : EffectiveConfig} : validate config = .ok () ↔ config.Guarded := by
  simp only [validate, bind_ok, require_ok, okOr_ok, validateFaces_ok, Checked.sub_some]
  constructor
  · rintro ⟨-, hfloor, -, hfaces, -, hallocation, _, ⟨hcovered, rfl⟩, -, hfee, -, hmaxN, hsize⟩
    exact ⟨hcovered, hfee, hfloor, hfaces, hallocation, hmaxN, hsize⟩
  · rintro ⟨hcovered, hfee, hfloor, hfaces, hallocation, hmaxN, hsize⟩
    exact ⟨(), hfloor, (), hfaces, (), hallocation, _, ⟨hcovered, rfl⟩, (), hfee, (), hmaxN, hsize⟩

theorem validateConfig_iff {args : PoolConfigArgs} :
    validateConfig args = .ok () ↔ args.guarded.Guarded := by
  simp only [validateConfig, bind_ok, require_ok, validateFaces_ok, Checked.sub_some]
  constructor
  · rintro ⟨-, hallocation, -, ⟨hcovered, hfee⟩, -, hfloor, -, hfaces, -, hmaxN, hsize⟩
    exact ⟨hcovered, hfee, hfloor, hfaces, hallocation, hmaxN, hsize⟩
  · rintro ⟨hcovered, hfee, hfloor, hfaces, hallocation, hmaxN, hsize⟩
    exact ⟨(), hallocation, (), ⟨hcovered, hfee⟩, (), hfloor, (), hfaces, (), hmaxN, hsize⟩

/-- What a configuration move is judged on is what it stores. -/
theorem effectiveConfig_eq (pool : Pool) (update : ConfigUpdate) :
    effectiveConfig pool update = (applyUpdate pool update).guarded := by
  cases update <;> rfl

-- ---------------------------------------------------------------------------
-- Over runs
-- ---------------------------------------------------------------------------

theorem Move.guarded {L L' : Ledger} (h : Move L L') : L'.pool.guarded = L.pool.guarded := by
  cases h <;> rfl

theorem Moves.guarded {L L' : Ledger} (h : Moves L L') : L'.pool.guarded = L.pool.guarded := by
  induction h with
  | refl => rfl
  | tail _ hmove ih => exact hmove.guarded.trans ih

theorem Change.guarded {L L' : Ledger} {update : Option ConfigUpdate} (h : Change update L L')
    (hguarded : L.pool.guarded.Guarded) : L'.pool.guarded.Guarded := by
  cases h with
  | moves hmoves => rwa [Moves.guarded hmoves]
  | intake hintake hmoves =>
    rw [Moves.guarded hmoves]
    cases hintake
    exact hguarded
  | configure hupdate hconfig =>
    cases hconfig with
    | intro hvalid =>
      rw [effectiveConfig_eq] at hvalid
      exact validate_iff.mp hvalid

theorem Ledger.Founded.guarded {L : Ledger} (h : L.Founded) : L.pool.guarded.Guarded := by
  obtain ⟨key, poolId, weightIndex, args, bump, tierBump, hvalid, rfl⟩ := h
  exact validateConfig_iff.mp hvalid

theorem Reachable.guarded {X : Programs} {c : Chain} {key : Pubkey} {pool : Pool}
    (h : Reachable X c) (hpool : c.pools.lookup key = some pool) : pool.guarded.Guarded := by
  obtain ⟨L, -, hL, rfl⟩ := h.sound.ledger hpool
  exact h.ledger (fun _ hfounded => hfounded.guarded)
    (fun _ _ _ _ _ _ _ _ hchange _ => hchange.guarded) hL

/-- The two validations accept the same parameters, every pool stores such, and so `init_pool`
would have accepted what any order of configuration moves has left. -/
theorem configuration_invariant (X : Programs) :
    (∀ args, validateConfig args = .ok () ↔ validate args.guarded = .ok ()) ∧
      ∀ c key pool, Reachable X c → c.pools.lookup key = some pool →
        pool.guarded.Guarded ∧
          ∀ args : PoolConfigArgs, args.guarded = pool.guarded → validateConfig args = .ok () := by
  refine ⟨fun args => validateConfig_iff.trans validate_iff.symm, fun c key pool hc hpool => ?_⟩
  have hguarded := hc.guarded hpool
  exact ⟨hguarded, fun args hargs => validateConfig_iff.mpr (hargs ▸ hguarded)⟩

def reconfigured : List (Clock × Instr) :=
  [configure (.pricing 8_000_000 7_000_000 1_000_000), configure (.admissionFloor 7_000_001),
    configure (.allocation 10_000 0 0), configure (.tierSize 20), configure (.maxN 1)]

theorem configuration_invariant_bank : ∃ pool, (bankRun reconfigured).pools.lookup (.pool 0)
    = some pool ∧ pool.guarded.Guarded ∧ pool.admissionFloor = 7_000_001 ∧
      validateConfig (defaultArgs .default) = .ok () := by
  have hc : Reachable bank (bankRun reconfigured) := bankRun_reachable (by decide +kernel)
  have hfloor : ((bankRun reconfigured).pools.lookup (.pool 0)).map (·.admissionFloor)
      = some 7_000_001 := by decide +kernel
  obtain ⟨pool, hpool, hadmission⟩ := Option.map_eq_some_iff.mp hfloor
  obtain ⟨hsame, hinvariant⟩ := configuration_invariant bank
  exact ⟨pool, hpool, (hinvariant _ _ _ hc hpool).1, hadmission,
    (hsame _).mpr (by decide +kernel)⟩

end ByeMachine
