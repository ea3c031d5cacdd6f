import ByeMachine.Refinement.Fate
import ByeMachine.Refinement.Handlers

/-!
# The footprint of an instruction

The accounts of this program that an instruction may change and the signature it
takes, named before it runs. A remaining account is one of the former only where
it is passed to be written.
-/

namespace ByeMachine

open Fallible Store

-- ---------------------------------------------------------------------------
-- Remaining accounts
-- ---------------------------------------------------------------------------

def writableKeys (remaining : List AccountMeta) : List Pubkey :=
  (remaining.filter (·.isWritable)).map (·.key)

section

variable {remaining : List AccountMeta} {positions positions' : Positions} {t t' : TopTier}
  {p q : Position} {k poolKey : Pubkey} {tierSize accTier : ℕ} {change : TierChange}

theorem mem_writableKeys {a : AccountMeta} (hmem : a ∈ remaining) (hwritable : a.isWritable = true) :
    a.key ∈ writableKeys remaining :=
  List.mem_map_of_mem (List.mem_filter.mpr ⟨hmem, hwritable⟩)

theorem settleDisplacedMember_writes {evicted : TierEntry}
    (h : Tier.settleDisplacedMember remaining positions evicted accTier = .ok positions') :
    WritesOnly (writableKeys remaining) positions positions' := by
  simp only [Tier.settleDisplacedMember, bind_ok, okOr_ok, require_ok, pure_ok] at h
  obtain ⟨info, hinfo, -, hwritable, _, -, _, -, rfl⟩ := h
  exact (WritesOnly.refl positions).insert
    (mem_writableKeys (List.mem_of_find?_eq_some hinfo) hwritable)

theorem fillVacancyFromCandidate_writes {entered : Option Pubkey}
    (h : Tier.fillVacancyFromCandidate t tierSize remaining positions poolKey accTier
      = .ok (t', positions', entered)) :
    WritesOnly (writableKeys remaining) positions positions' := by
  unfold Tier.fillVacancyFromCandidate at h
  split at h
  · simp only [pure_ok, Prod.mk.injEq] at h
    obtain ⟨-, rfl, -⟩ := h
    exact .refl _
  · rename_i info hinfo
    simp only [bind_ok, require_ok, pure_ok, Prod.mk.injEq] at h
    obtain ⟨-, hwritable, _, -, -, -, -, -, _, -, -, rfl, -⟩ := h
    exact (WritesOnly.refl positions).insert
      (mem_writableKeys (List.mem_of_mem_head? hinfo) hwritable)

theorem promoteActivated_writes {candidate : TierEntry} {entered : Bool} {displaced : Option Pubkey}
    (h : promoteActivated t tierSize candidate remaining positions
      = .ok (t', positions', entered, displaced)) :
    WritesOnly (writableKeys remaining) positions positions' := by
  simp only [promoteActivated, bind_ok, Prod.exists] at h
  obtain ⟨_, promoted, -, h⟩ := h
  cases promoted with
  | inserted | rejected =>
    simp only [pure_ok, Prod.mk.injEq] at h
    obtain ⟨-, rfl, -⟩ := h
    exact .refl _
  | swapped evicted =>
    simp only [bind_ok, pure_ok, Prod.mk.injEq] at h
    obtain ⟨_, hsettle, -, rfl, -⟩ := h
    exact settleDisplacedMember_writes hsettle

theorem settleCrossed_writes {crossed : Tier.CrossOutcome} {left : Option Pubkey}
    (h : settleCrossed remaining positions accTier crossed = .ok (positions', left)) :
    WritesOnly (writableKeys remaining) positions positions' := by
  cases crossed with
  | inserted =>
    simp only [settleCrossed, pure_ok, Prod.mk.injEq] at h
    obtain ⟨rfl, -⟩ := h
    exact .refl _
  | swapped evicted =>
    simp only [settleCrossed, bind_ok, pure_ok, Prod.mk.injEq] at h
    obtain ⟨_, hsettle, rfl, -⟩ := h
    exact settleDisplacedMember_writes hsettle
  | rejected => cases h

theorem crossAndSettle_writes {candidate : TierEntry}
    (h : crossAndSettle t tierSize k p candidate remaining positions
      = .ok (t', q, positions', change)) :
    WritesOnly (writableKeys remaining) positions positions' := by
  simp only [crossAndSettle, bind_ok, Prod.exists] at h
  obtain ⟨_, _, crossed, -, h⟩ := h
  cases crossed with
  | inserted | rejected =>
    simp only [pure_ok, Prod.mk.injEq] at h
    obtain ⟨-, -, rfl, -⟩ := h
    exact .refl _
  | swapped evicted =>
    simp only [bind_ok, pure_ok, Prod.mk.injEq] at h
    obtain ⟨_, hsettle, -, -, rfl, -⟩ := h
    exact settleDisplacedMember_writes hsettle

theorem vacateAndFill_writes
    (h : vacateAndFill t tierSize poolKey k p remaining positions = .ok (t', q, positions', change)) :
    WritesOnly (writableKeys remaining) positions positions' := by
  simp only [vacateAndFill, bind_ok, pure_ok, Prod.mk.injEq, Prod.exists] at h
  obtain ⟨_, _, _, -, _, _, _, hfill, -, -, rfl, -⟩ := h
  exact fillVacancyFromCandidate_writes hfill

theorem recordTier_writes {outcome : RecordOutcome} {value : ℕ}
    (h : recordTier outcome t tierSize poolKey k p value remaining positions
      = .ok (t', q, positions', change)) :
    WritesOnly (writableKeys remaining) positions positions' := by
  unfold recordTier at h
  split at h
  · split at h
    · exact vacateAndFill_writes h
    · simp only [pure_ok, Prod.mk.injEq] at h
      obtain ⟨-, -, rfl, -⟩ := h
      exact .refl _
  · split at h
    · simp only [bind_ok, pure_ok, Prod.mk.injEq] at h
      obtain ⟨_, -, -, -, rfl, -⟩ := h
      exact .refl _
    · exact crossAndSettle_writes h

theorem withdrawTier_writes {wasMember : Bool}
    (h : withdrawTier wasMember t tierSize poolKey k p remaining positions
      = .ok (t', q, positions', change)) :
    WritesOnly (writableKeys remaining) positions positions' := by
  unfold withdrawTier at h
  split at h
  · exact vacateAndFill_writes h
  · simp only [pure_ok, Prod.mk.injEq] at h
    obtain ⟨-, -, rfl, -⟩ := h
    exact .refl _

theorem settleEvicted_writes {slot : ℕ} {evicted : List TierEntry} {events : List Event}
    (h : settleEvicted remaining accTier poolKey slot evicted positions
      = .ok (positions', events)) :
    WritesOnly (writableKeys remaining) positions positions' := by
  induction evicted generalizing positions events with
  | nil =>
    simp only [settleEvicted, pure_ok, Prod.mk.injEq] at h
    obtain ⟨rfl, -⟩ := h
    exact .refl _
  | cons e evicted ih =>
    simp only [settleEvicted, bind_ok, pure_ok, Prod.mk.injEq, Prod.exists] at h
    obtain ⟨_, hdisplaced, _, _, hrest, rfl, -⟩ := h
    exact (settleDisplacedMember_writes hdisplaced).trans (ih hrest)

theorem demotions_writes {slot : ℕ} {update : ConfigUpdate} {events : List Event}
    (h : demotions t remaining positions poolKey slot update = .ok (t', positions', events)) :
    WritesOnly (writableKeys remaining) positions positions' := by
  cases update with
  | tierSize value =>
    simp only [demotions, demoteShrinkExcess, bind_ok, pure_ok, Prod.mk.injEq, Prod.exists] at h
    obtain ⟨_, _, -, _, _, hsettle, -, rfl, -⟩ := h
    exact settleEvicted_writes hsettle
  | _ =>
    simp only [demotions, pure_ok, Prod.mk.injEq] at h
    obtain ⟨-, rfl, -⟩ := h
    exact .refl _

end

-- ---------------------------------------------------------------------------
-- Instructions
-- ---------------------------------------------------------------------------

def indexKeys (c : Chain) (pool : Pubkey) : List Pubkey :=
  ((c.pools.lookup pool).map (·.weightIndex)).toList

def ownerKeys (c : Chain) (pool position : Pubkey) : List Pubkey :=
  ((c.positions.lookup position).map fun p => .walletStats pool p.depositor).toList

def boundKeys (c : Chain) (pool position : Pubkey) : List Pubkey :=
  pool :: position :: .topTier pool :: (indexKeys c pool ++ ownerKeys c pool position)

def poolKeys (config : ProtocolConfig) : List Pubkey :=
  [.pool config.poolCounter, .topTier (.pool config.poolCounter)]

def batchKeys (c : Chain) (pool : Pubkey) : List Pubkey :=
  ((c.pools.lookup pool).map fun p => .rollBatch pool p.batchCounter).toList

/-- Whose signature the accounts struct takes. -/
def Instr.signer : Instr → Pubkey
  | .initProtocol key .. | .initPool key .. | .updateConfig key .. | .updateVrfConfig key ..
  | .admitCollection key .. | .withdrawCollection key .. | .setPause key .. | .setAuthorities key ..
  | .approveDeposit key .. | .rejectDeposit key .. | .returnRejected key ..
  | .returnRejectedCore key .. | .beginSweep key .. | .recordValue key .. | .endSweep key ..
  | .withdraw key .. | .withdrawCore key .. | .claimNft key .. | .claimNftCore key ..
  | .closeSeized key .. | .commitRolls key .. | .vrfCallback key .. | .updateTier key .. => key
  | .deposit a => a.depositor
  | .depositCore a => a.depositor

/-- The accounts of this program that the instruction may change. -/
def Instr.footprint (c : Chain) : Instr → List Pubkey
  | .initProtocol .. | .updateVrfConfig .. | .setAuthorities .. => [.protocolConfig]
  | .initPool _ weightIndex _ =>
    .protocolConfig :: weightIndex :: (c.protocolConfig.map poolKeys).getD []
  | .updateConfig _ pool remaining _ => pool :: .topTier pool :: writableKeys remaining
  | .admitCollection _ pool collection .. | .withdrawCollection _ pool collection _ =>
    [.poolCollection pool collection]
  | .setPause _ pool .. | .beginSweep _ pool | .endSweep _ pool => [pool]
  | .deposit a => [a.pool, .position a.pool a.nftMint, .walletStats a.pool a.depositor]
  | .depositCore a => [a.pool, .position a.pool a.asset, .walletStats a.pool a.depositor]
  | .approveDeposit _ pool position remaining .. | .recordValue _ pool position remaining ..
  | .withdraw _ pool position _ remaining _ | .withdrawCore _ pool position _ _ remaining =>
    boundKeys c pool position ++ writableKeys remaining
  | .closeSeized _ pool position _ => boundKeys c pool position
  | .rejectDeposit _ position _ | .returnRejected _ position _ | .returnRejectedCore _ position _
  | .claimNft _ position _ | .claimNftCore _ position _ => [position]
  | .commitRolls _ pool _ _ => pool :: batchKeys c pool
  | .vrfCallback _ batch _ _ => [batch]
  | .updateTier _ pool position remaining =>
    position :: .topTier pool :: writableKeys remaining

/-- Only the accounts at these addresses changed. -/
structure Chain.WritesOnly (keys : List Pubkey) (c c' : Chain) : Prop where
  config : .protocolConfig ∉ keys → c'.protocolConfig = c.protocolConfig := by exact fun _ => rfl
  pools : Store.WritesOnly keys c.pools c'.pools := by exact .refl _
  weightIndexes : Store.WritesOnly keys c.weightIndexes c'.weightIndexes := by exact .refl _
  topTiers : Store.WritesOnly keys c.topTiers c'.topTiers := by exact .refl _
  positions : Store.WritesOnly keys c.positions c'.positions := by exact .refl _
  walletStats : Store.WritesOnly keys c.walletStats c'.walletStats := by exact .refl _
  poolCollections : Store.WritesOnly keys c.poolCollections c'.poolCollections := by exact .refl _
  rollBatches : Store.WritesOnly keys c.rollBatches c'.rollBatches := by exact .refl _

section

variable {X : Programs} {clock : Clock} {c c' : Chain} {instr : Instr} {events : List Event}
  {keys : List Pubkey}

theorem writes_one {κ α : Type} [DecidableEq κ] {keys : List κ} {m : Store κ α} {k : κ} {a : α}
    (hk : k ∈ keys) : Store.WritesOnly keys m (m.insert k a) := (WritesOnly.refl m).insert hk

theorem recordDeposit_footprint {poolKey depositor nftMint : Pubkey} {pool : Pool} {standard : ℕ}
    {tokens : Tokens} {externals : Externals}
    (h : recordDeposit X clock c poolKey depositor nftMint pool standard tokens externals
      = .ok (c', events)) :
    c.WritesOnly [poolKey, .position poolKey nftMint, .walletStats poolKey depositor] c' := by
  obtain ⟨-, rfl, -⟩ := recordDeposit_ok h
  exact {
    pools := writes_one (by simp)
    positions := writes_one (by simp)
    walletStats := writes_one (by simp) }

theorem boundKeys_loaded {pool position : Pubkey} {a : Loaded}
    (h : loadThroughPool c pool position = .ok a) :
    boundKeys c pool position =
      [pool, position, .topTier pool, a.pool.weightIndex, .walletStats pool a.position.depositor] := by
  obtain ⟨hpool, hp, -⟩ := loadThroughPool_ok h
  rw [boundKeys, indexKeys, ownerKeys, hpool, hp]
  rfl

theorem withdrawAccounting_footprint {poolKey positionKey : Pubkey} {depositorUsdc : Option Pubkey}
    {remaining : List AccountMeta} {a : Loaded} (ha : loadThroughPool c poolKey positionKey = .ok a)
    (h : withdrawAccounting clock c poolKey positionKey depositorUsdc remaining a
      = .ok (c', events)) :
    c.WritesOnly (boundKeys c poolKey positionKey ++ writableKeys remaining) c' := by
  obtain ⟨_, _, _, _, positions, _, _, hpaid⟩ := withdrawAccounting_ok h
  have hremaining := withdrawTier_writes hpaid.ranks
  obtain rfl := hpaid.after
  rw [boundKeys_loaded ha]
  exact {
    pools := writes_one (by simp)
    weightIndexes := writes_one (by simp)
    topTiers := writes_one (by simp)
    positions := (hremaining.mono (List.subset_append_right _ _)).erase (by simp)
    walletStats := writes_one (by simp) }

/-- An instruction changes no account outside its footprint. -/
theorem exec_footprint (h : exec X clock c instr = .ok (c', events)) :
    c.WritesOnly (instr.footprint c) c' := by
  cases instr with
  | initProtocol payer args =>
    simp only [exec, initProtocol, bind_ok, pure_ok, Prod.mk.injEq] at h
    obtain ⟨-, -, -, -, -, -, rfl, -⟩ := h
    exact { config := fun hk => absurd (List.mem_singleton_self _) hk }
  | initPool administrator weightIndex args =>
    obtain ⟨config, _, _, hinit⟩ := initPool_ok h
    have hconfig := hinit.administers
    simp only [loadForAdministrator, Chain.loadConfig, bind_ok, okOr_ok, pure_ok] at hconfig
    obtain ⟨-, -, config, hconfig, -, -, rfl⟩ := hconfig
    obtain rfl := hinit.after
    simp only [Instr.footprint, hconfig, Option.map_some, Option.getD_some, poolKeys]
    exact {
      config := fun hk => absurd List.mem_cons_self hk
      pools := writes_one (by simp)
      weightIndexes := writes_one (by simp)
      topTiers := writes_one (by simp) }
  | updateConfig administrator pool remaining update =>
    obtain ⟨_, _, _, positions, _, hupdate⟩ := updateConfig_ok h
    have hremaining := demotions_writes hupdate.demotes
    obtain rfl := hupdate.after
    exact {
      pools := writes_one (by simp [Instr.footprint])
      topTiers := writes_one (by simp [Instr.footprint])
      positions := hremaining.mono (by simp [Instr.footprint]) }
  | updateVrfConfig administrator vrfProgram oracleQueue swapPool =>
    simp only [exec, updateVrfConfig, bind_ok, pure_ok, Prod.mk.injEq] at h
    obtain ⟨_, -, rfl, -⟩ := h
    exact { config := fun hk => absurd (List.mem_singleton_self _) hk }
  | admitCollection administrator pool collection standards reason =>
    simp only [exec, admitCollection, bind_ok, pure_ok, Prod.mk.injEq] at h
    obtain ⟨_, -, _, -, -, -, rfl, -⟩ := h
    exact { poolCollections := writes_one (by simp [Instr.footprint]) }
  | withdrawCollection administrator pool collection reason =>
    simp only [exec, withdrawCollection, bind_ok, pure_ok, Prod.mk.injEq] at h
    obtain ⟨_, -, _, -, _, -, rfl, -⟩ := h
    exact { poolCollections := (WritesOnly.refl _).erase (by simp [Instr.footprint]) }
  | setPause administrator pool deposits rolls reason =>
    simp only [exec, setPause, bind_ok, pure_ok, Prod.mk.injEq] at h
    obtain ⟨_, -, _, -, rfl, -⟩ := h
    exact { pools := writes_one (by simp [Instr.footprint]) }
  | setAuthorities signer role newAuthority =>
    simp only [exec, setAuthorities, bind_ok] at h
    obtain ⟨-, -, _, -, h⟩ := h
    cases newAuthority with
    | some proposed =>
      simp only [bind_ok, pure_ok, Prod.mk.injEq] at h
      obtain ⟨-, -, rfl, -⟩ := h
      exact { config := fun hk => absurd (List.mem_singleton_self _) hk }
    | none =>
      simp only [bind_ok, pure_ok, Prod.mk.injEq] at h
      obtain ⟨-, -, -, -, rfl, -⟩ := h
      exact { config := fun hk => absurd (List.mem_singleton_self _) hk }
  | deposit a =>
    obtain ⟨_, _, _, _, _, _, hdeposit⟩ := deposit_ok h
    exact recordDeposit_footprint hdeposit.records
  | depositCore a =>
    obtain ⟨_, _, _, _, hdeposit⟩ := depositCore_ok h
    exact recordDeposit_footprint hdeposit.records
  | approveDeposit operator pool position remaining value observedAt lockUntil =>
    obtain ⟨a, _, _, _, positions, _, _, _, _, happrove⟩ := approveDeposit_ok h
    have hremaining := promoteActivated_writes happrove.promotes
    obtain rfl := happrove.after
    simp only [Instr.footprint, boundKeys_loaded happrove.loads]
    exact {
      pools := writes_one (by simp)
      weightIndexes := writes_one (by simp)
      topTiers := writes_one (by simp)
      positions := (hremaining.mono (List.subset_append_right _ _)).insert (by simp)
      walletStats := writes_one (by simp) }
  | rejectDeposit operator position reason =>
    obtain ⟨_, hreject⟩ := rejectDeposit_ok h
    obtain rfl := hreject.after
    exact { positions := writes_one (by simp [Instr.footprint]) }
  | returnRejected payer position accounts =>
    obtain ⟨_, _, _, hreturn⟩ := returnRejected_ok h
    obtain rfl := hreturn.after
    exact { positions := (WritesOnly.refl _).erase (by simp [Instr.footprint]) }
  | returnRejectedCore payer position collection =>
    obtain ⟨_, _, _, hreturn⟩ := returnRejectedCore_ok h
    obtain rfl := hreturn.after
    exact { positions := (WritesOnly.refl _).erase (by simp [Instr.footprint]) }
  | beginSweep operator pool =>
    simp only [exec, beginSweep, bind_ok, pure_ok, Prod.mk.injEq, Prod.exists] at h
    obtain ⟨_, -, _, -, _, _, -, rfl, -⟩ := h
    exact { pools := writes_one (by simp [Instr.footprint]) }
  | recordValue operator pool position remaining value observedAt =>
    obtain ⟨a, _, _, _, _, positions, _, hrecord⟩ := recordValue_ok h
    have hremaining := recordTier_writes hrecord.ranks
    obtain rfl := hrecord.after
    simp only [Instr.footprint, boundKeys_loaded hrecord.loads]
    exact {
      pools := writes_one (by simp)
      weightIndexes := writes_one (by simp)
      topTiers := writes_one (by simp)
      positions := (hremaining.mono (List.subset_append_right _ _)).insert (by simp)
      walletStats := writes_one (by simp) }
  | endSweep operator pool =>
    simp only [exec, endSweep, bind_ok, pure_ok, Prod.mk.injEq, Prod.exists] at h
    obtain ⟨_, -, _, -, _, _, _, -, rfl, -⟩ := h
    exact { pools := writes_one (by simp [Instr.footprint]) }
  | withdraw depositor pool position depositorUsdc remaining accounts =>
    obtain ⟨a, paid, _, _, hwithdraw⟩ := withdraw_ok h
    have hpaid := withdrawAccounting_footprint hwithdraw.loads hwithdraw.accounts
    obtain rfl := hwithdraw.after
    exact { hpaid with }
  | withdrawCore depositor pool position depositorUsdc collection remaining =>
    obtain ⟨a, _, paid, _, hwithdraw⟩ := withdrawCore_ok h
    have hpaid := withdrawAccounting_footprint hwithdraw.loads hwithdraw.accounts
    obtain rfl := hwithdraw.after
    exact { hpaid with }
  | claimNft depositor position accounts =>
    obtain ⟨_, _, _, hclaim⟩ := claimNft_ok h
    obtain rfl := hclaim.after
    exact { positions := (WritesOnly.refl _).erase (by simp [Instr.footprint]) }
  | claimNftCore depositor position collection =>
    obtain ⟨_, _, _, hclaim⟩ := claimNftCore_ok h
    obtain rfl := hclaim.after
    exact { positions := (WritesOnly.refl _).erase (by simp [Instr.footprint]) }
  | closeSeized caller pool position collection =>
    obtain ⟨a, _, _, _, _, _, _, _, hclose⟩ := closeSeized_ok h
    obtain rfl := hclose.after
    simp only [Instr.footprint, boundKeys_loaded hclose.loads]
    exact {
      pools := writes_one (by simp)
      weightIndexes := writes_one (by simp)
      topTiers := writes_one (by simp)
      positions := writes_one (by simp)
      walletStats := writes_one (by simp) }
  | commitRolls roller pool rollerUsdc n =>
    obtain ⟨_, found, _, _, _, _, _, _, _, _, hcommit⟩ := commitRolls_ok h
    have hpool := (loadPool_ok.mp hcommit.loads).1
    obtain rfl := hcommit.after
    exact {
      pools := writes_one (by simp [Instr.footprint])
      rollBatches := writes_one (by simp [Instr.footprint, batchKeys, hpool]) }
  | vrfCallback signer batch pool randomness =>
    obtain ⟨_, _, _, hcallback⟩ := vrfCallback_ok h
    obtain rfl := hcallback.after
    exact { rollBatches := writes_one (by simp [Instr.footprint]) }
  | updateTier operator pool position remaining =>
    obtain ⟨_, _, _, _, _, _, positions, _, hupdate⟩ := updateTier_ok h
    have hremaining := settleCrossed_writes hupdate.settles
    obtain rfl := hupdate.after
    exact {
      topTiers := writes_one (by simp [Instr.footprint])
      positions := (hremaining.mono (by simp [Instr.footprint])).insert (by simp [Instr.footprint]) }

end

end ByeMachine
