import ByeMachine.Base.Replay
import ByeMachine.Properties.AuditTrail
import ByeMachine.Properties.ConfigurationViews
import ByeMachine.Refinement.Events
import ByeMachine.Refinement.Handlers
import ByeMachine.Refinement.Pools

/-!
# A pool's record in the log

Nothing of a pool changes silently. A reader of the log who takes each event for
what it says, and checks it against what the events before it said, holds the
pool's record: its configuration, its pauses, its targets, its counters and its
sweep. Not among it are what the settlement of rolls writes (the open batches,
their liability, the fees owed and the accumulator) and the bump.
-/

namespace ByeMachine

open Fallible Replay

/-- What the log tells of a pool: neither the fields of the settlement nor the bump. -/
def Pool.told (pool : Pool) : Pool :=
  { pool with
    openBatches := 0, pendingRollLiability := 0, owedFees := 0, accEqual := 0, bump := 0 }

-- ---------------------------------------------------------------------------
-- The reading
-- ---------------------------------------------------------------------------

namespace ConfigField

def all : List ConfigField :=
  [.price, .ticketTarget, .fee, .allocEqualBps, .allocTierBps, .allocProtocolBps, .admissionFloor,
    .admissionCeiling, .walletValueCap, .maxN, .buybackRateBps, .blankFaces, .t04Ceiling,
    .sweepCadenceHours, .tierSize]

/-- The field a name in the log stands for. -/
def named (param : String) : Option ConfigField := all.find? fun field => field.param = param

def store (pool : Pool) : ConfigField → ConfigValue → Option Pool
  | price, .amount value => some { pool with price := value }
  | ticketTarget, .amount value => some { pool with ticketTarget := value }
  | fee, .amount value => some { pool with fee := value }
  | allocEqualBps, .bps value => some { pool with allocEqualBps := value }
  | allocTierBps, .bps value => some { pool with allocTierBps := value }
  | allocProtocolBps, .bps value => some { pool with allocProtocolBps := value }
  | admissionFloor, .amount value => some { pool with admissionFloor := value }
  | admissionCeiling, .amount value => some { pool with admissionCeiling := value }
  | walletValueCap, .amount value => some { pool with walletValueCap := value }
  | maxN, .count value => some { pool with maxN := value }
  | buybackRateBps, .bps value => some { pool with buybackRateBps := value }
  | blankFaces, .faces value => some { pool with blankFaces := value }
  | t04Ceiling, .amount value => some { pool with t04Ceiling := value }
  | sweepCadenceHours, .hours value => some { pool with sweepCadenceHours := value }
  | tierSize, .count value => some { pool with tierSize := value }
  | _, _ => none

theorem named_param (field : ConfigField) : named field.param = some field := by
  cases field <;> decide

theorem store_value (field : ConfigField) (pool : Pool) :
    field.store pool (field.value pool) = some pool := by
  cases field <;> rfl

end ConfigField

def Event.toldPool : Event → Option Pubkey
  | .poolInitialized pool .. | .configChanged pool .. | .pauseSet pool .. | .depositPending pool ..
  | .rebalanceEvaluated pool .. | .valueRecorded pool .. | .sweepBegun pool ..
  | .sweepEnded pool .. | .batchCommitted pool .. => some pool
  | _ => none

def EventKind.ofPool : List EventKind :=
  [.poolInitialized, .configChanged, .pauseSet, .depositPending, .rebalanceEvaluated,
    .valueRecorded, .sweepBegun, .sweepEnded, .batchCommitted]

def pricedAt (pool : Pool) (sPrice sTicket sFee : ℕ) (sAllocBps : Fin 3 → ℕ)
    (sBlankFaces : Denomination → ℕ) : Prop :=
  sPrice = pool.price ∧ sTicket = pool.ticketTarget ∧ sFee = pool.fee ∧
    sAllocBps = ![pool.allocEqualBps, pool.allocTierBps, pool.allocProtocolBps] ∧
    sBlankFaces = pool.blankFaces

instance (pool : Pool) (sPrice sTicket sFee : ℕ) (sAllocBps : Fin 3 → ℕ)
    (sBlankFaces : Denomination → ℕ) :
    Decidable (pricedAt pool sPrice sTicket sFee sAllocBps sBlankFaces) :=
  inferInstanceAs (Decidable (_ ∧ _))

/-- One event of the pool at `key`, where the record so far allows it. -/
def tellPool (key : Pubkey) : Option Pool → Event → Option Pool
  | none, .poolInitialized _ _ _ poolId weightIndex treasury03 price ticketTarget fee allocEqualBps
      allocTierBps allocProtocolBps admissionFloor admissionCeiling walletValueCap maxN
      buybackRateBps blankFaces t04Ceiling sweepCadenceHours tierSize =>
    some (genesisPool poolId weightIndex { treasury03, price, ticketTarget, fee, allocEqualBps
                                           allocTierBps, allocProtocolBps, admissionFloor
                                           admissionCeiling, walletValueCap, maxN, buybackRateBps
                                           blankFaces, t04Ceiling, sweepCadenceHours, tierSize } 0)
  | some pool, .configChanged _ _ _ param old new => do
    let field ← ConfigField.named param
    if field.value pool = old then field.store pool new else none
  | some pool, .pauseSet _ _ _ depositsPaused rollsPaused pauseReason =>
    some { pool with depositsPaused, rollsPaused, pauseReason }
  | some pool, .depositPending .. => some { pool with positionCounter := pool.positionCounter + 1 }
  | some pool, .rebalanceEvaluated _ _ nReal wReal blanksBefore blanksAfter =>
    if blanksBefore = pool.blanks then some (pool.weighed nReal wReal blanksAfter) else none
  | some pool, .valueRecorded .. =>
    if pool.sweepPending then some { pool with sweepUpdates := pool.sweepUpdates + 1 } else none
  | some pool, .sweepBegun _ _ _ sweepEpoch =>
    if pool.sweepPending = false ∧ sweepEpoch = pool.sweepEpoch then
      some { pool with sweepPending := true, sweepUpdates := 0 }
    else none
  | some pool, .sweepEnded _ _ _ sweepEpoch positionsUpdated lastSweepAt =>
    if pool.sweepPending ∧ sweepEpoch = pool.sweepEpoch ∧ positionsUpdated = pool.sweepUpdates then
      some { pool with sweepPending := false, sweepEpoch := pool.sweepEpoch + 1, lastSweepAt }
    else none
  | some pool, .batchCommitted _ _ _ batch _ sPrice sTicket sFee sAllocBps sBlankFaces =>
    if batch = .rollBatch key pool.batchCounter ∧
        pricedAt pool sPrice sTicket sFee sAllocBps sBlankFaces then
      some { pool with batchCounter := pool.batchCounter + 1 }
    else none
  | _, _ => none

def readPool (key : Pubkey) (pool : Option Pool) (e : Event) : Option (Option Pool) :=
  if e.toldPool = some key then some <$> tellPool key pool e else some pool

-- No sweep is begun of a pool that was never founded.
example : readPool (.pool 0) none (.sweepBegun (.pool 0) 1 (.key 2) 0) = none := by
  simp [readPool, Event.toldPool, tellPool]

section

variable {X : Programs} {clock : Clock} {c c' : Chain} {events : List Event} {instr : Instr}
  {key poolKey : Pubkey} {e : Event} {pool pool' : Pool}

def PoolTold (key : Pubkey) (events : List Event) (c c' : Chain) : Prop :=
  replay (readPool key) events ((c.pools.lookup key).map Pool.told)
    = some ((c'.pools.lookup key).map Pool.told)

theorem readPool_silent (h : e.toldPool ≠ some key) (found : Option Pool) :
    readPool key found e = some found := if_neg h

theorem PoolTold.of_silent (hsilent : ∀ e ∈ events, e.toldPool ≠ some key)
    (hsame : (c'.pools.lookup key).map Pool.told = (c.pools.lookup key).map Pool.told) :
    PoolTold key events c c' := by
  rw [PoolTold, hsame]
  exact replay_silent (fun e he => readPool_silent (hsilent e he)) _

theorem PoolTold.of_write {found : Option Pool} (hfound : c.pools.lookup poolKey = found)
    (hpools : c'.pools = c.pools.insert poolKey pool')
    (htold : ∀ e ∈ events, e.toldPool = some poolKey ∨ e.toldPool = none)
    (hreplay : replay (readPool poolKey) events (found.map Pool.told) = some (some pool'.told))
    (key : Pubkey) : PoolTold key events c c' := by
  by_cases hkey : key = poolKey
  · subst hkey
    rw [PoolTold, hfound, hpools, Finmap.lookup_insert]
    exact hreplay
  · refine .of_silent (fun e he => ?_) (by rw [hpools, Finmap.lookup_insert_of_ne _ hkey])
    rcases htold e he with h | h
    · rw [h]
      exact fun heq => hkey (Option.some.inj heq).symm
    · rw [h]
      simp

-- ---------------------------------------------------------------------------
-- Configuration moves
-- ---------------------------------------------------------------------------

variable {slot : ℕ} {administrator : Pubkey} {update : ConfigUpdate}

def changeEvent (key : Pubkey) (slot : ℕ) (authority : Pubkey) (change : FieldChange) : Event :=
  .configChanged key slot authority change.1 change.2.1 change.2.2

/-- One field's change, or its absence, stores the field's new value. -/
theorem replay_field {before after p q : Pool} (field : ConfigField)
    (hvalue : field.value p = field.value before)
    (hstore : field.store p (field.value after) = some q) :
    replay (readPool key) ((changesOf before after [field]).map (changeEvent key slot administrator))
      (some p) = some (some q) := by
  by_cases hsame : field.value before = field.value after
  · rw [← hsame, ← hvalue, ConfigField.store_value, Option.some.injEq] at hstore
    simp [changesOf, hsame, hstore]
  · simp [changesOf, hsame, changeEvent, readPool, Event.toldPool, tellPool,
      ConfigField.named_param, hvalue, hstore]

theorem replay_changes (pool : Pool) (update : ConfigUpdate) :
    replay (readPool key) ((plannedChanges pool update).map (changeEvent key slot administrator))
      (some pool.told) = some (some (applyUpdate pool update).told) := by
  rw [plannedChanges_eq]
  cases update with
  | pricing price ticketTarget fee =>
    have hgroup : (ConfigUpdate.pricing price ticketTarget fee).group
        = [.price] ++ [.ticketTarget] ++ [.fee] := rfl
    rw [hgroup, changesOf_append, changesOf_append, List.map_append, List.map_append]
    exact replay_trans (replay_trans (replay_field .price rfl rfl)
      (replay_field .ticketTarget rfl rfl)) (replay_field .fee rfl rfl)
  | allocation equalBps tierBps protocolBps =>
    have hgroup : (ConfigUpdate.allocation equalBps tierBps protocolBps).group
        = [.allocEqualBps] ++ [.allocTierBps] ++ [.allocProtocolBps] := rfl
    rw [hgroup, changesOf_append, changesOf_append, List.map_append, List.map_append]
    exact replay_trans (replay_trans (replay_field .allocEqualBps rfl rfl)
      (replay_field .allocTierBps rfl rfl)) (replay_field .allocProtocolBps rfl rfl)
  | admissionFloor value => exact replay_field .admissionFloor rfl rfl
  | admissionCeiling value => exact replay_field .admissionCeiling rfl rfl
  | walletValueCap value => exact replay_field .walletValueCap rfl rfl
  | maxN value => exact replay_field .maxN rfl rfl
  | buybackRateBps value => exact replay_field .buybackRateBps rfl rfl
  | t04Ceiling value => exact replay_field .t04Ceiling rfl rfl
  | sweepCadenceHours value => exact replay_field .sweepCadenceHours rfl rfl
  | tierSize value => exact replay_field .tierSize rfl rfl
  | blankFaces faces => exact replay_field .blankFaces rfl rfl

theorem tierChanged_toldPool (h : e.kind = .tierChanged) : e.toldPool = none := by
  cases e with
  | tierChanged => rfl
  | _ => cases h

theorem updateConfig_told {remaining : List AccountMeta}
    (h : updateConfig clock c administrator poolKey remaining update = .ok (c', events))
    (key : Pubkey) : PoolTold key events c c' := by
  obtain ⟨pool, topTier, topTier', positions, demoted, hconfig⟩ := updateConfig_ok h
  have hdemoted : ∀ e ∈ demoted, e.toldPool = none :=
    fun e he => tierChanged_toldPool (demotions_kind hconfig.demotes he)
  have hevents : events
      = demoted ++ (plannedChanges pool update).map (changeEvent poolKey clock.slot administrator) :=
    hconfig.published
  refine .of_write (loadPool_ok.mp hconfig.loads).1 (by rw [hconfig.after]) ?_ ?_ key
  · intro e he
    rw [hevents] at he
    rcases List.mem_append.mp he with he | he
    · exact .inr (hdemoted e he)
    · obtain ⟨change, -, rfl⟩ := List.mem_map.mp he
      exact .inl rfl
  · rw [hevents]
    refine replay_trans (replay_silent (fun e he => readPool_silent ?_) _) (replay_changes pool update)
    rw [hdemoted e he]
    simp

-- ---------------------------------------------------------------------------
-- The other handlers
-- ---------------------------------------------------------------------------

theorem initPool_told {weightIndex : Pubkey} {args : PoolConfigArgs}
    (h : initPool X clock c administrator weightIndex args = .ok (c', events)) (key : Pubkey) :
    PoolTold key events c c' := by
  obtain ⟨config, tokens, tokens', hinit⟩ := initPool_ok h
  refine .of_write hinit.free (by rw [hinit.after]) ?_ ?_ key
  · rw [hinit.published]
    simp [Event.toldPool]
  · rw [hinit.published]
    simp [readPool, Event.toldPool, tellPool]
    rfl

theorem setPause_told {deposits rolls : Bool} {reason : ℕ}
    (h : setPause clock c administrator poolKey deposits rolls reason = .ok (c', events))
    (key : Pubkey) : PoolTold key events c c' := by
  simp only [setPause, bind_ok, pure_ok, Prod.mk.injEq] at h
  obtain ⟨_, -, pool, hpool, rfl, rfl⟩ := h
  refine .of_write (loadPool_ok.mp hpool).1 rfl (by simp [Event.toldPool]) ?_ key
  simp [readPool, Event.toldPool, tellPool]
  rfl

theorem recordDeposit_told {depositor nftMint : Pubkey} {standard : ℕ} {tokens : Tokens}
    {externals : Externals} (hpool : c.loadPool poolKey = .ok pool)
    (h : recordDeposit X clock c poolKey depositor nftMint pool standard tokens externals
      = .ok (c', events)) (key : Pubkey) : PoolTold key events c c' := by
  have hrecord := recordDeposit_ok h
  refine .of_write (loadPool_ok.mp hpool).1 (by rw [hrecord.after]) ?_ ?_ key
  · rw [hrecord.published]
    simp [Event.toldPool]
  · rw [hrecord.published]
    simp [readPool, Event.toldPool, tellPool]
    rfl

theorem tierEvents_toldPool {change : TierChange} (h : e ∈ tierEvents poolKey slot change) :
    e.toldPool = none := tierChanged_toldPool (tierEvents_kind h)

@[simp] theorem replay_readPool_tierEvents {change : TierChange} {found : Option Pool} :
    replay (readPool key) (tierEvents poolKey slot change) found = some found := by
  refine replay_silent (fun e he => readPool_silent ?_) _
  rw [tierEvents_toldPool he]
  simp

theorem approveDeposit_told {operator positionKey : Pubkey} {remaining : List AccountMeta}
    {value : ℕ} {observedAt lockUntil : ℤ}
    (h : approveDeposit clock c operator poolKey positionKey remaining value observedAt lockUntil
      = .ok (c', events)) (key : Pubkey) : PoolTold key events c c' := by
  obtain ⟨a, slot, index, topTier, positions, entered, displaced, targets, age, hdone⟩ :=
    approveDeposit_ok h
  refine .of_write (loadThroughPool_ok hdone.loads).1 (by rw [hdone.after]) ?_ ?_ key
  · rw [hdone.published]
    cases entered <;> simp [Event.toldPool]
  · rw [hdone.published]
    cases entered <;>
      simp [readPool, Event.toldPool, tellPool, Pool.told, Pool.weighed, Pool.rebalanced]

theorem applyRecordValue_told {p : Position} {stats : WalletStats} {value : ℕ}
    {observedAt now : ℤ} {booked : Booked RecordEffect}
    (h : applyRecordValue pool p stats value observedAt now = .ok booked) :
    pool.sweepPending = true ∧ booked.effect.blanksBefore = pool.blanks ∧
      booked.pool = { pool.weighed booked.pool.nReal booked.pool.wReal booked.pool.blanks with
        sweepUpdates := pool.sweepUpdates + 1 } := by
  obtain ⟨hsweep, -, nReal, wReal, blanks, hpool⟩ := applyRecordValue_pool h
  refine ⟨hsweep, ?_, by rw [hpool]; rfl⟩
  simp only [applyRecordValue, bind_ok, pure_ok, Prod.exists] at h
  obtain ⟨-, -, -, -, -, -, -, -, _, -, _, -, _, -, _, _, _, -, _, -, _, -, rfl⟩ := h
  rfl

theorem recordValue_told {operator positionKey : Pubkey} {remaining : List AccountMeta}
    {value : ℕ} {observedAt : ℤ}
    (h : recordValue clock c operator poolKey positionKey remaining value observedAt
      = .ok (c', events)) (key : Pubkey) : PoolTold key events c c' := by
  obtain ⟨a, booked, index, topTier, p, positions, change, hdone⟩ := recordValue_ok h
  obtain ⟨hsweep, hbefore, hpool⟩ := applyRecordValue_told hdone.books
  obtain ⟨rest, hevents, hrest⟩ : ∃ rest, events
      = [.valueRecorded poolKey clock.slot operator positionKey booked.effect.oldValue value
          observedAt,
        .rebalanceEvaluated poolKey clock.slot booked.pool.nReal booked.pool.wReal
          a.pool.blanks booked.pool.blanks] ++ rest ++ tierEvents poolKey clock.slot change ∧
      ∀ e ∈ rest, e.toldPool = none := by
    rw [hdone.published, hbefore]
    refine ⟨_, rfl, fun e he => ?_⟩
    cases houtcome : booked.effect.outcome with
    | close | retained =>
      rw [houtcome] at he
      rw [List.mem_singleton.mp he]
      rfl
    | refresh =>
      rw [houtcome] at he
      cases he
  refine .of_write (loadThroughPool_ok hdone.loads).1 (by rw [hdone.after]) ?_ ?_ key
  · intro e he
    rw [hevents] at he
    simp only [List.mem_append, List.mem_cons, List.not_mem_nil, or_false] at he
    rcases he with ((rfl | rfl) | he) | he
    · exact .inl rfl
    · exact .inl rfl
    · exact .inr (hrest e he)
    · exact .inr (tierEvents_toldPool he)
  · rw [hevents, hpool]
    refine replay_trans (replay_trans ?_ (replay_silent (fun e he => readPool_silent ?_) _))
      replay_readPool_tierEvents
    · simp [readPool, Event.toldPool, tellPool, Pool.told, Pool.weighed, hsweep]
    · rw [hrest e he]
      simp

theorem withdrawAccounting_told {positionKey : Pubkey} {depositorUsdc : Option Pubkey}
    {remaining : List AccountMeta} {a : Loaded} (ha : loadThroughPool c poolKey positionKey = .ok a)
    (h : withdrawAccounting clock c poolKey positionKey depositorUsdc remaining a
      = .ok (c', events)) (key : Pubkey) : PoolTold key events c c' := by
  obtain ⟨booked, index, topTier, p, positions, change, tokens, hdone⟩ := withdrawAccounting_ok h
  obtain ⟨targets, -, -, -, -, -, rfl⟩ := applyWithdraw_ok.mp hdone.books
  refine .of_write (loadThroughPool_ok ha).1 (by rw [hdone.after]) ?_ ?_ key
  · intro e he
    rw [hdone.published] at he
    simp only [List.mem_append, List.mem_cons, List.not_mem_nil, or_false] at he
    rcases he with (rfl | rfl) | he
    · exact .inr rfl
    · exact .inl rfl
    · exact .inr (tierEvents_toldPool he)
  · rw [hdone.published]
    refine replay_trans ?_ replay_readPool_tierEvents
    simp [readPool, Event.toldPool, tellPool, withdrawn, Pool.told, Pool.weighed, Pool.without]

theorem closeSeized_told {caller positionKey collection : Pubkey}
    (h : closeSeized X clock c caller poolKey positionKey collection = .ok (c', events))
    (key : Pubkey) : PoolTold key events c c' := by
  obtain ⟨a, kind, owner, booked, index, topTier, p, change, hdone⟩ := closeSeized_ok h
  have hpool := (loadThroughPool_ok hdone.loads).1
  by_cases hactive : a.position.state = .active
  · obtain ⟨targets, -, -, hbooked, -, -, heffect⟩ := applyCloseSeized_active hactive hdone.books
    have hevents := hdone.published
    rw [heffect, hbooked] at hevents
    refine .of_write hpool (by rw [hdone.after]) ?_ ?_ key
    · intro e he
      rw [hevents] at he
      simp only [List.mem_append, List.mem_cons, List.not_mem_nil, or_false] at he
      rcases he with (rfl | rfl) | he
      · exact .inr rfl
      · exact .inl rfl
      · exact .inr (tierEvents_toldPool he)
    · rw [hevents, hbooked]
      refine replay_trans ?_ replay_readPool_tierEvents
      simp [readPool, Event.toldPool, tellPool, departed, Pool.told, Pool.weighed, Pool.without]
  · obtain ⟨hbooked, -, -, heffect⟩ := applyCloseSeized_inactive hactive hdone.books
    have hevents := hdone.published
    rw [heffect, hbooked] at hevents
    refine .of_write hpool (by rw [hdone.after]) ?_ ?_ key
    · intro e he
      rw [hevents] at he
      simp only [List.append_nil, List.mem_append, List.mem_singleton] at he
      rcases he with rfl | he
      · exact .inr rfl
      · exact .inr (tierEvents_toldPool he)
    · rw [hevents, hbooked]
      refine replay_trans ?_ replay_readPool_tierEvents
      simp [readPool, Event.toldPool]

theorem beginSweep_told {operator : Pubkey}
    (h : beginSweep clock c operator poolKey = .ok (c', events)) (key : Pubkey) :
    PoolTold key events c c' := by
  simp only [beginSweep, applyBeginSweep, bind_ok, require_ok, pure_ok, Prod.mk.injEq,
    Prod.exists] at h
  obtain ⟨_, -, pool, hpool, _, _, ⟨-, hsweep, rfl, rfl⟩, rfl, rfl⟩ := h
  refine .of_write (loadPool_ok.mp hpool).1 rfl (by simp [Event.toldPool]) ?_ key
  simp [readPool, Event.toldPool, tellPool, Pool.told, hsweep]

theorem endSweep_told {operator : Pubkey}
    (h : endSweep clock c operator poolKey = .ok (c', events)) (key : Pubkey) :
    PoolTold key events c c' := by
  simp only [endSweep, applyEndSweep, bind_ok, require_ok, orArithmeticFailure_ok,
    Checked.add_some, pure_ok, Prod.mk.injEq, Prod.exists] at h
  obtain ⟨_, -, pool, hpool, _, _, _, ⟨-, hsweep, _, ⟨-, rfl⟩, rfl, rfl, rfl⟩, rfl, rfl⟩ := h
  refine .of_write (loadPool_ok.mp hpool).1 rfl (by simp [Event.toldPool]) ?_ key
  simp [readPool, Event.toldPool, tellPool, Pool.told, hsweep]

theorem commitRolls_told {roller rollerUsdc : Pubkey} {n : ℕ}
    (h : commitRolls X clock c roller poolKey rollerUsdc n = .ok (c', events)) (key : Pubkey) :
    PoolTold key events c c' := by
  obtain ⟨config, pool, pool', topTier, source, vault, batchId, liability, tokens, externals,
    hdone⟩ := commitRolls_ok h
  obtain ⟨-, -, -, rfl⟩ := applyCommit_ok hdone.commits
  refine .of_write (loadPool_ok.mp hdone.loads).1 (by rw [hdone.after]) ?_ ?_ key
  · rw [hdone.published]
    simp [Event.toldPool]
  · rw [hdone.published]
    simp [readPool, Event.toldPool, tellPool, pricedAt, Pool.told]

-- ---------------------------------------------------------------------------
-- Every instruction, every run
-- ---------------------------------------------------------------------------

theorem PoolFate.untold {before after : Option Pool}
    (h : PoolFate X clock key instr before after)
    (hkinds : ∀ kind ∈ instr.publishes, kind ∉ EventKind.ofPool) : after = before := by
  cases h with
  | kept => rfl
  | _ => simp [Instr.publishes, EventKind.ofPool] at hkinds

theorem told_quiet (h : exec X clock c instr = .ok (c', events))
    (hkinds : ∀ kind ∈ instr.publishes, kind ∉ EventKind.ofPool) (key : Pubkey) :
    PoolTold key events c c' := by
  refine .of_silent (fun e he => ?_) (by rw [(exec_pool h key).untold hkinds])
  have hkind := hkinds e.kind (exec_publishes h he)
  cases e with
  | poolInitialized | configChanged | pauseSet | depositPending | rebalanceEvaluated
  | valueRecorded | sweepBegun | sweepEnded | batchCommitted =>
    simp [Event.kind, EventKind.ofPool] at hkind
  | _ => simp [Event.toldPool]

/-- The reading of any pool follows every instruction. -/
theorem exec_told (h : exec X clock c instr = .ok (c', events)) (key : Pubkey) :
    PoolTold key events c c' := by
  cases instr with
  | initPool administrator weightIndex args => exact initPool_told h key
  | updateConfig administrator pool remaining update => exact updateConfig_told h key
  | setPause administrator pool deposits rolls reason => exact setPause_told h key
  | deposit a =>
    obtain ⟨pool, _, _, _, _, _, hdone⟩ := deposit_ok h
    exact recordDeposit_told hdone.loads hdone.records key
  | depositCore a =>
    obtain ⟨pool, _, _, _, hdone⟩ := depositCore_ok h
    exact recordDeposit_told hdone.loads hdone.records key
  | approveDeposit operator pool position remaining value observedAt lockUntil =>
    exact approveDeposit_told h key
  | recordValue operator pool position remaining value observedAt => exact recordValue_told h key
  | withdraw depositor pool position depositorUsdc remaining accounts =>
    obtain ⟨a, paid, tokens, externals, hdone⟩ := withdraw_ok h
    rw [hdone.after]
    exact withdrawAccounting_told hdone.loads hdone.accounts key
  | withdrawCore depositor pool position depositorUsdc collection remaining =>
    obtain ⟨a, named, paid, externals, hdone⟩ := withdrawCore_ok h
    rw [hdone.after]
    exact withdrawAccounting_told hdone.loads hdone.accounts key
  | closeSeized caller pool position collection => exact closeSeized_told h key
  | beginSweep operator pool => exact beginSweep_told h key
  | endSweep operator pool => exact endSweep_told h key
  | commitRolls roller pool rollerUsdc n => exact commitRolls_told h key
  | _ => exact told_quiet h (by simp [Instr.publishes, EventKind.ofPool]) key

theorem settle_told {k : Pubkey} {L : Ledger} {s : Settlement} (hL : c.Reads k L) :
    ((c.settle k s).pools.lookup key).map Pool.told = (c.pools.lookup key).map Pool.told := by
  rw [Chain.settle, ledger_eq_some.mpr hL]
  by_cases hkey : key = k
  · subst hkey
    simp only [Finmap.lookup_insert, hL.pool]
    rfl
  · simp only [Finmap.lookup_insert_of_ne _ hkey]

variable {may : Ledger → Settlement → Prop} {c₀ : Chain} {entries : List Entry}

theorem Trace.told (hgenesis : Genesis c₀) (htrace : Trace X may c₀ entries c) (key : Pubkey) :
    replay (readPool key) (published entries) ((c₀.pools.lookup key).map Pool.told)
      = some ((c.pools.lookup key).map Pool.told) :=
  htrace.follows (fun c => (c.pools.lookup key).map Pool.told)
    (fun _ _ _ _ _ _ h => exec_told h key) (fun _ _ _ => rfl) (fun _ _ _ _ hL => settle_told hL)
    hgenesis

/-- Over every run, settlements included, the reading accepts the whole log and ends at the record
the pool has: every value a configuration change gives as the old one was the value in force, every
sweep closes at the epoch and the count it ran to, and every batch was priced at the terms of its
moment. -/
theorem pool_log (hgenesis : Genesis c₀) (htrace : Trace X may c₀ entries c) (key : Pubkey) :
    replay (readPool key) (published entries) none
      = some ((c.pools.lookup key).map Pool.told) := by
  have htold := htrace.told hgenesis key
  rwa [hgenesis.pools, Finmap.lookup_empty] at htold

end

/-- Read from its log, the bank's pool counts the position and weighs its card. -/
theorem pool_log_bank : ∃ entries pool,
    replay (readPool (.pool 0)) (published entries) none = some (some pool) ∧
    pool.positionCounter = 1 ∧ pool.nReal = 1 ∧ pool.price = 9_900_000 := by
  have hreachable : Reachable bank bankActivated := bankRun_reachable (by decide +kernel)
  have hsettling : SettlingReachable bank (fun _ _ => False) bankActivated := hreachable.settling
  obtain ⟨c₀, hgenesis, hsteps⟩ := hsettling
  obtain ⟨entries, htrace⟩ := Trace.exists hsteps
  have hview : (bankActivated.pools.lookup (.pool 0)).map
      (fun pool => (pool.positionCounter, pool.nReal, pool.price)) = some (1, 1, 9_900_000) := by
    decide +kernel
  obtain ⟨pool, hpool, hterms⟩ := Option.map_eq_some_iff.mp hview
  simp only [Prod.mk.injEq] at hterms
  have hlog := pool_log hgenesis htrace (.pool 0)
  rw [hpool] at hlog
  exact ⟨entries, pool.told, hlog, hterms⟩

end ByeMachine
