import ByeMachine.Invariants.Traces
import ByeMachine.Properties.Isolation
import ByeMachine.Properties.Rotation
import ByeMachine.Refinement.Events
import ByeMachine.Refinement.Pools
import ByeMachine.Refinement.TierLog

/-!
# The audit trail

Four readings of the event log, each checking every event against what the
events before it left: the tier, the controller's targets, the active values and
the live authorities. Over every run each of them ends where the ledger does.
-/

namespace ByeMachine

open Fallible Replay

-- ---------------------------------------------------------------------------
-- The readings
-- ---------------------------------------------------------------------------

/-- The members of a pool's tier: `left` goes, then `entered` comes. -/
def readTier (key : Pubkey) (members : Pubkey → Bool) : Event → Option (Pubkey → Bool)
  | .tierChanged pool _ left entered =>
    if pool = key then afterChange members (some (left, entered)) else some members
  | _ => some members

/-- `n_real`, `w_real` and `blanks`, each evaluation starting from the blanks the last one left. -/
def readTargets (key : Pubkey) (targets : ℕ × ℕ × (Denomination → ℕ)) :
    Event → Option (ℕ × ℕ × (Denomination → ℕ))
  | .rebalanceEvaluated pool _ nReal wReal blanksBefore blanksAfter =>
    if pool = key then
      if blanksBefore = targets.2.2 then some (nReal, wReal, blanksAfter) else none
    else some targets
  | _ => some targets

def entersActive (values : Pubkey → Option ℕ) (position : Pubkey) (value : ℕ) :
    Option (Pubkey → Option ℕ) :=
  if values position = none then some (Function.update values position (some value)) else none

def changesActive (values : Pubkey → Option ℕ) (position : Pubkey) (old new : ℕ) :
    Option (Pubkey → Option ℕ) :=
  if values position = some old then some (Function.update values position (some new)) else none

def leavesActive (values : Pubkey → Option ℕ) (position : Pubkey) : Option (Pubkey → Option ℕ) :=
  if (values position).isSome then some (Function.update values position none) else none

def readActive (key : Pubkey) (values : Pubkey → Option ℕ) : Event → Option (Pubkey → Option ℕ)
  | .depositApproved pool _ _ position value _ _ =>
    if pool = key then entersActive values position value else some values
  | .valueRecorded pool _ _ position old new _ =>
    if pool = key then changesActive values position old new else some values
  | .belowFloorClosed pool _ _ position _ =>
    if pool = key then leavesActive values position else some values
  | .withdrawn pool _ position _ _ =>
    if pool = key then leavesActive values position else some values
  | .positionSeized pool _ position _ _ sourceState _ =>
    if pool = key ∧ sourceState = .active then leavesActive values position else some values
  | _ => some values

/-- The live authorities, from genesis on: whoever accepts takes over from the current holder. -/
def readAuthorities (live : AuthorityRole → Option Pubkey) :
    Event → Option (AuthorityRole → Option Pubkey)
  | .protocolInitialized _ administrator operator t02 t03 _ _ _ _ _ _ _ =>
    some fun
      | .administrator => some administrator
      | .operator => some operator
      | .t03 => some t03
      | .t02 => some t02
  | .authorityRotated _ _ role old new .accepted =>
    if live role = some old then some (Function.update live role (some new)) else none
  | _ => some live

-- ---------------------------------------------------------------------------
-- What they should end at
-- ---------------------------------------------------------------------------

def Chain.tierHolders (c : Chain) (key : Pubkey) : Pubkey → Bool :=
  match c.topTiers.lookup (.topTier key) with
  | none => fun _ => false
  | some t => holders t.members

/-- The targets a pool stands at; all zero before there is one. -/
def targetsOf : Option Pool → ℕ × ℕ × (Denomination → ℕ)
  | none => (0, 0, fun _ => 0)
  | some pool => (pool.nReal, pool.wReal, pool.blanks)

def activeValue (key : Pubkey) (p : Position) : Option ℕ :=
  if p.pool = key ∧ p.state = .active then some p.recordedValue else none

def activeValues (positions : Positions) (key k : Pubkey) : Option ℕ :=
  (positions.lookup k).bind (activeValue key)

def Chain.liveAuthorities (c : Chain) (role : AuthorityRole) : Option Pubkey :=
  c.protocolConfig.map (currentAuthority · role)

section

variable {X : Programs} {clock : Clock} {c c' : Chain} {events : List Event} {instr : Instr}
  {key k : Pubkey} {e : Event} {p : Position} {positions positions' : Positions}

theorem activeValue_terms : activeValue key p.terms = activeValue key p := rfl

theorem activeValues_sameTerms (h : SameTerms positions positions') :
    activeValues positions' key = activeValues positions key := by
  have hview (ps : Positions) (k : Pubkey) :
      activeValues ps key k = ((ps.lookup k).map Position.terms).bind (activeValue key) := by
    rw [Option.bind_map]
    rfl
  funext k
  rw [hview, hview, h k]

theorem activeValues_insert : activeValues (positions.insert k p) key
    = Function.update (activeValues positions key) k (activeValue key p) := by
  funext x
  by_cases hx : x = k
  · subst hx
    simp [activeValues]
  · simp [activeValues, hx]

theorem activeValues_erase : activeValues (positions.erase k) key
    = Function.update (activeValues positions key) k none := by
  funext x
  by_cases hx : x = k
  · subst hx
    simp [activeValues]
  · simp [activeValues, hx, Finmap.lookup_erase_ne]

theorem activeValues_lookup (hp : positions.lookup k = some p) :
    activeValues positions key k = activeValue key p := by
  simp [activeValues, hp]

-- ---------------------------------------------------------------------------
-- Events of other pools, and events no reading knows
-- ---------------------------------------------------------------------------

def Event.auditedPool : Event → Option Pubkey
  | .tierChanged pool .. | .rebalanceEvaluated pool .. | .depositApproved pool ..
  | .valueRecorded pool .. | .belowFloorClosed pool .. | .withdrawn pool ..
  | .positionSeized pool .. => some pool
  | _ => none

/-- Whether the instruction moves a card in or out of the weighted set. -/
def Instr.moves : Instr → Bool
  | .approveDeposit .. | .recordValue .. | .withdraw .. | .withdrawCore .. | .closeSeized .. => true
  | _ => false

theorem readTier_silent (h : e.auditedPool ≠ some key) (members : Pubkey → Bool) :
    readTier key members e = some members := by
  cases e with
  | tierChanged pool slot left entered => exact if_neg fun heq => h (congrArg some heq)
  | _ => rfl

theorem readTargets_silent (h : e.auditedPool ≠ some key) (targets : ℕ × ℕ × (Denomination → ℕ)) :
    readTargets key targets e = some targets := by
  cases e with
  | rebalanceEvaluated pool slot nReal wReal before after =>
    exact if_neg fun heq => h (congrArg some heq)
  | _ => rfl

theorem readActive_silent (h : e.auditedPool ≠ some key) (values : Pubkey → Option ℕ) :
    readActive key values e = some values := by
  cases e with
  | depositApproved pool | valueRecorded pool | belowFloorClosed pool | withdrawn pool =>
    exact if_neg fun heq => h (congrArg some heq)
  | positionSeized pool => exact if_neg fun heq => h (congrArg some heq.1)
  | _ => rfl

def EventKind.ofActive : List EventKind :=
  [.depositApproved, .valueRecorded, .belowFloorClosed, .withdrawn, .positionSeized]

theorem readTier_kind (h : e.kind ≠ .tierChanged) (members : Pubkey → Bool) :
    readTier key members e = some members := by
  cases e with
  | tierChanged => exact absurd rfl h
  | _ => rfl

theorem readTargets_kind (h : e.kind ≠ .rebalanceEvaluated)
    (targets : ℕ × ℕ × (Denomination → ℕ)) : readTargets key targets e = some targets := by
  cases e with
  | rebalanceEvaluated => exact absurd rfl h
  | _ => rfl

theorem readActive_kind (h : e.kind ∉ EventKind.ofActive) (values : Pubkey → Option ℕ) :
    readActive key values e = some values := by
  cases e with
  | depositApproved | valueRecorded | belowFloorClosed | withdrawn | positionSeized =>
    exact absurd (by simp [Event.kind, EventKind.ofActive]) h
  | _ => rfl

/-- The three readings of a pool lead from one ledger to the next. -/
structure Audits (key : Pubkey) (events : List Event) (c c' : Chain) : Prop where
  tier : replay (readTier key) events (c.tierHolders key) = some (c'.tierHolders key)
  targets : replay (readTargets key) events (targetsOf (c.pools.lookup key))
    = some (targetsOf (c'.pools.lookup key))
  active : replay (readActive key) events (activeValues c.positions key)
    = some (activeValues c'.positions key)

theorem Audits.of_silent (hsilent : ∀ e ∈ events, e.auditedPool ≠ some key)
    (htier : c'.tierHolders key = c.tierHolders key)
    (htargets : targetsOf (c'.pools.lookup key) = targetsOf (c.pools.lookup key))
    (hactive : activeValues c'.positions key = activeValues c.positions key) :
    Audits key events c c' := by
  refine ⟨?_, ?_, ?_⟩
  · rw [htier]
    exact replay_silent (fun e he => readTier_silent (hsilent e he)) _
  · rw [htargets]
    exact replay_silent (fun e he => readTargets_silent (hsilent e he)) _
  · rw [hactive]
    exact replay_silent (fun e he => readActive_silent (hsilent e he)) _

-- ---------------------------------------------------------------------------
-- Instructions that move nothing audited
-- ---------------------------------------------------------------------------

theorem Fate.keeps_activeValue {before after : Option Position}
    (h : Fate X clock c k instr before after) (hquiet : instr.moves = false) :
    after.bind (activeValue key) = before.bind (activeValue key) := by
  cases h with
  | kept hterms =>
    have hview (found : Option Position) :
        found.bind (activeValue key) = (found.map Position.terms).bind (activeValue key) := by
      rw [Option.bind_map]
      rfl
    rw [hview after, hterms, ← hview before]
  | taken | takenCore => simp [activeValue, pendingPosition]
  | rejected hstate => simp [activeValue, hstate]
  | approved | revalued | closed | seized => cases hquiet
  | released hrelease =>
    cases hrelease with
    | withdraw | withdrawCore => cases hquiet
    | claimNft _ hstate => simp [activeValue, hstate]
    | claimNftCore _ hstate => rcases hstate with hstate | hstate <;> simp [activeValue, hstate]
    | returnRejected _ hstate => simp [activeValue, hstate]
    | returnRejectedCore _ hstate => simp [activeValue, hstate]

theorem PoolFate.keeps_targets {before after : Option Pool}
    (h : PoolFate X clock key instr before after) (hquiet : instr.moves = false) : targetsOf after = targetsOf before := by
  cases h with
  | kept | founded | paused | deposited | depositedCore | begun | ended => rfl
  | @configured administrator remaining update =>
    cases update <;> rfl
  | committed hcommit =>
    obtain ⟨-, -, -, rfl⟩ := applyCommit_ok hcommit
    rfl
  | approved | recorded | withdrawn | withdrawnCore | seized => cases hquiet

theorem exec_activeValues (h : exec X clock c instr = .ok (c', events))
    (hquiet : instr.moves = false) : activeValues c'.positions key = activeValues c.positions key :=
  funext fun k => (exec_fate h k).keeps_activeValue hquiet

theorem exec_targets (h : exec X clock c instr = .ok (c', events)) (hquiet : instr.moves = false) :
    targetsOf (c'.pools.lookup key) = targetsOf (c.pools.lookup key) :=
  (exec_pool h key).keeps_targets hquiet

-- ---------------------------------------------------------------------------
-- Handlers that move something audited
-- ---------------------------------------------------------------------------

variable {L : Ledger} {remaining : List AccountMeta} {operator : Pubkey}

theorem Chain.Reads.tierHolders (hL : c.Reads key L) :
    c.tierHolders key = holders L.topTier.members := by
  rw [Chain.tierHolders, hL.topTier]

theorem Chain.Reads.outside (hL : c.Reads key L) (hranked : L.Ranked)
    (hp : c.positions.lookup k = some p) (hout : p.inTier = false ∨ p.state ≠ .active) :
    holders L.topTier.members k = false := by
  refine holders_eq_false.mpr fun e he heq => ?_
  obtain ⟨q, hq, hin, hactive, -⟩ := hranked.listed.lookup he
  rw [heq] at hq
  obtain rfl := Option.some.inj ((hL.lookup.mp hq).1.symm.trans hp)
  rcases hout with hout | hout
  · rw [hin] at hout
    cases hout
  · exact hout hactive

@[simp] theorem replay_readTier_tierEvents {slot : ℕ} {change : TierChange}
    {members : Pubkey → Bool} :
    replay (readTier key) (tierEvents key slot change) members = afterChange members change := by
  cases change with
  | none => rfl
  | some change => simp [tierEvents, readTier]

@[simp] theorem replay_readTargets_tierEvents {slot : ℕ} {change : TierChange}
    {targets : ℕ × ℕ × (Denomination → ℕ)} :
    replay (readTargets key) (tierEvents key slot change) targets = some targets := by
  cases change <;> simp [tierEvents, readTargets]

@[simp] theorem replay_readActive_tierEvents {slot : ℕ} {change : TierChange}
    {values : Pubkey → Option ℕ} :
    replay (readActive key) (tierEvents key slot change) values = some values := by
  cases change <;> simp [tierEvents, readActive]

theorem recordValue_audits {value : ℕ} {observedAt : ℤ} (hsound : c.Sound)
    (h : recordValue clock c operator key k remaining value observedAt = .ok (c', events)) :
    Audits key events c c' := by
  simp only [recordValue, bind_ok, pure_ok, Prod.mk.injEq, Prod.exists] at h
  obtain ⟨_, -, a, ha, booked, hbooked, _, -, t', q, positions', change, htier, rfl, rfl⟩ := h
  obtain ⟨L, p, stats, rfl, hL, hbound⟩ := hsound.wellFormed.loadThroughPool ha
  have hranked := hsound.ranked key L hL
  obtain ⟨hp, hpool⟩ := hL.lookup.mp hbound.position
  dsimp only at hbooked htier ⊢
  obtain ⟨hterms, hsame⟩ := recordTier_terms htier
  have hfree : ∀ kc pc, c.positions.lookup kc = some pc → pc.pool = key → pc.inTier = false →
      holders L.topTier.members kc = false :=
    fun kc pc hpc _ hout => hL.outside hranked hpc (.inl hout)
  have hvalue : activeValue key q = activeValue key booked.position := by
    rw [← activeValue_terms, hterms, activeValue_terms]
  have hflag : booked.position.inTier = p.inTier := by
    by_cases hclose : classify value L.pool.admissionFloor p.lockUntil clock.unixTimestamp = .close
    · obtain ⟨_, _, -, -, -, rfl⟩ := applyRecordValue_closed hbooked hclose
      rfl
    · obtain ⟨_, _, _, _, -, -, -, -, rfl⟩ := applyRecordValue_kept hbooked hclose
      rfl
  have hchange := recordTier_change hranked.len_le hranked.tierSize_pos hranked.tierSize_le
    hranked.listed.nodup_positions hfree
    (fun hout => hL.outside hranked hp (.inl (hflag.symm.trans hout))) htier
  by_cases hclose : classify value L.pool.admissionFloor p.lockUntil clock.unixTimestamp = .close
  · obtain ⟨targets, sweepUpdates, hrevalues, -, -, rfl⟩ := applyRecordValue_closed hbooked hclose
    refine ⟨?_, ?_, ?_⟩
    · rw [hL.tierHolders]
      simp [closedBelow, readTier, hchange, Chain.tierHolders]
    · rw [hL.pool]
      simp [closedBelow, readTargets, targetsOf]
    · rw [activeValues_insert, activeValues_sameTerms hsame, hvalue]
      simp [closedBelow, readActive, changesActive, leavesActive, activeValues_lookup hp,
        activeValue, hpool, hrevalues.active, Position.revalued, Position.departed]
  · obtain ⟨targets, wReal, activeValue, sweepUpdates, hrevalues, -, -, -, rfl⟩ :=
      applyRecordValue_kept hbooked hclose
    cases hclass : classify value L.pool.admissionFloor p.lockUntil clock.unixTimestamp with
    | close => exact absurd hclass hclose
    | refresh | retained =>
      refine ⟨?_, ?_, ?_⟩
      · rw [hL.tierHolders]
        simp [reattested, hclass, readTier, hchange, Chain.tierHolders]
      · rw [hL.pool]
        simp [reattested, hclass, readTargets, targetsOf]
      · rw [activeValues_insert, activeValues_sameTerms hsame, hvalue]
        simp [reattested, hclass, readActive, changesActive, activeValues_lookup hp,
          ByeMachine.activeValue, hpool, hrevalues.active, Position.revalued]

theorem approveDeposit_audits {value : ℕ} {observedAt lockUntil : ℤ} (hsound : c.Sound)
    (h : approveDeposit clock c operator key k remaining value observedAt lockUntil
      = .ok (c', events)) : Audits key events c c' := by
  simp only [approveDeposit, bind_ok, require_ok, pure_ok, Prod.mk.injEq, Prod.exists] at h
  obtain ⟨_, -, a, ha, -, hstate, -, -, -, -, -, -, _, -, wReal, -, nReal, -, _, -, slot, _, -, _, -,
    _, -, t', positions', entered, displaced, hpromote, targets, -, _, -, rfl, rfl⟩ := h
  obtain ⟨L, p, stats, rfl, hL, hbound⟩ := hsound.wellFormed.loadThroughPool ha
  have hranked := hsound.ranked key L hL
  obtain ⟨hp, hpool⟩ := hL.lookup.mp hbound.position
  dsimp only at hstate hpromote ⊢
  have hnew : holders L.topTier.members k = false :=
    hL.outside hranked hp (.inr (by rw [hstate]; decide))
  have hchange := (promoteActivated_offered hpromote).afterChange hranked.len_le
    hranked.tierSize_pos hranked.tierSize_le hranked.listed.nodup_positions hnew
  have hsame := (promoteActivated_ok hpromote).sameTerms
  refine ⟨?_, ?_, ?_⟩
  · rw [hL.tierHolders]
    cases entered <;> simpa [readTier, Chain.tierHolders] using hchange
  · rw [hL.pool]
    cases entered <;> simp [readTargets, targetsOf]
  · rw [activeValues_insert, activeValues_sameTerms hsame]
    cases entered <;>
      simp [readActive, entersActive, activeValues_lookup hp, activeValue, hpool,
        hstate]

theorem withdrawAccounting_audits {depositorUsdc : Option Pubkey} {a : Loaded} {c₁ : Chain}
    (hsound : c.Sound) (ha : loadThroughPool c key k = .ok a)
    (h : withdrawAccounting clock c key k depositorUsdc remaining a = .ok (c₁, events)) :
    Audits key events c c₁ := by
  simp only [withdrawAccounting, bind_ok, pure_ok, Prod.mk.injEq, Prod.exists] at h
  obtain ⟨booked, hbooked, _, -, t', q, positions', change, htier, _, -, rfl, rfl⟩ := h
  obtain ⟨L, p, stats, rfl, hL, hbound⟩ := hsound.wellFormed.loadThroughPool ha
  have hranked := hsound.ranked key L hL
  obtain ⟨hp, hpool⟩ := hL.lookup.mp hbound.position
  dsimp only at hbooked htier ⊢
  obtain ⟨targets, hfrom, -, -, -, -, rfl⟩ := applyWithdraw_ok.mp hbooked
  have hchange := withdrawTier_change hranked.len_le hranked.tierSize_le
    hranked.listed.nodup_positions (fun kc pc hpc _ hout => hL.outside hranked hpc (.inl hout)) htier
  refine ⟨?_, ?_, ?_⟩
  · rw [hL.tierHolders]
    simp [readTier, hchange, Chain.tierHolders]
  · rw [hL.pool]
    simp [withdrawn, readTargets, targetsOf]
  · rw [activeValues_erase, activeValues_sameTerms (withdrawTier_sameTerms htier)]
    simp [readActive, leavesActive, activeValues_lookup hp, activeValue, hpool,
      hfrom.active]

theorem closeSeized_audits {caller collection : Pubkey} (hsound : c.Sound)
    (h : closeSeized X clock c caller key k collection = .ok (c', events)) :
    Audits key events c c' := by
  simp only [closeSeized, bind_ok, pure_ok, Prod.mk.injEq, Prod.exists] at h
  obtain ⟨-, -, a, ha, -, -, -, -, kind, owner, -, booked, hbooked, _, t', q, change, hremove, rfl,
    rfl⟩ := h
  obtain ⟨L, p, stats, rfl, hL, hbound⟩ := hsound.wellFormed.loadThroughPool ha
  have hranked := hsound.ranked key L hL
  obtain ⟨hp, hpool⟩ := hL.lookup.mp hbound.position
  dsimp only at hbooked hremove ⊢
  have hchange := removeDeparted_change hranked.len_le_max hranked.listed.nodup_positions hremove
  have hvalue : activeValue key q = activeValue key booked.position := by
    rw [← activeValue_terms, removeDeparted_terms hremove, activeValue_terms]
  by_cases hactive : p.state = .active
  · obtain ⟨targets, -, -, hbookedPool, hposition, -, heffect⟩ :=
      applyCloseSeized_active hactive hbooked
    refine ⟨?_, ?_, ?_⟩
    · rw [hL.tierHolders]
      simp [heffect, readTier, hchange, Chain.tierHolders]
    · rw [hL.pool]
      simp [heffect, hbookedPool, departed, readTargets, targetsOf]
    · rw [activeValues_insert, hvalue, hposition]
      simp [heffect, readActive, leavesActive, activeValues_lookup hp, activeValue,
        hpool, hactive, Position.departed]
  · obtain ⟨hbookedPool, hposition, -, heffect⟩ := applyCloseSeized_inactive hactive hbooked
    refine ⟨?_, ?_, ?_⟩
    · rw [hL.tierHolders]
      simp [heffect, readTier, hchange, Chain.tierHolders]
    · rw [hL.pool]
      simp [heffect, hbookedPool, readTargets, targetsOf]
    · rw [activeValues_insert, hvalue, hposition]
      simp [heffect, readActive, hactive, activeValue, activeValues_lookup hp]

theorem updateTier_audits (hsound : c.Sound)
    (h : updateTier clock c operator key k remaining = .ok (c', events)) :
    Audits key events c c' := by
  have hsame := updateTier_fate h
  simp only [updateTier, bind_ok, require_ok, pure_ok, Prod.mk.injEq, Prod.exists] at h
  obtain ⟨_, -, pool, hpool, topTier, htopTier, p, hposition, -, heligible, t', q, crossed, hcross,
    positions', left, hsettle, rfl, rfl⟩ := h
  obtain ⟨L, hL, rfl, -⟩ := hsound.wellFormed.loadPool hpool
  obtain rfl := Option.some.inj ((loadTopTier_ok.mp htopTier).symm.trans hL.topTier)
  have hranked := hsound.ranked key L hL
  obtain ⟨hp, -⟩ := loadPositionOf_ok.mp hposition
  have hout : p.inTier = false := by
    simp only [Tier.isEligibleCandidate, Bool.and_eq_true, Bool.not_eq_true'] at heligible
    exact heligible.2
  have hchange : afterChange (holders L.topTier.members) (some (left, some k))
      = some (holders t'.members) :=
    (settleCrossed_offered hcross hsettle).afterChange hranked.len_le hranked.tierSize_pos
      hranked.tierSize_le hranked.listed.nodup_positions (hL.outside hranked hp (.inl hout))
  refine ⟨?_, ?_, ?_⟩
  · rw [hL.tierHolders]
    simpa [readTier, Chain.tierHolders] using hchange
  · simp [readTargets]
  · rw [activeValues_sameTerms hsame]
    simp [readActive]

/-- The members a shrink demotes leave one event after the other. -/
theorem demotions_replay {topTier topTier' : TopTier} {slot : ℕ} {update : ConfigUpdate}
    (hlen : topTier.len ≤ MAX_TIER_SIZE) (hnodup : (topTier.members.map (·.position)).Nodup)
    (h : demotions topTier remaining positions key slot update
      = .ok (topTier', positions', events)) :
    replay (readTier key) events (holders topTier.members) = some (holders topTier'.members) := by
  cases update with
  | tierSize value =>
    simp only [demotions, demoteShrinkExcess, bind_ok, pure_ok, Prod.mk.injEq, Prod.exists] at h
    obtain ⟨shrunk, evicted, hshrink, _, demoted, hsettle, rfl, -, rfl⟩ := h
    obtain ⟨rfl, -, hkept⟩ := Tier.shrink_ok hlen hshrink
    have hread : (fun members (e : TierEntry) =>
        readTier key members (.tierChanged key slot (some e.position) none))
          = fun members e => afterLeaving members (some e.position) := by
      funext members e
      simp [readTier]
    rw [settleEvicted_events hsettle, replay_map, hread, hkept]
    have hsplit := List.take_append_drop value topTier.members
    have hreplay : replay (fun members (e : TierEntry) => afterLeaving members (some e.position))
        (topTier.members.drop value)
        (holders (topTier.members.take value ++ topTier.members.drop value))
          = some (holders (topTier.members.take value)) := replay_evicted (by rwa [hsplit])
    rwa [hsplit] at hreplay
  | _ =>
    simp only [demotions, pure_ok, Prod.mk.injEq] at h
    obtain ⟨rfl, -, rfl⟩ := h
    simp

/-- Nothing else of a configuration move is audited. -/
theorem updateConfig_audits {administrator : Pubkey} {update : ConfigUpdate} (hsound : c.Sound)
    (h : updateConfig clock c administrator key remaining update = .ok (c', events)) :
    Audits key events c c' := by
  have hsame := updateConfig_fate h
  simp only [updateConfig, bind_ok, pure_ok, Prod.mk.injEq, Prod.exists] at h
  obtain ⟨_, -, pool, hpool, topTier, htopTier, _, -, _, -, t', positions', demoted, hdemote, rfl,
    rfl⟩ := h
  obtain ⟨L, hL, rfl, -⟩ := hsound.wellFormed.loadPool hpool
  obtain rfl := Option.some.inj ((loadTopTier_ok.mp htopTier).symm.trans hL.topTier)
  have hranked := hsound.ranked key L hL
  have hchanged : ∀ e ∈ (plannedChanges L.pool update).map (fun change =>
      Event.configChanged key clock.slot administrator change.1 change.2.1 change.2.2),
      e.kind = .configChanged := by
    intro e he
    obtain ⟨_, -, rfl⟩ := List.mem_map.mp he
    rfl
  have hkinds : ∀ e ∈ demoted ++ (plannedChanges L.pool update).map (fun change =>
      Event.configChanged key clock.slot administrator change.1 change.2.1 change.2.2),
        e.kind = .tierChanged ∨ e.kind = .configChanged := by
    intro e he
    rcases List.mem_append.mp he with he | he
    · exact .inl (demotions_kind hdemote he)
    · exact .inr (hchanged e he)
  refine ⟨?_, ?_, ?_⟩
  · have hdemoted : replay (readTier key) demoted (c.tierHolders key) = some (holders t'.members) := by
      rw [hL.tierHolders]
      exact demotions_replay hranked.len_le_max hranked.listed.nodup_positions hdemote
    refine replay_trans hdemoted ?_
    simp only [Chain.tierHolders, Finmap.lookup_insert]
    refine replay_silent (fun e he members => ?_) _
    exact readTier_kind (by rw [hchanged e he]; decide) members
  · rw [hL.pool, Finmap.lookup_insert, show targetsOf (some (applyUpdate L.pool update))
      = targetsOf (some L.pool) by cases update <;> rfl]
    refine replay_silent (fun e he targets => readTargets_kind ?_ targets) _
    rcases hkinds e he with hkind | hkind <;> simp [hkind]
  · rw [activeValues_sameTerms hsame]
    refine replay_silent (fun e he values => readActive_kind ?_ values) _
    rcases hkinds e he with hkind | hkind <;> simp [hkind, EventKind.ofActive]

-- ---------------------------------------------------------------------------
-- Every instruction
-- ---------------------------------------------------------------------------

theorem auditedPool_none (h : e.kind ∉ .tierChanged :: .rebalanceEvaluated :: EventKind.ofActive) :
    e.auditedPool = none := by
  cases e with
  | tierChanged | rebalanceEvaluated | depositApproved | valueRecorded | belowFloorClosed | withdrawn
  | positionSeized => exact absurd (by simp [Event.kind, EventKind.ofActive]) h
  | _ => rfl

theorem tierEvents_auditedPool {slot : ℕ} {change : TierChange}
    (he : e ∈ tierEvents key slot change) : e.auditedPool = some key := by
  cases change with
  | none => simp [tierEvents] at he
  | some change =>
    obtain ⟨left, entered⟩ := change
    obtain rfl := List.mem_singleton.mp he
    rfl

theorem withdrawAccounting_auditedPool {depositorUsdc : Option Pubkey} {a : Loaded}
    (h : withdrawAccounting clock c key k depositorUsdc remaining a = .ok (c', events))
    (he : e ∈ events) : e.auditedPool = some key := by
  simp only [withdrawAccounting, bind_ok, pure_ok, Prod.mk.injEq, Prod.exists] at h
  obtain ⟨_, -, _, -, _, _, _, _, -, _, -, -, rfl⟩ := h
  simp only [List.mem_append, List.mem_cons, List.not_mem_nil, or_false] at he
  rcases he with (rfl | rfl) | he
  · rfl
  · rfl
  · exact tierEvents_auditedPool he

theorem demotions_auditedPool {topTier topTier' : TopTier} {slot : ℕ} {update : ConfigUpdate}
    (h : demotions topTier remaining positions key slot update
      = .ok (topTier', positions', events)) (he : e ∈ events) : e.auditedPool = some key := by
  cases update with
  | tierSize value =>
    simp only [demotions, demoteShrinkExcess, bind_ok, pure_ok, Prod.mk.injEq, Prod.exists] at h
    obtain ⟨_, _, -, _, _, hsettle, -, -, rfl⟩ := h
    rw [settleEvicted_events hsettle] at he
    obtain ⟨_, -, rfl⟩ := List.mem_map.mp he
    rfl
  | _ =>
    simp only [demotions, pure_ok, Prod.mk.injEq] at h
    obtain ⟨-, -, rfl⟩ := h
    cases he

theorem exec_auditedPool (h : exec X clock c instr = .ok (c', events)) (he : e ∈ events) :
    e.auditedPool = none ∨ e.auditedPool = instr.runsOn c := by
  have hkind := exec_publishes h he
  cases instr with
  | updateConfig administrator pool remaining update =>
    simp only [exec, updateConfig, bind_ok, pure_ok, Prod.mk.injEq, Prod.exists] at h
    obtain ⟨_, -, _, -, _, -, -, -, -, -, _, _, _, hdemote, -, rfl⟩ := h
    rcases List.mem_append.mp he with he | he
    · exact .inr (demotions_auditedPool hdemote he)
    · obtain ⟨_, -, rfl⟩ := List.mem_map.mp he
      exact .inl rfl
  | approveDeposit operator pool position remaining value observedAt lockUntil =>
    simp only [exec, approveDeposit, bind_ok, pure_ok, Prod.mk.injEq, Prod.exists] at h
    obtain ⟨_, -, a, -, -, -, -, -, -, -, -, -, _, -, _, -, _, -, _, -, _, _, -, _, -, _, -, _, _,
      entered, _, -, _, -, _, -, -, rfl⟩ := h
    refine .inr ?_
    simp only [List.mem_append, List.mem_cons, List.not_mem_nil, or_false] at he
    rcases he with (rfl | rfl) | he
    · rfl
    · rfl
    · cases entered with
      | false => simp at he
      | true =>
        obtain rfl := List.mem_singleton.mp he
        rfl
  | recordValue operator pool position remaining value observedAt =>
    simp only [exec, recordValue, bind_ok, pure_ok, Prod.mk.injEq, Prod.exists] at h
    obtain ⟨_, -, _, -, booked, -, _, -, _, _, _, change, -, -, rfl⟩ := h
    simp only [List.mem_append, List.mem_cons, List.not_mem_nil, or_false] at he
    rcases he with ((rfl | rfl) | he) | he
    · exact .inr rfl
    · exact .inr rfl
    · cases houtcome : booked.effect.outcome with
      | close =>
        rw [houtcome] at he
        obtain rfl := List.mem_singleton.mp he
        exact .inr rfl
      | retained =>
        rw [houtcome] at he
        obtain rfl := List.mem_singleton.mp he
        exact .inl rfl
      | refresh => simp [houtcome] at he
    · exact .inr (tierEvents_auditedPool he)
  | withdraw depositor pool position depositorUsdc remaining accounts =>
    simp only [exec, withdraw, bind_ok, pure_ok, Prod.mk.injEq, Prod.exists] at h
    obtain ⟨-, -, a, -, -, -, _, -, -, -, c₁, _, haccounting, _, _, -, -, rfl⟩ := h
    exact .inr (withdrawAccounting_auditedPool haccounting he)
  | withdrawCore depositor pool position depositorUsdc collection remaining =>
    simp only [exec, withdrawCore, bind_ok, pure_ok, Prod.mk.injEq, Prod.exists] at h
    obtain ⟨-, -, a, -, -, -, -, -, -, -, _, -, c₁, _, haccounting, _, -, -, rfl⟩ := h
    exact .inr (withdrawAccounting_auditedPool haccounting he)
  | closeSeized caller pool position collection =>
    simp only [exec, closeSeized, bind_ok, pure_ok, Prod.mk.injEq, Prod.exists] at h
    obtain ⟨-, -, _, -, -, -, -, -, kind, _, -, booked, -, _, _, _, change, -, -, rfl⟩ := h
    refine .inr ?_
    simp only [List.mem_append, List.mem_singleton] at he
    rcases he with (rfl | he) | he
    · rfl
    · cases hdeparture : booked.effect.departure with
      | none => simp [hdeparture] at he
      | some departure =>
        rw [hdeparture] at he
        obtain rfl := List.mem_singleton.mp he
        rfl
    · exact tierEvents_auditedPool he
  | updateTier operator pool position remaining =>
    simp only [exec, updateTier, bind_ok, pure_ok, Prod.mk.injEq, Prod.exists] at h
    obtain ⟨_, -, _, -, _, -, _, -, -, -, _, _, _, -, _, _, -, -, rfl⟩ := h
    obtain rfl := List.mem_singleton.mp he
    exact .inr rfl
  | _ =>
    refine .inl (auditedPool_none fun hmem => ?_)
    simp only [Instr.publishes, List.mem_singleton] at hkind
    rw [hkind] at hmem
    simp [EventKind.ofActive] at hmem

theorem Apart.audits (h : Apart c c' key) (hevents : ∀ e ∈ events, e.auditedPool ≠ some key) :
    Audits key events c c' := by
  refine .of_silent hevents ?_ (by rw [h.pool]) (funext fun k => ?_)
  · rw [Chain.tierHolders, Chain.tierHolders, h.topTier]
  · have hsame (q : Position) (value : ℕ) (hvalue : activeValue key q = some value) :
        c'.positions.lookup k = some q ↔ c.positions.lookup k = some q := by
      refine h.positions k q ?_
      simp only [activeValue, Option.ite_none_right_eq_some] at hvalue
      exact hvalue.1.1
    refine Option.ext fun value => ?_
    simp only [activeValues, Option.bind_eq_some_iff]
    constructor
    · rintro ⟨q, hq, hvalue⟩
      exact ⟨q, (hsame q value hvalue).mp hq, hvalue⟩
    · rintro ⟨q, hq, hvalue⟩
      exact ⟨q, (hsame q value hvalue).mpr hq, hvalue⟩

theorem audits_quiet (h : exec X clock c instr = .ok (c', events)) (hquiet : instr.moves = false)
    (htiers : instr.writesTier = false) : Audits key events c c' := by
  refine .of_silent (fun e he => ?_) ?_ (exec_targets h hquiet) (exec_activeValues h hquiet)
  · have hkind := exec_publishes h he
    rw [auditedPool_none fun hmem => ?_]
    · simp
    · cases instr with
      | initPool | updateConfig | updateTier => cases htiers
      | approveDeposit | recordValue | withdraw | withdrawCore | closeSeized => cases hquiet
      | _ =>
        simp only [Instr.publishes, List.mem_singleton] at hkind
        rw [hkind] at hmem
        simp [EventKind.ofActive] at hmem
  · rw [Chain.tierHolders, Chain.tierHolders, (exec_accounts h).topTiers htiers]

/-- A new pool starts with an empty tier, nothing weighed and nobody active. -/
theorem initPool_audits {administrator weightIndex : Pubkey} {args : PoolConfigArgs}
    (h : exec X clock c (.initPool administrator weightIndex args) = .ok (c', events)) :
    Audits key events c c' := by
  refine .of_silent (fun e he => ?_) ?_ (exec_targets h rfl) (exec_activeValues h rfl)
  · have hkind := exec_publishes h he
    simp only [Instr.publishes, List.mem_singleton] at hkind
    rw [auditedPool_none (by simp [hkind, EventKind.ofActive])]
    simp
  · simp only [exec, initPool, bind_ok, require_ok, pure_ok, Prod.mk.injEq] at h
    obtain ⟨config, -, -, -, -, -, -, hfresh, -, -, _, -, _, -, _, -, -, -, _, -, rfl, -⟩ := h
    by_cases hkey : key = .pool config.poolCounter
    · subst hkey
      simp only [Chain.tierHolders, Finmap.lookup_insert, hfresh]
      funext k
      simp [holders, TopTier.members, genesisTier]
    · rw [Chain.tierHolders, Chain.tierHolders]
      dsimp only
      rw [Finmap.lookup_insert_of_ne _ (by simpa using hkey)]

/-- The three readings of any pool follow every instruction. -/
theorem exec_audits (hsound : c.Sound) (h : exec X clock c instr = .ok (c', events))
    (key : Pubkey) : Audits key events c c' := by
  by_cases hother : instr.runsOn c = some key
  · cases instr with
    | initPool administrator weightIndex args => exact initPool_audits h
    | updateConfig administrator pool remaining update =>
      obtain rfl := Option.some.inj hother
      exact updateConfig_audits hsound h
    | approveDeposit operator pool position remaining value observedAt lockUntil =>
      obtain rfl := Option.some.inj hother
      exact approveDeposit_audits hsound h
    | recordValue operator pool position remaining value observedAt =>
      obtain rfl := Option.some.inj hother
      exact recordValue_audits hsound h
    | withdraw depositor pool position depositorUsdc remaining accounts =>
      obtain rfl := Option.some.inj hother
      simp only [exec, withdraw, bind_ok, pure_ok, Prod.mk.injEq, Prod.exists] at h
      obtain ⟨-, -, a, ha, -, -, _, -, -, -, c₁, _, haccounting, _, _, -, rfl, rfl⟩ := h
      obtain ⟨htier, htargets, hactive⟩ := withdrawAccounting_audits hsound ha haccounting
      exact ⟨htier, htargets, hactive⟩
    | withdrawCore depositor pool position depositorUsdc collection remaining =>
      obtain rfl := Option.some.inj hother
      simp only [exec, withdrawCore, bind_ok, pure_ok, Prod.mk.injEq, Prod.exists] at h
      obtain ⟨-, -, a, ha, -, -, -, -, -, -, _, -, c₁, _, haccounting, _, -, rfl, rfl⟩ := h
      obtain ⟨htier, htargets, hactive⟩ := withdrawAccounting_audits hsound ha haccounting
      exact ⟨htier, htargets, hactive⟩
    | closeSeized caller pool position collection =>
      obtain rfl := Option.some.inj hother
      exact closeSeized_audits hsound h
    | updateTier operator pool position remaining =>
      obtain rfl := Option.some.inj hother
      exact updateTier_audits hsound h
    | _ => exact audits_quiet h rfl rfl
  · refine (exec_apart hsound h hother).audits fun e he heq => ?_
    rcases exec_auditedPool h he with hnone | hruns
    · rw [hnone] at heq
      cases heq
    · exact hother (hruns.symm.trans heq)

theorem readAuthorities_kind (h : e.kind ∉ [EventKind.protocolInitialized, .authorityRotated])
    (live : AuthorityRole → Option Pubkey) : readAuthorities live e = some live := by
  cases e with
  | protocolInitialized | authorityRotated => exact absurd (by simp [Event.kind]) h
  | _ => rfl

theorem authorities_quiet (h : exec X clock c instr = .ok (c', events))
    (hkinds : ∀ kind ∈ instr.publishes, kind ∉ [EventKind.protocolInitialized, .authorityRotated])
    (hlive : c'.liveAuthorities = c.liveAuthorities) :
    replay readAuthorities events c.liveAuthorities = some c'.liveAuthorities := by
  rw [hlive]
  exact replay_silent (fun e he => readAuthorities_kind (hkinds e.kind (exec_publishes h he))) _

theorem exec_authorities (h : exec X clock c instr = .ok (c', events)) :
    replay readAuthorities events c.liveAuthorities = some c'.liveAuthorities := by
  cases instr with
  | initProtocol payer args =>
    simp only [exec, initProtocol, bind_ok, pure_ok, Prod.mk.injEq] at h
    obtain ⟨-, -, -, -, -, -, rfl, rfl⟩ := h
    simp only [replay_cons, replay_nil, readAuthorities, Option.bind_some, Option.some.injEq]
    funext role
    cases role <;> rfl
  | initPool administrator weightIndex args =>
    refine authorities_quiet h (by simp [Instr.publishes]) ?_
    simp only [exec, initPool, loadForAdministrator, Chain.loadConfig, bind_ok, okOr_ok, pure_ok,
      Prod.mk.injEq] at h
    obtain ⟨_, ⟨-, -, config, hconfig, -, -, rfl⟩, -, -, -, -, -, -, -, -, _, -, _, -, -, -, -, -, _,
      -, rfl, -⟩ := h
    funext role
    simp only [Chain.liveAuthorities, hconfig]
    cases role <;> rfl
  | updateVrfConfig administrator vrfProgram oracleQueue swapPool =>
    refine authorities_quiet h (by simp [Instr.publishes]) ?_
    simp only [exec, updateVrfConfig, loadForAdministrator, Chain.loadConfig, bind_ok, okOr_ok,
      pure_ok, Prod.mk.injEq] at h
    obtain ⟨_, ⟨-, -, config, hconfig, -, -, rfl⟩, rfl, -⟩ := h
    funext role
    simp only [Chain.liveAuthorities, hconfig]
    cases role <;> rfl
  | setAuthorities signer role newAuthority =>
    obtain ⟨config, hconfig, -, ⟨proposed, -, -, rfl, rfl⟩ | ⟨-, -, -, rfl, rfl⟩⟩ :=
      setAuthorities_ok.mp h
    · simp only [replay_cons, replay_nil, readAuthorities, Option.bind_some, Option.some.injEq]
      funext other
      simp [Chain.liveAuthorities, hconfig]
    · have hheld : c.liveAuthorities role = some (currentAuthority config role) := by
        simp [Chain.liveAuthorities, hconfig]
      simp only [replay_cons, replay_nil, readAuthorities, if_pos hheld, Option.bind_some,
        Option.some.injEq]
      funext other
      by_cases hrole : other = role
      · subst hrole
        simp [Chain.liveAuthorities]
      · simp [Chain.liveAuthorities, hconfig, hrole]
  | _ =>
    refine authorities_quiet h (by simp [Instr.publishes]) ?_
    funext role
    simp only [Chain.liveAuthorities, (exec_accounts h).config rfl]

-- ---------------------------------------------------------------------------
-- Runs
-- ---------------------------------------------------------------------------

variable {may : Ledger → Settlement → Prop} {c₀ : Chain} {entries : List Entry} {s : Settlement}

/-- A reading that follows every instruction, of a view nothing else moves, follows every trace. -/
theorem Trace.follows {σ : Type} {read : σ → Event → Option σ} (view : Chain → σ)
    (hstep : ∀ c c' clock instr events, c.Sound → exec X clock c instr = .ok (c', events) →
      replay read events (view c) = some (view c'))
    (helsewhere : ∀ (c : Chain) tokens externals, view { c with tokens, externals } = view c)
    (hsettle : ∀ (c : Chain) key L s, c.Reads key L → view (c.settle key s) = view c)
    (hgenesis : Genesis c₀) (htrace : Trace X may c₀ entries c) :
    replay read (published entries) (view c₀) = some (view c) := by
  induction htrace with
  | start => rfl
  | instruction htrace clock instr events hrun ih =>
    rw [published, List.flatMap_append]
    refine replay_trans ih ?_
    simpa using hstep _ _ clock instr events (htrace.sound hgenesis) hrun
  | elsewhere _ tokens externals _ ih =>
    exact ih.trans (congrArg some (helsewhere _ tokens externals).symm)
  | settle _ hL _ ih =>
    exact ih.trans (congrArg some (hsettle _ _ _ _ hL).symm)

theorem settle_tierHolders (hL : c.Reads k L) :
    (c.settle k s).tierHolders key = c.tierHolders key := by
  rw [Chain.settle, ledger_eq_some.mpr hL]
  by_cases hkey : key = k
  · subst hkey
    simp only [Chain.tierHolders, Finmap.lookup_insert, hL.topTier]
    rfl
  · simp only [Chain.tierHolders]
    rw [Finmap.lookup_insert_of_ne _ (by simpa using hkey)]

theorem settle_targets (hL : c.Reads k L) :
    targetsOf ((c.settle k s).pools.lookup key) = targetsOf (c.pools.lookup key) := by
  rw [Chain.settle, ledger_eq_some.mpr hL]
  by_cases hkey : key = k
  · subst hkey
    simp only [Finmap.lookup_insert, hL.pool]
    rfl
  · simp only [Finmap.lookup_insert_of_ne _ hkey]

theorem settle_liveAuthorities (hL : c.Reads k L) :
    (c.settle k s).liveAuthorities = c.liveAuthorities := by
  rw [Chain.settle, ledger_eq_some.mpr hL]
  rfl

/-- Over every run, settlements included, the four readings accept the whole log, and end at the
tier, the targets, the active values and the live authorities the ledger ends with. A run may stop
after any instruction, so they do so after each. -/
theorem log_determines_state (hgenesis : Genesis c₀) (htrace : Trace X may c₀ entries c)
    (key : Pubkey) :
    replay (readTier key) (published entries) (fun _ => false) = some (c.tierHolders key) ∧
    replay (readTargets key) (published entries) (0, 0, fun _ => 0)
      = some (targetsOf (c.pools.lookup key)) ∧
    replay (readActive key) (published entries) (fun _ => none)
      = some (activeValues c.positions key) ∧
    replay readAuthorities (published entries) (fun _ => none) = some c.liveAuthorities := by
  have htier : c₀.tierHolders key = fun _ => false := by
    simp [Chain.tierHolders, hgenesis.topTiers]
  have htargets : targetsOf (c₀.pools.lookup key) = (0, 0, fun _ => 0) := by
    simp [targetsOf, hgenesis.pools]
  have hactive : activeValues c₀.positions key = fun _ => none := by
    funext k
    simp [activeValues, hgenesis.positions]
  have hlive : c₀.liveAuthorities = fun _ => none := by
    funext role
    simp [Chain.liveAuthorities, hgenesis.protocolConfig]
  refine ⟨?_, ?_, ?_, ?_⟩
  · rw [← htier]
    exact htrace.follows (fun c => c.tierHolders key)
      (fun _ _ _ _ _ hsound h => (exec_audits hsound h key).tier) (fun _ _ _ => rfl)
      (fun _ _ _ _ hL => settle_tierHolders hL) hgenesis
  · rw [← htargets]
    exact htrace.follows (fun c => targetsOf (c.pools.lookup key))
      (fun _ _ _ _ _ hsound h => (exec_audits hsound h key).targets) (fun _ _ _ => rfl)
      (fun _ _ _ _ hL => settle_targets hL) hgenesis
  · rw [← hactive]
    exact htrace.follows (fun c => activeValues c.positions key)
      (fun _ _ _ _ _ hsound h => (exec_audits hsound h key).active) (fun _ _ _ => rfl)
      (fun c k _ s _ => by rw [settle_positions]) hgenesis
  · rw [← hlive]
    exact htrace.follows Chain.liveAuthorities (fun _ _ _ _ _ _ h => exec_authorities h)
      (fun _ _ _ => rfl) (fun _ _ _ _ hL => settle_liveAuthorities hL) hgenesis

end

def bankActivated : Chain := bankRun [admitCards, depositCard 30, approveCard 30 15_000_000 77]

/-- Its log tells of the one member, of what the controller asked for, of the member's value, and of
who operates the protocol. -/
theorem log_determines_state_bank : ∃ entries members targets values live,
    replay (readTier (.pool 0)) (published entries) (fun _ => false) = some members ∧
    members (bankPosition 30) = true ∧
    replay (readTargets (.pool 0)) (published entries) (0, 0, fun _ => 0) = some targets ∧
    targets = (1, 66_666_666_666, ![0, 0, 1]) ∧
    replay (readActive (.pool 0)) (published entries) (fun _ => none) = some values ∧
    values (bankPosition 30) = some 15_000_000 ∧
    replay readAuthorities (published entries) (fun _ => none) = some live ∧
    live .operator = some (.key 2) := by
  have hreachable : Reachable bank bankActivated := bankRun_reachable (by decide +kernel)
  have hsettling : SettlingReachable bank (fun _ _ => False) bankActivated := hreachable.settling
  obtain ⟨c₀, hgenesis, hsteps⟩ := hsettling
  obtain ⟨entries, htrace⟩ := Trace.exists hsteps
  obtain ⟨htier, htargets, hactive, hlive⟩ := log_determines_state hgenesis htrace (.pool 0)
  exact ⟨entries, _, _, _, _, htier, by decide +kernel, htargets, by decide +kernel, hactive,
    by decide +kernel, hlive, by decide +kernel⟩

end ByeMachine
