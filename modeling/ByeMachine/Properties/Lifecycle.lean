import ByeMachine.Invariants.Evolution
import ByeMachine.Invariants.Lives
import ByeMachine.Invariants.Traces

/-!
# The life of a position account

From the deposit that opens it until it closes, an account belongs to one
deposit, moves through its states in one direction, is activated at most once,
and is bookkept only while it is active.
-/

namespace ByeMachine

open Fallible

-- ---------------------------------------------------------------------------
-- One instruction
-- ---------------------------------------------------------------------------

/-- The fields that say whose deposit it is. -/
structure SameDeposit (p q : Position) : Prop where
  pool : q.pool = p.pool
  depositor : q.depositor = p.depositor
  nftMint : q.nftMint = p.nftMint
  positionId : q.positionId = p.positionId
  standard : q.standard = p.standard
  bump : q.bump = p.bump
  vaultBump : q.vaultBump = p.vaultBump

/-- The fields an activation writes, but for the value and the fee checkpoint. -/
structure SameActivation (p q : Position) : Prop where
  activatedAt : q.activatedAt = p.activatedAt
  depositValue : q.depositValue = p.depositValue
  lockUntil : q.lockUntil = p.lockUntil
  slotIndex : q.slotIndex = p.slotIndex

/-- The tier flag, the fees and the checkpoints. -/
structure SameBooks (p q : Position) : Prop where
  inTier : q.inTier = p.inTier
  accrued : q.accrued = p.accrued
  equalCheckpoint : q.equalCheckpoint = p.equalCheckpoint
  tierCheckpoint : q.tierCheckpoint = p.tierCheckpoint

/-- Whether the instruction is one that moves the position at `k` through its life. -/
def Instr.actsOn (k : Pubkey) : Instr → Bool
  | .approveDeposit _ _ position _ _ _ _ => position = k
  | .rejectDeposit _ position _ => position = k
  | .recordValue _ _ position _ _ _ => position = k
  | .closeSeized _ _ position _ => position = k
  | _ => false

/-- What an instruction that leaves the account open does to the position at `k`. -/
inductive LifeStep (k : Pubkey) (clock : Clock) : Instr → Position → Position → Prop where
  | stays {instr : Instr} {p q : Position} (hother : instr.actsOn k = false)
      (hdeposit : SameDeposit p q) (hactivation : SameActivation p q)
      (hstate : q.state = p.state) (hvalue : q.recordedValue = p.recordedValue)
      (hreason : q.rejectReason = p.rejectReason) (hbooks : p.state ≠ .active → SameBooks p q) :
      LifeStep k clock instr p q
  | activated {operator pool : Pubkey} {remaining : List AccountMeta} {value : ℕ}
      {observedAt lockUntil : ℤ} {p q : Position} (hdeposit : SameDeposit p q)
      (hbefore : p.state = .pending) (hafter : q.state = .active)
      (hactivatedAt : q.activatedAt = clock.unixTimestamp) (hdepositValue : q.depositValue = value)
      (hlock : q.lockUntil = lockUntil) (hvalue : q.recordedValue = value)
      (hreason : q.rejectReason = p.rejectReason) :
      LifeStep k clock
        (.approveDeposit operator pool k remaining value observedAt lockUntil) p q
  | rejected {operator : Pubkey} {reason : ℕ} {p : Position} (hbefore : p.state = .pending) :
      LifeStep k clock (.rejectDeposit operator k reason) p
        { p with state := .rejected, rejectReason := reason }
  | revalued {operator pool : Pubkey} {remaining : List AccountMeta} {value : ℕ} {observedAt : ℤ}
      {p q : Position} (hdeposit : SameDeposit p q) (hactivation : SameActivation p q)
      (hbefore : p.state = .active) (hafter : q.state = .active ∨ q.state = .closedBelowFloor)
      (hvalue : q.recordedValue = value) (hreason : q.rejectReason = p.rejectReason) :
      LifeStep k clock (.recordValue operator pool k remaining value observedAt) p q
  | seized {caller pool collection : Pubkey} {p q : Position} (hdeposit : SameDeposit p q)
      (hactivation : SameActivation p q) (hstandard : p.standard = STANDARD_CORE)
      (hbefore : p.state ≠ .seized) (hafter : q.state = .seized)
      (hvalue : q.recordedValue = p.recordedValue) (hreason : q.rejectReason = p.rejectReason)
      (hbooks : p.state ≠ .active → SameBooks p q) :
      LifeStep k clock (.closeSeized caller pool k collection) p q

section Step

variable {X : Programs} {clock : Clock} {c c' : Chain} {events : List Event} {instr : Instr}
  {k : Pubkey} {p q : Position} {L L' : Ledger} {accEqual accTier : ℕ}

theorem SameDeposit.trans {r : Position} (h : SameDeposit p q) (h' : SameDeposit q r) :
    SameDeposit p r :=
  ⟨h'.pool.trans h.pool, h'.depositor.trans h.depositor, h'.nftMint.trans h.nftMint,
    h'.positionId.trans h.positionId, h'.standard.trans h.standard, h'.bump.trans h.bump,
    h'.vaultBump.trans h.vaultBump⟩

theorem SameDeposit.of_terms (h : q.terms = p.terms) : SameDeposit p q := by
  simp only [Position.terms, Position.mk.injEq] at h
  obtain ⟨hpool, hdepositor, hmint, hid, -, -, -, -, -, -, -, -, -, -, -, -, hstandard, hbump,
    hvault⟩ := h
  exact ⟨hpool, hdepositor, hmint, hid, hstandard, hbump, hvault⟩

theorem SameDeposit.of_write {r : Position} (h : q.terms = r.terms) (hr : SameDeposit p r) :
    SameDeposit p q := hr.trans (.of_terms h)

theorem SameActivation.trans {r : Position} (h : SameActivation p q) (h' : SameActivation q r) :
    SameActivation p r :=
  ⟨h'.activatedAt.trans h.activatedAt, h'.depositValue.trans h.depositValue,
    h'.lockUntil.trans h.lockUntil, h'.slotIndex.trans h.slotIndex⟩

theorem SameActivation.of_terms (h : q.terms = p.terms) : SameActivation p q := by
  simp only [Position.terms, Position.mk.injEq] at h
  obtain ⟨-, -, -, -, -, -, -, hvalue, hslot, hactivated, -, -, -, -, hlock, -, -, -, -⟩ := h
  exact ⟨hactivated, hvalue, hlock, hslot⟩

theorem SameActivation.of_write {r : Position} (h : q.terms = r.terms) (hr : SameActivation p r) :
    SameActivation p q := hr.trans (.of_terms h)

theorem Change.positionSteps {update : Option ConfigUpdate} (h : Change update L L')
    (hranked : L.Ranked) (hp : L.positions.lookup k = some p)
    (hq : L'.positions.lookup k = some q) :
    PositionSteps L.pool.accEqual L.topTier.accTier p q := by
  cases h with
  | moves hmoves =>
    obtain ⟨p₀, hp₀, hsteps⟩ := (Moves.evolves hmoves hranked).positions k q hq
    obtain rfl := Option.some.inj (hp.symm.trans hp₀)
    exact hsteps
  | intake hintake hmoves =>
    obtain ⟨p₀, hp₀, hsteps⟩ := (Moves.evolves hmoves (hintake.ranked hranked)).positions k q hq
    cases hintake with
    | @intro k' _ _ hfree =>
      have hne : k ≠ k' := by
        rintro rfl
        rw [hp] at hfree
        cases hfree
      obtain rfl := Option.some.inj (hp.symm.trans ((Finmap.lookup_insert_of_ne _ hne).symm.trans
        hp₀))
      exact hsteps
  | configure _ hconfig =>
    obtain ⟨p₀, hp₀, hsteps⟩ := (hconfig.evolves hranked).positions k q hq
    obtain rfl := Option.some.inj (hp.symm.trans hp₀)
    exact hsteps

theorem PositionSteps.settledBooks (h : PositionSteps accEqual accTier p q)
    (hactive : p.state ≠ .active) (hpending : p.state ≠ .pending) :
    SameBooks p q ∧ q.state ≠ .active ∧ q.state ≠ .pending := by
  induction h with
  | refl => exact ⟨⟨rfl, rfl, rfl, rfl⟩, hactive, hpending⟩
  | tail _ hstep ih =>
    obtain ⟨hbooks, hactive, hpending⟩ := ih
    cases hstep with
    | activate hstate => exact absurd hstate hpending
    | revalue hstate | depart hstate | leave hstate | join hstate => exact absurd hstate hactive
    | retire _ hafter =>
      refine ⟨⟨hbooks.inTier, hbooks.accrued, hbooks.equalCheckpoint, hbooks.tierCheckpoint⟩, ?_⟩
      rcases hafter with rfl | rfl <;> exact ⟨by simp, by simp⟩

theorem PositionSteps.stillPending (h : PositionSteps accEqual accTier p q)
    (hq : q.state = .pending) : q = p := by
  induction h with
  | refl => rfl
  | tail _ hstep ih =>
    cases hstep with
    | activate => cases hq
    | revalue hstate | leave hstate | join hstate =>
      have hpending : PositionState.active = .pending := hstate.symm.trans hq
      cases hpending
    | depart _ _ hafter | retire _ hafter =>
      rcases hafter with rfl | rfl <;> cases hq

theorem exec_positionSteps (hsound : c.Sound) (h : exec X clock c instr = .ok (c', events))
    (hp : c.positions.lookup k = some p) (hq : c'.positions.lookup k = some q)
    (hpool : q.pool = p.pool) : ∃ accEqual accTier, PositionSteps accEqual accTier p q := by
  obtain ⟨L, hL⟩ := hsound.wellFormed.ofPosition hp
  obtain ⟨L', hL', hchange⟩ :=
    (exec_effect hsound.wellFormed hsound.ranked h).forward hsound.wellFormed hL
  exact ⟨_, _, hchange.positionSteps (hsound.ranked _ L hL) (hL.lookup.mpr ⟨hp, rfl⟩)
    (hL'.lookup.mpr ⟨hq, hpool⟩)⟩

theorem closeSeized_inactive {caller poolKey collection : Pubkey}
    (h : closeSeized X clock c caller poolKey k collection = .ok (c', events))
    (hp : c.positions.lookup k = some p) (hactive : p.state ≠ .active)
    (hq : c'.positions.lookup k = some q) : q = { p with state := .seized } := by
  simp only [closeSeized, bind_ok, pure_ok, Prod.mk.injEq, Prod.exists] at h
  obtain ⟨-, -, a, ha, -, -, -, -, kind, _, -, booked, hbooked, _, _, moved, _, hremove, rfl, -⟩ := h
  obtain rfl := Option.some.inj ((loadThroughPool_ok ha).2.1.symm.trans hp)
  obtain ⟨-, hposition, -, heffect⟩ := applyCloseSeized_inactive hactive hbooked
  rw [heffect, hposition] at hremove
  simp only [removeDeparted, pure_ok, Prod.mk.injEq] at hremove
  obtain ⟨-, -, rfl, -⟩ := hremove
  exact (Option.some.inj ((Finmap.lookup_insert _).symm.trans hq)).symm

theorem closeSeized_seizes {caller poolKey collection : Pubkey}
    (h : closeSeized X clock c caller poolKey k collection = .ok (c', events))
    (hp : c.positions.lookup k = some p) (hq : c'.positions.lookup k = some q) :
    q.state ≠ p.state := by
  have hinverted := h
  simp only [closeSeized, bind_ok, require_ok, pure_ok, Prod.mk.injEq, Prod.exists] at h
  obtain ⟨-, -, a, ha, -, -, -, hvault, kind, _, -, booked, hbooked, _, _, moved, _, hremove, rfl,
    -⟩ := h
  obtain rfl := Option.some.inj ((loadThroughPool_ok ha).2.1.symm.trans hp)
  have hnot : a.position.state ≠ .seized := by
    intro hseized
    rw [hseized] at hvault
    cases hvault
  have hafter : q.state = .seized := by
    by_cases hactive : a.position.state = .active
    · obtain rfl := Option.some.inj ((Finmap.lookup_insert _).symm.trans hq)
      obtain ⟨_, -, -, -, hposition, -⟩ := applyCloseSeized_active hactive hbooked
      have hterms := removeDeparted_terms hremove
      rw [hposition] at hterms
      simp only [Position.terms, Position.departed, Position.mk.injEq] at hterms
      exact hterms.2.2.2.2.1
    · rw [closeSeized_inactive hinverted hp hactive hq]
  rw [hafter]
  exact hnot.symm

theorem approveDeposit_state {operator poolKey : Pubkey} {remaining : List AccountMeta} {value : ℕ}
    {observedAt lockUntil : ℤ}
    (h : approveDeposit clock c operator poolKey k remaining value observedAt lockUntil
      = .ok (c', events))
    (hp : c.positions.lookup k = some p) (hq : c'.positions.lookup k = some q) :
    q.state ≠ p.state := by
  obtain ⟨p₀, q₀, slot, accEqual, positions', hp₀, -, hstate, hterms, -, hpositions⟩ :=
    approveDeposit_activates h
  obtain rfl := Option.some.inj (hp.symm.trans hp₀)
  rw [hpositions, Finmap.lookup_insert] at hq
  obtain rfl := Option.some.inj hq
  simp only [Position.terms, Position.activated, Position.mk.injEq] at hterms
  rw [hterms.2.2.2.2.1, hstate]
  decide

theorem rejectDeposit_state {operator : Pubkey} {reason : ℕ}
    (h : rejectDeposit clock c operator k reason = .ok (c', events))
    (hp : c.positions.lookup k = some p) (hq : c'.positions.lookup k = some q) :
    q.state ≠ p.state := by
  simp only [rejectDeposit, bind_ok, require_ok, loadOwnPosition_ok, pure_ok, Prod.mk.injEq] at h
  obtain ⟨_, -, p₀, ⟨hp₀, -⟩, -, hstate, -, -, rfl, -⟩ := h
  obtain rfl := Option.some.inj (hp.symm.trans hp₀)
  obtain rfl := Option.some.inj ((Finmap.lookup_insert _).symm.trans hq)
  rw [hstate]
  simp

theorem recordValue_attests {operator poolKey : Pubkey} {remaining : List AccountMeta} {value : ℕ}
    {observedAt : ℤ}
    (h : recordValue clock c operator poolKey k remaining value observedAt = .ok (c', events))
    (hp : c.positions.lookup k = some p) (hq : c'.positions.lookup k = some q) :
    p.state = .active ∧ q.recordedValue = value := by
  simp only [recordValue, bind_ok, pure_ok, Prod.mk.injEq, Prod.exists] at h
  obtain ⟨_, -, a, ha, booked, hbooked, _, -, _, moved, _, _, htier, rfl, -⟩ := h
  obtain rfl := Option.some.inj ((loadThroughPool_ok ha).2.1.symm.trans hp)
  obtain rfl := Option.some.inj ((Finmap.lookup_insert _).symm.trans hq)
  have hterms := (recordTier_terms htier).1
  simp only [Position.terms, Position.mk.injEq] at hterms
  obtain ⟨-, -, -, -, -, hvalue, -⟩ := hterms
  rw [hvalue]
  simp only [applyRecordValue, bind_ok, require_ok, pure_ok, Prod.exists] at hbooked
  obtain ⟨-, -, -, -, -, hactive, -, -, _, -, _, -, _, -, _, _, _, -, _, -, _, -, rfl⟩ := hbooked
  exact ⟨hactive, rfl⟩

/-- Every instruction takes every account it leaves open through a step of its life. -/
theorem exec_lifeStep (hsound : c.Sound) (h : exec X clock c instr = .ok (c', events))
    (hp : c.positions.lookup k = some p) (hq : c'.positions.lookup k = some q) :
    LifeStep k clock instr p q := by
  have hfate := exec_fate h k
  rw [hp, hq] at hfate
  cases hfate with
  | kept hterms =>
    have hterms : q.terms = p.terms := Option.some.inj hterms
    have hdeposit := SameDeposit.of_terms hterms
    have hactivation := SameActivation.of_terms hterms
    simp only [Position.terms, Position.mk.injEq] at hterms
    obtain ⟨-, -, -, -, hstate, hvalue, -, -, -, -, -, -, -, -, -, hreason, -⟩ := hterms
    have hbooks (hactive : p.state ≠ .active) : SameBooks p q := by
      obtain ⟨_, _, hsteps⟩ := exec_positionSteps hsound h hp hq hdeposit.pool
      by_cases hpending : p.state = .pending
      · obtain rfl := PositionSteps.stillPending hsteps (hstate.trans hpending)
        exact ⟨rfl, rfl, rfl, rfl⟩
      · exact (PositionSteps.settledBooks hsteps hactive hpending).1
    cases hacts : instr.actsOn k with
    | false => exact .stays hacts hdeposit hactivation hstate hvalue hreason hbooks
    | true =>
      -- Of the four, only a re-attestation can leave the terms as they were.
      cases instr with
      | recordValue operator pool position remaining value observedAt =>
        obtain rfl : position = k := by simpa [Instr.actsOn] using hacts
        obtain ⟨hactive, hattested⟩ := recordValue_attests h hp hq
        exact .revalued hdeposit hactivation hactive (.inl (hstate.trans hactive)) hattested hreason
      | approveDeposit operator pool position remaining value observedAt lockUntil =>
        obtain rfl : position = k := by simpa [Instr.actsOn] using hacts
        exact absurd hstate (approveDeposit_state h hp hq)
      | rejectDeposit operator position reason =>
        obtain rfl : position = k := by simpa [Instr.actsOn] using hacts
        exact absurd hstate (rejectDeposit_state h hp hq)
      | closeSeized caller pool position collection =>
        obtain rfl : position = k := by simpa [Instr.actsOn] using hacts
        exact absurd hstate (closeSeized_seizes h hp hq)
      | _ => cases hacts
  | approved hbefore hterms =>
    have hdeposit : SameDeposit p q := .of_write hterms ⟨rfl, rfl, rfl, rfl, rfl, rfl, rfl⟩
    simp only [Position.terms, Position.activated, Position.mk.injEq] at hterms
    obtain ⟨-, -, -, -, hafter, hvalue, -, hdepositValue, -, hactivatedAt, -, -, -, -, hlock, hreason,
      -⟩ := hterms
    exact .activated hdeposit hbefore hafter
      hactivatedAt hdepositValue hlock hvalue hreason
  | rejected hbefore => exact .rejected hbefore
  | revalued _ hbefore _ hterms =>
    have hdeposit : SameDeposit p q := .of_write hterms ⟨rfl, rfl, rfl, rfl, rfl, rfl, rfl⟩
    have hactivation : SameActivation p q := .of_write hterms ⟨rfl, rfl, rfl, rfl⟩
    simp only [Position.terms, Position.revalued, Position.mk.injEq] at hterms
    obtain ⟨-, -, -, -, hstate, hvalue, -, -, -, -, -, -, -, -, -, hreason, -⟩ := hterms
    exact .revalued hdeposit
      hactivation hbefore (.inl (hstate.trans hbefore))
      hvalue hreason
  | closed _ hbefore _ hterms =>
    have hdeposit : SameDeposit p q := .of_write hterms ⟨rfl, rfl, rfl, rfl, rfl, rfl, rfl⟩
    have hactivation : SameActivation p q := .of_write hterms ⟨rfl, rfl, rfl, rfl⟩
    simp only [Position.terms, Position.revalued, Position.mk.injEq] at hterms
    obtain ⟨-, -, -, -, hafter, hvalue, -, -, -, -, -, -, -, -, -, hreason, -⟩ := hterms
    exact .revalued hdeposit
      hactivation hbefore (.inr hafter) hvalue hreason
  | seized hstandard hbefore _ _ hterms =>
    have hdeposit : SameDeposit p q := .of_write hterms ⟨rfl, rfl, rfl, rfl, rfl, rfl, rfl⟩
    have hactivation : SameActivation p q := .of_write hterms ⟨rfl, rfl, rfl, rfl⟩
    simp only [Position.terms, Position.mk.injEq] at hterms
    obtain ⟨-, -, -, -, hafter, hvalue, -, -, -, -, -, -, -, -, -, hreason, -⟩ := hterms
    refine .seized hdeposit
      hactivation hstandard hbefore hafter hvalue hreason
      fun hactive => ?_
    rw [closeSeized_inactive h hp hactive hq]
    exact ⟨rfl, rfl, rfl, rfl⟩

end Step

-- ---------------------------------------------------------------------------
-- A whole life
-- ---------------------------------------------------------------------------

/-- A run from `c₁` on which the account at `k` stays open, with the instructions that went through
and the position as it is. -/
inductive Life (X : Programs) (may : Ledger → Settlement → Prop) (k : Pubkey) (c₁ : Chain)
    (p₁ : Position) : List Entry → Chain → Position → Prop where
  | start (hp : c₁.positions.lookup k = some p₁) : Life X may k c₁ p₁ [] c₁ p₁
  | instruction {entries : List Entry} {c c' : Chain} {p q : Position}
      (hlife : Life X may k c₁ p₁ entries c p) (clock : Clock) (instr : Instr)
      (events : List Event) (hrun : exec X clock c instr = .ok (c', events))
      (hq : c'.positions.lookup k = some q) :
      Life X may k c₁ p₁ (entries ++ [⟨clock, instr, events⟩]) c' q
  | elsewhere {entries : List Entry} {c : Chain} {p : Position}
      (hlife : Life X may k c₁ p₁ entries c p) (tokens : Tokens) (externals : Externals)
      (huntouched : Untouched c.tokens tokens) :
      Life X may k c₁ p₁ entries { c with tokens, externals } p
  | settle {entries : List Entry} {c : Chain} {p : Position} {key : Pubkey} {L : Ledger}
      {s : Settlement} (hlife : Life X may k c₁ p₁ entries c p) (hL : c.Reads key L)
      (hmay : may L s) : Life X may k c₁ p₁ entries (c.settle key s) p

def Entry.approves (k : Pubkey) (e : Entry) : Option (ℕ × ℤ) :=
  match e.instr with
  | .approveDeposit _ _ position _ value _ lockUntil =>
    if position = k then some (value, lockUntil) else none
  | _ => none

def Entry.attests (k : Pubkey) (e : Entry) : Option ℕ :=
  match e.instr with
  | .approveDeposit _ _ position _ value _ _ => if position = k then some value else none
  | .recordValue _ _ position _ value _ => if position = k then some value else none
  | _ => none

def attestedBy (k : Pubkey) (entries : List Entry) : ℕ :=
  entries.foldl (fun value e => (e.attests k).getD value) 0

def Entry.takesIn (k : Pubkey) (e : Entry) : Bool :=
  match e.instr with
  | .deposit a => k = .position a.pool a.nftMint
  | .depositCore a => k = .position a.pool a.asset
  | _ => false

/-- Where a life stands: not activated yet, with nothing an activation writes, or activated once,
with what that one activation wrote. -/
inductive LifeStage (k : Pubkey) (entries : List Entry) (p : Position) : Prop where
  | waiting (hnone : ∀ e ∈ entries, e.approves k = none)
      (hstate : p.state = .pending ∨ p.state = .rejected ∨ p.state = .seized)
      (hactivatedAt : p.activatedAt = 0) (hdepositValue : p.depositValue = 0)
      (hlock : p.lockUntil = 0) (hslot : p.slotIndex = 0) (hvalue : p.recordedValue = 0)
  | activated {before after : List Entry} {e : Entry} {value : ℕ} {lockUntil : ℤ}
      (hsplit : entries = before ++ e :: after)
      (hbefore : ∀ e ∈ before, e.approves k = none)
      (happroves : e.approves k = some (value, lockUntil))
      (hafter : ∀ e ∈ after, e.approves k = none)
      (hstate : p.state = .active ∨ p.state = .closedBelowFloor ∨ p.state = .seized)
      (hactivatedAt : p.activatedAt = e.clock.unixTimestamp) (hdepositValue : p.depositValue = value)
      (hlock : p.lockUntil = lockUntil)

/-- What a life keeps from its first record `p₁` on. -/
structure Lived (k : Pubkey) (p₁ : Position) (entries : List Entry) (p : Position) : Prop where
  same : SameDeposit p₁ p
  stage : LifeStage k entries p
  value : p.recordedValue = attestedBy k entries

section Life

variable {X : Programs} {may : Ledger → Settlement → Prop} {k : Pubkey} {c₀ c c' c₁ c₂ : Chain}
  {p₁ p q : Position} {entries past before after : List Entry} {e : Entry}

theorem Life.lookup (h : Life X may k c₁ p₁ entries c p) : c.positions.lookup k = some p := by
  induction h with
  | start hp => exact hp
  | instruction _ _ _ _ _ hq => exact hq
  | elsewhere _ _ _ _ ih => exact ih
  | settle _ _ _ ih => rwa [settle_positions]

theorem Life.origin (h : Life X may k c₁ p₁ entries c p) : c₁.positions.lookup k = some p₁ := by
  induction h with
  | start hp => exact hp
  | instruction _ _ _ _ _ _ ih | elsewhere _ _ _ _ ih | settle _ _ _ ih => exact ih

theorem Life.trace (h : Life X may k c₁ p₁ entries c p) : Trace X may c₁ entries c := by
  induction h with
  | start => exact .start
  | instruction _ clock instr events hrun _ ih => exact ih.instruction clock instr events hrun
  | elsewhere _ tokens externals huntouched ih => exact ih.elsewhere tokens externals huntouched
  | settle _ hL hmay ih => exact ih.settle hL hmay

theorem Life.split (h : Life X may k c₁ p₁ (before ++ e :: after) c p) :
    ∃ c' p' c'' q, Life X may k c₁ p₁ before c' p' ∧ exec X e.clock c' e.instr = .ok (c'', e.events) ∧
      Life X may k c'' q after c p := by
  generalize hentries : before ++ e :: after = entries at h
  induction h generalizing after with
  | start => simp at hentries
  | @instruction entries c c' p q hlife clock instr events hrun hq ih =>
    rcases List.eq_nil_or_concat after with rfl | ⟨after, last, rfl⟩
    · obtain ⟨rfl, hlast⟩ := List.append_inj' hentries rfl
      obtain rfl : e = ⟨clock, instr, events⟩ := by simpa using hlast
      exact ⟨c, p, c', q, hlife, hrun, .start hq⟩
    · have hentries' : (before ++ e :: after) ++ [last] = entries ++ [⟨clock, instr, events⟩] := by
        simpa using hentries
      obtain ⟨hpast, hlast⟩ := List.append_inj' hentries' rfl
      obtain ⟨c₂, p₂, c₃, q₂, hbefore, hexec, hafter⟩ := ih hpast
      obtain rfl : last = ⟨clock, instr, events⟩ := by simpa using hlast
      refine ⟨c₂, p₂, c₃, q₂, hbefore, hexec, ?_⟩
      rw [List.concat_eq_append]
      exact hafter.instruction clock instr events hrun hq
  | elsewhere _ tokens externals huntouched ih =>
    obtain ⟨c₂, p₂, c₃, q₂, hbefore, hexec, hafter⟩ := ih hentries
    exact ⟨c₂, p₂, c₃, q₂, hbefore, hexec, hafter.elsewhere tokens externals huntouched⟩
  | settle _ hL hmay ih =>
    obtain ⟨c₂, p₂, c₃, q₂, hbefore, hexec, hafter⟩ := ih hentries
    exact ⟨c₂, p₂, c₃, q₂, hbefore, hexec, hafter.settle hL hmay⟩

theorem attestedBy_concat :
    attestedBy k (entries ++ [e]) = (e.attests k).getD (attestedBy k entries) := by
  simp [attestedBy, List.foldl_append]

theorem Entry.silent (h : e.instr.actsOn k = false) :
    e.approves k = none ∧ e.attests k = none := by
  obtain ⟨clock, instr, events⟩ := e
  cases instr with
  | approveDeposit | recordValue =>
    simp only [Instr.actsOn, decide_eq_false_iff_not] at h
    simp [Entry.approves, Entry.attests, h]
  | _ => exact ⟨rfl, rfl⟩

theorem LifeStage.keep (h : LifeStage k entries p) (hnone : e.approves k = none)
    (hactivation : SameActivation p q)
    (hwaiting : p.state = .pending ∨ p.state = .rejected ∨ p.state = .seized →
      (q.state = .pending ∨ q.state = .rejected ∨ q.state = .seized) ∧
        q.recordedValue = p.recordedValue)
    (hactivated : p.state = .active ∨ p.state = .closedBelowFloor ∨ p.state = .seized →
      q.state = .active ∨ q.state = .closedBelowFloor ∨ q.state = .seized) :
    LifeStage k (entries ++ [e]) q := by
  cases h with
  | waiting hall hstate hactivatedAt hdepositValue hlock hslot hvalue =>
    obtain ⟨hstate', hvalue'⟩ := hwaiting hstate
    refine .waiting ?_ hstate' (hactivation.activatedAt.trans hactivatedAt)
      (hactivation.depositValue.trans hdepositValue) (hactivation.lockUntil.trans hlock)
      (hactivation.slotIndex.trans hslot) (hvalue'.trans hvalue)
    intro e' he'
    rcases List.mem_append.mp he' with he' | he'
    · exact hall e' he'
    · obtain rfl := List.mem_singleton.mp he'
      exact hnone
  | @activated before after e₀ value lockUntil hsplit hbefore happroves hafter hstate hactivatedAt
      hdepositValue hlock =>
    have hsplit' : entries ++ [e] = before ++ e₀ :: (after ++ [e]) := by simp [hsplit]
    refine .activated hsplit' hbefore happroves ?_ (hactivated hstate)
      (hactivation.activatedAt.trans hactivatedAt)
      (hactivation.depositValue.trans hdepositValue) (hactivation.lockUntil.trans hlock)
    intro e' he'
    rcases List.mem_append.mp he' with he' | he'
    · exact hafter e' he'
    · obtain rfl := List.mem_singleton.mp he'
      exact hnone

theorem Lived.step {clock : Clock} {instr : Instr} {events : List Event} (h : Lived k p₁ entries p)
    (hstep : LifeStep k clock instr p q) :
    Lived k p₁ (entries ++ [⟨clock, instr, events⟩]) q := by
  obtain ⟨hsame, hstage, hvalue⟩ := h
  cases hstep with
  | stays hother hdeposit hactivation hstate hkept =>
    obtain ⟨happroves, hattests⟩ := Entry.silent (e := ⟨clock, instr, events⟩) hother
    refine ⟨hsame.trans hdeposit, hstage.keep happroves hactivation ?_ ?_, ?_⟩
    · rw [hstate]
      exact fun hwaiting => ⟨hwaiting, hkept⟩
    · rw [hstate]
      exact id
    · rw [attestedBy_concat, hattests, Option.getD_none, hkept, hvalue]
  | activated hdeposit hbefore hafter hactivatedAt hdepositValue hlock hattested =>
    refine ⟨hsame.trans hdeposit, ?_, ?_⟩
    · cases hstage with
      | waiting hnone =>
        exact .activated rfl hnone (by simp [Entry.approves]) (by simp) (.inl hafter) hactivatedAt
          hdepositValue hlock
      | activated _ _ _ _ hstate =>
        rw [hbefore] at hstate
        simp at hstate
    · rw [attestedBy_concat, hattested]
      simp [Entry.attests]
  | rejected hbefore =>
    refine ⟨hsame.trans ⟨rfl, rfl, rfl, rfl, rfl, rfl, rfl⟩,
      hstage.keep rfl ⟨rfl, rfl, rfl, rfl⟩ ?_ ?_, ?_⟩
    · exact fun _ => ⟨.inr (.inl rfl), rfl⟩
    · rw [hbefore]
      simp
    · rw [attestedBy_concat]
      exact hvalue
  | revalued hdeposit hactivation hbefore hafter hattested =>
    refine ⟨hsame.trans hdeposit, hstage.keep rfl hactivation ?_ ?_, ?_⟩
    · rw [hbefore]
      simp
    · exact fun _ => hafter.imp id .inl
    · rw [attestedBy_concat, hattested]
      simp [Entry.attests]
  | seized hdeposit hactivation hstandard hbefore hafter hkept =>
    refine ⟨hsame.trans hdeposit, hstage.keep rfl hactivation ?_ ?_, ?_⟩
    · exact fun _ => ⟨.inr (.inr hafter), hkept⟩
    · exact fun _ => .inr (.inr hafter)
    · rw [attestedBy_concat]
      exact hkept.trans hvalue

theorem Life.lived (h : Life X may k c₁ p₁ entries c p) (hsound : c₁.Sound)
    (hstart : Lived k p₁ [] p₁) : Lived k p₁ entries p := by
  induction h with
  | start => exact hstart
  | instruction hlife clock instr events hrun hq ih =>
    have hsound' : Chain.Sound _ := hlife.trace.sound_of hsound
    exact ih.step (exec_lifeStep hsound' hrun hlife.lookup hq)
  | elsewhere _ _ _ _ ih => exact ih
  | settle _ _ _ ih => exact ih

-- ---------------------------------------------------------------------------
-- From the deposit on
-- ---------------------------------------------------------------------------

theorem exec_born (h : exec X e.clock c e.instr = .ok (c₁, e.events))
    (hfree : c.positions.lookup k = none) (hp : c₁.positions.lookup k = some p₁) :
    e.takesIn k = true ∧ ∃ pool depositor nftMint record standard bump vaultBump,
      k = .position pool nftMint ∧ c.pools.lookup pool = some record ∧
        p₁ = pendingPosition pool depositor nftMint record.positionCounter standard bump
          vaultBump := by
  have hfate := exec_fate h k
  rw [hfree, hp] at hfate
  obtain ⟨clock, instr, events⟩ := e
  dsimp only at hfate
  cases hfate with
  | kept hterms => cases hterms
  | @taken a record standard bump vaultBump hkey hpool =>
    exact ⟨by simp [Entry.takesIn, hkey], a.pool, a.depositor, a.nftMint, record, standard, bump,
      vaultBump, hkey, hpool, rfl⟩
  | @takenCore a record bump vaultBump hkey hpool =>
    exact ⟨by simp [Entry.takesIn, hkey], a.pool, a.depositor, a.asset, record, STANDARD_CORE, bump,
      vaultBump, hkey, hpool, rfl⟩

theorem Trace.past_of {pool : Pubkey} {id : ℕ} (h : Trace X may c₀ entries c) (hsound : c₀.Sound)
    (hpast : Past c₀ pool id) : Past c pool id := by
  have hsteps := h.steps
  clear h
  suffices hboth : c.Sound ∧ Past c pool id from hboth.2
  induction hsteps with
  | refl => exact ⟨hsound, hpast⟩
  | tail _ hstep ih => exact ⟨hstep.sound ih.1, hstep.past ih.1 ih.2⟩

/-- The life of an account up to here: opened by a deposit under an id no earlier position of the
pool had and no other open one has, one deposit's throughout, in a stage of its life, attested as
the entries say, with every instruction a step of it wherever it ran. -/
structure Lifecycle (X : Programs) (may : Ledger → Settlement → Prop) (k : Pubkey) (c₀ c : Chain)
    (past : List Entry) (e : Entry) (c₁ : Chain) (p₁ : Position) (entries : List Entry)
    (c₂ : Chain) (p : Position) : Prop where
  deposited : e.takesIn k = true
  pending : p₁.state = .pending
  unissued : ∀ earlier later c' k' q, past = earlier ++ later → Trace X may c₀ earlier c' →
    Trace X may c' later c → c'.positions.lookup k' = some q → q.pool = p₁.pool →
      q.positionId < p₁.positionId
  unique : ∀ k' q, c₂.positions.lookup k' = some q → q.pool = p.pool →
    q.positionId = p.positionId → k' = k
  lived : Lived k p₁ entries p
  attested : p.state = .active → 0 < p.recordedValue
  between : ∀ before e' after, entries = before ++ e' :: after → ∃ c' p' c'' q,
    Life X may k c₁ p₁ before c' p' ∧ exec X e'.clock c' e'.instr = .ok (c'', e'.events) ∧
      Life X may k c'' q after c₂ p
  steps : ∀ before e' after, entries = before ++ e' :: after → ∀ c' p' c'' q,
    Life X may k c₁ p₁ before c' p' → exec X e'.clock c' e'.instr = .ok (c'', e'.events) →
      c''.positions.lookup k = some q → LifeStep k e'.clock e'.instr p' q

/-- Every account of every run has this life. -/
theorem position_lifecycle (hgenesis : Genesis c₀) (hpast : Trace X may c₀ past c)
    (hrun : exec X e.clock c e.instr = .ok (c₁, e.events)) (hfree : c.positions.lookup k = none)
    (hlife : Life X may k c₁ p₁ entries c₂ p) :
    Lifecycle X may k c₀ c past e c₁ p₁ entries c₂ p := by
  have hsound := hpast.sound hgenesis
  have hsound₁ : c₁.Sound := (hpast.instruction e.clock e.instr e.events hrun).sound hgenesis
  have hsound₂ := hlife.trace.sound_of hsound₁
  have hp₁ := hlife.origin
  obtain ⟨htakes, pool, depositor, nftMint, record, standard, bump, vaultBump, hkey, hrecord, hborn⟩ :=
    exec_born hrun hfree hp₁
  have hlived : Lived k p₁ entries p := by
    refine hlife.lived hsound₁ ⟨⟨rfl, rfl, rfl, rfl, rfl, rfl, rfl⟩, ?_, ?_⟩
    · rw [hborn]
      exact .waiting (by simp) (.inl rfl) rfl rfl rfl rfl rfl
    · rw [hborn]
      rfl
  obtain ⟨L, hL⟩ := hsound₂.wellFormed.ofPosition hlife.lookup
  have hlookup : L.positions.lookup k = some p := hL.lookup.mpr ⟨hlife.lookup, rfl⟩
  refine ⟨htakes, by rw [hborn]; rfl, ?_, ?_, hlived, ?_, ?_, ?_⟩
  · rintro earlier later c' k' q rfl hearlier hlater hq hsame
    -- The id of the earlier position was given out by then, so the next one is larger.
    have hsound' := hearlier.sound hgenesis
    obtain ⟨M, hM, hlt⟩ := hlater.past_of hsound' (hsound'.past hq)
    rw [hsame, hborn] at hM
    obtain rfl := Option.some.inj (hM.pool.symm.trans hrecord)
    rw [hborn]
    exact hlt
  · intro k' q hq hsame hid
    have hq' : L.positions.lookup k' = some q := hL.lookup.mpr ⟨hq, hsame⟩
    exact (hsound₂.ranked _ L hL).identified.distinct k' k q p hq' hlookup hid
  · intro hactive
    exact ((hsound₂.synced _ L hL).attested k p hlookup hactive).1
  · rintro before e' after rfl
    exact hlife.split
  · rintro before e' after rfl c' p' c'' q hbefore hexec hq
    exact exec_lifeStep (hbefore.trace.sound_of hsound₁) hexec hbefore.lookup hq

end Life

def bankTaken : Chain := (bankRun [admitCards]).after bank [depositCard 30]

/-- A card of the bank comes in and is activated. -/
theorem position_lifecycle_bank : ∃ c₀ past e p₁ entries p,
    Lifecycle bank (fun _ _ => False) (bankPosition 30) c₀ (bankRun [admitCards]) past e bankTaken p₁
      entries (bankTaken.after bank [approveCard 30 15_000_000 77]) p ∧
      p.state = .active ∧ p.lockUntil = 77 := by
  have hreachable : Reachable bank (bankRun [admitCards]) := bankRun_reachable (by decide +kernel)
  have hsettling : SettlingReachable bank (fun _ _ => False) (bankRun [admitCards]) :=
    hreachable.settling
  obtain ⟨c₀, hgenesis, hsteps⟩ := hsettling
  obtain ⟨past, hpast⟩ := Trace.exists hsteps
  obtain ⟨taken, hrun⟩ : ∃ events, exec bank (depositCard 30).1 (bankRun [admitCards])
      (depositCard 30).2 = .ok (bankTaken, events) := exec_after (by decide +kernel)
  obtain ⟨approved, hrun'⟩ := exec_after (X := bank) (c := bankTaken)
    (s := approveCard 30 15_000_000 77) (by decide +kernel)
  have htaken : (bankTaken.positions.lookup (bankPosition 30)).isSome = true := by decide +kernel
  obtain ⟨p₁, hp₁⟩ := Option.isSome_iff_exists.mp htaken
  have hstands : ((bankTaken.after bank [approveCard 30 15_000_000 77]).positions.lookup
      (bankPosition 30)).map (fun p => (p.state, p.lockUntil)) = some (.active, 77) := by
    decide +kernel
  obtain ⟨p, hp, hfields⟩ := Option.map_eq_some_iff.mp hstands
  have hstart : Life bank (fun _ _ => False) (bankPosition 30) bankTaken p₁ [] bankTaken p₁ :=
    .start hp₁
  have hlifecycle := position_lifecycle (e := ⟨_, _, taken⟩) hgenesis hpast hrun (by decide +kernel)
    (hstart.instruction _ _ _ hrun' hp)
  exact ⟨c₀, past, _, p₁, _, p, hlifecycle, Prod.mk.inj hfields⟩

end ByeMachine
