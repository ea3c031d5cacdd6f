import ByeMachine.Properties.AuditTrail
import ByeMachine.Refinement.Handlers

/-!
# A position's record in the log

The log alone tells where every card stands: who deposited it and under which
number, its state, the values attested for it and when, and when it was handed
back. Each event is checked against what the events before it said.
-/

namespace ByeMachine

open Fallible Replay

/-- What the log tells of a position: neither its slot, its fee and tier bookkeeping, its lock, its
standard, nor its bumps. -/
def Position.told (p : Position) : Position :=
  { p with
    slotIndex := 0, equalCheckpoint := 0, accrued := 0, inTier := false, tierCheckpoint := 0
    lockUntil := 0, standard := 0, bump := 0, vaultBump := 0 }

-- ---------------------------------------------------------------------------
-- The reading
-- ---------------------------------------------------------------------------

def Event.toldCard : Event → Option Pubkey
  | .depositPending _ _ position .. | .depositApproved _ _ _ position ..
  | .depositRejected _ _ _ position .. | .nftReturned _ _ position .. | .withdrawn _ _ position ..
  | .nftClaimed _ _ position .. | .valueRecorded _ _ _ position ..
  | .belowFloorClosed _ _ _ position .. | .positionSeized _ _ position .. => some position
  | _ => none

def EventKind.ofCard : List EventKind :=
  [.depositPending, .depositApproved, .depositRejected, .nftReturned, .withdrawn, .nftClaimed,
    .valueRecorded, .belowFloorClosed, .positionSeized]

/-- One event of a position, where the record so far allows it; `id` is the next number. -/
def tellCard (id : ℕ) : Option Position → Event → Option (Option Position)
  | none, .depositPending pool _ _ depositor nftMint =>
    some (some (pendingPosition pool depositor nftMint id 0 0 0))
  | some p, .depositApproved _ _ _ _ value observedAt observedAgeSeconds =>
    if p.state = .pending then
      some (some { p with
        state := .active, recordedValue := value, valueObservedAt := observedAt
        depositValue := value, activatedAt := observedAt + observedAgeSeconds })
    else none
  | some p, .depositRejected _ _ _ _ reason =>
    if p.state = .pending then some (some { p with state := .rejected, rejectReason := reason })
    else none
  | some p, .valueRecorded _ _ _ _ old new observedAt =>
    if p.state = .active ∧ p.recordedValue = old then some (some (p.revalued new observedAt))
    else none
  | some p, .belowFloorClosed _ _ _ _ depositor =>
    if p.state = .active ∧ p.depositor = depositor then
      some (some { p with state := .closedBelowFloor })
    else none
  | some p, .positionSeized _ _ _ _ _ sourceState recordedValue =>
    if p.state ≠ .seized ∧ p.state = sourceState ∧ p.recordedValue = recordedValue then
      some (some { p with state := .seized })
    else none
  | some p, .withdrawn _ _ _ depositor _ =>
    if p.state = .active ∧ p.depositor = depositor then some none else none
  | some p, .nftReturned _ _ _ depositor nftMint =>
    if p.state = .rejected ∧ p.depositor = depositor ∧ p.nftMint = nftMint then some none else none
  | some p, .nftClaimed _ _ _ depositor nftMint =>
    if (p.state = .closedBelowFloor ∨ p.state = .seized) ∧ p.depositor = depositor ∧
        p.nftMint = nftMint then
      some none
    else none
  | _, _ => none

def countDeposit (pool : Pubkey) (id : ℕ) : Event → ℕ
  | .depositPending key .. => if key = pool then id + 1 else id
  | _ => id

def readPosition (key : Pubkey) (id : ℕ) (found : Option Position) (e : Event) :
    Option (Option Position) :=
  if e.toldCard = some key then tellCard id found e else some found

-- A card that was never deposited is not rejected.
example : readPosition (.key 5) 0 none (.depositRejected (.pool 0) 1 (.key 2) (.key 5) 3) = none := by
  simp [readPosition, Event.toldCard, tellCard]

/-- The next number of the pool, and the position of the card. -/
def readCard (pool nftMint : Pubkey) (s : ℕ × Option Position) (e : Event) :
    Option (ℕ × Option Position) :=
  (countDeposit pool s.1 e, ·) <$> readPosition (.position pool nftMint) s.1 s.2 e

/-- What the reading should end at. -/
def Chain.toldCard (c : Chain) (pool nftMint : Pubkey) : ℕ × Option Position :=
  ((c.pools.lookup pool).elim 0 Pool.positionCounter,
    (c.positions.lookup (.position pool nftMint)).map Position.told)

section

variable {X : Programs} {clock : Clock} {c c' : Chain} {events : List Event} {instr : Instr}
  {pool nftMint positionKey : Pubkey} {e : Event} {p q : Position}

theorem Position.told_terms : p.terms.told = p.told := rfl

theorem Position.told_of_terms (h : q.terms = p.terms) : q.told = p.told := by
  rw [← Position.told_terms, h, Position.told_terms]

theorem told_sameTerms {found found' : Option Position}
    (h : found'.map Position.terms = found.map Position.terms) :
    found'.map Position.told = found.map Position.told := by
  have hview (found : Option Position) :
      found.map Position.told = (found.map Position.terms).map Position.told := by
    rw [Option.map_map]
    rfl
  rw [hview, h, ← hview]

def CardTold (pool nftMint : Pubkey) (events : List Event) (c c' : Chain) : Prop :=
  replay (readCard pool nftMint) events (c.toldCard pool nftMint) = some (c'.toldCard pool nftMint)

-- ---------------------------------------------------------------------------
-- Counting
-- ---------------------------------------------------------------------------

theorem countDeposit_kind (h : e.kind ≠ .depositPending) (id : ℕ) : countDeposit pool id e = id := by
  cases e with
  | depositPending => exact absurd rfl h
  | _ => rfl

theorem PoolFate.keeps_counter {before after : Option Pool}
    (h : PoolFate X clock pool instr before after)
    (hquiet : EventKind.depositPending ∉ instr.publishes) :
    after.elim 0 Pool.positionCounter = before.elim 0 Pool.positionCounter := by
  cases h with
  | deposited | depositedCore => simp [Instr.publishes] at hquiet
  | committed hcommit =>
    obtain ⟨-, -, -, rfl⟩ := applyCommit_ok hcommit
    rfl
  | @configured administrator remaining update => cases update <;> rfl
  | _ => rfl

-- ---------------------------------------------------------------------------
-- Steps
-- ---------------------------------------------------------------------------

theorem replay_readCard {id : ℕ} {found found' : Option Position}
    (hkinds : ∀ e ∈ events, e.kind ≠ .depositPending)
    (hreplay : replay (readPosition (.position pool nftMint) id) events found = some found') :
    replay (readCard pool nftMint) events (id, found) = some (id, found') := by
  induction events generalizing found with
  | nil =>
    obtain rfl := Option.some.inj hreplay
    rfl
  | cons e events ih =>
    rw [replay_cons, Option.bind_eq_some_iff] at hreplay
    obtain ⟨next, hnext, hrest⟩ := hreplay
    have hread : readCard pool nftMint (id, found) e = some (id, next) := by
      simp only [readCard, countDeposit_kind (hkinds e List.mem_cons_self), hnext]
      rfl
    rw [replay_cons, hread]
    exact ih (fun e he => hkinds e (List.mem_cons_of_mem _ he)) hrest

theorem readPosition_silent {key : Pubkey} {id : ℕ} (h : e.toldCard ≠ some key)
    (found : Option Position) : readPosition key id found e = some found := if_neg h

/-- What counts no deposit, tells of one position at most and keeps the terms of the others. -/
theorem CardTold.of_one (h : exec X clock c instr = .ok (c', events))
    (hquiet : EventKind.depositPending ∉ instr.publishes)
    (htold : ∀ e ∈ events, e.toldCard = some positionKey ∨ e.toldCard = none)
    (hother : ∀ k ≠ positionKey, (c'.positions.lookup k).map Position.terms
      = (c.positions.lookup k).map Position.terms)
    (hreplay : ∀ id, replay (readPosition positionKey id) events
      ((c.positions.lookup positionKey).map Position.told)
        = some ((c'.positions.lookup positionKey).map Position.told))
    (pool nftMint : Pubkey) : CardTold pool nftMint events c c' := by
  rw [CardTold, Chain.toldCard, Chain.toldCard, (exec_pool h pool).keeps_counter hquiet]
  refine replay_readCard (fun e he heq => hquiet (heq ▸ exec_publishes h he)) ?_
  by_cases hkey : Pubkey.position pool nftMint = positionKey
  · rw [hkey]
    exact hreplay _
  · rw [told_sameTerms (hother _ hkey)]
    refine replay_silent (fun e he => readPosition_silent fun heq => ?_) _
    rcases htold e he with hposition | hnone
    · exact hkey (Option.some.inj (heq.symm.trans hposition))
    · rw [hnone] at heq
      cases heq

theorem CardTold.of_write {positions : Positions} (h : exec X clock c instr = .ok (c', events))
    (hquiet : EventKind.depositPending ∉ instr.publishes)
    (hsame : SameTerms c.positions positions)
    (hpositions : c'.positions = positions.insert positionKey q)
    (hp : c.positions.lookup positionKey = some p)
    (htold : ∀ e ∈ events, e.toldCard = some positionKey ∨ e.toldCard = none)
    (hreplay : ∀ id, replay (readPosition positionKey id) events (some p.told)
      = some (some q.told)) (pool nftMint : Pubkey) : CardTold pool nftMint events c c' := by
  refine .of_one h hquiet htold (fun k hk => ?_) (fun id => ?_) pool nftMint
  · rw [hpositions, Finmap.lookup_insert_of_ne _ hk]
    exact hsame k
  · rw [hpositions, Finmap.lookup_insert, hp]
    exact hreplay id

theorem CardTold.of_erase {positions : Positions} (h : exec X clock c instr = .ok (c', events))
    (hquiet : EventKind.depositPending ∉ instr.publishes)
    (hsame : SameTerms c.positions positions)
    (hpositions : c'.positions = positions.erase positionKey)
    (hp : c.positions.lookup positionKey = some p)
    (htold : ∀ e ∈ events, e.toldCard = some positionKey ∨ e.toldCard = none)
    (hreplay : ∀ id, replay (readPosition positionKey id) events (some p.told) = some none)
    (pool nftMint : Pubkey) : CardTold pool nftMint events c c' := by
  refine .of_one h hquiet htold (fun k hk => ?_) (fun id => ?_) pool nftMint
  · rw [hpositions, Finmap.lookup_erase_ne hk]
    exact hsame k
  · rw [hpositions, Finmap.lookup_erase, hp]
    exact hreplay id

theorem Fate.untold {before after : Option Position} {k : Pubkey}
    (h : Fate X clock c k instr before after)
    (hkinds : ∀ kind ∈ instr.publishes, kind ∉ EventKind.ofCard) :
    after.map Position.terms = before.map Position.terms := by
  cases h with
  | kept hterms => exact hterms
  | released hrelease => cases hrelease <;> simp [Instr.publishes, EventKind.ofCard] at hkinds
  | _ => simp [Instr.publishes, EventKind.ofCard] at hkinds

theorem cardTold_quiet (h : exec X clock c instr = .ok (c', events))
    (hkinds : ∀ kind ∈ instr.publishes, kind ∉ EventKind.ofCard) (pool nftMint : Pubkey) :
    CardTold pool nftMint events c c' := by
  have htold : ∀ e ∈ events, e.toldCard = none := by
    intro e he
    have hkind := hkinds e.kind (exec_publishes h he)
    cases e with
    | depositPending | depositApproved | depositRejected | nftReturned | withdrawn | nftClaimed
    | valueRecorded | belowFloorClosed | positionSeized =>
      simp [Event.kind, EventKind.ofCard] at hkind
    | _ => rfl
  have hquiet : ∀ e ∈ events, e.toldCard = some .default ∨ e.toldCard = none :=
    fun e he => .inr (htold e he)
  refine .of_one h (fun hmem => hkinds _ hmem (by simp [EventKind.ofCard])) hquiet
    (fun k _ => (exec_fate h k).untold hkinds) (fun id => ?_) pool nftMint
  rw [told_sameTerms ((exec_fate h _).untold hkinds)]
  refine replay_silent (fun e he => readPosition_silent ?_) _
  rw [htold e he]
  simp

-- ---------------------------------------------------------------------------
-- Deposits and exits
-- ---------------------------------------------------------------------------

theorem recordDeposit_card {poolKey depositor card : Pubkey} {found : Pool} {standard : ℕ}
    {tokens : Tokens} {externals : Externals} (hpool : c.loadPool poolKey = .ok found)
    (hfree : c.positions.lookup (.position poolKey card) = none)
    (h : recordDeposit X clock c poolKey depositor card found standard tokens externals
      = .ok (c', events)) (pool nftMint : Pubkey) : CardTold pool nftMint events c c' := by
  have hrecord := recordDeposit_ok h
  have hpool := (loadPool_ok.mp hpool).1
  rw [CardTold, hrecord.after, hrecord.published]
  by_cases hkey : pool = poolKey
  · subst hkey
    by_cases hcard : nftMint = card
    · subst hcard
      simp only [replay_cons, replay_nil, Chain.toldCard, readCard, readPosition, Event.toldCard,
        hpool, hfree, Finmap.lookup_insert, countDeposit, if_true]
      rfl
    · have hother : Pubkey.position pool card ≠ .position pool nftMint := by
        simpa using fun heq : card = nftMint => hcard heq.symm
      simp [Chain.toldCard, readCard, readPosition, Event.toldCard, hpool, countDeposit, hother,
        Finmap.lookup_insert_of_ne _ hother.symm]
  · have hpools : poolKey ≠ pool := fun heq => hkey heq.symm
    have hother : Pubkey.position poolKey card ≠ .position pool nftMint := by simp [hpools]
    simp [Chain.toldCard, readCard, readPosition, Event.toldCard, countDeposit, hother, hpools,
      Finmap.lookup_insert_of_ne _ hother.symm, Finmap.lookup_insert_of_ne _ hkey]

theorem rejectDeposit_card {operator : Pubkey} {reason : ℕ}
    (h : exec X clock c (.rejectDeposit operator positionKey reason) = .ok (c', events))
    (pool nftMint : Pubkey) : CardTold pool nftMint events c c' := by
  obtain ⟨p, hreject⟩ := rejectDeposit_ok h
  refine .of_write h (by simp [Instr.publishes]) (.refl _) (by rw [hreject.after]) hreject.found
    (by simp [hreject.published, Event.toldCard]) (fun id => ?_) pool nftMint
  simp [hreject.published, readPosition, Event.toldCard, tellCard, Position.told, hreject.pending]

theorem CardTold.of_exit (h : exec X clock c instr = .ok (c', events))
    (hquiet : EventKind.depositPending ∉ instr.publishes)
    (hpositions : c'.positions = c.positions.erase positionKey)
    (hp : c.positions.lookup positionKey = some p) (hpublished : events = [e])
    (htold : e.toldCard = some positionKey) (hread : ∀ id, tellCard id (some p.told) e = some none)
    (pool nftMint : Pubkey) : CardTold pool nftMint events c c' := by
  refine .of_erase h hquiet (.refl _) hpositions hp (by simp [hpublished, htold]) (fun id => ?_)
    pool nftMint
  simp [hpublished, readPosition, htold, hread]

theorem returnRejected_card {payer : Pubkey} {a : ReleaseAccounts}
    (h : exec X clock c (.returnRejected payer positionKey a) = .ok (c', events))
    (pool nftMint : Pubkey) : CardTold pool nftMint events c c' := by
  obtain ⟨p, tokens, externals, hreturn⟩ := returnRejected_ok h
  exact .of_exit h (by simp [Instr.publishes]) (by rw [hreturn.after]) hreturn.found
    hreturn.published rfl (fun id => by simp [tellCard, Position.told, hreturn.rejected]) pool nftMint

theorem returnRejectedCore_card {payer collection : Pubkey}
    (h : exec X clock c (.returnRejectedCore payer positionKey collection) = .ok (c', events))
    (pool nftMint : Pubkey) : CardTold pool nftMint events c c' := by
  obtain ⟨p, named, externals, hreturn⟩ := returnRejectedCore_ok h
  exact .of_exit h (by simp [Instr.publishes]) (by rw [hreturn.after]) hreturn.found
    hreturn.published rfl (fun id => by simp [tellCard, Position.told, hreturn.rejected]) pool nftMint

theorem claimNft_card {depositor : Pubkey} {a : ReleaseAccounts}
    (h : exec X clock c (.claimNft depositor positionKey a) = .ok (c', events))
    (pool nftMint : Pubkey) : CardTold pool nftMint events c c' := by
  obtain ⟨p, tokens, externals, hclaim⟩ := claimNft_ok h
  exact .of_exit h (by simp [Instr.publishes]) (by rw [hclaim.after]) hclaim.found
    hclaim.published rfl
    (fun id => by simp [tellCard, Position.told, hclaim.closed, hclaim.owner]) pool nftMint

theorem claimNftCore_card {depositor collection : Pubkey}
    (h : exec X clock c (.claimNftCore depositor positionKey collection) = .ok (c', events))
    (pool nftMint : Pubkey) : CardTold pool nftMint events c c' := by
  obtain ⟨p, named, externals, hclaim⟩ := claimNftCore_ok h
  exact .of_exit h (by simp [Instr.publishes]) (by rw [hclaim.after]) hclaim.found
    hclaim.published rfl
    (fun id => by simp [tellCard, Position.told, hclaim.closed, hclaim.owner]) pool nftMint

-- ---------------------------------------------------------------------------
-- Activation, values and departures
-- ---------------------------------------------------------------------------

variable {poolKey : Pubkey} {remaining : List AccountMeta}

theorem toldCard_tierChanged (h : e.kind = .tierChanged) : e.toldCard = none := by
  cases e with
  | tierChanged => rfl
  | _ => cases h

theorem replay_readPosition_tier {key : Pubkey} {id : ℕ} {found : Option Position}
    (h : ∀ e ∈ events, e.kind = .tierChanged) :
    replay (readPosition key id) events found = some found :=
  replay_silent (fun e he => readPosition_silent (by simp [toldCard_tierChanged (h e he)])) _

theorem checkedSubI64_add {a b d : ℤ} (h : checkedSubI64 a b = some d) : b + d = a := by
  simp only [checkedSubI64, Option.ite_none_right_eq_some, Option.some.injEq] at h
  omega

theorem approveDeposit_card {operator : Pubkey} {value : ℕ} {observedAt lockUntil : ℤ}
    (h : exec X clock c (.approveDeposit operator poolKey positionKey remaining value observedAt
      lockUntil) = .ok (c', events)) (pool nftMint : Pubkey) : CardTold pool nftMint events c c' := by
  obtain ⟨a, slot, index, topTier, positions, entered, displaced, targets, age, happrove⟩ :=
    approveDeposit_ok h
  obtain ⟨-, hp, -⟩ := loadThroughPool_ok happrove.loads
  have hage : observedAt + age = clock.unixTimestamp := checkedSubI64_add happrove.ages
  refine .of_write h (by simp [Instr.publishes]) (promoteActivated_ok happrove.promotes).sameTerms
    (by rw [happrove.after]) hp ?_ (fun id => ?_) pool nftMint
  · rw [happrove.published]
    cases entered <;> simp [Event.toldCard]
  · rw [happrove.published]
    cases entered <;>
      simp [readPosition, Event.toldCard, tellCard, Position.told, happrove.pending, hage,
        Position.activated, Position.entered]

theorem recordValue_card {operator : Pubkey} {value : ℕ} {observedAt : ℤ}
    (h : exec X clock c (.recordValue operator poolKey positionKey remaining value observedAt)
      = .ok (c', events)) (pool nftMint : Pubkey) : CardTold pool nftMint events c c' := by
  obtain ⟨a, booked, index, topTier, p, positions, change, hrecord⟩ := recordValue_ok h
  obtain ⟨-, hp, -⟩ := loadThroughPool_ok hrecord.loads
  obtain ⟨hterms, hsame⟩ := recordTier_terms hrecord.ranks
  refine .of_write h (by simp [Instr.publishes]) hsame (by rw [hrecord.after]) hp ?_ (fun id => ?_)
    pool nftMint
  · intro e he
    rw [hrecord.published] at he
    simp only [List.mem_append, List.mem_cons, List.not_mem_nil, or_false] at he
    rcases he with ((rfl | rfl) | he) | he
    · exact .inl rfl
    · exact .inr rfl
    · cases houtcome : booked.effect.outcome with
      | close =>
        rw [houtcome, List.mem_singleton] at he
        exact .inl (he ▸ rfl)
      | retained =>
        rw [houtcome, List.mem_singleton] at he
        exact .inr (he ▸ rfl)
      | refresh => simp [houtcome] at he
    · exact .inr (toldCard_tierChanged (tierEvents_kind he))
  · rw [hrecord.published, Position.told_of_terms hterms]
    refine replay_trans ?_ (replay_readPosition_tier fun e he => tierEvents_kind he)
    by_cases hclose : classify value a.pool.admissionFloor a.position.lockUntil clock.unixTimestamp
        = .close
    · obtain ⟨targets, _, hrevalues, -, -, rfl⟩ := applyRecordValue_closed hrecord.books hclose
      simp [closedBelow, readPosition, Event.toldCard, tellCard, Position.told, Position.revalued,
        Position.departed, hrevalues.active]
    · obtain ⟨_, _, _, _, hrevalues, -, -, -, rfl⟩ := applyRecordValue_kept hrecord.books hclose
      cases houtcome : classify value a.pool.admissionFloor a.position.lockUntil
          clock.unixTimestamp with
      | close => exact absurd houtcome hclose
      | retained | refresh =>
        simp [reattested, houtcome, readPosition, Event.toldCard, tellCard, Position.told,
          Position.revalued, hrevalues.active]

theorem withdrawAccounting_card {depositorUsdc : Option Pubkey} {a : Loaded} {paid : Chain}
    (h : exec X clock c instr = .ok (c', events))
    (hquiet : EventKind.depositPending ∉ instr.publishes)
    (hloads : loadThroughPool c poolKey positionKey = .ok a)
    (haccounts : withdrawAccounting clock c poolKey positionKey depositorUsdc remaining a
      = .ok (paid, events)) (hafter : c'.positions = paid.positions)
    (pool nftMint : Pubkey) : CardTold pool nftMint events c c' := by
  obtain ⟨booked, index, topTier, p, positions, change, tokens, hpaid⟩ :=
    withdrawAccounting_ok haccounts
  obtain ⟨-, hp, -⟩ := loadThroughPool_ok hloads
  obtain ⟨_, hfrom, -⟩ := applyWithdraw_ok.mp hpaid.books
  refine .of_erase h hquiet (withdrawTier_sameTerms hpaid.ranks) (by rw [hafter, hpaid.after]) hp ?_
    (fun id => ?_) pool nftMint
  · intro e he
    rw [hpaid.published] at he
    simp only [List.mem_append, List.mem_cons, List.not_mem_nil, or_false] at he
    rcases he with (rfl | rfl) | he
    · exact .inl rfl
    · exact .inr rfl
    · exact .inr (toldCard_tierChanged (tierEvents_kind he))
  · rw [hpaid.published]
    refine replay_trans ?_ (replay_readPosition_tier fun e he => tierEvents_kind he)
    simp [readPosition, Event.toldCard, tellCard, Position.told, hfrom.active]

theorem closeSeized_card {caller collection : Pubkey}
    (h : exec X clock c (.closeSeized caller poolKey positionKey collection) = .ok (c', events))
    (pool nftMint : Pubkey) : CardTold pool nftMint events c c' := by
  obtain ⟨a, kind, owner, booked, index, topTier, p, change, hseize⟩ := closeSeized_ok h
  obtain ⟨-, hp, -⟩ := loadThroughPool_ok hseize.loads
  have hterms := removeDeparted_terms hseize.removes
  have hstate : a.position.state ≠ .seized := by
    intro hseized
    have hvault := hseize.inVault
    rw [hseized] at hvault
    cases hvault
  have htier : ∀ e ∈ tierEvents poolKey clock.slot change, e.kind = .tierChanged :=
    fun e he => tierEvents_kind he
  by_cases hactive : a.position.state = .active
  · obtain ⟨targets, -, -, -, hposition, -, heffect⟩ := applyCloseSeized_active hactive hseize.books
    have hevents := hseize.published
    rw [heffect] at hevents
    refine .of_write h (by simp [Instr.publishes]) (.refl _) (by rw [hseize.after]) hp ?_
      (fun id => ?_) pool nftMint
    · intro e he
      rw [hevents] at he
      simp only [List.mem_append, List.mem_singleton] at he
      rcases he with (rfl | rfl) | he
      · exact .inl rfl
      · exact .inr rfl
      · exact .inr (toldCard_tierChanged (htier e he))
    · rw [hevents, Position.told_of_terms hterms, hposition]
      refine replay_trans ?_ (replay_readPosition_tier htier)
      simp [readPosition, Event.toldCard, tellCard, Position.told, Position.departed, hactive]
  · obtain ⟨-, hposition, -, heffect⟩ := applyCloseSeized_inactive hactive hseize.books
    have hevents := hseize.published
    rw [heffect] at hevents
    refine .of_write h (by simp [Instr.publishes]) (.refl _) (by rw [hseize.after]) hp ?_
      (fun id => ?_) pool nftMint
    · intro e he
      rw [hevents] at he
      simp only [List.append_nil, List.mem_append, List.mem_singleton] at he
      rcases he with rfl | he
      · exact .inl rfl
      · exact .inr (toldCard_tierChanged (htier e he))
    · rw [hevents, Position.told_of_terms hterms, hposition]
      refine replay_trans ?_ (replay_readPosition_tier htier)
      simp [readPosition, Event.toldCard, tellCard, Position.told, hstate]

-- ---------------------------------------------------------------------------
-- Every instruction, every run
-- ---------------------------------------------------------------------------

/-- The reading of any card follows every instruction. -/
theorem exec_cardTold (h : exec X clock c instr = .ok (c', events)) (pool nftMint : Pubkey) :
    CardTold pool nftMint events c c' := by
  have hrun := h
  cases instr with
  | deposit a =>
    obtain ⟨found, _, _, _, _, _, hdeposit⟩ := deposit_ok h
    exact recordDeposit_card hdeposit.loads hdeposit.free hdeposit.records pool nftMint
  | depositCore a =>
    obtain ⟨found, _, _, _, hdeposit⟩ := depositCore_ok h
    exact recordDeposit_card hdeposit.loads hdeposit.free hdeposit.records pool nftMint
  | approveDeposit operator poolKey position remaining value observedAt lockUntil =>
    exact approveDeposit_card hrun pool nftMint
  | rejectDeposit operator position reason => exact rejectDeposit_card hrun pool nftMint
  | returnRejected payer position accounts => exact returnRejected_card hrun pool nftMint
  | returnRejectedCore payer position collection => exact returnRejectedCore_card hrun pool nftMint
  | recordValue operator poolKey position remaining value observedAt =>
    exact recordValue_card hrun pool nftMint
  | withdraw depositor poolKey position depositorUsdc remaining accounts =>
    obtain ⟨a, paid, tokens, externals, hwithdraw⟩ := withdraw_ok h
    exact withdrawAccounting_card hrun (by simp [Instr.publishes]) hwithdraw.loads
      hwithdraw.accounts (by rw [hwithdraw.after]) pool nftMint
  | withdrawCore depositor poolKey position depositorUsdc collection remaining =>
    obtain ⟨a, named, paid, externals, hwithdraw⟩ := withdrawCore_ok h
    exact withdrawAccounting_card hrun (by simp [Instr.publishes]) hwithdraw.loads
      hwithdraw.accounts (by rw [hwithdraw.after]) pool nftMint
  | claimNft depositor position accounts => exact claimNft_card hrun pool nftMint
  | claimNftCore depositor position collection => exact claimNftCore_card hrun pool nftMint
  | closeSeized caller poolKey position collection => exact closeSeized_card hrun pool nftMint
  | _ => exact cardTold_quiet hrun (by simp [Instr.publishes, EventKind.ofCard]) pool nftMint

theorem settle_toldCard {k : Pubkey} {L : Ledger} {s : Settlement} (hL : c.Reads k L) :
    (c.settle k s).toldCard pool nftMint = c.toldCard pool nftMint := by
  rw [Chain.toldCard, Chain.toldCard, settle_positions, Chain.settle, ledger_eq_some.mpr hL]
  by_cases hkey : pool = k
  · subst hkey
    simp only [Finmap.lookup_insert, hL.pool]
    rfl
  · simp only [Finmap.lookup_insert_of_ne _ hkey]

variable {may : Ledger → Settlement → Prop} {c₀ : Chain} {entries : List Entry}

theorem Trace.cardTold (hgenesis : Genesis c₀) (htrace : Trace X may c₀ entries c)
    (pool nftMint : Pubkey) :
    replay (readCard pool nftMint) (published entries) (c₀.toldCard pool nftMint)
      = some (c.toldCard pool nftMint) :=
  htrace.follows (fun c => c.toldCard pool nftMint)
    (fun _ _ _ _ _ _ h => exec_cardTold h pool nftMint) (fun _ _ _ => rfl)
    (fun _ _ _ _ hL => settle_toldCard hL) hgenesis

theorem Genesis.toldCard (h : Genesis c₀) : c₀.toldCard pool nftMint = (0, none) := by
  simp [Chain.toldCard, h.pools, h.positions]

/-- Over every run, settlements included, the reading of any card accepts the whole log and ends at
the position the ledger has, and at the number the pool gives out next. -/
theorem card_log (hgenesis : Genesis c₀) (htrace : Trace X may c₀ entries c)
    (pool nftMint : Pubkey) :
    replay (readCard pool nftMint) (published entries) (0, none)
      = some (c.toldCard pool nftMint) := by
  rw [← hgenesis.toldCard]
  exact htrace.cardTold hgenesis pool nftMint

end

/-- Read from its log, the bank holds one active card at its value. -/
theorem card_log_bank : ∃ entries p,
    replay (readCard (.pool 0) (.key 30)) (published entries) (0, none) = some (1, some p) ∧
    p.state = .active ∧ p.recordedValue = 15_000_000 ∧ p.positionId = 0 := by
  have hreachable : Reachable bank bankActivated := bankRun_reachable (by decide +kernel)
  have hsettling : SettlingReachable bank (fun _ _ => False) bankActivated := hreachable.settling
  obtain ⟨c₀, hgenesis, hsteps⟩ := hsettling
  obtain ⟨entries, htrace⟩ := Trace.exists hsteps
  have hlog := card_log hgenesis htrace (.pool 0) (.key 30)
  have hview : (bankActivated.positions.lookup (.position (.pool 0) (.key 30))).map
      (fun p => (p.state, p.recordedValue, p.positionId)) = some (.active, 15_000_000, 0) := by
    decide +kernel
  have hcount : (bankActivated.pools.lookup (.pool 0)).elim 0 Pool.positionCounter = 1 := by
    decide +kernel
  obtain ⟨p, hp, hterms⟩ := Option.map_eq_some_iff.mp hview
  simp only [Prod.mk.injEq] at hterms
  rw [Chain.toldCard, hcount, hp] at hlog
  exact ⟨entries, p.told, hlog, hterms⟩

end ByeMachine
