import ByeMachine.Invariants.Runs

/-!
# What an instruction does to one position

An instruction moves at most one position through its life: takes its card in,
activates, rejects, revalues, closes or seizes it, or pays its card out and
closes its account. Every other position keeps its terms; only its fee and tier
bookkeeping may have been settled.
-/

namespace ByeMachine

open Fallible

/-- A position with its bookkeeping blanked: what only its own instructions write. -/
def Position.terms (p : Position) : Position :=
  { p with equalCheckpoint := 0, accrued := 0, inTier := false, tierCheckpoint := 0 }

/-- Only bookkeeping was written. -/
def SameTerms (positions positions' : Positions) : Prop :=
  ∀ k, (positions'.lookup k).map Position.terms = (positions.lookup k).map Position.terms

section SameTerms

variable {positions positions' positions'' : Positions} {k : Pubkey} {p q : Position}

theorem SameTerms.refl (positions : Positions) : SameTerms positions positions := fun _ => rfl

theorem SameTerms.trans (h : SameTerms positions positions')
    (h' : SameTerms positions' positions'') : SameTerms positions positions'' :=
  fun k => (h' k).trans (h k)

theorem SameTerms.write (hp : positions.lookup k = some p) (hterms : q.terms = p.terms) :
    SameTerms positions (positions.insert k q) := by
  intro k'
  by_cases hk : k' = k
  · subst hk
    simp [hp, hterms]
  · rw [Finmap.lookup_insert_of_ne _ hk]

theorem settleMember_terms {accTier : ℕ} (h : Tier.settleMember p accTier = .ok q) :
    q.terms = p.terms := by
  obtain ⟨-, -, rfl⟩ := Tier.settleMember_ok.mp h
  rfl

theorem settleDisplacedMember_sameTerms {remaining : List AccountMeta} {evicted : TierEntry}
    {accTier : ℕ}
    (h : Tier.settleDisplacedMember remaining positions evicted accTier = .ok positions') :
    SameTerms positions positions' := by
  obtain ⟨q, q', hq, hsettle, rfl⟩ := settleDisplacedMember_ok h
  exact .write hq (settleMember_terms hsettle)

theorem Crossed.sameTerms {tierSize : ℕ} {t t' : TopTier} {entry : TierEntry} {entered : Bool}
    (h : Crossed tierSize t entry positions t' positions' entered) :
    SameTerms positions positions' := by
  cases h with
  | inserted | rejected => exact .refl _
  | swapped _ hq hsettle => exact .write hq (settleMember_terms hsettle)

theorem Filled.sameTerms {poolKey : Pubkey} {tierSize accTier : ℕ} {t t' : TopTier}
    (h : Filled poolKey tierSize accTier t t' positions positions' k) :
    SameTerms positions positions' := by
  obtain ⟨p, hp, -, -, -, -, rfl⟩ := h.candidate
  exact .write hp rfl

theorem settleEvicted_sameTerms {remaining : List AccountMeta} {accTier slot : ℕ} {key : Pubkey}
    {evicted : List TierEntry} {events : List Event}
    (h : settleEvicted remaining accTier key slot evicted positions = .ok (positions', events)) :
    SameTerms positions positions' := by
  induction evicted generalizing positions events with
  | nil =>
    simp only [settleEvicted, pure_ok, Prod.mk.injEq] at h
    obtain ⟨rfl, -⟩ := h
    exact .refl _
  | cons e evicted ih =>
    simp only [settleEvicted, bind_ok, pure_ok, Prod.mk.injEq, Prod.exists] at h
    obtain ⟨_, hdisplaced, _, _, hrest, rfl, -⟩ := h
    exact (settleDisplacedMember_sameTerms hdisplaced).trans (ih hrest)

theorem Position.leftTier_idem (p : Position) (accTier : ℕ) :
    (p.leftTier accTier).leftTier accTier = p.leftTier accTier := by
  simp [Position.leftTier]

theorem settleEvicted_lookup {remaining : List AccountMeta} {accTier slot : ℕ} {key : Pubkey}
    {evicted : List TierEntry} {events : List Event}
    (h : settleEvicted remaining accTier key slot evicted positions = .ok (positions', events))
    (k : Pubkey) :
    (k ∈ evicted.map (·.position) → ∃ p, positions.lookup k = some p ∧
      p.tierCheckpoint ≤ accTier ∧ positions'.lookup k = some (p.leftTier accTier)) ∧
    (k ∉ evicted.map (·.position) → positions'.lookup k = positions.lookup k) := by
  induction evicted generalizing positions events with
  | nil =>
    simp only [settleEvicted, pure_ok, Prod.mk.injEq] at h
    obtain ⟨rfl, -⟩ := h
    simp
  | cons e evicted ih =>
    simp only [settleEvicted, bind_ok, pure_ok, Prod.mk.injEq, Prod.exists] at h
    obtain ⟨_, hdisplaced, _, _, hrest, rfl, -⟩ := h
    obtain ⟨q, q', hq, hsettle, rfl⟩ := settleDisplacedMember_ok hdisplaced
    obtain ⟨hstamp, -, rfl⟩ := Tier.settleMember_ok.mp hsettle
    obtain ⟨hin, hout⟩ := ih hrest
    rw [List.map_cons, List.mem_cons]
    by_cases hk : k = e.position
    · subst hk
      refine ⟨fun _ => ⟨q, hq, hstamp, ?_⟩, fun hnot => absurd (.inl rfl) hnot⟩
      by_cases hagain : e.position ∈ evicted.map (·.position)
      · obtain ⟨p, hp, -, hleft⟩ := hin hagain
        rw [Finmap.lookup_insert, Option.some.injEq] at hp
        rw [hleft, ← hp, Position.leftTier_idem]
      · rw [hout hagain, Finmap.lookup_insert]
    · rw [Finmap.lookup_insert_of_ne _ hk] at hin hout
      exact ⟨fun hmem => hin (hmem.resolve_left hk), fun hnot => hout fun hmem => hnot (.inr hmem)⟩

theorem demotions_sameTerms {topTier topTier' : TopTier} {remaining : List AccountMeta}
    {key : Pubkey} {slot : ℕ} {update : ConfigUpdate} {events : List Event}
    (h : demotions topTier remaining positions key slot update
      = .ok (topTier', positions', events)) : SameTerms positions positions' := by
  cases update with
  | tierSize value =>
    simp only [demotions, demoteShrinkExcess, bind_ok, pure_ok, Prod.mk.injEq, Prod.exists] at h
    obtain ⟨_, _, -, _, _, hsettle, -, rfl, -⟩ := h
    exact settleEvicted_sameTerms hsettle
  | _ =>
    simp only [demotions, pure_ok, Prod.mk.injEq] at h
    obtain ⟨-, rfl, -⟩ := h
    exact .refl _

theorem vacateAndFill_terms {t t' : TopTier} {tierSize : ℕ} {poolKey : Pubkey}
    {remaining : List AccountMeta} {change : TierChange}
    (h : vacateAndFill t tierSize poolKey k p remaining positions = .ok (t', q, positions', change)) :
    q.terms = p.terms ∧ SameTerms positions positions' := by
  simp only [vacateAndFill, Tier.vacate, bind_ok, okOr_ok, pure_ok, Prod.mk.injEq, Prod.exists] at h
  obtain ⟨_, _, _, ⟨_, _, -, _, -, _, hsettle, rfl, rfl, -⟩, _, _, _, hfill, rfl, rfl, rfl, -⟩ := h
  refine ⟨settleMember_terms hsettle, ?_⟩
  obtain ⟨-, rfl⟩ | ⟨kc, hfilled⟩ := fillVacancyFromCandidate_ok hfill
  · exact .refl _
  · exact hfilled.sameTerms

theorem recordTier_terms {outcome : RecordOutcome} {t t' : TopTier} {tierSize value : ℕ}
    {poolKey : Pubkey} {remaining : List AccountMeta} {change : TierChange}
    (h : recordTier outcome t tierSize poolKey k p value remaining positions
      = .ok (t', q, positions', change)) : q.terms = p.terms ∧ SameTerms positions positions' := by
  unfold recordTier at h
  split at h
  · split at h
    · exact vacateAndFill_terms h
    · simp only [pure_ok, Prod.mk.injEq] at h
      obtain ⟨-, rfl, rfl, -⟩ := h
      exact ⟨rfl, .refl _⟩
  · split at h
    · simp only [bind_ok, pure_ok, Prod.mk.injEq] at h
      obtain ⟨_, -, -, rfl, rfl, -⟩ := h
      exact ⟨rfl, .refl _⟩
    · obtain ⟨entered, hcross, rfl⟩ := crossAndSettle_ok h
      exact ⟨by cases entered <;> rfl, hcross.sameTerms⟩

end SameTerms

-- ---------------------------------------------------------------------------
-- Fates
-- ---------------------------------------------------------------------------

/-- The exits that pay the card of `p` out: each for its standard, its state and its signer. -/
inductive Releases (now : ℤ) (k : Pubkey) (p : Position) : Instr → Prop where
  | withdraw {pool : Pubkey} {depositorUsdc : Option Pubkey} {remaining : List AccountMeta}
      {accounts : ReleaseAccounts}
      (hstandard : p.standard = STANDARD_PNFT ∨ p.standard = STANDARD_LEGACY)
      (hstate : p.state = .active) (hlock : p.lockUntil ≤ now) :
      Releases now k p (.withdraw p.depositor pool k depositorUsdc remaining accounts)
  | withdrawCore {pool collection : Pubkey} {depositorUsdc : Option Pubkey}
      {remaining : List AccountMeta} (hstandard : p.standard = STANDARD_CORE)
      (hstate : p.state = .active) (hlock : p.lockUntil ≤ now) :
      Releases now k p (.withdrawCore p.depositor pool k depositorUsdc collection remaining)
  | claimNft {accounts : ReleaseAccounts}
      (hstandard : p.standard = STANDARD_PNFT ∨ p.standard = STANDARD_LEGACY)
      (hstate : p.state = .closedBelowFloor) : Releases now k p (.claimNft p.depositor k accounts)
  | claimNftCore {collection : Pubkey} (hstandard : p.standard = STANDARD_CORE)
      (hstate : p.state = .closedBelowFloor ∨ p.state = .seized) :
      Releases now k p (.claimNftCore p.depositor k collection)
  | returnRejected {payer : Pubkey} {accounts : ReleaseAccounts}
      (hstandard : p.standard = STANDARD_PNFT ∨ p.standard = STANDARD_LEGACY)
      (hstate : p.state = .rejected) : Releases now k p (.returnRejected payer k accounts)
  | returnRejectedCore {payer collection : Pubkey} (hstandard : p.standard = STANDARD_CORE)
      (hstate : p.state = .rejected) : Releases now k p (.returnRejectedCore payer k collection)

/-- What an instruction does to the position at `k`. -/
inductive Fate (X : Programs) (clock : Clock) (c : Chain) (k : Pubkey) :
    Instr → Option Position → Option Position → Prop where
  | kept {instr : Instr} {before after : Option Position}
      (hterms : after.map Position.terms = before.map Position.terms) :
      Fate X clock c k instr before after
  | taken {a : DepositAccounts} {pool : Pool} {standard bump vaultBump : ℕ}
      (hkey : k = .position a.pool a.nftMint) (hpool : c.pools.lookup a.pool = some pool)
      (hstandard : standard = STANDARD_PNFT ∨ standard = STANDARD_LEGACY)
      (hcounter : pool.positionCounter + 1 < 2 ^ 64) :
      Fate X clock c k (.deposit a) none (some (pendingPosition a.pool a.depositor a.nftMint
        pool.positionCounter standard bump vaultBump))
  | takenCore {a : DepositCoreAccounts} {pool : Pool} {bump vaultBump : ℕ}
      (hkey : k = .position a.pool a.asset) (hpool : c.pools.lookup a.pool = some pool)
      (hcounter : pool.positionCounter + 1 < 2 ^ 64) :
      Fate X clock c k (.depositCore a) none (some (pendingPosition a.pool a.depositor a.asset
        pool.positionCounter STANDARD_CORE bump vaultBump))
  | approved {operator pool : Pubkey} {remaining : List AccountMeta} {value slot accEqual : ℕ}
      {observedAt lockUntil : ℤ} {p q : Position} (hstate : p.state = .pending)
      (hterms : q.terms = (p.activated value slot accEqual observedAt clock.unixTimestamp
        lockUntil).terms) :
      Fate X clock c k (.approveDeposit operator pool k remaining value observedAt lockUntil)
        (some p) (some q)
  | rejected {operator : Pubkey} {reason : ℕ} {p : Position} (hstate : p.state = .pending) :
      Fate X clock c k (.rejectDeposit operator k reason) (some p)
        (some { p with state := .rejected, rejectReason := reason })
  | revalued {operator key : Pubkey} {pool : Pool} {remaining : List AccountMeta} {value : ℕ}
      {observedAt : ℤ} {p q : Position} (hpool : c.pools.lookup key = some pool)
      (hstate : p.state = .active)
      (hkept : classify value pool.admissionFloor p.lockUntil clock.unixTimestamp ≠ .close)
      (hterms : q.terms = (p.revalued value observedAt).terms) :
      Fate X clock c k (.recordValue operator key k remaining value observedAt) (some p) (some q)
  | closed {operator key : Pubkey} {pool : Pool} {remaining : List AccountMeta} {value : ℕ}
      {observedAt : ℤ} {p q : Position} (hpool : c.pools.lookup key = some pool)
      (hstate : p.state = .active)
      (hclose : classify value pool.admissionFloor p.lockUntil clock.unixTimestamp = .close)
      (hterms : q.terms
        = (Position.revalued { p with state := .closedBelowFloor } value observedAt).terms) :
      Fate X clock c k (.recordValue operator key k remaining value observedAt) (some p) (some q)
  | seized {caller pool collection owner : Pubkey} {kind : SeizureKind} {p q : Position}
      (hstandard : p.standard = STANDARD_CORE) (hstate : p.state ≠ .seized)
      (hcause : requireCollateralUnreachable X c.externals p.nftMint collection
        (.positionVault k) = .ok (kind, owner))
      (hlock : p.state = .active → kind.depositorMayKeepTheCard = true →
        p.lockUntil ≤ clock.unixTimestamp)
      (hterms : q.terms = Position.terms { p with state := .seized }) :
      Fate X clock c k (.closeSeized caller pool k collection) (some p) (some q)
  | released {instr : Instr} {p : Position} (hrelease : Releases clock.unixTimestamp k p instr) :
      Fate X clock c k instr (some p) none

section Fates

variable {X : Programs} {clock : Clock} {c c' : Chain} {events : List Event} {k : Pubkey}
  {instr : Instr} {positions : Positions}

theorem Fate.of_write {key : Pubkey} {q : Position} (hsame : SameTerms c.positions positions)
    (h : Fate X clock c key instr (c.positions.lookup key) (some q)) (k : Pubkey) :
    Fate X clock c k instr (c.positions.lookup k) ((positions.insert key q).lookup k) := by
  by_cases hk : k = key
  · subst hk
    rwa [Finmap.lookup_insert]
  · rw [Finmap.lookup_insert_of_ne _ hk]
    exact .kept (hsame k)

theorem Fate.of_erase {key : Pubkey} {p : Position} (hsame : SameTerms c.positions positions)
    (hp : c.positions.lookup key = some p) (h : Releases clock.unixTimestamp key p instr)
    (k : Pubkey) :
    Fate X clock c k instr (c.positions.lookup k) ((positions.erase key).lookup k) := by
  by_cases hk : k = key
  · subst hk
    rw [Finmap.lookup_erase, hp]
    exact .released h
  · rw [Finmap.lookup_erase_ne hk]
    exact .kept (hsame k)

theorem loadThroughPool_ok {poolKey : Pubkey} {a : Loaded}
    (h : loadThroughPool c poolKey k = .ok a) :
    c.pools.lookup poolKey = some a.pool ∧ c.positions.lookup k = some a.position ∧
      k = .position poolKey a.position.nftMint := by
  simp only [loadThroughPool, bind_ok, pure_ok] at h
  obtain ⟨pool, hpool, p, hposition, _, -, _, -, _, -, rfl⟩ := h
  obtain ⟨hp, hkey⟩ := loadPositionOf_ok.mp hposition
  exact ⟨(loadPool_ok.mp hpool).1, hp, hkey⟩

theorem takeCustody_standard {standard : ℕ} {a : DepositAccounts} {t t' : Tokens}
    {e e' : Externals} (h : takeCustody X standard a t e = .ok (t', e')) :
    standard = STANDARD_PNFT ∨ standard = STANDARD_LEGACY := by
  unfold takeCustody at h
  split at h
  case isTrue hpnft => exact .inl hpnft
  case isFalse =>
    split at h
    case isTrue hlegacy => exact .inr hlegacy
    case isFalse => cases h

theorem requireTokenMetadataExit_ok {p : Position} {u : Unit}
    (h : requireTokenMetadataExit X c p k = .ok u) :
    p.standard = STANDARD_PNFT ∨ p.standard = STANDARD_LEGACY := by
  simp only [requireTokenMetadataExit, bind_ok, require_ok] at h
  exact h.choose_spec.1

-- ---------------------------------------------------------------------------
-- The instructions
-- ---------------------------------------------------------------------------

theorem approveDeposit_activates {operator poolKey key : Pubkey} {remaining : List AccountMeta}
    {value : ℕ} {observedAt lockUntil : ℤ}
    (h : approveDeposit clock c operator poolKey key remaining value observedAt lockUntil
      = .ok (c', events)) :
    ∃ p q slot accEqual positions', c.positions.lookup key = some p ∧
      key = .position poolKey p.nftMint ∧ p.state = .pending ∧
      q.terms = (p.activated value slot accEqual observedAt clock.unixTimestamp lockUntil).terms ∧
      SameTerms c.positions positions' ∧ c'.positions = positions'.insert key q := by
  simp only [approveDeposit, bind_ok, require_ok, pure_ok, Prod.mk.injEq, Prod.exists] at h
  obtain ⟨_, -, a, ha, -, hstate, -, -, -, -, -, -, _, -, _, -, _, -, _, -, slot, _, -, _, -, _, -,
    _, positions', entered, _, hpromote, _, -, _, -, rfl, -⟩ := h
  obtain ⟨-, hp, hkey⟩ := loadThroughPool_ok ha
  refine ⟨a.position, _, slot, a.pool.accEqual, positions', hp, hkey, hstate, ?_,
    (promoteActivated_ok hpromote).sameTerms, rfl⟩
  cases entered <;> rfl

theorem approveDeposit_fate {operator poolKey key : Pubkey} {remaining : List AccountMeta}
    {value : ℕ} {observedAt lockUntil : ℤ}
    (h : approveDeposit clock c operator poolKey key remaining value observedAt lockUntil
      = .ok (c', events)) :
    Fate X clock c k (.approveDeposit operator poolKey key remaining value observedAt lockUntil)
      (c.positions.lookup k) (c'.positions.lookup k) := by
  obtain ⟨p, q, slot, accEqual, positions', hp, -, hstate, hterms, hsame, hpositions⟩ :=
    approveDeposit_activates h
  rw [hpositions]
  refine Fate.of_write hsame ?_ k
  rw [hp]
  exact .approved hstate hterms

theorem recordValue_fate {operator poolKey key : Pubkey} {remaining : List AccountMeta}
    {value : ℕ} {observedAt : ℤ}
    (h : recordValue clock c operator poolKey key remaining value observedAt = .ok (c', events)) :
    Fate X clock c k (.recordValue operator poolKey key remaining value observedAt)
      (c.positions.lookup k) (c'.positions.lookup k) := by
  simp only [recordValue, bind_ok, pure_ok, Prod.mk.injEq, Prod.exists] at h
  obtain ⟨_, -, a, ha, booked, hbooked, _, -, _, q, positions', _, htier, rfl, -⟩ := h
  obtain ⟨hpool, hp, -⟩ := loadThroughPool_ok ha
  obtain ⟨hterms, hsame⟩ := recordTier_terms htier
  refine Fate.of_write hsame ?_ k
  rw [hp]
  by_cases hclose : classify value a.pool.admissionFloor a.position.lockUntil clock.unixTimestamp
      = .close
  · obtain ⟨targets, _, -, hfrom, -, rfl⟩ := applyRecordValue_closed hbooked hclose
    exact .closed hpool hfrom.active hclose hterms
  · obtain ⟨_, _, _, _, hrevalues, -, -, -, rfl⟩ := applyRecordValue_kept hbooked hclose
    exact .revalued hpool hrevalues.active hclose hterms

theorem withdrawTier_sameTerms {wasMember : Bool} {t t' : TopTier} {tierSize : ℕ}
    {poolKey key : Pubkey} {p q : Position} {remaining : List AccountMeta} {positions positions' : Positions}
    {change : TierChange}
    (h : withdrawTier wasMember t tierSize poolKey key p remaining positions
      = .ok (t', q, positions', change)) : SameTerms positions positions' := by
  unfold withdrawTier at h
  split at h
  · exact (vacateAndFill_terms h).2
  · simp only [pure_ok, Prod.mk.injEq] at h
    obtain ⟨-, -, rfl, -⟩ := h
    exact .refl _

theorem withdrawAccounting_fate {poolKey key : Pubkey} {depositorUsdc : Option Pubkey}
    {remaining : List AccountMeta} {a : Loaded} {c₁ : Chain}
    (h : withdrawAccounting clock c poolKey key depositorUsdc remaining a = .ok (c₁, events)) :
    a.position.state = .active ∧ a.position.lockUntil ≤ clock.unixTimestamp ∧
      ∃ positions', SameTerms c.positions positions' ∧ c₁.positions = positions'.erase key := by
  simp only [withdrawAccounting, bind_ok, pure_ok, Prod.mk.injEq, Prod.exists] at h
  obtain ⟨booked, hbooked, _, -, _, _, positions', _, htier, _, -, rfl, -⟩ := h
  obtain ⟨_, hfrom, hlock, -⟩ := applyWithdraw_ok.mp hbooked
  exact ⟨hfrom.active, hlock, positions', withdrawTier_sameTerms htier, rfl⟩

theorem withdraw_fate {depositor poolKey key : Pubkey} {depositorUsdc : Option Pubkey}
    {remaining : List AccountMeta} {accounts : ReleaseAccounts}
    (h : withdraw X clock c depositor poolKey key depositorUsdc remaining accounts
      = .ok (c', events)) :
    Fate X clock c k (.withdraw depositor poolKey key depositorUsdc remaining accounts)
      (c.positions.lookup k) (c'.positions.lookup k) := by
  simp only [withdraw, bind_ok, require_ok, pure_ok, Prod.mk.injEq, Prod.exists] at h
  obtain ⟨-, -, a, ha, -, rfl, _, hstandard, -, -, c₁, _, haccounting, _, _, -, rfl, -⟩ := h
  obtain ⟨-, hp, -⟩ := loadThroughPool_ok ha
  obtain ⟨hstate, hlock, positions', hsame, hpositions⟩ := withdrawAccounting_fate haccounting
  dsimp only
  rw [hpositions]
  exact Fate.of_erase hsame hp (.withdraw (requireTokenMetadataExit_ok hstandard) hstate hlock) k

theorem withdrawCore_fate {depositor poolKey key collection : Pubkey}
    {depositorUsdc : Option Pubkey} {remaining : List AccountMeta}
    (h : withdrawCore X clock c depositor poolKey key depositorUsdc collection remaining
      = .ok (c', events)) :
    Fate X clock c k (.withdrawCore depositor poolKey key depositorUsdc collection remaining)
      (c.positions.lookup k) (c'.positions.lookup k) := by
  simp only [withdrawCore, bind_ok, require_ok, pure_ok, Prod.mk.injEq, Prod.exists] at h
  obtain ⟨-, -, a, ha, -, rfl, -, hstandard, -, -, _, -, c₁, _, haccounting, _, -, rfl, -⟩ := h
  obtain ⟨-, hp, -⟩ := loadThroughPool_ok ha
  obtain ⟨hstate, hlock, positions', hsame, hpositions⟩ := withdrawAccounting_fate haccounting
  dsimp only
  rw [hpositions]
  exact Fate.of_erase hsame hp (.withdrawCore hstandard hstate hlock) k

theorem removeDeparted_terms {index index' : WeightIndex} {t t' : TopTier} {key : Pubkey}
    {p q : Position} {departure : Option WeightDeparture} {change : TierChange}
    (h : removeDeparted index t key p departure = .ok (index', t', q, change)) :
    q.terms = p.terms := by
  cases departure with
  | none =>
    simp only [removeDeparted, pure_ok, Prod.mk.injEq] at h
    obtain ⟨-, -, rfl, -⟩ := h
    rfl
  | some departure =>
    simp only [removeDeparted, bind_ok, pure_ok, Prod.mk.injEq, Prod.exists] at h
    obtain ⟨_, -, _, q, _, hvacated, -, -, rfl, -⟩ := h
    unfold vacateDeparted at hvacated
    split at hvacated
    · simp only [Tier.vacate, bind_ok, pure_ok, Prod.mk.injEq, Prod.exists] at hvacated
      obtain ⟨_, _, _, ⟨_, _, -, _, -, _, hsettle, -, rfl, -⟩, -, rfl, -⟩ := hvacated
      exact settleMember_terms hsettle
    · simp only [pure_ok, Prod.mk.injEq] at hvacated
      obtain ⟨-, rfl, -⟩ := hvacated
      rfl

theorem closeSeized_fate {caller poolKey key collection : Pubkey}
    (h : closeSeized X clock c caller poolKey key collection = .ok (c', events)) :
    Fate X clock c k (.closeSeized caller poolKey key collection)
      (c.positions.lookup k) (c'.positions.lookup k) := by
  simp only [closeSeized, bind_ok, require_ok, pure_ok, Prod.mk.injEq, Prod.exists] at h
  obtain ⟨-, -, a, ha, -, hstandard, -, hvault, kind, owner, hcause, booked, hbooked, _, _, q, _,
    hremove, rfl, -⟩ := h
  obtain ⟨-, hp, -⟩ := loadThroughPool_ok ha
  have hterms := removeDeparted_terms hremove
  refine Fate.of_write (.refl _) ?_ k
  rw [hp]
  have hstate : a.position.state ≠ .seized := by
    intro hseized
    rw [hseized] at hvault
    cases hvault
  refine .seized hstandard hstate hcause ?_ ?_
  · intro hactive hkind
    simp only [applyCloseSeized, seizeRow, hactive, requireSeizable, hkind, if_true, bind_ok,
      require_ok] at hbooked
    obtain ⟨_, ⟨-, hlock, -⟩, -⟩ := hbooked
    exact hlock
  · rw [hterms]
    by_cases hactive : a.position.state = .active
    · obtain ⟨_, -, -, -, hposition, -⟩ := applyCloseSeized_active hactive hbooked
      rw [hposition]
      rfl
    · rw [(applyCloseSeized_inactive hactive hbooked).2.1]

theorem updateTier_fate {operator poolKey key : Pubkey} {remaining : List AccountMeta}
    (h : updateTier clock c operator poolKey key remaining = .ok (c', events)) :
    SameTerms c.positions c'.positions := by
  simp only [updateTier, bind_ok, require_ok, pure_ok, Prod.mk.injEq, Prod.exists] at h
  obtain ⟨_, -, pool, -, topTier, -, p, hposition, -, -, _, q, crossed, hcross, positions', _, hsettle,
    rfl, -⟩ := h
  obtain ⟨hcrossed, rfl⟩ := settleCrossed_ok hcross hsettle
  intro k
  obtain ⟨hp, -⟩ := loadPositionOf_ok.mp hposition
  by_cases hk : k = key
  · subst hk
    dsimp only
    rw [Finmap.lookup_insert, hp]
    rfl
  · dsimp only
    rw [Finmap.lookup_insert_of_ne _ hk]
    exact hcrossed.sameTerms k

theorem updateConfig_fate {administrator poolKey : Pubkey} {remaining : List AccountMeta}
    {update : ConfigUpdate}
    (h : updateConfig clock c administrator poolKey remaining update = .ok (c', events)) :
    SameTerms c.positions c'.positions := by
  simp only [updateConfig, bind_ok, pure_ok, Prod.mk.injEq, Prod.exists] at h
  obtain ⟨_, -, pool, -, topTier, -, _, -, _, -, _, _, _, hdemote, rfl, -⟩ := h
  exact demotions_sameTerms hdemote

theorem deposit_fate {a : DepositAccounts} (h : deposit X clock c a = .ok (c', events)) :
    Fate X clock c k (.deposit a) (c.positions.lookup k) (c'.positions.lookup k) := by
  simp only [deposit, bind_ok, require_ok, recordDeposit, pure_ok, Prod.mk.injEq, Prod.exists] at h
  obtain ⟨-, -, pool, hpool, _, -, -, hfree, _, -, _, -, _, -, -, -, -, -, -, -, standard, -, _, _,
    hcustody, _, hcounter, rfl, -⟩ := h
  refine Fate.of_write (.refl _) ?_ k
  rw [hfree]
  exact .taken rfl (loadPool_ok.mp hpool).1 (takeCustody_standard hcustody)
    (Checked.add_some.mp (okOr_ok.mp hcounter)).1

theorem depositCore_fate {a : DepositCoreAccounts}
    (h : depositCore X clock c a = .ok (c', events)) :
    Fate X clock c k (.depositCore a) (c.positions.lookup k) (c'.positions.lookup k) := by
  simp only [depositCore, bind_ok, require_ok, recordDeposit, pure_ok, Prod.mk.injEq] at h
  obtain ⟨-, -, pool, hpool, _, -, -, hfree, -, -, _, -, -, -, _, -, _, -, -, -, _, -, _, hcounter,
    rfl, -⟩ := h
  refine Fate.of_write (.refl _) ?_ k
  rw [hfree]
  exact .takenCore rfl (loadPool_ok.mp hpool).1 (Checked.add_some.mp (okOr_ok.mp hcounter)).1

theorem rejectDeposit_fate {operator key : Pubkey} {reason : ℕ}
    (h : rejectDeposit clock c operator key reason = .ok (c', events)) :
    Fate X clock c k (.rejectDeposit operator key reason) (c.positions.lookup k)
      (c'.positions.lookup k) := by
  simp only [rejectDeposit, bind_ok, require_ok, loadOwnPosition_ok, pure_ok, Prod.mk.injEq] at h
  obtain ⟨_, -, p, ⟨hp, -⟩, -, hstate, -, -, rfl, -⟩ := h
  refine Fate.of_write (.refl _) ?_ k
  rw [hp]
  exact .rejected hstate

theorem claimNft_fate {depositor key : Pubkey} {accounts : ReleaseAccounts}
    (h : claimNft X clock c depositor key accounts = .ok (c', events)) :
    Fate X clock c k (.claimNft depositor key accounts) (c.positions.lookup k)
      (c'.positions.lookup k) := by
  simp only [claimNft, bind_ok, require_ok, loadOwnPosition_ok, pure_ok, Prod.mk.injEq,
    Prod.exists] at h
  obtain ⟨-, -, p, ⟨hp, -⟩, -, rfl, _, hstandard, -, hstate, _, _, -, rfl, -⟩ := h
  exact Fate.of_erase (.refl _) hp (.claimNft (requireTokenMetadataExit_ok hstandard) hstate) k

theorem claimNftCore_fate {depositor key collection : Pubkey}
    (h : claimNftCore X clock c depositor key collection = .ok (c', events)) :
    Fate X clock c k (.claimNftCore depositor key collection) (c.positions.lookup k)
      (c'.positions.lookup k) := by
  simp only [claimNftCore, bind_ok, require_ok, loadOwnPosition_ok, pure_ok, Prod.mk.injEq] at h
  obtain ⟨-, -, p, ⟨hp, -⟩, -, rfl, -, hstandard, -, hstate, _, -, _, -, rfl, -⟩ := h
  exact Fate.of_erase (.refl _) hp (.claimNftCore hstandard hstate) k

theorem returnRejected_fate {payer key : Pubkey} {accounts : ReleaseAccounts}
    (h : returnRejected X clock c payer key accounts = .ok (c', events)) :
    Fate X clock c k (.returnRejected payer key accounts) (c.positions.lookup k)
      (c'.positions.lookup k) := by
  simp only [returnRejected, bind_ok, require_ok, loadOwnPosition_ok, pure_ok, Prod.mk.injEq,
    Prod.exists] at h
  obtain ⟨-, -, p, ⟨hp, -⟩, _, hstandard, -, hstate, _, _, -, rfl, -⟩ := h
  exact Fate.of_erase (.refl _) hp (.returnRejected (requireTokenMetadataExit_ok hstandard) hstate) k

theorem returnRejectedCore_fate {payer key collection : Pubkey}
    (h : returnRejectedCore X clock c payer key collection = .ok (c', events)) :
    Fate X clock c k (.returnRejectedCore payer key collection) (c.positions.lookup k)
      (c'.positions.lookup k) := by
  simp only [returnRejectedCore, bind_ok, require_ok, loadOwnPosition_ok, pure_ok,
    Prod.mk.injEq] at h
  obtain ⟨-, -, p, ⟨hp, -⟩, -, hstandard, -, hstate, _, -, _, -, rfl, -⟩ := h
  exact Fate.of_erase (.refl _) hp (.returnRejectedCore hstandard hstate) k

end Fates

-- ---------------------------------------------------------------------------
-- Housekeeping
-- ---------------------------------------------------------------------------

structure SameRolls (pool pool' : Pool) : Prop where
  poolId : pool'.poolId = pool.poolId
  openBatches : pool'.openBatches = pool.openBatches
  batchCounter : pool'.batchCounter = pool.batchCounter
  pendingRollLiability : pool'.pendingRollLiability = pool.pendingRollLiability

/-- What an instruction that moves no card and no money writes. -/
inductive Housekeeping (c : Chain) : Chain → Prop where
  | config {config : Option ProtocolConfig} : Housekeeping c { c with protocolConfig := config }
  | collections {collections : Store Pubkey PoolCollection} :
      Housekeeping c { c with poolCollections := collections }
  | pool {key : Pubkey} {pool pool' : Pool} (hpool : c.pools.lookup key = some pool)
      (hsame : SameRolls pool pool') (hcounter : pool'.positionCounter = pool.positionCounter) :
      Housekeeping c { c with pools := c.pools.insert key pool' }

def Instr.keepsHouse : Instr → Bool
  | .initProtocol .. | .updateVrfConfig .. | .admitCollection .. | .withdrawCollection ..
  | .setPause .. | .setAuthorities .. | .beginSweep .. | .endSweep .. => true
  | _ => false

section Housekeeping

variable {X : Programs} {clock : Clock} {c c' : Chain} {events : List Event} {instr : Instr}

theorem exec_housekeeping (hkeeps : instr.keepsHouse = true)
    (h : exec X clock c instr = .ok (c', events)) : Housekeeping c c' := by
  cases instr with
  | initProtocol payer args =>
    simp only [exec, initProtocol, bind_ok, pure_ok, Prod.mk.injEq] at h
    obtain ⟨-, -, -, -, -, -, rfl, -⟩ := h
    exact .config
  | updateVrfConfig administrator vrfProgram oracleQueue swapPool =>
    simp only [exec, updateVrfConfig, bind_ok, pure_ok, Prod.mk.injEq] at h
    obtain ⟨_, -, rfl, -⟩ := h
    exact .config
  | admitCollection administrator pool collection standards reason =>
    simp only [exec, admitCollection, bind_ok, pure_ok, Prod.mk.injEq] at h
    obtain ⟨_, -, _, -, -, -, rfl, -⟩ := h
    exact .collections
  | withdrawCollection administrator pool collection reason =>
    simp only [exec, withdrawCollection, bind_ok, pure_ok, Prod.mk.injEq] at h
    obtain ⟨_, -, _, -, _, -, rfl, -⟩ := h
    exact .collections
  | setPause administrator pool deposits rolls reason =>
    simp only [exec, setPause, bind_ok, pure_ok, Prod.mk.injEq] at h
    obtain ⟨_, -, pool, hpool, rfl, -⟩ := h
    exact .pool (loadPool_ok.mp hpool).1 ⟨rfl, rfl, rfl, rfl⟩ rfl
  | setAuthorities signer role newAuthority =>
    simp only [exec, setAuthorities, bind_ok] at h
    obtain ⟨-, -, _, -, h⟩ := h
    cases newAuthority with
    | some proposed =>
      simp only [bind_ok, pure_ok, Prod.mk.injEq] at h
      obtain ⟨-, -, rfl, -⟩ := h
      exact .config
    | none =>
      simp only [bind_ok, pure_ok, Prod.mk.injEq] at h
      obtain ⟨-, -, -, -, rfl, -⟩ := h
      exact .config
  | beginSweep operator pool =>
    simp only [exec, beginSweep, applyBeginSweep, bind_ok, pure_ok, Prod.mk.injEq,
      Prod.exists] at h
    obtain ⟨_, -, pool, hpool, _, _, ⟨-, -, rfl, -⟩, rfl, -⟩ := h
    exact .pool (loadPool_ok.mp hpool).1 ⟨rfl, rfl, rfl, rfl⟩ rfl
  | endSweep operator pool =>
    simp only [exec, endSweep, applyEndSweep, bind_ok, pure_ok, Prod.mk.injEq, Prod.exists] at h
    obtain ⟨_, -, pool, hpool, _, _, _, ⟨-, -, _, -, rfl, -, -⟩, rfl, -⟩ := h
    exact .pool (loadPool_ok.mp hpool).1 ⟨rfl, rfl, rfl, rfl⟩ rfl
  | _ => cases hkeeps

theorem Housekeeping.positions (h : Housekeeping c c') : c'.positions = c.positions := by
  cases h <;> rfl

/-- Every successful instruction gives every position one of the fates. -/
theorem exec_fate (h : exec X clock c instr = .ok (c', events)) (k : Pubkey) :
    Fate X clock c k instr (c.positions.lookup k) (c'.positions.lookup k) := by
  cases hkeeps : instr.keepsHouse with
  | true =>
    rw [(exec_housekeeping hkeeps h).positions]
    exact .kept rfl
  | false =>
    cases instr with
    | initPool administrator weightIndex args =>
      simp only [exec, initPool, bind_ok, require_ok, pure_ok, Prod.mk.injEq] at h
      obtain ⟨config, -, -, -, -, -, -, -, -, -, _, -, _, -, _, -, -, -, _, -, rfl, -⟩ := h
      exact .kept rfl
    | updateConfig administrator pool remaining update => exact .kept (updateConfig_fate h k)
    | deposit accounts => exact deposit_fate h
    | depositCore accounts => exact depositCore_fate h
    | approveDeposit operator pool position remaining value observedAt lockUntil =>
      exact approveDeposit_fate h
    | rejectDeposit operator position reason => exact rejectDeposit_fate h
    | returnRejected payer position accounts => exact returnRejected_fate h
    | returnRejectedCore payer position collection => exact returnRejectedCore_fate h
    | recordValue operator pool position remaining value observedAt => exact recordValue_fate h
    | withdraw depositor pool position depositorUsdc remaining accounts => exact withdraw_fate h
    | withdrawCore depositor pool position depositorUsdc collection remaining =>
      exact withdrawCore_fate h
    | claimNft depositor position accounts => exact claimNft_fate h
    | claimNftCore depositor position collection => exact claimNftCore_fate h
    | closeSeized caller pool position collection => exact closeSeized_fate h
    | commitRolls roller pool rollerUsdc n =>
      simp only [exec, commitRolls, bind_ok, pure_ok, Prod.mk.injEq, Prod.exists] at h
      obtain ⟨-, -, _, -, _, -, _, -, -, -, _, -, _, -, -, -, -, -, -, -, _, _, _, -, _, -, _, -,
        rfl, -⟩ := h
      exact .kept rfl
    | vrfCallback signer batch pool randomness =>
      simp only [exec, vrfCallback, bind_ok, pure_ok, Prod.mk.injEq] at h
      obtain ⟨-, -, _, -, -, -, _, -, -, -, _, -, rfl, -⟩ := h
      exact .kept rfl
    | updateTier operator pool position remaining => exact .kept (updateTier_fate h k)
    | _ => cases hkeeps

end Housekeeping

end ByeMachine
