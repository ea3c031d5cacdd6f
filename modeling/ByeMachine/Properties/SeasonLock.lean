import ByeMachine.Invariants.Lives
import ByeMachine.Invariants.Timed
import ByeMachine.Properties.Synchronisation

/-!
# The season lock

An activated position stays active until the time it was locked to, unless its
card was burned. Three guards read that time, and they agree on it.
-/

namespace ByeMachine

open Fallible

variable {X : Programs} {c c' c₁ c₂ : Chain} {k pool : Pubkey} {lock now now' : ℤ}
  {events : List Event} {instr : Instr}

-- ---------------------------------------------------------------------------
-- Locked positions stay active
-- ---------------------------------------------------------------------------

/-- A seizure of the position that finds its card burned. -/
def BurnedSeizure (X : Programs) (k : Pubkey) (c : Chain) (instr : Instr) : Prop :=
  ∃ caller pool collection p owner, instr = .closeSeized caller pool k collection ∧
    c.positions.lookup k = some p ∧
    requireCollateralUnreachable X c.externals p.nftMint collection (.positionVault k)
      = .ok (.burned, owner)

/-- The position is active under the lock, its weight among the pool's and its leaf in the index. -/
def HeldActive (c : Chain) (pool k : Pubkey) (lock : ℤ) : Prop :=
  ∃ L p, c.ledger pool = some L ∧ L.positions.lookup k = some p ∧ p.state = .active ∧
    p.lockUntil = lock ∧ L.pool.wReal = sumActive (fun q => weight q.recordedValue) L.positions ∧
    fenwickLeaf L.weightIndex.slots.tree (p.slotIndex + 1) = .ok (weight p.recordedValue) ∧
    0 < weight p.recordedValue

def LockedAt (c : Chain) (pool k : Pubkey) (lock : ℤ) : Prop :=
  ∃ p, c.positions.lookup k = some p ∧ p.pool = pool ∧ p.state = .active ∧ p.lockUntil = lock

theorem LockedAt.of_terms {p q : Position} (h : c.positions.lookup k = some q)
    (hterms : q.terms = p.terms) (hpool : p.pool = pool) (hstate : p.state = .active)
    (hlock : p.lockUntil = lock) : LockedAt c pool k lock :=
  ⟨q, h, (congrArg Position.pool hterms).trans hpool,
    (congrArg Position.state hterms).trans hstate,
    (congrArg Position.lockUntil hterms).trans hlock⟩

theorem classify_close {value floor : ℕ} :
    classify value floor lock now = .close ↔ value < floor ∧ lock ≤ now := by
  unfold classify
  split
  · simp
    omega
  · split <;> simp <;> omega

/-- Before the lock an instruction that is no burned seizure leaves the position active. -/
theorem LockedAt.exec {clock : Clock} (h : LockedAt c pool k lock)
    (hrun : exec X clock c instr = .ok (c', events)) (hnot : ¬BurnedSeizure X k c instr)
    (hbefore : clock.unixTimestamp < lock) : LockedAt c' pool k lock := by
  obtain ⟨p, hp, hpool, hstate, rfl⟩ := h
  have hfate := exec_fate hrun k
  rw [hp] at hfate
  generalize hafter : c'.positions.lookup k = after at hfate
  cases hfate with
  | kept hterms =>
    obtain ⟨q, rfl, hq⟩ := Option.map_eq_some_iff.mp hterms
    exact .of_terms hafter hq hpool hstate rfl
  | revalued _ _ _ hterms => exact .of_terms hafter hterms hpool hstate rfl
  | approved hpending | rejected hpending => rw [hstate] at hpending; cases hpending
  | closed _ _ hclose =>
    have := (classify_close.mp hclose).2
    omega
  | @seized caller key collection owner kind _ _ _ _ hcause hlocked _ =>
    cases kind with
    | burned => exact absurd ⟨caller, key, collection, p, owner, rfl, hp, hcause⟩ hnot
    | transferred | frozen | undecidable =>
      have := hlocked hstate rfl
      omega
  | released hrelease =>
    cases hrelease with
    | withdraw _ _ hlocked | withdrawCore _ _ hlocked => omega
    | claimNft _ hclosed => rw [hstate] at hclosed; cases hclosed
    | claimNftCore _ hclosed => rw [hstate] at hclosed; simp at hclosed
    | returnRejected _ hrejected | returnRejectedCore _ hrejected =>
      rw [hstate] at hrejected
      cases hrejected

theorem LockedAt.steps (h : LockedAt c₁ pool k lock)
    (hsteps : TimedSteps X (fun c instr => ¬BurnedSeizure X k c instr) (c₁, now) (c₂, now'))
    (hbefore : now' < lock) : LockedAt c₂ pool k lock := by
  generalize hend : (c₂, now') = s at hsteps
  induction hsteps generalizing c₂ now' with
  | refl =>
    obtain ⟨rfl, rfl⟩ := Prod.mk.inj hend
    exact h
  | @tail s s' _ hstep ih =>
    subst hend
    have hle := hstep.le
    have hlocked : LockedAt s.1 pool k lock := ih (by omega) rfl
    cases hstep with
    | instruction clock instr events later permitted run =>
      exact hlocked.exec run permitted hbefore
    | elsewhere tokens externals later untouched => exact hlocked

theorem LockedAt.held (h : LockedAt c pool k lock) (hsound : c.Sound) :
    HeldActive c pool k lock := by
  obtain ⟨p, hp, rfl, hstate, hlock⟩ := h
  obtain ⟨L, hL⟩ := hsound.wellFormed.ofPosition hp
  have hp' : L.positions.lookup k = some p := hL.lookup.mpr ⟨hp, rfl⟩
  have hsynced := hsound.synced p.pool L hL
  have hrecords := hsynced.synchronised
  obtain ⟨h0, hC⟩ := hsynced.attested k p hp' hstate
  exact ⟨L, p, ledger_eq_some.mpr hL, hp', hstate, hlock,
    hrecords.wReal.trans hrecords.totalWeight, hrecords.leaf k p hp' hstate, weight_pos h0 hC⟩

-- ---------------------------------------------------------------------------
-- The lock is written once
-- ---------------------------------------------------------------------------

/-- What a run keeps of a position that was activated under an id: the pool's ids are past it, and
while the address holds that id it holds its lock. -/
structure LockFixed (c : Chain) (pool k : Pubkey) (id : ℕ) (lock : ℤ) : Prop where
  past : Past c pool id
  fixed : ∀ q, c.positions.lookup k = some q → q.positionId = id →
    q.lockUntil = lock ∧ q.state ≠ .pending

theorem LockFixed.step {allowed : Chain → Instr → Prop} {id : ℕ} {nftMint : Pubkey}
    (h : LockFixed c pool k id lock) (hkey : k = .position pool nftMint) (hsound : c.Sound)
    (hstep : StepWhere X allowed c c') : LockFixed c' pool k id lock := by
  refine ⟨hstep.past hsound h.past, fun q hq hid => ?_⟩
  cases hstep with
  | elsewhere => exact h.fixed q hq hid
  | instruction clock instr events permitted run =>
    have hfate := exec_fate run k
    rw [hq] at hfate
    generalize hbefore : c.positions.lookup k = before at hfate
    cases hfate with
    | kept hterms =>
      obtain ⟨p, rfl, hp⟩ := Option.map_eq_some_iff.mp hterms.symm
      obtain ⟨hlock, hstate⟩ := h.fixed p hbefore ((congrArg Position.positionId hp).trans hid)
      exact ⟨(congrArg Position.lockUntil hp).symm.trans hlock,
        fun hpending => hstate ((congrArg Position.state hp).trans hpending)⟩
    | taken hkey' hpool | takenCore hkey' hpool =>
      -- A card taken in anew gets an id past this one.
      obtain ⟨L, hL, hlt⟩ := h.past
      rw [hkey, Pubkey.position.injEq] at hkey'
      rw [← hkey'.1, hL.pool, Option.some.injEq] at hpool
      rw [← hid, pendingPosition, hpool] at hlt
      exact absurd hlt (Nat.lt_irrefl _)
    | @approved _ _ _ _ _ _ _ _ p _ hstate hterms =>
      exact absurd hstate (h.fixed p hbefore ((congrArg Position.positionId hterms).symm.trans hid)).2
    | @rejected _ _ p hstate => exact absurd hstate (h.fixed p hbefore hid).2
    | @revalued _ _ _ _ _ _ p _ _ hstate _ hterms =>
      obtain ⟨hlock, hstate⟩ := h.fixed p hbefore
        ((congrArg Position.positionId hterms).symm.trans hid)
      exact ⟨(congrArg Position.lockUntil hterms).trans hlock,
        fun hpending => hstate ((congrArg Position.state hterms).symm.trans hpending)⟩
    | @closed _ _ _ _ _ _ p _ _ hstate _ hterms =>
      obtain ⟨hlock, hstate⟩ := h.fixed p hbefore
        ((congrArg Position.positionId hterms).symm.trans hid)
      refine ⟨(congrArg Position.lockUntil hterms).trans hlock, fun hpending => ?_⟩
      have := (congrArg Position.state hterms).symm.trans hpending
      cases this
    | @seized _ _ _ _ _ p _ _ _ _ _ hterms =>
      obtain ⟨hlock, hstate⟩ := h.fixed p hbefore
        ((congrArg Position.positionId hterms).symm.trans hid)
      refine ⟨(congrArg Position.lockUntil hterms).trans hlock, fun hpending => ?_⟩
      have := (congrArg Position.state hterms).symm.trans hpending
      cases this

theorem lockUntil_fixed {allowed : Chain → Instr → Prop} {p q : Position}
    (hsteps : Relation.ReflTransGen (StepWhere X allowed) c c') (hsound : c.Sound)
    (hp : c.positions.lookup k = some p) (hstate : p.state ≠ .pending)
    (hq : c'.positions.lookup k = some q) (hid : q.positionId = p.positionId) :
    q.lockUntil = p.lockUntil := by
  obtain ⟨L, hL⟩ := hsound.wellFormed.ofPosition hp
  have hkey := hsound.wellFormed.positionKey k p hp
  have hp' : L.positions.lookup k = some p := hL.lookup.mpr ⟨hp, rfl⟩
  have hstart : LockFixed c p.pool k p.positionId p.lockUntil :=
    ⟨⟨L, hL, (hsound.ranked p.pool L hL).identified.below k p hp'⟩, fun r hr _ => by
      obtain rfl := Option.some.inj (hp.symm.trans hr)
      exact ⟨rfl, hstate⟩⟩
  have hend : LockFixed c' p.pool k p.positionId p.lockUntil := by
    clear hq hid
    induction hsteps with
    | refl => exact hstart
    | tail hsteps hstep ih => exact ih.step hkey (sound_of_steps hsteps hsound) hstep
  exact (hend.fixed q hq hid).1

-- ---------------------------------------------------------------------------
-- The three readers
-- ---------------------------------------------------------------------------

/-- Of what the clock says, whether the lock has passed alone decides if the instruction succeeds. -/
def LockDecides (X : Programs) (c : Chain) (lock : ℤ) (instr : Instr) : Prop :=
  ∀ slot now out, exec X ⟨slot, now⟩ c instr = .ok out ↔
    lock ≤ now ∧ ∃ now₀, exec X ⟨slot, now₀⟩ c instr = .ok out

theorem LockDecides.of_passed
    (hrefused : ∀ slot now out, exec X ⟨slot, now⟩ c instr = .ok out → lock ≤ now)
    (hpassed : ∀ slot now now', lock ≤ now → lock ≤ now' →
      exec X ⟨slot, now⟩ c instr = exec X ⟨slot, now'⟩ c instr) :
    LockDecides X c lock instr := by
  intro slot now out
  constructor
  · exact fun h => ⟨hrefused slot now out h, now, h⟩
  · rintro ⟨hnow, now₀, h⟩
    rw [hpassed slot now now₀ hnow (hrefused slot now₀ out h)]
    exact h

theorem applyWithdraw_passed {record : Pool} {p : Position} {stats : WalletStats} {accTier : ℕ}
    (h : p.lockUntil ≤ now) (h' : p.lockUntil ≤ now') :
    applyWithdraw record p stats accTier now = applyWithdraw record p stats accTier now' := by
  simp only [applyWithdraw, h, h']

theorem withdrawAccounting_passed {slot : ℕ} {depositorUsdc : Option Pubkey}
    {remaining : List AccountMeta} {a : Loaded} (h : a.position.lockUntil ≤ now)
    (h' : a.position.lockUntil ≤ now') :
    withdrawAccounting ⟨slot, now⟩ c pool k depositorUsdc remaining a
      = withdrawAccounting ⟨slot, now'⟩ c pool k depositorUsdc remaining a := by
  simp only [withdrawAccounting, applyWithdraw_passed h h']

section Readers

variable {p : Position} (hp : c.positions.lookup k = some p)
include hp

theorem loadThroughPool_position {a : Loaded} (h : loadThroughPool c pool k = .ok a) :
    a.position = p :=
  Option.some.inj ((loadThroughPool_ok h).2.1.symm.trans hp)

theorem withdraw_lockDecides (depositor pool : Pubkey) (depositorUsdc : Option Pubkey)
    (remaining : List AccountMeta) (accounts : ReleaseAccounts) :
    LockDecides X c p.lockUntil
      (.withdraw depositor pool k depositorUsdc remaining accounts) := by
  refine .of_passed ?_ ?_
  · intro slot now out h
    simp only [exec, withdraw, bind_ok] at h
    obtain ⟨-, -, a, ha, -, -, -, -, -, -, ⟨c₁, events⟩, haccounting, -⟩ := h
    rw [← loadThroughPool_position hp ha]
    exact (withdrawAccounting_fate haccounting).2.1
  · intro slot now now' hnow hnow'
    simp only [exec, withdraw]
    refine bind_congr_ok fun _ _ => bind_congr_ok fun a ha => ?_
    rw [← loadThroughPool_position hp ha] at hnow hnow'
    rw [withdrawAccounting_passed hnow hnow']

theorem withdrawCore_lockDecides (depositor pool : Pubkey) (depositorUsdc : Option Pubkey)
    (collection : Pubkey) (remaining : List AccountMeta) :
    LockDecides X c p.lockUntil
      (.withdrawCore depositor pool k depositorUsdc collection remaining) := by
  refine .of_passed ?_ ?_
  · intro slot now out h
    simp only [exec, withdrawCore, bind_ok] at h
    obtain ⟨-, -, a, ha, -, -, -, -, -, -, -, -, ⟨c₁, events⟩, haccounting, -⟩ := h
    rw [← loadThroughPool_position hp ha]
    exact (withdrawAccounting_fate haccounting).2.1
  · intro slot now now' hnow hnow'
    simp only [exec, withdrawCore]
    refine bind_congr_ok fun _ _ => bind_congr_ok fun a ha => ?_
    rw [← loadThroughPool_position hp ha] at hnow hnow'
    rw [withdrawAccounting_passed hnow hnow']

theorem closeSeized_lockDecides (caller pool collection : Pubkey) (hactive : p.state = .active)
    (hburned : ∀ owner, requireCollateralUnreachable X c.externals p.nftMint collection
      (.positionVault k) ≠ .ok (.burned, owner)) :
    LockDecides X c p.lockUntil (.closeSeized caller pool k collection) := by
  have hseizable : ∀ kind owner, requireCollateralUnreachable X c.externals p.nftMint collection
      (.positionVault k) = .ok (kind, owner) → kind.depositorMayKeepTheCard = true := by
    intro kind owner h
    cases kind with
    | burned => exact absurd h (hburned owner)
    | transferred | frozen | undecidable => rfl
  refine .of_passed ?_ ?_
  · intro slot now out h
    simp only [exec, closeSeized, bind_ok, Prod.exists] at h
    obtain ⟨-, -, a, ha, -, -, -, -, kind, owner, hcause, booked, hbooked, -⟩ := h
    have hposition := loadThroughPool_position hp ha
    rw [hposition] at hcause hbooked
    simp only [applyCloseSeized, seizeRow, hactive, requireSeizable, hseizable kind owner hcause,
      if_true, bind_ok, require_ok] at hbooked
    obtain ⟨_, ⟨-, hlock, -⟩, -⟩ := hbooked
    exact hlock
  · intro slot now now' hnow hnow'
    simp only [exec, closeSeized]
    refine bind_congr_ok fun _ _ => bind_congr_ok fun a ha => bind_congr_ok fun _ _ =>
      bind_congr_ok fun _ _ => bind_congr_ok fun cause hcause => ?_
    have hposition := loadThroughPool_position hp ha
    rw [hposition] at hcause ⊢
    have hsame : applyCloseSeized a.pool p a.walletStats cause.1 now
        = applyCloseSeized a.pool p a.walletStats cause.1 now' := by
      simp only [applyCloseSeized, seizeRow, hactive, requireSeizable, hnow, hnow']
    simp only [hsame]

theorem recordValue_lockDecides {slot : ℕ} {operator pool : Pubkey} {record : Pool}
    {remaining : List AccountMeta} {value : ℕ} {observedAt : ℤ}
    (hpool : c.pools.lookup pool = some record) (hbelow : value < record.admissionFloor)
    (h : exec X ⟨slot, now⟩ c (.recordValue operator pool k remaining value observedAt)
      = .ok (c', events)) :
    ∃ q, c'.positions.lookup k = some q ∧
      q.state = if p.lockUntil ≤ now then .closedBelowFloor else .active := by
  simp only [exec, recordValue, bind_ok, pure_ok, Prod.mk.injEq, Prod.exists] at h
  obtain ⟨_, -, a, ha, booked, hbooked, _, -, _, q, positions', _, htier, rfl, -⟩ := h
  obtain ⟨hpool', hp', -⟩ := loadThroughPool_ok ha
  obtain rfl := Option.some.inj (hpool.symm.trans hpool')
  obtain rfl := Option.some.inj (hp.symm.trans hp')
  refine ⟨q, Finmap.lookup_insert _, (congrArg Position.state (recordTier_terms htier).1).trans ?_⟩
  by_cases hlock : a.position.lockUntil ≤ now
  · obtain ⟨_, _, -, -, -, rfl⟩ := applyRecordValue_closed hbooked (classify_close.mpr ⟨hbelow, hlock⟩)
    rw [if_pos hlock]
    rfl
  · obtain ⟨_, _, _, _, hrevalues, -, -, -, rfl⟩ :=
      applyRecordValue_kept hbooked fun hclose => hlock (classify_close.mp hclose).2
    rw [if_neg hlock]
    exact hrevalues.active

theorem recordValue_passed {slot : ℕ} {operator pool : Pubkey} {remaining : List AccountMeta}
    {value : ℕ} {observedAt : ℤ} (hside : p.lockUntil ≤ now ↔ p.lockUntil ≤ now') :
    exec X ⟨slot, now⟩ c (.recordValue operator pool k remaining value observedAt)
      = exec X ⟨slot, now'⟩ c (.recordValue operator pool k remaining value observedAt) := by
  simp only [exec, recordValue]
  refine bind_congr_ok fun _ _ => bind_congr_ok fun a ha => ?_
  have hposition := loadThroughPool_position hp ha
  have hsame : ∀ floor, classify value floor p.lockUntil now
      = classify value floor p.lockUntil now' := by
    intro floor
    have hlt : now < p.lockUntil ↔ now' < p.lockUntil := by omega
    simp only [classify, hlt]
  simp only [hposition, applyRecordValue, hsame]

end Readers

/-- From an approval on, its position is active under the lock it was given at every state reached
before that time, unless its card is found burned; the lock is never written again; and whether it
has passed is all that the clock decides of a withdrawal, of a seizure on any other cause, and of
what a re-attestation below the floor does. -/
theorem season_lock (hreach : TimedReachable X c now) :
    (∀ clock operator pool k remaining value observedAt lock c₁ events,
      now ≤ clock.unixTimestamp →
      exec X clock c (.approveDeposit operator pool k remaining value observedAt lock)
        = .ok (c₁, events) →
      ∀ c₂ now₂, TimedSteps X (fun c instr => ¬BurnedSeizure X k c instr)
        (c₁, clock.unixTimestamp) (c₂, now₂) → now₂ < lock → HeldActive c₂ pool k lock) ∧
    (∀ c' k p q, Relation.ReflTransGen (Step X) c c' → c.positions.lookup k = some p →
      p.state ≠ .pending → c'.positions.lookup k = some q → q.positionId = p.positionId →
      q.lockUntil = p.lockUntil) ∧
    (∀ k p, c.positions.lookup k = some p →
      (∀ depositor pool depositorUsdc remaining accounts, LockDecides X c p.lockUntil
        (.withdraw depositor pool k depositorUsdc remaining accounts)) ∧
      (∀ depositor pool depositorUsdc collection remaining, LockDecides X c p.lockUntil
        (.withdrawCore depositor pool k depositorUsdc collection remaining)) ∧
      (∀ caller pool collection, p.state = .active →
        (∀ owner, requireCollateralUnreachable X c.externals p.nftMint collection
          (.positionVault k) ≠ .ok (.burned, owner)) →
        LockDecides X c p.lockUntil (.closeSeized caller pool k collection)) ∧
      (∀ slot now operator pool record remaining value observedAt c' events,
        c.pools.lookup pool = some record → value < record.admissionFloor →
        exec X ⟨slot, now⟩ c (.recordValue operator pool k remaining value observedAt)
          = .ok (c', events) →
        ∃ q, c'.positions.lookup k = some q ∧
          q.state = if p.lockUntil ≤ now then .closedBelowFloor else .active) ∧
      (∀ slot now now' operator pool remaining value observedAt,
        (p.lockUntil ≤ now ↔ p.lockUntil ≤ now') →
        exec X ⟨slot, now⟩ c (.recordValue operator pool k remaining value observedAt)
          = exec X ⟨slot, now'⟩ c (.recordValue operator pool k remaining value observedAt))) := by
  have hsound := hreach.sound
  refine ⟨?_, ?_, ?_⟩
  · intro clock operator pool k remaining value observedAt lock c₁ events _ hrun c₂ now₂ hsteps
      hbefore
    obtain ⟨p, q, slot, accEqual, positions', hp, hkey, -, hterms, -, hpositions⟩ :=
      approveDeposit_activates hrun
    have hpool : p.pool = pool := by
      have hown := hsound.wellFormed.positionKey k p hp
      rw [hkey, Pubkey.position.injEq] at hown
      exact hown.1.symm
    have hlocked : LockedAt c₁ pool k lock :=
      .of_terms (by rw [hpositions, Finmap.lookup_insert]) hterms hpool rfl rfl
    have hsound₁ : c₁.Sound :=
      (StepWhere.instruction clock _ events trivial hrun : Step X c c₁).sound hsound
    exact (hlocked.steps hsteps hbefore).held (sound_of_steps hsteps.untimed hsound₁)
  · intro c' k p q hsteps hp hstate hq hid
    exact lockUntil_fixed hsteps hsound hp hstate hq hid
  · intro k p hp
    exact ⟨withdraw_lockDecides hp, withdrawCore_lockDecides hp, closeSeized_lockDecides hp,
      fun _ _ _ _ _ _ _ _ _ _ hpool hbelow h => recordValue_lockDecides hp hpool hbelow h,
      fun _ _ _ _ _ _ _ _ hside => recordValue_passed hp hside⟩

/-- A sweep that finds card 30 below the floor at 60. -/
def lockedSweep : List (Clock × Instr) :=
  [(⟨50, 50⟩, .beginSweep (.key 2) (.pool 0)), revalueCard ⟨60, 60⟩ 1]

/-- A card approved at 2 and locked until 100 is still held after that sweep. -/
theorem season_lock_bank :
    HeldActive (((bankRun [admitCards, depositCard 30]).after bank
      [approveCard 30 12000000 100]).after bank lockedSweep) (.pool 0) (bankPosition 30) 100 := by
  have hreach : TimedReachable bank (bankRun [admitCards, depositCard 30]) 1 :=
    bankRun_timed (by decide) (by decide +kernel)
  obtain ⟨events, hrun⟩ := exec_after (X := bank) (c := bankRun [admitCards, depositCard 30])
    (s := approveCard 30 12000000 100) (by decide +kernel)
  have hallowed : ∀ s ∈ lockedSweep, ∀ c, ¬BurnedSeizure bank (bankPosition 30) c s.2 := by
    simp [lockedSweep, revalueCard, BurnedSeizure]
  have hordered : Ordered 2 lockedSweep := by decide
  have hsweep : TimedSteps bank (fun c instr => ¬BurnedSeizure bank (bankPosition 30) c instr)
      ((bankRun [admitCards, depositCard 30]).after bank [approveCard 30 12000000 100], 2)
      (_, endsAt 2 lockedSweep) :=
    runScript_timed hordered hallowed (runScript_after (by decide +kernel))
  exact (season_lock hreach).1 _ _ _ _ _ _ _ _ _ _ (by decide) hrun _ _ hsweep (by decide)

end ByeMachine
