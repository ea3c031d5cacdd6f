import ByeMachine.Invariants.Traces
import ByeMachine.Refinement.Events
import ByeMachine.Refinement.Pools

/-!
# Sweeps

Sweeps of a pool follow one another, each under the next epoch. A sweep's end
publishes how many values were recorded since its beginning; values are recorded
in a sweep only, and batches are opened outside of one.
-/

namespace ByeMachine

open Fallible

-- ---------------------------------------------------------------------------
-- Reading a trace
-- ---------------------------------------------------------------------------

def Entry.begins (key : Pubkey) (e : Entry) : Bool :=
  match e.instr with
  | .beginSweep _ pool => pool = key
  | _ => false

def Entry.ends (key : Pubkey) (e : Entry) : Bool :=
  match e.instr with
  | .endSweep _ pool => pool = key
  | _ => false

def Entry.records (key : Pubkey) (e : Entry) : Bool :=
  match e.instr with
  | .recordValue _ pool _ _ _ _ => pool = key
  | _ => false

def Entry.commits (key : Pubkey) (e : Entry) : Bool :=
  match e.instr with
  | .commitRolls _ pool _ _ => pool = key
  | _ => false

def Entry.PublishesBegun (key : Pubkey) (epoch : ℕ) (e : Entry) : Prop :=
  ∃ slot operator, e.events = [.sweepBegun key slot operator epoch]

def Entry.PublishesEnded (key : Pubkey) (epoch updates : ℕ) (e : Entry) : Prop :=
  ∃ slot operator lastSweepAt,
    e.events = [.sweepEnded key slot operator epoch updates lastSweepAt]

/-- A sweep has begun that did not end, under this epoch and with so many values recorded since. -/
structure SweepOpen (key : Pubkey) (entries : List Entry) (epoch updates : ℕ) : Prop where
  intro ::
  split : ∃ before b during, entries = before ++ b :: during ∧ b.begins key = true ∧
    b.PublishesBegun key epoch ∧
    (before.countP (·.begins key) = epoch ∧ before.countP (·.ends key) = epoch) ∧
    during.countP (·.begins key) = 0 ∧ during.countP (·.ends key) = 0 ∧
    during.countP (·.records key) = updates

section

variable {X : Programs} {may : Ledger → Settlement → Prop} {c₀ c c' : Chain} {key : Pubkey}
  {entries past : List Entry} {e : Entry} {pool pool' : Pool} {epoch updates : ℕ}

theorem SweepOpen.counts (h : SweepOpen key entries epoch updates) :
    entries.countP (·.begins key) = epoch + 1 ∧ entries.countP (·.ends key) = epoch := by
  obtain ⟨before, b, during, rfl, hb, -, ⟨hbegun, hended⟩, hbegins, hends, -⟩ := h.split
  have hnot : b.ends key = false := by
    unfold Entry.begins at hb
    unfold Entry.ends
    split at hb <;> simp_all
  simp [List.countP_append, hb, hnot, hbegun, hended, hbegins, hends]

theorem SweepOpen.concat (h : SweepOpen key entries epoch updates) (hbegins : e.begins key = false)
    (hends : e.ends key = false) :
    SweepOpen key (entries ++ [e]) epoch (updates + if e.records key then 1 else 0) := by
  obtain ⟨before, b, during, rfl, hb, hpublished, hbefore, hbegun, hended, rfl⟩ := h.split
  refine ⟨before, b, during ++ [e], by simp, hb, hpublished, hbefore, ?_, ?_, ?_⟩
  · simp [List.countP_append, hbegun, hbegins]
  · simp [List.countP_append, hended, hends]
  · simp [List.countP_append, List.countP_cons]

/-- The pool's sweep fields are what the trace makes them. -/
inductive SweepStage (key : Pubkey) (entries : List Entry) : Option Pool → Prop where
  | absent (hbegins : entries.countP (·.begins key) = 0) (hends : entries.countP (·.ends key) = 0) :
      SweepStage key entries none
  | idle {pool : Pool} (hsweep : pool.sweepPending = false)
      (hbegins : entries.countP (·.begins key) = pool.sweepEpoch)
      (hends : entries.countP (·.ends key) = pool.sweepEpoch) : SweepStage key entries (some pool)
  | sweeping {pool : Pool} (hsweep : pool.sweepPending = true)
      (hopen : SweepOpen key entries pool.sweepEpoch pool.sweepUpdates) :
      SweepStage key entries (some pool)

def Entry.Skips (key : Pubkey) (e : Entry) : Prop :=
  e.begins key = false ∧ e.ends key = false ∧ e.records key = false

theorem Entry.Skips.of_poolWritten (h : e.instr.poolWritten ≠ some key) : e.Skips key := by
  obtain ⟨clock, instr, events⟩ := e
  unfold Entry.Skips Entry.begins Entry.ends Entry.records
  cases instr <;> simp_all [Instr.poolWritten]

structure SameSweep (pool pool' : Pool) : Prop where
  sweepPending : pool'.sweepPending = pool.sweepPending
  sweepEpoch : pool'.sweepEpoch = pool.sweepEpoch
  sweepUpdates : pool'.sweepUpdates = pool.sweepUpdates

theorem SweepStage.same (h : SweepStage key entries (some pool)) (hsame : SameSweep pool pool') :
    SweepStage key entries (some pool') := by
  obtain ⟨hpending, hepoch, hupdates⟩ := hsame
  cases h with
  | idle hsweep hbegins hends =>
    exact .idle (hpending.trans hsweep) (hbegins.trans hepoch.symm) (hends.trans hepoch.symm)
  | sweeping hsweep hopen => exact .sweeping (hpending.trans hsweep) (by rwa [hepoch, hupdates])

theorem SweepStage.skip {record : Option Pool} (h : SweepStage key entries record)
    (hskips : e.Skips key) : SweepStage key (entries ++ [e]) record := by
  obtain ⟨hb, he, hr⟩ := hskips
  cases h with
  | absent hbegins hends =>
    exact .absent (by simp [List.countP_append, hbegins, hb])
      (by simp [List.countP_append, hends, he])
  | idle hsweep hbegins hends =>
    exact .idle hsweep (by simp [List.countP_append, hbegins, hb])
      (by simp [List.countP_append, hends, he])
  | sweeping hsweep hopen =>
    have hnext := hopen.concat hb he
    rw [hr] at hnext
    exact .sweeping hsweep hnext

-- ---------------------------------------------------------------------------
-- Steps
-- ---------------------------------------------------------------------------

theorem beginSweep_published {clock : Clock} {operator : Pubkey} {events : List Event}
    (h : beginSweep clock c operator key = .ok (c', events)) :
    ∃ pool, c.pools.lookup key = some pool ∧
      events = [.sweepBegun key clock.slot operator pool.sweepEpoch] := by
  simp only [beginSweep, applyBeginSweep, bind_ok, pure_ok, Prod.mk.injEq, Prod.exists] at h
  obtain ⟨_, -, pool, hpool, _, _, ⟨-, -, -, rfl⟩, -, rfl⟩ := h
  exact ⟨pool, (loadPool_ok.mp hpool).1, rfl⟩

theorem endSweep_published {clock : Clock} {operator : Pubkey} {events : List Event}
    (h : endSweep clock c operator key = .ok (c', events)) :
    ∃ pool, c.pools.lookup key = some pool ∧ events = [.sweepEnded key clock.slot operator
      pool.sweepEpoch pool.sweepUpdates clock.unixTimestamp] := by
  simp only [endSweep, applyEndSweep, bind_ok, pure_ok, Prod.mk.injEq, Prod.exists] at h
  obtain ⟨_, -, pool, hpool, _, _, _, ⟨-, -, _, -, -, rfl, rfl⟩, -, rfl⟩ := h
  exact ⟨pool, (loadPool_ok.mp hpool).1, rfl⟩

/-- Every instruction takes the pool's sweep fields along with the trace. -/
theorem SweepStage.step (h : SweepStage key entries (c.pools.lookup key))
    (hrun : exec X e.clock c e.instr = .ok (c', e.events)) :
    SweepStage key (entries ++ [e]) (c'.pools.lookup key) := by
  obtain ⟨clock, instr, events⟩ := e
  have hfate := exec_pool hrun key
  generalize hbefore : c.pools.lookup key = before, c'.pools.lookup key = after at h hfate
  cases hfate with
  | kept hother => exact h.skip (.of_poolWritten hother)
  | founded hkey hvalid =>
    cases h with
    | absent hbegins hends =>
      refine (SweepStage.idle rfl hbegins hends).skip ?_
      exact ⟨rfl, rfl, rfl⟩
  | @configured administrator remaining update pool hvalid =>
    have hsame : SameSweep pool (applyUpdate pool update) := by
      cases update <;> exact ⟨rfl, rfl, rfl⟩
    refine SweepStage.same (h.skip ?_) hsame
    exact ⟨rfl, rfl, rfl⟩
  | paused | approved | withdrawn | withdrawnCore | seized =>
    refine SweepStage.same (h.skip ?_) ?_ <;> exact ⟨rfl, rfl, rfl⟩
  | deposited hkey | depositedCore hkey =>
    refine SweepStage.same (h.skip ?_) ?_ <;> exact ⟨rfl, rfl, rfl⟩
  | committed hcommit =>
    obtain ⟨-, -, -, rfl⟩ := applyCommit_ok hcommit
    refine SweepStage.same (h.skip ?_) ?_ <;> exact ⟨rfl, rfl, rfl⟩
  | @begun operator pool hsweep =>
    obtain ⟨found, hfound, hevents⟩ := beginSweep_published hrun
    obtain rfl := Option.some.inj (hbefore.symm.trans hfound)
    cases h with
    | idle _ hbegins hends =>
      refine .sweeping rfl ⟨entries, _, [], rfl, ?_, ⟨_, _, hevents⟩, ⟨hbegins, hends⟩, rfl, rfl, rfl⟩
      simp [Entry.begins]
    | sweeping hpending =>
      rw [hsweep] at hpending
      cases hpending
  | @ended operator pool hsweep =>
    cases h with
    | idle hidle =>
      rw [hsweep] at hidle
      cases hidle
    | sweeping _ hopen =>
      obtain ⟨hbegins, hends⟩ := hopen.counts
      have hnot : Entry.begins key ⟨clock, .endSweep operator key, events⟩ = false := rfl
      have hend : Entry.ends key ⟨clock, .endSweep operator key, events⟩ = true := by
        simp [Entry.ends]
      exact .idle rfl (by simp [List.countP_append, hbegins, hnot])
        (by simp [List.countP_append, hends, hend])
  | @recorded operator position remaining value observedAt pool nReal wReal blanks hsweep hfrozen =>
    cases h with
    | idle hidle =>
      rw [hsweep] at hidle
      cases hidle
    | sweeping _ hopen =>
      have hnext := hopen.concat
        (e := ⟨clock, .recordValue operator key position remaining value observedAt, events⟩) rfl rfl
      rw [if_pos (by simp [Entry.records])] at hnext
      exact .sweeping hsweep hnext

theorem Trace.sweepStage (h : Trace X may c₀ entries c) (hgenesis : Genesis c₀) (key : Pubkey) :
    SweepStage key entries (c.pools.lookup key) := by
  induction h with
  | start =>
    rw [hgenesis.pool_none]
    exact .absent rfl rfl
  | instruction _ clock instr events hrun ih => exact ih.step (e := ⟨clock, instr, events⟩) hrun
  | elsewhere _ _ _ _ ih => exact ih
  | @settle entries c other L s htrace hL hmay ih =>
    have hwf := (htrace.sound hgenesis).wellFormed
    by_cases hkey : key = other
    · subst hkey
      rw [hL.pool] at ih
      rw [(settle_reads hwf hL).pool]
      exact ih.same ⟨rfl, rfl, rfl⟩
    · rwa [(settle_touches (s := s) hwf hL).pools key hkey]

-- ---------------------------------------------------------------------------
-- The law of sweeps
-- ---------------------------------------------------------------------------

/-- What the next entry may do to the pool's sweeps. -/
structure SweepLaw (key : Pubkey) (past : List Entry) (c : Chain) (e : Entry) : Prop where
  /-- A sweep begins where every earlier one has ended, under the next epoch. -/
  begun : e.begins key = true →
    past.countP (·.begins key) = past.countP (·.ends key) ∧
      e.PublishesBegun key (past.countP (·.begins key))
  /-- A sweep ends that has begun, under its own epoch, with the count of values recorded since. -/
  ended : e.ends key = true → ∃ epoch updates, SweepOpen key past epoch updates ∧
    e.PublishesEnded key epoch updates
  /-- A value is recorded in an open sweep, with no batch open. -/
  recorded : e.records key = true →
    past.countP (·.begins key) = past.countP (·.ends key) + 1 ∧
      ∃ pool, c.pools.lookup key = some pool ∧ pool.openBatches = 0
  /-- A batch is opened outside of any sweep. -/
  committed : e.commits key = true → past.countP (·.begins key) = past.countP (·.ends key)
  /-- Nothing else publishes a sweep of the pool. -/
  published : ∀ event ∈ e.events,
    (∀ slot operator epoch, event = .sweepBegun key slot operator epoch → e.begins key = true) ∧
      ∀ slot operator epoch updates lastSweepAt,
        event = .sweepEnded key slot operator epoch updates lastSweepAt → e.ends key = true

theorem exec_sweepPublished (hrun : exec X e.clock c e.instr = .ok (c', e.events)) :
    ∀ event ∈ e.events,
      (∀ slot operator epoch, event = .sweepBegun key slot operator epoch → e.begins key = true) ∧
        ∀ slot operator epoch updates lastSweepAt,
          event = .sweepEnded key slot operator epoch updates lastSweepAt → e.ends key = true := by
  obtain ⟨clock, instr, events⟩ := e
  intro event hevent
  dsimp only at hrun hevent
  have hkind := exec_publishes hrun hevent
  constructor
  · rintro slot operator epoch rfl
    cases instr with
    | beginSweep operator' pool =>
      obtain ⟨found, -, hpublished⟩ := beginSweep_published hrun
      simp only [hpublished, List.mem_singleton, Event.sweepBegun.injEq] at hevent
      simp [Entry.begins, hevent.1]
    | _ => simp [Instr.publishes, Event.kind] at hkind
  · rintro slot operator epoch updates lastSweepAt rfl
    cases instr with
    | endSweep operator' pool =>
      obtain ⟨found, -, hpublished⟩ := endSweep_published hrun
      simp only [hpublished, List.mem_singleton, Event.sweepEnded.injEq] at hevent
      simp [Entry.ends, hevent.1]
    | _ => simp [Instr.publishes, Event.kind] at hkind

/-- Whatever goes through after a run keeps the law of sweeps, for every pool. -/
theorem sweeps_accounted (hgenesis : Genesis c₀) (hpast : Trace X may c₀ past c)
    (hrun : exec X e.clock c e.instr = .ok (c', e.events)) (key : Pubkey) :
    SweepLaw key past c e := by
  have hstage := hpast.sweepStage hgenesis key
  have hfate := exec_pool hrun key
  generalize c'.pools.lookup key = after at hfate
  refine ⟨?_, ?_, ?_, ?_, exec_sweepPublished hrun⟩
  all_goals
    obtain ⟨clock, instr, events⟩ := e
    intro hmark
  · cases instr with
    | beginSweep operator pool =>
      obtain rfl : pool = key := by simpa [Entry.begins] using hmark
      obtain ⟨found, hfound, hevents⟩ := beginSweep_published hrun
      rw [hfound] at hstage hfate
      cases hfate with
      | kept hother => exact absurd rfl hother
      | begun hsweep =>
        cases hstage with
        | idle _ hbegins hends =>
          exact ⟨hbegins.trans hends.symm, _, _, by rw [hbegins]; exact hevents⟩
        | sweeping hpending =>
          rw [hsweep] at hpending
          cases hpending
    | _ => cases hmark
  · cases instr with
    | endSweep operator pool =>
      obtain rfl : pool = key := by simpa [Entry.ends] using hmark
      obtain ⟨found, hfound, hevents⟩ := endSweep_published hrun
      rw [hfound] at hstage hfate
      cases hfate with
      | kept hother => exact absurd rfl hother
      | ended hsweep =>
        cases hstage with
        | idle hidle =>
          rw [hsweep] at hidle
          cases hidle
        | sweeping _ hopen => exact ⟨_, _, hopen, _, _, _, hevents⟩
    | _ => cases hmark
  · cases instr with
    | recordValue operator pool position remaining value observedAt =>
      obtain rfl : pool = key := by simpa [Entry.records] using hmark
      generalize hlookup : c.pools.lookup pool = found at hstage hfate
      cases hfate with
      | kept hother => exact absurd rfl hother
      | recorded hsweep hfrozen =>
        cases hstage with
        | idle hidle =>
          rw [hsweep] at hidle
          cases hidle
        | sweeping _ hopen =>
          obtain ⟨hbegins, hends⟩ := hopen.counts
          exact ⟨by rw [hbegins, hends], _, rfl, hfrozen⟩
    | _ => cases hmark
  · cases instr with
    | commitRolls roller pool rollerUsdc n =>
      obtain rfl : pool = key := by simpa [Entry.commits] using hmark
      generalize hlookup : c.pools.lookup pool = found at hstage hfate
      cases hfate with
      | kept hother => exact absurd rfl hother
      | committed hcommit =>
        simp only [applyCommit, bind_ok, require_ok] at hcommit
        obtain ⟨-, -, -, hidle, -⟩ := hcommit
        cases hstage with
        | idle _ hbegins hends => exact hbegins.trans hends.symm
        | sweeping hpending =>
          rw [hidle] at hpending
          cases hpending
    | _ => cases hmark

end

/-- Two sweeps of the bank's pool, the second with one value recorded. -/
def sweptTwice : List (Clock × Instr) :=
  [admitCards, depositCard 30, approveCard 30 15_000_000 0,
    (⟨3, 3⟩, .beginSweep (.key 2) (.pool 0)), (⟨4, 4⟩, .endSweep (.key 2) (.pool 0)),
    (⟨5, 5⟩, .beginSweep (.key 2) (.pool 0)),
    (⟨6, 6⟩, .recordValue (.key 2) (.pool 0) (bankPosition 30) [] 16_000_000 6),
    (⟨7, 7⟩, .endSweep (.key 2) (.pool 0))]

theorem sweeps_accounted_bank :
    ∃ past c₁ e, SweepLaw (.pool 0) past c₁ e ∧ e.ends (.pool 0) = true := by
  obtain ⟨past, e, hpast, hends⟩ := executed_last bank sweptTwice
    (bankPool (defaultArgs .default)) (·.ends (.pool 0)) (by decide +kernel)
  obtain ⟨first, c, hgenesis, htrace⟩ := bank_trace (fun _ _ => False) defaultArgs_valid
    (show (traceScript bank sweptTwice (bankPool (defaultArgs .default))).isOk by decide +kernel)
  rw [hpast, ← List.append_assoc] at htrace
  obtain ⟨c₁, c₂, hbefore, hrun, -⟩ := htrace.split
  exact ⟨_, c₁, e, sweeps_accounted hgenesis hbefore hrun (.pool 0), hends⟩

end ByeMachine
