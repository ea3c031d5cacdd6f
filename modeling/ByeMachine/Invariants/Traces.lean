import ByeMachine.Invariants.Settlement
import ByeMachine.Script

/-!
# Runs with what they executed

A trace is a run that settlements and other programs may interrupt, with every
instruction that went through, oldest first, and what it published.
-/

namespace ByeMachine

open Fallible

/-- An instruction that went through, with its clock and the events it published. -/
structure Entry where
  clock : Clock
  instr : Instr
  events : List Event

/-- The events of a trace, oldest first. -/
def published (entries : List Entry) : List Event := entries.flatMap (·.events)

inductive Trace (X : Programs) (may : Ledger → Settlement → Prop) (c₀ : Chain) :
    List Entry → Chain → Prop where
  | start : Trace X may c₀ [] c₀
  | instruction {entries : List Entry} {c c' : Chain} (htrace : Trace X may c₀ entries c)
      (clock : Clock) (instr : Instr) (events : List Event)
      (hrun : exec X clock c instr = .ok (c', events)) :
      Trace X may c₀ (entries ++ [⟨clock, instr, events⟩]) c'
  | elsewhere {entries : List Entry} {c : Chain} (htrace : Trace X may c₀ entries c)
      (tokens : Tokens) (externals : Externals) (huntouched : Untouched c.tokens tokens) :
      Trace X may c₀ entries { c with tokens, externals }
  | settle {entries : List Entry} {c : Chain} {key : Pubkey} {L : Ledger} {s : Settlement}
      (htrace : Trace X may c₀ entries c) (hL : c.Reads key L) (hmay : may L s) :
      Trace X may c₀ entries (c.settle key s)

section
variable {X : Programs} {may : Ledger → Settlement → Prop} {c₀ c c' : Chain}
  {entries past since : List Entry} {e : Entry}

theorem Trace.steps (h : Trace X may c₀ entries c) :
    Relation.ReflTransGen (SettlingStep X may) c₀ c := by
  induction h with
  | start => exact .refl
  | instruction _ clock instr events hrun ih =>
    exact ih.tail (.run (.instruction clock instr events trivial hrun))
  | elsewhere _ tokens externals huntouched ih =>
    exact ih.tail (.run (.elsewhere tokens externals huntouched))
  | settle _ hL hmay ih => exact ih.tail (.settle hL hmay)

theorem Trace.reachable (h : Trace X may c₀ entries c) (hgenesis : Genesis c₀) :
    SettlingReachable X may c := ⟨c₀, hgenesis, h.steps⟩

theorem Trace.sound (h : Trace X may c₀ entries c) (hgenesis : Genesis c₀) : c.Sound :=
  (h.reachable hgenesis).sound

theorem Trace.sound_of (h : Trace X may c₀ entries c) (hsound : c₀.Sound) : c.Sound := by
  have hsteps := h.steps
  clear h
  induction hsteps with
  | refl => exact hsound
  | tail _ hstep ih => exact hstep.sound ih

theorem Trace.trans {more : List Entry} (h : Trace X may c₀ entries c)
    (h' : Trace X may c more c') : Trace X may c₀ (entries ++ more) c' := by
  induction h' with
  | start => simpa using h
  | instruction _ clock instr events hrun ih =>
    rw [← List.append_assoc]
    exact ih.instruction clock instr events hrun
  | elsewhere _ tokens externals huntouched ih => exact ih.elsewhere tokens externals huntouched
  | settle _ hL hmay ih => exact ih.settle hL hmay

theorem Trace.split (h : Trace X may c₀ (past ++ e :: since) c) :
    ∃ c₁ c₂, Trace X may c₀ past c₁ ∧ exec X e.clock c₁ e.instr = .ok (c₂, e.events) ∧
      Trace X may c₂ since c := by
  generalize hentries : past ++ e :: since = entries at h
  induction h generalizing since with
  | start => simp at hentries
  | @instruction entries c c' htrace clock instr events hrun ih =>
    rcases List.eq_nil_or_concat since with rfl | ⟨since, last, rfl⟩
    · obtain ⟨rfl, hlast⟩ := List.append_inj' hentries rfl
      obtain rfl : e = ⟨clock, instr, events⟩ := by simpa using hlast
      exact ⟨c, c', htrace, hrun, .start⟩
    · have hentries' : (past ++ e :: since) ++ [last] = entries ++ [⟨clock, instr, events⟩] := by
        simpa using hentries
      obtain ⟨hpast, hlast⟩ := List.append_inj' hentries' rfl
      obtain ⟨c₁, c₂, hbefore, hexec, hafter⟩ := ih hpast
      obtain rfl : last = ⟨clock, instr, events⟩ := by simpa using hlast
      refine ⟨c₁, c₂, hbefore, hexec, ?_⟩
      rw [List.concat_eq_append]
      exact hafter.instruction clock instr events hrun
  | elsewhere _ tokens externals huntouched ih =>
    obtain ⟨c₁, c₂, hbefore, hexec, hafter⟩ := ih hentries
    exact ⟨c₁, c₂, hbefore, hexec, hafter.elsewhere tokens externals huntouched⟩
  | settle _ hL hmay ih =>
    obtain ⟨c₁, c₂, hbefore, hexec, hafter⟩ := ih hentries
    exact ⟨c₁, c₂, hbefore, hexec, hafter.settle hL hmay⟩

theorem Trace.exists (h : Relation.ReflTransGen (SettlingStep X may) c₀ c) :
    ∃ entries, Trace X may c₀ entries c := by
  induction h with
  | refl => exact ⟨[], .start⟩
  | tail _ hstep ih =>
    obtain ⟨entries, htrace⟩ := ih
    cases hstep with
    | settle hL hmay => exact ⟨entries, htrace.settle hL hmay⟩
    | run hstep =>
      cases hstep with
      | instruction clock instr events _ hrun => exact ⟨_, htrace.instruction clock instr events hrun⟩
      | elsewhere tokens externals huntouched =>
        exact ⟨entries, htrace.elsewhere tokens externals huntouched⟩

end

-- ---------------------------------------------------------------------------
-- Scripts
-- ---------------------------------------------------------------------------

/-- A script's instructions with what they published; the first failure ends it. -/
def traceScript (X : Programs) : List (Clock × Instr) → Chain → Result (List Entry × Chain)
  | [], c => pure ([], c)
  | s :: script, c => do
    let (c, events) ← exec X s.1 c s.2
    let (entries, c) ← traceScript X script c
    pure (⟨s.1, s.2, events⟩ :: entries, c)

theorem traceScript_trace {X : Programs} {may : Ledger → Settlement → Prop}
    {script : List (Clock × Instr)} {c c' : Chain} {entries : List Entry}
    (h : traceScript X script c = .ok (entries, c')) : Trace X may c entries c' := by
  induction script generalizing c entries with
  | nil =>
    simp only [traceScript, pure_ok, Prod.mk.injEq] at h
    obtain ⟨rfl, rfl⟩ := h
    exact .start
  | cons s script ih =>
    simp only [traceScript, bind_ok, pure_ok, Prod.mk.injEq, Prod.exists] at h
    obtain ⟨_, events, hrun, rest, _, hrest, rfl, rfl⟩ := h
    have hfirst : Trace X may c [⟨s.1, s.2, events⟩] _ := Trace.start.instruction s.1 s.2 events hrun
    exact hfirst.trans (ih hrest)

def executed (X : Programs) (script : List (Clock × Instr)) (c : Chain) : List Entry :=
  ((traceScript X script c).toOption.map Prod.fst).getD []

theorem traceScript_executed {X : Programs} {script : List (Clock × Instr)} {c : Chain}
    (h : (traceScript X script c).isOk) :
    ∃ c', traceScript X script c = .ok (executed X script c, c') := by
  obtain ⟨⟨entries, c'⟩, hrun⟩ := isOk_iff.mp h
  exact ⟨c', by simp [executed, hrun, Except.toOption]⟩

theorem executed_last (X : Programs) (script : List (Clock × Instr)) (c : Chain) (p : Entry → Bool)
    (h : (executed X script c).getLast?.any p = true) :
    ∃ past e, executed X script c = past ++ [e] ∧ p e = true := by
  obtain ⟨e, hlast, hp⟩ := (Option.any_eq_true p _).mp h
  obtain ⟨past, hpast⟩ := List.getLast?_eq_some_iff.mp hlast
  exact ⟨past, e, hpast, hp⟩

theorem bank_trace (may : Ledger → Settlement → Prop) {args : PoolConfigArgs}
    {script : List (Clock × Instr)} (hvalid : validateConfig args = .ok ())
    (h : (traceScript bank script (bankPool args)).isOk) :
    ∃ first c, Genesis bankGenesis ∧
      Trace bank may bankGenesis (first ++ executed bank script (bankPool args)) c := by
  have hfounded : Relation.ReflTransGen (SettlingStep bank may) bankGenesis (bankPool args) :=
    (runScript_steps (fun _ _ _ => trivial) (founding_run hvalid)).lift id fun _ _ => .run
  obtain ⟨first, hfirst⟩ := Trace.exists hfounded
  obtain ⟨c, hrun⟩ := traceScript_executed h
  exact ⟨first, c, ⟨rfl, rfl, rfl, rfl, rfl, rfl, rfl⟩, hfirst.trans (traceScript_trace hrun)⟩

end ByeMachine
