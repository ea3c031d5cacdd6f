import ByeMachine.Refinement.Fate
import ByeMachine.Script

/-!
# Runs on a clock

A run carries the clock it has reached: each instruction runs at a clock no
earlier than the last. An activation is never later than the clock.
-/

namespace ByeMachine

open Fallible

variable {X : Programs} {allowed : Chain → Instr → Prop} {c c' : Chain} {now now' : ℤ}

/-- A step taken no earlier than `now`. -/
inductive TimedStep (X : Programs) (allowed : Chain → Instr → Prop) :
    Chain × ℤ → Chain × ℤ → Prop where
  | instruction {c c' : Chain} {now : ℤ} (clock : Clock) (instr : Instr) (events : List Event)
      (later : now ≤ clock.unixTimestamp) (permitted : allowed c instr)
      (run : exec X clock c instr = .ok (c', events)) :
      TimedStep X allowed (c, now) (c', clock.unixTimestamp)
  | elsewhere {c : Chain} {now now' : ℤ} (tokens : Tokens) (externals : Externals)
      (later : now ≤ now') (untouched : Untouched c.tokens tokens) :
      TimedStep X allowed (c, now) ({ c with tokens, externals }, now')

abbrev TimedSteps (X : Programs) (allowed : Chain → Instr → Prop) :
    Chain × ℤ → Chain × ℤ → Prop := Relation.ReflTransGen (TimedStep X allowed)

/-- What a run from genesis reaches, and the clock it reaches it at. -/
def TimedReachable (X : Programs) (c : Chain) (now : ℤ) : Prop :=
  ∃ c₀ now₀, Genesis c₀ ∧ TimedSteps X (fun _ _ => True) (c₀, now₀) (c, now)

theorem TimedStep.untimed (h : TimedStep X allowed (c, now) (c', now')) :
    StepWhere X allowed c c' := by
  cases h with
  | instruction clock instr events later permitted run =>
    exact .instruction clock instr events permitted run
  | elsewhere tokens externals later untouched => exact .elsewhere tokens externals untouched

theorem TimedStep.le (h : TimedStep X allowed (c, now) (c', now')) : now ≤ now' := by
  cases h with
  | instruction clock instr events later => exact later
  | elsewhere tokens externals later => exact later

theorem TimedSteps.untimed (h : TimedSteps X allowed (c, now) (c', now')) :
    Relation.ReflTransGen (StepWhere X allowed) c c' :=
  h.lift Prod.fst fun _ _ hstep => hstep.untimed

theorem TimedReachable.sound (h : TimedReachable X c now) : c.Sound := by
  obtain ⟨c₀, now₀, hgenesis, hsteps⟩ := h
  exact sound_of_steps hsteps.untimed hgenesis.sound

-- ---------------------------------------------------------------------------
-- Scripts on a clock
-- ---------------------------------------------------------------------------

/-- The clocks of a script never go back, from `now` on. -/
def Ordered : ℤ → List (Clock × Instr) → Prop
  | _, [] => True
  | now, s :: rest => now ≤ s.1.unixTimestamp ∧ Ordered s.1.unixTimestamp rest

instance decidableOrdered : (now : ℤ) → (script : List (Clock × Instr)) →
    Decidable (Ordered now script)
  | _, [] => .isTrue trivial
  | now, s :: rest =>
    have := decidableOrdered s.1.unixTimestamp rest
    inferInstanceAs (Decidable (now ≤ s.1.unixTimestamp ∧ Ordered s.1.unixTimestamp rest))

def endsAt : ℤ → List (Clock × Instr) → ℤ
  | now, [] => now
  | _, s :: rest => endsAt s.1.unixTimestamp rest

theorem runScript_timed {script : List (Clock × Instr)} (hordered : Ordered now script)
    (hallowed : ∀ s ∈ script, ∀ c, allowed c s.2) (h : runScript X script c = .ok c') :
    TimedSteps X allowed (c, now) (c', endsAt now script) := by
  induction script generalizing c now with
  | nil =>
    simp only [runScript, List.foldlM_nil, pure_ok] at h
    exact h ▸ .refl
  | cons s rest ih =>
    simp only [runScript, List.foldlM_cons, bind_ok] at h
    obtain ⟨next, hstep, hrest⟩ := h
    obtain ⟨events, hrun⟩ := exec_of_map hstep
    exact .head (.instruction s.1 s.2 events hordered.1 (hallowed s (by simp) c) hrun)
      (ih hordered.2 (fun s hs => hallowed s (by simp [hs])) hrest)

theorem bankRun_timed {script : List (Clock × Instr)} (hordered : Ordered 0 script)
    (h : (runScript bank script (bankPool (defaultArgs .default))).isOk) :
    TimedReachable bank (bankRun script) (endsAt 0 script) :=
  ⟨bankGenesis, 0, ⟨rfl, rfl, rfl, rfl, rfl, rfl, rfl⟩,
    (runScript_timed (by decide) (fun _ _ _ => trivial) (founding_run defaultArgs_valid)).trans
      (runScript_timed hordered (fun _ _ _ => trivial) (runScript_after h))⟩

end ByeMachine
