import ByeMachine.Invariants.Settlement
import ByeMachine.Invariants.Timed

/-!
# Ids and activation times

Whatever settlements come between the instructions, ids fit the 64 bits they are
stored in, and every active position was activated while the run's clock ran.
-/

namespace ByeMachine

open Fallible

variable {X : Programs} {c c' : Chain} {first now now' : ℤ}

/-- A step on the clock, or a settlement that writes anything. -/
inductive ClockStep (X : Programs) : Chain × ℤ → Chain × ℤ → Prop where
  | run {s s' : Chain × ℤ} (hstep : TimedStep X (fun _ _ => True) s s') : ClockStep X s s'
  | settle {c : Chain} {key : Pubkey} {L : Ledger} {s : Settlement} {now : ℤ} (hL : c.Reads key L) :
      ClockStep X (c, now) (c.settle key s, now)

/-- What a run reaches on a clock that is an `i64` throughout. -/
def ClockReachable (X : Programs) (c : Chain) (now : ℤ) : Prop :=
  ∃ c₀ first, Genesis c₀ ∧ -2 ^ 63 ≤ first ∧
    Relation.ReflTransGen (ClockStep X) (c₀, first) (c, now) ∧ now < 2 ^ 63

/-- Every id fits, and every activation lies between the start of the run and now. -/
structure Stamped (first now : ℤ) (c : Chain) : Prop where
  id : ∀ k p, c.positions.lookup k = some p → p.positionId < 2 ^ 64
  activated : ∀ k p, c.positions.lookup k = some p → p.state = .active →
    first ≤ p.activatedAt ∧ p.activatedAt ≤ now

theorem Stamped.exec {clock : Clock} {instr : Instr} {events : List Event}
    (h : Stamped first now c) (hfirst : first ≤ now) (hlater : now ≤ clock.unixTimestamp)
    (hrun : exec X clock c instr = .ok (c', events)) : Stamped first clock.unixTimestamp c' := by
  have hfate : ∀ k q, c'.positions.lookup k = some q → q.positionId < 2 ^ 64 ∧
      (q.state = .active → first ≤ q.activatedAt ∧ q.activatedAt ≤ clock.unixTimestamp) := by
    intro k q hq
    have hfate := exec_fate hrun k
    have hsame : ∀ p, c.positions.lookup k = some p → q.positionId = p.positionId →
        (q.state = .active → p.state = .active ∧ q.activatedAt = p.activatedAt) →
        q.positionId < 2 ^ 64 ∧
          (q.state = .active → first ≤ q.activatedAt ∧ q.activatedAt ≤ clock.unixTimestamp) := by
      intro p hp hid hstate
      refine ⟨hid ▸ h.id k p hp, fun hactive => ?_⟩
      obtain ⟨hpactive, hactivated⟩ := hstate hactive
      obtain ⟨hlow, hhigh⟩ := h.activated k p hp hpactive
      rw [hactivated]
      exact ⟨hlow, hhigh.trans hlater⟩
    have hterms : ∀ {p q : Position}, q.terms = p.terms → q.positionId = p.positionId ∧
        q.state = p.state ∧ q.activatedAt = p.activatedAt := by
      intro p q hterms
      have hid := congrArg Position.positionId hterms
      have hstate := congrArg Position.state hterms
      have hactivated := congrArg Position.activatedAt hterms
      exact ⟨hid, hstate, hactivated⟩
    rw [hq] at hfate
    generalize hbefore : c.positions.lookup k = before at hfate hsame
    cases hfate with
    | kept hkept =>
      obtain ⟨p, rfl, hp⟩ := Option.map_eq_some_iff.mp hkept.symm
      obtain ⟨hid, hstate, hactivated⟩ := hterms hp.symm
      exact hsame p rfl hid fun hactive => ⟨hstate.symm.trans hactive, hactivated⟩
    | taken _ _ _ hcounter | takenCore _ _ hcounter =>
      exact ⟨(Nat.lt_succ_self _).trans hcounter, fun hactive => by cases hactive⟩
    | @approved _ _ _ _ _ _ _ _ p _ _ happroved =>
      obtain ⟨hid, -, hactivated⟩ := hterms happroved
      refine ⟨by rw [hid]; exact h.id k p hbefore, fun _ => ?_⟩
      rw [hactivated]
      exact ⟨hfirst.trans hlater, le_rfl⟩
    | @rejected _ _ p => exact hsame p rfl rfl fun hactive => by cases hactive
    | @revalued _ _ _ _ _ _ p _ _ hstate _ hrevalued =>
      obtain ⟨hid, -, hactivated⟩ := hterms hrevalued
      exact hsame p rfl hid fun _ => ⟨hstate, hactivated⟩
    | @closed _ _ _ _ _ _ p _ _ _ _ hclosed =>
      obtain ⟨hid, hstate, -⟩ := hterms hclosed
      exact hsame p rfl hid fun hactive => by rw [hstate] at hactive; cases hactive
    | @seized _ _ _ _ _ p _ _ _ _ _ hseized =>
      obtain ⟨hid, hstate, -⟩ := hterms hseized
      exact hsame p rfl hid fun hactive => by rw [hstate] at hactive; cases hactive
  exact ⟨fun k q hq => (hfate k q hq).1, fun k q hq => (hfate k q hq).2⟩

theorem ClockStep.stamped (h : ClockStep X (c, now) (c', now')) (hfirst : first ≤ now)
    (hstamped : Stamped first now c) : Stamped first now' c' ∧ first ≤ now' := by
  generalize hs : (c, now) = s, hs' : (c', now') = s' at h
  cases h with
  | run hstep =>
    subst hs hs'
    refine ⟨?_, hfirst.trans hstep.le⟩
    cases hstep with
    | instruction clock instr events later permitted run => exact hstamped.exec hfirst later run
    | elsewhere tokens externals later =>
      exact ⟨hstamped.id, fun k p hp hactive =>
        (hstamped.activated k p hp hactive).imp id fun hle => hle.trans later⟩
  | settle =>
    obtain ⟨rfl, rfl⟩ := Prod.mk.inj hs
    obtain ⟨rfl, rfl⟩ := Prod.mk.inj hs'
    refine ⟨⟨fun k p hp => ?_, fun k p hp => ?_⟩, hfirst⟩
    · rw [settle_positions] at hp
      exact hstamped.id k p hp
    · rw [settle_positions] at hp
      exact hstamped.activated k p hp

theorem ClockStep.settling (h : ClockStep X (c, now) (c', now')) :
    SettlingStep X (fun _ _ => True) c c' := by
  generalize hs : (c, now) = s, hs' : (c', now') = s' at h
  cases h with
  | run hstep =>
    subst hs hs'
    exact .run hstep.untimed
  | settle hL =>
    obtain ⟨rfl, rfl⟩ := Prod.mk.inj hs
    obtain ⟨rfl, rfl⟩ := Prod.mk.inj hs'
    exact .settle hL trivial

theorem ClockReachable.sound (h : ClockReachable X c now) : c.Sound := by
  obtain ⟨c₀, first, hgenesis, -, hsteps, -⟩ := h
  exact SettlingReachable.sound ⟨c₀, hgenesis, hsteps.lift Prod.fst fun _ _ hstep => hstep.settling⟩

theorem ClockReachable.stamped (h : ClockReachable X c now) :
    ∃ first, -2 ^ 63 ≤ first ∧ Stamped first now c := by
  obtain ⟨c₀, first, hgenesis, hlow, hsteps, -⟩ := h
  refine ⟨first, hlow, ?_⟩
  suffices hboth : ∀ s, Relation.ReflTransGen (ClockStep X) (c₀, first) s →
      Stamped first s.2 s.1 ∧ first ≤ s.2 from (hboth _ hsteps).1
  intro s hsteps
  induction hsteps with
  | refl =>
    refine ⟨⟨fun k p hp => ?_, fun k p hp => ?_⟩, le_rfl⟩ <;>
    · rw [hgenesis.positions] at hp
      cases hp
  | tail _ hstep ih => exact hstep.stamped ih.2 ih.1

theorem bank_clock {args : PoolConfigArgs} {script : List (Clock × Instr)}
    (hvalid : validateConfig args = .ok ()) (hordered : Ordered 0 script)
    (h : (runScript bank script (bankPool args)).isOk) (hend : endsAt 0 script < 2 ^ 63) :
    ClockReachable bank ((bankPool args).after bank script) (endsAt 0 script) := by
  have hstart : Ordered 0 (founding args) := ⟨le_rfl, le_rfl, trivial⟩
  have hfounded : TimedSteps bank (fun _ _ => True) (bankGenesis, 0) (bankPool args, 0) :=
    runScript_timed hstart (fun _ _ _ => trivial) (founding_run hvalid)
  have hsteps := hfounded.trans
    (runScript_timed hordered (fun _ _ _ => trivial) (runScript_after h))
  exact ⟨bankGenesis, 0, ⟨rfl, rfl, rfl, rfl, rfl, rfl, rfl⟩, by decide,
    hsteps.lift id fun _ _ => .run, hend⟩

end ByeMachine
