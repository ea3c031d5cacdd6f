import ByeMachine.Invariants.Runs
import ByeMachine.Script

/-!
# The stored blanks are what the controller targets

Every move of the real set re-evaluates the controller. A configuration move
that re-targets it does not: over a real set it leaves the blanks of the old
faces and the old target in place.
-/

namespace ByeMachine

open Fallible

/-- The stored blanks are the controller's answer to the pool as it stands. -/
def Pool.Fresh (pool : Pool) : Prop :=
  ∃ b, Rebalance.evaluate pool.nReal pool.wReal pool.blankFaces pool.ticketTarget = .ok b ∧
    pool.blanks = b.toBlanks

/-- A configuration move that re-targets the controller over a real set. -/
def Retargets (pool : Pool) (update : ConfigUpdate) : Prop :=
  requiresWeightFreeze pool update = true ∧ 0 < pool.nReal ∧
    ((applyUpdate pool update).blankFaces ≠ pool.blankFaces ∨
      (applyUpdate pool update).ticketTarget ≠ pool.ticketTarget)

-- A pool that holds no card yet is not re-targeted by another ticket price.
example : ¬Retargets (genesisPool 0 (.key 9) (defaultArgs .default) 255)
    (.pricing DEFAULT_PRICE 8000000 DEFAULT_FEE) := by
  unfold Retargets
  decide +kernel

def KeepsTargets (c : Chain) : Instr → Prop
  | .updateConfig _ key _ update =>
    ∀ pool, c.pools.lookup key = some pool → ¬Retargets pool update
  | _ => True

variable {X : Programs} {c : Chain} {key : Pubkey} {L L' : Ledger}

theorem Pool.Fresh.of_eq {pool pool' : Pool} (h : pool.Fresh) (hn : pool'.nReal = pool.nReal)
    (hw : pool'.wReal = pool.wReal) (hfaces : pool'.blankFaces = pool.blankFaces)
    (htarget : pool'.ticketTarget = pool.ticketTarget) (hblanks : pool'.blanks = pool.blanks) :
    pool'.Fresh := by
  unfold Pool.Fresh
  rw [hn, hw, hfaces, htarget, hblanks]
  exact h

theorem Pool.Fresh.of_empty {pool pool' : Pool} (h : pool.Fresh) (hzero : pool.nReal = 0)
    (hn : pool'.nReal = 0) (hblanks : pool'.blanks = pool.blanks) : pool'.Fresh := by
  obtain ⟨b, hb, heq⟩ := h
  rw [hzero] at hb
  obtain rfl := Except.ok.inj hb
  exact ⟨_, by rw [hn]; rfl, hblanks.trans heq⟩

theorem Ledger.Founded.fresh (h : L.Founded) : L.pool.Fresh := by
  obtain ⟨key, poolId, weightIndex, args, bump, tierBump, -, rfl⟩ := h
  refine ⟨⟨0, 0, 0⟩, rfl, ?_⟩
  funext d
  revert d
  exact Fin.forall_fin_succ.mpr ⟨rfl, Fin.forall_fin_two.mpr ⟨rfl, rfl⟩⟩

theorem Move.fresh (h : Move L L') (hfresh : L.pool.Fresh) : L'.pool.Fresh := by
  cases h with
  | activate _ _ _ _ _ htargets => exact ⟨_, htargets, rfl⟩
  | revalue _ _ _ _ _ _ _ htargets => exact ⟨_, htargets, rfl⟩
  | depart _ _ hfrom => exact ⟨_, hfrom.targets, rfl⟩
  | withdraw _ _ hfrom => exact ⟨_, hfrom.targets, rfl⟩
  | leave | join | swap | retire | release | credit => exact hfresh
  | commit | tick => exact hfresh.of_eq rfl rfl rfl rfl rfl

theorem Moves.fresh (h : Moves L L') (hfresh : L.pool.Fresh) : L'.pool.Fresh := by
  induction h with
  | refl => exact hfresh
  | tail _ hmove ih => exact hmove.fresh ih

theorem Intake.fresh (h : Intake L L') (hfresh : L.pool.Fresh) : L'.pool.Fresh := by
  cases h
  exact hfresh.of_eq rfl rfl rfl rfl rfl

theorem Configure.fresh {update : ConfigUpdate} (h : Configure update L L')
    (hkeeps : ¬Retargets L.pool update) (hfresh : L.pool.Fresh) : L'.pool.Fresh := by
  cases h
  have hsame := applyUpdate_sameLedger L.pool update
  obtain ⟨hn, hw, hblanks⟩ := And.intro hsame.nReal (And.intro hsame.wReal hsame.blanks)
  cases hfreeze : requiresWeightFreeze L.pool update with
  | false =>
    obtain ⟨hfaces, htarget⟩ := applyUpdate_targets hfreeze
    exact hfresh.of_eq hn hw hfaces htarget hblanks
  | true =>
    obtain hzero | hpos := Nat.eq_zero_or_pos L.pool.nReal
    · exact hfresh.of_empty hzero (hn.trans hzero) hblanks
    · have hstands : (applyUpdate L.pool update).blankFaces = L.pool.blankFaces ∧
          (applyUpdate L.pool update).ticketTarget = L.pool.ticketTarget := by
        by_contra hmoved
        exact hkeeps ⟨hfreeze, hpos, by tauto⟩
      exact hfresh.of_eq hn hw hstands.1 hstands.2 hblanks

theorem Change.fresh {update : Option ConfigUpdate} (h : Change update L L')
    (hkeeps : ∀ u, update = some u → ¬Retargets L.pool u) (hfresh : L.pool.Fresh) :
    L'.pool.Fresh := by
  cases h with
  | moves hmoves => exact Moves.fresh hmoves hfresh
  | intake hintake hmoves => exact Moves.fresh hmoves (hintake.fresh hfresh)
  | configure hupdate hconfig => exact hconfig.fresh (hkeeps _ hupdate) hfresh

/-- In every run that never re-targets the controller over a real set, every pool's blanks are
what the controller targets. -/
theorem reachable_fresh (h : ReachableWhere X KeepsTargets c) {pool : Pool}
    (hpool : c.pools.lookup key = some pool) : pool.Fresh := by
  obtain ⟨L, -, hreads, rfl⟩ := h.sound.ledger hpool
  refine h.ledger (P := fun L => L.pool.Fresh) (fun L hfounded => hfounded.fresh) ?_ hreads
  intro c key L L' update hL _ _ hchange hallowed hfresh
  refine hchange.fresh (fun u hu => ?_) hfresh
  obtain ⟨administrator, remaining, hkeeps⟩ := hallowed u hu
  exact hkeeps L.pool hL.pool

theorem reachable_fresh_bank :
    ∃ pool, (bankRun [admitCards, depositCard 30, approveCard 30 12000000 100,
      configure (.admissionFloor 15000000)]).pools.lookup (.pool 0) = some pool ∧
        pool.nReal = 1 ∧ pool.Fresh := by
  have hn : ((bankRun [admitCards, depositCard 30, approveCard 30 12000000 100,
    configure (.admissionFloor 15000000)]).pools.lookup (.pool 0)).map (·.nReal) = some 1 := by
    decide +kernel
  obtain ⟨pool, hpool, hreal⟩ := Option.map_eq_some_iff.mp hn
  have hreachable : ReachableWhere bank KeepsTargets (bankRun [admitCards, depositCard 30,
      approveCard 30 12000000 100, configure (.admissionFloor 15000000)]) := by
    refine bank_reachable defaultArgs_valid (fun s hs c => ?_) (by decide +kernel)
    simp only [founding, List.cons_append, List.nil_append, List.mem_cons, List.not_mem_nil,
      or_false] at hs
    obtain rfl | rfl | rfl | rfl | rfl | rfl := hs
    case inr.inr.inr.inr.inr => exact fun pool _ hretargets => by cases hretargets.1
    all_goals trivial
  exact ⟨pool, hpool, hreal, reachable_fresh hreachable hpool⟩

/-- Faces of `$8` set over one real card: the controller now targets two `$2` blanks, and the
batch opened next has none. -/
theorem stale_after_faces :
    ∃ pool, Reachable bank (bankRun [admitCards, depositCard 30, approveCard 30 12000000 100,
        configure (.blankFaces fun _ => 8000000), commitBatch 1]) ∧
      (bankRun [admitCards, depositCard 30, approveCard 30 12000000 100,
        configure (.blankFaces fun _ => 8000000), commitBatch 1]).pools.lookup (.pool 0)
          = some pool ∧
      pool.openBatches = 1 ∧ ¬pool.Fresh := by
  have hstale : ((bankRun [admitCards, depositCard 30, approveCard 30 12000000 100,
      configure (.blankFaces fun _ => 8000000), commitBatch 1]).pools.lookup (.pool 0)).map
        (fun pool => (pool.openBatches, pool.blanks 1, Rebalance.evaluate pool.nReal pool.wReal
          pool.blankFaces pool.ticketTarget)) = some (1, 0, .ok ⟨0, 2, 0⟩) := by decide +kernel
  obtain ⟨pool, hpool, heq⟩ := Option.map_eq_some_iff.mp hstale
  simp only [Prod.mk.injEq] at heq
  obtain ⟨hopen, hblanks, hevaluate⟩ := heq
  refine ⟨pool, bankRun_reachable (by decide +kernel), hpool, hopen, ?_⟩
  rintro ⟨b, hb, hfresh⟩
  rw [hevaluate] at hb
  obtain rfl := Except.ok.inj hb
  rw [hfresh] at hblanks
  exact absurd hblanks (by decide)

end ByeMachine
