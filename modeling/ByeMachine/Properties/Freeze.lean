import ByeMachine.Invariants.Settlement
import ByeMachine.Script

/-!
# The draw domain is frozen while a batch is open

Whatever a batch's draw depends on stands from the commitment on, so the domain
its callback records is the one the roller committed against.
-/

namespace ByeMachine

open Fallible

/-- The pool's part in the draw domain: what it weighs, what it targets, and the index. -/
structure Ledger.SameDomain (L L' : Ledger) : Prop where
  wReal : L'.pool.wReal = L.pool.wReal
  nReal : L'.pool.nReal = L.pool.nReal
  blanks : L'.pool.blanks = L.pool.blanks
  blankFaces : L'.pool.blankFaces = L.pool.blankFaces
  ticketTarget : L'.pool.ticketTarget = L.pool.ticketTarget
  weightIndex : L'.weightIndex = L.weightIndex

structure Ledger.Frozen (L L' : Ledger) : Prop where
  domain : L.SameDomain L'
  openBatches : L'.pool.openBatches = L.pool.openBatches

variable {X : Programs} {may : Ledger → Settlement → Prop} {c c₀ c₁ c₂ : Chain} {key : Pubkey}
  {L L' L'' : Ledger}

theorem Ledger.SameDomain.refl (L : Ledger) : L.SameDomain L := ⟨rfl, rfl, rfl, rfl, rfl, rfl⟩

theorem Ledger.SameDomain.trans (h : L.SameDomain L') (h' : L'.SameDomain L'') :
    L.SameDomain L'' where
  wReal := h'.wReal.trans h.wReal
  nReal := h'.nReal.trans h.nReal
  blanks := h'.blanks.trans h.blanks
  blankFaces := h'.blankFaces.trans h.blankFaces
  ticketTarget := h'.ticketTarget.trans h.ticketTarget
  weightIndex := h'.weightIndex.trans h.weightIndex

theorem Ledger.Frozen.refl (L : Ledger) : L.Frozen L := ⟨.refl L, rfl⟩

theorem Ledger.Frozen.trans (h : L.Frozen L') (h' : L'.Frozen L'') : L.Frozen L'' :=
  ⟨h.domain.trans h'.domain, h'.openBatches.trans h.openBatches⟩

-- ---------------------------------------------------------------------------
-- One step
-- ---------------------------------------------------------------------------

/-- Every move that would change the domain is guarded; the others leave it alone. -/
theorem Move.frozen (h : Move L L') (hopen : 0 < L.pool.openBatches) : L.Frozen L' := by
  cases h with
  | activate _ _ hzero | revalue _ _ hzero | commit hzero | leave _ _ hzero =>
    exact absurd hzero hopen.ne'
  | depart _ _ hfrom | withdraw _ _ hfrom => exact absurd hfrom.opened hopen.ne'
  | join | swap | retire | release | credit => exact ⟨⟨rfl, rfl, rfl, rfl, rfl, rfl⟩, rfl⟩
  | tick => exact ⟨⟨rfl, rfl, rfl, rfl, rfl, rfl⟩, rfl⟩

theorem Moves.frozen (h : Moves L L') (hopen : 0 < L.pool.openBatches) : L.Frozen L' := by
  induction h with
  | refl => exact .refl L
  | tail _ hmove ih => exact ih.trans (hmove.frozen (by rw [ih.openBatches]; exact hopen))

theorem Intake.frozen (h : Intake L L') : L.Frozen L' := by
  cases h
  exact ⟨⟨rfl, rfl, rfl, rfl, rfl, rfl⟩, rfl⟩

theorem Configure.frozen {update : ConfigUpdate} (h : Configure update L L')
    (hopen : 0 < L.pool.openBatches) : L.Frozen L' := by
  cases h with
  | intro hvalid hfreeze hdemote =>
    have hsame := applyUpdate_sameLedger L.pool update
    have hunfrozen : requiresWeightFreeze L.pool update = false := by
      cases hrequires : requiresWeightFreeze L.pool update with
      | false => rfl
      | true => exact absurd (hfreeze hrequires) hopen.ne'
    obtain ⟨hfaces, htarget⟩ := applyUpdate_targets hunfrozen
    exact ⟨⟨hsame.wReal, hsame.nReal, hsame.blanks, hfaces, htarget, rfl⟩, hsame.openBatches⟩

theorem Change.frozen {update : Option ConfigUpdate} (h : Change update L L')
    (hopen : 0 < L.pool.openBatches) : L.Frozen L' := by
  cases h with
  | moves hmoves => exact Moves.frozen hmoves hopen
  | intake hintake hmoves =>
    have hfrozen := hintake.frozen
    exact hfrozen.trans (Moves.frozen hmoves (by rw [hfrozen.openBatches]; exact hopen))
  | configure hupdate hconfig => exact hconfig.frozen hopen

-- ---------------------------------------------------------------------------
-- A run
-- ---------------------------------------------------------------------------

/-- A settlement of another pool, or one that leaves this pool a batch open. -/
def LeavesOpen (key : Pubkey) (may : Ledger → Settlement → Prop) (L : Ledger) (s : Settlement) :
    Prop := may L s ∧ (key = .pool L.pool.poolId → 0 < s.openBatches)

theorem Ledger.SameDomain.settled (L : Ledger) (s : Settlement) : L.SameDomain (L.settled s) :=
  ⟨rfl, rfl, rfl, rfl, rfl, rfl⟩

theorem frozen_of_steps (hsteps : Relation.ReflTransGen (SettlingStep X (LeavesOpen key may)) c₁ c₂)
    (hsound : c₁.Sound) (hL : c₁.Reads key L) (hopen : 0 < L.pool.openBatches) :
    c₂.Sound ∧ ∃ L', c₂.Reads key L' ∧ L.SameDomain L' ∧ 0 < L'.pool.openBatches := by
  induction hsteps with
  | refl => exact ⟨hsound, L, hL, .refl L, hopen⟩
  | tail hsteps hstep ih =>
    obtain ⟨hsound', M, hM, hdomain, hstill⟩ := ih
    refine ⟨hstep.sound hsound', ?_⟩
    cases hstep with
    | run hstep =>
      obtain ⟨configures, heffect, -⟩ := hstep.effect hsound'
      obtain ⟨M', hM', hchange⟩ := heffect.forward hsound'.wellFormed hM
      have hfrozen := hchange.frozen hstill
      exact ⟨M', hM', hdomain.trans hfrozen.domain, by rw [hfrozen.openBatches]; exact hstill⟩
    | @settle other N s hN hmay =>
      by_cases hkey : key = other
      · subst hkey
        obtain rfl := hM.unique hN
        exact ⟨_, settle_reads hsound'.wellFormed hM, hdomain.trans (.settled M s),
          hmay.2 (hsound'.wellFormed.poolKey key M.pool hM.pool)⟩
      · exact ⟨M, settle_reads_other hsound'.wellFormed hN hkey hM, hdomain, hstill⟩

theorem batches_of_steps (hsteps : Relation.ReflTransGen (SettlingStep X may) c₁ c₂)
    (hsound : c₁.Sound) : c₂.Sound ∧ BatchesKept c₁ c₂ := by
  induction hsteps with
  | refl => exact ⟨hsound, .of_eq rfl⟩
  | tail hsteps hstep ih =>
    obtain ⟨hsound', hkept⟩ := ih
    refine ⟨hstep.sound hsound', hkept.trans ?_⟩
    cases hstep with
    | run hstep =>
      obtain ⟨configures, heffect, -⟩ := hstep.effect hsound'
      exact heffect.batches
    | settle => exact .of_eq (settle_rollBatches _ _ _)

/-- What a commitment leaves: the domain as it was, and a batch under the pool's faces. -/
theorem commitRolls_domain {clock : Clock} {roller rollerUsdc : Pubkey} {n : ℕ}
    {events : List Event} (hsound : c₀.Sound)
    (h : exec X clock c₀ (.commitRolls roller key rollerUsdc n) = .ok (c₁, events)) :
    ∃ L₀ L₁ batch, c₀.Reads key L₀ ∧ c₁.Reads key L₁ ∧ L₀.SameDomain L₁ ∧
      0 < L₁.pool.openBatches ∧
      c₁.rollBatches.lookup (.rollBatch key L₀.pool.batchCounter) = some batch ∧
      batch.pool = key ∧ batch.sBlankFaces = L₀.pool.blankFaces := by
  have hrun := h
  simp only [exec, commitRolls, bind_ok, require_ok, pure_ok, Prod.mk.injEq, Prod.exists] at h
  obtain ⟨_, -, _, -, pool, hpool, topTier, -, _, -, _, -, _, -, _, -, _, -, _, -, pool', batchId, _,
    hcommit, _, -, _, -, rfl, -⟩ := h
  obtain ⟨L₀, hL₀, rfl, -⟩ := hsound.wellFormed.loadPool hpool
  obtain ⟨L₁, hL₁, -⟩ := (exec_effect hsound.wellFormed hsound.ranked hrun).forward
    hsound.wellFormed hL₀
  obtain ⟨hopen, -, rfl, rfl⟩ := applyCommit_ok hcommit
  have hpool₁ := hL₁.pool
  rw [Finmap.lookup_insert, Option.some.injEq] at hpool₁
  have hindex : L₁.weightIndex = L₀.weightIndex := by
    have hindex₁ := hL₁.weightIndex
    rw [← hpool₁] at hindex₁
    exact Option.some.inj (hindex₁.symm.trans hL₀.weightIndex)
  refine ⟨L₀, L₁, _, hL₀, hL₁, ⟨?_, ?_, ?_, ?_, ?_, hindex⟩, ?_, Finmap.lookup_insert _, rfl, rfl⟩
  all_goals rw [← hpool₁]
  exact Nat.succ_pos _

/-- From a commitment on, while the pool has a batch open, the draw domain stands, and a callback for
the batch records the domain of the commitment. -/
theorem drawDomain_frozen {clock : Clock} {roller rollerUsdc : Pubkey} {n : ℕ}
    {events : List Event} (h : SettlingReachable X may c₀)
    (hcommit : exec X clock c₀ (.commitRolls roller key rollerUsdc n) = .ok (c₁, events))
    (hsteps : Relation.ReflTransGen (SettlingStep X (LeavesOpen key may)) c₁ c₂) :
    ∃ L₀ L₁ L₂, c₀.ledger key = some L₀ ∧ c₁.ledger key = some L₁ ∧ c₂.ledger key = some L₂ ∧
      L₀.SameDomain L₁ ∧ L₁.SameDomain L₂ ∧ 0 < L₂.pool.openBatches ∧
      ∀ clock' signer poolKey randomness c₃ events',
        exec X clock' c₂ (.vrfCallback signer (.rollBatch key L₀.pool.batchCounter) poolKey
          randomness) = .ok (c₃, events') →
        ∃ batch, c₃.rollBatches.lookup (.rollBatch key L₀.pool.batchCounter) = some batch ∧
          batch.expectedBlanks = L₀.pool.blanks ∧
          aggregateWeight L₀.pool.wReal L₀.pool.blanks batch.sBlankFaces = .ok batch.expectedW := by
  obtain ⟨L₀, L₁, batch, hL₀, hL₁, hsame, hopen, hbatch, hpool, hfaces⟩ :=
    commitRolls_domain h.sound hcommit
  have hsound₁ : c₁.Sound :=
    (StepWhere.instruction clock _ events trivial hcommit : Step X c₀ c₁).sound h.sound
  obtain ⟨-, L₂, hL₂, hstands, hstill⟩ := frozen_of_steps hsteps hsound₁ hL₁ hopen
  refine ⟨L₀, L₁, L₂, ledger_eq_some.mpr hL₀, ledger_eq_some.mpr hL₁, ledger_eq_some.mpr hL₂, hsame,
    hstands, hstill, ?_⟩
  intro clock' signer poolKey randomness c₃ events' hcallback
  obtain ⟨batch', hbatch', hpool', hfaces'⟩ := (batches_of_steps hsteps hsound₁).2 _ _ hbatch
  simp only [exec, vrfCallback, applyResolve, bind_ok, require_ok, okOr_ok, pure_ok,
    Prod.mk.injEq, loadPool_ok] at hcallback
  obtain ⟨-, -, found, hfound, -, -, pool, ⟨hread, -⟩, -, hkey, _, ⟨-, -, w, hw, rfl⟩, rfl, -⟩ :=
    hcallback
  obtain rfl := Option.some.inj (hbatch'.symm.trans hfound)
  rw [hkey, hpool', hpool] at hread
  obtain rfl := Option.some.inj (hL₂.pool.symm.trans hread)
  have hdomain := hsame.trans hstands
  refine ⟨_, Finmap.lookup_insert _, hdomain.blanks, ?_⟩
  rw [hdomain.wReal, hdomain.blanks, hdomain.blankFaces] at hw
  show aggregateWeight L₀.pool.wReal L₀.pool.blanks batch'.sBlankFaces = .ok w
  rw [hfaces', hfaces]
  exact hw

def bankDrawn : Chain :=
  (bankRun [admitCards, depositCard 30, approveCard 30 12000000 100, commitBatch 1]).settle (.pool 0)
    ⟨3 * ACC_PRECISION, 0, 0, 0, 0⟩

/-- A second batch opens, another card is deposited and fees come in. -/
theorem drawDomain_frozen_bank :
    ∃ (c₀ c₁ c₂ : Chain) (L₀ L₁ L₂ : Ledger), SettlingReachable bank (fun _ _ => True) c₀ ∧
      L₀.pool.batchCounter = 1 ∧ c₀.ledger (.pool 0) = some L₀ ∧
      c₁.ledger (.pool 0) = some L₁ ∧ c₂.ledger (.pool 0) = some L₂ ∧ L₀.SameDomain L₁ ∧
      L₁.SameDomain L₂ ∧ 0 < L₂.pool.openBatches := by
  have hdrawn : SettlingReachable bank (fun _ _ => True) bankDrawn :=
    bankRun_settled (by decide +kernel) (by decide +kernel) fun _ => trivial
  obtain ⟨events, hcommit⟩ := exec_after (X := bank) (s := commitBatch 1) (c := bankDrawn)
    (by decide +kernel)
  have hcounter : (bankDrawn.ledger (.pool 0)).map (·.pool.batchCounter) = some 1 := by
    decide +kernel
  have hdeposit : Relation.ReflTransGen (Step bank) _ _ := @steps_after bank _
    (bankDrawn.after bank [commitBatch 1]) [depositCard 31] (fun _ _ _ => trivial)
    (by decide +kernel)
  obtain ⟨N, hN⟩ := Option.isSome_iff_exists.mp (show (((bankDrawn.after bank
    [commitBatch 1]).after bank [depositCard 31]).ledger (.pool 0)).isSome by decide +kernel)
  have hsteps : Relation.ReflTransGen (SettlingStep bank (LeavesOpen (.pool 0) fun _ _ => True)) _
      (((bankDrawn.after bank [commitBatch 1]).after bank [depositCard 31]).settle (.pool 0)
        ⟨4 * ACC_PRECISION, 0, 0, 0, 1⟩) :=
    (hdeposit.lift id fun _ _ => .run).tail
      (.settle (ledger_eq_some.mp hN) ⟨trivial, fun _ => Nat.one_pos⟩)
  obtain ⟨L₀, L₁, L₂, hL₀, hL₁, hL₂, hcommitted, hframe, hopen, -⟩ :=
    drawDomain_frozen hdrawn hcommit hsteps
  rw [hL₀, Option.map_some, Option.some.injEq] at hcounter
  exact ⟨_, _, _, L₀, L₁, L₂, hdrawn, hcounter, hL₀, hL₁, hL₂, hcommitted, hframe, hopen⟩

end ByeMachine
