import ByeMachine.Invariants.Settlement
import ByeMachine.Properties.Configuration
import ByeMachine.Refinement.Pools

/-!
# The roll ledger

A pool's counter, its open batches and its liability against the batches that
were committed, over runs in which batches also end, as a settlement ends them.
-/

namespace ByeMachine

open Fallible

-- ---------------------------------------------------------------------------
-- Histories
-- ---------------------------------------------------------------------------

/-- An instruction that went through, between the ledgers around it. -/
structure Passage where
  before : Chain
  clock : Clock
  instr : Instr
  after : Chain

/-- What a roll ledger lives through: instructions, and batches that end. -/
inductive Happening where
  | ran (p : Passage)
  | completed (pool : Pubkey) (batchId : ℕ)

def RollBatch.owed (batch : RollBatch) : ℕ := batch.n * batch.sPrice

/-- The end of a batch takes its count and its liability; the accumulators may move with it. -/
structure Completes (L : Ledger) (batch : RollBatch) (s : Settlement) : Prop where
  openBatches : s.openBatches + 1 = L.pool.openBatches
  liability : s.pendingRollLiability + batch.owed = L.pool.pendingRollLiability

/-- A run with its history, oldest first. A batch ends at most once. -/
inductive RollRun (X : Programs) (c₀ : Chain) : List Happening → Chain → Prop where
  | start : RollRun X c₀ [] c₀
  | instruction {history : List Happening} {c c' : Chain} (hrun : RollRun X c₀ history c)
      (clock : Clock) (instr : Instr) (events : List Event)
      (hexec : exec X clock c instr = .ok (c', events)) :
      RollRun X c₀ (history ++ [.ran ⟨c, clock, instr, c'⟩]) c'
  | elsewhere {history : List Happening} {c : Chain} (hrun : RollRun X c₀ history c)
      (tokens : Tokens) (externals : Externals) (huntouched : Untouched c.tokens tokens) :
      RollRun X c₀ history { c with tokens, externals }
  | complete {history : List Happening} {c : Chain} {key : Pubkey} {batchId : ℕ} {L : Ledger}
      {batch : RollBatch} {s : Settlement} (hrun : RollRun X c₀ history c) (hL : c.Reads key L)
      (hbatch : c.rollBatches.lookup (.rollBatch key batchId) = some batch)
      (hopen : .completed key batchId ∉ history) (hcompletes : Completes L batch s) :
      RollRun X c₀ (history ++ [.completed key batchId]) (c.settle key s)

def Instr.commitsTo (key : Pubkey) : Instr → Bool
  | .commitRolls _ pool _ _ => pool = key
  | _ => false

def Instr.answers (batchKey : Pubkey) : Instr → Bool
  | .vrfCallback _ batch _ _ => batch = batchKey
  | _ => false

def Happening.passage (which : Instr → Bool) : Happening → Option Passage
  | .ran p => if which p.instr then some p else none
  | .completed .. => none

def Happening.completion (key : Pubkey) : Happening → Option ℕ
  | .ran _ => none
  | .completed pool batchId => if pool = key then some batchId else none

def commitments (key : Pubkey) (history : List Happening) : List Passage :=
  history.filterMap (Happening.passage (Instr.commitsTo key))

def callbacks (key : Pubkey) (history : List Happening) (batchId : ℕ) : List Passage :=
  history.filterMap (Happening.passage (Instr.answers (.rollBatch key batchId)))

def completions (key : Pubkey) (history : List Happening) : List ℕ :=
  history.filterMap (Happening.completion key)

def Chain.vaultAmount (c : Chain) (key : Pubkey) : ℕ :=
  ((c.tokens.lookup (.principalVault key)).map (·.amount)).getD 0

def Passage.paid (key : Pubkey) (p : Passage) : ℕ :=
  p.after.vaultAmount key - p.before.vaultAmount key

/-- The roll ledger a pool stands at; all zero before there is one. -/
structure Rolls where
  batchCounter : ℕ
  openBatches : ℕ
  pendingRollLiability : ℕ

def rollsOf : Option Pool → Rolls
  | none => ⟨0, 0, 0⟩
  | some pool => ⟨pool.batchCounter, pool.openBatches, pool.pendingRollLiability⟩

def Chain.batchesOf (c : Chain) (key : Pubkey) (batchId : ℕ) : Option RollBatch :=
  c.rollBatches.lookup (.rollBatch key batchId)

-- ---------------------------------------------------------------------------
-- The books
-- ---------------------------------------------------------------------------

structure RollBatch.Priced (batch : RollBatch) : Prop where
  covered : batch.sTicket ≤ batch.sPrice
  fee : batch.sFee = batch.sPrice - batch.sTicket
  allocation : batch.sAllocBps 0 + batch.sAllocBps 1 + batch.sAllocBps 2 = 10000
  count : 1 ≤ batch.n ∧ batch.n ≤ MAX_BATCH_CAPACITY

def RollBatch.resolved (batch : RollBatch) (randomness expectedW : ℕ)
    (expectedBlanks : Denomination → ℕ) : RollBatch :=
  { batch with state := .resolved, randomness, expectedW, expectedBlanks }

/-- A batch stands as it was committed until one callback finds it so, and as that one left it from
then on. -/
inductive Answered (batchKey : Pubkey) (written : RollBatch) : List Passage → RollBatch → Prop where
  | awaited : Answered batchKey written [] written
  | resolved {p : Passage} {signer pool : Pubkey} {randomness expectedW : ℕ}
      {expectedBlanks : Denomination → ℕ}
      (hinstr : p.instr = .vrfCallback signer batchKey pool randomness)
      (hbefore : p.before.rollBatches.lookup batchKey = some written)
      (hafter : p.after.rollBatches.lookup batchKey
        = some (written.resolved randomness expectedW expectedBlanks)) :
      Answered batchKey written [p] (written.resolved randomness expectedW expectedBlanks)

/-- One commitment: the batch it wrote, where none was, and what it paid in. -/
structure Commits (key : Pubkey) (batchId : ℕ) (p : Passage) (written : RollBatch) : Prop where
  fresh : p.before.batchesOf key batchId = none
  record : p.after.batchesOf key batchId = some written
  pool : written.pool = key
  batchId : written.batchId = batchId
  state : written.state = .committed
  unread : written.randomness = 0 ∧ written.expectedW = 0 ∧ written.expectedBlanks = fun _ => 0
  priced : written.Priced
  paid : p.after.vaultAmount key = p.before.vaultAmount key + written.owed

/-- The batches that were committed and have not ended. -/
def openIds (counter : ℕ) (ended : List ℕ) : List ℕ := (List.range counter).filter (· ∉ ended)

def owedFor (records : ℕ → Option RollBatch) (ids : List ℕ) : ℕ :=
  (ids.map fun id => ((records id).map RollBatch.owed).getD 0).sum

def paidFor (key : Pubkey) (committed : List Passage) (ids : List ℕ) : ℕ :=
  (ids.map fun id => ((committed[id]?).map (·.paid key)).getD 0).sum

/-- The roll ledger and the records agree with the history: the `id`-th commitment wrote batch
`id`, there are no other batches, and count and liability are those of the open ones. -/
structure RollBooks (key : Pubkey) (rolls : Rolls) (records : ℕ → Option RollBatch)
    (committed : List Passage) (answered : ℕ → List Passage) (ended : List ℕ) : Prop where
  counter : rolls.batchCounter = committed.length
  batches : ∀ id p, committed[id]? = some p → ∃ written batch, Commits key id p written ∧
    records id = some batch ∧ Answered (.rollBatch key id) written (answered id) batch
  beyond : ∀ id, rolls.batchCounter ≤ id → records id = none ∧ answered id = []
  closed : ∀ id ∈ ended, id < rolls.batchCounter
  openBatches : rolls.openBatches = (openIds rolls.batchCounter ended).length
  serial : rolls.openBatches ≤ 1
  owed : rolls.pendingRollLiability = owedFor records (openIds rolls.batchCounter ended)
  paid : rolls.pendingRollLiability = paidFor key committed (openIds rolls.batchCounter ended)

section Books

variable {key : Pubkey} {rolls : Rolls} {records : ℕ → Option RollBatch} {committed : List Passage}
  {answered : ℕ → List Passage} {ended : List ℕ} {id : ℕ} {p : Passage} {batch written : RollBatch}

theorem mem_openIds {counter : ℕ} : id ∈ openIds counter ended ↔ id < counter ∧ id ∉ ended := by
  simp [openIds]

theorem openIds_succ {counter : ℕ} (hfresh : counter ∉ ended) :
    openIds (counter + 1) ended = openIds counter ended ++ [counter] := by
  simp [openIds, List.range_succ, hfresh]

theorem openIds_ended {counter : ℕ} :
    openIds counter (ended ++ [id]) = (openIds counter ended).filter (· ≠ id) := by
  rw [openIds, openIds, List.filter_filter]
  congr 1
  funext x
  simp [and_comm]

theorem RollBooks.empty : RollBooks key ⟨0, 0, 0⟩ (fun _ => none) [] (fun _ => []) [] where
  counter := rfl
  batches := fun id p h => by simp at h
  beyond := fun _ _ => ⟨rfl, rfl⟩
  closed := fun id h => by simp at h
  openBatches := rfl
  serial := Nat.zero_le 1
  owed := rfl
  paid := rfl

theorem RollBooks.none_open (h : RollBooks key rolls records committed answered ended)
    (hopen : rolls.openBatches = 0) :
    openIds rolls.batchCounter ended = [] ∧ rolls.pendingRollLiability = 0 := by
  have hnone : openIds rolls.batchCounter ended = [] :=
    List.length_eq_zero_iff.mp (h.openBatches.symm.trans hopen)
  refine ⟨hnone, ?_⟩
  rw [h.owed, hnone]
  rfl

theorem RollBooks.one_open (h : RollBooks key rolls records committed answered ended)
    (hrecord : records id = some batch) (hopen : id ∉ ended) :
    openIds rolls.batchCounter ended = [id] := by
  have hlt : id < rolls.batchCounter := by
    by_contra hge
    obtain ⟨hnone, -⟩ := h.beyond id (Nat.le_of_not_lt hge)
    rw [hrecord] at hnone
    cases hnone
  have hmem := mem_openIds.mpr ⟨hlt, hopen⟩
  have hlen : (openIds rolls.batchCounter ended).length ≤ 1 := h.openBatches ▸ h.serial
  obtain ⟨only, honly⟩ := List.length_eq_one_iff.mp
    (Nat.le_antisymm hlen (List.length_pos_of_mem hmem))
  rw [honly] at hmem ⊢
  rw [List.mem_singleton.mp hmem]

theorem RollBooks.commit (h : RollBooks key rolls records committed answered ended)
    (hopen : rolls.openBatches = 0) (hcommits : Commits key rolls.batchCounter p written) :
    RollBooks key ⟨rolls.batchCounter + 1, rolls.openBatches + 1,
        rolls.pendingRollLiability + written.owed⟩
      (Function.update records rolls.batchCounter (some written)) (committed ++ [p]) answered
      ended := by
  obtain ⟨hnone, hzero⟩ := h.none_open hopen
  have hfresh : rolls.batchCounter ∉ ended := fun hmem => Nat.lt_irrefl _ (h.closed _ hmem)
  have hids : openIds (rolls.batchCounter + 1) ended = [rolls.batchCounter] := by
    rw [openIds_succ hfresh, hnone, List.nil_append]
  have hpaid : p.paid key = written.owed := by
    rw [Passage.paid, hcommits.paid, Nat.add_sub_cancel_left]
  exact {
    counter := by simp [h.counter]
    batches := by
      intro id q hq
      by_cases hid : id < committed.length
      · rw [List.getElem?_append_left hid] at hq
        obtain ⟨first, batch, hfirst, hrecord, hanswered⟩ := h.batches id q hq
        refine ⟨first, batch, hfirst, ?_, hanswered⟩
        rw [Function.update_of_ne (by rw [h.counter]; exact Nat.ne_of_lt hid)]
        exact hrecord
      · obtain rfl : id = rolls.batchCounter := by
          have hlt := (List.getElem?_eq_some_iff.mp hq).1
          rw [List.length_append, List.length_singleton] at hlt
          rw [h.counter]
          omega
        obtain rfl : p = q := by simpa [h.counter] using hq
        refine ⟨written, written, hcommits, Function.update_self .., ?_⟩
        rw [(h.beyond _ le_rfl).2]
        exact .awaited
    beyond := by
      intro id hid
      dsimp only at hid
      rw [Function.update_of_ne (Nat.ne_of_gt hid)]
      exact h.beyond id (by omega)
    closed := fun id hid => Nat.lt_succ_of_lt (h.closed id hid)
    openBatches := by
      dsimp only
      rw [hids, hopen]
      rfl
    serial := by
      dsimp only
      omega
    owed := by
      dsimp only
      rw [hids, hzero]
      simp [owedFor]
    paid := by
      dsimp only
      rw [hids, hzero, h.counter]
      simp [paidFor, hpaid] }

theorem RollBooks.resolve {signer pool : Pubkey} {randomness expectedW : ℕ}
    {expectedBlanks : Denomination → ℕ}
    (h : RollBooks key rolls records committed answered ended) (hrecord : records id = some batch)
    (hstate : batch.state = .committed)
    (hinstr : p.instr = .vrfCallback signer (.rollBatch key id) pool randomness)
    (hbefore : p.before.batchesOf key id = some batch)
    (hafter : p.after.batchesOf key id
      = some (batch.resolved randomness expectedW expectedBlanks)) :
    RollBooks key rolls
      (Function.update records id (some (batch.resolved randomness expectedW expectedBlanks)))
      committed (Function.update answered id (answered id ++ [p])) ended := by
  have howed (ids : List ℕ) : owedFor (Function.update records id
      (some (batch.resolved randomness expectedW expectedBlanks))) ids = owedFor records ids := by
    unfold owedFor
    congr 1
    refine List.map_congr_left fun x _ => ?_
    by_cases hx : x = id
    · subst hx
      rw [Function.update_self, hrecord]
      rfl
    · rw [Function.update_of_ne hx]
  refine ⟨h.counter, ?_, ?_, h.closed, h.openBatches, h.serial, ?_, h.paid⟩
  · intro x q hq
    obtain ⟨first, found, hfirst, hfound, hanswered⟩ := h.batches x q hq
    by_cases hx : x = id
    · subst hx
      obtain rfl := Option.some.inj (hrecord.symm.trans hfound)
      refine ⟨first, _, hfirst, Function.update_self .., ?_⟩
      rw [Function.update_self]
      generalize answered x = before at hanswered ⊢
      -- A batch that was answered is no longer committed.
      cases hanswered with
      | awaited => exact .resolved hinstr hbefore hafter
      | resolved => cases hstate
    · refine ⟨first, found, hfirst, ?_, ?_⟩
      · rw [Function.update_of_ne hx]
        exact hfound
      · rw [Function.update_of_ne hx]
        exact hanswered
  · intro x hx
    obtain ⟨hnone, hquiet⟩ := h.beyond x hx
    have hne : x ≠ id := by
      rintro rfl
      rw [hrecord] at hnone
      cases hnone
    rw [Function.update_of_ne hne, Function.update_of_ne hne]
    exact ⟨hnone, hquiet⟩
  · rw [howed]
    exact h.owed

theorem RollBooks.complete {openBatches liability : ℕ}
    (h : RollBooks key rolls records committed answered ended) (hrecord : records id = some batch)
    (hopen : id ∉ ended) (hcount : openBatches + 1 = rolls.openBatches)
    (hliability : liability + batch.owed = rolls.pendingRollLiability) :
    RollBooks key ⟨rolls.batchCounter, openBatches, liability⟩ records committed answered
      (ended ++ [id]) := by
  have hids := h.one_open hrecord hopen
  have hnone : openIds rolls.batchCounter (ended ++ [id]) = [] := by
    rw [openIds_ended, hids]
    simp
  have howed : rolls.pendingRollLiability = batch.owed := by
    rw [h.owed, hids]
    simp [owedFor, hrecord]
  have hserial := h.serial
  have hlt := (mem_openIds.mp (hids ▸ List.mem_singleton_self id)).1
  refine ⟨h.counter, h.batches, h.beyond, ?_, ?_, ?_, ?_, ?_⟩
  · intro x hx
    rcases List.mem_append.mp hx with hx | hx
    · exact h.closed x hx
    · obtain rfl := List.mem_singleton.mp hx
      exact hlt
  · dsimp only
    rw [hnone, List.length_nil]
    omega
  · dsimp only
    omega
  · dsimp only
    rw [hnone]
    simp only [owedFor, List.map_nil, List.sum_nil]
    omega
  · dsimp only
    rw [hnone]
    simp only [paidFor, List.map_nil, List.sum_nil]
    omega

end Books

-- ---------------------------------------------------------------------------
-- One instruction
-- ---------------------------------------------------------------------------

def Books (key : Pubkey) (history : List Happening) (c : Chain) : Prop :=
  RollBooks key (rollsOf (c.pools.lookup key)) (c.batchesOf key) (commitments key history)
    (callbacks key history) (completions key history)

section Steps

variable {X : Programs} {clock : Clock} {c c' c₀ : Chain} {events : List Event} {instr : Instr}
  {key : Pubkey} {history : List Happening} {p : Passage} {id : ℕ} {L : Ledger} {s : Settlement}
  {batch : RollBatch}

@[simp] theorem commitments_ran : commitments key (history ++ [.ran p])
    = commitments key history ++ if p.instr.commitsTo key then [p] else [] := by
  cases hcommits : p.instr.commitsTo key <;> simp [commitments, Happening.passage, hcommits]

@[simp] theorem callbacks_ran : callbacks key (history ++ [.ran p]) id
    = callbacks key history id ++ if p.instr.answers (.rollBatch key id) then [p] else [] := by
  cases hanswers : p.instr.answers (.rollBatch key id) <;>
    simp [callbacks, Happening.passage, hanswers]

@[simp] theorem completions_ran : completions key (history ++ [.ran p]) = completions key history := by
  simp [completions, Happening.completion]

@[simp] theorem commitments_completed {pool : Pubkey} :
    commitments key (history ++ [.completed pool id]) = commitments key history := by
  simp [commitments, Happening.passage]

@[simp] theorem callbacks_completed {pool : Pubkey} :
    callbacks key (history ++ [.completed pool id]) = callbacks key history := by
  funext x
  simp [callbacks, Happening.passage]

@[simp] theorem completions_completed {pool : Pubkey} :
    completions key (history ++ [.completed pool id])
      = completions key history ++ if pool = key then [id] else [] := by
  by_cases hpool : pool = key <;> simp [completions, Happening.completion, hpool]

theorem mem_completions : id ∈ completions key history ↔ .completed key id ∈ history := by
  simp only [completions, List.mem_filterMap]
  constructor
  · rintro ⟨x, hx, hid⟩
    cases x with
    | ran p => cases hid
    | completed pool batchId =>
      simp only [Happening.completion, Option.ite_none_right_eq_some, Option.some.injEq] at hid
      obtain ⟨rfl, rfl⟩ := hid
      exact hx
  · intro hmem
    exact ⟨_, hmem, if_pos rfl⟩

/-- What neither commits to the pool nor answers one of its batches leaves its books alone. -/
theorem Books.kept (h : Books key history c) (hcommits : p.instr.commitsTo key = false)
    (hanswers : ∀ id, p.instr.answers (.rollBatch key id) = false)
    (hrolls : rollsOf (c'.pools.lookup key) = rollsOf (c.pools.lookup key))
    (hbatches : c'.batchesOf key = c.batchesOf key) : Books key (history ++ [.ran p]) c' := by
  have hcallbacks : callbacks key (history ++ [.ran p]) = callbacks key history := by
    funext id
    simp [hanswers id]
  rw [Books, hrolls, hbatches, hcallbacks, commitments_ran, hcommits, completions_ran]
  simp only [Bool.false_eq_true, if_false, List.append_nil]
  exact h

theorem PoolFate.keeps_rolls {before after : Option Pool}
    (h : PoolFate X clock key instr before after) (hcommits : instr.commitsTo key = false) :
    rollsOf after = rollsOf before := by
  cases h with
  | kept | founded | paused | deposited | depositedCore | approved | begun | recorded | ended
  | withdrawn | withdrawnCore | seized => rfl
  | @configured administrator remaining update =>
    cases update <;> rfl
  | committed => simp [Instr.commitsTo] at hcommits

theorem applyCommit_terms {pool pool' : Pool} {tierLen n batchId liability : ℕ}
    (h : applyCommit pool tierLen n = .ok (pool', batchId, liability)) :
    (1 ≤ n ∧ n ≤ MAX_BATCH_CAPACITY) ∧ liability = n * pool.price := by
  simp only [applyCommit, bind_ok, require_ok, okOr_ok, Checked.mul_some, pure_ok,
    Prod.mk.injEq] at h
  obtain ⟨-, -, -, -, -, -, -, ⟨hn, -, hcapacity⟩, -, -, -, -, _, ⟨-, rfl⟩, _, -, _, -, _, -, -, -,
    rfl⟩ := h
  exact ⟨⟨hn, hcapacity⟩, rfl⟩

theorem committedBatch_priced {pool : Pool} {poolKey roller batchKey : Pubkey}
    {batchId n slot bump : ℕ} (hguarded : pool.guarded.Guarded)
    (hn : 1 ≤ n ∧ n ≤ MAX_BATCH_CAPACITY) :
    (committedBatch poolKey roller batchKey pool batchId n slot bump).Priced :=
  ⟨hguarded.covered, hguarded.fee, hguarded.allocation, hn⟩

theorem batchesOf_insert (hc : c'.rollBatches = c.rollBatches.insert (.rollBatch key id) batch) :
    c'.batchesOf key = Function.update (c.batchesOf key) id (some batch) := by
  funext x
  by_cases hx : x = id
  · subst hx
    rw [Function.update_self, Chain.batchesOf, hc, Finmap.lookup_insert]
  · rw [Function.update_of_ne hx, Chain.batchesOf, hc,
      Finmap.lookup_insert_of_ne _ (by simpa using hx), Chain.batchesOf]

def Pool.committed (pool : Pool) (liability : ℕ) : Pool :=
  { pool with
    pendingRollLiability := pool.pendingRollLiability + liability
    openBatches := pool.openBatches + 1, batchCounter := pool.batchCounter + 1 }

theorem commitRolls_writes {roller rollerUsdc : Pubkey} {n : ℕ} (hwf : c.WellFormed)
    (h : commitRolls X clock c roller key rollerUsdc n = .ok (c', events)) :
    ∃ pool slot bump, c.pools.lookup key = some pool ∧ pool.openBatches = 0 ∧
      (1 ≤ n ∧ n ≤ MAX_BATCH_CAPACITY) ∧ c.batchesOf key pool.batchCounter = none ∧
      c'.pools = c.pools.insert key (pool.committed (n * pool.price)) ∧
      c'.rollBatches = c.rollBatches.insert (.rollBatch key pool.batchCounter)
        (committedBatch key roller (.rollBatch key pool.batchCounter)
          (pool.committed (n * pool.price)) pool.batchCounter n slot bump) ∧
      c'.vaultAmount key = c.vaultAmount key + n * pool.price := by
  simp only [commitRolls, bind_ok, require_ok, requireSigner_ok, pure_ok, Prod.mk.injEq,
    Prod.exists, loadToken, okOr_ok] at h
  obtain ⟨-, hsign, _, -, pool, hpool, topTier, -, -, hfree, source, hsource, vault, hvault, -, -, -,
    howner, -, -, pool', _, liability, hcommit, tokens, htransfer, externals, -, rfl, -⟩ := h
  obtain ⟨hpool, hkey⟩ := loadPool_ok.mp hpool
  obtain ⟨hn, rfl⟩ := applyCommit_terms hcommit
  obtain ⟨hopen, -, rfl, rfl⟩ := applyCommit_ok hcommit
  -- The roller pays from an account of its own.
  have hne : rollerUsdc ≠ .principalVault key := by
    rintro rfl
    rw [hwf.vaultOwner key pool source hpool hsource, hkey] at howner
    exact Pubkey.ne_pool_of_canSign hsign _ howner.symm
  obtain ⟨vault', hvault', hcredited⟩ := splTransfer_credit htransfer hne
  refine ⟨pool, _, _, hpool, hopen, hn, hfree, rfl, rfl, ?_⟩
  simp [Chain.vaultAmount, hcredited, hvault']

theorem commitRolls_books {roller rollerUsdc : Pubkey} {n : ℕ} (hwf : c.WellFormed)
    (hguarded : ∀ pool, c.pools.lookup key = some pool → pool.guarded.Guarded)
    (h : commitRolls X clock c roller key rollerUsdc n = .ok (c', events))
    (hbooks : Books key history c) :
    Books key (history ++ [.ran ⟨c, clock, .commitRolls roller key rollerUsdc n, c'⟩]) c' := by
  obtain ⟨pool, slot, bump, hpool, hopen, hn, hfresh, hpools, hbatches, hpaid⟩ :=
    commitRolls_writes hwf h
  have hrecord := batchesOf_insert hbatches
  have hcommits : Commits key pool.batchCounter
      ⟨c, clock, .commitRolls roller key rollerUsdc n, c'⟩
      (committedBatch key roller (.rollBatch key pool.batchCounter)
        (pool.committed (n * pool.price)) pool.batchCounter n slot bump) :=
    { fresh := hfresh
      record := by rw [hrecord, Function.update_self]
      pool := rfl
      batchId := rfl
      state := rfl
      unread := ⟨rfl, rfl, rfl⟩
      priced := committedBatch_priced (hguarded pool hpool) hn
      paid := hpaid }
  have hcalls : callbacks key (history ++ [.ran ⟨c, clock, .commitRolls roller key rollerUsdc n, c'⟩])
      = callbacks key history := by
    funext x
    simp [Instr.answers]
  unfold Books at hbooks ⊢
  rw [hpool] at hbooks
  rw [hpools, Finmap.lookup_insert, hrecord, hcalls, completions_ran, commitments_ran]
  simp only [Instr.commitsTo, decide_true, if_true]
  exact hbooks.commit hopen hcommits

theorem vrfCallback_books {signer batchKey pool : Pubkey} {randomness : ℕ}
    (h : vrfCallback X clock c signer batchKey pool randomness = .ok (c', events))
    (hbooks : Books key history c) :
    Books key (history ++ [.ran ⟨c, clock, .vrfCallback signer batchKey pool randomness, c'⟩]) c' := by
  simp only [vrfCallback, applyResolve, bind_ok, require_ok, okOr_ok, pure_ok, Prod.mk.injEq] at h
  obtain ⟨-, -, batch, hbatch, -, hkey, _, -, -, -, _, ⟨-, hstate, expectedW, -, rfl⟩, hc', -⟩ := h
  have hrolls : rollsOf (c'.pools.lookup key) = rollsOf (c.pools.lookup key) := by rw [← hc']
  by_cases hpool : batch.pool = key
  · -- One of the pool's own batches.
    obtain rfl : batchKey = .rollBatch key batch.batchId := hpool ▸ hkey
    have hrecord := batchesOf_insert (congrArg Chain.rollBatches hc'.symm)
    have hcalls : callbacks key (history ++ [.ran ⟨c, clock, .vrfCallback signer
        (.rollBatch key batch.batchId) pool randomness, c'⟩])
          = Function.update (callbacks key history) batch.batchId
            (callbacks key history batch.batchId ++ [⟨c, clock, .vrfCallback signer
              (.rollBatch key batch.batchId) pool randomness, c'⟩]) := by
      funext x
      by_cases hx : x = batch.batchId
      · subst hx
        simp [Instr.answers]
      · simp [Instr.answers, hx, Ne.symm hx]
    unfold Books
    rw [hrolls, hrecord, hcalls, completions_ran, commitments_ran]
    simp only [Instr.commitsTo, Bool.false_eq_true, if_false, List.append_nil]
    exact RollBooks.resolve hbooks hbatch hstate rfl hbatch
      (by rw [hrecord, Function.update_self]; rfl)
  · have hother : ∀ id, batchKey ≠ .rollBatch key id := by
      rintro id rfl
      rw [Pubkey.rollBatch.injEq] at hkey
      exact hpool hkey.1.symm
    refine hbooks.kept rfl (fun id => by simpa [Instr.answers] using hother id) hrolls ?_
    funext id
    rw [Chain.batchesOf, ← hc']
    exact Finmap.lookup_insert_of_ne _ (hother id).symm

theorem exec_books (hwf : c.WellFormed)
    (hguarded : ∀ pool, c.pools.lookup key = some pool → pool.guarded.Guarded)
    (h : exec X clock c instr = .ok (c', events)) (hbooks : Books key history c) :
    Books key (history ++ [.ran ⟨c, clock, instr, c'⟩]) c' := by
  cases hcommits : instr.commitsTo key with
  | true =>
    cases instr with
    | commitRolls roller pool rollerUsdc n =>
      obtain rfl : pool = key := by simpa [Instr.commitsTo] using hcommits
      exact commitRolls_books hwf hguarded h hbooks
    | _ => cases hcommits
  | false =>
    have hrolls := (exec_pool h key).keeps_rolls hcommits
    cases instr with
    | vrfCallback signer batch pool randomness => exact vrfCallback_books h hbooks
    | commitRolls roller pool rollerUsdc n =>
      refine hbooks.kept hcommits (fun _ => rfl) hrolls (funext fun id => ?_)
      obtain ⟨_, _, _, -, -, -, -, -, hbatches, -⟩ := commitRolls_writes hwf h
      have hne : key ≠ pool := by
        rintro rfl
        simp [Instr.commitsTo] at hcommits
      rw [Chain.batchesOf, hbatches]
      exact Finmap.lookup_insert_of_ne _ (by simp [hne])
    | _ =>
      refine hbooks.kept hcommits (fun _ => rfl) hrolls (funext fun id => ?_)
      rw [Chain.batchesOf, (exec_records h).batches rfl, Chain.batchesOf]

theorem settle_rolls_other {other : Pubkey} (hL : c.Reads other L) (hne : other ≠ key) :
    rollsOf ((c.settle other s).pools.lookup key) = rollsOf (c.pools.lookup key) := by
  rw [Chain.settle, ledger_eq_some.mpr hL]
  simp only [Finmap.lookup_insert_of_ne _ hne.symm]

theorem settle_batchesOf (c : Chain) (other : Pubkey) (s : Settlement) :
    (c.settle other s).batchesOf key = c.batchesOf key := by
  funext id
  rw [Chain.batchesOf, settle_rollBatches, Chain.batchesOf]

end Steps

-- ---------------------------------------------------------------------------
-- Runs
-- ---------------------------------------------------------------------------

section Runs

variable {X : Programs} {c c₀ : Chain} {history : List Happening} {key : Pubkey} {pool : Pool}
  {may : Ledger → Settlement → Prop}

theorem SettlingReachable.guarded (h : SettlingReachable X may c)
    (hpool : c.pools.lookup key = some pool) : pool.guarded.Guarded := by
  obtain ⟨L, -, hL, rfl⟩ := h.sound.ledger hpool
  exact h.ledger (fun _ hfounded => hfounded.guarded) (fun _ _ _ _ _ hchange => hchange.guarded)
    (fun _ _ _ hguarded => hguarded) hL

theorem RollRun.steps (h : RollRun X c₀ history c) :
    Relation.ReflTransGen (SettlingStep X fun _ _ => True) c₀ c := by
  induction h with
  | start => exact .refl
  | instruction _ clock instr events hexec ih =>
    exact ih.tail (.run (.instruction clock instr events trivial hexec))
  | elsewhere _ tokens externals huntouched ih =>
    exact ih.tail (.run (.elsewhere tokens externals huntouched))
  | complete _ hL _ _ _ ih => exact ih.tail (.settle hL trivial)

theorem RollRun.books (hgenesis : Genesis c₀) (h : RollRun X c₀ history c) (key : Pubkey) :
    Books key history c := by
  induction h with
  | start =>
    have hpool := hgenesis.pool_none key
    have hbatches : c₀.batchesOf key = fun _ => none := by
      funext id
      simp [Chain.batchesOf, hgenesis.rollBatches]
    unfold Books
    rw [hpool, hbatches]
    exact .empty
  | instruction hrun clock instr events hexec ih =>
    have hreachable : SettlingReachable X (fun _ _ => True) _ := ⟨c₀, hgenesis, hrun.steps⟩
    exact exec_books hreachable.sound.wellFormed (fun pool hpool => hreachable.guarded hpool) hexec ih
  | elsewhere _ tokens externals _ ih => exact ih
  | @complete history c other batchId L batch s hrun hL hbatch hopen hcompletes ih =>
    unfold Books
    rw [commitments_completed, callbacks_completed, completions_completed, settle_batchesOf _ _ _]
    by_cases hother : other = key
    · subst hother
      have hreachable : SettlingReachable X (fun _ _ => True) c := ⟨c₀, hgenesis, hrun.steps⟩
      unfold Books at ih
      rw [hL.pool] at ih
      rw [(settle_reads hreachable.sound.wellFormed hL).pool, if_pos rfl]
      exact ih.complete hbatch (fun hmem => hopen (mem_completions.mp hmem)) hcompletes.openBatches
        hcompletes.liability
    · rw [settle_rolls_other hL hother, if_neg hother, List.append_nil]
      exact ih

/-- Over every run, batches ending in between: the counter counts the commitments, the `id`-th of
which wrote batch `id`, paid in what that batch owes, and on terms no later step changes but for
one callback; at most one batch is open, and the liability is what the open ones owe and brought. -/
theorem roll_ledger (hgenesis : Genesis c₀) (hrun : RollRun X c₀ history c)
    (hpool : c.pools.lookup key = some pool) :
    RollBooks key ⟨pool.batchCounter, pool.openBatches, pool.pendingRollLiability⟩ (c.batchesOf key)
      (commitments key history) (callbacks key history) (completions key history) := by
  have hbooks := hrun.books hgenesis key
  unfold Books at hbooks
  rwa [hpool] at hbooks

theorem RollRun.script {script : List (Clock × Instr)} {c' : Chain} (h : RollRun X c₀ history c)
    (hscript : runScript X script c = .ok c') : ∃ more, RollRun X c₀ more c' := by
  induction script generalizing c history with
  | nil =>
    simp only [runScript, List.foldlM_nil, pure_ok] at hscript
    exact ⟨history, hscript ▸ h⟩
  | cons s rest ih =>
    simp only [runScript, List.foldlM_cons, bind_ok] at hscript
    obtain ⟨next, hstep, hrest⟩ := hscript
    obtain ⟨events, hexec⟩ := exec_of_map hstep
    exact ih (h.instruction s.1 s.2 events hexec) hrest

end Runs

def answerBatch : Clock × Instr :=
  (⟨4, 4⟩, .vrfCallback (.key 7) (.rollBatch (.pool 0) 0) (.pool 0) 99)

def bankAnswered : Chain :=
  bankRun [admitCards, depositCard 30, approveCard 30 12000000 100, commitBatch 1, answerBatch]

/-- One batch is committed, answered and ended. -/
theorem roll_ledger_bank : ∃ (history : List Happening) (c : Chain) (pool : Pool),
    RollBooks (.pool 0) ⟨pool.batchCounter, pool.openBatches, pool.pendingRollLiability⟩
      (c.batchesOf (.pool 0)) (commitments (.pool 0) history) (callbacks (.pool 0) history)
      (completions (.pool 0) history) ∧ pool.batchCounter = 1 ∧ pool.openBatches = 0 := by
  have hgenesis : Genesis bankGenesis := ⟨rfl, rfl, rfl, rfl, rfl, rfl, rfl⟩
  have hstart : RollRun bank bankGenesis [] bankGenesis := .start
  obtain ⟨founded, hfounded⟩ := hstart.script (founding_run defaultArgs_valid)
  have hscript : runScript bank [admitCards, depositCard 30, approveCard 30 12000000 100,
      commitBatch 1, answerBatch] (bankPool (defaultArgs .default)) = .ok bankAnswered :=
    runScript_after (by decide +kernel)
  obtain ⟨history, hrun⟩ := hfounded.script hscript
  have hstands : (bankAnswered.pools.lookup (.pool 0)).map
      (fun pool => (pool.batchCounter, pool.openBatches, pool.pendingRollLiability))
        = some (1, 1, DEFAULT_PRICE) := by decide +kernel
  have hwrote : (bankAnswered.batchesOf (.pool 0) 0).map RollBatch.owed = some DEFAULT_PRICE := by
    decide +kernel
  obtain ⟨pool, hpool, hfields⟩ := Option.map_eq_some_iff.mp hstands
  obtain ⟨batch, hbatch, howed⟩ := Option.map_eq_some_iff.mp hwrote
  simp only [Prod.mk.injEq] at hfields
  obtain ⟨hcounter, hopen, hliability⟩ := hfields
  have hreachable : SettlingReachable bank (fun _ _ => True) bankAnswered := ⟨_, hgenesis, hrun.steps⟩
  obtain ⟨L, -, hL, rfl⟩ := hreachable.sound.ledger hpool
  -- One batch is open, so the first has not ended.
  have hcount := (roll_ledger hgenesis hrun hpool).openBatches
  rw [hcounter, hopen] at hcount
  have hids : 1 = (openIds 1 (completions (.pool 0) history)).length := hcount
  have hlive : (0 : ℕ) ∈ openIds 1 (completions (.pool 0) history) := by
    obtain ⟨id, hid⟩ := List.exists_mem_of_length_pos (hids ▸ Nat.one_pos)
    obtain rfl : id = 0 := Nat.lt_one_iff.mp (mem_openIds.mp hid).1
    exact hid
  have hnew : .completed (.pool 0) 0 ∉ history := fun hmem =>
    (mem_openIds.mp hlive).2 (mem_completions.mpr hmem)
  have hcompletes : Completes L batch ⟨L.pool.accEqual, L.topTier.accTier, L.pool.owedFees, 0, 0⟩ :=
    ⟨hopen.symm, by rw [howed, hliability]; exact Nat.zero_add _⟩
  have hafter := hrun.complete hL hbatch hnew hcompletes
  have hsettled := (settle_reads (s := ⟨L.pool.accEqual, L.topTier.accTier, L.pool.owedFees, 0, 0⟩)
    hreachable.sound.wellFormed hL).pool
  exact ⟨_, _, _, roll_ledger hgenesis hafter hsettled, hcounter, rfl⟩

end ByeMachine
