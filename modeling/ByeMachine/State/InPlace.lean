import ByeMachine.State.WeightIndex

/-!
# The index in place

`remove` and `update` write through `&mut self`, so an error leaves whatever was
written before it. Here they are with their writes where the source has them; the
two of `State.WeightIndex` are their results.
-/

namespace ByeMachine

open Fallible

/-- A computation that writes its state in place, and keeps what it wrote when it fails. -/
abbrev InPlace (σ : Type) := EStateM Error σ

namespace InPlace

variable {σ α β : Type}

def of (r : Result α) : InPlace σ α :=
  match r with
  | .ok a => pure a
  | .error e => throw e

@[simp] theorem run_of_ok (a : α) (s : σ) : (of (.ok a)).run s = .ok a s := rfl

@[simp] theorem run_of_error (e : Error) (s : σ) :
    (of (.error e : Result α)).run s = .error e s := rfl

/-- From `s`, `m` ends in the state that `r` is, or fails as it does. -/
def Mirrors (m : InPlace σ Unit) (s : σ) (r : Result σ) : Prop :=
  match m.run s with
  | .ok _ s' => r = .ok s'
  | .error e _ => r = .error e

section Mirrors

variable {m : InPlace σ Unit} {s : σ}

theorem Mirrors.get {f : σ → InPlace σ Unit} {r : Result σ} (h : Mirrors (f s) s r) :
    Mirrors (do let s ← get; f s) s r := h

theorem Mirrors.modify {g : σ → σ} {r : Result σ} (h : Mirrors m (g s) r) :
    Mirrors (do modify g; m) s r := h

theorem Mirrors.write {g : σ → σ} : Mirrors (MonadStateOf.modifyGet fun s => ((), g s)) s
    (pure (g s)) := rfl

theorem Mirrors.read {r : Result α} {f : α → InPlace σ Unit} {g : α → Result σ}
    (h : ∀ a, Mirrors (f a) s (g a)) : Mirrors (do let a ← of r; f a) s (r >>= g) := by
  cases r with
  | ok a => exact h a
  | error e => rfl

theorem Mirrors.check {r : Result Unit} : Mirrors (of r) s (r >>= fun _ => pure s) := by
  cases r with
  | ok a => rfl
  | error e => rfl

theorem Mirrors.seq {m' : InPlace σ Unit} {r : Result σ} {g : σ → Result σ} (h : Mirrors m s r)
    (h' : ∀ s', Mirrors m' s' (g s')) : Mirrors (do m; m') s (r >>= g) := by
  unfold Mirrors at *
  rw [EStateM.run_bind]
  cases hrun : m.run s with
  | ok a s' =>
    rw [hrun] at h
    rw [h]
    exact h' s'
  | error e s' =>
    rw [hrun] at h
    rw [h]
    rfl

end Mirrors

end InPlace

variable {n : ℕ}

def slotReleaseInPlace (slot : ℕ) : InPlace (Slots n) Unit := do
  let s ← get
  .of (require (s.freeCount < n) (.program .weightIndexFull))
  let freeStack ← .of (setIndex s.freeStack s.freeCount slot)
  modify fun s => { s with freeStack }
  let freeCount ← .of (okOr (Checked.add 32 s.freeCount 1) (.panic "attempt to add with overflow"))
  modify fun s => { s with freeCount }

/-- A climb that aborts takes the transaction with it, so it counts as one write. -/
def opsRemoveInPlace (slot weight expectedTotal : ℕ) : InPlace (Slots n) Unit := do
  let s ← get
  let leafIndex := slot + 1
  .of (require (leafIndex ≤ n) (.program .weightDesync))
  let leaf ← .of (fenwickLeaf s.tree leafIndex)
  .of (require (leaf = weight) (.program .weightDesync))
  let totalWeight ← .of (okOr (Checked.sub s.totalWeight weight) (.program .weightDesync))
  modify fun s => { s with totalWeight }
  let tree ← .of (fenwickSub s.tree (slot + 1) weight)
  modify fun s => { s with tree }
  slotReleaseInPlace slot
  .of (require (totalWeight = expectedTotal) (.program .weightDesync))

def opsUpdateInPlace (slot oldWeight newWeight expectedTotal : ℕ) : InPlace (Slots n) Unit := do
  let s ← get
  let leafIndex := slot + 1
  .of (require (leafIndex ≤ n) (.program .weightDesync))
  let leaf ← .of (fenwickLeaf s.tree leafIndex)
  .of (require (leaf = oldWeight) (.program .weightDesync))
  match Checked.sub newWeight oldWeight with
  | some delta => do
    let totalWeight ← .of (okOr (Checked.add 64 s.totalWeight delta) (.program .weightDesync))
    modify fun s => { s with totalWeight }
    let tree ← .of (fenwickAdd s.tree leafIndex delta)
    modify fun s => { s with tree }
    .of (require (totalWeight = expectedTotal) (.program .weightDesync))
  | none => do
    let delta := oldWeight - newWeight
    let totalWeight ← .of (okOr (Checked.sub s.totalWeight delta) (.program .weightDesync))
    modify fun s => { s with totalWeight }
    let tree ← .of (fenwickSub s.tree leafIndex delta)
    modify fun s => { s with tree }
    .of (require (totalWeight = expectedTotal) (.program .weightDesync))

def removeInPlace (slot value expectedTotal : ℕ) : InPlace (Slots FENWICK_CAPACITY) Unit := do
  let weight ← .of (weightOf value)
  opsRemoveInPlace slot weight expectedTotal

def updateInPlace (slot oldValue newValue expectedTotal : ℕ) :
    InPlace (Slots FENWICK_CAPACITY) Unit := do
  let oldWeight ← .of (weightOf oldValue)
  let newWeight ← .of (weightOf newValue)
  opsUpdateInPlace slot oldWeight newWeight expectedTotal

-- ---------------------------------------------------------------------------
-- The results agree
-- ---------------------------------------------------------------------------

section Mirrors

open InPlace

theorem slotReleaseInPlace_mirrors (slot : ℕ) (s : Slots n) :
    Mirrors (slotReleaseInPlace slot) s (slotRelease s slot) := by
  refine .get (.read fun _ => .read fun freeStack => .modify (.read fun freeCount => ?_))
  exact .write

theorem opsRemoveInPlace_mirrors (slot weight expectedTotal : ℕ) (s : Slots n) :
    Mirrors (opsRemoveInPlace slot weight expectedTotal) s
      (opsRemove s slot weight expectedTotal) := by
  refine .get (.read fun _ => .read fun leaf => .read fun _ => .read fun totalWeight => ?_)
  refine .modify (.read fun tree => .modify ?_)
  exact .seq (slotReleaseInPlace_mirrors slot _) fun s' => .check

theorem opsUpdateInPlace_mirrors (slot oldWeight newWeight expectedTotal : ℕ) (s : Slots n) :
    Mirrors (opsUpdateInPlace slot oldWeight newWeight expectedTotal) s
      (opsUpdate s slot oldWeight newWeight expectedTotal) := by
  refine .get (.read fun _ => .read fun leaf => .read fun _ => ?_)
  cases Checked.sub newWeight oldWeight with
  | some delta =>
    simp only [pure_bind]
    exact .read fun totalWeight => .modify (.read fun tree => .modify .check)
  | none =>
    simp only [pure_bind]
    exact .read fun totalWeight => .modify (.read fun tree => .modify .check)

theorem removeInPlace_mirrors (w : WeightIndex) (slot value expectedTotal : ℕ) :
    Mirrors (removeInPlace slot value expectedTotal) w.slots
      ((w.remove slot value expectedTotal).map WeightIndex.slots) := by
  have hslots : (w.remove slot value expectedTotal).map WeightIndex.slots
      = weightOf value >>= fun weight => opsRemove w.slots slot weight expectedTotal := by
    unfold WeightIndex.remove
    cases weightOf value with
    | error e => rfl
    | ok weight =>
      cases hops : opsRemove w.slots slot weight expectedTotal <;> simp [hops, Except.map]
  rw [hslots]
  exact .read fun weight => opsRemoveInPlace_mirrors slot weight expectedTotal w.slots

theorem updateInPlace_mirrors (w : WeightIndex) (slot oldValue newValue expectedTotal : ℕ) :
    Mirrors (updateInPlace slot oldValue newValue expectedTotal) w.slots
      ((w.update slot oldValue newValue expectedTotal).map WeightIndex.slots) := by
  have hslots : (w.update slot oldValue newValue expectedTotal).map WeightIndex.slots
      = (do
        let oldWeight ← weightOf oldValue
        let newWeight ← weightOf newValue
        opsUpdate w.slots slot oldWeight newWeight expectedTotal) := by
    unfold WeightIndex.update
    cases weightOf oldValue with
    | error e => rfl
    | ok oldWeight =>
      cases weightOf newValue with
      | error e => rfl
      | ok newWeight =>
        cases hops : opsUpdate w.slots slot oldWeight newWeight expectedTotal <;>
          simp [hops, Except.map]
  rw [hslots]
  exact .read fun oldWeight => .read fun newWeight =>
    opsUpdateInPlace_mirrors slot oldWeight newWeight expectedTotal w.slots

-- ---------------------------------------------------------------------------
-- What is refused before a write
-- ---------------------------------------------------------------------------

def Slots.Misnamed (s : Slots n) (slot weight : ℕ) : Prop :=
  n ≤ slot ∨ ∃ leaf, fenwickLeaf s.tree (slot + 1) = .ok leaf ∧ leaf ≠ weight

/-- The checks of `ops_remove` and `ops_update` stand before their first write. -/
theorem leafCheck_misnamed {s : Slots n} {slot weight : ℕ} (h : s.Misnamed slot weight)
    (f : Slots n → InPlace (Slots n) Unit) :
    (do
      let s ← get
      .of (require (slot + 1 ≤ n) (.program .weightDesync))
      let leaf ← .of (fenwickLeaf s.tree (slot + 1))
      .of (require (leaf = weight) (.program .weightDesync))
      f s : InPlace (Slots n) Unit).run s = .error (.program .weightDesync) s := by
  by_cases hrange : slot + 1 ≤ n
  · obtain hout | ⟨leaf, hleaf, hne⟩ := h
    · exact absurd hrange (Nat.not_le.mpr (Nat.lt_succ_of_le hout))
    · simp only [EStateM.run_bind, EStateM.run_get, require_pos hrange, hleaf, run_of_ok,
        require_neg hne, run_of_error]
  · simp only [EStateM.run_bind, EStateM.run_get, require_neg hrange, run_of_error]

theorem removeInPlace_misnamed {s : Slots FENWICK_CAPACITY} {slot value weight : ℕ}
    (hweight : weightOf value = .ok weight) (h : s.Misnamed slot weight) (expectedTotal : ℕ) :
    (removeInPlace slot value expectedTotal).run s = .error (.program .weightDesync) s := by
  rw [removeInPlace, EStateM.run_bind, hweight, run_of_ok]
  exact leafCheck_misnamed h _

theorem updateInPlace_misnamed {s : Slots FENWICK_CAPACITY}
    {slot oldValue newValue oldWeight newWeight : ℕ} (hold : weightOf oldValue = .ok oldWeight)
    (hnew : weightOf newValue = .ok newWeight) (h : s.Misnamed slot oldWeight)
    (expectedTotal : ℕ) :
    (updateInPlace slot oldValue newValue expectedTotal).run s
      = .error (.program .weightDesync) s := by
  rw [updateInPlace, EStateM.run_bind, hold, run_of_ok]
  simp only [EStateM.run_bind, hnew, run_of_ok]
  exact leafCheck_misnamed h _

end Mirrors

end ByeMachine
