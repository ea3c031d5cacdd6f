import ByeMachine.Common.Math
import ByeMachine.Common.Seeds
import Mathlib.Logic.Function.Basic

/-!
# The weight index

`state/weight_index.rs`: a Fenwick range-sum tree over the slots with a LIFO
stack of free slots and a high-water mark. The slot operations work on any
capacity, as the source's work on slices; the account fixes it.

The loops of the source are bounded here by the tree's length plus one;
running past the bound would be the error `diverged`.
-/

namespace ByeMachine

open Fallible

variable {n : ℕ}

/-- `xs[i]`: an index past the end aborts. -/
def index {α : Type} (xs : Fin n → α) (i : ℕ) : Result α :=
  if h : i < n then .ok (xs ⟨i, h⟩) else .error (.panic "index out of bounds")

/-- `xs[i] = x`. -/
def setIndex {α : Type} (xs : Fin n → α) (i : ℕ) (x : α) : Result (Fin n → α) :=
  if h : i < n then .ok (Function.update xs ⟨i, h⟩ x) else .error (.panic "index out of bounds")

/-- `i & i.wrapping_neg()` at 64 bits. -/
def lowbit (i : ℕ) : ℕ := i &&& ((2 ^ 64 - i) % 2 ^ 64)

def subOne (i : ℕ) : Result ℕ := okOr (Checked.sub i 1) (.panic "attempt to subtract with overflow")

/-- The loop `fenwick_add` and `fenwick_sub` share: rewrite a node, climb by its low bit. A slice
is at most `isize::MAX` bytes, so the climb from an index inside it does not wrap. -/
def fenwickClimb (write : ℕ → Result ℕ) : ℕ → (Fin n → ℕ) → ℕ → Result (Fin n → ℕ)
  | 0, _, _ => .error .diverged
  | fuel + 1, tree, i =>
    if i ≤ n then do
      let k ← subOne i
      let node ← index tree k
      let node ← write node
      let tree ← setIndex tree k node
      fenwickClimb write fuel tree (i + lowbit i)
    else .ok tree

def fenwickAdd (tree : Fin n → ℕ) (i : ℕ) (delta : ℕ) : Result (Fin n → ℕ) :=
  fenwickClimb (fun node => okOr (Checked.add 64 node delta)
    (.panic "fenwick node exceeds u64 range")) (n + 1) tree i

def fenwickSub (tree : Fin n → ℕ) (i : ℕ) (delta : ℕ) : Result (Fin n → ℕ) :=
  fenwickClimb (fun node => okOr (Checked.sub node delta)
    (.panic "fenwick node underflows below zero")) (n + 1) tree i

def fenwickPrefixLoop : ℕ → (Fin n → ℕ) → ℕ → ℕ → Result ℕ
  | 0, _, _, _ => .error .diverged
  | fuel + 1, tree, i, sum =>
    if 0 < i then do
      let k ← subOne i
      let node ← index tree k
      let sum ← okOr (Checked.add 64 sum node) (.panic "fenwick prefix exceeds u64 range")
      fenwickPrefixLoop fuel tree (i - lowbit i) sum
    else .ok sum

/-- Sum of leaves `1..=i`; `i == 0` is the empty prefix. -/
def fenwickPrefix (tree : Fin n → ℕ) (i : ℕ) : Result ℕ :=
  fenwickPrefixLoop (i + 1) tree i 0

/-- Leaf `i`'s own weight, from two prefix walks. -/
def fenwickLeaf (tree : Fin n → ℕ) (i : ℕ) : Result ℕ := do
  let upTo ← fenwickPrefix tree i
  let k ← subOne i
  let below ← fenwickPrefix tree k
  okOr (Checked.sub upTo below) (.panic "fenwick prefix is not monotonic")

/-- `1usize << capacity.ilog2()`, and zero for no capacity. -/
def firstStep (capacity : ℕ) : ℕ := if capacity = 0 then 0 else 1 <<< capacity.log2

/-- `while step > 0`: descend into the half that the weight `r` falls in. -/
def fenwickFindLoop : ℕ → (Fin n → ℕ) → ℕ → ℕ → ℕ → Result ℕ
  | 0, _, _, _, _ => .error .diverged
  | fuel + 1, tree, pos, step, r =>
    if 0 < step then
      let next := pos + step
      if next ≤ n then do
        let k ← subOne next
        let node ← index tree k
        if node ≤ r then fenwickFindLoop fuel tree next (step >>> 1) (r - node)
        else fenwickFindLoop fuel tree pos (step >>> 1) r
      else fenwickFindLoop fuel tree pos (step >>> 1) r
    else .ok pos

def fenwickFind (tree : Fin n → ℕ) (r : ℕ) : Result ℕ :=
  fenwickFindLoop (n + 1) tree 0 (firstStep n) r

/-- The part of a `WeightIndex` the slot operations work on. -/
structure Slots (n : ℕ) where
  totalWeight : ℕ
  highWater : ℕ
  freeCount : ℕ
  tree : Fin n → ℕ
  freeStack : Fin n → ℕ

/-- Hands back a slot whose leaf is empty — recycled first, else the next unallocated one. -/
def slotAlloc (s : Slots n) : Result (ℕ × Slots n) := do
  let (slot, s) ←
    if 0 < s.freeCount then do
      let freeCount := s.freeCount - 1
      let slot ← index s.freeStack freeCount
      pure (slot, { s with freeCount })
    else do
      require (s.highWater < n) (.program .weightIndexFull)
      let highWater ← okOr (Checked.add 32 s.highWater 1) (.panic "attempt to add with overflow")
      pure (s.highWater, { s with highWater })
  require (slot < n) (.program .weightDesync)
  let leaf ← fenwickLeaf s.tree (slot + 1)
  require (leaf = 0) (.program .weightDesync)
  pure (slot, s)

def slotRelease (s : Slots n) (slot : ℕ) : Result (Slots n) := do
  require (s.freeCount < n) (.program .weightIndexFull)
  let freeStack ← setIndex s.freeStack s.freeCount slot
  let freeCount ← okOr (Checked.add 32 s.freeCount 1) (.panic "attempt to add with overflow")
  pure { s with freeStack, freeCount }

def opsInsert (s : Slots n) (weight expectedTotal : ℕ) : Result (ℕ × Slots n) := do
  let (slot, s) ← slotAlloc s
  let totalWeight ← okOr (Checked.add 64 s.totalWeight weight) (.program .weightDesync)
  let tree ← fenwickAdd s.tree (slot + 1) weight
  require (totalWeight = expectedTotal) (.program .weightDesync)
  pure (slot, { s with totalWeight, tree })

def opsRemove (s : Slots n) (slot : ℕ) (weight expectedTotal : ℕ) : Result (Slots n) := do
  let leafIndex := slot + 1
  require (leafIndex ≤ n) (.program .weightDesync)
  let leaf ← fenwickLeaf s.tree leafIndex
  require (leaf = weight) (.program .weightDesync)
  let totalWeight ← okOr (Checked.sub s.totalWeight weight) (.program .weightDesync)
  let tree ← fenwickSub s.tree (slot + 1) weight
  let s ← slotRelease { s with totalWeight, tree } slot
  require (totalWeight = expectedTotal) (.program .weightDesync)
  pure s

def opsUpdate (s : Slots n) (slot : ℕ) (oldWeight newWeight expectedTotal : ℕ) :
    Result (Slots n) := do
  let leafIndex := slot + 1
  require (leafIndex ≤ n) (.program .weightDesync)
  let leaf ← fenwickLeaf s.tree leafIndex
  require (leaf = oldWeight) (.program .weightDesync)
  let (totalWeight, tree) ←
    match Checked.sub newWeight oldWeight with
    | some delta => do
      let totalWeight ← okOr (Checked.add 64 s.totalWeight delta) (.program .weightDesync)
      let tree ← fenwickAdd s.tree leafIndex delta
      pure (totalWeight, tree)
    | none => do
      let delta := oldWeight - newWeight
      let totalWeight ← okOr (Checked.sub s.totalWeight delta) (.program .weightDesync)
      let tree ← fenwickSub s.tree leafIndex delta
      pure (totalWeight, tree)
  require (totalWeight = expectedTotal) (.program .weightDesync)
  pure { s with totalWeight, tree }

/-- The slot comes back as a `u32`. -/
def opsPrefixSearch (s : Slots n) (r : ℕ) : Result (Option ℕ) :=
  if s.totalWeight = 0 ∨ s.totalWeight ≤ r then pure none
  else do
    let pos ← fenwickFind s.tree r
    pure (some (pos % 2 ^ 32))

/-- One pool's real-position weight index. Not a PDA: a pre-created keypair account pinned by
`Pool.weight_index`. -/
structure WeightIndex where
  pool : Pubkey
  slots : Slots FENWICK_CAPACITY

namespace WeightIndex

/-- The all-zero account, apart from the pool it is bound to. -/
def blank (pool : Pubkey) : WeightIndex :=
  { pool, slots := ⟨0, 0, 0, fun _ => 0, fun _ => 0⟩ }

/-- Narrows `Pool.w_real` to the tree's own aggregate. -/
def narrowExpectedTotal (wReal : ℕ) : Result ℕ :=
  okOr (Checked.narrow 64 wReal) (.program .weightDesync)

/-- Allocates a slot, adds `value`'s weight at it, and asserts the resulting aggregate. -/
def insert (self : WeightIndex) (value expectedTotal : ℕ) : Result (ℕ × WeightIndex) := do
  let weight ← weightOf value
  let (slot, slots) ← opsInsert self.slots weight expectedTotal
  pure (slot, { self with slots })

/-- Subtracts `value`'s weight from `slot` and recycles it onto the free stack. -/
def remove (self : WeightIndex) (slot : ℕ) (value expectedTotal : ℕ) :
    Result WeightIndex := do
  let weight ← weightOf value
  let slots ← opsRemove self.slots slot weight expectedTotal
  pure { self with slots }

/-- Moves `slot`'s leaf from `oldValue`'s weight to `newValue`'s, in place. -/
def update (self : WeightIndex) (slot : ℕ) (oldValue newValue expectedTotal : ℕ) :
    Result WeightIndex := do
  let oldWeight ← weightOf oldValue
  let newWeight ← weightOf newValue
  let slots ← opsUpdate self.slots slot oldWeight newWeight expectedTotal
  pure { self with slots }

/-- Half-open range search: the occupied slot whose cumulative interval contains `r`. -/
def prefixSearch (self : WeightIndex) (r : ℕ) : Result (Option ℕ) := opsPrefixSearch self.slots r

end WeightIndex

end ByeMachine
