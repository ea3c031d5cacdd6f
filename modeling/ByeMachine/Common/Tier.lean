import ByeMachine.Base.Store
import ByeMachine.State.Accounts
import ByeMachine.State.WeightIndex

/-!
# The top tier

`common/tier.rs`: the ranked membership array, the settlements that go with a
member entering or leaving it, and the `Position` accounts that travel in
`remaining_accounts`.
-/

namespace ByeMachine

open Fallible

structure AccountMeta where
  key : Pubkey
  isWritable : Bool
  deriving DecidableEq, Repr

abbrev Positions := Store Pubkey Position

/-- `Account::<Position>::try_from`: every address that holds no `Position` is refused. -/
def loadPosition (positions : Positions) (key : Pubkey) : Result Position :=
  okOr (positions.lookup key) (.anchor .accountNotInitialized)

namespace Tier

/-- The tier rank order: `value` desc, `activated_at` asc, `position_id` asc. -/
def rank (a b : TierEntry) : Ordering :=
  (compare b.value a.value).then
    ((compare a.activatedAt b.activatedAt).then (compare a.positionId b.positionId))

def isEligibleCandidate (state : PositionState) (inTier : Bool) : Bool :=
  state = .active && !inTier

inductive PromoteOutcome where
  /-- The tier had room. -/
  | inserted
  /-- The tier was full and the candidate outranked the evicted entry. -/
  | swapped (evicted : TierEntry)
  /-- The tier was full and the candidate did not outrank its lowest-ranked member. -/
  | rejected
  deriving DecidableEq, Repr

/-- `while idx > 0 && candidate outranks entries[idx - 1]`: move that entry down one. -/
def shiftDown (candidate : TierEntry) :
    ℕ → (Fin MAX_TIER_SIZE → TierEntry) → Result (ℕ × (Fin MAX_TIER_SIZE → TierEntry))
  | 0, entries => .ok (0, entries)
  | idx + 1, entries => do
    let entry ← index entries idx
    if rank candidate entry = .lt then do
      let entries ← setIndex entries (idx + 1) entry
      shiftDown candidate idx entries
    else .ok (idx + 1, entries)

/-- The insertion both branches of `promote` make, from the index the gap starts at. -/
def place (candidate : TierEntry) (gap : ℕ) (entries : Fin MAX_TIER_SIZE → TierEntry) :
    Result (Fin MAX_TIER_SIZE → TierEntry) := do
  let (idx, entries) ← shiftDown candidate gap entries
  setIndex entries idx candidate

/-- Inserts `candidate` into `topTier`, keeping `entries[..len]` sorted best-first, evicting the
lowest-ranked member if the tier is already at `tierSize` and `candidate` outranks it. -/
def promote (topTier : TopTier) (tierSize : ℕ) (candidate : TierEntry) :
    Result (TopTier × PromoteOutcome) :=
  if topTier.len < tierSize then do
    let entries ← place candidate topTier.len topTier.entries
    let len ← okOr (Checked.add 8 topTier.len 1) (.panic "attempt to add with overflow")
    pure ({ topTier with entries, len }, .inserted)
  else do
    let minIdx ← subOne topTier.len
    let lowest ← index topTier.entries minIdx
    if rank candidate lowest ≠ .lt then pure (topTier, .rejected)
    else do
      let entries ← place candidate minIdx topTier.entries
      pure ({ topTier with entries }, .swapped lowest)

/-- `entries[..len].iter().position(|e| e.position == position)`. -/
def findMember (topTier : TopTier) (position : Pubkey) : Option ℕ :=
  (List.range topTier.len).find? fun i =>
    if h : i < MAX_TIER_SIZE then (topTier.entries ⟨i, h⟩).position = position else false

/-- `for i in idx..last`: each entry takes the next one's place. -/
def closeGap (entries : Fin MAX_TIER_SIZE → TierEntry) (idx last : ℕ) :
    Result (Fin MAX_TIER_SIZE → TierEntry) :=
  (List.range' idx (last - idx)).foldlM (fun entries i => do
    let next ← index entries (i + 1)
    setIndex entries i next) entries

/-- Removes the member at `position`, if any, shifting later entries up and shrinking `len`. -/
def demote (topTier : TopTier) (position : Pubkey) : Result (TopTier × Option TierEntry) := do
  require (topTier.len ≤ MAX_TIER_SIZE) (.panic "range end index out of range")
  match findMember topTier position with
  | none => pure (topTier, none)
  | some idx => do
    let removed ← index topTier.entries idx
    let last ← subOne topTier.len
    let entries ← closeGap topTier.entries idx last
    pure ({ topTier with entries, len := last }, some removed)

/-- Re-establishes rank order for a member whose value moved, in place. -/
def refreshMember (topTier : TopTier) (tierSize : ℕ) (position : Pubkey) (newEntry : TierEntry) :
    Result TopTier := do
  let (topTier, demoted) ← demote topTier position
  require demoted.isSome (.program .invalidPositionState)
  let (topTier, promoted) ← promote topTier tierSize newEntry
  require (promoted = .inserted) (.program .invalidPositionState)
  pure topTier

/-- A member's tier delta settled to `accTier`, its membership flag cleared. -/
def settleMember (position : Position) (accTier : ℕ) : Result Position := do
  let accrued ← positionFeePayout accTier position.tierCheckpoint position.accrued
  pure { position with accrued, tierCheckpoint := accTier, inTier := false }

/-- The close path's departure: a checked `demote` that settles the departing member's tier
delta and clears its membership flag. -/
def vacate (topTier : TopTier) (positionKey : Pubkey) (position : Position) (accTier : ℕ) :
    Result (TopTier × Position × TierEntry) := do
  let (topTier, removed) ← demote topTier positionKey
  let removed ← okOr removed (.program .invalidPositionState)
  let position ← settleMember position accTier
  pure (topTier, position, removed)

/-- Lands a successor in the vacancy `vacate` just opened. -/
def fillVacancy (topTier : TopTier) (tierSize : ℕ) (entry : TierEntry) : Result TopTier := do
  let (topTier, promoted) ← promote topTier tierSize entry
  require (promoted = .inserted) (.program .invalidPositionState)
  pure topTier

def entryOf (key : Pubkey) (position : Position) : TierEntry :=
  { position := key
    value := position.recordedValue
    activatedAt := position.activatedAt
    positionId := position.positionId }

/-- The close path's optional successor: the first remaining account, validated against the pool
and tier eligibility, and landed. -/
def fillVacancyFromCandidate (topTier : TopTier) (tierSize : ℕ) (remaining : List AccountMeta)
    (positions : Positions) (pool : Pubkey) (accTier : ℕ) :
    Result (TopTier × Positions × Option Pubkey) :=
  match remaining.head? with
  | none => pure (topTier, positions, none)
  | some candidateInfo => do
    require candidateInfo.isWritable (.anchor .accountNotMutable)
    let candidate ← loadPosition positions candidateInfo.key
    require (candidate.pool = pool) (.program .positionPoolMismatch)
    require (isEligibleCandidate candidate.state candidate.inTier)
      (.program .invalidPositionState)
    let topTier ← fillVacancy topTier tierSize (entryOf candidateInfo.key candidate)
    let positions := positions.insert candidateInfo.key
      { candidate with inTier := true, tierCheckpoint := accTier }
    pure (topTier, positions, some candidateInfo.key)

inductive CrossOutcome where
  | inserted
  /-- The caller must settle the evicted member. -/
  | swapped (evicted : TierEntry)
  | rejected
  deriving DecidableEq, Repr

/-- The crossing case: a non-member whose value just crossed the tier threshold. -/
def crossIntoTier (topTier : TopTier) (tierSize : ℕ) (position : Position) (entry : TierEntry)
    (accTier : ℕ) : Result (TopTier × Position × CrossOutcome) := do
  let (topTier, promoted) ← promote topTier tierSize entry
  match promoted with
  | .inserted =>
    pure (topTier, { position with inTier := true, tierCheckpoint := accTier }, .inserted)
  | .swapped evicted =>
    pure (topTier, { position with inTier := true, tierCheckpoint := accTier }, .swapped evicted)
  | .rejected => pure (topTier, position, .rejected)

/-- `entries[new_len..old_len].to_vec()`. -/
def evictedEntries (topTier : TopTier) (newLen : ℕ) : Result (List TierEntry) := do
  require (topTier.len ≤ MAX_TIER_SIZE) (.panic "range end index out of range")
  (List.range' newLen (topTier.len - newLen)).mapM fun i => index topTier.entries i

/-- The shrink path for a `tier_size` lowering: truncates to `newTierSize`, returning the
evicted entries, best first. -/
def shrink (topTier : TopTier) (newTierSize : ℕ) : Result (TopTier × List TierEntry) :=
  if topTier.len ≤ newTierSize then pure (topTier, [])
  else do
    let evicted ← evictedEntries topTier newTierSize
    pure ({ topTier with len := newTierSize }, evicted)

/-- Settles a displaced member's tier delta and clears its membership flag. Its `Position`
travels in `remaining_accounts`, matched by key. -/
def settleDisplacedMember (remaining : List AccountMeta) (positions : Positions)
    (evicted : TierEntry) (accTier : ℕ) : Result Positions := do
  let info ← okOr (remaining.find? fun account => account.key = evicted.position)
    (.anchor .accountNotEnoughKeys)
  require info.isWritable (.anchor .accountNotMutable)
  let position ← loadPosition positions info.key
  let position ← settleMember position accTier
  pure (positions.insert info.key position)

end Tier

end ByeMachine
