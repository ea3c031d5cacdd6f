import ByeMachine.Base.Fallible
import ByeMachine.State.Layout

/-!
# The operator's resolver

`scripts/lib/tier-resolve.ts`: whom an activation displaces and who succeeds a
departing member, read off the chain's account bytes. A failed read throws, and
`none` is an answer.
-/

namespace ByeMachine

open Fallible

namespace TierResolve

-- ---------------------------------------------------------------------------
-- The rank order
-- ---------------------------------------------------------------------------

structure TierEntryLike where
  value : ℕ
  activatedAt : ℤ
  positionId : ℕ
  deriving DecidableEq, Repr

/-- `Ordering` as the program's `rank` would return it. -/
def rank (a b : TierEntryLike) : Ordering :=
  if a.value ≠ b.value then (if b.value < a.value then .lt else .gt)
  else if a.activatedAt ≠ b.activatedAt then (if a.activatedAt < b.activatedAt then .lt else .gt)
  else if a.positionId ≠ b.positionId then (if a.positionId < b.positionId then .lt else .gt)
  else .eq

/-- The candidate side of a comparison. -/
inductive RankKey where
  /-- `approve_deposit`: `activated_at = now`. -/
  | activating (value : ℕ)
  /-- `record_value` and `update_tier`. -/
  | stored (value : ℕ) (activatedAt : ℤ) (positionId : ℕ)
  deriving DecidableEq, Repr

def I64_MAX : ℤ := 2 ^ 63 - 1

def U64_MAX : ℕ := 2 ^ 64 - 1

def candidateKey : RankKey → TierEntryLike
  | .activating value => ⟨value, I64_MAX, U64_MAX⟩
  | .stored value activatedAt positionId => ⟨value, activatedAt, positionId⟩

-- ---------------------------------------------------------------------------
-- Reads
-- ---------------------------------------------------------------------------

inductive ReadError where
  | rpc
  | accountNotFound
  | outOfRange
  deriving DecidableEq, Repr

abbrev Read (α : Type) := Except ReadError α

structure Cursor where
  buf : Bytes
  offset : ℕ

namespace Cursor

variable (w : Encoding) (cursor : Cursor)

def skip (n : ℕ) : Cursor := { cursor with offset := cursor.offset + n }

def next (n : ℕ) : Read (Bytes × Cursor) := do
  let bytes ← okOr (cursor.buf.window cursor.offset n) .outOfRange
  pure (bytes, cursor.skip n)

def u8 : Read (ℕ × Cursor) := do
  let (bytes, cursor) ← cursor.next 1
  pure (Bytes.leNat bytes, cursor)

def u64 : Read (ℕ × Cursor) := do
  let (bytes, cursor) ← cursor.next 8
  pure (Bytes.leNat bytes, cursor)

def i64 : Read (ℤ × Cursor) := do
  let (bytes, cursor) ← cursor.next 8
  pure (Bytes.signed64 (Bytes.leNat bytes), cursor)

def pubkey : Read (Pubkey × Cursor) := do
  let (bytes, cursor) ← cursor.next 32
  pure (w.decode bytes, cursor)

end Cursor

/-- `account[offset..]` starts with `bytes`. -/
structure MemcmpFilter where
  offset : ℕ
  bytes : Bytes
  deriving DecidableEq, Repr

def MemcmpFilter.Matches (filter : MemcmpFilter) (data : Bytes) : Prop :=
  data.window filter.offset filter.bytes.length = some filter.bytes

instance (filter : MemcmpFilter) (data : Bytes) : Decidable (filter.Matches data) :=
  inferInstanceAs (Decidable (_ = _))

/-- The two calls the resolver makes of a node. -/
structure Rpc where
  fetchAccountData : Pubkey → Read (Option Bytes)
  getProgramAccounts : List MemcmpFilter → Read (List (Pubkey × Bytes))

variable (w : Encoding) (rpc : Rpc)

def requireAccountData (address : Pubkey) : Read Bytes := do
  let data ← rpc.fetchAccountData address
  okOr data .accountNotFound

/-- Everything before `Pool.tier_size`. -/
def POOL_TIER_SIZE_SKIP : ℕ :=
  8 + 2 + 32 * 2 + 8 * 3 + 2 * 3 + 8 * 3 + 1 + 2 + 8 * 3 + 8 + 2

def readTierSize (pool : Pubkey) : Read ℕ := do
  let data ← requireAccountData rpc pool
  let (tierSize, _) ← ((Cursor.mk data 0).skip POOL_TIER_SIZE_SKIP).u8
  pure tierSize

structure TierEntryData extends TierEntryLike where
  position : Pubkey
  deriving DecidableEq, Repr

/-- One turn of the loop over `entries[0..len]`. -/
def readEntry (cursor : Cursor) : Read (TierEntryData × Cursor) := do
  let (position, cursor) ← cursor.pubkey w
  let (value, cursor) ← cursor.u64
  let (activatedAt, cursor) ← cursor.i64
  let (positionId, cursor) ← cursor.u64
  pure (⟨⟨value, activatedAt, positionId⟩, position⟩, cursor)

def readEntries : ℕ → Cursor → Read (List TierEntryData)
  | 0, _ => pure []
  | n + 1, cursor => do
    let (entry, cursor) ← readEntry w cursor
    let entries ← readEntries n cursor
    pure (entry :: entries)

def readTopTier (topTier : Pubkey) : Read (ℕ × List TierEntryData) := do
  let data ← requireAccountData rpc topTier
  let (len, cursor) ← ((Cursor.mk data 0).skip (8 + 32)).u8
  let entries ← readEntries w len cursor
  pure (len, entries)

-- ---------------------------------------------------------------------------
-- The successor scan
-- ---------------------------------------------------------------------------

def POSITION_POOL_OFFSET : ℕ := 8

def POSITION_STATE_OFFSET : ℕ := 8 + 32 * 3 + 8

def POSITION_IN_TIER_OFFSET : ℕ := POSITION_STATE_OFFSET + 1 + 8 + 8 + 8 + 4 + 8 + 16 + 8

def POSITION_STATE_ACTIVE_BYTE : UInt8 := 1

/-- The fields `rank` needs off an already-filtered `Position` account. -/
def readEligiblePosition (address : Pubkey) (data : Bytes) : Read TierEntryData := do
  let cursor := (Cursor.mk data 0).skip (8 + 32 * 3)
  let (positionId, cursor) ← cursor.u64
  let cursor := cursor.skip 1
  let (value, cursor) ← cursor.u64
  let cursor := cursor.skip (8 + 8 + 4)
  let (activatedAt, _) ← cursor.i64
  pure ⟨⟨value, activatedAt, positionId⟩, address⟩

def eligibleFilters (pool : Pubkey) : List MemcmpFilter :=
  [⟨0, w.discriminator .position⟩, ⟨POSITION_POOL_OFFSET, w.encode pool⟩,
    ⟨POSITION_STATE_OFFSET, [POSITION_STATE_ACTIVE_BYTE]⟩, ⟨POSITION_IN_TIER_OFFSET, [0]⟩]

/-- `candidates.reduce((best, current) => rank(current, best) === -1 ? current : best)`. -/
def better (best current : TierEntryData) : TierEntryData :=
  if rank current.toTierEntryLike best.toTierEntryLike = .lt then current else best

def highestRanked : List TierEntryData → Option TierEntryData
  | [] => none
  | candidate :: candidates => some (candidates.foldl better candidate)

def findHighestRankedEligibleNonMember (pool : Pubkey) : Read (Option TierEntryData) := do
  let accounts ← rpc.getProgramAccounts (eligibleFilters w pool)
  let candidates ← accounts.mapM fun hit => readEligiblePosition hit.1 hit.2
  pure (highestRanked candidates)

-- ---------------------------------------------------------------------------
-- The resolvers
-- ---------------------------------------------------------------------------

/-- The member `key` would displace, if there is one. -/
def resolveDisplaced (pool : Pubkey) (key : RankKey) : Read (Option Pubkey) := do
  let tierSize ← readTierSize rpc pool
  let (len, entries) ← readTopTier w rpc (.topTier pool)
  if len = 0 ∨ len ≠ tierSize then pure none
  else do
    let minimum ← okOr entries[len - 1]? .outOfRange
    pure (if rank (candidateKey key) minimum.toTierEntryLike = .lt then some minimum.position
      else none)

/-- Who fills `closing`'s vacancy, if anyone is owed it. -/
def resolveSuccessor (pool closing : Pubkey) : Read (Option Pubkey) := do
  let (len, entries) ← readTopTier w rpc (.topTier pool)
  let wasMember := (entries.take len).any fun entry => entry.position = closing
  if wasMember then do
    let successor ← findHighestRankedEligibleNonMember w rpc pool
    pure (successor.map (·.position))
  else pure none

end TierResolve

end ByeMachine
