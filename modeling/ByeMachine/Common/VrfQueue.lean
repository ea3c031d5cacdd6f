import ByeMachine.Base.Bytes
import ByeMachine.Base.Fallible

/-!
# The randomness provider's queue

`common/vrf_queue.rs`: a read-only parser of the provider's queue account. A
64-bit `usize` holds every offset the parser forms; a read outside the bytes
panics, and is a failure of its own here.
-/

namespace ByeMachine

open Fallible

namespace VrfQueue

def QUEUE_DISCRIMINATOR : Bytes := [3, 0, 0, 0, 0, 0, 0, 0]

/-- `size_of::<Queue>()`: item_count u32, cursor u32, index u8, paused u8, 2 pad. -/
def HEADER_SIZE : ℕ := 12

/-- Items begin here, measured from the start of the body, as `cursor` is. -/
def ITEMS_START : ℕ := 16

def ITEM_SIZE : ℕ := 96

def META_SIZE : ℕ := 33

def MAX_CALLBACK_ACCOUNTS : ℕ := 25

def MAX_CALLBACK_ARGS : ℕ := 512

inductive VrfQueueError where
  | notAQueueAccount
  | truncatedHeader
  | cursorOutOfBounds
  | itemOffsetOutOfBounds
  | itemExceedsProviderLimits
  | trailingBytes
  | cursorInconsistentWithItemCount
  | itemRegionsNotContiguous
  | itemCountMismatch
  deriving DecidableEq, Repr

inductive ScanError where
  | refused (error : VrfQueueError)
  | panic
  deriving DecidableEq, Repr

abbrev Scan (α : Type) := Except ScanError α

structure QueueHeader where
  itemCount : ℕ
  cursor : ℕ
  index : UInt8
  paused : UInt8
  deriving DecidableEq, Repr

/-- One live queue item, with its variable-length regions already resolved. -/
structure QueueItemView where
  /-- Byte offset of the item within the body. -/
  pos : ℕ
  slot : ℕ
  id : Bytes
  callbackProgramId : Bytes
  callbackDiscriminator : Bytes
  /-- Raw metas, `META_SIZE` for each account. -/
  callbackMetas : Bytes
  callbackArgs : Bytes
  priorityRequest : UInt8
  identityMode : UInt8
  identityBump : UInt8
  deriving DecidableEq, Repr

structure ScanStats where
  itemsVisited : ℕ
  liveItems : ℕ
  itemCount : ℕ
  bytesConsumed : ℕ
  deriving DecidableEq, Repr

-- ---------------------------------------------------------------------------
-- Reading
-- ---------------------------------------------------------------------------

/-- `&b[i..i + n]`. -/
def readBytes (b : Bytes) (i n : ℕ) : Scan Bytes := okOr (b.window i n) .panic

def readLe (b : Bytes) (i n : ℕ) : Scan ℕ := do
  let bytes ← readBytes b i n
  pure (Bytes.leNat bytes)

def readU32 (b : Bytes) (i : ℕ) : Scan ℕ := readLe b i 4

def readU16 (b : Bytes) (i : ℕ) : Scan ℕ := readLe b i 2

/-- `b[i]`. -/
def readU8 (b : Bytes) (i : ℕ) : Scan UInt8 := okOr b[i]? .panic

/-- `usize::saturating_add`. -/
def saturatingAdd (x y : ℕ) : ℕ := min (x + y) (2 ^ 64 - 1)

/-- `(x + 7) & !7`. -/
def alignUp8 (x : ℕ) : ℕ := (x + 7) / 8 * 8

/-- `acc` is the whole account, discriminator included. -/
def parseHeader (acc : Bytes) : Scan QueueHeader := do
  require (8 ≤ acc.length ∧ acc.take 8 = QUEUE_DISCRIMINATOR) (.refused .notAQueueAccount)
  let body := acc.drop 8
  require (HEADER_SIZE ≤ body.length) (.refused .truncatedHeader)
  let itemCount ← readU32 body 0
  let cursor ← readU32 body 4
  require (¬(cursor ≠ 0 ∧ (cursor < ITEMS_START ∨ body.length < cursor)))
    (.refused .cursorOutOfBounds)
  require (¬(cursor = 0 ∧ itemCount ≠ 0)) (.refused .cursorInconsistentWithItemCount)
  let index ← readU8 body 8
  let paused ← readU8 body 9
  pure { itemCount, cursor, index, paused }

structure Extent where
  discOff : ℕ
  discEnd : ℕ
  metasOff : ℕ
  metasEnd : ℕ
  argsOff : ℕ
  argsEnd : ℕ
  used : UInt8
  next : ℕ
  deriving DecidableEq, Repr

/-- The offsets and lengths of the item at `p`, checked against the provider's limits, the bytes
there are and the order the provider writes the regions in. -/
def readExtent (body : Bytes) (p : ℕ) : Scan Extent := do
  let discOff ← readU32 body (p + 72)
  let metasOff ← readU32 body (p + 76)
  let argsOff ← readU32 body (p + 80)
  let discLen ← readU16 body (p + 84)
  let metasLen ← readU16 body (p + 86)
  let argsLen ← readU16 body (p + 88)
  let used ← readU8 body (p + 91)
  require (¬(MAX_CALLBACK_ACCOUNTS < metasLen ∨ MAX_CALLBACK_ARGS < argsLen))
    (.refused .itemExceedsProviderLimits)
  let metasBytes := metasLen * META_SIZE
  let discEnd := saturatingAdd discOff discLen
  let metasEnd := saturatingAdd metasOff metasBytes
  let argsEnd := saturatingAdd argsOff argsLen
  require (¬(body.length < discEnd ∨ body.length < metasEnd ∨ body.length < argsEnd))
    (.refused .itemOffsetOutOfBounds)
  require (¬(discOff ≠ p + ITEM_SIZE ∨ metasOff ≠ discEnd ∨ argsOff ≠ metasEnd))
    (.refused .itemRegionsNotContiguous)
  pure { discOff, discEnd, metasOff, metasEnd, argsOff, argsEnd, used
         next := alignUp8 (p + ITEM_SIZE + discLen + metasBytes + argsLen) }

def readItem (body : Bytes) (p : ℕ) (extent : Extent) : Scan QueueItemView := do
  let slot ← readLe body p 8
  let id ← readBytes body (p + 8) 32
  let callbackProgramId ← readBytes body (p + 40) 32
  let callbackDiscriminator ← readBytes body extent.discOff (extent.discEnd - extent.discOff)
  let callbackMetas ← readBytes body extent.metasOff (extent.metasEnd - extent.metasOff)
  let callbackArgs ← readBytes body extent.argsOff (extent.argsEnd - extent.argsOff)
  let priorityRequest ← readU8 body (p + 90)
  let identityMode ← readU8 body (p + 92)
  let identityBump ← readU8 body (p + 93)
  pure { pos := p, slot, id, callbackProgramId, callbackDiscriminator, callbackMetas, callbackArgs
         priorityRequest, identityMode, identityBump }

-- ---------------------------------------------------------------------------
-- The walk
-- ---------------------------------------------------------------------------

abbrev Visitor (σ ρ : Type) := σ → QueueItemView → σ × Option ρ

variable {σ ρ : Type}

structure Walk (σ ρ : Type) where
  cur : ℕ
  itemsVisited : ℕ
  liveItems : ℕ
  visitor : σ
  found : Option ρ

/-- `visit` stops being called once it has answered. -/
def offer (visit : Visitor σ ρ) (item : QueueItemView) (w : Walk σ ρ) : Walk σ ρ :=
  match w.found with
  | some _ => w
  | none =>
    let (visitor, found) := visit w.visitor item
    { w with visitor, found }

def visitUsed (visit : Visitor σ ρ) (body : Bytes) (extent : Extent) (w : Walk σ ρ) :
    Scan (Walk σ ρ) :=
  if extent.used = 1 then do
    let item ← readItem body w.cur extent
    pure (offer visit item { w with liveItems := w.liveItems + 1 })
  else pure w

def visitItem (visit : Visitor σ ρ) (body : Bytes) (w : Walk σ ρ) : Scan (Walk σ ρ) := do
  let extent ← readExtent body w.cur
  let w ← visitUsed visit body extent { w with itemsVisited := w.itemsVisited + 1 }
  require (¬extent.next ≤ w.cur) (.refused .trailingBytes)
  pure { w with cur := extent.next }

/-- `while cur + ITEM_SIZE <= end`. Every turn moves `cur`, so `end` turns are enough. -/
def walkItems (visit : Visitor σ ρ) (body : Bytes) (stop : ℕ) : ℕ → Walk σ ρ → Scan (Walk σ ρ)
  | 0, w => pure w
  | fuel + 1, w =>
    if w.cur + ITEM_SIZE ≤ stop then do
      let w ← visitItem visit body w
      walkItems visit body stop fuel w
    else pure w

def QueueHeader.stop (header : QueueHeader) : ℕ :=
  if header.cursor = 0 then ITEMS_START else header.cursor

/-- Walks every live item, offering each to `visit` until one is answered; with the answer comes
the state the visitor was left in. -/
def scanLiveItems (acc : Bytes) (visit : Visitor σ ρ) (visitor : σ) :
    Scan (σ × Option ρ × ScanStats) := do
  let header ← parseHeader acc
  let stop := header.stop
  let w ← walkItems visit (acc.drop 8) stop stop
    { cur := ITEMS_START, itemsVisited := 0, liveItems := 0, visitor, found := none }
  require (w.cur = stop) (.refused .trailingBytes)
  pure (w.visitor, w.found,
    { itemsVisited := w.itemsVisited, liveItems := w.liveItems, itemCount := header.itemCount
      bytesConsumed := w.cur })

def carriesBatch (callbackProgramId batchKey : Bytes) (item : QueueItemView) : Bool :=
  item.callbackProgramId = callbackProgramId ∧ 32 ≤ item.callbackArgs.length ∧
    item.callbackArgs.take 32 = batchKey

/-- Is there a live item whose callback targets the program with the batch's key? -/
def batchRequestIsLive (acc callbackProgramId batchKey : Bytes) : Scan (Bool × ScanStats) := do
  let (_, hit, stats) ← scanLiveItems acc
    (fun _ item => ((), if carriesBatch callbackProgramId batchKey item then some () else none)) ()
  require (stats.liveItems = stats.itemCount) (.refused .itemCountMismatch)
  pure (hit.isSome, stats)

end VrfQueue

end ByeMachine
