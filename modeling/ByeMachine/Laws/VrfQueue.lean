import ByeMachine.Common.VrfQueue
import Mathlib.Data.List.Basic

/-!
# The queue's layout

The items a provider writes, the bytes they stand for, and the walk over them:
the walk succeeds exactly where items tile the live region, and then shows the
visitor the used ones in order.
-/

namespace ByeMachine

open Fallible Bytes

namespace VrfQueue

-- ---------------------------------------------------------------------------
-- Items
-- ---------------------------------------------------------------------------

/-- One item as the provider writes it, holes included. -/
structure QueueItem where
  slot : ℕ
  id : Bytes
  callbackProgramId : Bytes
  callbackDiscriminator : Bytes
  metasLen : ℕ
  callbackMetas : Bytes
  callbackArgs : Bytes
  priorityRequest : UInt8
  used : UInt8
  identityMode : UInt8
  identityBump : UInt8
  /-- The fixed part's last two bytes. -/
  reserved : Bytes
  /-- What aligns the next item. -/
  padding : Bytes
  slot_lt : slot < 256 ^ 8
  length_id : id.length = 32
  length_programId : callbackProgramId.length = 32
  length_discriminator : callbackDiscriminator.length < 256 ^ 2
  metasLen_le : metasLen ≤ MAX_CALLBACK_ACCOUNTS
  length_metas : callbackMetas.length = metasLen * META_SIZE
  length_args : callbackArgs.length ≤ MAX_CALLBACK_ARGS
  length_reserved : reserved.length = 2
  length_padding : ITEM_SIZE + callbackDiscriminator.length + callbackMetas.length
    + callbackArgs.length + padding.length = alignUp8 (ITEM_SIZE + callbackDiscriminator.length
      + callbackMetas.length + callbackArgs.length)

variable {σ ρ : Type} {item : QueueItem} {items : List QueueItem} {body body' : Bytes}
  {p p' stop : ℕ}

namespace QueueItem

section
variable (item : QueueItem) (p : ℕ)

def metasOff : ℕ := p + ITEM_SIZE + item.callbackDiscriminator.length

def argsOff : ℕ := item.metasOff p + item.callbackMetas.length

/-- The bytes an item takes, alignment included. -/
def span : ℕ :=
  alignUp8 (ITEM_SIZE + item.callbackDiscriminator.length + item.callbackMetas.length
    + item.callbackArgs.length)

def fields : List Bytes :=
  [leBytes 8 item.slot, item.id, item.callbackProgramId, leBytes 4 (p + ITEM_SIZE),
    leBytes 4 (item.metasOff p), leBytes 4 (item.argsOff p),
    leBytes 2 item.callbackDiscriminator.length, leBytes 2 item.metasLen,
    leBytes 2 item.callbackArgs.length, [item.priorityRequest], [item.used], [item.identityMode],
    [item.identityBump], item.reserved, item.callbackDiscriminator, item.callbackMetas,
    item.callbackArgs, item.padding]

def emit : Bytes := (item.fields p).flatten

def view : QueueItemView where
  pos := p
  slot := item.slot
  id := item.id
  callbackProgramId := item.callbackProgramId
  callbackDiscriminator := item.callbackDiscriminator
  callbackMetas := item.callbackMetas
  callbackArgs := item.callbackArgs
  priorityRequest := item.priorityRequest
  identityMode := item.identityMode
  identityBump := item.identityBump

def extent : Extent where
  discOff := p + ITEM_SIZE
  discEnd := item.metasOff p
  metasOff := item.metasOff p
  metasEnd := item.argsOff p
  argsOff := item.argsOff p
  argsEnd := item.argsOff p + item.callbackArgs.length
  used := item.used
  next := p + item.span

end

theorem length_emit (item : QueueItem) (p : ℕ) : (item.emit p).length = item.span := by
  rw [span, ← item.length_padding]
  simp only [emit, fields, List.length_flatten, List.map_cons, List.map_nil, List.sum_cons,
    List.sum_nil, length_leBytes, item.length_id, item.length_programId, item.length_reserved,
    List.length_cons, List.length_nil, ITEM_SIZE]
  omega

end QueueItem

def emitAll : ℕ → List QueueItem → Bytes
  | _, [] => []
  | p, item :: items => item.emit p ++ emitAll (p + item.span) items

/-- The items stand in the bytes one after the other, from `p` to `stop`. -/
def Tiles (body : Bytes) : ℕ → List QueueItem → ℕ → Prop
  | p, [], stop => p = stop
  | p, item :: items, stop =>
    body.window p item.span = some (item.emit p) ∧ Tiles body (p + item.span) items stop

theorem alignUp8_add (h : p % 8 = 0) (x : ℕ) : alignUp8 (p + x) = p + alignUp8 x := by
  unfold alignUp8
  omega

theorem alignUp8_mod (x : ℕ) : alignUp8 x % 8 = 0 := Nat.mul_mod_left _ _

theorem le_alignUp8 (x : ℕ) : x ≤ alignUp8 x := by
  unfold alignUp8
  omega

theorem QueueItem.item_size_le (item : QueueItem) : ITEM_SIZE ≤ item.span := by
  have := le_alignUp8 (ITEM_SIZE + item.callbackDiscriminator.length + item.callbackMetas.length
    + item.callbackArgs.length)
  unfold QueueItem.span
  omega

theorem Tiles.le (h : Tiles body p items stop) : p ≤ stop := by
  induction items generalizing p with
  | nil => exact h.le
  | cons item items ih =>
    have := ih h.2
    omega

theorem Tiles.window (hbody : p ≤ body.length) (h : Tiles body p items stop) :
    body.window p (stop - p) = some (emitAll p items) := by
  induction items generalizing p with
  | nil =>
    obtain rfl : p = stop := h
    rw [Nat.sub_self]
    exact window_zero hbody
  | cons item items ih =>
    obtain ⟨hitem, hrest⟩ := h
    have hle := hrest.le
    have hjoin := window_join hitem (ih (le_of_window hitem) hrest)
    rwa [show item.span + (stop - (p + item.span)) = stop - p by omega] at hjoin

theorem Tiles.congr (hfirst : body.take stop = body'.take stop) (hle : stop ≤ body.length)
    (hle' : stop ≤ body'.length) (h : Tiles body p items stop) : Tiles body' p items stop := by
  induction items generalizing p with
  | nil => exact h
  | cons item items ih =>
    obtain ⟨hitem, hrest⟩ := h
    exact ⟨(window_congr hfirst hle hle' hrest.le).symm.trans hitem, ih hrest⟩

theorem tiles_of_window (items : List QueueItem)
    (h : body.window p (emitAll p items).length = some (emitAll p items)) :
    Tiles body p items (p + (emitAll p items).length) := by
  induction items generalizing p with
  | nil => rfl
  | cons item items ih =>
    rw [emitAll, List.length_append, item.length_emit] at h ⊢
    obtain ⟨hitem, hrest⟩ := window_add h
    rw [← item.length_emit p, List.take_left] at hitem
    rw [← item.length_emit p, List.drop_left] at hrest
    refine ⟨item.length_emit p ▸ hitem, ?_⟩
    rw [← Nat.add_assoc]
    rw [item.length_emit] at hrest
    exact ih hrest

-- ---------------------------------------------------------------------------
-- Reading an item back
-- ---------------------------------------------------------------------------

theorem QueueItem.windows (h : body.window p item.span = some (item.emit p)) :
    body.window p 8 = some (leBytes 8 item.slot) ∧
    body.window (p + 8) 32 = some item.id ∧
    body.window (p + 40) 32 = some item.callbackProgramId ∧
    body.window (p + 72) 4 = some (leBytes 4 (p + ITEM_SIZE)) ∧
    body.window (p + 76) 4 = some (leBytes 4 (item.metasOff p)) ∧
    body.window (p + 80) 4 = some (leBytes 4 (item.argsOff p)) ∧
    body.window (p + 84) 2 = some (leBytes 2 item.callbackDiscriminator.length) ∧
    body.window (p + 86) 2 = some (leBytes 2 item.metasLen) ∧
    body.window (p + 88) 2 = some (leBytes 2 item.callbackArgs.length) ∧
    body.window (p + 90) 1 = some [item.priorityRequest] ∧
    body.window (p + 91) 1 = some [item.used] ∧
    body.window (p + 92) 1 = some [item.identityMode] ∧
    body.window (p + 93) 1 = some [item.identityBump] ∧
    body.window (p + ITEM_SIZE) item.callbackDiscriminator.length
      = some item.callbackDiscriminator ∧
    body.window (item.metasOff p) item.callbackMetas.length = some item.callbackMetas ∧
    body.window (item.argsOff p) item.callbackArgs.length = some item.callbackArgs := by
  rw [← item.length_emit p] at h
  have hstands := stands_iff.mpr h
  simp only [fields, Stands, length_leBytes, item.length_id, item.length_programId,
    item.length_reserved, List.length_cons, List.length_nil, Nat.add_assoc, Nat.reduceAdd]
    at hstands
  simp only [metasOff, argsOff, ITEM_SIZE, Nat.add_assoc] at hstands ⊢
  tauto

theorem readBytes_eq {b x : Bytes} {i n : ℕ} (h : b.window i n = some x) :
    readBytes b i n = .ok x := by
  rw [readBytes, h, okOr_some]

theorem readLe_eq {b : Bytes} {i n value : ℕ} (h : b.window i n = some (leBytes n value))
    (hvalue : value < 256 ^ n) : readLe b i n = .ok value := by
  simp only [readLe, readBytes_eq h, ok_bind, leNat_leBytes hvalue]
  rfl

theorem readU8_eq {b : Bytes} {i : ℕ} {byte : UInt8} (h : b.window i 1 = some [byte]) :
    readU8 b i = .ok byte := by
  rw [readU8, getElem?_of_window h, okOr_some]

theorem saturatingAdd_of_lt {x y : ℕ} (h : x + y < 2 ^ 64) : saturatingAdd x y = x + y :=
  Nat.min_eq_left (by omega)

theorem QueueItem.argsEnd_le (item : QueueItem) (p : ℕ) :
    item.argsOff p + item.callbackArgs.length ≤ p + item.span := by
  have := le_alignUp8 (ITEM_SIZE + item.callbackDiscriminator.length + item.callbackMetas.length
    + item.callbackArgs.length)
  simp only [argsOff, metasOff, span]
  omega

theorem readExtent_eq (h : body.window p item.span = some (item.emit p)) (haligned : p % 8 = 0)
    (hbody : p + item.span < 2 ^ 32) : readExtent body p = .ok (item.extent p) := by
  obtain ⟨-, -, -, hdisc, hmetas, hargs, hdiscLen, hmetasLen, hargsLen, -, hused, -⟩ :=
    item.windows h
  have hend := item.argsEnd_le p
  have hsize := item.item_size_le
  have hlimit := item.metasLen_le
  have hargsLimit := item.length_args
  have hlimits : ¬(MAX_CALLBACK_ACCOUNTS < item.metasLen
      ∨ MAX_CALLBACK_ARGS < item.callbackArgs.length) := by omega
  have hmetasBytes := item.length_metas
  have hlen := le_of_window h
  have hnext : alignUp8 (p + ITEM_SIZE + item.callbackDiscriminator.length
      + item.callbackMetas.length + item.callbackArgs.length) = p + item.span := by
    simp only [QueueItem.span, ← alignUp8_add haligned, Nat.add_assoc]
  simp only [QueueItem.argsOff, QueueItem.metasOff] at hend hdisc hmetas hargs
  simp only [MAX_CALLBACK_ACCOUNTS, MAX_CALLBACK_ARGS] at hlimit hargsLimit
  simp only [readExtent, readU32, readU16, readLe_eq hdisc (by omega),
    readLe_eq hmetas (by omega), readLe_eq hargs (by omega),
    readLe_eq hdiscLen item.length_discriminator, readLe_eq hmetasLen (by omega),
    readLe_eq hargsLen (by omega), readU8_eq hused, ok_bind, ← hmetasBytes]
  rw [saturatingAdd_of_lt (by omega), saturatingAdd_of_lt (by omega),
    saturatingAdd_of_lt (by omega), require_pos hlimits, require_pos (by omega),
    require_pos (by simp)]
  simp only [ok_bind, hnext]
  rfl

theorem readItem_eq (h : body.window p item.span = some (item.emit p)) :
    readItem body p (item.extent p) = .ok (item.view p) := by
  obtain ⟨hslot, hid, hprogram, -, -, -, -, -, -, hpriority, -, hmode, hbump, hdisc, hmetas,
    hargs⟩ := item.windows h
  have hdiscLen : (item.extent p).discEnd - (item.extent p).discOff
      = item.callbackDiscriminator.length := Nat.add_sub_cancel_left _ _
  have hmetasLen : (item.extent p).metasEnd - (item.extent p).metasOff
      = item.callbackMetas.length := Nat.add_sub_cancel_left _ _
  have hargsLen : (item.extent p).argsEnd - (item.extent p).argsOff
      = item.callbackArgs.length := Nat.add_sub_cancel_left _ _
  simp only [readItem, hdiscLen, hmetasLen, hargsLen, readLe_eq hslot item.slot_lt,
    readBytes_eq hid, readBytes_eq hprogram, readU8_eq hpriority, readU8_eq hmode,
    readU8_eq hbump, ok_bind]
  simp only [QueueItem.extent, readBytes_eq hdisc, readBytes_eq hmetas, readBytes_eq hargs,
    ok_bind]
  rfl

-- ---------------------------------------------------------------------------
-- Walking over items
-- ---------------------------------------------------------------------------

section
variable (visit : Visitor σ ρ)

/-- The visitor's state and answer once it was called on the items, up to its first answer. -/
def callUntil : List QueueItemView → σ → σ × Option ρ
  | [], visitor => (visitor, none)
  | view :: views, visitor =>
    match visit visitor view with
    | (visitor, some answer) => (visitor, some answer)
    | (visitor, none) => callUntil views visitor

def liveViews : ℕ → List QueueItem → List QueueItemView
  | _, [] => []
  | p, item :: items =>
    if item.used = 1 then item.view p :: liveViews (p + item.span) items
    else liveViews (p + item.span) items

def liveCount (items : List QueueItem) : ℕ := (items.filter fun item => item.used = 1).length

def QueueItem.shown (item : QueueItem) (w : Walk σ ρ) : Walk σ ρ :=
  if item.used = 1 then offer visit (item.view w.cur) { w with liveItems := w.liveItems + 1 }
  else w

def QueueItem.pass (item : QueueItem) (w : Walk σ ρ) : Walk σ ρ :=
  { item.shown visit { w with itemsVisited := w.itemsVisited + 1 } with cur := w.cur + item.span }

def passAll : List QueueItem → Walk σ ρ → Walk σ ρ
  | [], w => w
  | item :: items, w => passAll items (item.pass visit w)

variable {visit} {w w' : Walk σ ρ} {fuel : ℕ}

@[simp] theorem QueueItem.pass_cur : (item.pass visit w).cur = w.cur + item.span := rfl

theorem offer_cur (item : QueueItemView) (w : Walk σ ρ) : (offer visit item w).cur = w.cur := by
  unfold offer
  split <;> rfl

@[simp] theorem QueueItem.shown_cur : (item.shown visit w).cur = w.cur := by
  unfold shown
  split
  · exact offer_cur _ _
  · rfl

theorem visitUsed_eq (h : body.window w.cur item.span = some (item.emit w.cur)) :
    visitUsed visit body (item.extent w.cur) w = .ok (item.shown visit w) := by
  rw [visitUsed, readItem_eq h, QueueItem.shown]
  change (if item.used = 1 then _ else _) = _
  split <;> rfl

theorem visitItem_eq (h : body.window w.cur item.span = some (item.emit w.cur))
    (haligned : w.cur % 8 = 0) (hbody : w.cur + item.span < 2 ^ 32) :
    visitItem visit body w = .ok (item.pass visit w) := by
  have hsize := item.item_size_le
  have hmoves : ¬w.cur + item.span ≤ w.cur := by
    simp only [ITEM_SIZE] at hsize
    omega
  have hused : visitUsed visit body (item.extent w.cur) { w with itemsVisited := w.itemsVisited + 1 }
      = .ok (item.shown visit { w with itemsVisited := w.itemsVisited + 1 }) :=
    visitUsed_eq (w := { w with itemsVisited := w.itemsVisited + 1 }) h
  simp only [visitItem, readExtent_eq h haligned hbody, ok_bind, hused, QueueItem.shown_cur]
  rw [show (item.extent w.cur).next = w.cur + item.span from rfl, require_pos hmoves]
  rfl

theorem walkItems_tiles (h : Tiles body w.cur items stop) (haligned : w.cur % 8 = 0)
    (hstop : stop < 2 ^ 32) (hfuel : stop - w.cur ≤ fuel) :
    walkItems visit body stop fuel w = .ok (passAll visit items w) := by
  induction items generalizing w fuel with
  | nil =>
    obtain rfl : w.cur = stop := h
    cases fuel with
    | zero => rfl
    | succ fuel => rw [walkItems, if_neg (by simp only [ITEM_SIZE]; omega)]; rfl
  | cons item items ih =>
    obtain ⟨hitem, hrest⟩ := h
    have hle := hrest.le
    have hsize := item.item_size_le
    have hspan := alignUp8_mod (ITEM_SIZE + item.callbackDiscriminator.length
      + item.callbackMetas.length + item.callbackArgs.length)
    rw [← QueueItem.span] at hspan
    cases fuel with
    | zero => simp only [ITEM_SIZE] at hsize; omega
    | succ fuel =>
      rw [walkItems, if_pos (by omega), visitItem_eq hitem haligned (by omega), ok_bind]
      simp only [ITEM_SIZE] at hsize
      exact ih hrest (by rw [QueueItem.pass_cur]; omega) (by rw [QueueItem.pass_cur]; omega)

theorem passAll_cur (h : Tiles body w.cur items stop) : (passAll visit items w).cur = stop := by
  induction items generalizing w with
  | nil => exact h
  | cons item items ih => exact ih h.2

@[simp] theorem offer_visited (item : QueueItemView) (w : Walk σ ρ) :
    (offer visit item w).itemsVisited = w.itemsVisited := by
  unfold offer
  split <;> rfl

@[simp] theorem offer_live (item : QueueItemView) (w : Walk σ ρ) :
    (offer visit item w).liveItems = w.liveItems := by
  unfold offer
  split <;> rfl

theorem passAll_counts : (passAll visit items w).itemsVisited = w.itemsVisited + items.length ∧
    (passAll visit items w).liveItems = w.liveItems + liveCount items := by
  induction items generalizing w with
  | nil => exact ⟨rfl, rfl⟩
  | cons item items ih =>
    obtain ⟨hvisited, hlive⟩ := ih (w := item.pass visit w)
    rw [passAll, hvisited, hlive, List.length_cons]
    by_cases hused : item.used = 1
    · simp [QueueItem.pass, QueueItem.shown, hused, liveCount]
      omega
    · simp [QueueItem.pass, QueueItem.shown, hused, liveCount]
      omega

theorem passAll_answered {answer : ρ} (hfound : w.found = some answer) :
    (passAll visit items w).visitor = w.visitor ∧ (passAll visit items w).found = w.found := by
  induction items generalizing w with
  | nil => exact ⟨rfl, rfl⟩
  | cons item items ih =>
    have hpass : (item.pass visit w).visitor = w.visitor ∧ (item.pass visit w).found = w.found := by
      simp only [QueueItem.pass, QueueItem.shown, offer, hfound]
      split <;> simp
    obtain ⟨hvisitor, hfound'⟩ := ih (hpass.2.trans hfound)
    exact ⟨hvisitor.trans hpass.1, hfound'.trans hpass.2⟩

theorem passAll_calls (hfound : w.found = none) :
    ((passAll visit items w).visitor, (passAll visit items w).found)
      = callUntil visit (liveViews w.cur items) w.visitor := by
  induction items generalizing w with
  | nil => simp [passAll, liveViews, callUntil, hfound]
  | cons item items ih =>
    by_cases hused : item.used = 1
    · rw [liveViews, if_pos hused, callUntil]
      cases hvisit : visit w.visitor (item.view w.cur) with
      | mk visitor found =>
        have hpass : (item.pass visit w).visitor = visitor ∧ (item.pass visit w).found = found := by
          simp [QueueItem.pass, QueueItem.shown, hused, offer, hfound, hvisit]
        cases found with
        | none =>
          have hrest := ih (w := item.pass visit w) hpass.2
          rwa [hpass.1] at hrest
        | some answer =>
          obtain ⟨hvisitor, hanswer⟩ := @passAll_answered _ _ items visit _ _ hpass.2
          simp only [passAll, hvisitor, hanswer, hpass.1, hpass.2]
    · have hpass : (item.pass visit w).visitor = w.visitor ∧ (item.pass visit w).found = none := by
        simp [QueueItem.pass, QueueItem.shown, hused, hfound]
      rw [liveViews, if_neg hused]
      have hrest := ih (w := item.pass visit w) hpass.2
      rwa [hpass.1] at hrest

theorem passAll_start {visitor : σ} (h : Tiles body p items stop) :
    passAll visit items ⟨p, 0, 0, visitor, none⟩
      = ⟨stop, items.length, liveCount items, (callUntil visit (liveViews p items) visitor).1,
        (callUntil visit (liveViews p items) visitor).2⟩ := by
  generalize hw : passAll visit items ⟨p, 0, 0, visitor, none⟩ = w
  have hcur : w.cur = stop := hw ▸ passAll_cur h
  have hcounts : w.itemsVisited = 0 + items.length ∧ w.liveItems = 0 + liveCount items :=
    hw ▸ passAll_counts
  have hcalls : (w.visitor, w.found) = callUntil visit (liveViews p items) visitor :=
    hw ▸ passAll_calls rfl
  rw [← hcalls, ← hcur]
  cases w
  simp only [Nat.zero_add] at hcounts ⊢
  rw [hcounts.1, hcounts.2]

end

-- ---------------------------------------------------------------------------
-- Parsing an item
-- ---------------------------------------------------------------------------

theorem leBytes_leNat_of_length {b : Bytes} {n : ℕ} (h : b.length = n) :
    leBytes n (leNat b) = b := h ▸ leBytes_leNat b

theorem readLe_ok {b : Bytes} {i n value : ℕ} (h : readLe b i n = .ok value) :
    b.window i n = some (leBytes n value) ∧ value < 256 ^ n := by
  simp only [readLe, readBytes, bind_ok, okOr_ok, pure_ok] at h
  obtain ⟨bytes, hbytes, rfl⟩ := h
  have hlen := length_of_window hbytes
  rw [leBytes_leNat_of_length hlen]
  exact ⟨hbytes, hlen ▸ leNat_lt bytes⟩

theorem readU8_ok {b : Bytes} {i : ℕ} {byte : UInt8} (h : readU8 b i = .ok byte) :
    b.window i 1 = some [byte] := by
  rw [readU8, okOr_ok] at h
  exact window_one h

/-- Where the parser accepts an extent, its offsets and lengths stand as the layout has them. -/
theorem readExtent_ok {extent : Extent} (h : readExtent body p = .ok extent) :
    ∃ discLen metasLen argsLen, discLen < 256 ^ 2 ∧ metasLen ≤ MAX_CALLBACK_ACCOUNTS ∧
      argsLen ≤ MAX_CALLBACK_ARGS ∧
      body.window (p + 72) 4 = some (leBytes 4 (p + ITEM_SIZE)) ∧
      body.window (p + 76) 4 = some (leBytes 4 (p + ITEM_SIZE + discLen)) ∧
      body.window (p + 80) 4 = some (leBytes 4 (p + ITEM_SIZE + discLen + metasLen * META_SIZE)) ∧
      body.window (p + 84) 2 = some (leBytes 2 discLen) ∧
      body.window (p + 86) 2 = some (leBytes 2 metasLen) ∧
      body.window (p + 88) 2 = some (leBytes 2 argsLen) ∧
      body.window (p + 91) 1 = some [extent.used] ∧
      extent.next = alignUp8 (p + ITEM_SIZE + discLen + metasLen * META_SIZE + argsLen) := by
  simp only [readExtent, readU32, readU16, bind_ok, require_ok, pure_ok, exists_and_left,
    exists_const] at h
  obtain ⟨discOff, hdisc, metasOff, hmetas, argsOff, hargs, discLen, hdiscLen, metasLen,
    hmetasLen, argsLen, hargsLen, used, hused, hlimits, -, hcontiguous, rfl⟩ := h
  simp only [not_or, not_not, Nat.not_lt] at hlimits hcontiguous
  obtain ⟨hmetasLimit, hargsLimit⟩ := hlimits
  obtain ⟨rfl, hmetasAt, hargsAt⟩ := hcontiguous
  obtain ⟨hdisc, hdiscOff⟩ := readLe_ok hdisc
  obtain ⟨hmetas, hmetasOff⟩ := readLe_ok hmetas
  obtain ⟨hargs, -⟩ := readLe_ok hargs
  obtain ⟨hdiscLen, hdiscLt⟩ := readLe_ok hdiscLen
  have hmetasBytes : metasLen * META_SIZE ≤ 25 * META_SIZE := Nat.mul_le_mul_right _ hmetasLimit
  simp only [META_SIZE] at hmetasBytes
  rw [saturatingAdd_of_lt (by omega)] at hmetasAt
  subst hmetasAt
  rw [saturatingAdd_of_lt (by simp only [META_SIZE]; omega)] at hargsAt
  subst hargsAt
  exact ⟨discLen, metasLen, argsLen, hdiscLt, hmetasLimit, hargsLimit, hdisc, hmetas, hargs,
    hdiscLen, (readLe_ok hmetasLen).1, (readLe_ok hargsLen).1, readU8_ok hused, rfl⟩

/-- Where the parser accepts an extent, an item stands. -/
theorem exists_item {extent : Extent} (h : readExtent body p = .ok extent) (haligned : p % 8 = 0)
    (hnext : extent.next ≤ body.length) :
    ∃ item : QueueItem, body.window p item.span = some (item.emit p) ∧
      p + item.span = extent.next := by
  obtain ⟨discLen, metasLen, argsLen, hdiscLt, hmetasLimit, hargsLimit, hdisc, hmetas, hargs,
    hdiscLen, hmetasLen, hargsLen, hused, hend⟩ := readExtent_ok h
  have hspan : p + alignUp8 (ITEM_SIZE + discLen + metasLen * META_SIZE + argsLen)
      = extent.next := by
    rw [hend, ← alignUp8_add haligned]
    simp only [Nat.add_assoc]
  have hle := le_alignUp8 (ITEM_SIZE + discLen + metasLen * META_SIZE + argsLen)
  generalize hsize : alignUp8 (ITEM_SIZE + discLen + metasLen * META_SIZE + argsLen) = size
    at hspan hle
  simp only [ITEM_SIZE] at hle hsize
  have hbytes : ∀ i n, i + n ≤ size → ∃ x : Bytes, body.window (p + i) n = some x ∧
      x.length = n := by
    intro i n hin
    have hwindow : body.window (p + i) n = some ((body.drop (p + i)).take n) :=
      window_of_le (by omega)
    exact ⟨_, hwindow, length_of_window hwindow⟩
  have hbyte : ∀ i, i < size → ∃ byte, body.window (p + i) 1 = some [byte] := by
    intro i hin
    obtain ⟨x, hx, hone⟩ := hbytes i 1 hin
    obtain ⟨byte, rfl⟩ := List.length_eq_one_iff.mp hone
    exact ⟨byte, hx⟩
  obtain ⟨slot, hslotAt, hslot⟩ := hbytes 0 8 (by omega)
  obtain ⟨id, hidAt, hid⟩ := hbytes 8 32 (by omega)
  obtain ⟨program, hprogramAt, hprogram⟩ := hbytes 40 32 (by omega)
  obtain ⟨priority, hpriorityAt⟩ := hbyte 90 (by omega)
  obtain ⟨mode, hmodeAt⟩ := hbyte 92 (by omega)
  obtain ⟨bump, hbumpAt⟩ := hbyte 93 (by omega)
  obtain ⟨reserved, hreservedAt, hreserved⟩ := hbytes 94 2 (by omega)
  obtain ⟨discriminator, hdiscriminatorAt, hdiscriminator⟩ := hbytes 96 discLen (by omega)
  obtain ⟨accounts, haccountsAt, haccounts⟩ :=
    hbytes (96 + discLen) (metasLen * META_SIZE) (by omega)
  obtain ⟨arguments, hargumentsAt, harguments⟩ :=
    hbytes (96 + discLen + metasLen * META_SIZE) argsLen (by omega)
  obtain ⟨padding, hpaddingAt, hpadding⟩ :=
    hbytes (96 + discLen + metasLen * META_SIZE + argsLen)
      (size - (96 + discLen + metasLen * META_SIZE + argsLen)) (by omega)
  let item : QueueItem :=
    { slot := leNat slot, id, callbackProgramId := program
      callbackDiscriminator := discriminator, metasLen, callbackMetas := accounts
      callbackArgs := arguments, priorityRequest := priority, used := extent.used
      identityMode := mode, identityBump := bump, reserved, padding
      slot_lt := hslot ▸ leNat_lt slot
      length_id := hid
      length_programId := hprogram
      length_discriminator := hdiscriminator ▸ hdiscLt
      metasLen_le := hmetasLimit
      length_metas := haccounts
      length_args := harguments ▸ hargsLimit
      length_reserved := hreserved
      length_padding := by
        rw [hdiscriminator, haccounts, harguments, hpadding, ITEM_SIZE, hsize]
        omega }
  have hitem : item.span = size := by
    rw [← hsize, ← hdiscriminator, ← haccounts, ← harguments]
    rfl
  refine ⟨item, ?_, by rw [hitem, hspan]⟩
  rw [← item.length_emit p]
  refine stands_iff.mp ?_
  simp only [item, QueueItem.fields, Stands, QueueItem.metasOff, QueueItem.argsOff, ITEM_SIZE,
    length_leBytes, leBytes_leNat_of_length hslot, hslot, hid, hprogram, hreserved,
    hdiscriminator, haccounts, harguments, hpadding, List.length_cons, List.length_nil,
    Nat.add_zero, Nat.add_assoc, Nat.reduceAdd]
    at hdisc hmetas hargs hslotAt haccountsAt hargumentsAt hpaddingAt ⊢
  exact ⟨hslotAt, hidAt, hprogramAt, hdisc, hmetas, hargs, hdiscLen, hmetasLen, hargsLen,
    hpriorityAt, hused, hmodeAt, hbumpAt, hreservedAt, hdiscriminatorAt, haccountsAt,
    hargumentsAt, hpaddingAt, by omega⟩

-- ---------------------------------------------------------------------------
-- Parsing the region
-- ---------------------------------------------------------------------------

section
variable {visit : Visitor σ ρ} {w w' : Walk σ ρ} {fuel : ℕ}

theorem visitItem_ok (h : visitItem visit body w = .ok w') :
    ∃ extent, readExtent body w.cur = .ok extent ∧ w'.cur = extent.next ∧ w.cur < extent.next := by
  simp only [visitItem, bind_ok, require_ok, pure_ok, exists_and_left] at h
  obtain ⟨extent, hextent, w₁, hw₁, hmoves, -, rfl⟩ := h
  have hcur : w₁.cur = w.cur := by
    unfold visitUsed at hw₁
    split at hw₁
    · simp only [bind_ok, pure_ok] at hw₁
      obtain ⟨item, -, rfl⟩ := hw₁
      exact offer_cur _ _
    · simp only [pure_ok] at hw₁
      rw [← hw₁]
  rw [hcur] at hmoves
  exact ⟨extent, hextent, rfl, Nat.not_le.mp hmoves⟩

theorem walkItems_le (h : walkItems visit body stop fuel w = .ok w') : w.cur ≤ w'.cur := by
  induction fuel generalizing w with
  | zero =>
    simp only [walkItems, pure_ok] at h
    rw [h]
  | succ fuel ih =>
    rw [walkItems] at h
    split at h
    · rw [bind_ok] at h
      obtain ⟨w₁, hw₁, hrest⟩ := h
      obtain ⟨extent, -, hcur, hmoves⟩ := visitItem_ok hw₁
      have := ih hrest
      omega
    · rw [pure_ok] at h
      rw [h]

/-- A walk that ends where the region does went over items. -/
theorem walkItems_ok (hbody : w.cur < stop → stop ≤ body.length) (hstop : stop < 2 ^ 32)
    (haligned : w.cur % 8 = 0) (h : walkItems visit body stop fuel w = .ok w')
    (hend : w'.cur = stop) :
    ∃ items, Tiles body w.cur items stop ∧ w' = passAll visit items w := by
  induction fuel generalizing w with
  | zero =>
    simp only [walkItems, pure_ok] at h
    exact ⟨[], by rw [h]; exact hend, h.symm⟩
  | succ fuel ih =>
    rw [walkItems] at h
    split at h
    case isFalse =>
      rw [pure_ok] at h
      exact ⟨[], by rw [h]; exact hend, h.symm⟩
    case isTrue hfits =>
      rw [bind_ok] at h
      obtain ⟨w₁, hw₁, hrest⟩ := h
      obtain ⟨extent, hextent, hcur, -⟩ := visitItem_ok hw₁
      have hnext := walkItems_le hrest
      have hlen := hbody (by simp only [ITEM_SIZE] at hfits; omega)
      obtain ⟨item, hitem, hspan⟩ := exists_item hextent haligned (by omega)
      have hmod := alignUp8_mod (ITEM_SIZE + item.callbackDiscriminator.length
        + item.callbackMetas.length + item.callbackArgs.length)
      rw [← QueueItem.span] at hmod
      rw [visitItem_eq hitem haligned (by omega), Except.ok.injEq] at hw₁
      subst hw₁
      obtain ⟨items, htiles, rfl⟩ := ih (fun _ => hlen) (by rw [QueueItem.pass_cur]; omega) hrest
      exact ⟨item :: items, ⟨hitem, htiles⟩, rfl⟩

end

-- ---------------------------------------------------------------------------
-- Scanning
-- ---------------------------------------------------------------------------

/-- The account begins with the header, and the header fits the account. -/
structure Heads (acc : Bytes) (header : QueueHeader) : Prop where
  discriminator : acc.take 8 = QUEUE_DISCRIMINATOR
  size : 8 + HEADER_SIZE ≤ acc.length
  itemCount : window (acc.drop 8) 0 4 = some (leBytes 4 header.itemCount)
  itemCount_lt : header.itemCount < 256 ^ 4
  cursor : window (acc.drop 8) 4 4 = some (leBytes 4 header.cursor)
  cursor_lt : header.cursor < 256 ^ 4
  index : window (acc.drop 8) 8 1 = some [header.index]
  paused : window (acc.drop 8) 9 1 = some [header.paused]
  bounds : header.cursor = 0 ∧ header.itemCount = 0 ∨
    ITEMS_START ≤ header.cursor ∧ header.cursor ≤ (acc.drop 8).length

section
variable {acc acc' : Bytes} {header : QueueHeader}

theorem parseHeader_ok : parseHeader acc = .ok header ↔ Heads acc header := by
  constructor
  · intro h
    simp only [parseHeader, readU32, bind_ok, require_ok, pure_ok, exists_and_left,
      exists_const] at h
    obtain ⟨⟨hlen, htake⟩, hsize, itemCount, hitemCount, cursor, hcursor, hbounds, hzero, index,
      hindex, paused, hpaused, rfl⟩ := h
    obtain ⟨hitemCount, hitemCountLt⟩ := readLe_ok hitemCount
    obtain ⟨hcursor, hcursorLt⟩ := readLe_ok hcursor
    rw [List.length_drop] at hsize
    refine ⟨htake, by omega, hitemCount, hitemCountLt, hcursor, hcursorLt, readU8_ok hindex,
      readU8_ok hpaused, ?_⟩
    by_cases hc : cursor = 0
    · exact .inl ⟨hc, not_not.mp fun hne => hzero ⟨hc, hne⟩⟩
    · simp only [ne_eq, hc, not_false_eq_true, true_and, not_or, Nat.not_lt] at hbounds
      exact .inr hbounds
  · intro h
    have hsize := h.size
    have hbounds : ¬(header.cursor ≠ 0 ∧
        (header.cursor < ITEMS_START ∨ (acc.drop 8).length < header.cursor)) := by
      rcases h.bounds with ⟨hzero, -⟩ | ⟨hstart, hlen⟩ <;> omega
    have hzero : ¬(header.cursor = 0 ∧ header.itemCount ≠ 0) := by
      rcases h.bounds with ⟨-, hcount⟩ | ⟨hstart, -⟩
      · omega
      · simp only [ITEMS_START] at hstart
        omega
    simp only [parseHeader, readU32, require_pos (⟨by omega, h.discriminator⟩ :
        8 ≤ acc.length ∧ acc.take 8 = QUEUE_DISCRIMINATOR), ok_bind,
      require_pos (show HEADER_SIZE ≤ (acc.drop 8).length by rw [List.length_drop]; omega),
      readLe_eq h.itemCount h.itemCount_lt, readLe_eq h.cursor h.cursor_lt, require_pos hbounds,
      require_pos hzero, readU8_eq h.index, readU8_eq h.paused]
    rfl

theorem Heads.stop_lt (h : Heads acc header) : header.stop < 2 ^ 32 := by
  have := h.cursor_lt
  unfold QueueHeader.stop
  split
  · simp [ITEMS_START]
  · omega

theorem Heads.stop_le (h : Heads acc header) (hlt : ITEMS_START < header.stop) :
    header.stop ≤ (acc.drop 8).length := by
  rcases h.bounds with ⟨hzero, -⟩ | ⟨hstart, hlen⟩
  · rw [QueueHeader.stop, if_pos hzero] at hlt
    exact absurd hlt (Nat.lt_irrefl _)
  · rwa [QueueHeader.stop, if_neg (by unfold ITEMS_START at hstart; omega)]

theorem Tiles.eq_nil (h : Tiles body p items p) : items = [] := by
  cases items with
  | nil => rfl
  | cons item items =>
    have hle := h.2.le
    have hsize := item.item_size_le
    simp only [ITEM_SIZE] at hsize
    omega

theorem Tiles.region (hheads : Heads acc header)
    (h : Tiles (acc.drop 8) ITEMS_START items header.stop) :
    ((acc.drop 8).drop ITEMS_START).take (header.cursor - ITEMS_START)
      = emitAll ITEMS_START items := by
  rcases hheads.bounds with ⟨hzero, -⟩ | ⟨hstart, hlen⟩
  · have hstop : header.stop = ITEMS_START := if_pos hzero
    rw [hstop] at h
    rw [h.eq_nil, hzero]
    rfl
  · have hstop : header.stop = header.cursor := if_neg (by simp only [ITEMS_START] at hstart; omega)
    rw [hstop] at h
    exact (window_some.mp (h.window (hstart.trans hlen))).2

def scanned (visit : Visitor σ ρ) (visitor : σ) (header : QueueHeader) (items : List QueueItem) :
    σ × Option ρ × ScanStats :=
  ((callUntil visit (liveViews ITEMS_START items) visitor).1,
    (callUntil visit (liveViews ITEMS_START items) visitor).2,
    { itemsVisited := items.length, liveItems := liveCount items, itemCount := header.itemCount
      bytesConsumed := header.stop })

/-- A scan succeeds exactly where items tile the live region, and then answers as they have it. -/
theorem scanLiveItems_ok {visit : Visitor σ ρ} {visitor : σ} {out : σ × Option ρ × ScanStats} :
    scanLiveItems acc visit visitor = .ok out ↔ ∃ header items, Heads acc header ∧
      Tiles (acc.drop 8) ITEMS_START items header.stop ∧ out = scanned visit visitor header items := by
  have haligned : ITEMS_START % 8 = 0 := by decide
  constructor
  · intro h
    simp only [scanLiveItems, bind_ok, require_ok, pure_ok, exists_and_left, exists_const] at h
    obtain ⟨header, hheader, w, hw, hend, rfl⟩ := h
    have hheads := parseHeader_ok.mp hheader
    obtain ⟨items, htiles, rfl⟩ := walkItems_ok hheads.stop_le hheads.stop_lt haligned hw hend
    exact ⟨header, items, hheads, htiles, by rw [passAll_start htiles]; rfl⟩
  · rintro ⟨header, items, hheads, htiles, rfl⟩
    have hwalk : walkItems visit (acc.drop 8) header.stop header.stop
        ⟨ITEMS_START, 0, 0, visitor, none⟩ = .ok _ :=
      walkItems_tiles htiles haligned hheads.stop_lt (Nat.sub_le _ _)
    rw [passAll_start htiles] at hwalk
    simp only [scanLiveItems, parseHeader_ok.mpr hheads, ok_bind, hwalk, require_pos]
    rfl

end

end VrfQueue

end ByeMachine
