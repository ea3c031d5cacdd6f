import ByeMachine.Laws.VrfQueue

/-!
# The queue parser on any bytes

No read of the parser is outside the bytes: each is covered by a check made
before it. Every turn of the walk moves forward, so the walk ends, and what a
visitor is shown stands inside the item's own slot.
-/

namespace ByeMachine.VrfQueue

open Fallible Bytes

variable {α σ ρ : Type} {acc body b : Bytes} {i n p stop fuel : ℕ} {visit : Visitor σ ρ}
  {w w' : Walk σ ρ} {extent : Extent} {header : QueueHeader}

/-- An answer or one of the listed errors, and no read outside the bytes. -/
def Total (m : Scan α) : Prop := (∃ a, m = .ok a) ∨ ∃ error, m = .error (.refused error)

theorem total_of_avoids {m : Scan α} (h : Avoids ScanError.panic m) : Total m := by
  cases m with
  | ok a => exact .inl ⟨a, rfl⟩
  | error e =>
    cases e with
    | refused error => exact .inr ⟨error, rfl⟩
    | panic => exact absurd rfl h

-- ---------------------------------------------------------------------------
-- Reads inside the bytes
-- ---------------------------------------------------------------------------

theorem readBytes_avoids (h : i + n ≤ b.length) : Avoids .panic (readBytes b i n) :=
  .okOr (by rw [window_of_le h]; rfl)

theorem readLe_avoids (h : i + n ≤ b.length) : Avoids .panic (readLe b i n) :=
  (readBytes_avoids h).bind fun _ _ => .pure

theorem readU8_avoids (h : i < b.length) : Avoids .panic (readU8 b i) :=
  .okOr (by rw [List.getElem?_eq_getElem h]; rfl)

theorem refused_avoids {q : Prop} [Decidable q] (error : VrfQueueError) :
    Avoids ScanError.panic (require q (ScanError.refused error)) :=
  .require fun h => by cases h

theorem parseHeader_avoids (acc : Bytes) : Avoids .panic (parseHeader acc) := by
  refine (refused_avoids _).bind fun _ _ => (refused_avoids _).bind fun _ hsize => ?_
  have hsize : HEADER_SIZE ≤ (acc.drop 8).length := require_ok.mp hsize
  unfold HEADER_SIZE at hsize
  exact (readLe_avoids (by omega)).bind fun _ _ => (readLe_avoids (by omega)).bind fun _ _ =>
    (refused_avoids _).bind fun _ _ => (refused_avoids _).bind fun _ _ =>
    (readU8_avoids (by omega)).bind fun _ _ => (readU8_avoids (by omega)).bind fun _ _ => .pure

/-- The loop's condition covers the fixed part of the item. -/
theorem readExtent_avoids (h : p + ITEM_SIZE ≤ body.length) :
    Avoids .panic (readExtent body p) := by
  unfold ITEM_SIZE at h
  exact (readLe_avoids (by omega)).bind fun _ _ => (readLe_avoids (by omega)).bind fun _ _ =>
    (readLe_avoids (by omega)).bind fun _ _ => (readLe_avoids (by omega)).bind fun _ _ =>
    (readLe_avoids (by omega)).bind fun _ _ => (readLe_avoids (by omega)).bind fun _ _ =>
    (readU8_avoids (by omega)).bind fun _ _ => (refused_avoids _).bind fun _ _ =>
    (refused_avoids _).bind fun _ _ => (refused_avoids _).bind fun _ _ => .pure

/-- The regions follow the fixed part and each other, inside the bytes and before the next item. -/
structure Extent.Ordered (extent : Extent) (body : Bytes) (p : ℕ) : Prop where
  disc : extent.discOff = p + ITEM_SIZE
  discLe : extent.discOff ≤ extent.discEnd
  metas : extent.metasOff = extent.discEnd
  metasLe : extent.metasOff ≤ extent.metasEnd
  args : extent.argsOff = extent.metasEnd
  argsLe : extent.argsOff ≤ extent.argsEnd
  inside : extent.argsEnd ≤ body.length
  next : extent.argsEnd ≤ extent.next

theorem le_saturatingAdd {x y : ℕ} (h : x < 2 ^ 64) : x ≤ saturatingAdd x y :=
  Nat.le_min.mpr ⟨Nat.le_add_right x y, by omega⟩

theorem saturatingAdd_le (x y : ℕ) : saturatingAdd x y ≤ x + y := Nat.min_le_left _ _

theorem readExtent_ordered (h : readExtent body p = .ok extent) : extent.Ordered body p := by
  simp only [readExtent, readU32, readU16, bind_ok, require_ok, pure_ok, exists_and_left,
    exists_const] at h
  obtain ⟨discOff, hdisc, metasOff, hmetas, argsOff, hargs, discLen, -, metasLen, -, argsLen, -,
    used, -, -, hinside, hcontiguous, rfl⟩ := h
  simp only [not_or, not_not, Nat.not_lt] at hinside hcontiguous
  obtain ⟨hdiscAt, hmetasAt, hargsAt⟩ := hcontiguous
  have hdiscLe : discOff ≤ saturatingAdd discOff discLen :=
    le_saturatingAdd ((readLe_ok hdisc).2.trans (by decide))
  have hmetasLe : metasOff ≤ saturatingAdd metasOff (metasLen * META_SIZE) :=
    le_saturatingAdd ((readLe_ok hmetas).2.trans (by decide))
  have hargsLe : argsOff ≤ saturatingAdd argsOff argsLen :=
    le_saturatingAdd ((readLe_ok hargs).2.trans (by decide))
  have hdiscEnd := saturatingAdd_le discOff discLen
  have hmetasEnd := saturatingAdd_le metasOff (metasLen * META_SIZE)
  have hargsEnd := saturatingAdd_le argsOff argsLen
  have hends : saturatingAdd argsOff argsLen
      ≤ p + ITEM_SIZE + discLen + metasLen * META_SIZE + argsLen := by omega
  exact ⟨hdiscAt, hdiscLe, hmetasAt, hmetasLe, hargsAt, hargsLe, hinside.2.2,
    hends.trans (le_alignUp8 _)⟩

theorem readItem_avoids (h : p + ITEM_SIZE ≤ body.length) (hextent : extent.Ordered body p) :
    Avoids .panic (readItem body p extent) := by
  have hdisc := hextent.discLe
  have hmetas := hextent.metas
  have hmetasLe := hextent.metasLe
  have hargs := hextent.args
  have hargsLe := hextent.argsLe
  have hinside := hextent.inside
  unfold ITEM_SIZE at h
  exact (readLe_avoids (by omega)).bind fun _ _ => (readBytes_avoids (by omega)).bind fun _ _ =>
    (readBytes_avoids (by omega)).bind fun _ _ => (readBytes_avoids (by omega)).bind fun _ _ =>
    (readBytes_avoids (by omega)).bind fun _ _ => (readBytes_avoids (by omega)).bind fun _ _ =>
    (readU8_avoids (by omega)).bind fun _ _ => (readU8_avoids (by omega)).bind fun _ _ =>
    (readU8_avoids (by omega)).bind fun _ _ => .pure

-- ---------------------------------------------------------------------------
-- The walk
-- ---------------------------------------------------------------------------

theorem visitItem_avoids (h : w.cur + ITEM_SIZE ≤ body.length) :
    Avoids .panic (visitItem visit body w) := by
  refine (readExtent_avoids h).bind fun extent hextent => ?_
  refine Avoids.bind ?_ fun _ _ => (refused_avoids _).bind fun _ _ => .pure
  unfold visitUsed
  split
  · exact (readItem_avoids h (readExtent_ordered hextent)).bind fun _ _ => .pure
  · exact .pure

theorem visitItem_advances (h : visitItem visit body w = .ok w') : w.cur < w'.cur := by
  obtain ⟨extent, -, hcur, hmoves⟩ := visitItem_ok h
  rwa [hcur]

theorem walkItems_avoids (hbody : w.cur < stop → stop ≤ body.length) :
    Avoids .panic (walkItems visit body stop fuel w) := by
  induction fuel generalizing w with
  | zero => exact .pure
  | succ fuel ih =>
    rw [walkItems]
    split
    case isFalse => exact .pure
    case isTrue hfits =>
      have hlen : stop ≤ body.length := hbody (by unfold ITEM_SIZE at hfits; omega)
      exact (visitItem_avoids (hfits.trans hlen)).bind fun _ _ => ih fun _ => hlen

theorem walkItems_fuel {fuel' : ℕ} (h : stop ≤ w.cur + fuel) (h' : stop ≤ w.cur + fuel') :
    walkItems visit body stop fuel w = walkItems visit body stop fuel' w := by
  induction fuel generalizing w fuel' with
  | zero =>
    cases fuel' with
    | zero => rfl
    | succ fuel' => rw [walkItems, walkItems, if_neg (by unfold ITEM_SIZE; omega)]
  | succ fuel ih =>
    cases fuel' with
    | zero => rw [walkItems, walkItems, if_neg (by unfold ITEM_SIZE; omega)]
    | succ fuel' =>
      rw [walkItems, walkItems]
      split
      case isFalse => rfl
      case isTrue =>
        cases hvisit : visitItem visit body w with
        | error e => rfl
        | ok w' =>
          have hadvances := visitItem_advances hvisit
          exact ih (by omega) (by omega)

theorem walkItems_exits (hfuel : stop ≤ w.cur + fuel)
    (h : walkItems visit body stop fuel w = .ok w') : ¬w'.cur + ITEM_SIZE ≤ stop := by
  induction fuel generalizing w with
  | zero =>
    simp only [walkItems, pure_ok] at h
    subst h
    unfold ITEM_SIZE
    omega
  | succ fuel ih =>
    rw [walkItems] at h
    split at h
    case isFalse hleaves =>
      rw [pure_ok] at h
      exact h ▸ hleaves
    case isTrue =>
      rw [bind_ok] at h
      obtain ⟨w₁, hw₁, hrest⟩ := h
      have hadvances := visitItem_advances hw₁
      exact ih (by omega) hrest

theorem scanLiveItems_avoids (acc : Bytes) (visit : Visitor σ ρ) (visitor : σ) :
    Avoids .panic (scanLiveItems acc visit visitor) :=
  (parseHeader_avoids acc).bind fun _ hheader =>
    (walkItems_avoids (parseHeader_ok.mp hheader).stop_le).bind fun _ _ =>
      (refused_avoids _).bind fun _ _ => .pure

theorem batchRequestIsLive_avoids (acc callbackProgramId batchKey : Bytes) :
    Avoids .panic (batchRequestIsLive acc callbackProgramId batchKey) :=
  (scanLiveItems_avoids _ _ _).bind fun _ _ => (refused_avoids _).bind fun _ _ => .pure

-- ---------------------------------------------------------------------------
-- What a visitor is shown
-- ---------------------------------------------------------------------------

def recording (visit : Visitor σ ρ) : Visitor (List QueueItemView × σ) ρ := fun s item =>
  ((s.1 ++ [item], (visit s.2 item).1), (visit s.2 item).2)

/-- Recording changes nothing else, and what it keeps was live. -/
theorem callUntil_recording (visit : Visitor σ ρ) (views seen : List QueueItemView) (visitor : σ) :
    ∃ called : List QueueItemView, called <+: views ∧
      callUntil (recording visit) views (seen, visitor)
        = ((seen ++ called, (callUntil visit views visitor).1),
          (callUntil visit views visitor).2) := by
  induction views generalizing seen visitor with
  | nil => exact ⟨[], List.prefix_rfl, by simp [callUntil]⟩
  | cons view views ih =>
    cases hvisit : visit visitor view with
    | mk visitor' found =>
      cases found with
      | some answer =>
        exact ⟨[view], ⟨views, rfl⟩, by simp [callUntil, recording, hvisit]⟩
      | none =>
        obtain ⟨called, hcalled, heq⟩ := ih (seen ++ [view]) visitor'
        refine ⟨view :: called, List.cons_prefix_cons.mpr ⟨rfl, hcalled⟩, ?_⟩
        have hrecorded : recording visit (seen, visitor) view
            = ((seen ++ [view], visitor'), none) := by
          rw [recording, hvisit]
        rw [callUntil, hrecorded, callUntil, hvisit]
        rw [List.append_assoc] at heq
        exact heq

/-- The item's slot runs from `pos` to where the next item starts, below the cursor, and holds each
key and slice the visitor is given. -/
structure InSlot (body : Bytes) (stop : ℕ) (view : QueueItemView) (extent : Extent) : Prop where
  start : ITEMS_START ≤ view.pos
  parsed : readExtent body view.pos = .ok extent
  ordered : extent.Ordered body view.pos
  below : extent.next ≤ stop
  id : body.window (view.pos + 8) 32 = some view.id
  callbackProgramId : body.window (view.pos + 40) 32 = some view.callbackProgramId
  discriminator : body.window extent.discOff (extent.discEnd - extent.discOff)
    = some view.callbackDiscriminator
  metas : body.window extent.metasOff (extent.metasEnd - extent.metasOff)
    = some view.callbackMetas
  args : body.window extent.argsOff (extent.argsEnd - extent.argsOff) = some view.callbackArgs

theorem inSlot_of_window {item : QueueItem} (hstart : ITEMS_START ≤ p) (haligned : p % 8 = 0)
    (hitem : body.window p item.span = some (item.emit p)) (hbelow : p + item.span ≤ stop)
    (hstop : stop < 2 ^ 32) : InSlot body stop (item.view p) (item.extent p) := by
  have hextent := readExtent_eq hitem haligned (by omega)
  obtain ⟨-, hid, hprogram, -, -, -, -, -, -, -, -, -, -, hdisc, hmetas, hargs⟩ :=
    item.windows hitem
  refine ⟨hstart, hextent, readExtent_ordered hextent, hbelow, hid, hprogram, ?_, ?_, ?_⟩
  · rwa [show (item.extent p).discEnd - (item.extent p).discOff
      = item.callbackDiscriminator.length from Nat.add_sub_cancel_left _ _]
  · rwa [show (item.extent p).metasEnd - (item.extent p).metasOff
      = item.callbackMetas.length from Nat.add_sub_cancel_left _ _]
  · rwa [show (item.extent p).argsEnd - (item.extent p).argsOff
      = item.callbackArgs.length from Nat.add_sub_cancel_left _ _]

theorem Tiles.inSlot {items : List QueueItem} {view : QueueItemView}
    (h : Tiles body p items stop) (hstart : ITEMS_START ≤ p) (haligned : p % 8 = 0)
    (hstop : stop < 2 ^ 32) (hview : view ∈ liveViews p items) :
    ∃ extent, InSlot body stop view extent := by
  induction items generalizing p with
  | nil => cases hview
  | cons item items ih =>
    obtain ⟨hitem, hrest⟩ := h
    have hspan := alignUp8_mod (ITEM_SIZE + item.callbackDiscriminator.length
      + item.callbackMetas.length + item.callbackArgs.length)
    rw [← QueueItem.span] at hspan
    have hlater : view ∈ liveViews (p + item.span) items → ∃ extent, InSlot body stop view extent :=
      ih hrest (by omega) (by omega)
    rw [liveViews] at hview
    split at hview
    · rcases List.mem_cons.mp hview with rfl | hview
      · exact ⟨_, inSlot_of_window hstart haligned hitem hrest.le hstop⟩
      · exact hlater hview
    · exact hlater hview

theorem scanLiveItems_shown {visitor : σ} {out : σ × Option ρ × ScanStats}
    (h : scanLiveItems acc visit visitor = .ok out) :
    ∃ header seen, parseHeader acc = .ok header ∧
      scanLiveItems acc (recording visit) ([], visitor) = .ok ((seen, out.1), out.2) ∧
      ∀ view ∈ seen, ∃ extent, InSlot (acc.drop 8) header.stop view extent := by
  obtain ⟨header, items, hheads, htiles, rfl⟩ := scanLiveItems_ok.mp h
  obtain ⟨seen, hseen, heq⟩ :=
    callUntil_recording visit (liveViews ITEMS_START items) [] visitor
  refine ⟨header, seen, parseHeader_ok.mpr hheads, ?_, ?_⟩
  · refine scanLiveItems_ok.mpr ⟨header, items, hheads, htiles, ?_⟩
    simp only [scanned, heq, List.nil_append]
  · intro view hview
    exact htiles.inSlot le_rfl (by decide) hheads.stop_lt (hseen.subset hview)

/-- On any bytes and with any visitor the parser answers or refuses with a listed error, its walk
ends because every turn advances, and a scan that succeeds shows bytes of the item's own slot. -/
theorem parser_total (acc callbackProgramId batchKey : Bytes) (visit : Visitor σ ρ) (visitor : σ) :
    Total (parseHeader acc) ∧ Total (scanLiveItems acc visit visitor) ∧
    Total (batchRequestIsLive acc callbackProgramId batchKey) ∧
    (∀ body (w w' : Walk σ ρ), visitItem visit body w = .ok w' → w.cur < w'.cur) ∧
    (∀ body stop fuel (w : Walk σ ρ), stop ≤ fuel →
      walkItems visit body stop fuel w = walkItems visit body stop stop w ∧
      ∀ w', walkItems visit body stop fuel w = .ok w' → ¬w'.cur + ITEM_SIZE ≤ stop) ∧
    ∀ out, scanLiveItems acc visit visitor = .ok out → ∃ header seen,
      parseHeader acc = .ok header ∧
      scanLiveItems acc (recording visit) ([], visitor) = .ok ((seen, out.1), out.2) ∧
      ∀ view ∈ seen, ∃ extent, InSlot (acc.drop 8) header.stop view extent :=
  ⟨total_of_avoids (parseHeader_avoids acc), total_of_avoids (scanLiveItems_avoids acc visit visitor),
    total_of_avoids (batchRequestIsLive_avoids acc callbackProgramId batchKey),
    fun _ _ _ => visitItem_advances,
    fun _ _ _ _ hfuel => ⟨walkItems_fuel (by omega) (by omega), fun _ => walkItems_exits (by omega)⟩,
    fun _ => scanLiveItems_shown⟩

end ByeMachine.VrfQueue
