import ByeMachine.Laws.VrfQueue

/-!
# The queue as evidence

The parser and the layout undo each other, so a scan that answers has read the
whole live region, and the answer about a batch is a fact about that region.
-/

namespace ByeMachine.VrfQueue

open Fallible Bytes

variable {σ ρ : Type} {acc acc' : Bytes} {header : QueueHeader} {items : List QueueItem}

-- ---------------------------------------------------------------------------
-- The layout
-- ---------------------------------------------------------------------------

/-- The items behind a header whose cursor is their end, with any bytes after them; `rest` is what
the header and the gap after it hold beside the two counters. -/
def layOut (itemCount : ℕ) (rest : Bytes) (items : List QueueItem) (trailing : Bytes) : Bytes :=
  QUEUE_DISCRIMINATOR ++ (leBytes 4 itemCount ++
    (leBytes 4 (ITEMS_START + (emitAll ITEMS_START items).length) ++
      (rest ++ (emitAll ITEMS_START items ++ trailing))))

theorem layOut_windows {itemCount : ℕ} {rest trailing : Bytes} (hrest : rest.length = 8) :
    window ((layOut itemCount rest items trailing).drop 8) 0 4 = some (leBytes 4 itemCount) ∧
    window ((layOut itemCount rest items trailing).drop 8) 4 4
      = some (leBytes 4 (ITEMS_START + (emitAll ITEMS_START items).length)) ∧
    window ((layOut itemCount rest items trailing).drop 8) 8 8 = some rest ∧
    window ((layOut itemCount rest items trailing).drop 8) ITEMS_START
      (emitAll ITEMS_START items).length = some (emitAll ITEMS_START items) := by
  have hbody : (layOut itemCount rest items trailing).drop 8
      = [leBytes 4 itemCount, leBytes 4 (ITEMS_START + (emitAll ITEMS_START items).length), rest,
        emitAll ITEMS_START items, trailing].flatten := by
    simp [layOut, QUEUE_DISCRIMINATOR]
  have hstands := hbody ▸ stands_flatten _
  simp only [Stands, length_leBytes, hrest, Nat.reduceAdd] at hstands
  obtain ⟨hcount, hcursor, hrest, hregion, -⟩ := hstands
  exact ⟨hcount, hcursor, hrest, hregion⟩

theorem layOut_heads {itemCount : ℕ} {rest trailing : Bytes} (hcount : itemCount < 2 ^ 32)
    (hcursor : ITEMS_START + (emitAll ITEMS_START items).length < 2 ^ 32)
    (hrest : rest.length = 8) :
    ∃ header, Heads (layOut itemCount rest items trailing) header ∧ header.itemCount = itemCount ∧
      header.cursor = ITEMS_START + (emitAll ITEMS_START items).length ∧
      Tiles ((layOut itemCount rest items trailing).drop 8) ITEMS_START items header.stop := by
  obtain ⟨hcountAt, hcursorAt, hrestAt, hregionAt⟩ :=
    @layOut_windows items itemCount rest trailing hrest
  have hbyte : ∀ i, i < 2 → ∃ byte,
      window ((layOut itemCount rest items trailing).drop 8) (8 + i) 1 = some [byte] := by
    intro i hi
    have hlen := le_of_window hrestAt
    have hone := window_of_le (b := (layOut itemCount rest items trailing).drop 8) (i := 8 + i)
      (n := 1) (by omega)
    obtain ⟨byte, hbyte⟩ := List.length_eq_one_iff.mp (length_of_window hone)
    exact ⟨byte, hbyte ▸ hone⟩
  obtain ⟨index, hindex⟩ := hbyte 0 (by decide)
  obtain ⟨paused, hpaused⟩ := hbyte 1 (by decide)
  have hlen := le_of_window hregionAt
  let header : QueueHeader :=
    { itemCount, cursor := ITEMS_START + (emitAll ITEMS_START items).length, index, paused }
  have hstop : header.stop = ITEMS_START + (emitAll ITEMS_START items).length :=
    if_neg (by simp [header, ITEMS_START])
  refine ⟨header, ⟨?_, ?_, hcountAt, hcount, hcursorAt, hcursor, hindex, hpaused,
    .inr ⟨Nat.le_add_right _ _, hlen⟩⟩, rfl, rfl, ?_⟩
  · exact List.take_left' rfl
  · rw [List.length_drop] at hlen
    simp only [ITEMS_START, HEADER_SIZE] at hlen ⊢
    omega
  · rw [hstop]
    exact tiles_of_window items hregionAt

def request (used : UInt8) (key : Bytes) (h : key.length = 32) : QueueItem where
  slot := 5
  id := List.replicate 32 1
  callbackProgramId := List.replicate 32 2
  callbackDiscriminator := [1, 2, 3, 4, 5, 6, 7, 8]
  metasLen := 1
  callbackMetas := List.replicate 33 3
  callbackArgs := key
  priorityRequest := 0
  used := used
  identityMode := 0
  identityBump := 255
  reserved := [0, 0]
  padding := List.replicate 7 0
  slot_lt := by decide
  length_id := rfl
  length_programId := rfl
  length_discriminator := by decide
  metasLen_le := by decide
  length_metas := rfl
  length_args := by rw [h]; decide
  length_reserved := rfl
  length_padding := by rw [h]; rfl

/-- A hole with one key and behind it a live request with another. -/
def requests : List QueueItem :=
  [request 0 (List.replicate 32 7) rfl, request 1 (List.replicate 32 8) rfl]

/-- Reading back what was laid out shows a visitor the used items, each as it was written, up to
its first answer; and whatever a scan accepts is, byte for byte, a layout of items. -/
theorem scanLiveItems_inverse :
    (∀ (visit : Visitor σ ρ) visitor items itemCount rest trailing, itemCount < 2 ^ 32 →
      rest.length = 8 → ITEMS_START + (emitAll ITEMS_START items).length < 2 ^ 32 →
      scanLiveItems (layOut itemCount rest items trailing) visit visitor
        = .ok ((callUntil visit (liveViews ITEMS_START items) visitor).1,
            (callUntil visit (liveViews ITEMS_START items) visitor).2,
            { itemsVisited := items.length, liveItems := liveCount items, itemCount
              bytesConsumed := ITEMS_START + (emitAll ITEMS_START items).length })) ∧
    (∀ (visit : Visitor σ ρ) visitor acc found stats,
      scanLiveItems acc visit visitor = .ok (found, stats) →
      ∃ header items, parseHeader acc = .ok header ∧
        ((acc.drop 8).drop ITEMS_START).take (header.cursor - ITEMS_START)
          = emitAll ITEMS_START items ∧
        Tiles (acc.drop 8) ITEMS_START items header.stop ∧
        (found, stats) = scanned visit visitor header items) := by
  constructor
  · intro visit visitor items itemCount rest trailing hcount hrest hcursor
    obtain ⟨header, hheads, hitemCount, hcursorAt, htiles⟩ :=
      @layOut_heads items itemCount rest trailing hcount hcursor hrest
    have hstop : header.stop = ITEMS_START + (emitAll ITEMS_START items).length := by
      rw [QueueHeader.stop, hcursorAt, if_neg (by simp [ITEMS_START])]
    rw [scanLiveItems_ok.mpr ⟨header, items, hheads, htiles, rfl⟩, scanned, hitemCount, hstop]
  · intro visit visitor acc found stats h
    obtain ⟨header, items, hheads, htiles, hout⟩ := scanLiveItems_ok.mp h
    exact ⟨header, items, parseHeader_ok.mpr hheads, htiles.region hheads, htiles, hout⟩

theorem scanLiveItems_inverse_requests :
    scanLiveItems (layOut 1 (List.replicate 8 0) requests [9, 9, 9])
        (fun (calls : ℕ) item => (calls + 1, some item.callbackArgs)) 0
      = .ok (1, some (List.replicate 32 8), ⟨2, 1, 1, 368⟩) := by
  have hregion : (emitAll ITEMS_START requests).length = 352 := by decide +kernel
  have hcalls : callUntil (fun (calls : ℕ) item => (calls + 1, some item.callbackArgs))
      (liveViews ITEMS_START requests) 0 = (1, some (List.replicate 32 8)) := by decide +kernel
  have hscan := scanLiveItems_inverse.1 (fun (calls : ℕ) item => (calls + 1, some item.callbackArgs))
    0 requests 1 (List.replicate 8 0) [9, 9, 9] (by decide) rfl (by rw [hregion]; decide)
  rwa [hregion, hcalls] at hscan

-- ---------------------------------------------------------------------------
-- The verdict
-- ---------------------------------------------------------------------------

def cursorOf (acc : Bytes) : ℕ := leNat ((acc.drop 12).take 4)

theorem Heads.cursorOf (h : Heads acc header) : cursorOf acc = header.cursor := by
  have hcursor := (window_some.mp h.cursor).2
  rw [List.drop_drop] at hcursor
  rw [VrfQueue.cursorOf, hcursor, leNat_leBytes h.cursor_lt]

theorem body_take {stop : ℕ} (hfirst : acc.take (8 + stop) = acc'.take (8 + stop)) :
    (acc.drop 8).take stop = (acc'.drop 8).take stop := by
  have hdrop := congrArg (List.drop 8) hfirst
  rwa [List.drop_take, List.drop_take, Nat.add_sub_cancel_left] at hdrop

theorem cursorOf_congr {n : ℕ} (hfirst : acc.take (8 + n) = acc'.take (8 + n))
    (hsize : HEADER_SIZE ≤ n) : VrfQueue.cursorOf acc' = VrfQueue.cursorOf acc := by
  simp only [HEADER_SIZE] at hsize
  have htake : ∀ b : Bytes, (b.drop 12).take 4 = ((b.take (8 + n)).drop 12).take 4 := by
    intro b
    rw [List.drop_take, List.take_take, Nat.min_eq_left (by omega)]
  rw [VrfQueue.cursorOf, VrfQueue.cursorOf, htake acc, htake acc', hfirst]

theorem Heads.congr {stop : ℕ} (hstop : max HEADER_SIZE header.cursor ≤ stop)
    (hfirst : acc.take (8 + stop) = acc'.take (8 + stop)) (hlen : 8 + stop ≤ acc.length)
    (hlen' : 8 + stop ≤ acc'.length) (h : Heads acc header) : Heads acc' header := by
  have hbody := body_take hfirst
  have hbodyLen : stop ≤ (acc.drop 8).length := by rw [List.length_drop]; omega
  have hbodyLen' : stop ≤ (acc'.drop 8).length := by rw [List.length_drop]; omega
  have hheader : HEADER_SIZE ≤ stop := (Nat.le_max_left _ _).trans hstop
  have hcursor : header.cursor ≤ stop := (Nat.le_max_right _ _).trans hstop
  simp only [HEADER_SIZE] at hheader
  have hwindow : ∀ i n, i + n ≤ 12 → window (acc'.drop 8) i n = window (acc.drop 8) i n :=
    fun i n hin => (window_congr hbody hbodyLen hbodyLen' (hin.trans hheader)).symm
  have htake : acc'.take 8 = acc.take 8 := by
    have := congrArg (List.take 8) hfirst
    rw [List.take_take, List.take_take, Nat.min_eq_left (by omega)] at this
    exact this.symm
  exact {
    discriminator := htake.trans h.discriminator
    size := by simp only [HEADER_SIZE]; omega
    itemCount := (hwindow 0 4 (by decide)).trans h.itemCount
    itemCount_lt := h.itemCount_lt
    cursor := (hwindow 4 4 (by decide)).trans h.cursor
    cursor_lt := h.cursor_lt
    index := (hwindow 8 1 (by decide)).trans h.index
    paused := (hwindow 9 1 (by decide)).trans h.paused
    bounds := h.bounds.imp_right fun hbounds => ⟨hbounds.1, hcursor.trans hbodyLen'⟩ }

/-- What the bytes up to the cursor are decides what a scan answers. -/
theorem scanLiveItems_congr {visit : Visitor σ ρ} {visitor : σ} {out : σ × Option ρ × ScanStats}
    (hfirst : acc.take (8 + max HEADER_SIZE (cursorOf acc))
      = acc'.take (8 + max HEADER_SIZE (cursorOf acc)))
    (hlen : 8 + max HEADER_SIZE (cursorOf acc) ≤ acc.length)
    (hlen' : 8 + max HEADER_SIZE (cursorOf acc) ≤ acc'.length)
    (h : scanLiveItems acc visit visitor = .ok out) : scanLiveItems acc' visit visitor = .ok out := by
  obtain ⟨header, items, hheads, htiles, rfl⟩ := scanLiveItems_ok.mp h
  rw [hheads.cursorOf] at hfirst hlen hlen'
  refine scanLiveItems_ok.mpr ⟨header, items,
    hheads.congr le_rfl hfirst hlen hlen', ?_, rfl⟩
  rcases hheads.bounds with ⟨hzero, -⟩ | ⟨hstart, -⟩
  · have hstop : header.stop = ITEMS_START := if_pos hzero
    rw [hstop] at htiles ⊢
    rw [htiles.eq_nil]
    rfl
  · have hstop : header.stop = header.cursor :=
      if_neg (by simp only [ITEMS_START] at hstart; omega)
    have hmax : max HEADER_SIZE header.cursor = header.cursor :=
      Nat.max_eq_right (by simp only [HEADER_SIZE, ITEMS_START] at hstart ⊢; omega)
    rw [hmax] at hfirst hlen hlen'
    rw [hstop] at htiles ⊢
    refine htiles.congr (body_take hfirst) ?_ ?_ <;> rw [List.length_drop] <;> omega

theorem callUntil_isSome {σ : Type} {visit : Visitor σ ρ} {test : QueueItemView → Prop}
    (hvisit : ∀ s view, (visit s view).2.isSome ↔ test view) {views : List QueueItemView}
    {visitor : σ} : (callUntil visit views visitor).2.isSome ↔ ∃ view ∈ views, test view := by
  induction views generalizing visitor with
  | nil => simp [callUntil]
  | cons view views ih =>
    rw [List.exists_mem_cons_iff, ← hvisit visitor view, callUntil]
    cases hanswer : visit visitor view with
    | mk visitor' found =>
      cases found with
      | none => simpa using ih
      | some answer => simp

theorem exists_liveView {test : QueueItemView → Prop} {matched : QueueItem → Prop}
    (htest : ∀ (item : QueueItem) p, test (item.view p) ↔ matched item) {p : ℕ} :
    (∃ view ∈ liveViews p items, test view) ↔ ∃ item ∈ items, item.used = 1 ∧ matched item := by
  induction items generalizing p with
  | nil => simp [liveViews]
  | cons item items ih =>
    rw [liveViews, List.exists_mem_cons_iff]
    split
    case isTrue hused => rw [List.exists_mem_cons_iff, htest, ih]; simp [hused]
    case isFalse hused => rw [ih]; simp [hused]

/-- A verdict reads the whole live region: the region is a sequence of items, the header counts
the used ones, and the batch is live exactly where a used item calls the program back with its
key. The bytes up to the cursor decide it. -/
theorem batchRequestIsLive_evidence (acc programId batchKey : Bytes) :
    (∀ live stats, batchRequestIsLive acc programId batchKey = .ok (live, stats) →
      ∃ header items, parseHeader acc = .ok header ∧
        Tiles (acc.drop 8) ITEMS_START items header.stop ∧
        header.itemCount = liveCount items ∧ stats.bytesConsumed = header.stop ∧
        (live = true ↔ ∃ item ∈ items, item.used = 1 ∧ item.callbackProgramId = programId ∧
          32 ≤ item.callbackArgs.length ∧ item.callbackArgs.take 32 = batchKey)) ∧
    (∀ acc', acc.take (8 + max HEADER_SIZE (cursorOf acc))
        = acc'.take (8 + max HEADER_SIZE (cursorOf acc)) →
      8 + max HEADER_SIZE (cursorOf acc) ≤ acc.length →
      8 + max HEADER_SIZE (cursorOf acc) ≤ acc'.length →
      ∀ out, batchRequestIsLive acc programId batchKey = .ok out ↔
        batchRequestIsLive acc' programId batchKey = .ok out) := by
  constructor
  · intro live stats h
    simp only [batchRequestIsLive, bind_ok, require_ok, pure_ok, exists_and_left, exists_const]
      at h
    obtain ⟨⟨found, hit, stats'⟩, hscan, hcount, hanswer⟩ := h
    obtain ⟨header, items, hheads, htiles, hout⟩ := scanLiveItems_ok.mp hscan
    simp only [scanned, Prod.mk.injEq] at hout hanswer hcount
    obtain ⟨-, rfl, rfl⟩ := hout
    obtain ⟨rfl, rfl⟩ := hanswer
    refine ⟨header, items, parseHeader_ok.mpr hheads, htiles, hcount.symm, rfl, ?_⟩
    have hvisit : ∀ (s : Unit) view, ((s, if carriesBatch programId batchKey view then some ()
        else none) : Unit × Option Unit).2.isSome ↔ carriesBatch programId batchKey view = true := by
      intro s view
      cases carriesBatch programId batchKey view <;> simp
    exact (callUntil_isSome hvisit).trans (exists_liveView fun item p => decide_eq_true_iff)
  · intro acc' hfirst hlen hlen' out
    have hcursor := cursorOf_congr hfirst (Nat.le_max_left _ _)
    have hone : ∀ a b : Bytes, a.take (8 + max HEADER_SIZE (cursorOf a))
          = b.take (8 + max HEADER_SIZE (cursorOf a)) →
        8 + max HEADER_SIZE (cursorOf a) ≤ a.length →
        8 + max HEADER_SIZE (cursorOf a) ≤ b.length →
        batchRequestIsLive a programId batchKey = .ok out →
        batchRequestIsLive b programId batchKey = .ok out := by
      intro a b hfirst hlen hlen' h
      rw [batchRequestIsLive, bind_ok] at h ⊢
      obtain ⟨answer, hscan, hrest⟩ := h
      exact ⟨answer, scanLiveItems_congr hfirst hlen hlen' hscan, hrest⟩
    exact ⟨hone acc acc' hfirst hlen hlen',
      hone acc' acc (hcursor ▸ hfirst.symm) (hcursor ▸ hlen') (hcursor ▸ hlen)⟩

theorem batchRequestIsLive_evidence_requests :
    ∃ header items, parseHeader (layOut 1 (List.replicate 8 0) requests []) = .ok header ∧
      Tiles ((layOut 1 (List.replicate 8 0) requests []).drop 8) ITEMS_START items header.stop ∧
      header.itemCount = liveCount items ∧ 368 = header.stop ∧
      (true = true ↔ ∃ item ∈ items, item.used = 1 ∧
        item.callbackProgramId = List.replicate 32 2 ∧ 32 ≤ item.callbackArgs.length ∧
        item.callbackArgs.take 32 = List.replicate 32 8) :=
  (batchRequestIsLive_evidence (layOut 1 (List.replicate 8 0) requests []) (List.replicate 32 2)
    (List.replicate 32 8)).1 true ⟨2, 1, 1, 368⟩ (by decide +kernel)

end ByeMachine.VrfQueue
