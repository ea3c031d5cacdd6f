import ByeMachine.Client.EventDecoders
import ByeMachine.Client.Node
import ByeMachine.Properties.BorshRoundTrip

/-!
# Events on the wire

Every event comes back from the bytes it is logged as, and from no others that
begin as they do or break off within them: a log line is one event or none.
-/

namespace ByeMachine

open Fallible Bytes Borsh BorshReader Decoders

variable {w : Encoding} {replaced : Bytes → JsString}

-- ---------------------------------------------------------------------------
-- One decoder
-- ---------------------------------------------------------------------------

/-- Takes these bytes for `a`, refuses them with more behind them, and fails where they break
off. -/
structure Delimits (decode : Bytes → Except EventError DecodedEvent) (bytes : Bytes)
    (a : DecodedEvent) : Prop where
  exact : decode bytes = .ok a
  longer : ∀ more, more ≠ [] →
    decode (bytes ++ more) = .error (.fields (.unconsumed more.length))
  shorter : ∀ part, part <+: bytes → part ≠ bytes → ∃ e, decode part = .error e

theorem decodeNamed_append {α : Type} {name : EventName} {reader : BorshReader α} (rest : Bytes) :
    decodeNamed name reader (name.discriminator ++ rest)
      = (readConsumed reader ⟨rest, 0⟩).mapError .fields := by
  rw [decodeNamed, checkEventDiscriminator, List.take_left' (EventName.length_discriminator name),
    List.drop_left' (EventName.length_discriminator name)]
  simp [require, pure, Except.pure]

theorem readConsumed_append {α : Type} {reader : BorshReader α} {fields : List Bytes} {a : α}
    (h : Frames reader fields a) (more : Bytes) :
    readConsumed reader ⟨fields.flatten ++ more, 0⟩
      = if more = [] then .ok a else .error (.unconsumed more.length) := by
  by_cases hmore : more = []
  · subst hmore
    rw [readConsumed, h.run_append]
    simp [assertConsumed, pure, Except.pure]
  · rw [readConsumed, h.run_append]
    simp [assertConsumed, hmore]

theorem delimits_named {name : EventName} {reader : BorshReader DecodedEvent} {fields : List Bytes}
    {a : DecodedEvent} (h : Frames reader fields a) :
    Delimits (decodeNamed name reader) (name.discriminator :: fields).flatten a where
  exact := by
    have hconsumed := readConsumed_append h []
    rw [List.append_nil, if_pos rfl] at hconsumed
    rw [List.flatten_cons, decodeNamed_append, hconsumed]
    rfl
  longer := by
    intro more hmore
    rw [List.flatten_cons, List.append_assoc, decodeNamed_append, readConsumed_append h,
      if_neg hmore]
    rfl
  shorter := by
    intro part hpart hne
    have hlength := EventName.length_discriminator name
    rw [List.flatten_cons] at hpart hne
    by_cases hshort : part.length < 8
    · -- Too short for the discriminator.
      have htake : part.take 8 ≠ name.discriminator := by
        intro heq
        have := congrArg List.length heq
        rw [List.length_take, hlength] at this
        omega
      refine ⟨.discriminator name (part.take 8) name.discriminator, ?_⟩
      simp [decodeNamed, checkEventDiscriminator, require, htake]
    · obtain ⟨rest, rfl⟩ : name.discriminator <+: part :=
        List.prefix_of_prefix_length_le (List.prefix_append _ _) hpart (by omega)
      have hrest : rest <+: fields.flatten := (List.prefix_append_right_inj _).mp hpart
      have hless : rest.length < fields.flatten.length := by
        refine lt_of_le_of_ne hrest.length_le fun heq => hne ?_
        rw [hrest.eq_of_length heq]
      obtain ⟨e, he⟩ := h.run_short hrest hless
      refine ⟨.fields e, ?_⟩
      rw [decodeNamed_append, readConsumed, he]
      rfl

-- ---------------------------------------------------------------------------
-- Enums
-- ---------------------------------------------------------------------------

theorem frames_seizureKind (k : SeizureKind) : Frames decodeSeizureKind [[k.byte]] k :=
  frames_tagged (by cases k <;> rfl)

theorem frames_authorityRole (r : AuthorityRole) : Frames decodeAuthorityRole [[r.byte]] r :=
  frames_tagged (by cases r <;> rfl)

theorem frames_rotationPhase (p : RotationPhase) : Frames decodeRotationPhase [[p.byte]] p :=
  frames_tagged (by cases p <;> rfl)

theorem frames_positionState (s : PositionState) : Frames decodePositionState [[s.byte]] s :=
  frames_tagged (by cases s <;> rfl)

theorem frames_rollOutcome (o : RollOutcome) : Frames decodeRollOutcome [[o.byte]] o :=
  frames_tagged (by cases o <;> rfl)

theorem frames_configValue {v : ConfigValue} (h : v.Fits) : Frames decodeConfigValue v.fields v := by
  cases v with
  | amount value => exact (frames_u8 (by decide)).cons ((frames_u64 h).map _)
  | bps value => exact (frames_u8 (by decide)).cons ((frames_u16 h).map _)
  | count value => exact (frames_u8 (by decide)).cons ((frames_u8 h).map _)
  | faces value =>
    exact (frames_u8 (by decide)).cons ((Frames.triple fun d => frames_u64 (h d)).map _)
  | hours value => exact (frames_u8 (by decide)).cons ((frames_u16 h).map _)

-- ---------------------------------------------------------------------------
-- Events
-- ---------------------------------------------------------------------------

def LoggedEvent.decoded (replaced : Bytes → JsString) : LoggedEvent → DecodedEvent
  | .published (.configChanged pool slot authority param old new) =>
    .configChanged pool slot authority (.ofBuffer replaced (utf8Bytes param)) old new
  | .published event => .published event
  | .planned event => .planned event

theorem delimits_published {e : Event} (h : e.Fits w) :
    Delimits (eventDecoder w replaced e.name) ((LoggedEvent.published e).bytes w)
      ((LoggedEvent.published e).decoded replaced) := by
  cases e with
  | protocolInitialized =>
    simp only [Event.Fits, List.forall_mem_cons] at h
    obtain ⟨hslot, hslippage, hadministrator, hoperator, ht02, ht03, hrevenue, husdc, hbye, hvrf,
      hqueue, hswap, -⟩ := h
    exact delimits_named <|
      .cons (frames_u64 hslot) <| .cons (frames_pubkey hadministrator) <|
      .cons (frames_pubkey hoperator) <| .cons (frames_pubkey ht02) <|
      .cons (frames_pubkey ht03) <| .cons (frames_pubkey hrevenue) <|
      .cons (frames_pubkey husdc) <| .cons (frames_pubkey hbye) <| .cons (frames_pubkey hvrf) <|
      .cons (frames_pubkey hqueue) <| .cons (frames_pubkey hswap) <|
      .cons (frames_u16 hslippage) .pure
  | poolInitialized =>
    simp only [Event.Fits, List.forall_mem_cons] at h
    obtain ⟨⟨hpool, hauthority, hindex, htreasury, -⟩, ⟨hslot, hprice, hticket, hfee, hfloor,
      hceiling, hcap, ht04, -⟩, ⟨hid, hequal, htier, hprotocol, hbuyback, hcadence, -⟩, hmaxN,
      hsize, hfaces⟩ := h
    exact delimits_named <|
      .cons (frames_pubkey hpool) <| .cons (frames_u64 hslot) <|
      .cons (frames_pubkey hauthority) <| .cons (frames_u16 hid) <|
      .cons (frames_pubkey hindex) <| .cons (frames_pubkey htreasury) <|
      .cons (frames_u64 hprice) <| .cons (frames_u64 hticket) <| .cons (frames_u64 hfee) <|
      .cons (frames_u16 hequal) <| .cons (frames_u16 htier) <| .cons (frames_u16 hprotocol) <|
      .cons (frames_u64 hfloor) <| .cons (frames_u64 hceiling) <| .cons (frames_u64 hcap) <|
      .cons (frames_u8 hmaxN) <| .cons (frames_u16 hbuyback) <|
      .bind (.triple fun d => frames_u64 (hfaces d)) <| .cons (frames_u64 ht04) <|
      .cons (frames_u16 hcadence) <| .cons (frames_u8 hsize) .pure
  | configChanged =>
    obtain ⟨hpool, hslot, hauthority, hparam, hold, hnew⟩ := h
    simp only [LoggedEvent.bytes, LoggedEvent.fields, Event.fields, List.cons_append,
      List.nil_append, List.append_assoc]
    exact delimits_named <|
      .cons (frames_pubkey hpool) <| .cons (frames_u64 hslot) <|
      .cons (frames_pubkey hauthority) <| .bind (frames_string hparam) <|
      .bind (frames_configValue hold) <| .last (frames_configValue hnew)
  | vrfConfigChanged =>
    simp only [Event.Fits, List.forall_mem_cons] at h
    obtain ⟨hslot, hauthority, holdVrf, holdQueue, holdSwap, hvrf, hqueue, hswap, -⟩ := h
    exact delimits_named <|
      .cons (frames_u64 hslot) <| .cons (frames_pubkey hauthority) <|
      .cons (frames_pubkey holdVrf) <| .cons (frames_pubkey holdQueue) <|
      .cons (frames_pubkey holdSwap) <| .cons (frames_pubkey hvrf) <|
      .cons (frames_pubkey hqueue) <| .cons (frames_pubkey hswap) .pure
  | pauseSet =>
    obtain ⟨hpool, hslot, hauthority, hreason⟩ := h
    exact delimits_named <|
      .cons (frames_pubkey hpool) <| .cons (frames_u64 hslot) <|
      .cons (frames_pubkey hauthority) <| .cons (frames_bool _) <| .cons (frames_bool _) <|
      .cons (frames_u16 hreason) .pure
  | authorityRotated =>
    obtain ⟨hslot, hauthority, hold, hnew⟩ := h
    exact delimits_named <|
      .cons (frames_u64 hslot) <| .cons (frames_pubkey hauthority) <|
      .cons (frames_authorityRole _) <| .cons (frames_pubkey hold) <|
      .cons (frames_pubkey hnew) <| .cons (frames_rotationPhase _) .pure
  | depositPending | nftReturned | nftClaimed =>
    obtain ⟨hpool, hslot, hposition, hdepositor, hmint⟩ := h
    exact delimits_named <|
      .cons (frames_pubkey hpool) <| .cons (frames_u64 hslot) <|
      .cons (frames_pubkey hposition) <| .cons (frames_pubkey hdepositor) <|
      .cons (frames_pubkey hmint) .pure
  | depositApproved =>
    obtain ⟨hpool, hslot, hauthority, hposition, hvalue, hobserved, hage⟩ := h
    exact delimits_named <|
      .cons (frames_pubkey hpool) <| .cons (frames_u64 hslot) <|
      .cons (frames_pubkey hauthority) <| .cons (frames_pubkey hposition) <|
      .cons (frames_u64 hvalue) <| .cons (frames_i64 hobserved) <| .cons (frames_i64 hage) .pure
  | rebalanceEvaluated =>
    obtain ⟨hpool, hslot, hreal, hweight, hbefore, hafter⟩ := h
    exact delimits_named <|
      .cons (frames_pubkey hpool) <| .cons (frames_u64 hslot) <| .cons (frames_u32 hreal) <|
      .cons (frames_u128 hweight) <| .bind (.triple fun d => frames_u32 (hbefore d)) <|
      .last (.triple fun d => frames_u32 (hafter d))
  | tierChanged =>
    obtain ⟨hpool, hslot, hleft, hentered⟩ := h
    simp only [LoggedEvent.bytes, LoggedEvent.fields, Event.fields, List.cons_append,
      List.nil_append]
    exact delimits_named <|
      .cons (frames_pubkey hpool) <| .cons (frames_u64 hslot) <|
      .bind (frames_option fun key hkey => frames_pubkey (hleft key hkey)) <|
      .last (frames_option fun key hkey => frames_pubkey (hentered key hkey))
  | depositRejected =>
    obtain ⟨hpool, hslot, hauthority, hposition, hreason⟩ := h
    exact delimits_named <|
      .cons (frames_pubkey hpool) <| .cons (frames_u64 hslot) <|
      .cons (frames_pubkey hauthority) <| .cons (frames_pubkey hposition) <|
      .cons (frames_u16 hreason) .pure
  | withdrawn =>
    obtain ⟨hpool, hslot, hposition, hdepositor, hpaid⟩ := h
    exact delimits_named <|
      .cons (frames_pubkey hpool) <| .cons (frames_u64 hslot) <|
      .cons (frames_pubkey hposition) <| .cons (frames_pubkey hdepositor) <|
      .cons (frames_u64 hpaid) .pure
  | valueRecorded =>
    obtain ⟨hpool, hslot, hauthority, hposition, hold, hnew, hobserved⟩ := h
    exact delimits_named <|
      .cons (frames_pubkey hpool) <| .cons (frames_u64 hslot) <|
      .cons (frames_pubkey hauthority) <| .cons (frames_pubkey hposition) <|
      .cons (frames_u64 hold) <| .cons (frames_u64 hnew) <| .cons (frames_i64 hobserved) .pure
  | belowFloorClosed =>
    obtain ⟨hpool, hslot, hauthority, hposition, hdepositor⟩ := h
    exact delimits_named <|
      .cons (frames_pubkey hpool) <| .cons (frames_u64 hslot) <|
      .cons (frames_pubkey hauthority) <| .cons (frames_pubkey hposition) <|
      .cons (frames_pubkey hdepositor) .pure
  | belowFloorRetained =>
    obtain ⟨hpool, hslot, hauthority, hposition, hlock⟩ := h
    exact delimits_named <|
      .cons (frames_pubkey hpool) <| .cons (frames_u64 hslot) <|
      .cons (frames_pubkey hauthority) <| .cons (frames_pubkey hposition) <|
      .cons (frames_i64 hlock) .pure
  | sweepBegun =>
    obtain ⟨hpool, hslot, hauthority, hepoch⟩ := h
    exact delimits_named <|
      .cons (frames_pubkey hpool) <| .cons (frames_u64 hslot) <|
      .cons (frames_pubkey hauthority) <| .cons (frames_u64 hepoch) .pure
  | sweepEnded =>
    obtain ⟨hpool, hslot, hauthority, hepoch, hupdated, hlast⟩ := h
    exact delimits_named <|
      .cons (frames_pubkey hpool) <| .cons (frames_u64 hslot) <|
      .cons (frames_pubkey hauthority) <| .cons (frames_u64 hepoch) <|
      .cons (frames_u32 hupdated) <| .cons (frames_i64 hlast) .pure
  | collectionAdmitted =>
    obtain ⟨hpool, hslot, hcollection, hstandards, hold, hreason, hauthority⟩ := h
    simp only [LoggedEvent.bytes, LoggedEvent.fields, Event.fields, List.cons_append,
      List.nil_append]
    exact delimits_named <|
      .cons (frames_pubkey hpool) <| .cons (frames_u64 hslot) <|
      .cons (frames_pubkey hcollection) <| .cons (frames_u8 hstandards) <|
      .cons (frames_u8 hold) <|
      .bind (frames_option fun value hvalue => frames_u16 (hreason value hvalue)) <|
      .cons (frames_pubkey hauthority) .pure
  | collectionWithdrawn =>
    obtain ⟨hpool, hslot, hcollection, hstandards, hreason, hauthority⟩ := h
    exact delimits_named <|
      .cons (frames_pubkey hpool) <| .cons (frames_u64 hslot) <|
      .cons (frames_pubkey hcollection) <| .cons (frames_u8 hstandards) <|
      .cons (frames_u16 hreason) <| .cons (frames_pubkey hauthority) .pure
  | positionSeized =>
    obtain ⟨hpool, hslot, hposition, howner, hvalue⟩ := h
    exact delimits_named <|
      .cons (frames_pubkey hpool) <| .cons (frames_u64 hslot) <|
      .cons (frames_pubkey hposition) <| .cons (frames_seizureKind _) <|
      .cons (frames_pubkey howner) <| .cons (frames_positionState _) <|
      .cons (frames_u64 hvalue) .pure
  | batchCommitted =>
    obtain ⟨hpool, hslot, hroller, hbatch, hn, hprice, hticket, hfee, halloc, hfaces⟩ := h
    exact delimits_named <|
      .cons (frames_pubkey hpool) <| .cons (frames_u64 hslot) <|
      .cons (frames_pubkey hroller) <| .cons (frames_pubkey hbatch) <| .cons (frames_u8 hn) <|
      .cons (frames_u64 hprice) <| .cons (frames_u64 hticket) <| .cons (frames_u64 hfee) <|
      .bind (.triple fun i => frames_u16 (halloc i)) <|
      .last (.triple fun d => frames_u64 (hfaces d))
  | batchResolved =>
    obtain ⟨hpool, hslot, hbatch⟩ := h
    exact delimits_named <|
      .cons (frames_pubkey hpool) <| .cons (frames_u64 hslot) <| .cons (frames_pubkey hbatch) .pure

theorem delimits_planned {e : PlannedEvent} (h : e.Fits w) :
    Delimits (eventDecoder w replaced e.name) ((LoggedEvent.planned e).bytes w)
      ((LoggedEvent.planned e).decoded replaced) := by
  cases e with
  | rollSettled =>
    simp only [PlannedEvent.Fits, List.forall_mem_cons] at h
    obtain ⟨⟨hpool, hbatch, hmint, -⟩, ⟨hslot, hequal, htier, hprotocol, ht04, -⟩,
      ⟨hindex, hface, hattempts, -⟩, hdraw, hweight, hreal, hblanks⟩ := h
    exact delimits_named <|
      .cons (frames_pubkey hpool) <| .cons (frames_u64 hslot) <| .cons (frames_pubkey hbatch) <|
      .cons (frames_u8 hindex) <| .cons (frames_rollOutcome _) <| .cons (frames_pubkey hmint) <|
      .cons (frames_u8 hface) <| .cons (frames_u128 hdraw) <| .cons (frames_u8 hattempts) <|
      .cons (frames_u128 hweight) <| .cons (frames_u32 hreal) <|
      .bind (.triple fun d => frames_u32 (hblanks d)) <| .cons (frames_u64 hequal) <|
      .cons (frames_u64 htier) <| .cons (frames_u64 hprotocol) <| .cons (frames_u64 ht04) .pure
  | rollRefunded =>
    obtain ⟨hpool, hslot, hbatch, hindex, hreason, hwallet⟩ := h
    exact delimits_named <|
      .cons (frames_pubkey hpool) <| .cons (frames_u64 hslot) <| .cons (frames_pubkey hbatch) <|
      .cons (frames_u8 hindex) <| .cons (frames_u16 hreason) <| .cons (frames_pubkey hwallet) .pure
  | batchCompleted =>
    obtain ⟨hpool, hslot, hbatch, hopen⟩ := h
    exact delimits_named <|
      .cons (frames_pubkey hpool) <| .cons (frames_u64 hslot) <| .cons (frames_pubkey hbatch) <|
      .cons (frames_u32 hopen) .pure
  | batchRecovered =>
    obtain ⟨hpool, hslot, hbatch, hwallet, hopen⟩ := h
    exact delimits_named <|
      .cons (frames_pubkey hpool) <| .cons (frames_u64 hslot) <| .cons (frames_pubkey hbatch) <|
      .cons (frames_pubkey hwallet) <| .cons (frames_u32 hopen) .pure
  | batchClosed =>
    obtain ⟨hpool, hslot, hbatch, hrecipient⟩ := h
    exact delimits_named <|
      .cons (frames_pubkey hpool) <| .cons (frames_u64 hslot) <| .cons (frames_pubkey hbatch) <|
      .cons (frames_pubkey hrecipient) .pure
  | acquiredActivated =>
    obtain ⟨hpool, hslot, hauthority, hposition, hvalue, hobserved, hage⟩ := h
    exact delimits_named <|
      .cons (frames_pubkey hpool) <| .cons (frames_u64 hslot) <|
      .cons (frames_pubkey hauthority) <| .cons (frames_pubkey hposition) <|
      .cons (frames_u64 hvalue) <| .cons (frames_i64 hobserved) <| .cons (frames_i64 hage) .pure
  | t04CeilingOverflow =>
    obtain ⟨hpool, hslot, hamount⟩ := h
    exact delimits_named <|
      .cons (frames_pubkey hpool) <| .cons (frames_u64 hslot) <| .cons (frames_u64 hamount) .pure
  | instantSold =>
    obtain ⟨hpool, hslot, hposition, hseller, hvalue, hobserved, hage, hrate, hpaid, hstandard⟩ := h
    exact delimits_named <|
      .cons (frames_pubkey hpool) <| .cons (frames_u64 hslot) <|
      .cons (frames_pubkey hposition) <| .cons (frames_pubkey hseller) <|
      .cons (frames_u64 hvalue) <| .cons (frames_i64 hobserved) <| .cons (frames_i64 hage) <|
      .cons (frames_u16 hrate) <| .cons (frames_u64 hpaid) <| .cons (frames_u8 hstandard) .pure

theorem delimits_decoder (replaced : Bytes → JsString) {e : LoggedEvent} (h : e.Fits w) :
    Delimits (eventDecoder w replaced e.name) (e.bytes w) (e.decoded replaced) := by
  cases e with
  | published e => exact delimits_published h
  | planned e => exact delimits_planned h

-- ---------------------------------------------------------------------------
-- Dispatch
-- ---------------------------------------------------------------------------

theorem decoderByDiscriminator_some {disc : Bytes} {name : EventName} :
    decoderByDiscriminator disc = some name ↔ name.discriminator = disc := by
  constructor
  · intro h
    simpa using List.find?_some h
  · rintro rfl
    have hsome : (decoderByDiscriminator name.discriminator).isSome := by
      rw [decoderByDiscriminator, List.find?_isSome]
      exact ⟨name, List.mem_reverse.mpr (EventName.mem_all name), by simp⟩
    obtain ⟨found, hfound⟩ := Option.isSome_iff_exists.mp hsome
    have hsame : found.discriminator = name.discriminator := by simpa using List.find?_some hfound
    rw [hfound, EventName.discriminator_injective hsame]

theorem decodeEvent_append {name : EventName} (rest : Bytes) :
    decodeEvent w replaced (name.discriminator ++ rest)
      = eventDecoder w replaced name (name.discriminator ++ rest) := by
  rw [decodeEvent, List.take_left' (EventName.length_discriminator name),
    decoderByDiscriminator_some.mpr rfl]
  rfl

theorem decodeEvent_short {data : Bytes} (h : data.length < 8) :
    decodeEvent w replaced data = .error (.unknown (data.take 8)) := by
  have hnone : decoderByDiscriminator (data.take 8) = none := by
    rw [Option.eq_none_iff_forall_ne_some]
    intro name hname
    have hlength := congrArg List.length (decoderByDiscriminator_some.mp hname)
    rw [EventName.length_discriminator, List.length_take] at hlength
    omega
  rw [decodeEvent, hnone]
  rfl

theorem delimits_event (replaced : Bytes → JsString) {e : LoggedEvent} (h : e.Fits w) :
    Delimits (decodeEvent w replaced) (e.bytes w) (e.decoded replaced) := by
  have hdecoder := delimits_decoder replaced h
  have hbytes : e.bytes w = e.name.discriminator ++ (e.fields w).flatten := List.flatten_cons
  rw [hbytes] at hdecoder ⊢
  refine ⟨?_, ?_, ?_⟩
  · rw [decodeEvent_append]
    exact hdecoder.exact
  · intro more hmore
    have hlonger := hdecoder.longer more hmore
    rw [List.append_assoc] at hlonger ⊢
    rw [decodeEvent_append]
    exact hlonger
  · intro part hpart hne
    by_cases hshort : part.length < 8
    · exact ⟨_, decodeEvent_short hshort⟩
    · have hlength := EventName.length_discriminator e.name
      obtain ⟨rest, rfl⟩ : e.name.discriminator <+: part :=
        List.prefix_of_prefix_length_le (List.prefix_append _ _) hpart (by omega)
      rw [decodeEvent_append]
      exact hdecoder.shorter _ hpart hne

-- ---------------------------------------------------------------------------
-- What was logged
-- ---------------------------------------------------------------------------

def DecodedEvent.logged : DecodedEvent → LoggedEvent
  | .published event => .published event
  | .configChanged pool slot authority param old new =>
    .published (.configChanged pool slot authority (.ofList (param.points.map CodePoint.char)) old
      new)
  | .planned event => .planned event

theorem utf8_scalars (s : String) : utf8 (s.toList.map .scalar) = utf8Bytes s := by
  rw [utf8, List.map_map]
  change (s.toList.map id).flatMap _ = _
  rw [List.map_id]
  rfl

theorem ofBuffer_chars {s : String} (h : FitsString s) :
    String.ofList ((JsString.ofBuffer replaced (utf8Bytes s)).points.map CodePoint.char) = s := by
  have hshort : (utf8 (s.toList.map .scalar)).length < 2 ^ 32 := by
    rw [utf8_scalars]
    exact h
  have hpoints := ofBuffer_utf8 replaced (JsString.ofChars s.toList hshort)
  have hchars : (JsString.ofChars s.toList hshort).points.map (fun p => CodePoint.scalar p.char) =
      s.toList.map .scalar := by
    rw [JsString.ofChars, List.map_map]
    rfl
  rw [hchars] at hpoints
  change (JsString.ofBuffer replaced (utf8 (s.toList.map .scalar))).points = _ at hpoints
  rw [utf8_scalars] at hpoints
  rw [hpoints, List.map_map]
  change String.ofList (s.toList.map id) = s
  rw [List.map_id, String.ofList_toList]

theorem logged_decoded (replaced : Bytes → JsString) {e : LoggedEvent} (h : e.Fits w) :
    (e.decoded replaced).logged = e := by
  cases e with
  | planned e => rfl
  | published e =>
    cases e with
    | configChanged =>
      obtain ⟨-, -, -, hparam, -, -⟩ := h
      simp only [LoggedEvent.decoded, DecodedEvent.logged, ofBuffer_chars hparam]
    | _ => rfl

/-- Every declared event comes back from its bytes as what was logged; the bytes with more behind
them, or broken off, are no event, and no event's bytes begin another's. -/
theorem event_wire (w : Encoding) (replaced : Bytes → JsString) {e : LoggedEvent} (h : e.Fits w) :
    (∃ decoded, decodeEvent w replaced (e.bytes w) = .ok decoded ∧ decoded.logged = e) ∧
    (∀ more, more ≠ [] →
      decodeEvent w replaced (e.bytes w ++ more) = .error (.fields (.unconsumed more.length))) ∧
    (∀ part, part <+: e.bytes w → part ≠ e.bytes w →
      ∃ error, decodeEvent w replaced part = .error error) ∧
    ∀ other : LoggedEvent, other.Fits w → other.bytes w <+: e.bytes w → other = e := by
  have hdelimits := delimits_event replaced h
  refine ⟨⟨_, hdelimits.exact, logged_decoded replaced h⟩, hdelimits.longer, hdelimits.shorter, ?_⟩
  intro other hother hprefix
  have hexact := (delimits_event replaced hother).exact
  by_cases heq : other.bytes w = e.bytes w
  · rw [heq, hdelimits.exact, Except.ok.injEq] at hexact
    rw [← logged_decoded replaced hother, ← hexact, logged_decoded replaced h]
  · obtain ⟨error, herror⟩ := hdelimits.shorter _ hprefix heq
    rw [herror] at hexact
    cases hexact

/-- A price change at the bank, to and from bytes. -/
theorem event_wire_price :
    let e : LoggedEvent :=
      .published (.configChanged (.pool 0) 7 .default "price" (.amount 9_900_000) (.amount 0))
    ∃ decoded, decodeEvent bankEncoding (fun _ => .ofChars [] (by decide)) (e.bytes bankEncoding)
      = .ok decoded ∧ decoded.logged = e :=
  (event_wire bankEncoding _ (e := .published (.configChanged (.pool 0) 7 .default "price"
    (.amount 9_900_000) (.amount 0)))
    ⟨rfl, by decide, rfl, (by decide +kernel : (utf8Bytes "price").length < 2 ^ 32),
      (by decide : 9_900_000 < 2 ^ 64), (by decide : 0 < 2 ^ 64)⟩).1

end ByeMachine
