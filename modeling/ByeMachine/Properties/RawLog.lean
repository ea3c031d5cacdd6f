import ByeMachine.Properties.CardLog
import ByeMachine.Properties.EventWire
import ByeMachine.Properties.PoolLog

/-!
# The raw log

What reaches a client is bytes. Decoded line by line by `decodeEvent`, the log of
any run brings back what it tells of a pool, of a card and of the live authorities;
a line that was broken off or run together with more stops every reading.
-/

namespace ByeMachine

open Fallible Replay Decoders

/-- One line of the log, read as an event of the program; what is none stops the reading. -/
def readLine {σ : Type} (w : Encoding) (replaced : Bytes → JsString) (read : σ → Event → Option σ)
    (s : σ) (line : Bytes) : Option σ :=
  match (decodeEvent w replaced line).map DecodedEvent.logged with
  | .ok (.published e) => read s e
  | .ok (.planned _) => some s
  | .error _ => none

def Event.line (w : Encoding) (e : Event) : Bytes := (LoggedEvent.published e).bytes w

section

variable {σ : Type} {w : Encoding} {replaced : Bytes → JsString} {read : σ → Event → Option σ}
  {e : Event} {events : List Event} {s : σ}

theorem readLine_line (h : e.Fits w) : readLine w replaced read s (e.line w) = read s e := by
  have hfits : (LoggedEvent.published e).Fits w := h
  rw [readLine, Event.line, (delimits_event replaced hfits).exact, Except.map,
    logged_decoded replaced hfits]

theorem replay_lines (h : ∀ e ∈ events, e.Fits w) (s : σ) :
    replay (readLine w replaced read) (events.map (Event.line w)) s = replay read events s := by
  induction events generalizing s with
  | nil => rfl
  | cons e events ih =>
    rw [List.map_cons, replay_cons, replay_cons, readLine_line (h e List.mem_cons_self)]
    congr 1
    funext s
    exact ih (fun e he => h e (List.mem_cons_of_mem _ he)) s

/-- Bytes that only begin an event's line, or that go on after it. -/
def Damaged (w : Encoding) (e : Event) (line : Bytes) : Prop :=
  line ≠ e.line w ∧ (line <+: e.line w ∨ e.line w <+: line)

theorem readLine_damaged {line : Bytes} (hfits : e.Fits w) (h : Damaged w e line) :
    readLine w replaced read s line = none := by
  have hlogged : (LoggedEvent.published e).Fits w := hfits
  have hdelimits := delimits_event replaced hlogged
  obtain ⟨hne, hpart | ⟨more, rfl⟩⟩ := h
  · obtain ⟨error, herror⟩ := hdelimits.shorter line hpart hne
    rw [readLine, herror]
    rfl
  · have hmore : more ≠ [] := fun hnil => hne (by rw [hnil, List.append_nil])
    rw [readLine, Event.line, hdelimits.longer more hmore]
    rfl

theorem replay_damaged {before after : List Bytes} {line : Bytes} (hfits : e.Fits w)
    (h : Damaged w e line) :
    replay (readLine w replaced read) (before ++ line :: after) s = none := by
  rw [replay_append]
  cases replay (readLine w replaced read) before s with
  | none => rfl
  | some s =>
    rw [Option.bind_some, replay_cons, readLine_damaged hfits h]
    rfl

end

/-- The bytes a run logged bring back what the log tells of any pool, of any card and of the live
authorities, and no reading goes past a damaged line. -/
theorem raw_log {X : Programs} {may : Ledger → Settlement → Prop} {c₀ c : Chain}
    {entries : List Entry} (w : Encoding) (replaced : Bytes → JsString) (hgenesis : Genesis c₀)
    (htrace : Trace X may c₀ entries c) (hfits : ∀ e ∈ published entries, e.Fits w)
    (pool nftMint : Pubkey) :
    let lines := (published entries).map (Event.line w)
    replay (readLine w replaced (readPool pool)) lines none
        = some ((c.pools.lookup pool).map Pool.told) ∧
      replay (readLine w replaced (readCard pool nftMint)) lines (0, none)
        = some (c.toldCard pool nftMint) ∧
      replay (readLine w replaced readAuthorities) lines (fun _ => none)
        = some c.liveAuthorities ∧
      ∀ e ∈ published entries, ∀ line, Damaged w e line → ∀ before after,
        replay (readLine w replaced (readPool pool)) (before ++ line :: after) none = none ∧
        replay (readLine w replaced (readCard pool nftMint)) (before ++ line :: after) (0, none)
          = none ∧
        replay (readLine w replaced readAuthorities) (before ++ line :: after) (fun _ => none)
          = none := by
  refine ⟨?_, ?_, ?_, fun e he line hline before after =>
    ⟨replay_damaged (hfits e he) hline, replay_damaged (hfits e he) hline,
      replay_damaged (hfits e he) hline⟩⟩
  · have htold := htrace.told hgenesis pool
    rw [hgenesis.pools, Finmap.lookup_empty] at htold
    rw [replay_lines hfits]
    exact htold
  · rw [replay_lines hfits, ← hgenesis.toldCard]
    exact htrace.cardTold hgenesis pool nftMint
  · have hlive : c₀.liveAuthorities = fun _ => none := by
      funext role
      simp [Chain.liveAuthorities, hgenesis.protocolConfig]
    rw [replay_lines hfits, ← hlive]
    exact htrace.follows Chain.liveAuthorities (fun _ _ _ _ _ _ h => exec_authorities h)
      (fun _ _ _ => rfl) (fun _ _ _ _ hL => settle_liveAuthorities hL) hgenesis

-- ---------------------------------------------------------------------------
-- The bank's log
-- ---------------------------------------------------------------------------

instance (value : ℤ) : Decidable (FitsI64 value) := inferInstanceAs (Decidable (_ ∧ _))

instance : (value : ConfigValue) → Decidable value.Fits
  | .amount value => inferInstanceAs (Decidable (value < 2 ^ 64))
  | .bps value => inferInstanceAs (Decidable (value < 2 ^ 16))
  | .count value => inferInstanceAs (Decidable (value < 2 ^ 8))
  | .faces value => inferInstanceAs (Decidable (∀ d, value d < 2 ^ 64))
  | .hours value => inferInstanceAs (Decidable (value < 2 ^ 16))

instance (s : String) : Decidable (FitsString s) := inferInstanceAs (Decidable (_ < _))

instance (w : Encoding) (key : Pubkey) : Decidable (w.Faithful key) :=
  inferInstanceAs (Decidable (_ = _))

instance (w : Encoding) (e : Event) : Decidable (e.Fits w) := by
  cases e <;> exact inferInstanceAs (Decidable (_ ∧ _))

def walletEncode : Pubkey → Bytes
  | .key n => 3 :: UInt8.ofNat n :: List.replicate 30 0
  | key => bankEncode key

def walletDecode : Bytes → Pubkey
  | 3 :: n :: _ => .key n.toNat
  | data => bankDecode data

def walletEncoding : Encoding :=
  { bankEncoding with
    encode := walletEncode
    decode := walletDecode
    length_encode := by
      intro key
      unfold walletEncode
      split
      · rfl
      · exact bankEncoding.length_encode _ }

theorem founding_trace (may : Ledger → Settlement → Prop) :
    ∃ entries, Trace bank may bankGenesis entries (bankPool (defaultArgs .default)) ∧
      ∀ e ∈ published entries, e.Fits walletEncoding := by
  have hpool : (exec bank ⟨0, 0⟩ { bankGenesis with protocolConfig := some bankConfig }
      (.initPool bankConfig.administrator (.key 9) (defaultArgs .default))).map Prod.fst
        = .ok (bankPool (defaultArgs .default)) :=
    initPool_succeeds (X := bank) rfl rfl rfl rfl rfl rfl (by decide) (by decide +kernel)
      (by decide +kernel) defaultArgs_valid (by decide)
  cases hrun : exec bank ⟨0, 0⟩ { bankGenesis with protocolConfig := some bankConfig }
      (.initPool bankConfig.administrator (.key 9) (defaultArgs .default)) with
  | error error =>
    rw [hrun] at hpool
    cases hpool
  | ok result =>
    obtain ⟨c, events⟩ := result
    rw [hrun] at hpool
    obtain rfl : c = _ := Except.ok.inj hpool
    have hfirst : Trace bank may bankGenesis _
        { bankGenesis with protocolConfig := some bankConfig } :=
      Trace.start.instruction ⟨0, 0⟩ (.initProtocol (.key 1) bankConfigArgs) _ rfl
    refine ⟨_, hfirst.instruction _ _ events hrun, ?_⟩
    obtain ⟨config, _, _, hinit⟩ := initPool_ok hrun
    have hconfig := hinit.administers
    simp only [loadForAdministrator, Chain.loadConfig, bind_ok, okOr_ok, pure_ok,
      Option.some.injEq] at hconfig
    obtain ⟨-, -, config, rfl, -, -, rfl⟩ := hconfig
    rw [hinit.published]
    decide +kernel

/-- A collection is admitted, and one card deposited and activated. -/
def bankStory : List (Clock × Instr) := [admitCards, depositCard 30, approveCard 30 15_000_000 77]

/-- The bytes of the bank's log tell of its pool, its card and its operator. -/
theorem raw_log_bank :
    ∃ lines pool card live,
      replay (readLine walletEncoding (fun _ => .ofChars [] (by decide)) (readPool (.pool 0))) lines
        none = some pool ∧ pool.any (fun pool => pool.nReal = 1) = true ∧
      replay (readLine walletEncoding (fun _ => .ofChars [] (by decide))
        (readCard (.pool 0) (.key 30))) lines (0, none) = some card ∧
      card.2.any (fun p => p.recordedValue = 15_000_000) = true ∧
      replay (readLine walletEncoding (fun _ => .ofChars [] (by decide)) readAuthorities) lines
        (fun _ => none) = some live ∧ live .operator = some (.key 2) := by
  obtain ⟨first, hfirst, hfits⟩ := founding_trace fun _ _ => False
  have hstory : (traceScript bank bankStory (bankPool (defaultArgs .default))).isOk := by
    decide +kernel
  obtain ⟨c, hrun⟩ := traceScript_executed hstory
  have hgenesis : Genesis bankGenesis := ⟨rfl, rfl, rfl, rfl, rfl, rfl, rfl⟩
  have hlater : ∀ e ∈ published (executed bank bankStory (bankPool (defaultArgs .default))),
      e.Fits walletEncoding := by
    decide +kernel
  have hall : ∀ e ∈ published (first ++ executed bank bankStory (bankPool (defaultArgs .default))),
      e.Fits walletEncoding := by
    intro e he
    rw [published, List.flatMap_append] at he
    exact (List.mem_append.mp he).elim (hfits e) (hlater e)
  have hlast : ((traceScript bank bankStory (bankPool (defaultArgs .default))).toOption.map
      Prod.snd).any (fun c =>
        ((c.pools.lookup (.pool 0)).map Pool.told).any (fun pool => pool.nReal = 1) &&
        (c.toldCard (.pool 0) (.key 30)).2.any (fun p => p.recordedValue = 15_000_000) &&
        c.liveAuthorities .operator = some (.key 2)) = true := by
    decide +kernel
  rw [hrun] at hlast
  simp only [Except.toOption, Option.map_some, Option.any_some, Bool.and_eq_true,
    decide_eq_true_eq] at hlast
  obtain ⟨hpool, hcard, hlive, -⟩ := raw_log walletEncoding (fun _ => .ofChars [] (by decide))
    hgenesis (hfirst.trans (traceScript_trace hrun)) hall (.pool 0) (.key 30)
  exact ⟨_, _, _, _, hpool, hlast.1.1, hcard, hlast.1.2, hlive, hlast.2⟩

end ByeMachine
