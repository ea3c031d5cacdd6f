import ByeMachine.Invariants.Traces
import ByeMachine.Refinement.Events
import ByeMachine.Refinement.Pools

/-!
# Admission

A pool's collections are what its events so far admit, and a card is taken in
only where the last word on the collection it declares admits its standard.
-/

namespace ByeMachine

open Fallible

-- ---------------------------------------------------------------------------
-- The log of admissions
-- ---------------------------------------------------------------------------

/-- What an event says of a collection of a pool, where it says anything: the standards admitted,
or that it is withdrawn. -/
def Event.admission (key collection : Pubkey) : Event → Option (Option ℕ)
  | .collectionAdmitted pool _ named standards _ _ _ =>
    if pool = key ∧ named = collection then some (some standards) else none
  | .collectionWithdrawn pool _ named _ _ _ =>
    if pool = key ∧ named = collection then some none else none
  | _ => none

def replayAdmissions (key collection : Pubkey) (events : List Event) : Option ℕ :=
  events.foldl (fun admitted e => (e.admission key collection).getD admitted) none

/-- The last event on the collection admits it with this mask. -/
def LastAdmitted (key collection : Pubkey) (mask : ℕ) (events : List Event) : Prop :=
  ∃ before slot old reason authority after,
    events = before ++ .collectionAdmitted key slot collection mask old reason authority :: after ∧
      ∀ e ∈ after, e.admission key collection = none

section Log

variable {key collection : Pubkey} {events more : List Event} {e : Event} {mask : ℕ}

theorem replayAdmissions_concat : replayAdmissions key collection (events ++ [e])
    = (e.admission key collection).getD (replayAdmissions key collection events) := by
  simp [replayAdmissions, List.foldl_append]

theorem replayAdmissions_silent (h : ∀ e ∈ more, e.admission key collection = none) :
    replayAdmissions key collection (events ++ more) = replayAdmissions key collection events := by
  induction more using List.reverseRecOn with
  | nil => simp
  | append_singleton more e ih =>
    rw [← List.append_assoc, replayAdmissions_concat, h e (by simp)]
    exact ih fun e he => h e (by simp [he])

theorem LastAdmitted.of_replay (h : replayAdmissions key collection events = some mask) :
    LastAdmitted key collection mask events := by
  induction events using List.reverseRecOn with
  | nil => cases h
  | append_singleton events e ih =>
    rw [replayAdmissions_concat] at h
    cases hword : e.admission key collection with
    | none =>
      rw [hword] at h
      obtain ⟨before, slot, old, reason, authority, after, rfl, hafter⟩ := ih h
      refine ⟨before, slot, old, reason, authority, after ++ [e], by simp, fun event hevent => ?_⟩
      rcases List.mem_append.mp hevent with hevent | hevent
      · exact hafter event hevent
      · obtain rfl := List.mem_singleton.mp hevent
        exact hword
    | some word =>
      obtain rfl : word = some mask := by simpa [hword] using h
      cases e with
      | collectionAdmitted pool slot named standards old reason authority =>
        simp only [Event.admission, Option.ite_none_right_eq_some, Option.some.injEq] at hword
        obtain ⟨⟨rfl, rfl⟩, rfl⟩ := hword
        exact ⟨events, slot, old, reason, authority, [], rfl, by simp⟩
      | collectionWithdrawn => simp [Event.admission] at hword
      | _ => cases hword

theorem admission_none_of_kind (hadmitted : e.kind ≠ .collectionAdmitted)
    (hwithdrawn : e.kind ≠ .collectionWithdrawn) : e.admission key collection = none := by
  cases e with
  | collectionAdmitted => exact absurd rfl hadmitted
  | collectionWithdrawn => exact absurd rfl hwithdrawn
  | _ => rfl

end Log

-- ---------------------------------------------------------------------------
-- The records
-- ---------------------------------------------------------------------------

section Records

variable {X : Programs} {may : Ledger → Settlement → Prop} {clock : Clock} {c₀ c c' : Chain}
  {key collection administrator : Pubkey} {entries past since : List Entry} {e : Entry}
  {events : List Event} {standards : ℕ} {record : PoolCollection}

structure Pristine (c : Chain) : Prop extends Genesis c where
  poolCollections : c.poolCollections = ∅

/-- What every record says of itself: its own address, a live pool and a usable mask. -/
structure PoolCollection.Kept (record : PoolCollection) (k : Pubkey) : Prop where
  address : k = .poolCollection record.pool record.collection
  pool : ∃ poolId, record.pool = .pool poolId
  mask : maskIsValid record.standards = true

/-- The records are what the events admit. -/
structure Replayed (c : Chain) (events : List Event) : Prop where
  kept : ∀ k record, c.poolCollections.lookup k = some record → record.Kept k
  replayed : ∀ key collection, (c.poolCollections.lookup (.poolCollection key collection)).map
    (·.standards) = replayAdmissions key collection events

theorem checkUpdate_ok {old : ℕ} {reason : Option ℕ} {u : Unit}
    (h : checkUpdate old standards reason = .ok u) :
    maskIsValid standards = true ∧ clearsABit old standards = reason.isSome := by
  simp only [checkUpdate, bind_ok, require_ok] at h
  exact ⟨h.choose_spec.1, h.choose_spec.2.choose_spec.2⟩

/-- What admitting a collection writes and publishes, over records that know their own addresses. -/
theorem admitCollection_ok {reason : Option ℕ} (hreplayed : Replayed c events)
    {out : List Event}
    (h : admitCollection X clock c administrator key collection standards reason = .ok (c', out)) :
    ∃ record, record.Kept (.poolCollection key collection) ∧ record.standards = standards ∧
      clearsABit ((replayAdmissions key collection events).getD 0) standards = reason.isSome ∧
      c' = { c with poolCollections :=
        c.poolCollections.insert (.poolCollection key collection) record } ∧
      out = [.collectionAdmitted key clock.slot collection standards
        ((replayAdmissions key collection events).getD 0) reason administrator] := by
  simp only [admitCollection, bind_ok, pure_ok, Prod.mk.injEq] at h
  obtain ⟨_, -, pool, hpool, _, hcheck, rfl, rfl⟩ := h
  have hkey : key = .pool pool.poolId := (loadPool_ok.mp hpool).2
  obtain ⟨hmask, hreason⟩ := checkUpdate_ok hcheck
  rw [← hreplayed.replayed key collection]
  cases hfound : c.poolCollections.lookup (.poolCollection key collection) with
  | none =>
    simp only [hfound, Option.getD_none, if_true, Option.map_none] at hreason ⊢
    exact ⟨_, ⟨rfl, ⟨_, hkey⟩, hmask⟩, rfl, hreason, rfl, trivial⟩
  | some record =>
    obtain ⟨haddress, ⟨poolId, hpoolId⟩, -⟩ := hreplayed.kept _ _ hfound
    have hnew : ¬record.pool = .default := by simp [hpoolId]
    simp only [hfound, Option.getD_some, if_neg hnew, Option.map_some] at hreason ⊢
    exact ⟨{ record with standards }, ⟨haddress, ⟨poolId, hpoolId⟩, hmask⟩, rfl, hreason, rfl,
      trivial⟩

theorem withdrawCollection_ok {reason : ℕ} {out : List Event}
    (h : withdrawCollection clock c administrator key collection reason = .ok (c', out)) :
    ∃ record, c.poolCollections.lookup (.poolCollection key collection) = some record ∧
      c' = { c with poolCollections := c.poolCollections.erase (.poolCollection key collection) } ∧
      out = [.collectionWithdrawn key clock.slot collection record.standards reason
        administrator] := by
  simp only [withdrawCollection, bind_ok, okOr_ok, pure_ok, Prod.mk.injEq] at h
  obtain ⟨_, -, _, -, record, hrecord, rfl, rfl⟩ := h
  exact ⟨record, hrecord, rfl, rfl⟩

theorem admission_other {event : Event} {other named : Pubkey} {word : Option ℕ}
    (h : event.admission key collection = some word)
    (hne : Pubkey.poolCollection other named ≠ .poolCollection key collection) :
    event.admission other named = none := by
  rw [ne_eq, Pubkey.poolCollection.injEq] at hne
  cases event with
  | collectionAdmitted | collectionWithdrawn =>
    simp only [Event.admission, Option.ite_none_right_eq_some] at h
    obtain ⟨⟨rfl, rfl⟩, -⟩ := h
    exact if_neg fun heq => hne ⟨heq.1.symm, heq.2.symm⟩
  | _ => cases h

theorem Replayed.write {event : Event} (h : Replayed c events)
    (hkept : record.Kept (.poolCollection key collection))
    (hword : event.admission key collection = some (some record.standards)) :
    Replayed { c with poolCollections :=
      c.poolCollections.insert (.poolCollection key collection) record } (events ++ [event]) where
  kept := by
    intro k found hfound
    by_cases hk : k = .poolCollection key collection
    · subst hk
      obtain rfl := Option.some.inj ((Finmap.lookup_insert _).symm.trans hfound)
      exact hkept
    · exact h.kept k found ((Finmap.lookup_insert_of_ne _ hk).symm.trans hfound)
  replayed := by
    intro other named
    rw [replayAdmissions_concat]
    by_cases hk : Pubkey.poolCollection other named = .poolCollection key collection
    · obtain ⟨rfl, rfl⟩ := Pubkey.poolCollection.inj hk
      simp [hword]
    · rw [admission_other hword hk, Option.getD_none, ← h.replayed other named]
      dsimp only
      rw [Finmap.lookup_insert_of_ne _ hk]

theorem Replayed.close {event : Event} (h : Replayed c events)
    (hword : event.admission key collection = some none) :
    Replayed { c with poolCollections := c.poolCollections.erase (.poolCollection key collection) }
      (events ++ [event]) where
  kept := by
    intro k found hfound
    by_cases hk : k = .poolCollection key collection
    · subst hk
      simp at hfound
    · exact h.kept k found ((Finmap.lookup_erase_ne hk).symm.trans hfound)
  replayed := by
    intro other named
    rw [replayAdmissions_concat]
    by_cases hk : Pubkey.poolCollection other named = .poolCollection key collection
    · obtain ⟨rfl, rfl⟩ := Pubkey.poolCollection.inj hk
      simp [hword]
    · rw [admission_other hword hk, Option.getD_none, ← h.replayed other named]
      dsimp only
      rw [Finmap.lookup_erase_ne hk]

theorem Replayed.step (h : Replayed c (published entries))
    (hrun : exec X e.clock c e.instr = .ok (c', e.events)) :
    Replayed c' (published (entries ++ [e])) := by
  obtain ⟨clock, instr, out⟩ := e
  have hpublished : published (entries ++ [⟨clock, instr, out⟩]) = published entries ++ out := by
    simp [published, List.flatMap_append]
  rw [hpublished]
  -- The instructions that write no record publish nothing of the kind.
  have hother (hnone : instr.collectionWritten = none)
      (hadmitted : EventKind.collectionAdmitted ∉ instr.publishes)
      (hwithdrawn : EventKind.collectionWithdrawn ∉ instr.publishes) :
      Replayed c' (published entries ++ out) := by
    have hcollections := (exec_records hrun).collections hnone
    refine ⟨by rw [hcollections]; exact h.kept, fun key collection => ?_⟩
    rw [hcollections, h.replayed, replayAdmissions_silent]
    intro event hevent
    have hkind := exec_publishes hrun hevent
    refine admission_none_of_kind ?_ ?_
    · intro heq
      exact hadmitted (heq ▸ hkind)
    · intro heq
      exact hwithdrawn (heq ▸ hkind)
  cases instr with
  | admitCollection administrator pool collection standards reason =>
    obtain ⟨record, hkept, hstandards, -, rfl, hout⟩ := admitCollection_ok h hrun
    dsimp only at hout
    rw [hout]
    exact h.write hkept (by simp [Event.admission, hstandards])
  | withdrawCollection administrator pool collection reason =>
    obtain ⟨record, -, rfl, hout⟩ := withdrawCollection_ok hrun
    dsimp only at hout
    rw [hout]
    exact h.close (by simp [Event.admission])
  | _ => exact hother rfl (by simp [Instr.publishes]) (by simp [Instr.publishes])

theorem settle_poolCollections (c : Chain) (key : Pubkey) (s : Settlement) :
    (c.settle key s).poolCollections = c.poolCollections := by
  unfold Chain.settle
  split <;> rfl

theorem Trace.replayed (h : Trace X may c₀ entries c) (hpristine : Pristine c₀) :
    Replayed c (published entries) := by
  induction h with
  | start =>
    refine ⟨fun k record hrecord => ?_, fun key collection => ?_⟩
    · rw [hpristine.poolCollections] at hrecord
      cases hrecord
    · rw [hpristine.poolCollections]
      rfl
  | instruction _ clock instr events hrun ih => exact ih.step (e := ⟨clock, instr, events⟩) hrun
  | elsewhere _ _ _ _ ih => exact ⟨ih.kept, ih.replayed⟩
  | settle _ _ _ ih =>
    exact ⟨by rw [settle_poolCollections]; exact ih.kept,
      by rw [settle_poolCollections]; exact ih.replayed⟩

end Records

-- ---------------------------------------------------------------------------
-- The cards
-- ---------------------------------------------------------------------------

section Cards

variable {X : Programs} {may : Ledger → Settlement → Prop} {clock : Clock} {c₀ c c' : Chain}
  {entries past since : List Entry} {e : Entry} {events : List Event}
  {pool mint collection : Pubkey} {externals : Externals} {standard : ℕ} {instr : Instr}

/-- A Token Metadata card that declares the collection, verified, with the standard the program
resolves from the same metadata. -/
structure DeclaresMetadata (X : Programs) (externals : Externals) (mint collection : Pubkey)
    (standard : ℕ) : Prop where
  owner : (externals (X.metadataPda mint)).owner = .program .tokenMetadata
  declared : ∃ parsed, X.parseMetadata (externals (X.metadataPda mint)).data = some parsed ∧
    parsed.collection = some ⟨true, collection⟩ ∧ resolveStandard parsed = .ok standard

/-- A Core asset whose update authority is the collection. -/
structure DeclaresCore (X : Programs) (externals : Externals) (asset collection : Pubkey) :
    Prop where
  owner : (externals asset).owner = .program .mplCore
  declared : ∃ parsed, X.parseAsset (externals asset).data = some parsed ∧ parsed.key = .assetV1 ∧
    parsed.updateAuthority = .collection collection

/-- The card's position opens with the standard, and the last event on its collection admits it. -/
structure Admitted (pool mint collection : Pubkey) (standard : ℕ) (past : List Event)
    (after : Chain) : Prop where
  opened : ∃ p, after.positions.lookup (.position pool mint) = some p ∧ p.pool = pool ∧
    p.nftMint = mint ∧ p.standard = standard
  admitted : ∃ mask, LastAdmitted pool collection mask past ∧ maskAdmits mask standard = true

theorem validateAdmission_ok {metadata masterEdition recordKey : Pubkey} {record : PoolCollection}
    (h : validateAdmission X externals mint metadata masterEdition pool recordKey record
      = .ok standard) :
    ∃ collection, DeclaresMetadata X externals mint collection standard ∧
      recordKey = .poolCollection pool collection ∧
      maskAdmits record.standards standard = true := by
  simp only [validateAdmission, declaredCollection, requireAdmits, bind_ok, require_ok, okOr_ok,
    pure_ok] at h
  obtain ⟨-, -, -, howner, -, rfl, parsed, hparsed, _, hstandard, _,
    ⟨⟨_, key⟩, hcollection, -, rfl, rfl⟩, -, -, -, -, -, -, -, ⟨-, haddress, hadmits⟩, rfl⟩ := h
  exact ⟨key, ⟨howner, parsed, hparsed, hcollection, hstandard⟩, haddress, hadmits⟩

theorem recordDeposit_opens {poolKey depositor nftMint : Pubkey} {pool : Pool} {tokens : Tokens}
    (h : recordDeposit X clock c poolKey depositor nftMint pool standard tokens externals
      = .ok (c', events)) :
    ∃ p, c'.positions.lookup (.position poolKey nftMint) = some p ∧ p.pool = poolKey ∧
      p.nftMint = nftMint ∧ p.standard = standard := by
  simp only [recordDeposit, bind_ok, pure_ok, Prod.mk.injEq] at h
  obtain ⟨_, -, rfl, -⟩ := h
  exact ⟨_, Finmap.lookup_insert _, rfl, rfl, rfl⟩

theorem Replayed.last {record : PoolCollection} (h : Replayed c events)
    (hrecord : c.poolCollections.lookup (.poolCollection pool collection) = some record) :
    LastAdmitted pool collection record.standards events :=
  .of_replay (by rw [← h.replayed, hrecord]; rfl)

theorem deposit_admitted {a : DepositAccounts} {out : List Event} (hreplayed : Replayed c events)
    (h : deposit X clock c a = .ok (c', out)) :
    ∃ collection standard, DeclaresMetadata X c.externals a.nftMint collection standard ∧
      Admitted a.pool a.nftMint collection standard events c' := by
  simp only [deposit, bind_ok, okOr_ok, Prod.exists] at h
  obtain ⟨-, -, _, -, record, hrecord, -, -, _, -, _, -, _, -, -, -, -, -, -, -, standard,
    hadmission, _, _, -, hwrite⟩ := h
  obtain ⟨collection, hdeclares, haddress, hadmits⟩ := validateAdmission_ok hadmission
  rw [haddress] at hrecord
  exact ⟨collection, standard, hdeclares, recordDeposit_opens hwrite, record.standards,
    hreplayed.last hrecord, hadmits⟩

theorem depositCore_admitted {a : DepositCoreAccounts} {out : List Event}
    (hreplayed : Replayed c events) (h : depositCore X clock c a = .ok (c', out)) :
    ∃ collection, DeclaresCore X c.externals a.asset collection ∧
      Admitted a.pool a.asset collection STANDARD_CORE events c' := by
  simp only [depositCore, readCoreAsset, requireAdmits, bind_ok, require_ok, okOr_ok, pure_ok] at h
  obtain ⟨-, -, _, -, record, hrecord, -, -, -, -, _,
    ⟨-, howner, parsed, hparsed, -, hkey, rfl⟩, -, -, collection, hcollection, -,
    ⟨-, haddress, hadmits⟩, -, -, _, -, hwrite⟩ := h
  rw [haddress] at hrecord
  have hauthority : parsed.updateAuthority = .collection collection := by
    unfold declaredCoreCollection at hcollection
    cases hupdate : parsed.updateAuthority with
    | none | address => simp [hupdate, throw_ok] at hcollection
    | collection declared =>
      rw [hupdate] at hcollection
      rw [pure_ok.mp hcollection]
  exact ⟨collection, ⟨howner, parsed, hparsed, hkey, hauthority⟩, recordDeposit_opens hwrite,
    record.standards, hreplayed.last hrecord, hadmits⟩

-- ---------------------------------------------------------------------------
-- The reasons
-- ---------------------------------------------------------------------------

def Event.reasoned : Event → Bool
  | .collectionAdmitted _ _ _ _ _ reason _ => reason.isSome
  | .collectionWithdrawn .. => true
  | _ => false

def Event.admittedBefore : Event → ℕ
  | .collectionAdmitted _ _ _ _ old _ _ => old
  | .collectionWithdrawn _ _ _ old _ _ => old
  | _ => 0

/-- A standard admitted before is no longer. -/
def Narrows (old new : ℕ) : Prop := ∃ bit, old.testBit bit = true ∧ new.testBit bit = false

theorem clearsABit_iff {old new : ℕ} : clearsABit old new = true ↔ Narrows old new := by
  simp only [clearsABit, bne_iff_ne, ne_eq, Nat.eq_iff_testBit_eq, Nat.testBit_and, Narrows,
    not_forall]
  refine exists_congr fun bit => ?_
  cases old.testBit bit <;> cases new.testBit bit <;> simp

theorem narrows_zero {old : ℕ} (h : maskIsValid old = true) : Narrows old 0 := by
  have hne : old ≠ 0 := by
    simp only [maskIsValid, Bool.and_eq_true, bne_iff_ne] at h
    exact h.1
  obtain ⟨bit, hbit⟩ := Nat.exists_testBit_of_ne_zero hne
  exact ⟨bit, hbit, Nat.zero_testBit bit⟩

/-- What an event on a collection says is so: it names what was admitted, it carries a reason
exactly where it narrows that, and no position changes with it. -/
structure Justified (past : List Event) (before after : Chain) (event : Event)
    (key collection : Pubkey) (word : Option ℕ) : Prop where
  named : event.admittedBefore = (replayAdmissions key collection past).getD 0
  reasoned : event.reasoned = true ↔
    Narrows ((replayAdmissions key collection past).getD 0) (word.getD 0)
  untouched : after.positions = before.positions

theorem exec_justified {key : Pubkey} {word : Option ℕ} {event : Event} {out : List Event}
    (hreplayed : Replayed c events) (h : exec X clock c instr = .ok (c', out))
    (hevent : event ∈ out) (hword : event.admission key collection = some word) :
    Justified events c c' event key collection word := by
  have hkind := exec_publishes h hevent
  cases instr with
  | admitCollection administrator pool named standards reason =>
    obtain ⟨record, -, -, hreason, rfl, rfl⟩ := admitCollection_ok hreplayed h
    obtain rfl := List.mem_singleton.mp hevent
    simp only [Event.admission, Option.ite_none_right_eq_some, Option.some.injEq] at hword
    obtain ⟨⟨rfl, rfl⟩, rfl⟩ := hword
    exact ⟨rfl, by rw [Option.getD_some, ← clearsABit_iff, hreason]; rfl, rfl⟩
  | withdrawCollection administrator pool named reason =>
    obtain ⟨record, hrecord, rfl, rfl⟩ := withdrawCollection_ok h
    obtain rfl := List.mem_singleton.mp hevent
    simp only [Event.admission, Option.ite_none_right_eq_some, Option.some.injEq] at hword
    obtain ⟨⟨rfl, rfl⟩, rfl⟩ := hword
    have hold : replayAdmissions pool named events = some record.standards := by
      rw [← hreplayed.replayed, hrecord]
      rfl
    have hnarrows := narrows_zero (hreplayed.kept _ _ hrecord).mask
    exact ⟨by rw [hold]; rfl, by rw [hold]; exact iff_of_true rfl hnarrows, rfl⟩
  | _ =>
    exfalso
    cases event <;> simp [Event.admission] at hword <;> simp [Instr.publishes, Event.kind] at hkind

/-- What one entry of a run does about admission, after the events of the past. -/
structure AdmissionLaw (X : Programs) (past : List Event) (before after : Chain) (e : Entry) :
    Prop where
  deposit : ∀ a, e.instr = .deposit a → ∃ collection standard,
    DeclaresMetadata X before.externals a.nftMint collection standard ∧
      Admitted a.pool a.nftMint collection standard past after
  depositCore : ∀ a, e.instr = .depositCore a → ∃ collection,
    DeclaresCore X before.externals a.asset collection ∧
      Admitted a.pool a.asset collection STANDARD_CORE past after
  justified : ∀ event ∈ e.events, ∀ key collection word,
    event.admission key collection = some word →
      Justified past before after event key collection word

/-- After every run the records are what the events admit, and whatever goes through next keeps the
law of admission. -/
theorem admission_sound (hpristine : Pristine c₀) (htrace : Trace X may c₀ entries c) :
    Replayed c (published entries) ∧
      ∀ e c', exec X e.clock c e.instr = .ok (c', e.events) →
        AdmissionLaw X (published entries) c c' e := by
  have hreplayed := htrace.replayed hpristine
  refine ⟨hreplayed, fun e c' hrun => ⟨fun a ha => ?_, fun a ha => ?_, fun event hevent key
    collection word hword => exec_justified hreplayed hrun hevent hword⟩⟩
  · rw [ha] at hrun
    exact deposit_admitted hreplayed hrun
  · rw [ha] at hrun
    exact depositCore_admitted hreplayed hrun

def Entry.takesCore (e : Entry) : Bool :=
  match e.instr with
  | .depositCore _ => true
  | _ => false

theorem admission_sound_bank : ∃ (past : List Entry) (after : Chain) (e : Entry)
    (a : DepositCoreAccounts), e.instr = .depositCore a ∧
    ∃ collection, Admitted a.pool a.asset collection STANDARD_CORE (published past) after := by
  obtain ⟨past, e, hpast, htakes⟩ := executed_last bank [admitCards, depositCard 30]
    (bankPool (defaultArgs .default)) Entry.takesCore (by decide +kernel)
  obtain ⟨first, c, hgenesis, htrace⟩ := bank_trace (fun _ _ => False) defaultArgs_valid
    (show (traceScript bank [admitCards, depositCard 30] (bankPool (defaultArgs .default))).isOk
      by decide +kernel)
  rw [hpast, ← List.append_assoc] at htrace
  obtain ⟨before, after, hbefore, hrun, -⟩ := htrace.split
  have hlaw := (admission_sound ⟨hgenesis, rfl⟩ hbefore).2 e after hrun
  obtain ⟨clock, instr, events⟩ := e
  cases instr with
  | depositCore a =>
    obtain ⟨collection, -, hadmitted⟩ := hlaw.depositCore a rfl
    exact ⟨_, after, ⟨clock, .depositCore a, events⟩, a, rfl, collection, hadmitted⟩
  | _ => cases htakes

end Cards

end ByeMachine
