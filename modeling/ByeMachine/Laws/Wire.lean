import ByeMachine.Client.Builders
import ByeMachine.Entry
import ByeMachine.Laws.BorshCodec
import ByeMachine.Properties.BorshRoundTrip

/-!
# What the client writes and the program reads

One law for each method of the client's writer: the program's reader of the same
type, the numbers it carries, and the value. One law for each way the program
takes an account: the meta it is taken from, and what is asked of it.
-/

namespace ByeMachine

open Bytes Borsh

-- ---------------------------------------------------------------------------
-- Arguments
-- ---------------------------------------------------------------------------

namespace Wire

variable {w : Encoding} {key : Pubkey}

theorem conveys_uint {n : ℕ} {value : ℤ} {P : Prop} (h : P ↔ 0 ≤ value ∧ value < 256 ^ n) :
    Conveys (BorshWriter.uint n value) (unsigned Deserialize.short n) P value.toNat where
  reads hP := by
    have hfits := h.mp hP
    have hread : value.toNat < 256 ^ n := by
      rw [Int.toNat_lt hfits.1]
      exact_mod_cast hfits.2
    exact ⟨_, BorshWriter.writes_uint hfits, .unsigned hread⟩
  refuses hP := by
    rw [BorshWriter.uint, if_neg fun hfits => hP (h.mpr hfits)]
    exact .throw _

theorem conveys_u8 (n : ℤ) : Conveys (BorshWriter.u8 n) Deserialize.u8 (InWidth 8 n) n.toNat :=
  conveys_uint Iff.rfl

theorem conveys_u16 (n : ℤ) : Conveys (BorshWriter.u16 n) Deserialize.u16 (InWidth 16 n) n.toNat :=
  conveys_uint Iff.rfl

theorem conveys_u64 (n : ℤ) : Conveys (BorshWriter.u64 n) Deserialize.u64 (InWidth 64 n) n.toNat :=
  conveys_uint Iff.rfl

section

variable {n : ℕ}

theorem conveys_nat8 : Conveys (BorshWriter.u8 n) Deserialize.u8 (n < 2 ^ 8) n :=
  conveys_uint (n := 1) (by omega)

theorem conveys_nat16 : Conveys (BorshWriter.u16 n) Deserialize.u16 (n < 2 ^ 16) n :=
  conveys_uint (n := 2) (by omega)

theorem conveys_nat64 : Conveys (BorshWriter.u64 n) Deserialize.u64 (n < 2 ^ 64) n :=
  conveys_uint (n := 8) (by omega)

end

theorem conveys_i64 (n : ℤ) : Conveys (BorshWriter.i64 n) Deserialize.i64 (FitsI64 n) n where
  reads h := by
    refine ⟨[i64Bytes n], ?_, .signed h⟩
    simp only [BorshWriter.i64, h.1, h.2, and_self, if_true]
    exact .push _
  refuses h := by
    rw [FitsI64] at h
    rw [BorshWriter.i64, if_neg h]
    exact .throw _

theorem conveys_pubkey (h : w.Faithful key) :
    Conveys (BorshWriter.pubkey w key) (Deserialize.pubkey w) True key := by
  have hread : Reads (Deserialize.pubkey w) [w.encode key] _ := .whole w.decode (w.length_encode key)
  rw [h] at hread
  exact .of_writes (.push _) hread

theorem reads_tag {α : Type} {f : ℕ → Deserialize α} {n : ℕ} {fields : List Bytes} {a : α}
    (hn : n < 2 ^ 8) (h : Reads (f n) fields a) :
    Reads (Deserialize.u8 >>= f) (leBytes 1 n :: fields) a :=
  Reads.cons (.unsigned hn) h

theorem writes_tag {n : ℕ} (hn : n < 2 ^ 8) : Writes (BorshWriter.u8 n) [leBytes 1 n] :=
  BorshWriter.writes_u8 hn

theorem conveys_bool (b : Bool) : Conveys (BorshWriter.bool b) Deserialize.bool True b := by
  cases b with
  | false => exact .of_writes (writes_tag (n := 0) (by decide)) (reads_tag (by decide) .pure)
  | true => exact .of_writes (writes_tag (n := 1) (by decide)) (reads_tag (by decide) .pure)

theorem conveys_tag {α : Type} {f : ℕ → Deserialize α} {write : BorshWriter Unit} {P : Prop}
    {a : α} {n : ℕ} (hn : n < 2 ^ 8) (h : Conveys write (f n) P a) :
    Conveys (do BorshWriter.u8 n; write) (Deserialize.u8 >>= f) P a :=
  ((Conveys.of_writes (writes_tag hn) (.unsigned hn)).bind h).cast (by rw [true_and])

theorem conveys_none {α : Type} {m : Deserialize α} :
    Conveys (BorshWriter.u8 0) (Deserialize.option m) True none :=
  .of_writes (writes_tag (n := 0) (by decide)) (reads_tag (by decide) .pure)

theorem conveys_some {α : Type} {m : Deserialize α} {write : BorshWriter Unit} {P : Prop} {a : α}
    (h : Conveys write m P a) :
    Conveys (do BorshWriter.u8 1; write) (Deserialize.option m) P (some a) :=
  conveys_tag (n := 1) (by decide) (h.map some)

theorem conveys_optionU16 (o : Option ℤ) :
    Conveys (BorshWriter.optionU16 o) (Deserialize.option Deserialize.u16)
      (∀ n ∈ o, InWidth 16 n) (o.map Int.toNat) := by
  cases o with
  | none => exact .cast conveys_none (by simp)
  | some n => exact (conveys_some (conveys_u16 n)).cast (by simp)

theorem conveys_optionPubkey {o : Option Pubkey} (h : ∀ key ∈ o, w.Faithful key) :
    Conveys (BorshWriter.optionPubkey w o) (Deserialize.option (Deserialize.pubkey w)) True o := by
  cases o with
  | none => exact conveys_none
  | some key => exact conveys_some (conveys_pubkey (h key rfl))

theorem conveys_faces (faces : Fin 3 → ℕ) :
    Conveys (BorshWriter.arrayU64 (List.ofFn fun d => (faces d : ℤ)) 3)
      (triple Deserialize.u64) (∀ d, faces d < 2 ^ 64) faces where
  reads h := by
    have hwrite : ∀ item ∈ List.ofFn (fun d => (faces d : ℤ)),
        Writes (BorshWriter.u64 item) [leBytes 8 item.toNat] := by
      intro item hitem
      obtain ⟨d, rfl⟩ := List.mem_ofFn.mp hitem
      exact BorshWriter.writes_u64 (h d)
    have hread : ∀ d, Reads Deserialize.u64 [leBytes 8 (faces d)] (faces d) :=
      fun d => .unsigned (h d)
    have hwrites := BorshWriter.writes_array hwrite
    rw [List.length_ofFn, List.map_ofFn] at hwrites
    exact ⟨_, hwrites, .triple hread⟩
  refuses h := by
    obtain ⟨d, hd⟩ := not_forall.mp h
    have hwrites : ∀ item, ¬¬InWidth 64 item →
        Writes (BorshWriter.u64 item) [leBytes 8 item.toNat] := by
      intro item hitem
      have hfits := not_not.mp hitem
      rw [InWidth] at hfits
      exact BorshWriter.writes_uint (by omega)
    have hfails : ∀ item, ¬InWidth 64 item → Fails (BorshWriter.u64 item) :=
      fun item => (conveys_u64 item).refuses
    have hlarge : ¬InWidth 64 (faces d : ℤ) := by
      rw [InWidth]
      omega
    have hitems : Fails ((List.ofFn fun d => (faces d : ℤ)).forM BorshWriter.u64) :=
      .forM hwrites hfails ⟨faces d, List.mem_ofFn.mpr ⟨d, rfl⟩, hlarge⟩
    rw [BorshWriter.arrayU64, BorshWriter.array, if_neg (by simp)]
    exact hitems

theorem conveys_array32 (randomness : Bytes) :
    Conveys (BorshWriter.fixed randomness 32) Deserialize.array32 (randomness.length = 32)
      (leNat randomness) where
  reads h := by
    rw [BorshWriter.fixed, if_neg (not_not.mpr h)]
    exact ⟨[randomness], Writes.nil.bind (.push _), .whole leNat h⟩
  refuses h := by
    rw [BorshWriter.fixed, if_pos h]
    exact (Fails.throw _).bind

structure Sends {α : Type} (data : Except EncodeError Bytes) (m : Deserialize α) (fits : Prop)
    (a : α) : Prop where
  reads : fits → ∃ bytes r, data = .ok bytes ∧ m ⟨bytes, 0⟩ = .ok (a, r)
  refuses : ¬fits → ∃ e, data = .error e

theorem sends_build {α : Type} {write : BorshWriter Unit} {m : Deserialize α} {P : Prop} {a : α}
    (h : Conveys write m P a) : Sends (build write) m P a := ⟨h.build, h.build_error⟩

-- ---------------------------------------------------------------------------
-- Arguments of a type
-- ---------------------------------------------------------------------------

theorem conveys_authorityRole (role : AuthorityRole) :
    Conveys (BorshWriter.enumVariant (Builders.authorityRoleIndex role) [])
      Deserialize.authorityRole True role := by
  have hend : Conveys (BorshWriter.bytes []) (pure role : Deserialize AuthorityRole) True role :=
    .of_writes (.push []) (Reads.pure.recut rfl)
  cases role with
  | administrator => exact conveys_tag (n := 0) (by decide) hend
  | operator => exact conveys_tag (n := 1) (by decide) hend
  | t03 => exact conveys_tag (n := 2) (by decide) hend
  | t02 => exact conveys_tag (n := 3) (by decide) hend

def protocolKeys (args : ProtocolConfigArgs) : List Pubkey :=
  [args.operator, args.t03Authority, args.t02Authority, args.protocolRevenue, args.usdcMint,
    args.byeMint, args.vrfProgram, args.oracleQueue, args.swapPool]

theorem sends_poolConfigArgs {args : PoolConfigArgs} (h : w.Faithful args.treasury03) :
    Sends (Encoders.encodePoolConfigArgs w args) (PoolConfigArgs.deserialize w) (args.Fits w)
      args := by
  refine sends_build (.cast ((conveys_pubkey h).bind <| .bind conveys_nat64 <| .bind conveys_nat64 <|
    .bind conveys_nat64 <| .bind conveys_nat16 <| .bind conveys_nat16 <| .bind conveys_nat16 <|
    .bind conveys_nat64 <| .bind conveys_nat64 <| .bind conveys_nat64 <| .bind conveys_nat8 <|
    .bind conveys_nat16 <| (conveys_faces args.blankFaces).bind <| .bind conveys_nat64 <|
    .bind conveys_nat16 <| .last conveys_nat8) ⟨fun hfits => ?_, fun hfits => ?_⟩)
  · obtain ⟨-, h1, h2, h3, h4, h5, h6, h7, h8, h9, h10, h11, h12, h13, h14, h15⟩ := hfits
    exact ⟨h, h1, h2, h3, h4, h5, h6, h7, h8, h9, h10, h11, h12, h13, h14, h15⟩
  · exact ⟨trivial, hfits.2, hfits.3, hfits.4, hfits.5, hfits.6, hfits.7, hfits.8, hfits.9,
      hfits.10, hfits.11, hfits.12, hfits.13, hfits.14, hfits.15, hfits.16⟩

theorem sends_variant {α : Type} {f : ℕ → Deserialize α} {payload : BorshWriter Unit} {tag : ℕ}
    {P : Prop} {a : α} (htag : tag < 2 ^ 8) (h : Conveys payload (f tag) P a) :
    Sends (Encoders.variant tag payload) (Deserialize.u8 >>= f) P a where
  reads hP := by
    obtain ⟨fields, hw, hr⟩ := h.reads hP
    have hpayload : Reads (f tag) [fields.flatten] a := hr.recut (by simp)
    have hwrites : Writes (BorshWriter.enumVariant tag fields.flatten)
        [leBytes 1 tag, fields.flatten] := (writes_tag htag).cons (.push _)
    refine ⟨_, _, ?_, (reads_tag htag hpayload).run⟩
    rw [Encoders.variant, hw.build]
    dsimp only [bind, Except.bind]
    rw [hwrites.build]
  refuses hP := by
    obtain ⟨e, he⟩ := h.build_error hP
    exact ⟨e, by rw [Encoders.variant, he]; rfl⟩

theorem sends_configUpdate (update : ConfigUpdate) :
    Sends (Encoders.encodeConfigUpdate update) ConfigUpdate.deserialize update.Fits update := by
  cases update with
  | admissionFloor value => exact sends_variant (by decide) (conveys_nat64.map _)
  | admissionCeiling value => exact sends_variant (by decide) (conveys_nat64.map _)
  | walletValueCap value => exact sends_variant (by decide) (conveys_nat64.map _)
  | maxN value => exact sends_variant (by decide) (conveys_nat8.map _)
  | buybackRateBps value => exact sends_variant (by decide) (conveys_nat16.map _)
  | t04Ceiling value => exact sends_variant (by decide) (conveys_nat64.map _)
  | sweepCadenceHours value => exact sends_variant (by decide) (conveys_nat16.map _)
  | tierSize value => exact sends_variant (by decide) (conveys_nat8.map _)
  | pricing price ticketTarget fee =>
    exact sends_variant (by decide)
      (.bind conveys_nat64 <| .bind conveys_nat64 <| .last conveys_nat64)
  | allocation equalBps tierBps protocolBps =>
    exact sends_variant (by decide)
      (.bind conveys_nat16 <| .bind conveys_nat16 <| .last conveys_nat16)
  | blankFaces faces => exact sends_variant (by decide) ((conveys_faces faces).map _)

end Wire

-- ---------------------------------------------------------------------------
-- Accounts
-- ---------------------------------------------------------------------------

/-- What the runtime hands over for these metas: each address, with what its meta asks for. -/
def Grants : List InstructionMeta → List PassedAccount → Prop :=
  List.Forall₂ fun m a => a.key = m.address ∧ (m.role.isSigner = true → a.isSigner = true) ∧
    (m.role.isWritable = true → a.isWritable = true)

theorem grants_passed (i : Instruction) : Grants i.accounts i.passed := by
  rw [Grants, Instruction.passed, List.forall₂_map_right_iff, List.forall₂_same]
  intro m hm
  refine ⟨rfl, fun hsigner => ?_, fun hwritable => ?_⟩
  · exact List.any_eq_true.mpr ⟨m, hm, by simp [hsigner]⟩
  · exact List.any_eq_true.mpr ⟨m, hm, by simp [hwritable]⟩

/-- Takes these metas off the front, as `v`, where `supplied` holds, and is refused otherwise. -/
def Takes {α : Type} (m : AccountsIter α) (metas rest : List InstructionMeta) (supplied : Prop)
    (v : α) : Prop :=
  ∀ accounts, Grants metas accounts →
    (supplied → ∃ left, Grants rest left ∧ m accounts = some (v, left)) ∧
    (¬supplied → m accounts = none)

namespace Takes

open AccountsIter

variable {α β : Type} {m : AccountsIter α} {f : α → AccountsIter β}
  {metas metas' rest : List InstructionMeta} {P Q : Prop} {v : α} {u : β}

protected theorem pure : Takes (pure v) metas metas True v := fun accounts h =>
  ⟨fun _ => ⟨accounts, h, rfl⟩, fun hfalse => absurd trivial hfalse⟩

protected theorem bind (h : Takes m metas metas' P v) (h' : Takes (f v) metas' rest Q u) :
    Takes (m >>= f) metas rest (P ∧ Q) u := by
  intro accounts hgrants
  have hrun : (m >>= f) accounts = (m accounts).bind fun s => f s.1 s.2 := rfl
  rw [hrun]
  by_cases hP : P
  · obtain ⟨left, hleft, hm⟩ := (h accounts hgrants).1 hP
    rw [hm, Option.bind_some]
    obtain ⟨hsome, hnone⟩ := h' left hleft
    exact ⟨fun hPQ => hsome hPQ.2, fun hPQ => hnone fun hQ => hPQ ⟨hP, hQ⟩⟩
  · rw [(h accounts hgrants).2 hP]
    exact ⟨fun hPQ => absurd hPQ.1 hP, fun _ => rfl⟩

theorem cast (h : Takes m metas rest P v) (hPQ : P ↔ Q) : Takes m metas rest Q v := propext hPQ ▸ h

theorem front {f : PassedAccount → AccountsIter β} {key : Pubkey} {role : AccountRole}
    (h : ∀ a, a.key = key → (role.isSigner = true → a.isSigner = true) →
      (role.isWritable = true → a.isWritable = true) → Takes (f a) metas rest P u) :
    Takes (next >>= f) (⟨key, role⟩ :: metas) rest P u := by
  rintro (_ | ⟨a, accounts⟩) hgrants
  · cases hgrants
  · obtain ⟨⟨hkey, hsigner, hwritable⟩, hgrants⟩ := List.forall₂_cons.mp hgrants
    exact h a hkey hsigner hwritable accounts hgrants

theorem check {ok : Bool} : Takes (check ok) metas metas (ok = true) () := fun accounts h =>
  ⟨fun hok => ⟨accounts, h, if_pos hok⟩, fun hok => if_neg hok⟩

theorem checked {ok : Bool} (hok : ok = true) (h : Takes m metas rest P v) :
    Takes (do AccountsIter.check ok; m) metas rest P v :=
  cast (Takes.bind check h) (by rw [hok]; simp)

theorem read {found : Option α} {R : α → Prop}
    (h : ∀ x, found = some x → Takes (f x) metas rest (R x) u) :
    Takes (AccountsIter.read found >>= f) metas rest (∃ x, found = some x ∧ R x) u := by
  intro accounts hgrants
  cases found with
  | none =>
    refine ⟨?_, fun _ => rfl⟩
    rintro ⟨x, hx, -⟩
    cases hx
  | some x =>
    refine ⟨?_, fun hR => ((h x rfl) accounts hgrants).2 fun hx => hR ⟨x, rfl, hx⟩⟩
    rintro ⟨y, hy, hR⟩
    rw [← Option.some.inj hy] at hR
    exact ((h x rfl) accounts hgrants).1 hR

section

variable {key expected : Pubkey} {role : AccountRole} {o : Option Pubkey}

theorem account : Takes account (⟨key, role⟩ :: metas) metas True key :=
  front fun _ hkey _ _ => hkey ▸ .pure

theorem writable (hrole : role.isWritable = true := by rfl) :
    Takes writable (⟨key, role⟩ :: metas) metas True key :=
  front fun _ hkey _ hwritable => checked (hwritable hrole) (hkey ▸ .pure)

theorem signer (hrole : role.isSigner = true := by rfl) :
    Takes signer (⟨key, role⟩ :: metas) metas True key :=
  front fun _ hkey hsigner _ => checked (hsigner hrole) (hkey ▸ .pure)

theorem writableSigner (hsigner : role.isSigner = true := by rfl)
    (hwritable : role.isWritable = true := by rfl) :
    Takes writableSigner (⟨key, role⟩ :: metas) metas True key :=
  front fun _ hkey hsigns hwrites =>
    checked (by rw [hsigns hsigner, hwrites hwritable]; rfl) (hkey ▸ .pure)

theorem pinned : Takes (pinned expected) (⟨key, role⟩ :: metas) metas (key = expected) () :=
  front fun _ hkey _ _ => cast check (by simp [hkey])

theorem writablePinned (hrole : role.isWritable = true := by rfl) :
    Takes (writablePinned expected) (⟨key, role⟩ :: metas) metas (key = expected) () :=
  front fun _ hkey _ hwritable => cast check (by simp [hkey, hwritable hrole])

theorem pinned_self : Takes (AccountsIter.pinned key) (⟨key, role⟩ :: metas) metas True () :=
  cast pinned (iff_true_intro rfl)

theorem writablePinned_self (hrole : role.isWritable = true := by rfl) :
    Takes (AccountsIter.writablePinned key) (⟨key, role⟩ :: metas) metas True () :=
  cast (writablePinned hrole) (iff_true_intro rfl)

theorem optional (ho : ∀ key ∈ o, key ≠ .program .byeMachine) :
    Takes optional (Builders.optionalReadonly o :: metas) metas True o := by
  cases o with
  | none =>
    refine front fun a (hkey : a.key = .program .byeMachine) _ _ => ?_
    rw [if_pos hkey]
    exact .pure
  | some key =>
    refine front fun a (hkey : a.key = key) _ _ => ?_
    rw [hkey, if_neg (ho key rfl)]
    exact .pure

theorem optionalWritable (ho : ∀ key ∈ o, key ≠ .program .byeMachine) :
    Takes optionalWritable (Builders.optionalWritable o :: metas) metas True o := by
  cases o with
  | none =>
    refine front fun a (hkey : a.key = .program .byeMachine) _ _ => ?_
    rw [if_pos hkey]
    exact .pure
  | some key =>
    refine front fun a (hkey : a.key = key) _ hwritable => ?_
    rw [hkey, if_neg (ho key rfl)]
    exact checked (hwritable rfl) .pure

theorem optionalPinned (ho : ∀ key ∈ o, key ≠ .program .byeMachine) :
    Takes (optionalPinned expected) (Builders.optionalReadonly o :: metas) metas
      (∀ key ∈ o, key = expected) o := by
  cases o with
  | none =>
    refine front fun a (hkey : a.key = .program .byeMachine) _ _ => ?_
    rw [if_pos hkey]
    exact cast Takes.pure (by simp)
  | some key =>
    refine front fun a (hkey : a.key = key) _ _ => ?_
    rw [hkey, if_neg (ho key rfl)]
    have hcheck : Takes (AccountsIter.check (decide (key = expected))) metas metas _ () := check
    exact (hcheck.bind (f := fun _ => pure (some key)) .pure).cast (by simp)

theorem remaining {keys : List Pubkey} :
    Takes remaining (keys.map Builders.writable) [] True (keys.map fun key => ⟨key, true⟩) := by
  refine fun accounts hgrants => ⟨fun _ => ⟨[], .nil, ?_⟩, fun h => absurd trivial h⟩
  have hall : accounts.map (fun a => (⟨a.key, a.isWritable⟩ : AccountMeta)) =
      keys.map fun key => ⟨key, true⟩ := by
    rw [Grants, List.forall₂_map_left_iff] at hgrants
    induction hgrants with
    | nil => rfl
    | cons hhead _ ih =>
      rw [List.map_cons, List.map_cons, ih, hhead.1, hhead.2.2 rfl]
      rfl
  rw [AccountsIter.remaining, hall]

end

end Takes

end ByeMachine
