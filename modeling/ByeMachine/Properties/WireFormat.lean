import ByeMachine.Client.Decoders
import ByeMachine.Client.Encoders
import ByeMachine.Client.Node
import ByeMachine.Laws.BorshCodec

/-!
# One wire format on both sides

The client's decoders read back every account as the program stores it, its raw
offsets address the fields they name, and the program reads the arguments that
the client writes. Each decoder is one walk over the fields of the account.
-/

namespace ByeMachine

open Fallible Bytes Borsh

variable {w : Encoding}

-- ---------------------------------------------------------------------------
-- Accounts
-- ---------------------------------------------------------------------------

namespace BorshReader

theorem reads_positionState (s : PositionState) :
    Reads Decoders.decodePositionState [[s.byte]] s := reads_tagged (by cases s <;> rfl)

theorem reads_batchState (s : BatchState) : Reads Decoders.decodeBatchState [[s.byte]] s :=
  reads_tagged (by cases s <;> rfl)

theorem reads_rollStatus (s : RollStatus) : Reads Decoders.decodeRollStatus [[s.byte]] s :=
  reads_tagged (by cases s <;> rfl)

theorem reads_rollOutcome (o : RollOutcome) : Reads Decoders.decodeRollOutcome [[o.byte]] o :=
  reads_tagged (by cases o <;> rfl)

end BorshReader

open BorshReader Decoders

theorem decodeAccount_ok {α : Type} {name : AccountType} {reader : BorshReader α}
    {fields : List Bytes} {a : α} (h : Reads reader fields a) :
    decodeAccount w name reader (w.discriminator name :: fields).flatten = .ok a := by
  have hlength := w.length_discriminator name
  have hfirst : (w.discriminator name ++ fields.flatten).take 8 = w.discriminator name :=
    List.take_left' hlength
  have hrest : (w.discriminator name ++ fields.flatten).drop 8 = fields.flatten :=
    List.drop_left' hlength
  rw [List.flatten_cons, decodeAccount, checkAccountDiscriminator, hfirst, hrest]
  simp [require, h.run, assertConsumed, pure, Except.pure]

theorem decodeProtocolConfig_bytes {c : ProtocolConfig} (h : c.Fits w) :
    decodeProtocolConfig w (c.bytes w) = .ok c :=
  decodeAccount_ok <|
    .cons (reads_pubkey h.administrator) <| .cons (reads_pubkey h.pendingAdministrator) <|
    .cons (reads_pubkey h.pendingOperator) <| .cons (reads_pubkey h.pendingT03Authority) <|
    .cons (reads_pubkey h.pendingT02Authority) <| .cons (reads_pubkey h.operator) <|
    .cons (reads_pubkey h.t03Authority) <| .cons (reads_pubkey h.t02Authority) <|
    .cons (reads_pubkey h.protocolRevenue) <| .cons (reads_pubkey h.usdcMint) <|
    .cons (reads_pubkey h.byeMint) <| .cons (reads_pubkey h.vrfProgram) <|
    .cons (reads_pubkey h.oracleQueue) <| .cons (reads_pubkey h.swapPool) <|
    .cons (reads_u16 h.maxSwapSlippageBps) <| .cons (reads_u16 h.poolCounter) <|
    .cons (reads_u8 h.bump) .pure

theorem decodePool_bytes {p : Pool} (h : p.Fits w) : decodePool w (p.bytes w) = .ok p := by
  rw [Pool.bytes]
  simp only [Pool.configFields, Pool.liveFields, List.cons_append, List.nil_append,
    List.append_assoc]
  exact decodeAccount_ok <|
    .cons (reads_u16 h.poolId) <| .cons (reads_pubkey h.weightIndex) <|
    .cons (reads_pubkey h.treasury03) <| .cons (reads_u64 h.price) <|
    .cons (reads_u64 h.ticketTarget) <| .cons (reads_u64 h.fee) <|
    .cons (reads_u16 h.allocEqualBps) <| .cons (reads_u16 h.allocTierBps) <|
    .cons (reads_u16 h.allocProtocolBps) <| .cons (reads_u64 h.admissionFloor) <|
    .cons (reads_u64 h.admissionCeiling) <| .cons (reads_u64 h.walletValueCap) <|
    .cons (reads_u8 h.maxN) <| .cons (reads_u16 h.buybackRateBps) <|
    .bind (.triple fun d => reads_u64 (h.blankFaces d)) <| .cons (reads_u64 h.t04Ceiling) <|
    .cons (reads_u16 h.sweepCadenceHours) <| .cons (reads_u8 h.tierSize) <|
    .cons (reads_bool _) <| .cons (reads_bool _) <| .cons (reads_u16 h.pauseReason) <|
    .cons (reads_u32 h.nReal) <| .bind (.triple fun d => reads_u32 (h.blanks d)) <|
    .cons (reads_u128 h.wReal) <| .cons (reads_u32 h.openBatches) <|
    .cons (reads_u64 h.batchCounter) <| .cons (reads_u64 h.positionCounter) <|
    .cons (reads_u64 h.pendingRollLiability) <| .cons (reads_u64 h.owedFees) <|
    .cons (reads_u128 h.accEqual) <| .cons (reads_bool _) <| .cons (reads_u64 h.sweepEpoch) <|
    .cons (reads_i64 h.lastSweepAt) <| .cons (reads_u32 h.sweepUpdates) <|
    .cons (reads_u8 h.bump) .pure

theorem decodePosition_bytes {p : Position} (h : p.Fits w) :
    decodePosition w (p.bytes w) = .ok p :=
  decodeAccount_ok <|
    .cons (reads_pubkey h.pool) <| .cons (reads_pubkey h.depositor) <|
    .cons (reads_pubkey h.nftMint) <| .cons (reads_u64 h.positionId) <|
    .cons (reads_positionState _) <| .cons (reads_u64 h.recordedValue) <|
    .cons (reads_i64 h.valueObservedAt) <| .cons (reads_u64 h.depositValue) <|
    .cons (reads_u32 h.slotIndex) <| .cons (reads_i64 h.activatedAt) <|
    .cons (reads_u128 h.equalCheckpoint) <| .cons (reads_u64 h.accrued) <|
    .cons (reads_bool _) <| .cons (reads_u128 h.tierCheckpoint) <|
    .cons (reads_i64 h.lockUntil) <| .cons (reads_u16 h.rejectReason) <|
    .cons (reads_u8 h.standard) <| .cons (reads_u8 h.bump) <| .cons (reads_u8 h.vaultBump) .pure

theorem decodePoolCollection_bytes {c : PoolCollection} (h : c.Fits w) :
    decodePoolCollection w (c.bytes w) = .ok c :=
  decodeAccount_ok <|
    .cons (reads_pubkey h.pool) <| .cons (reads_pubkey h.collection) <|
    .cons (reads_u8 h.standards) <| .cons (reads_i64 h.admittedAt) <| .cons (reads_u8 h.bump) .pure

theorem decodeWalletStats_bytes {s : WalletStats} (h : s.Fits w) :
    decodeWalletStats w (s.bytes w) = .ok s :=
  decodeAccount_ok <|
    .cons (reads_pubkey h.pool) <| .cons (reads_pubkey h.owner) <|
    .cons (reads_u32 h.activePositions) <| .cons (reads_u64 h.activeValue) <|
    .cons (reads_u8 h.bump) .pure

theorem reads_tierEntry {e : TierEntry} (h : e.Fits w) :
    Reads (decodeTierEntry w) (e.fields w) e :=
  .cons (reads_pubkey h.position) <| .cons (reads_u64 h.value) <|
    .cons (reads_i64 h.activatedAt) <| .cons (reads_u64 h.positionId) .pure

theorem decodeTopTier_bytes {t : ByeMachine.TopTier} (h : t.Fits w) (hlen : t.len ≤ MAX_TIER_SIZE) :
    decodeTopTier w (t.bytes w) = .ok ⟨t.pool, t.len, t.members, t.accTier, t.bump⟩ := by
  rw [TopTier.bytes]
  simp only [TopTier.fields, List.cons_append, List.nil_append]
  have hcapacity : ¬TOP_TIER_CAPACITY < t.len := by
    unfold MAX_TIER_SIZE at hlen
    unfold TOP_TIER_CAPACITY
    omega
  have hcheck : Reads (if TOP_TIER_CAPACITY < t.len then throw (.tierLength t.len TOP_TIER_CAPACITY)
      else pure () : BorshReader Unit) [] () := by
    rw [if_neg hcapacity]
    exact .pure
  exact decodeAccount_ok <|
    .cons (reads_pubkey h.pool) <| .cons (reads_u8 h.len) <| .check hcheck <|
    .bind (.array fun i => reads_tierEntry (h.entries i)) <|
    .cons (reads_u128 h.accTier) <| .cons (reads_u8 h.bump) .pure

theorem reads_rollRecord {r : RollRecord} (h : r.Fits w) :
    Reads (decodeRollRecord w) (r.fields w) r := by
  simp only [RollRecord.fields, List.cons_append, List.nil_append]
  exact .cons (reads_rollStatus _) <| .cons (reads_rollOutcome _) <|
    .cons (reads_pubkey h.selectedMint) <| .cons (reads_u8 h.blankFaceIdx) <|
    .cons (reads_u128 h.drawValue) <| .cons (reads_u8 h.attempts) <|
    .cons (reads_u128 h.wAtDraw) <| .cons (reads_u32 h.nRealAtDraw) <|
    .bind (.triple fun d => reads_u32 (h.blanksAtDraw d)) <| .cons (reads_u16 h.refundReason) .pure

def RollBatch.decoded (w : Encoding) (b : ByeMachine.RollBatch) : Decoders.RollBatch where
  pool := b.pool
  roller := b.roller
  batchId := b.batchId
  state := b.state
  n := b.n
  nextRoll := b.nextRoll
  settled := b.settled
  refunded := b.refunded
  requestSlot := b.requestSlot
  callerSeed := w.encode b.callerSeed
  randomness := leBytes 32 b.randomness
  expectedW := b.expectedW
  expectedBlanks := b.expectedBlanks
  sPrice := b.sPrice
  sTicket := b.sTicket
  sFee := b.sFee
  sAllocBps := b.sAllocBps
  sBlankFaces := b.sBlankFaces
  rolls := List.ofFn b.rolls
  bump := b.bump

theorem decodeRollBatch_bytes {b : ByeMachine.RollBatch} (h : b.Fits w) :
    decodeRollBatch w (b.bytes w) = .ok (b.decoded w) := by
  rw [RollBatch.bytes]
  simp only [RollBatch.fields, RollBatch.headFields, List.cons_append, List.nil_append,
    List.append_assoc]
  exact decodeAccount_ok <|
    .cons (reads_pubkey h.pool) <| .cons (reads_pubkey h.roller) <| .cons (reads_u64 h.batchId) <|
    .cons (reads_batchState _) <| .cons (reads_u8 h.n) <| .cons (reads_u8 h.nextRoll) <|
    .cons (reads_u8 h.settled) <| .cons (reads_u8 h.refunded) <| .cons (reads_u64 h.requestSlot) <|
    .cons (reads_bytes (w.length_encode _)) <| .cons (reads_bytes (length_leBytes _ _)) <|
    .cons (reads_u128 h.expectedW) <| .bind (.triple fun d => reads_u32 (h.expectedBlanks d)) <|
    .cons (reads_u64 h.sPrice) <| .cons (reads_u64 h.sTicket) <| .cons (reads_u64 h.sFee) <|
    .bind (.triple fun i => reads_u16 (h.sAllocBps i)) <|
    .bind (.triple fun d => reads_u64 (h.sBlankFaces d)) <|
    .bind (.array fun i => reads_rollRecord (h.rolls i)) <| .cons (reads_u8 h.bump) .pure

-- ---------------------------------------------------------------------------
-- The weight index
-- ---------------------------------------------------------------------------

theorem readUInt_ok {body : Bytes} {offset n value : ℕ}
    (h : body.window offset n = some (leBytes n value)) (hfits : value < 256 ^ n) :
    readUInt n body offset = .ok value := by
  rw [readUInt, h, okOr, ok_bind, leNat_leBytes hfits]
  rfl

theorem readUInts_ok {body : Bytes} {offset width n : ℕ} {values : Fin n → ℕ}
    (h : Stands body offset (List.ofFn fun i => leBytes width (values i)))
    (hfits : ∀ i, values i < 256 ^ width) :
    (List.range n).mapM (fun i => readUInt width body (offset + i * width)) =
      .ok (List.ofFn values) := by
  have hread : ∀ i ∈ List.range n, readUInt width body (offset + i * width) =
      .ok ((List.ofFn values)[i]?.getD 0) := by
    intro i hi
    have hi := List.mem_range.mp hi
    have hwindow := h.window width (k := i) (by simp [List.mem_ofFn]) (by simpa using hi)
    rw [List.getElem_ofFn] at hwindow
    rw [readUInt_ok hwindow (hfits _)]
    simp [hi]
  rw [mapM_eq_ok hread]
  congr 1
  apply List.ext_getElem
  · simp
  · intro i hi hi'
    simp at hi'
    simp [hi']

section Blocks

variable {head : List Bytes} {n : ℕ}

/-- A header and the two arrays, at any capacity. -/
def blocks (head : List Bytes) (slots : Slots n) : List Bytes :=
  head ++ (List.ofFn fun i => leBytes 8 (slots.tree i)) ++
    List.ofFn fun i => leBytes 4 (slots.freeStack i)

theorem length_blocks (slots : Slots n) (hhead : head.flatten.length = WI_TREE_OFFSET) :
    (blocks head slots).flatten.length = WI_TREE_OFFSET + 8 * n + 4 * n := by
  simp only [blocks, List.flatten_append, List.length_append, hhead]
  rw [length_flatten_of_width 8 (by simp [List.mem_ofFn]),
    length_flatten_of_width 4 (by simp [List.mem_ofFn])]
  simp only [List.length_ofFn]

theorem readTree_ok (slots : Slots n) (hhead : head.flatten.length = WI_TREE_OFFSET)
    (hfits : ∀ i, slots.tree i < 2 ^ 64) :
    (List.range n).mapM (fun i => readUInt 8 (blocks head slots).flatten (WI_TREE_OFFSET + i * 8)) =
      .ok (List.ofFn slots.tree) := by
  have hstands := (stands_flatten (blocks head slots)).take.drop
  rw [hhead, Nat.zero_add] at hstands
  exact readUInts_ok hstands hfits

theorem readFreeStack_ok (slots : Slots n) (hhead : head.flatten.length = WI_TREE_OFFSET)
    (hfits : ∀ i, slots.freeStack i < 2 ^ 32) :
    (List.range n).mapM (fun i => readUInt 4 (blocks head slots).flatten
      (WI_TREE_OFFSET + 8 * n + i * 4)) = .ok (List.ofFn slots.freeStack) := by
  have hstands := (stands_flatten (blocks head slots)).drop
  rw [List.flatten_append, List.length_append, hhead,
    length_flatten_of_width 8 (by simp [List.mem_ofFn]), List.length_ofFn,
    Nat.zero_add] at hstands
  exact readUInts_ok hstands hfits

end Blocks

theorem decodeWeightIndex_bytes {x : ByeMachine.WeightIndex} {padding : Bytes} (h : x.Fits w)
    (hpadding : padding.length = 8) :
    decodeWeightIndex w (x.bytes w padding) = .ok ⟨x.pool, x.slots.totalWeight, x.slots.highWater,
      x.slots.freeCount, List.ofFn x.slots.tree, List.ofFn x.slots.freeStack⟩ := by
  have hhead : (x.headFields w padding).flatten.length = WI_TREE_OFFSET := by
    simp [WeightIndex.headFields, w.length_encode, hpadding, WI_TREE_OFFSET]
  have htree := readTree_ok x.slots hhead h.tree
  have hstack := readFreeStack_ok x.slots hhead h.freeStack
  have hlength := length_blocks x.slots hhead
  have hfields : Stands (blocks (x.headFields w padding) x.slots).flatten 0
      (x.headFields w padding) := (stands_flatten _).take.take
  have hbytes : x.bytes w padding =
      w.discriminator .weightIndex ++ (blocks (x.headFields w padding) x.slots).flatten := rfl
  rw [hbytes]
  generalize (blocks (x.headFields w padding) x.slots).flatten = body at *
  simp only [WeightIndex.headFields, Stands, w.length_encode, length_leBytes, hpadding] at hfields
  obtain ⟨hpool, htotal, hwater, hcount, -⟩ := hfields
  have hfirst : (w.discriminator .weightIndex ++ body).take 8 = w.discriminator .weightIndex :=
    List.take_left' (w.length_discriminator _)
  have hrest : (w.discriminator .weightIndex ++ body).drop 8 = body :=
    List.drop_left' (w.length_discriminator _)
  have hsize : (w.discriminator .weightIndex ++ body).length = WI_ACCOUNT_SIZE := by
    rw [List.length_append, w.length_discriminator, hlength]
    rfl
  have hkey : w.decode (body.take 32) = x.pool := by
    obtain ⟨-, hwindow⟩ := window_some.mp hpool
    rw [List.drop_zero] at hwindow
    rw [hwindow]
    exact h.pool
  have htotal : readUInt 8 body WI_TOTAL_WEIGHT_OFFSET = .ok x.slots.totalWeight :=
    readUInt_ok htotal h.totalWeight
  have hwater : readUInt 4 body WI_HIGH_WATER_OFFSET = .ok x.slots.highWater :=
    readUInt_ok hwater h.highWater
  have hcount : readUInt 4 body WI_FREE_COUNT_OFFSET = .ok x.slots.freeCount :=
    readUInt_ok hcount h.freeCount
  simp only [decodeWeightIndex, WI_FREE_STACK_OFFSET, hfirst, hrest, hsize, hkey, require, if_true,
    ok_bind, htotal, hwater, hcount, htree, hstack]
  rfl

-- ---------------------------------------------------------------------------
-- Instruction arguments
-- ---------------------------------------------------------------------------

namespace BorshWriter

theorem writes_triple {values : Fin 3 → ℕ} (h : ∀ i, values i < 2 ^ 64) :
    Writes (arrayU64 (List.ofFn fun i => (values i : ℤ)) 3) (blankFields 8 values) := by
  have helements : ∀ item ∈ List.ofFn fun i => (values i : ℤ),
      Writes (u64 item) [leBytes 8 item.toNat] := by
    intro item hitem
    obtain ⟨i, rfl⟩ := List.mem_ofFn.mp hitem
    exact writes_u64 (h i)
  have hwrite := writes_array helements
  rwa [List.map_ofFn, List.length_ofFn] at hwrite

end BorshWriter

namespace Deserialize

theorem reads_u8 {value : ℕ} (h : value < 2 ^ 8) : Reads u8 [leBytes 1 value] value := .unsigned h

theorem reads_u16 {value : ℕ} (h : value < 2 ^ 16) : Reads u16 [leBytes 2 value] value := .unsigned h

theorem reads_u64 {value : ℕ} (h : value < 2 ^ 64) : Reads u64 [leBytes 8 value] value := .unsigned h

theorem reads_pubkey {key : Pubkey} (h : w.Faithful key) : Reads (pubkey w) [w.encode key] key := by
  have hread : Reads (pubkey w) [w.encode key] _ := .whole w.decode (w.length_encode key)
  rwa [h] at hread

theorem tryFromSlice_ok {α : Type} {m : Deserialize α} {fields : List Bytes} {a : α}
    (h : Reads m fields a) : tryFromSlice m fields.flatten = .ok a := by
  simp [tryFromSlice, h.run]

end Deserialize

open BorshWriter Encoders Deserialize

theorem encodePoolConfigArgs_ok {args : PoolConfigArgs} (h : args.Fits w) :
    ∃ bytes, encodePoolConfigArgs w args = .ok bytes ∧
      tryFromSlice (PoolConfigArgs.deserialize w) bytes = .ok args := by
  have hread := tryFromSlice_ok <| show Reads (PoolConfigArgs.deserialize w) _ args from
    .cons (reads_pubkey h.treasury03) <| .cons (reads_u64 h.price) <|
    .cons (reads_u64 h.ticketTarget) <| .cons (reads_u64 h.fee) <|
    .cons (reads_u16 h.allocEqualBps) <| .cons (reads_u16 h.allocTierBps) <|
    .cons (reads_u16 h.allocProtocolBps) <| .cons (reads_u64 h.admissionFloor) <|
    .cons (reads_u64 h.admissionCeiling) <| .cons (reads_u64 h.walletValueCap) <|
    .cons (reads_u8 h.maxN) <| .cons (reads_u16 h.buybackRateBps) <|
    .bind (.triple fun d => reads_u64 (h.blankFaces d)) <| .cons (reads_u64 h.t04Ceiling) <|
    .cons (reads_u16 h.sweepCadenceHours) <| .cons (reads_u8 h.tierSize) .pure
  refine ⟨_, Writes.build ?_, hread⟩
  exact .cons (.push _) <| .cons (writes_u64 h.price) <| .cons (writes_u64 h.ticketTarget) <|
    .cons (writes_u64 h.fee) <| .cons (writes_u16 h.allocEqualBps) <|
    .cons (writes_u16 h.allocTierBps) <| .cons (writes_u16 h.allocProtocolBps) <|
    .cons (writes_u64 h.admissionFloor) <| .cons (writes_u64 h.admissionCeiling) <|
    .cons (writes_u64 h.walletValueCap) <| .cons (writes_u8 h.maxN) <|
    .cons (writes_u16 h.buybackRateBps) <| .bind (writes_triple h.blankFaces) <|
    .cons (writes_u64 h.t04Ceiling) <| .cons (writes_u16 h.sweepCadenceHours) <|
    writes_u8 h.tierSize

theorem variant_ok {index : ℕ} {payload : BorshWriter Unit} {fields : List Bytes} {u : ConfigUpdate}
    (hindex : index < 2 ^ 8) (hwrite : Writes payload fields)
    (hread : Reads ConfigUpdate.deserialize (leBytes 1 index :: fields) u) :
    ∃ bytes, variant index payload = .ok bytes ∧
      tryFromSlice ConfigUpdate.deserialize bytes = .ok u := by
  refine ⟨_, ?_, tryFromSlice_ok hread⟩
  have hwhole : Writes (enumVariant index fields.flatten) [leBytes 1 index, fields.flatten] :=
    .cons (writes_u8 hindex) (.push _)
  rw [variant, hwrite.build, ok_bind, hwhole.build]
  simp

theorem encodeConfigUpdate_ok {u : ConfigUpdate} (h : u.Fits) :
    ∃ bytes, encodeConfigUpdate u = .ok bytes ∧
      tryFromSlice ConfigUpdate.deserialize bytes = .ok u := by
  have tag : ∀ {n : ℕ}, n < 2 ^ 8 → Reads Deserialize.u8 [leBytes 1 n] n := reads_u8
  cases u with
  | admissionFloor value =>
    exact variant_ok (by decide) (writes_u64 h) ((tag (by decide)).cons (.map _ (reads_u64 h)))
  | admissionCeiling value =>
    exact variant_ok (by decide) (writes_u64 h) ((tag (by decide)).cons (.map _ (reads_u64 h)))
  | walletValueCap value =>
    exact variant_ok (by decide) (writes_u64 h) ((tag (by decide)).cons (.map _ (reads_u64 h)))
  | maxN value =>
    exact variant_ok (by decide) (writes_u8 h) ((tag (by decide)).cons (.map _ (reads_u8 h)))
  | buybackRateBps value =>
    exact variant_ok (by decide) (writes_u16 h) ((tag (by decide)).cons (.map _ (reads_u16 h)))
  | t04Ceiling value =>
    exact variant_ok (by decide) (writes_u64 h) ((tag (by decide)).cons (.map _ (reads_u64 h)))
  | sweepCadenceHours value =>
    exact variant_ok (by decide) (writes_u16 h) ((tag (by decide)).cons (.map _ (reads_u16 h)))
  | tierSize value =>
    exact variant_ok (by decide) (writes_u8 h) ((tag (by decide)).cons (.map _ (reads_u8 h)))
  | pricing price ticketTarget fee =>
    obtain ⟨hprice, hticket, hfee⟩ := h
    exact variant_ok (by decide)
      (.cons (writes_u64 hprice) <| .cons (writes_u64 hticket) <| writes_u64 hfee)
      ((tag (by decide)).cons <| .cons (reads_u64 hprice) <| .cons (reads_u64 hticket) <|
        .cons (reads_u64 hfee) .pure)
  | allocation equalBps tierBps protocolBps =>
    obtain ⟨hequal, htier, hprotocol⟩ := h
    exact variant_ok (by decide)
      (.cons (writes_u16 hequal) <| .cons (writes_u16 htier) <| writes_u16 hprotocol)
      ((tag (by decide)).cons <| .cons (reads_u16 hequal) <| .cons (reads_u16 htier) <|
        .cons (reads_u16 hprotocol) .pure)
  | blankFaces faces =>
    exact variant_ok (by decide) (writes_triple h)
      ((tag (by decide)).cons (.map _ (.triple fun d => reads_u64 (h d))))

-- ---------------------------------------------------------------------------
-- The format
-- ---------------------------------------------------------------------------

open TierResolve in
/-- Every account is read back as it is stored, every raw offset is its field's, and every argument
arrives as it was sent. -/
theorem wire_format (w : Encoding) :
    (∀ c : ProtocolConfig, c.Fits w → decodeProtocolConfig w (c.bytes w) = .ok c) ∧
    (∀ p : Pool, p.Fits w → decodePool w (p.bytes w) = .ok p) ∧
    (∀ p : Position, p.Fits w → decodePosition w (p.bytes w) = .ok p) ∧
    (∀ s : WalletStats, s.Fits w → decodeWalletStats w (s.bytes w) = .ok s) ∧
    (∀ c : PoolCollection, c.Fits w → decodePoolCollection w (c.bytes w) = .ok c) ∧
    (∀ b : ByeMachine.RollBatch, b.Fits w → decodeRollBatch w (b.bytes w) = .ok (b.decoded w)) ∧
    (∀ t : ByeMachine.TopTier, t.Fits w → t.len ≤ MAX_TIER_SIZE →
      decodeTopTier w (t.bytes w) =
        .ok ⟨t.pool, t.len, (List.ofFn t.entries).take t.len, t.accTier, t.bump⟩) ∧
    (∀ (x : ByeMachine.WeightIndex) (padding : Bytes), x.Fits w → padding.length = 8 →
      decodeWeightIndex w (x.bytes w padding) = .ok ⟨x.pool, x.slots.totalWeight,
        x.slots.highWater, x.slots.freeCount, List.ofFn x.slots.tree,
        List.ofFn x.slots.freeStack⟩) ∧
    (∀ p : Pool, p.Fits w →
      (p.bytes w).window POOL_TIER_SIZE_SKIP 1 = some (leBytes 1 p.tierSize) ∧
      ∀ rpc address, rpc.fetchAccountData address = .ok (some (p.bytes w)) →
        readTierSize rpc address = .ok p.tierSize) ∧
    (∀ p : Position, p.Fits w →
      (p.bytes w).window POSITION_POOL_OFFSET 32 = some (w.encode p.pool) ∧
      (p.bytes w).window POSITION_STATE_OFFSET 1 = some [p.state.byte] ∧
      (p.bytes w).window POSITION_IN_TIER_OFFSET 1 = some [boolByte p.inTier] ∧
      ∀ address, readEligiblePosition address (p.bytes w) =
        .ok ⟨⟨p.recordedValue, p.activatedAt, p.positionId⟩, address⟩) ∧
    (∀ args : PoolConfigArgs, args.Fits w → ∃ bytes, encodePoolConfigArgs w args = .ok bytes ∧
      tryFromSlice (PoolConfigArgs.deserialize w) bytes = .ok args) ∧
    ∀ u : ConfigUpdate, u.Fits → ∃ bytes, encodeConfigUpdate u = .ok bytes ∧
      tryFromSlice ConfigUpdate.deserialize bytes = .ok u := by
  refine ⟨fun _ => decodeProtocolConfig_bytes, fun _ => decodePool_bytes,
    fun _ => decodePosition_bytes, fun _ => decodeWalletStats_bytes,
    fun _ => decodePoolCollection_bytes, fun _ => decodeRollBatch_bytes,
    fun _ => decodeTopTier_bytes, fun _ _ => decodeWeightIndex_bytes, ?_, ?_,
    fun _ => encodePoolConfigArgs_ok, fun _ => encodeConfigUpdate_ok⟩
  · intro p h
    exact ⟨pool_offset p, fun rpc address hfetch => readTierSize_ok hfetch h.tierSize⟩
  · intro p h
    obtain ⟨-, hpool, hstate, hinTier⟩ := position_offsets (w := w) p
    exact ⟨hpool, hstate, hinTier, fun address =>
      readEligiblePosition_ok h.positionId h.recordedValue h.activatedAt⟩

def extremePosition : Position where
  pool := .pool 0
  depositor := .default
  nftMint := .default
  positionId := 2 ^ 64 - 1
  state := .seized
  recordedValue := 13000000
  valueObservedAt := -2 ^ 63
  depositValue := 0
  slotIndex := 2 ^ 32 - 1
  activatedAt := -1
  equalCheckpoint := 2 ^ 128 - 1
  accrued := 2 ^ 64 - 1
  inTier := true
  tierCheckpoint := 2 ^ 64
  lockUntil := 2 ^ 63 - 1
  rejectReason := 513
  standard := 2
  bump := 255
  vaultBump := 254

theorem extremePosition_fits : extremePosition.Fits bankEncoding where
  pool := rfl
  depositor := rfl
  nftMint := rfl
  positionId := by decide
  recordedValue := by decide
  valueObservedAt := ⟨by decide, by decide⟩
  depositValue := by decide
  slotIndex := by decide
  activatedAt := ⟨by decide, by decide⟩
  equalCheckpoint := by decide
  accrued := by decide
  tierCheckpoint := by decide
  lockUntil := ⟨by decide, by decide⟩
  rejectReason := by decide
  standard := by decide
  bump := by decide
  vaultBump := by decide

theorem wire_format_bank :
    extremePosition.Fits bankEncoding ∧
    decodePosition bankEncoding (extremePosition.bytes bankEncoding) = .ok extremePosition ∧
    ∃ bytes, encodeConfigUpdate (.pricing 110 100 10) = .ok bytes ∧
      tryFromSlice ConfigUpdate.deserialize bytes = .ok (.pricing 110 100 10) := by
  obtain ⟨-, -, hposition, -, -, -, -, -, -, -, -, hupdate⟩ := wire_format bankEncoding
  exact ⟨extremePosition_fits, hposition _ extremePosition_fits,
    hupdate _ ⟨by decide, by decide, by decide⟩⟩

end ByeMachine
