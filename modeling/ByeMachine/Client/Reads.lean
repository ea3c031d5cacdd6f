import ByeMachine.Client.TierResolve
import ByeMachine.Invariants.Stamped

/-!
# What the resolver reads

Each account, written field after field, is read back as it stands: the cursor
walks the fields, and each memcmp filter finds the field that it was computed
for.
-/

namespace ByeMachine

open Fallible Bytes

-- ---------------------------------------------------------------------------
-- The chain's accounts as bytes
-- ---------------------------------------------------------------------------

/-- The program's accounts hold what the chain does; the ones not read here start with another
discriminator than a position's. -/
structure Images (w : Encoding) (c : Chain) (accounts : Pubkey → Option Bytes) : Prop where
  position : ∀ k p, c.positions.lookup k = some p → accounts k = some (p.bytes w)
  pool : ∀ k pool, c.pools.lookup k = some pool → accounts k = some (pool.bytes w)
  topTier : ∀ k t, c.topTiers.lookup (.topTier k) = some t → accounts (.topTier k) = some (t.bytes w)
  other : ∀ k data, accounts k = some data → c.positions.lookup k = none →
    ∃ type, type ≠ .position ∧ data.take 8 = w.discriminator type

/-- A node answers for the program's accounts, and a scan returns exactly those that match. -/
structure Serves (accounts : Pubkey → Option Bytes) (rpc : TierResolve.Rpc) : Prop where
  fetch : ∀ k, rpc.fetchAccountData k = .ok (accounts k)
  scan : ∀ filters, ∃ hits, rpc.getProgramAccounts filters = .ok hits ∧
    ∀ k data, (k, data) ∈ hits ↔ accounts k = some data ∧ ∀ f ∈ filters, f.Matches data

theorem Serves.fetched {accounts : Pubkey → Option Bytes} {rpc : TierResolve.Rpc}
    {address : Pubkey} {data : Bytes} (hserves : Serves accounts rpc)
    (h : accounts address = some data) : rpc.fetchAccountData address = .ok (some data) := by
  rw [hserves.fetch, h]

namespace TierResolve

def entryData (e : TierEntry) : TierEntryData := ⟨⟨e.value, e.activatedAt, e.positionId⟩, e.position⟩

variable {w : Encoding} {rpc : Rpc} {accounts : Pubkey → Option Bytes} {cursor : Cursor}
  {rest : List Bytes} {n : ℕ}

theorem ite_lt_gt {p : Prop} [Decidable p] :
    (if p then Ordering.lt else .gt) = .lt ↔ p := by
  by_cases h : p <;> simp [h]

theorem rank_lt {a b : TierEntry} :
    rank (entryData a).toTierEntryLike (entryData b).toTierEntryLike = .lt ↔ Tier.Outranks a b := by
  simp only [rank, entryData, Tier.Outranks]
  by_cases hvalue : a.value = b.value
  · by_cases hactivated : a.activatedAt = b.activatedAt
    · by_cases hid : a.positionId = b.positionId
      · simp [hvalue, hactivated, hid]
      · simp [hvalue, hactivated, hid]
        exact ite_lt_gt
    · simp [hvalue, hactivated]
      exact ite_lt_gt
  · simp [hvalue]
    exact ite_lt_gt

-- ---------------------------------------------------------------------------
-- The cursor
-- ---------------------------------------------------------------------------

/-- The fields that stand from the cursor on. -/
def Cursor.At (cursor : Cursor) (fields : List Bytes) : Prop :=
  Stands cursor.buf cursor.offset fields

theorem Cursor.At.next {field : Bytes} (h : cursor.At (field :: rest)) (hn : field.length = n) :
    cursor.next n = .ok (field, cursor.skip n) ∧ (cursor.skip n).At rest := by
  subst hn
  exact ⟨by rw [Cursor.next, h.1]; rfl, h.2⟩

theorem Cursor.At.skip (fields : List Bytes) (h : cursor.At (fields ++ rest))
    (hn : fields.flatten.length = n) : (cursor.skip n).At rest := by
  subst hn
  exact Stands.drop h

theorem Cursor.At.u8 {value : ℕ} (h : cursor.At (leBytes 1 value :: rest)) (hvalue : value < 2 ^ 8) :
    ∃ cursor', cursor.u8 = .ok (value, cursor') ∧ cursor'.At rest := by
  obtain ⟨hnext, hrest⟩ := h.next (n := 1) (length_leBytes _ _)
  refine ⟨_, ?_, hrest⟩
  have hread : leNat (leBytes 1 value) = value := leNat_leBytes (by omega)
  simp [Cursor.u8, hnext, hread, pure, Except.pure]

theorem Cursor.At.u64 {value : ℕ} (h : cursor.At (leBytes 8 value :: rest))
    (hvalue : value < 2 ^ 64) : ∃ cursor', cursor.u64 = .ok (value, cursor') ∧ cursor'.At rest := by
  obtain ⟨hnext, hrest⟩ := h.next (n := 8) (length_leBytes _ _)
  refine ⟨_, ?_, hrest⟩
  have hread : leNat (leBytes 8 value) = value := leNat_leBytes (by omega)
  simp [Cursor.u64, hnext, hread, pure, Except.pure]

theorem Cursor.At.i64 {value : ℤ} (h : cursor.At (i64Bytes value :: rest))
    (hvalue : -2 ^ 63 ≤ value ∧ value < 2 ^ 63) :
    ∃ cursor', cursor.i64 = .ok (value, cursor') ∧ cursor'.At rest := by
  obtain ⟨hnext, hrest⟩ := h.next (n := 8) (length_i64Bytes _)
  refine ⟨_, ?_, hrest⟩
  simp [Cursor.i64, hnext, signed64_i64Bytes hvalue.1 hvalue.2, pure, Except.pure]

theorem Cursor.At.pubkey {key : Pubkey} (h : cursor.At (w.encode key :: rest))
    (hkey : w.Faithful key) : ∃ cursor', cursor.pubkey w = .ok (key, cursor') ∧ cursor'.At rest := by
  obtain ⟨hnext, hrest⟩ := h.next (n := 32) (w.length_encode key)
  refine ⟨_, ?_, hrest⟩
  have hread : w.decode (w.encode key) = key := hkey
  simp [Cursor.pubkey, hnext, hread, pure, Except.pure]

-- ---------------------------------------------------------------------------
-- TopTier
-- ---------------------------------------------------------------------------

theorem readEntry_at {e : TierEntry} (h : cursor.At (e.fields w ++ rest)) (hfits : e.Fits w) :
    ∃ cursor', readEntry w cursor = .ok (entryData e, cursor') ∧ cursor'.At rest := by
  obtain ⟨c₁, hposition, h⟩ := Cursor.At.pubkey h hfits.position
  obtain ⟨c₂, hvalue, h⟩ := h.u64 hfits.value
  obtain ⟨c₃, hactivated, h⟩ := h.i64 hfits.activatedAt
  obtain ⟨c₄, hid, h⟩ := h.u64 hfits.positionId
  refine ⟨c₄, ?_, h⟩
  simp only [readEntry, hposition, hvalue, hactivated, hid, ok_bind]
  rfl

theorem readEntries_at {entries : List TierEntry}
    (h : cursor.At (entries.flatMap (TierEntry.fields w) ++ rest))
    (hfits : ∀ e ∈ entries, e.Fits w) :
    readEntries w entries.length cursor = .ok (entries.map entryData) := by
  induction entries generalizing cursor with
  | nil => rfl
  | cons e entries ih =>
    rw [List.flatMap_cons, List.append_assoc] at h
    obtain ⟨c₁, hentry, hrest⟩ := readEntry_at h (hfits e (by simp))
    have hentries := ih hrest fun e he => hfits e (by simp [he])
    simp only [List.length_cons, readEntries, hentry, hentries, ok_bind]
    rfl

theorem requireAccountData_ok {address : Pubkey} {data : Bytes}
    (h : rpc.fetchAccountData address = .ok (some data)) :
    requireAccountData rpc address = .ok data := by
  simp [requireAccountData, h]

theorem readTopTier_ok {address : Pubkey} {t : TopTier}
    (h : rpc.fetchAccountData address = .ok (some (t.bytes w))) (hlen : t.len ≤ MAX_TIER_SIZE)
    (hfits : ∀ e ∈ t.members, e.Fits w) :
    readTopTier w rpc address = .ok (t.len, t.members.map entryData) := by
  have hstands : (Cursor.mk (t.bytes w) 0).At (t.fields w) := stands_flatten _
  have hskip : ((Cursor.mk (t.bytes w) 0).skip (8 + 32)).At ([leBytes 1 t.len] ++
      ((List.ofFn t.entries).flatMap (TierEntry.fields w) ++
        [leBytes 16 t.accTier, leBytes 1 t.bump])) :=
    hstands.skip [w.discriminator .topTier, w.encode t.pool]
      (by simp [w.length_encode, w.length_discriminator])
  obtain ⟨c₁, hread, hentries⟩ := Cursor.At.u8 hskip (by unfold MAX_TIER_SIZE at hlen; omega)
  rw [TopTier.ofFn_entries, List.flatMap_append, List.append_assoc] at hentries
  have hmembers := readEntries_at hentries hfits
  rw [TopTier.length_members hlen] at hmembers
  simp only [readTopTier, requireAccountData_ok h, hread, hmembers, ok_bind]
  rfl

-- ---------------------------------------------------------------------------
-- Pool
-- ---------------------------------------------------------------------------

theorem pool_offset (p : Pool) :
    (p.bytes w).window POOL_TIER_SIZE_SKIP 1 = some (leBytes 1 p.tierSize) := by
  have hstands : Stands (p.bytes w) 0 (p.configFields w ++ p.liveFields) := stands_flatten _
  have hrest := hstands.drop
  have hskip : (p.configFields w).flatten.length = POOL_TIER_SIZE_SKIP := by
    simp [Pool.configFields, blankFields, w.length_encode, w.length_discriminator,
      POOL_TIER_SIZE_SKIP]
  rw [hskip, Nat.zero_add] at hrest
  exact hrest.1

theorem readTierSize_ok {address : Pubkey} {pool : Pool}
    (h : rpc.fetchAccountData address = .ok (some (pool.bytes w))) (hsize : pool.tierSize < 2 ^ 8) :
    readTierSize rpc address = .ok pool.tierSize := by
  have hstands : (Cursor.mk (pool.bytes w) 0).At (pool.configFields w ++ pool.liveFields) :=
    stands_flatten _
  have hskip := hstands.skip (pool.configFields w) (n := POOL_TIER_SIZE_SKIP) (by
    simp [Pool.configFields, blankFields, w.length_encode, w.length_discriminator,
      POOL_TIER_SIZE_SKIP])
  obtain ⟨c₁, hread, -⟩ := Cursor.At.u8 hskip hsize
  simp only [readTierSize, requireAccountData_ok h, hread, ok_bind]
  rfl

-- ---------------------------------------------------------------------------
-- Position
-- ---------------------------------------------------------------------------

theorem readEligiblePosition_ok {k : Pubkey} {p : Position} (hid : p.positionId < 2 ^ 64)
    (hvalue : p.recordedValue < 2 ^ 64) (hactivated : FitsI64 p.activatedAt) :
    readEligiblePosition k (p.bytes w) = .ok (entryData (Tier.entryOf k p)) := by
  have hstands : (Cursor.mk (p.bytes w) 0).At (p.fields w) := stands_flatten _
  have hstart := hstands.skip (n := 8 + 32 * 3)
    [w.discriminator .position, w.encode p.pool, w.encode p.depositor, w.encode p.nftMint]
    (by simp [w.length_encode, w.length_discriminator])
  obtain ⟨c₁, hread, h⟩ := Cursor.At.u64 hstart hid
  have hpast := h.skip [[p.state.byte]] (n := 1) rfl
  obtain ⟨c₂, hread₂, h⟩ := Cursor.At.u64 hpast hvalue
  have hrest := h.skip (n := 8 + 8 + 4)
    [i64Bytes p.valueObservedAt, leBytes 8 p.depositValue, leBytes 4 p.slotIndex]
    (by simp)
  obtain ⟨c₃, hread₃, -⟩ := Cursor.At.i64 hrest hactivated
  simp only [readEligiblePosition, hread, hread₂, hread₃, ok_bind]
  rfl

/-- Each window starts at the offset that its filter was computed for. -/
theorem position_offsets (p : Position) :
    (p.bytes w).window 0 8 = some (w.discriminator .position) ∧
    (p.bytes w).window POSITION_POOL_OFFSET 32 = some (w.encode p.pool) ∧
    (p.bytes w).window POSITION_STATE_OFFSET 1 = some [p.state.byte] ∧
    (p.bytes w).window POSITION_IN_TIER_OFFSET 1 = some [boolByte p.inTier] := by
  have hstands : Stands (p.bytes w) 0 (p.fields w) := stands_flatten _
  simp only [Position.fields, Stands, w.length_discriminator, w.length_encode, length_leBytes,
    length_i64Bytes, List.length_cons, List.length_nil] at hstands
  obtain ⟨hdiscriminator, hpool, -, -, -, hstate, -, -, -, -, -, -, -, hinTier, -⟩ := hstands
  exact ⟨hdiscriminator, hpool, hstate, hinTier⟩

theorem matches_iff {b c field : Bytes} {offset n : ℕ} (h : b.window offset n = some field)
    (hn : c.length = n) : MemcmpFilter.Matches ⟨offset, c⟩ b ↔ field = c := by
  rw [MemcmpFilter.Matches, hn, h, Option.some.injEq]

theorem byte_eq_active {s : PositionState} :
    [s.byte] = [POSITION_STATE_ACTIVE_BYTE] ↔ s = .active := by
  cases s <;> simp [PositionState.byte, POSITION_STATE_ACTIVE_BYTE]

theorem boolByte_eq_zero {b : Bool} : [boolByte b] = [0] ↔ b = false := by
  cases b <;> simp [boolByte]

/-- The four filters find exactly the active non-members of the pool. -/
theorem eligible_iff {p : Position} {pool : Pubkey} (hpool : w.Faithful pool)
    (hown : w.Faithful p.pool) :
    (∀ f ∈ eligibleFilters w pool, f.Matches (p.bytes w)) ↔
      p.pool = pool ∧ p.state = .active ∧ p.inTier = false := by
  obtain ⟨hdiscriminator, hown', hstate, hinTier⟩ := position_offsets (w := w) p
  have htype := matches_iff hdiscriminator (w.length_discriminator .position)
  have hpool' := matches_iff hown' (w.length_encode pool)
  have hactive := matches_iff (c := [POSITION_STATE_ACTIVE_BYTE]) hstate rfl
  have hout := matches_iff (c := [0]) hinTier rfl
  have hencode : w.encode p.pool = w.encode pool ↔ p.pool = pool :=
    ⟨w.encode_injOn hown hpool, congrArg w.encode⟩
  simp only [eligibleFilters, List.forall_mem_cons, htype, hpool', hactive, hout, hencode,
    byte_eq_active, boolByte_eq_zero, true_and, List.not_mem_nil, false_implies, implies_true,
    and_true]

theorem scan_eligible {c : Chain} {pool : Pubkey} (himages : Images w c accounts)
    (hserves : Serves accounts rpc) (hfaithful : ∀ k p, c.positions.lookup k = some p →
      w.Faithful p.pool) (hpool : w.Faithful pool) :
    ∃ hits, rpc.getProgramAccounts (eligibleFilters w pool) = .ok hits ∧
      ∀ k data, (k, data) ∈ hits ↔ ∃ p, c.positions.lookup k = some p ∧ data = p.bytes w ∧
        p.pool = pool ∧ p.state = .active ∧ p.inTier = false := by
  obtain ⟨hits, hscan, hmem⟩ := hserves.scan (eligibleFilters w pool)
  refine ⟨hits, hscan, fun k data => ?_⟩
  rw [hmem]
  constructor
  · rintro ⟨haccount, hfilters⟩
    cases hp : c.positions.lookup k with
    | none =>
      -- Another account starts with another discriminator.
      obtain ⟨type, hne, htype⟩ := himages.other k data haccount hp
      have hposition := hfilters ⟨0, w.discriminator .position⟩ (by simp [eligibleFilters])
      obtain ⟨-, hwindow⟩ := window_some.mp hposition
      rw [List.drop_zero, w.length_discriminator, htype] at hwindow
      exact absurd (w.discriminator_injective hwindow) hne
    | some p =>
      obtain rfl := Option.some.inj ((himages.position k p hp).symm.trans haccount)
      exact ⟨p, rfl, rfl, (eligible_iff hpool (hfaithful k p hp)).mp hfilters⟩
  · rintro ⟨p, hp, rfl, heligible⟩
    exact ⟨himages.position k p hp, (eligible_iff hpool (hfaithful k p hp)).mpr heligible⟩

-- ---------------------------------------------------------------------------
-- The best candidate
-- ---------------------------------------------------------------------------

theorem better_data (a b : TierEntry) :
    better (entryData a) (entryData b) = entryData (if Tier.rank b a = .lt then b else a) := by
  unfold better
  by_cases hout : Tier.Outranks b a
  · rw [if_pos (rank_lt.mpr hout), if_pos (Tier.rank_lt.mpr hout)]
  · rw [if_neg fun h => hout (rank_lt.mp h), if_neg fun h => hout (Tier.rank_lt.mp h)]

/-- The scan's fold ends at a candidate that no other outranks. -/
theorem foldl_better (e : TierEntry) (candidates : List TierEntry) :
    ∃ best ∈ e :: candidates, (candidates.map entryData).foldl better (entryData e) = entryData best ∧
      ∀ e' ∈ e :: candidates, ¬Tier.Outranks e' best := by
  induction candidates generalizing e with
  | nil => exact ⟨e, by simp, rfl, by simp [Tier.Outranks.irrefl]⟩
  | cons e' candidates ih =>
    rw [List.map_cons, List.foldl_cons, better_data]
    by_cases hout : Tier.Outranks e' e
    · obtain ⟨best, hbest, hfold, hleast⟩ := ih e'
      rw [if_pos (Tier.rank_lt.mpr hout)]
      refine ⟨best, List.mem_cons_of_mem _ hbest, hfold, fun x hx => ?_⟩
      rcases List.mem_cons.mp hx with rfl | hx
      · exact fun h => hleast e' (by simp) (hout.trans h)
      · exact hleast x hx
    · obtain ⟨best, hbest, hfold, hleast⟩ := ih e
      rw [if_neg fun h => hout (Tier.rank_lt.mp h)]
      refine ⟨best, ?_, hfold, fun x hx => ?_⟩
      · rcases List.mem_cons.mp hbest with rfl | hbest <;> simp [*]
      · rcases List.mem_cons.mp hx with rfl | hx
        · exact hleast x (by simp)
        · rcases List.mem_cons.mp hx with rfl | hx
          · -- Neither of the two outranked what came after it.
            have hkept := hleast e (by simp)
            unfold Tier.Outranks at hout hkept ⊢
            omega
          · exact hleast x (by simp [hx])

theorem mapM_read {hits : List (Pubkey × Bytes)} {R : Pubkey × Bytes → TierEntry → Prop}
    (hread : ∀ hit ∈ hits, ∃ e, R hit e ∧ readEligiblePosition hit.1 hit.2 = .ok (entryData e)) :
    ∃ es, hits.mapM (fun hit => readEligiblePosition hit.1 hit.2) = .ok (es.map entryData) ∧
      List.Forall₂ R hits es := by
  induction hits with
  | nil => exact ⟨[], rfl, .nil⟩
  | cons hit hits ih =>
    obtain ⟨e, hR, he⟩ := hread hit (by simp)
    obtain ⟨es, hes, hall⟩ := ih fun hit' h => hread hit' (by simp [h])
    refine ⟨e :: es, ?_, .cons hR hall⟩
    simp only [List.mapM_cons, he, hes, ok_bind, List.map_cons]
    rfl

end TierResolve

-- ---------------------------------------------------------------------------
-- What is stored fits
-- ---------------------------------------------------------------------------

section Stored

variable {X : Programs} {w : Encoding} {c : Chain} {now : ℤ} {k pool : Pubkey} {p : Position}
  {L : Ledger}

theorem ClockReachable.fits (h : ClockReachable X c now) (hp : c.positions.lookup k = some p)
    (hactive : p.state = .active) (hk : w.Faithful k) : (Tier.entryOf k p).Fits w := by
  obtain ⟨first, hlow, hid, hactivated⟩ := h.stamped
  obtain ⟨hstart, hend⟩ := hactivated k p hp hactive
  obtain ⟨L, hL⟩ := h.sound.wellFormed.ofPosition hp
  obtain ⟨-, hC⟩ := (h.sound.synced p.pool L hL).attested k p (hL.lookup.mpr ⟨hp, rfl⟩) hactive
  have hwidth : WEIGHT_C < 2 ^ 64 := by decide
  obtain ⟨-, -, -, -, -, hhigh⟩ := h
  exact ⟨hk, hC.trans_lt hwidth, ⟨hlow.trans hstart, hend.trans_lt hhigh⟩, hid k p hp⟩

theorem ClockReachable.members_fit (h : ClockReachable X c now) (hL : c.Reads pool L)
    (hfaithful : ∀ k p, c.positions.lookup k = some p → w.Faithful k) :
    ∀ e ∈ L.topTier.members, e.Fits w := by
  intro e he
  obtain ⟨p, hp, -, hactive, hentry⟩ := (h.sound.ranked pool L hL).listed.lookup he
  have hlookup := (hL.lookup.mp hp).1
  rw [hentry]
  exact h.fits hlookup hactive (hfaithful _ p hlookup)

end Stored

end ByeMachine
