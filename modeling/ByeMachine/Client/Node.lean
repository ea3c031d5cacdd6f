import ByeMachine.Client.Reads

/-!
# A node over a chain

Every well-formed chain is served by some node: one that holds the accounts read
here and scans them. The bank's encoding numbers its addresses.
-/

namespace ByeMachine

open Fallible TierResolve

variable {w : Encoding} {c : Chain} {k : Pubkey}

def Chain.images (c : Chain) (w : Encoding) (k : Pubkey) : Option Bytes :=
  match c.positions.lookup k with
  | some p => some (p.bytes w)
  | none =>
    match c.pools.lookup k with
    | some pool => some (pool.bytes w)
    | none => (c.topTiers.lookup k).map (TopTier.bytes w)

/-- A node that holds these accounts. -/
noncomputable def Chain.node (c : Chain) (w : Encoding) : Rpc where
  fetchAccountData k := .ok (c.images w k)
  getProgramAccounts filters := .ok <|
    (c.positions.keys ∪ c.pools.keys ∪ c.topTiers.keys).toList.filterMap fun k =>
      ((c.images w k).filter fun data => filters.all fun f => f.Matches data).map (k, ·)

theorem take_flatten {first : Bytes} {rest : List Bytes} (h : first.length = 8) :
    (first :: rest).flatten.take 8 = first := by
  rw [List.flatten_cons, List.take_left' h]

theorem images_images (hwf : c.WellFormed) : Images w c (c.images w) where
  position := by
    intro k p hp
    simp only [Chain.images, hp]
  pool := by
    intro k pool hpool
    have hnone : c.positions.lookup k = none := by
      rw [Option.eq_none_iff_forall_not_mem]
      intro p hp
      have hkey := hwf.positionKey k p hp
      rw [hwf.poolKey k pool hpool] at hkey
      cases hkey
    simp only [Chain.images, hnone, hpool]
  topTier := by
    intro key t ht
    have hposition : c.positions.lookup (.topTier key) = none := by
      rw [Option.eq_none_iff_forall_not_mem]
      intro p hp
      cases hwf.positionKey _ p hp
    have hpool : c.pools.lookup (.topTier key) = none := by
      rw [Option.eq_none_iff_forall_not_mem]
      intro pool hpool
      cases hwf.poolKey _ pool hpool
    simp only [Chain.images, hposition, hpool, ht, Option.map_some]
  other := by
    intro k data hdata hnone
    simp only [Chain.images, hnone] at hdata
    split at hdata
    · refine ⟨.pool, by decide, ?_⟩
      rw [← Option.some.inj hdata]
      exact take_flatten (w.length_discriminator _)
    · obtain ⟨t, -, rfl⟩ := Option.map_eq_some_iff.mp hdata
      refine ⟨.topTier, by decide, ?_⟩
      exact take_flatten (w.length_discriminator _)

theorem Chain.images_mem {data : Bytes} (h : c.images w k = some data) :
    k ∈ c.positions.keys ∪ c.pools.keys ∪ c.topTiers.keys := by
  simp only [Finset.mem_union, Finmap.mem_keys, ← Finmap.lookup_isSome]
  unfold Chain.images at h
  split at h
  next hp => simp [hp]
  next =>
    split at h
    next hpool => simp [hpool]
    next =>
      obtain ⟨t, ht, -⟩ := Option.map_eq_some_iff.mp h
      simp [ht]

theorem serves_node (c : Chain) (w : Encoding) : Serves (c.images w) (c.node w) where
  fetch := fun _ => rfl
  scan := by
    intro filters
    refine ⟨_, rfl, fun k data => ?_⟩
    simp only [List.mem_filterMap, Finset.mem_toList, Option.map_eq_some_iff,
      Option.filter_eq_some_iff, List.all_eq_true, decide_eq_true_eq, Prod.mk.injEq]
    constructor
    · rintro ⟨_, -, _, ⟨hdata, hfilters⟩, rfl, rfl⟩
      exact ⟨hdata, hfilters⟩
    · rintro ⟨hdata, hfilters⟩
      exact ⟨k, Chain.images_mem hdata, data, ⟨hdata, hfilters⟩, rfl, rfl⟩

-- ---------------------------------------------------------------------------
-- The bank's encoding
-- ---------------------------------------------------------------------------

def bankEncode : Pubkey → Bytes
  | .pool n => 1 :: UInt8.ofNat n :: List.replicate 30 0
  | .position (.pool n) (.key card) =>
    2 :: UInt8.ofNat n :: UInt8.ofNat card :: List.replicate 29 0
  | _ => List.replicate 32 0

def bankDecode : Bytes → Pubkey
  | 1 :: n :: _ => .pool n.toNat
  | 2 :: n :: card :: _ => .position (.pool n.toNat) (.key card.toNat)
  | _ => .default

def AccountType.byte : AccountType → UInt8
  | .protocolConfig => 0
  | .pool => 1
  | .weightIndex => 2
  | .topTier => 3
  | .position => 4
  | .walletStats => 5
  | .poolCollection => 6
  | .rollBatch => 7

def bankEncoding : Encoding where
  encode := bankEncode
  decode := bankDecode
  discriminator type := type.byte :: List.replicate 7 0
  length_encode := by
    intro key
    unfold bankEncode
    split <;> rfl
  length_discriminator _ := rfl
  discriminator_injective := by
    intro a b h
    have hbyte : a.byte = b.byte := (List.cons.inj h).1
    revert hbyte
    cases a <;> cases b <;> decide

end ByeMachine
