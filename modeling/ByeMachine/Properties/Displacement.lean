import ByeMachine.Client.Node

/-!
# Whom a promotion displaces

The operator asks the resolver whom a promotion displaces and passes that
account along. The two agree on every candidate with a stored key; on an
activation they disagree on one tie.
-/

namespace ByeMachine

open Fallible TierResolve

variable {X : Programs} {w : Encoding} {rpc : Rpc} {accounts : Pubkey → Option Bytes} {c : Chain}
  {L : Ledger} {now later : ℤ} {k pool : Pubkey} {p : Position} {key : RankKey}
  {entry lowest : TierEntry} {init : List TierEntry}

def Tier.PromoteOutcome.displaced : Tier.PromoteOutcome → Option Pubkey
  | .swapped evicted => some evicted.position
  | .inserted | .rejected => none

/-- The accounts an operator passes for an answer. -/
def offered (answer : Option Pubkey) : List AccountMeta := answer.toList.map (⟨·, true⟩)

/-- The resolver answers for `key` what the promotion of `entry` does, and the account it answers
is the one the settlement of the evicted member looks for. -/
def Agrees (w : Encoding) (rpc : Rpc) (pool : Pubkey) (L : Ledger) (key : RankKey)
    (entry : TierEntry) : Prop :=
  ∃ t outcome, Tier.promote L.topTier L.pool.tierSize entry = .ok (t, outcome) ∧
    resolveDisplaced w rpc pool key = .ok outcome.displaced ∧
    ∀ evicted, outcome = .swapped evicted →
      (offered outcome.displaced).find? (fun account => account.key = evicted.position)
        = some ⟨evicted.position, true⟩

/-- The candidate ties with the lowest member of a full tier on value and activation, and was
deposited before it. -/
def WinsTie (L : Ledger) (value : ℕ) (activatedAt : ℤ) (positionId : ℕ) : Prop :=
  L.topTier.len = L.pool.tierSize ∧ ∃ lowest, L.topTier.members.getLast? = some lowest ∧
    value = lowest.value ∧ activatedAt = lowest.activatedAt ∧ positionId < lowest.positionId

-- ---------------------------------------------------------------------------
-- What each of the two answers
-- ---------------------------------------------------------------------------

theorem resolveDisplaced_room (hserves : Serves accounts rpc)
    (himages : Images w c accounts) (hL : c.Reads pool L) (hranked : L.Ranked)
    (hfits : ∀ e ∈ L.topTier.members, e.Fits w) (hroom : L.topTier.len ≠ L.pool.tierSize) :
    resolveDisplaced w rpc pool key = .ok none := by
  have hsize := readTierSize_ok (hserves.fetched (himages.pool _ _ hL.pool))
    (hranked.tierSize_le.trans_lt (by decide))
  have htier := readTopTier_ok (hserves.fetched (himages.topTier _ _ hL.topTier)) hranked.len_le_max
    hfits
  simp only [resolveDisplaced, hsize, htier, ok_bind, hroom, ne_eq, not_false_eq_true, or_true,
    if_true]
  rfl

theorem resolveDisplaced_full (key : RankKey) (hserves : Serves accounts rpc)
    (himages : Images w c accounts) (hL : c.Reads pool L) (hranked : L.Ranked)
    (hfits : ∀ e ∈ L.topTier.members, e.Fits w) (hfull : L.topTier.len = L.pool.tierSize)
    (hmembers : L.topTier.members = init ++ [lowest]) :
    resolveDisplaced w rpc pool key = .ok
      (if rank (candidateKey key) (entryData lowest).toTierEntryLike = .lt then
        some lowest.position else none) := by
  have hlength := hranked.length_members
  rw [hmembers, List.length_append, List.length_singleton] at hlength
  have hlast : (L.topTier.members.map entryData)[L.topTier.len - 1]? = some (entryData lowest) := by
    rw [hmembers, ← hlength]
    simp
  have hpos : L.pool.tierSize ≠ 0 := by omega
  rw [hfull] at hlast
  have hsize := readTierSize_ok (hserves.fetched (himages.pool _ _ hL.pool))
    (hranked.tierSize_le.trans_lt (by decide))
  have htier := readTopTier_ok (hserves.fetched (himages.topTier _ _ hL.topTier)) hranked.len_le_max
    hfits
  simp only [resolveDisplaced, hsize, htier, ok_bind, hfull, hpos, ne_eq, not_true_eq_false,
    or_self, if_false, hlast, okOr_some]
  rfl

-- ---------------------------------------------------------------------------
-- Agreement
-- ---------------------------------------------------------------------------

theorem offered_find (evicted : TierEntry) :
    (offered (some evicted.position)).find? (fun account => account.key = evicted.position)
      = some ⟨evicted.position, true⟩ := by
  simp [offered]

theorem agrees_room (hserves : Serves accounts rpc) (himages : Images w c accounts)
    (hL : c.Reads pool L) (hranked : L.Ranked) (hfits : ∀ e ∈ L.topTier.members, e.Fits w)
    (hroom : L.topTier.len < L.pool.tierSize) : Agrees w rpc pool L key entry := by
  obtain ⟨t, hpromote, -⟩ := Tier.promote_room entry hroom hranked.tierSize_le
  exact ⟨t, .inserted, hpromote,
    resolveDisplaced_room hserves himages hL hranked hfits hroom.ne, fun _ h => by cases h⟩

/-- Of a full tier the two agree exactly where the resolver ranks its key against the lowest member
as the program ranks the entry. -/
theorem agrees_full (key : RankKey) (entry : TierEntry) (hserves : Serves accounts rpc)
    (himages : Images w c accounts)
    (hL : c.Reads pool L) (hranked : L.Ranked) (hfits : ∀ e ∈ L.topTier.members, e.Fits w)
    (hfull : L.topTier.len = L.pool.tierSize) :
    ∃ init lowest, L.topTier.members = init ++ [lowest] ∧
      (Agrees w rpc pool L key entry ↔
        (rank (candidateKey key) (entryData lowest).toTierEntryLike = .lt ↔
          Tier.Outranks entry lowest)) := by
  have hpos : 0 < L.topTier.len := hfull ▸ hranked.tierSize_pos
  obtain ⟨init, lowest, hmembers, hpromote⟩ :=
    Tier.promote_full entry (Nat.not_lt.mpr hfull.ge) hpos hranked.len_le_max
  refine ⟨init, lowest, hmembers, ?_⟩
  have hresolve := resolveDisplaced_full key hserves himages hL hranked hfits hfull hmembers
  unfold Agrees
  rw [hresolve]
  obtain ⟨hnot, hrun⟩ | ⟨hout, t, hrun, -⟩ := hpromote
  · simp only [hrun, Except.ok.injEq, Prod.mk.injEq, hnot, iff_false]
    constructor
    · rintro ⟨_, _, ⟨rfl, rfl⟩, hanswer, -⟩ hrank
      rw [if_pos hrank] at hanswer
      cases hanswer
    · intro hrank
      exact ⟨_, _, ⟨rfl, rfl⟩, if_neg hrank, fun _ h => by cases h⟩
  · simp only [hrun, Except.ok.injEq, Prod.mk.injEq, hout, iff_true]
    constructor
    · rintro ⟨_, _, ⟨rfl, rfl⟩, hanswer, -⟩
      by_contra hrank
      rw [if_neg hrank] at hanswer
      cases hanswer
    · intro hrank
      refine ⟨_, _, ⟨rfl, rfl⟩, if_pos hrank, fun evicted h => ?_⟩
      obtain rfl := Tier.PromoteOutcome.swapped.inj h
      exact offered_find _

/-- The sentinel outranks an entry that fits by its value alone. -/
theorem activating_lt {value : ℕ} (hfits : lowest.Fits w) :
    rank (candidateKey (.activating value)) (entryData lowest).toTierEntryLike = .lt ↔
      lowest.value < value := by
  have hrank := rank_lt (a := ⟨.default, value, I64_MAX, U64_MAX⟩) (b := lowest)
  obtain ⟨-, -, ⟨-, hhigh⟩, hid⟩ := hfits
  simp only [Tier.Outranks, I64_MAX, U64_MAX] at hrank
  exact hrank.trans (by omega)

/-- On a reachable chain, whose accounts the node answers for: an activation agrees exactly where
its candidate wins no tie, and a stored key always agrees. -/
theorem resolveDisplaced_agrees_iff (h : ClockReachable X c now) (himages : Images w c accounts)
    (hserves : Serves accounts rpc)
    (hfaithful : ∀ k p, c.positions.lookup k = some p → w.Faithful k)
    (hL : c.ledger pool = some L) (k : Pubkey) :
    (∀ value later positionId, now ≤ later → later < 2 ^ 63 →
      (Agrees w rpc pool L (.activating value) ⟨k, value, later, positionId⟩ ↔
        ¬WinsTie L value later positionId)) ∧
    (∀ value activatedAt positionId,
      Agrees w rpc pool L (.stored value activatedAt positionId)
        ⟨k, value, activatedAt, positionId⟩) := by
  have hreads := ledger_eq_some.mp hL
  have hranked := h.sound.ranked pool L hreads
  have hfits := h.members_fit hreads hfaithful
  refine ⟨fun value later positionId hlater hhigh => ?_, fun value activatedAt positionId => ?_⟩
  · obtain hroom | hfull := hranked.len_le.lt_or_eq
    · have hnot : ¬WinsTie L value later positionId := fun htie => hroom.ne htie.1
      exact ⟨fun _ => hnot, fun _ => agrees_room hserves himages hreads hranked hfits hroom⟩
    · obtain ⟨init, lowest, hmembers, hiff⟩ :=
        agrees_full (.activating value) ⟨k, value, later, positionId⟩ hserves himages hreads
          hranked hfits hfull
      have hmem : lowest ∈ L.topTier.members := by rw [hmembers]; simp
      rw [hiff, activating_lt (hfits lowest hmem)]
      -- The lowest member was activated no later than the candidate would be.
      obtain ⟨first, -, -, hactivated⟩ := h.stamped
      obtain ⟨q, hq, -, hqactive, hentry⟩ := hranked.listed.lookup hmem
      have hbefore := (hactivated _ q (hreads.lookup.mp hq).1 hqactive).2
      have hlowest : lowest.activatedAt = q.activatedAt := congrArg TierEntry.activatedAt hentry
      simp only [WinsTie, hfull, true_and, hmembers, List.getLast?_concat, Option.some.injEq,
        exists_eq_left', Tier.Outranks]
      omega
  · obtain hroom | hfull := hranked.len_le.lt_or_eq
    · exact agrees_room hserves himages hreads hranked hfits hroom
    · obtain ⟨init, lowest, -, hiff⟩ :=
        agrees_full (.stored value activatedAt positionId)
          ⟨k, value, activatedAt, positionId⟩ hserves himages hreads hranked hfits hfull
      exact hiff.mpr (rank_lt (a := ⟨k, value, activatedAt, positionId⟩))

-- ---------------------------------------------------------------------------
-- A tie
-- ---------------------------------------------------------------------------

/-- A tier of one, held by card 31; card 30 was deposited before it and is pending. -/
def tiedBank : Chain :=
  (bankPool { defaultArgs .default with tierSize := 1 }).after bank
    [admitCards, depositCard 30, depositCard 31, approveCard 31 12000000 100]

theorem tiedBank_reachable : ClockReachable bank tiedBank 2 :=
  bank_clock (by decide +kernel) (by decide) (by decide +kernel) (by decide)

theorem tiedBank_faithful {k : Pubkey} {p : Position} (hp : tiedBank.positions.lookup k = some p) :
    bankEncoding.Faithful k := by
  have hkeys : tiedBank.positions.keys = {bankPosition 30, bankPosition 31} := by decide +kernel
  have hmem : k ∈ tiedBank.positions.keys := by
    rw [Finmap.mem_keys, ← Finmap.lookup_isSome, hp]
    rfl
  rw [hkeys, Finset.mem_insert, Finset.mem_singleton] at hmem
  obtain rfl | rfl := hmem <;> exact rfl

theorem tiedBank_ledger : ∃ L p, tiedBank.ledger (.pool 0) = some L ∧
    L.positions.lookup (bankPosition 30) = some p ∧ p.state = .pending ∧ p.positionId = 0 ∧
    L.pool.tierSize = 1 ∧ L.topTier.len = 1 ∧
    L.topTier.members = [⟨bankPosition 31, 12000000, 2, 1⟩] := by
  have hstands : ((tiedBank.ledger (.pool 0)).bind fun L =>
      (L.positions.lookup (bankPosition 30)).map fun p => (p.state, p.positionId, L.pool.tierSize,
        L.topTier.len, L.topTier.members))
      = some (.pending, 0, 1, 1, [⟨bankPosition 31, 12000000, 2, 1⟩]) := by decide +kernel
  obtain ⟨L, hL, hposition⟩ := Option.bind_eq_some_iff.mp hstands
  obtain ⟨p, hp, heq⟩ := Option.map_eq_some_iff.mp hposition
  simp only [Prod.mk.injEq] at heq
  exact ⟨L, p, hL, hp, heq⟩

/-- Approved at a higher value, card 30 takes the place of card 31, and the resolver says so. -/
theorem resolveDisplaced_agrees_iff_bank :
    ∃ L, tiedBank.ledger (.pool 0) = some L ∧
      Agrees bankEncoding (tiedBank.node bankEncoding) (.pool 0) L (.activating 13000000)
        ⟨bankPosition 30, 13000000, 2, 0⟩ := by
  have hsound : tiedBank.Sound := ClockReachable.sound tiedBank_reachable
  obtain ⟨L, p, hL, -, -, -, -, -, hmembers⟩ := tiedBank_ledger
  have hagrees := ((resolveDisplaced_agrees_iff tiedBank_reachable
    (images_images hsound.wellFormed) (serves_node tiedBank bankEncoding)
    (fun _ _ => tiedBank_faithful) hL (bankPosition 30)).1 13000000 2 0 le_rfl (by decide)).mpr (by
      rintro ⟨-, lowest, hlast, hvalue, -⟩
      rw [hmembers] at hlast
      obtain rfl := Option.some.inj hlast
      exact absurd hvalue (by decide))
  exact ⟨L, hL, hagrees⟩

/-- Approved at the value and in the second of card 31, card 30 wins the tie by its id: the
resolver answers that nobody is displaced, and the approval that relies on it fails. -/
theorem resolveDisplaced_misses_tie :
    ClockReachable bank tiedBank 2 ∧
    Images bankEncoding tiedBank (tiedBank.images bankEncoding) ∧
    Serves (tiedBank.images bankEncoding) (tiedBank.node bankEncoding) ∧
    ∃ L p, tiedBank.ledger (.pool 0) = some L ∧ L.positions.lookup (bankPosition 30) = some p ∧
      p.state = .pending ∧
      resolveDisplaced bankEncoding (tiedBank.node bankEncoding) (.pool 0) (.activating 12000000)
        = .ok none ∧
      ¬Agrees bankEncoding (tiedBank.node bankEncoding) (.pool 0) L (.activating 12000000)
        ⟨bankPosition 30, 12000000, 2, p.positionId⟩ ∧
      exec bank ⟨2, 2⟩ tiedBank (.approveDeposit (.key 2) (.pool 0) (bankPosition 30) (offered none)
        12000000 2 100) = .error (.anchor .accountNotEnoughKeys) := by
  obtain ⟨L, p, hL, hp, hpending, hid, hsize, hlen, hmembers⟩ := tiedBank_ledger
  have hreads := ledger_eq_some.mp hL
  have hsound : tiedBank.Sound := ClockReachable.sound tiedBank_reachable
  have himages := images_images (w := bankEncoding) hsound.wellFormed
  have hserves := serves_node tiedBank bankEncoding
  have hranked := hsound.ranked _ _ hreads
  have hfits := ClockReachable.members_fit tiedBank_reachable hreads (fun _ _ => tiedBank_faithful)
  have hfull : L.topTier.len = L.pool.tierSize := hlen.trans hsize.symm
  have hresolve : resolveDisplaced bankEncoding (tiedBank.node bankEncoding) (.pool 0)
      (.activating 12000000) = .ok none :=
    resolveDisplaced_full _ hserves himages hreads hranked hfits hfull
      (show L.topTier.members = [] ++ [_] from hmembers)
  refine ⟨tiedBank_reachable, himages, hserves, L, p, hL, hp, hpending, hresolve, ?_,
    errorOf_eq_some.mp (by decide +kernel)⟩
  obtain ⟨init, lowest, hmembers', hiff⟩ := agrees_full (.activating 12000000)
    ⟨bankPosition 30, 12000000, 2, p.positionId⟩ hserves himages hreads hranked hfits hfull
  obtain rfl : lowest = ⟨bankPosition 31, 12000000, 2, 1⟩ := by
    have hlast := congrArg List.getLast? (hmembers.symm.trans hmembers')
    simpa using hlast.symm
  rw [hiff, hid]
  simp [rank, candidateKey, entryData, Tier.Outranks, I64_MAX, U64_MAX]

end ByeMachine
