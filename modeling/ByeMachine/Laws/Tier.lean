import ByeMachine.Laws.TierArray

/-!
# The tier agrees with the positions

Membership is stored twice: in the ranked array and in each position's flag.
`Listed` says the two agree, and the lemmas here carry it through a member
entering, leaving, being replaced or moving in rank.
-/

namespace ByeMachine

open Fallible

/-- Position ids are handed out once, below the pool's counter. -/
structure Identified (positions : Positions) (counter : ℕ) : Prop where
  below : ∀ k p, positions.lookup k = some p → p.positionId < counter
  distinct : ∀ k k' p p', positions.lookup k = some p → positions.lookup k' = some p' →
    p.positionId = p'.positionId → k = k'

/-- A member as it leaves the tier, its tier leg settled. -/
def Position.leftTier (position : Position) (accTier : ℕ) : Position :=
  { position with
    accrued := pendingFees accTier position.tierCheckpoint + position.accrued
    tierCheckpoint := accTier
    inTier := false }

namespace Tier

/-- `members` are sorted best-first and are exactly the positions flagged as members, all of them
active, each with its own rank data. -/
structure Listed (members : List TierEntry) (positions : Positions) : Prop where
  sorted : Sorted members
  entries : ∀ e, e ∈ members ↔
    ∃ p, positions.lookup e.position = some p ∧ p.inTier = true ∧ e = entryOf e.position p
  active : ∀ k p, positions.lookup k = some p → p.inTier = true → p.state = .active

variable {members members' : List TierEntry} {positions : Positions} {k : Pubkey}
  {p p' : Position} {counter : ℕ}

-- ---------------------------------------------------------------------------
-- Reading the agreement
-- ---------------------------------------------------------------------------

theorem Listed.lookup (h : Listed members positions) {e : TierEntry} (he : e ∈ members) :
    ∃ p, positions.lookup e.position = some p ∧ p.inTier = true ∧ p.state = .active ∧
      e = entryOf e.position p := by
  obtain ⟨p, hp, hin, heq⟩ := (h.entries e).mp he
  exact ⟨p, hp, hin, h.active _ _ hp hin, heq⟩

theorem Listed.mem (h : Listed members positions) (hp : positions.lookup k = some p)
    (hin : p.inTier = true) : entryOf k p ∈ members :=
  (h.entries _).mpr ⟨p, hp, hin, rfl⟩

theorem Listed.eq_of_position (h : Listed members positions) {e e' : TierEntry}
    (he : e ∈ members) (he' : e' ∈ members) (heq : e.position = e'.position) : e = e' := by
  obtain ⟨p, hp, -, hentry⟩ := (h.entries e).mp he
  obtain ⟨p', hp', -, hentry'⟩ := (h.entries e').mp he'
  rw [← heq, hp] at hp'
  obtain rfl := Option.some.inj hp'
  rw [hentry, hentry', heq]

theorem Sorted.nodup (h : Sorted members) : members.Nodup := by
  refine List.Pairwise.imp ?_ h
  rintro a b hab rfl
  exact Outranks.irrefl a hab

theorem Listed.nodup_positions (h : Listed members positions) :
    (members.map (·.position)).Nodup :=
  h.sorted.nodup.map_on fun _ he _ he' => h.eq_of_position he he'

theorem Listed.not_mem_of_split {pre post : List TierEntry} {x e : TierEntry}
    (h : Listed (pre ++ x :: post) positions) (he : e ∈ pre ++ post) : e.position ≠ x.position := by
  intro heq
  have hx : x ∈ pre ++ x :: post := by simp
  have hmem : e ∈ pre ++ x :: post := by
    rcases List.mem_append.mp he with he | he <;> simp [he]
  obtain rfl := h.eq_of_position hmem hx heq
  exact (List.nodup_middle.mp h.sorted.nodup).notMem he

-- ---------------------------------------------------------------------------
-- Ranks after an insertion
-- ---------------------------------------------------------------------------

theorem Lands.sorted {candidate : TierEntry} (hlands : Lands candidate members members')
    (hsorted : Sorted members)
    (hids : ∀ e ∈ members, candidate.positionId ≠ e.positionId) : Sorted members' := by
  obtain ⟨pre, post, rfl, rfl, hpost, hpre⟩ := hlands.split
  obtain ⟨hsortedPre, hsortedPost, hcross⟩ := List.pairwise_append.mp hsorted
  have hbefore : ∀ e ∈ pre, Outranks e candidate := by
    intro e he
    obtain ⟨init, last, rfl⟩ : ∃ init last, pre = init ++ [last] :=
      ⟨_, _, (List.dropLast_append_getLast (List.ne_nil_of_mem he)).symm⟩
    have hlast : Outranks last candidate :=
      not_outranks (hpre last (by simp)) (hids last (by simp))
    rcases List.mem_append.mp he with he | he
    · exact ((List.pairwise_append.mp hsortedPre).2.2 e he last (by simp)).trans hlast
    · rwa [List.mem_singleton.mp he]
  refine List.pairwise_append.mpr ⟨hsortedPre, List.pairwise_cons.mpr ⟨hpost, hsortedPost⟩, ?_⟩
  intro e he e' he'
  rcases List.mem_cons.mp he' with rfl | he'
  · exact hbefore e he
  · exact hcross e he e' he'

theorem Lands.mem {candidate e : TierEntry} (hlands : Lands candidate members members') :
    e ∈ members' ↔ e = candidate ∨ e ∈ members := by
  obtain ⟨pre, post, rfl, rfl, -, -⟩ := hlands.split
  simp only [List.mem_append, List.mem_cons]
  tauto

theorem Lands.length {candidate : TierEntry} (hlands : Lands candidate members members') :
    members'.length = members.length + 1 := by
  obtain ⟨pre, post, rfl, rfl, -, -⟩ := hlands.split
  simp only [List.length_append, List.length_cons]
  omega

-- ---------------------------------------------------------------------------
-- One position at a time
-- ---------------------------------------------------------------------------

theorem Listed.write (h : Listed members positions)
    (hold : ∀ p, positions.lookup k = some p → p.inTier = false) (hnew : p'.inTier = false) :
    Listed members (positions.insert k p') where
  sorted := h.sorted
  entries := by
    intro e
    by_cases hek : e.position = k
    · have hnone : e ∉ members := by
        intro he
        obtain ⟨p, hp, hin, -⟩ := h.lookup he
        rw [hold p (hek ▸ hp)] at hin
        cases hin
      subst hek
      simp [hnew, hnone]
    · rw [Finmap.lookup_insert_of_ne _ hek]
      exact h.entries e
  active := by
    intro x q hq hin
    by_cases hx : x = k
    · subst hx
      rw [Finmap.lookup_insert, Option.some.injEq] at hq
      rw [← hq, hnew] at hin
      cases hin
    · exact h.active x q (Finmap.lookup_insert_of_ne _ hx ▸ hq) hin

theorem Listed.erase (h : Listed members positions)
    (hold : ∀ p, positions.lookup k = some p → p.inTier = false) :
    Listed members (positions.erase k) where
  sorted := h.sorted
  entries := by
    intro e
    by_cases hek : e.position = k
    · have hnone : e ∉ members := by
        intro he
        obtain ⟨p, hp, hin, -⟩ := h.lookup he
        rw [hold p (hek ▸ hp)] at hin
        cases hin
      subst hek
      simp [hnone]
    · rw [Finmap.lookup_erase_ne hek]
      exact h.entries e
  active := by
    intro x q hq hin
    by_cases hx : x = k
    · subst hx; simp at hq
    · exact h.active x q (Finmap.lookup_erase_ne hx ▸ hq) hin

theorem Listed.leave {pre post : List TierEntry} {x : TierEntry}
    (h : Listed (pre ++ x :: post) positions) (hx : x.position = k) (hnew : p'.inTier = false) :
    Listed (pre ++ post) (positions.insert k p') where
  sorted := h.sorted.sublist (by simp)
  entries := by
    intro e
    by_cases hek : e.position = k
    · have hnone : e ∉ pre ++ post := fun he => h.not_mem_of_split he (hek.trans hx.symm)
      subst hek
      simp [hnew, hnone]
    · rw [Finmap.lookup_insert_of_ne _ hek, ← h.entries e]
      have hne : e ≠ x := fun heq => hek (heq ▸ hx)
      simp [hne]
  active := by
    intro y q hq hin
    by_cases hy : y = k
    · subst hy
      rw [Finmap.lookup_insert, Option.some.injEq] at hq
      rw [← hq, hnew] at hin
      cases hin
    · exact h.active y q (Finmap.lookup_insert_of_ne _ hy ▸ hq) hin

theorem Listed.join (h : Listed members positions) (hids : Identified positions counter)
    (hp : positions.lookup k = some p) (hout : p.inTier = false) (hin : p'.inTier = true)
    (hactive : p'.state = .active) (hid : p'.positionId = p.positionId)
    (hlands : Lands (entryOf k p') members members') :
    Listed members' (positions.insert k p') where
  sorted := by
    refine hlands.sorted h.sorted fun e he heq => ?_
    obtain ⟨q, hq, hqin, -, hentry⟩ := h.lookup he
    rw [hentry] at heq
    obtain rfl : k = e.position := hids.distinct _ _ p q hp hq (hid.symm.trans heq)
    rw [hp, Option.some.injEq] at hq
    rw [← hq, hout] at hqin
    cases hqin
  entries := by
    intro e
    rw [hlands.mem]
    by_cases hek : e.position = k
    · have hnone : e ∉ members := by
        intro he
        obtain ⟨q, hq, hqin, -⟩ := h.lookup he
        rw [hek, hp, Option.some.injEq] at hq
        rw [← hq, hout] at hqin
        cases hqin
      subst hek
      simp [hin, hnone]
    · rw [Finmap.lookup_insert_of_ne _ hek, ← h.entries e]
      have hne : e ≠ entryOf k p' := fun heq => hek (by rw [heq]; rfl)
      simp [hne]
  active := by
    intro y q hq hqin
    by_cases hy : y = k
    · subst hy
      rw [Finmap.lookup_insert, Option.some.injEq] at hq
      rw [← hq, hactive]
    · exact h.active y q (Finmap.lookup_insert_of_ne _ hy ▸ hq) hqin

-- ---------------------------------------------------------------------------
-- What each operation does where it succeeds
-- ---------------------------------------------------------------------------

theorem settleMember_ok {accTier : ℕ} : settleMember p accTier = .ok p' ↔
    p.tierCheckpoint ≤ accTier ∧ pendingFees accTier p.tierCheckpoint + p.accrued < 2 ^ 64 ∧
      p' = p.leftTier accTier := by
  simp only [settleMember, bind_ok, positionFeePayout_ok, pure_ok]
  constructor
  · rintro ⟨_, ⟨hle, hlt, rfl⟩, rfl⟩
    exact ⟨hle, hlt, rfl⟩
  · rintro ⟨hle, hlt, rfl⟩
    exact ⟨_, ⟨hle, hlt, rfl⟩, rfl⟩

def Promoted (t t' : TopTier) (tierSize : ℕ) (candidate : TierEntry) : PromoteOutcome → Prop
  | .inserted => t.len < tierSize ∧ t'.len = t.len + 1 ∧ t'.accTier = t.accTier ∧
      Lands candidate t.members t'.members
  | .swapped evicted => t.len = tierSize ∧ t'.len = t.len ∧ t'.accTier = t.accTier ∧
      ∃ init, t.members = init ++ [evicted] ∧ Lands candidate init t'.members
  | .rejected => t' = t

theorem promote_ok {t t' : TopTier} {tierSize : ℕ} {candidate : TierEntry}
    {outcome : PromoteOutcome} (hlen : t.len ≤ tierSize) (hpos : 0 < tierSize)
    (hsize : tierSize ≤ MAX_TIER_SIZE) (h : promote t tierSize candidate = .ok (t', outcome)) :
    Promoted t t' tierSize candidate outcome := by
  by_cases hroom : t.len < tierSize
  · obtain ⟨t'', hrun, ⟨entries, rfl⟩, hlands⟩ := promote_room candidate hroom hsize
    rw [hrun, Except.ok.injEq, Prod.mk.injEq] at h
    obtain ⟨rfl, rfl⟩ := h
    exact ⟨hroom, rfl, rfl, hlands⟩
  · obtain ⟨init, lowest, hmem, ⟨-, hrun⟩ | ⟨-, t'', hrun, ⟨entries, rfl⟩, hlands⟩⟩ :=
      promote_full candidate hroom (by omega) (by omega)
    · rw [hrun, Except.ok.injEq, Prod.mk.injEq] at h
      obtain ⟨rfl, rfl⟩ := h
      exact rfl
    · rw [hrun, Except.ok.injEq, Prod.mk.injEq] at h
      obtain ⟨rfl, rfl⟩ := h
      exact ⟨by omega, rfl, rfl, init, hmem, hlands⟩

theorem promote_succeeds {t : TopTier} {tierSize : ℕ} (candidate : TierEntry)
    (hlen : t.len ≤ tierSize) (hpos : 0 < tierSize) (hsize : tierSize ≤ MAX_TIER_SIZE) :
    ∃ t' outcome, promote t tierSize candidate = .ok (t', outcome) := by
  by_cases hroom : t.len < tierSize
  · obtain ⟨t', hrun, -⟩ := promote_room candidate hroom hsize
    exact ⟨t', _, hrun⟩
  · obtain ⟨_, _, -, ⟨-, hrun⟩ | ⟨-, t', hrun, -⟩⟩ :=
      promote_full candidate hroom (by omega) (by omega)
    · exact ⟨t, _, hrun⟩
    · exact ⟨t', _, hrun⟩

theorem promote_swapped {t t' : TopTier} {tierSize : ℕ} {candidate evicted : TierEntry}
    (hlen : t.len ≤ tierSize) (hpos : 0 < tierSize) (hsize : tierSize ≤ MAX_TIER_SIZE)
    (h : promote t tierSize candidate = .ok (t', .swapped evicted)) :
    evicted ∈ t.members ∧ Outranks candidate evicted := by
  by_cases hroom : t.len < tierSize
  · obtain ⟨_, hrun, -⟩ := promote_room candidate hroom hsize
    rw [hrun, Except.ok.injEq, Prod.mk.injEq] at h
    cases h.2
  · obtain ⟨init, lowest, hmem, ⟨-, hrun⟩ | ⟨hout, _, hrun, -⟩⟩ :=
      promote_full candidate hroom (by omega) (by omega)
    · rw [hrun, Except.ok.injEq, Prod.mk.injEq] at h
      cases h.2
    · rw [hrun, Except.ok.injEq, Prod.mk.injEq, PromoteOutcome.swapped.injEq] at h
      obtain ⟨-, rfl⟩ := h
      exact ⟨by simp [hmem], hout⟩

theorem promote_rejected {t t' : TopTier} {tierSize : ℕ} {candidate : TierEntry}
    (hlen : t.len ≤ tierSize) (hpos : 0 < tierSize) (hsize : tierSize ≤ MAX_TIER_SIZE)
    (h : promote t tierSize candidate = .ok (t', .rejected)) :
    t.len = tierSize ∧
      ∃ init lowest, t.members = init ++ [lowest] ∧ ¬Outranks candidate lowest := by
  by_cases hroom : t.len < tierSize
  · obtain ⟨_, hrun, -⟩ := promote_room candidate hroom hsize
    rw [hrun, Except.ok.injEq, Prod.mk.injEq] at h
    cases h.2
  · obtain ⟨init, lowest, hmem, ⟨hout, -⟩ | ⟨-, _, hrun, -⟩⟩ :=
      promote_full candidate hroom (by omega) (by omega)
    · exact ⟨by omega, init, lowest, hmem, hout⟩
    · rw [hrun, Except.ok.injEq, Prod.mk.injEq] at h
      cases h.2

structure Demoted (t t' : TopTier) (k : Pubkey) (removed : TierEntry) : Prop where
  position : removed.position = k
  split : ∃ pre post, t.members = pre ++ removed :: post ∧ t'.members = pre ++ post
  pos : 0 < t.len
  len : t'.len = t.len - 1
  accTier : t'.accTier = t.accTier

theorem demote_ok {t t' : TopTier} {removed : TierEntry} (hlen : t.len ≤ MAX_TIER_SIZE)
    (h : demote t k = .ok (t', some removed)) : Demoted t t' k removed := by
  obtain ⟨hrun, -⟩ | ⟨pre, x, post, t'', hmem, hx, -, hrun, ⟨entries, rfl⟩, hmem'⟩ :=
    demote_spec k hlen
  · rw [hrun] at h
    cases h
  · have hcount := congrArg List.length hmem
    rw [TopTier.length_members hlen, List.length_append, List.length_cons] at hcount
    rw [hrun, Except.ok.injEq, Prod.mk.injEq, Option.some.injEq] at h
    obtain ⟨rfl, rfl⟩ := h
    exact ⟨hx, ⟨pre, post, hmem, hmem'⟩, by omega, rfl, rfl⟩

theorem vacate_ok {t t' : TopTier} {removed : TierEntry} {accTier : ℕ}
    (hlen : t.len ≤ MAX_TIER_SIZE) (h : vacate t k p accTier = .ok (t', p', removed)) :
    Demoted t t' k removed ∧ settleMember p accTier = .ok p' := by
  simp only [vacate, bind_ok, okOr_ok, pure_ok, Prod.mk.injEq] at h
  obtain ⟨⟨_, _⟩, hdemote, _, rfl, _, hsettle, rfl, rfl, rfl⟩ := h
  exact ⟨demote_ok hlen hdemote, hsettle⟩

theorem refreshMember_ok {t t' : TopTier} {tierSize : ℕ} {entry : TierEntry}
    (hlen : t.len ≤ tierSize) (hsize : tierSize ≤ MAX_TIER_SIZE)
    (h : refreshMember t tierSize k entry = .ok t') :
    ∃ pre x post, t.members = pre ++ x :: post ∧ x.position = k ∧
      Lands entry (pre ++ post) t'.members ∧ t'.len = t.len ∧ t'.accTier = t.accTier := by
  simp only [refreshMember, bind_ok, require_ok, pure_ok] at h
  obtain ⟨⟨t₁, removed⟩, hdemote, -, hsome, ⟨t₂, outcome⟩, hpromote, -, hinserted, heq⟩ := h
  obtain rfl : t₂ = t' := heq
  obtain rfl : outcome = .inserted := hinserted
  obtain ⟨x, rfl⟩ := Option.isSome_iff_exists.mp hsome
  have hpromote : promote t₁ tierSize entry = .ok (t₂, .inserted) := hpromote
  obtain ⟨hx, ⟨pre, post, hmem, hmem₁⟩, hpos, hlen₁, hacc₁⟩ := demote_ok (by omega) hdemote
  obtain ⟨-, hlen₂, hacc₂, hlands⟩ := promote_ok (by omega) (by omega) hsize hpromote
  exact ⟨pre, x, post, hmem, hx, hmem₁ ▸ hlands, by omega, hacc₂.trans hacc₁⟩

theorem shrink_ok {t t' : TopTier} {newTierSize : ℕ} {evicted : List TierEntry}
    (hlen : t.len ≤ MAX_TIER_SIZE) (h : shrink t newTierSize = .ok (t', evicted)) :
    evicted = t.members.drop newTierSize ∧ t' = { t with len := min t.len newTierSize } ∧
      t'.members = t.members.take newTierSize := by
  obtain ⟨t'', hrun, rfl, hmem⟩ := shrink_spec newTierSize hlen
  rw [hrun, Except.ok.injEq, Prod.mk.injEq] at h
  obtain ⟨rfl, rfl⟩ := h
  exact ⟨rfl, rfl, hmem⟩

theorem Listed.demote_succeeds {t : TopTier} (h : Listed t.members positions)
    (hlen : t.len ≤ MAX_TIER_SIZE) (hp : positions.lookup k = some p) (hin : p.inTier = true) :
    ∃ t', demote t k = .ok (t', some (entryOf k p)) := by
  obtain ⟨-, hnone⟩ | ⟨pre, x, post, t', hmem, hx, -, hrun, -⟩ := demote_spec k hlen
  · exact absurd rfl (hnone _ (h.mem hp hin))
  · have hxmem : x ∈ t.members := by rw [hmem]; simp
    obtain rfl : x = entryOf k p := h.eq_of_position hxmem (h.mem hp hin) hx
    exact ⟨t', hrun⟩

end Tier

end ByeMachine
