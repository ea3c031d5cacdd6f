import ByeMachine.Base.Replay
import ByeMachine.Instructions.Exit
import ByeMachine.Refinement.TierMoves

/-!
# What the tier publishes

`TierChanged{left, entered}` says what a handler did to the membership: whoever
left was a member, whoever entered was none, and nobody else moved.
-/

namespace ByeMachine

open Fallible Replay

def holders (members : List TierEntry) (k : Pubkey) : Bool := members.any fun e => e.position = k

def afterLeaving (members : Pubkey → Bool) : Option Pubkey → Option (Pubkey → Bool)
  | none => some members
  | some k => if members k then some (Function.update members k false) else none

def afterEntering (members : Pubkey → Bool) : Option Pubkey → Option (Pubkey → Bool)
  | none => some members
  | some k => if members k then none else some (Function.update members k true)

/-- The members after one `TierChanged`: first the one that left, then the one that entered. -/
def afterChange (members : Pubkey → Bool) : TierChange → Option (Pubkey → Bool)
  | none => some members
  | some (left, entered) => (afterLeaving members left).bind (afterEntering · entered)

@[simp] theorem afterChange_none (members : Pubkey → Bool) :
    afterChange members none = some members := rfl

@[simp] theorem afterChange_leaving (members : Pubkey → Bool) (left : Option Pubkey) :
    afterChange members (some (left, none)) = afterLeaving members left := by
  simp [afterChange, afterEntering]

-- ---------------------------------------------------------------------------
-- The array
-- ---------------------------------------------------------------------------

section Array

variable {t t' : TopTier} {tierSize : ℕ} {k : Pubkey} {entry evicted removed : TierEntry}
  {members members' pre post : List TierEntry}

theorem holders_eq_true : holders members k = true ↔ ∃ e ∈ members, e.position = k := by
  simp [holders]

theorem holders_eq_false : holders members k = false ↔ ∀ e ∈ members, e.position ≠ k := by
  simp [holders]

theorem holders_lands (h : Tier.Lands entry members members') :
    holders members' = Function.update (holders members) entry.position true := by
  funext k
  rw [Bool.eq_iff_iff, holders_eq_true]
  by_cases hk : k = entry.position
  · subst hk
    simp only [Function.update_self, iff_true]
    exact ⟨entry, h.mem.mpr (.inl rfl), rfl⟩
  · rw [Function.update_of_ne hk, holders_eq_true]
    constructor
    · rintro ⟨e, he, rfl⟩
      rcases h.mem.mp he with rfl | he
      · exact absurd rfl hk
      · exact ⟨e, he, rfl⟩
    · rintro ⟨e, he, rfl⟩
      exact ⟨e, h.mem.mpr (.inr he), rfl⟩

theorem holders_without (hnodup : ((pre ++ removed :: post).map (·.position)).Nodup) :
    holders (pre ++ post)
      = Function.update (holders (pre ++ removed :: post)) removed.position false := by
  funext k
  simp only [List.map_append, List.map_cons, List.nodup_middle, List.nodup_cons] at hnodup
  rw [Bool.eq_iff_iff, holders_eq_true]
  by_cases hk : k = removed.position
  · subst hk
    simp only [Function.update_self, Bool.false_eq_true, iff_false]
    rintro ⟨e, he, heq⟩
    refine hnodup.1 ?_
    rw [← List.map_append]
    exact List.mem_map.mpr ⟨e, he, heq⟩
  · rw [Function.update_of_ne hk, holders_eq_true]
    constructor
    · rintro ⟨e, he, rfl⟩
      exact ⟨e, by rcases List.mem_append.mp he with he | he <;> simp [he], rfl⟩
    · rintro ⟨e, he, rfl⟩
      rw [List.mem_append, List.mem_cons] at he
      rcases he with he | rfl | he
      · exact ⟨e, List.mem_append_left _ he, rfl⟩
      · exact absurd rfl hk
      · exact ⟨e, List.mem_append_right _ he, rfl⟩

end Array

-- ---------------------------------------------------------------------------
-- One change
-- ---------------------------------------------------------------------------

section Changes

variable {t t' : TopTier} {tierSize accTier : ℕ} {k poolKey : Pubkey} {p q : Position}
  {entry removed : TierEntry} {remaining : List AccountMeta} {positions positions' : Positions}
  {change : TierChange} {members : List TierEntry}

/-- What offering a candidate to the tier says of it. -/
inductive Offered (tierSize : ℕ) (t : TopTier) (entry : TierEntry) :
    TopTier → TierChange → Prop where
  | inserted {t' : TopTier} (hpromote : Tier.promote t tierSize entry = .ok (t', .inserted)) :
      Offered tierSize t entry t' (some (none, some entry.position))
  | swapped {t' : TopTier} {evicted : TierEntry}
      (hpromote : Tier.promote t tierSize entry = .ok (t', .swapped evicted)) :
      Offered tierSize t entry t' (some (some evicted.position, some entry.position))
  | rejected {t' : TopTier} (hpromote : Tier.promote t tierSize entry = .ok (t', .rejected)) :
      Offered tierSize t entry t' none

theorem Offered.afterChange (h : Offered tierSize t entry t' change) (hlen : t.len ≤ tierSize)
    (hpos : 0 < tierSize) (hsize : tierSize ≤ MAX_TIER_SIZE)
    (hnodup : (t.members.map (·.position)).Nodup)
    (hnew : holders t.members entry.position = false) :
    afterChange (holders t.members) change = some (holders t'.members) := by
  cases h with
  | inserted hpromote =>
    obtain ⟨-, -, -, hlands⟩ := Tier.promote_ok hlen hpos hsize hpromote
    simp [afterChange, afterLeaving, afterEntering, hnew, holders_lands hlands]
  | @swapped evicted hpromote =>
    obtain ⟨-, -, -, init, hmembers, hlands⟩ := Tier.promote_ok hlen hpos hsize hpromote
    rw [hmembers] at hnodup hnew ⊢
    have hleft : holders (init ++ []) = Function.update (holders (init ++ [evicted])) evicted.position
        false := holders_without hnodup
    rw [List.append_nil] at hleft
    have hmember : holders (init ++ [evicted]) evicted.position = true :=
      holders_eq_true.mpr ⟨evicted, by simp, rfl⟩
    -- The candidate is not the one that leaves, so it is still none of the members.
    have hstill : holders init entry.position = false :=
      holders_eq_false.mpr fun e he => holders_eq_false.mp hnew e (by simp [he])
    simp only [afterChange, afterLeaving, hmember, if_true, Option.bind_some, ← hleft, afterEntering,
      hstill, Bool.false_eq_true, if_false, ← holders_lands hlands]
  | rejected hpromote =>
    obtain rfl : t' = t := Tier.promote_ok hlen hpos hsize hpromote
    rfl

theorem promoteActivated_offered {entered : Bool} {displaced : Option Pubkey}
    (h : promoteActivated t tierSize entry remaining positions
      = .ok (t', positions', entered, displaced)) :
    Offered tierSize t entry t' (if entered then some (displaced, some entry.position) else none) := by
  simp only [promoteActivated, bind_ok] at h
  obtain ⟨⟨t₁, outcome⟩, hpromote, h⟩ := h
  cases outcome with
  | inserted =>
    simp only [pure_ok, Prod.mk.injEq] at h
    obtain ⟨rfl, -, rfl, rfl⟩ := h
    exact .inserted hpromote
  | swapped evicted =>
    simp only [bind_ok, pure_ok, Prod.mk.injEq] at h
    obtain ⟨_, -, rfl, -, rfl, rfl⟩ := h
    exact .swapped hpromote
  | rejected =>
    simp only [pure_ok, Prod.mk.injEq] at h
    obtain ⟨rfl, -, rfl, -⟩ := h
    exact .rejected hpromote

theorem crossAndSettle_offered
    (h : crossAndSettle t tierSize entry.position p entry remaining positions
      = .ok (t', q, positions', change)) : Offered tierSize t entry t' change := by
  simp only [crossAndSettle, bind_ok] at h
  obtain ⟨⟨t₁, p₁, crossed⟩, hcross, h⟩ := h
  have hcross := crossIntoTier_ok hcross
  cases crossed with
  | inserted =>
    simp only [pure_ok, Prod.mk.injEq] at h
    obtain ⟨rfl, -, -, rfl⟩ := h
    exact .inserted hcross.1
  | swapped evicted =>
    simp only [bind_ok, pure_ok, Prod.mk.injEq] at h
    obtain ⟨_, -, rfl, -, -, rfl⟩ := h
    exact .swapped hcross.1
  | rejected =>
    simp only [pure_ok, Prod.mk.injEq] at h
    obtain ⟨rfl, -, -, rfl⟩ := h
    exact .rejected hcross.1

theorem settleCrossed_offered {crossed : Tier.CrossOutcome} {left : Option Pubkey}
    (hcross : Tier.crossIntoTier t tierSize p entry t.accTier = .ok (t', q, crossed))
    (h : settleCrossed remaining positions t.accTier crossed = .ok (positions', left)) :
    Offered tierSize t entry t' (some (left, some entry.position)) := by
  have hcross := crossIntoTier_ok hcross
  cases crossed with
  | inserted =>
    simp only [settleCrossed, pure_ok, Prod.mk.injEq] at h
    obtain ⟨-, rfl⟩ := h
    exact .inserted hcross.1
  | swapped evicted =>
    simp only [settleCrossed, bind_ok, pure_ok, Prod.mk.injEq] at h
    obtain ⟨_, -, -, rfl⟩ := h
    exact .swapped hcross.1
  | rejected => simp only [settleCrossed, throw_ok] at h

theorem vacate_change (hlen : t.len ≤ MAX_TIER_SIZE) (hnodup : (t.members.map (·.position)).Nodup)
    (h : Tier.vacate t k p accTier = .ok (t', q, removed)) :
    afterLeaving (holders t.members) (some k) = some (holders t'.members) := by
  obtain ⟨⟨rfl, ⟨pre, post, hmembers, hmembers'⟩, -, -, -⟩, -⟩ := Tier.vacate_ok hlen h
  rw [hmembers] at hnodup ⊢
  have hmember : holders (pre ++ removed :: post) removed.position = true :=
    holders_eq_true.mpr ⟨removed, by simp, rfl⟩
  rw [hmembers', afterLeaving, if_pos hmember, holders_without hnodup]

theorem vacateAndFill_change (hlen : t.len ≤ tierSize) (hsize : tierSize ≤ MAX_TIER_SIZE)
    (hnodup : (t.members.map (·.position)).Nodup)
    (hfree : ∀ kc pc, positions.lookup kc = some pc → pc.pool = poolKey → pc.inTier = false →
      holders t.members kc = false)
    (h : vacateAndFill t tierSize poolKey k p remaining positions = .ok (t', q, positions', change)) :
    afterChange (holders t.members) change = some (holders t'.members) := by
  simp only [vacateAndFill, bind_ok, pure_ok, Prod.mk.injEq, Prod.exists] at h
  obtain ⟨t₁, _, removed, hvacate, _, _, entered, hfill, rfl, -, -, rfl⟩ := h
  have hleft := vacate_change (hlen.trans hsize) hnodup hvacate
  obtain ⟨⟨hremoved, ⟨pre, post, hmembers, hmembers₁⟩, hpos, hlen₁, -⟩, -⟩ :=
    Tier.vacate_ok (hlen.trans hsize) hvacate
  simp only [afterChange, hleft, Option.bind_some]
  unfold Tier.fillVacancyFromCandidate at hfill
  split at hfill
  · simp only [pure_ok, Prod.mk.injEq] at hfill
    obtain ⟨rfl, -, rfl⟩ := hfill
    rfl
  · next info _ =>
    simp only [loadPosition, Tier.fillVacancy, Tier.isEligibleCandidate, bind_ok, okOr_ok,
      require_ok, pure_ok, Prod.mk.injEq, Bool.and_eq_true, Bool.not_eq_true', Prod.exists] at hfill
    obtain ⟨-, -, pc, hpc, -, hpool, -, ⟨-, hout⟩, _, ⟨_, _, hpromote, -, rfl, rfl⟩, rfl, -,
      rfl⟩ := hfill
    obtain ⟨-, -, -, hlands⟩ := Tier.promote_ok (by omega) (by omega) hsize hpromote
    -- It was no member before the departure, and so is none after it.
    have hnew : holders t₁.members info.key = false := by
      have hbefore := hfree info.key pc hpc hpool hout
      rw [hmembers] at hbefore
      rw [hmembers₁]
      refine holders_eq_false.mpr fun e he => holders_eq_false.mp hbefore e ?_
      rcases List.mem_append.mp he with he | he <;> simp [he]
    have hentered := holders_lands hlands
    rw [show (Tier.entryOf info.key pc).position = info.key from rfl] at hentered
    rw [afterEntering, hnew, if_neg (by decide), hentered]

theorem refreshMember_holders (hlen : t.len ≤ tierSize) (hsize : tierSize ≤ MAX_TIER_SIZE)
    (hnodup : (t.members.map (·.position)).Nodup) (h : Tier.refreshMember t tierSize k entry = .ok t')
    (hentry : entry.position = k) : holders t'.members = holders t.members := by
  obtain ⟨pre, x, post, hmembers, hx, hlands, -, -⟩ := Tier.refreshMember_ok hlen hsize h
  rw [hmembers] at hnodup ⊢
  have hmember : holders (pre ++ x :: post) k = true := holders_eq_true.mpr ⟨x, by simp, hx⟩
  rw [holders_lands hlands, holders_without hnodup, hentry, hx, Function.update_idem, ← hmember,
    Function.update_eq_self]

theorem recordTier_change {outcome : RecordOutcome} {value : ℕ} (hlen : t.len ≤ tierSize)
    (hpos : 0 < tierSize) (hsize : tierSize ≤ MAX_TIER_SIZE)
    (hnodup : (t.members.map (·.position)).Nodup)
    (hfree : ∀ kc pc, positions.lookup kc = some pc → pc.pool = poolKey → pc.inTier = false →
      holders t.members kc = false)
    (hout : p.inTier = false → holders t.members k = false)
    (h : recordTier outcome t tierSize poolKey k p value remaining positions
      = .ok (t', q, positions', change)) :
    afterChange (holders t.members) change = some (holders t'.members) := by
  unfold recordTier at h
  split at h
  · split at h
    · exact vacateAndFill_change hlen hsize hnodup hfree h
    · simp only [pure_ok, Prod.mk.injEq] at h
      obtain ⟨rfl, -, -, rfl⟩ := h
      rfl
  · split at h
    · simp only [bind_ok, pure_ok, Prod.mk.injEq] at h
      obtain ⟨_, hrefresh, rfl, -, -, rfl⟩ := h
      have hsame := refreshMember_holders hlen hsize hnodup hrefresh rfl
      rw [hsame]
      rfl
    · next hmember =>
      have hoffered : Offered tierSize t ⟨k, value, p.activatedAt, p.positionId⟩ t' change :=
        crossAndSettle_offered h
      exact hoffered.afterChange hlen hpos hsize hnodup (hout (by simpa using hmember))

theorem withdrawTier_change {wasMember : Bool} (hlen : t.len ≤ tierSize)
    (hsize : tierSize ≤ MAX_TIER_SIZE) (hnodup : (t.members.map (·.position)).Nodup)
    (hfree : ∀ kc pc, positions.lookup kc = some pc → pc.pool = poolKey → pc.inTier = false →
      holders t.members kc = false)
    (h : withdrawTier wasMember t tierSize poolKey k p remaining positions
      = .ok (t', q, positions', change)) :
    afterChange (holders t.members) change = some (holders t'.members) := by
  unfold withdrawTier at h
  split at h
  · exact vacateAndFill_change hlen hsize hnodup hfree h
  · simp only [pure_ok, Prod.mk.injEq] at h
    obtain ⟨rfl, -, -, rfl⟩ := h
    rfl

theorem removeDeparted_change {index index' : WeightIndex} {departure : Option WeightDeparture}
    (hlen : t.len ≤ MAX_TIER_SIZE) (hnodup : (t.members.map (·.position)).Nodup)
    (h : removeDeparted index t k p departure = .ok (index', t', q, change)) :
    afterChange (holders t.members) change = some (holders t'.members) := by
  cases departure with
  | none =>
    simp only [removeDeparted, pure_ok, Prod.mk.injEq] at h
    obtain ⟨-, rfl, -, rfl⟩ := h
    rfl
  | some departure =>
    simp only [removeDeparted, bind_ok, pure_ok, Prod.mk.injEq, Prod.exists] at h
    obtain ⟨_, -, _, _, _, hvacated, -, rfl, -, rfl⟩ := h
    unfold vacateDeparted at hvacated
    split at hvacated
    · simp only [bind_ok, pure_ok, Prod.mk.injEq, Prod.exists] at hvacated
      obtain ⟨_, _, _, hvacate, rfl, -, rfl⟩ := hvacated
      have hleft := vacate_change hlen hnodup hvacate
      simp only [afterChange, hleft, Option.bind_some, afterEntering]
    · simp only [pure_ok, Prod.mk.injEq] at hvacated
      obtain ⟨rfl, -, rfl⟩ := hvacated
      rfl

/-- A shrink's evicted members leave one after the other, best first. -/
theorem replay_evicted {kept evicted : List TierEntry}
    (hnodup : ((kept ++ evicted).map (·.position)).Nodup) :
    replay (fun members (e : TierEntry) => afterLeaving members (some e.position)) evicted
      (holders (kept ++ evicted)) = some (holders kept) := by
  induction evicted with
  | nil => simp
  | cons e evicted ih =>
    have hmember : holders (kept ++ e :: evicted) e.position = true :=
      holders_eq_true.mpr ⟨e, by simp, rfl⟩
    have hrest : ((kept ++ evicted).map (·.position)).Nodup :=
      hnodup.sublist (List.Sublist.map _ (by simp))
    rw [replay_cons, afterLeaving, if_pos hmember, Option.bind_some, ← holders_without hnodup]
    exact ih hrest

theorem settleEvicted_events {slot : ℕ} {evicted : List TierEntry} {events : List Event}
    (h : settleEvicted remaining accTier poolKey slot evicted positions = .ok (positions', events)) :
    events = evicted.map fun e => .tierChanged poolKey slot (some e.position) none := by
  induction evicted generalizing positions events with
  | nil =>
    simp only [settleEvicted, pure_ok, Prod.mk.injEq] at h
    obtain ⟨-, rfl⟩ := h
    rfl
  | cons e evicted ih =>
    simp only [settleEvicted, bind_ok, pure_ok, Prod.mk.injEq, Prod.exists] at h
    obtain ⟨_, -, _, _, hrest, rfl, rfl⟩ := h
    rw [List.map_cons, ← ih hrest]

end Changes

end ByeMachine
