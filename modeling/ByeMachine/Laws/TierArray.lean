import ByeMachine.Common.Tier
import ByeMachine.Laws.WeightIndex
import Mathlib.Data.List.OfFn

/-!
# The tier array as a list of members

`entries[..len]` read as a list, and what the loops of `promote`, `demote` and
`shrink` do to it. Every array access they make is in bounds.
-/

namespace ByeMachine

open Fallible

-- ---------------------------------------------------------------------------
-- Arrays as lists
-- ---------------------------------------------------------------------------

section Arrays

variable {n : ℕ} {α : Type}

theorem ofFn_update (xs : Fin n → α) (i : Fin n) (x : α) :
    List.ofFn (Function.update xs i x) = (List.ofFn xs).set i x := by
  apply List.ext_getElem
  · simp
  · intro k hk hk'
    simp [List.getElem_set, Function.update_apply, Fin.ext_iff, eq_comm]

theorem index_ofFn {f : Fin n → α} {a b : List α} {x : α}
    (h : List.ofFn f = a ++ x :: b) : index f a.length = .ok x := by
  have hlen : a.length < n := by
    have := congrArg List.length h
    simp at this; omega
  rw [index_of_lt hlen]
  have hget : (List.ofFn f)[a.length]? = some x := by rw [h]; simp
  rw [List.getElem?_ofFn, dif_pos hlen] at hget
  exact congrArg Except.ok (Option.some.inj hget)

theorem setIndex_ofFn {xs : Fin n → α} {a b : List α} {x y : α}
    (h : List.ofFn xs = a ++ x :: b) :
    ∃ xs', setIndex xs a.length y = .ok xs' ∧ List.ofFn xs' = a ++ y :: b := by
  have hlen : a.length < n := by
    have := congrArg List.length h
    simp at this; omega
  refine ⟨_, setIndex_of_lt hlen, ?_⟩
  rw [ofFn_update, h]
  simp

end Arrays

namespace Tier

-- ---------------------------------------------------------------------------
-- Rank
-- ---------------------------------------------------------------------------

/-- `a` ranks strictly better than `b`. -/
def Outranks (a b : TierEntry) : Prop :=
  b.value < a.value ∨ a.value = b.value ∧
    (a.activatedAt < b.activatedAt ∨ a.activatedAt = b.activatedAt ∧ a.positionId < b.positionId)

theorem rank_lt {a b : TierEntry} : rank a b = .lt ↔ Outranks a b := by
  simp only [rank, Outranks, Ordering.then_eq_lt, compare_lt_iff_lt, compare_eq_iff_eq,
    eq_comm (a := b.value)]

theorem Outranks.trans {a b c : TierEntry} (hab : Outranks a b) (hbc : Outranks b c) :
    Outranks a c := by
  unfold Outranks at *
  omega

theorem Outranks.irrefl (a : TierEntry) : ¬Outranks a a := by
  unfold Outranks
  omega

theorem not_outranks {a b : TierEntry} (hab : ¬Outranks a b) (hne : a.positionId ≠ b.positionId) :
    Outranks b a := by
  unfold Outranks at *
  omega

/-- `entries[..len]`: strictly sorted best-first. -/
def Sorted (l : List TierEntry) : Prop := l.Pairwise Outranks

-- ---------------------------------------------------------------------------
-- Members
-- ---------------------------------------------------------------------------

end Tier

/-- `entries[..len]`. -/
def TopTier.members (t : TopTier) : List TierEntry := (List.ofFn t.entries).take t.len

def TopTier.spare (t : TopTier) : List TierEntry := (List.ofFn t.entries).drop t.len

theorem TopTier.ofFn_entries (t : TopTier) : List.ofFn t.entries = t.members ++ t.spare :=
  (List.take_append_drop _ _).symm

theorem TopTier.length_members {t : TopTier} (h : t.len ≤ MAX_TIER_SIZE) :
    t.members.length = t.len := by
  simpa [TopTier.members] using h

theorem members_of_ofFn {t : TopTier} {l r : List TierEntry}
    (h : List.ofFn t.entries = l ++ r) (hlen : t.len = l.length) : t.members = l := by
  simp [TopTier.members, h, hlen]

namespace Tier

/-- The shift opens a gap below every entry the candidate does not outrank, from the end. -/
theorem shiftDown_spec (candidate : TierEntry) {idx : ℕ}
    {entries : Fin MAX_TIER_SIZE → TierEntry} {a b : List TierEntry} {g : TierEntry}
    (h : List.ofFn entries = a ++ g :: b) (hlen : a.length = idx) :
    ∃ pre post g' entries', shiftDown candidate idx entries = .ok (pre.length, entries') ∧
      a = pre ++ post ∧ List.ofFn entries' = pre ++ g' :: (post ++ b) ∧
      (∀ e ∈ post, Outranks candidate e) ∧
      (∀ e, pre.getLast? = some e → ¬Outranks candidate e) := by
  induction idx generalizing entries a g b with
  | zero =>
    obtain rfl := List.length_eq_zero_iff.mp hlen
    exact ⟨[], [], g, entries, rfl, rfl, h, by simp, by simp⟩
  | succ idx ih =>
    obtain ⟨a, e, rfl⟩ : ∃ a' e, a = a' ++ [e] :=
      ⟨a.dropLast, a.getLast (by rintro rfl; simp at hlen), (List.dropLast_append_getLast _).symm⟩
    have hidx : a.length = idx := by simpa using hlen
    have hread : index entries idx = .ok e := by
      rw [← hidx]
      exact index_ofFn (b := g :: b) (by simpa using h)
    by_cases hlt : rank candidate e = .lt
    · obtain ⟨entries₁, hset, hentries₁⟩ := setIndex_ofFn (y := e) h
      rw [show (a ++ [e]).length = idx + 1 by simp [hidx]] at hset
      obtain ⟨pre, post, g', entries', hrun, ha, hentries', hpost, hpre⟩ :=
        ih (a := a) (g := e) (b := e :: b) (by simpa using hentries₁) hidx
      refine ⟨pre, post ++ [e], g', entries', ?_, by rw [ha]; simp, by simpa using hentries', ?_,
        hpre⟩
      · rw [shiftDown, hread, ok_bind, if_pos hlt, hset, ok_bind, hrun]
      · intro x hx
        rcases List.mem_append.mp hx with hx | hx
        · exact hpost x hx
        · rw [List.mem_singleton.mp hx]
          exact rank_lt.mp hlt
    · refine ⟨a ++ [e], [], g, entries, ?_, by simp, by simpa using h, by simp, ?_⟩
      · rw [shiftDown, hread, ok_bind, if_neg hlt]
        simp [hidx]
      · intro x hx
        obtain rfl : e = x := by simpa using hx
        exact fun hout => hlt (rank_lt.mpr hout)

theorem place_spec (candidate : TierEntry) {gap : ℕ} {entries : Fin MAX_TIER_SIZE → TierEntry}
    {a b : List TierEntry} {g : TierEntry} (h : List.ofFn entries = a ++ g :: b)
    (hlen : a.length = gap) :
    ∃ pre post entries', place candidate gap entries = .ok entries' ∧ a = pre ++ post ∧
      List.ofFn entries' = (pre ++ candidate :: post) ++ b ∧
      (∀ e ∈ post, Outranks candidate e) ∧
      (∀ e, pre.getLast? = some e → ¬Outranks candidate e) := by
  obtain ⟨pre, post, g', entries₁, hrun, ha, hentries, hpost, hpre⟩ :=
    shiftDown_spec candidate h hlen
  obtain ⟨entries', hset, hentries'⟩ := setIndex_ofFn (y := candidate) hentries
  exact ⟨pre, post, entries', by rw [place, hrun]; exact hset, ha, by simpa using hentries',
    hpost, hpre⟩

/-- Where a candidate lands: below nothing it outranks, above everything it does. -/
structure Lands (candidate : TierEntry) (members members' : List TierEntry) : Prop where
  split : ∃ pre post, members = pre ++ post ∧ members' = pre ++ candidate :: post ∧
    (∀ e ∈ post, Outranks candidate e) ∧ (∀ e, pre.getLast? = some e → ¬Outranks candidate e)

-- ---------------------------------------------------------------------------
-- Promotion
-- ---------------------------------------------------------------------------

theorem promote_room {t : TopTier} {tierSize : ℕ} (candidate : TierEntry)
    (hroom : t.len < tierSize) (hsize : tierSize ≤ MAX_TIER_SIZE) :
    ∃ t', promote t tierSize candidate = .ok (t', .inserted) ∧
      (∃ entries, t' = { t with entries, len := t.len + 1 }) ∧
      Lands candidate t.members t'.members := by
  have hlen : t.members.length = t.len := TopTier.length_members (by omega)
  have hmax : MAX_TIER_SIZE = 20 := rfl
  obtain ⟨g, b, hspare⟩ : ∃ g b, t.spare = g :: b := by
    cases hs : t.spare with
    | nil =>
      have hall := congrArg List.length t.ofFn_entries
      simp [hs, hlen] at hall; omega
    | cons g b => exact ⟨g, b, rfl⟩
  obtain ⟨pre, post, entries, hrun, hsplit, hentries, hpost, hpre⟩ :=
    place_spec candidate (by rw [t.ofFn_entries, hspare]) hlen
  have hadd : Checked.add 8 t.len 1 = some (t.len + 1) := Checked.add_of_lt (by omega)
  refine ⟨{ t with entries, len := t.len + 1 }, ?_, ⟨entries, rfl⟩, ⟨pre, post, hsplit, ?_,
    hpost, hpre⟩⟩
  · simp [promote, if_pos hroom, hrun, hadd, pure, Except.pure]
  · refine members_of_ofFn hentries ?_
    have := congrArg List.length hsplit
    simp only [List.length_append, List.length_cons] at this ⊢
    omega

theorem promote_full {t : TopTier} {tierSize : ℕ} (candidate : TierEntry)
    (hfull : ¬t.len < tierSize) (hpos : 0 < t.len) (hlen : t.len ≤ MAX_TIER_SIZE) :
    ∃ init lowest, t.members = init ++ [lowest] ∧
      ((¬Outranks candidate lowest ∧ promote t tierSize candidate = .ok (t, .rejected)) ∨
        Outranks candidate lowest ∧ ∃ t', promote t tierSize candidate = .ok (t', .swapped lowest) ∧
          (∃ entries, t' = { t with entries }) ∧ Lands candidate init t'.members) := by
  have hmem : t.members.length = t.len := TopTier.length_members hlen
  obtain ⟨init, lowest, hinit⟩ : ∃ init lowest, t.members = init ++ [lowest] := by
    refine ⟨t.members.dropLast, t.members.getLast ?_, (List.dropLast_append_getLast _).symm⟩
    rintro hnil
    rw [hnil] at hmem
    simp at hmem; omega
  have hlast : init.length = t.len - 1 := by
    have := congrArg List.length hinit
    simp at this; omega
  have hall : List.ofFn t.entries = init ++ lowest :: t.spare := by
    rw [t.ofFn_entries, hinit]; simp
  have hread : index t.entries (t.len - 1) = .ok lowest := hlast ▸ index_ofFn hall
  refine ⟨init, lowest, hinit, ?_⟩
  by_cases hout : Outranks candidate lowest
  · obtain ⟨pre, post, entries, hrun, hsplit, hentries, hpost, hpre⟩ :=
      place_spec candidate hall hlast
    refine .inr ⟨hout, { t with entries }, ?_, ⟨entries, rfl⟩, ⟨pre, post, hsplit, ?_, hpost,
      hpre⟩⟩
    · simp [promote, if_neg hfull, subOne_of_pos hpos, hread, rank_lt.mpr hout, hrun, pure,
        Except.pure]
    · refine members_of_ofFn hentries ?_
      have := congrArg List.length hsplit
      simp only [List.length_append, List.length_cons] at this ⊢
      omega
  · refine .inl ⟨hout, ?_⟩
    have hne : rank candidate lowest ≠ .lt := fun h => hout (rank_lt.mp h)
    simp [promote, if_neg hfull, subOne_of_pos hpos, hread, hne, pure, Except.pure]

-- ---------------------------------------------------------------------------
-- Demotion
-- ---------------------------------------------------------------------------

theorem getElem?_members {t : TopTier} {i : ℕ} (hi : i < t.len) (hmax : i < MAX_TIER_SIZE) :
    t.members[i]? = some (t.entries ⟨i, hmax⟩) := by
  rw [TopTier.members, List.getElem?_take, if_pos hi, List.getElem?_ofFn, dif_pos hmax]

theorem findMember_none {t : TopTier} {position : Pubkey} (hlen : t.len ≤ MAX_TIER_SIZE)
    (h : findMember t position = none) : ∀ e ∈ t.members, e.position ≠ position := by
  intro e he
  obtain ⟨i, hi⟩ := List.mem_iff_getElem?.mp he
  have hlt : i < t.len := by
    have := (List.getElem?_eq_some_iff.mp hi).1
    rwa [TopTier.length_members hlen] at this
  have hmax : i < MAX_TIER_SIZE := by omega
  rw [getElem?_members hlt hmax] at hi
  rw [findMember, List.find?_range_eq_none] at h
  have hno := h i hlt
  rw [dif_pos hmax, Option.some.inj hi] at hno
  simpa using hno

theorem findMember_some {t : TopTier} {position : Pubkey} {idx : ℕ} (hlen : t.len ≤ MAX_TIER_SIZE)
    (h : findMember t position = some idx) :
    ∃ pre x post, t.members = pre ++ x :: post ∧ pre.length = idx ∧ x.position = position ∧
      ∀ e ∈ pre, e.position ≠ position := by
  rw [findMember, List.find?_range_eq_some] at h
  obtain ⟨hfound, hlt, hbefore⟩ := h
  have hlt := List.mem_range.mp hlt
  have hmax : idx < MAX_TIER_SIZE := by omega
  have hget := getElem?_members hlt hmax
  obtain ⟨hidx, hx⟩ := List.getElem?_eq_some_iff.mp hget
  refine ⟨t.members.take idx, t.entries ⟨idx, hmax⟩, t.members.drop (idx + 1), ?_, ?_, ?_, ?_⟩
  · rw [← hx, List.getElem_cons_drop, List.take_append_drop]
  · simp; omega
  · simpa [hmax] using hfound
  · intro e he
    obtain ⟨j, hj⟩ := List.mem_iff_getElem?.mp he
    have hji : j < idx := by
      have := (List.getElem?_eq_some_iff.mp hj).1
      simp at this; omega
    rw [List.getElem?_take, if_pos hji, getElem?_members (by omega) (by omega)] at hj
    have hno := hbefore j hji
    rw [dif_pos (show j < MAX_TIER_SIZE by omega), Option.some.inj hj] at hno
    simpa using hno

theorem closeGap_spec {entries : Fin MAX_TIER_SIZE → TierEntry} {pre post rest : List TierEntry}
    {x : TierEntry} (h : List.ofFn entries = pre ++ x :: (post ++ rest)) :
    ∃ y entries', closeGap entries pre.length (pre.length + post.length) = .ok entries' ∧
      List.ofFn entries' = pre ++ post ++ y :: rest := by
  rw [closeGap, Nat.add_sub_cancel_left]
  induction post generalizing entries pre x with
  | nil => exact ⟨x, entries, by simp [pure, Except.pure], by simpa using h⟩
  | cons p post ih =>
    have hread : index entries (pre.length + 1) = .ok p := by
      have := index_ofFn (f := entries) (a := pre ++ [x]) (b := post ++ rest) (x := p)
        (by simpa using h)
      simpa using this
    obtain ⟨entries₁, hset, hentries₁⟩ := setIndex_ofFn (y := p) h
    obtain ⟨y, entries', hrun, hentries'⟩ := @ih entries₁ (pre ++ [p]) p
      (by simpa using hentries₁)
    refine ⟨y, entries', ?_, by simpa using hentries'⟩
    simp only [List.length_cons, List.range'_succ, List.foldlM_cons, hread, hset, ok_bind]
    simpa using hrun

theorem demote_spec {t : TopTier} (position : Pubkey) (hlen : t.len ≤ MAX_TIER_SIZE) :
    (demote t position = .ok (t, none) ∧ ∀ e ∈ t.members, e.position ≠ position) ∨
      ∃ pre x post t', t.members = pre ++ x :: post ∧ x.position = position ∧
        (∀ e ∈ pre, e.position ≠ position) ∧ demote t position = .ok (t', some x) ∧
        (∃ entries, t' = { t with entries, len := t.len - 1 }) ∧ t'.members = pre ++ post := by
  cases hfind : findMember t position with
  | none =>
    refine .inl ⟨?_, findMember_none hlen hfind⟩
    simp [demote, require_pos hlen, hfind, pure, Except.pure]
  | some idx =>
    obtain ⟨pre, x, post, hmem, hidx, hx, hpre⟩ := findMember_some hlen hfind
    have hcount := congrArg List.length hmem
    rw [TopTier.length_members hlen] at hcount
    simp only [List.length_append, List.length_cons] at hcount
    have hall : List.ofFn t.entries = pre ++ x :: (post ++ t.spare) := by
      rw [t.ofFn_entries, hmem]; simp
    have hread : index t.entries idx = .ok x := hidx ▸ index_ofFn hall
    obtain ⟨y, entries, hgap, hentries⟩ := closeGap_spec hall
    have hlast : pre.length + post.length = t.len - 1 := by omega
    rw [hidx, ← hidx, hlast] at hgap
    refine .inr ⟨pre, x, post, { t with entries, len := t.len - 1 }, hmem, hx, hpre, ?_,
      ⟨entries, rfl⟩, members_of_ofFn hentries (by simp; omega)⟩
    rw [hidx] at hgap
    simp [demote, require_pos hlen, hfind, hread, subOne_of_pos (show 0 < t.len by omega), hgap,
      pure, Except.pure]

-- ---------------------------------------------------------------------------
-- Shrinking
-- ---------------------------------------------------------------------------

theorem mapM_index_ofFn {entries : Fin MAX_TIER_SIZE → TierEntry} {a l b : List TierEntry}
    (h : List.ofFn entries = a ++ (l ++ b)) :
    (List.range' a.length l.length).mapM (fun i => index entries i) = .ok l := by
  induction l generalizing a with
  | nil => rfl
  | cons x l ih =>
    have hread : index entries a.length = .ok x := index_ofFn (by simpa using h)
    have hrest := ih (a := a ++ [x]) (by simpa using h)
    simp only [List.length_append, List.length_singleton] at hrest
    simp [List.range'_succ, hread, hrest, pure, Except.pure]

theorem shrink_spec {t : TopTier} (newTierSize : ℕ) (hlen : t.len ≤ MAX_TIER_SIZE) :
    ∃ t', shrink t newTierSize = .ok (t', t.members.drop newTierSize) ∧
      t' = { t with len := min t.len newTierSize } ∧ t'.members = t.members.take newTierSize := by
  have hcount := TopTier.length_members hlen
  by_cases hle : t.len ≤ newTierSize
  · refine ⟨t, ?_, by rw [min_eq_left hle], ?_⟩
    · simp [shrink, if_pos hle, List.drop_eq_nil_of_le (by omega : t.members.length ≤ newTierSize),
        pure, Except.pure]
    · rw [List.take_of_length_le (by omega)]
  · have hsplit : List.ofFn t.entries
        = t.members.take newTierSize ++ (t.members.drop newTierSize ++ t.spare) := by
      rw [t.ofFn_entries, ← List.append_assoc, List.take_append_drop]
    have htake : (t.members.take newTierSize).length = newTierSize := by simp; omega
    have hdrop : (t.members.drop newTierSize).length = t.len - newTierSize := by simp; omega
    have hread := mapM_index_ofFn hsplit
    rw [htake, hdrop] at hread
    refine ⟨{ t with len := newTierSize }, ?_, by rw [min_eq_right (by omega)], ?_⟩
    · simp [shrink, if_neg hle, evictedEntries, require_pos hlen, hread, pure, Except.pure]
    · exact members_of_ofFn hsplit htake.symm

end Tier

end ByeMachine
