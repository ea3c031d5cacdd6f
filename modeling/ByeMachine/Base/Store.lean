import Mathlib.Data.Finmap
import Mathlib.Algebra.BigOperators.Group.Multiset.Basic
import Mathlib.Algebra.Order.BigOperators.Group.Multiset
import Mathlib.Algebra.Order.Ring.Nat

/-!
# Finite stores and their totals

A store is Mathlib's finite map at a constant value type. This module adds what
a ledger needs of one: the total of a measure over the entries, how writing and
removing an entry move it, and the part of a store a predicate selects.
-/

universe u v

abbrev Store (κ : Type u) (α : Type v) := Finmap fun _ : κ => α

namespace Store

variable {κ : Type u} {α : Type v} [DecidableEq κ]

def total (f : κ → α → ℕ) (m : Store κ α) : ℕ :=
  (m.entries.map fun e => f e.1 e.2).sum

def restrict (p : κ → α → Bool) (m : Store κ α) : Store κ α where
  entries := m.entries.filter fun e => p e.1 e.2
  nodupKeys := by
    obtain ⟨⟨l⟩, hl⟩ := m
    exact List.NodupKeys.sublist List.filter_sublist hl

-- ---------------------------------------------------------------------------
-- Totals
-- ---------------------------------------------------------------------------

omit [DecidableEq κ] in
@[simp] theorem total_empty (f : κ → α → ℕ) : total f (∅ : Store κ α) = 0 := rfl

theorem total_insert_new {f : κ → α → ℕ} {m : Store κ α} {k : κ} {a : α} (h : k ∉ m) :
    total f (m.insert k a) = f k a + total f m := by
  simp [total, Finmap.entries_insert_of_notMem h]

theorem insert_erase_self {m : Store κ α} {k : κ} {a : α} :
    (m.erase k).insert k a = m.insert k a := by
  apply Finmap.ext_lookup
  intro x
  by_cases hx : x = k
  · subst hx; simp
  · simp [Finmap.lookup_insert_of_ne _ hx, Finmap.lookup_erase_ne hx]

theorem insert_of_lookup {m : Store κ α} {k : κ} {a : α} (h : m.lookup k = some a) :
    m.insert k a = m := by
  apply Finmap.ext_lookup
  intro x
  by_cases hx : x = k
  · subst hx; simp [h]
  · simp [Finmap.lookup_insert_of_ne _ hx]

theorem total_erase {f : κ → α → ℕ} {m : Store κ α} {k : κ} {a : α}
    (h : m.lookup k = some a) : f k a + total f (m.erase k) = total f m := by
  have hnew := total_insert_new (f := f) (a := a) (Finmap.notMem_erase_self (a := k) (s := m))
  rw [insert_erase_self, insert_of_lookup h] at hnew
  exact hnew.symm

theorem total_replace {f : κ → α → ℕ} {m : Store κ α} {k : κ} {a b : α}
    (h : m.lookup k = some a) :
    f k a + total f (m.insert k b) = f k b + total f m := by
  have hnew := total_insert_new (f := f) (a := b) (Finmap.notMem_erase_self (a := k) (s := m))
  rw [insert_erase_self] at hnew
  have herase := total_erase (f := f) h
  omega

theorem induction_on {motive : Store κ α → Prop} (m : Store κ α) (empty : motive ∅)
    (insert : ∀ m k a, k ∉ m → motive m → motive (m.insert k a)) : motive m := by
  refine Finmap.induction_on m fun l => ?_
  induction l using AList.insertRec with
  | H0 => exact empty
  | IH k a l hk ih =>
    have hinsert := insert l.toFinmap k a hk ih
    rwa [Finmap.insert_toFinmap] at hinsert

theorem le_total {f : κ → α → ℕ} {m : Store κ α} {k : κ} {a : α}
    (h : m.lookup k = some a) : f k a ≤ total f m := by
  have := total_erase (f := f) h
  omega

theorem total_le {f g : κ → α → ℕ} {m : Store κ α}
    (h : ∀ k a, m.lookup k = some a → f k a ≤ g k a) : total f m ≤ total g m := by
  apply Multiset.sum_map_le_sum_map
  intro e he
  exact h e.1 e.2 (Finmap.lookup_eq_some_iff.mpr he)

theorem total_lt {f g : κ → α → ℕ} {m : Store κ α} {k : κ} {a : α} (ha : m.lookup k = some a)
    (hlt : f k a < g k a) (h : ∀ k a, m.lookup k = some a → f k a ≤ g k a) :
    total f m < total g m := by
  have hf := total_erase (f := f) ha
  have hg := total_erase (f := g) ha
  have hrest : total f (m.erase k) ≤ total g (m.erase k) := total_le fun k' b hb => by
    by_cases hk : k' = k
    · subst hk
      simp at hb
    · exact h k' b (Finmap.lookup_erase_ne hk ▸ hb)
  omega

theorem total_congr {f g : κ → α → ℕ} {m : Store κ α}
    (h : ∀ k a, m.lookup k = some a → f k a = g k a) : total f m = total g m :=
  le_antisymm (total_le fun k a ha => (h k a ha).le) (total_le fun k a ha => (h k a ha).ge)

theorem length_le_total {f : κ → α → ℕ} {ks : List κ} {m : Store κ α} (hnodup : ks.Nodup)
    (h : ∀ k ∈ ks, ∃ a, m.lookup k = some a ∧ 1 ≤ f k a) : ks.length ≤ total f m := by
  induction ks generalizing m with
  | nil => exact Nat.zero_le _
  | cons k ks ih =>
    obtain ⟨hk, hnodup⟩ := List.nodup_cons.mp hnodup
    obtain ⟨a, ha, hone⟩ := h k (by simp)
    have hrest : ks.length ≤ total f (m.erase k) := ih hnodup fun k' hk' => by
      rw [Finmap.lookup_erase_ne (by rintro rfl; exact hk hk')]
      exact h k' (by simp [hk'])
    have := total_erase (f := f) ha
    simp only [List.length_cons]
    omega

theorem total_le_length {f : κ → α → ℕ} {ks : List κ} {m : Store κ α}
    (hone : ∀ k a, m.lookup k = some a → f k a ≤ 1)
    (hmem : ∀ k a, m.lookup k = some a → f k a ≠ 0 → k ∈ ks) : total f m ≤ ks.length := by
  induction m using induction_on generalizing ks with
  | empty => exact Nat.zero_le _
  | insert m k a hk ih =>
    have hnew : (m.insert k a).lookup k = some a := Finmap.lookup_insert _
    have hold : ∀ k' b, m.lookup k' = some b →
        (m.insert k a).lookup k' = some b ∧ k' ≠ k := by
      intro k' b hb
      have hne : k' ≠ k := by
        rintro rfl
        rw [Finmap.lookup_eq_none.mpr hk] at hb
        cases hb
      exact ⟨by rw [Finmap.lookup_insert_of_ne _ hne, hb], hne⟩
    have hone' : ∀ k' b, m.lookup k' = some b → f k' b ≤ 1 :=
      fun k' b hb => hone k' b (hold k' b hb).1
    rw [total_insert_new hk]
    by_cases hzero : f k a = 0
    · rw [hzero, Nat.zero_add]
      exact ih hone' fun k' b hb => hmem k' b (hold k' b hb).1
    · have hin := hmem k a hnew hzero
      have hrest : total f m ≤ (ks.erase k).length := ih hone' fun k' b hb hnonzero =>
        (List.mem_erase_of_ne (hold k' b hb).2).mpr (hmem k' b (hold k' b hb).1 hnonzero)
      rw [List.length_erase_of_mem hin] at hrest
      have hpos := List.length_pos_of_mem hin
      have := hone k a hnew
      omega

-- ---------------------------------------------------------------------------
-- Evolution
-- ---------------------------------------------------------------------------

/-- Every entry left was there before, and came from it by `R`. -/
def Evolves (R : α → α → Prop) (m m' : Store κ α) : Prop :=
  ∀ k b, m'.lookup k = some b → ∃ a, m.lookup k = some a ∧ R a b

section
variable {R S : α → α → Prop} {m m' m'' : Store κ α} {k : κ} {a b : α}

theorem Evolves.refl (hrefl : ∀ a, R a a) : Evolves R m m := fun _ a ha => ⟨a, ha, hrefl a⟩

theorem Evolves.trans (htrans : ∀ a b c, R a b → R b c → R a c) (h : Evolves R m m')
    (h' : Evolves R m' m'') : Evolves R m m'' := by
  intro x c hc
  obtain ⟨b, hb, hbc⟩ := h' x c hc
  obtain ⟨a, ha, hab⟩ := h x b hb
  exact ⟨a, ha, htrans a b c hab hbc⟩

theorem Evolves.mono (hRS : ∀ a b, R a b → S a b) (h : Evolves R m m') : Evolves S m m' := by
  intro x b hb
  obtain ⟨a, ha, hab⟩ := h x b hb
  exact ⟨a, ha, hRS a b hab⟩

theorem Evolves.write (hrefl : ∀ a, R a a) (ha : m.lookup k = some a) (hab : R a b) :
    Evolves R m (m.insert k b) := by
  intro x c hc
  by_cases hx : x = k
  · subst hx
    rw [Finmap.lookup_insert, Option.some.injEq] at hc
    exact ⟨a, ha, hc ▸ hab⟩
  · exact ⟨c, (Finmap.lookup_insert_of_ne _ hx) ▸ hc, hrefl c⟩

theorem Evolves.erase (hrefl : ∀ a, R a a) : Evolves R m (m.erase k) := by
  intro x c hc
  by_cases hx : x = k
  · subst hx
    simp at hc
  · exact ⟨c, Finmap.lookup_erase_ne hx ▸ hc, hrefl c⟩

theorem Evolves.total_le {f g : κ → α → ℕ} (hfg : ∀ k a b, R a b → f k b ≤ g k a)
    (h : Evolves R m m') : total f m' ≤ total g m := by
  induction m' using induction_on generalizing m with
  | empty => exact Nat.zero_le _
  | insert m' k b hk ih =>
    obtain ⟨a, ha, hab⟩ := h k b (Finmap.lookup_insert _)
    rw [total_insert_new hk, ← total_erase (f := g) ha]
    refine Nat.add_le_add (hfg k a b hab) (ih fun x c hc => ?_)
    have hne : x ≠ k := by
      rintro rfl
      exact hk (Finmap.mem_of_lookup_eq_some hc)
    obtain ⟨d, hd, hdc⟩ := h x c ((Finmap.lookup_insert_of_ne _ hne).trans hc)
    exact ⟨d, (Finmap.lookup_erase_ne hne).trans hd, hdc⟩

end

-- ---------------------------------------------------------------------------
-- Restriction
-- ---------------------------------------------------------------------------

theorem lookup_restrict {p : κ → α → Bool} {m : Store κ α} {k : κ} {a : α} :
    (restrict p m).lookup k = some a ↔ m.lookup k = some a ∧ p k a = true := by
  rw [Finmap.lookup_eq_some_iff, Finmap.lookup_eq_some_iff]
  simp [restrict, Multiset.mem_filter]

theorem ext_some {m n : Store κ α} (h : ∀ k a, m.lookup k = some a ↔ n.lookup k = some a) :
    m = n :=
  Finmap.ext_lookup fun k => Option.ext fun a => h k a

theorem restrict_insert_pos {p : κ → α → Bool} {m : Store κ α} {k : κ} {a : α}
    (h : p k a = true) : restrict p (m.insert k a) = (restrict p m).insert k a := by
  apply ext_some
  intro x b
  rw [lookup_restrict]
  by_cases hx : x = k
  · subst hx
    simp only [Finmap.lookup_insert, Option.some.injEq]
    exact ⟨fun hb => hb.1, fun hb => ⟨hb, hb ▸ h⟩⟩
  · simp only [Finmap.lookup_insert_of_ne _ hx, lookup_restrict]

theorem restrict_erase {p : κ → α → Bool} {m : Store κ α} {k : κ} :
    restrict p (m.erase k) = (restrict p m).erase k := by
  apply ext_some
  intro x b
  rw [lookup_restrict]
  by_cases hx : x = k
  · subst hx; simp
  · simp only [Finmap.lookup_erase_ne hx, lookup_restrict]

theorem erase_insert_self {m : Store κ α} {k : κ} {a : α} : (m.insert k a).erase k = m.erase k := by
  apply Finmap.ext_lookup
  intro x
  by_cases hx : x = k
  · subst hx; simp
  · rw [Finmap.lookup_erase_ne hx, Finmap.lookup_insert_of_ne _ hx, Finmap.lookup_erase_ne hx]

theorem notMem_of_lookup {m : Store κ α} {k : κ} (h : m.lookup k = none) : k ∉ m :=
  Finmap.lookup_eq_none.mp h

-- ---------------------------------------------------------------------------
-- What was written
-- ---------------------------------------------------------------------------

/-- Every entry whose key is not among these is as it was. -/
def WritesOnly (keys : List κ) (m m' : Store κ α) : Prop := ∀ k ∉ keys, m'.lookup k = m.lookup k

section WritesOnly

variable {keys : List κ} {m m' m'' : Store κ α} {k : κ} {a : α}

theorem WritesOnly.refl (m : Store κ α) : WritesOnly keys m m := fun _ _ => rfl

theorem WritesOnly.trans (h : WritesOnly keys m m') (h' : WritesOnly keys m' m'') :
    WritesOnly keys m m'' := fun k hk => (h' k hk).trans (h k hk)

theorem WritesOnly.mono {keys' : List κ} (h : WritesOnly keys m m') (hsub : keys ⊆ keys') :
    WritesOnly keys' m m' := fun k hk => h k fun hmem => hk (hsub hmem)

theorem WritesOnly.insert (h : WritesOnly keys m m') (hk : k ∈ keys) :
    WritesOnly keys m (m'.insert k a) := by
  intro x hx
  rw [Finmap.lookup_insert_of_ne _ (by rintro rfl; exact hx hk)]
  exact h x hx

theorem WritesOnly.erase (h : WritesOnly keys m m') (hk : k ∈ keys) :
    WritesOnly keys m (m'.erase k) := by
  intro x hx
  rw [Finmap.lookup_erase_ne (by rintro rfl; exact hx hk)]
  exact h x hx

end WritesOnly

end Store
