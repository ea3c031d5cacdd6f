import Mathlib.Data.List.Basic
import Mathlib.Data.List.Perm.Subperm

/-!
# The best of a selection

What it is for a list to hold the best `k` of `n` candidates, best first, under
a strict order. There is at most one such list, and a selection that grows by
one candidate keeps its best by inserting, by swapping out the last or by
leaving the candidate out.
-/

namespace Selection

variable {α : Type} {R : α → α → Prop} {k n : ℕ} {P : α → Prop} {kept kept' init : List α}
  {x last : α}

/-- `kept` is the best `k` of the `n` candidates that `P` holds of, best first. -/
structure Best (R : α → α → Prop) (k n : ℕ) (P : α → Prop) (kept : List α) : Prop where
  sorted : kept.Pairwise R
  candidate : ∀ e ∈ kept, P e
  length : kept.length = min k n
  above : ∀ e ∈ kept, ∀ f, P f → f ∉ kept → R e f

theorem nodup_of_pairwise (hirrefl : ∀ a, ¬R a a) (h : kept.Pairwise R) : kept.Nodup := by
  refine h.imp fun {a b} hab heq => ?_
  subst heq
  exact hirrefl a hab

section
variable (hirrefl : ∀ a, ¬R a a) (htrans : ∀ a b c, R a b → R b c → R a c)
include hirrefl htrans

theorem asymm {a b : α} (hab : R a b) : ¬R b a := fun hba => hirrefl a (htrans a b a hab hba)

theorem Best.subset (h : Best R k n P kept) (h' : Best R k n P kept') : kept ⊆ kept' := by
  intro e he
  by_contra hout
  -- Something is kept in its place, and each of the two would outrank the other.
  have hother : ¬kept' ⊆ kept := fun hsub => by
    have hperm := ((nodup_of_pairwise hirrefl h'.sorted).subperm hsub).perm_of_length_le
      (Nat.le_of_eq (h.length.trans h'.length.symm))
    exact hout (hperm.mem_iff.mpr he)
  obtain ⟨f, hf, hfout⟩ : ∃ f ∈ kept', f ∉ kept := by
    simpa [List.subset_def] using hother
  exact asymm hirrefl htrans (h.above e he f (h'.candidate f hf) hfout)
    (h'.above f hf e (h.candidate e he) hout)

theorem eq_of_pairwise_perm (h : kept.Pairwise R) (h' : kept'.Pairwise R) (hperm : kept.Perm kept') :
    kept = kept' :=
  hperm.eq_of_pairwise (fun _ _ _ _ hab hba => absurd hba (asymm hirrefl htrans hab)) h h'

theorem Best.unique (h : Best R k n P kept) (h' : Best R k n P kept') : kept = kept' := by
  refine eq_of_pairwise_perm hirrefl htrans h.sorted h'.sorted ?_
  exact ((nodup_of_pairwise hirrefl h.sorted).subperm (h.subset hirrefl htrans h')).perm_of_length_le
    (Nat.le_of_eq (h'.length.trans h.length.symm))

end

theorem Best.all (hirrefl : ∀ a, ¬R a a) {seen : List α} (h : Best R k seen.length (· ∈ seen) kept)
    (hroom : seen.length ≤ k) : ∀ f ∈ seen, f ∈ kept := by
  have hperm := ((nodup_of_pairwise hirrefl h.sorted).subperm h.candidate).perm_of_length_le
    (Nat.le_of_eq (h.length.trans (Nat.min_eq_right hroom)).symm)
  exact fun f hf => hperm.mem_iff.mpr hf

theorem best_take {l : List α} (h : l.Pairwise R) (k : ℕ) :
    Best R k l.length (· ∈ l) (l.take k) where
  sorted := h.sublist (List.take_sublist k l)
  candidate := fun _ he => List.mem_of_mem_take he
  length := List.length_take
  above := by
    have hsplit : (l.take k ++ l.drop k).Pairwise R := by rwa [List.take_append_drop]
    intro e he f hf hout
    rw [← List.take_append_drop k l, List.mem_append] at hf
    exact (List.pairwise_append.mp hsplit).2.2 e he f (hf.resolve_left hout)

-- ---------------------------------------------------------------------------
-- One candidate more
-- ---------------------------------------------------------------------------

theorem Best.insert (h : Best R k n P kept) (hall : ∀ f, P f → f ∈ kept) (hroom : n < k)
    (hsorted : kept'.Pairwise R) (hmem : ∀ e, e ∈ kept' ↔ e = x ∨ e ∈ kept)
    (hlength : kept'.length = kept.length + 1) :
    Best R k (n + 1) (fun e => e = x ∨ P e) kept' where
  sorted := hsorted
  candidate := fun e he => ((hmem e).mp he).imp_right (h.candidate e)
  length := by
    rw [hlength, h.length]
    omega
  above := fun e _ f hf hout => absurd ((hmem f).mpr (hf.imp_right (hall f))) hout

theorem Best.swap (htrans : ∀ a b c, R a b → R b c → R a c) (h : Best R k n P kept)
    (hkept : kept = init ++ [last]) (hfull : kept.length = k) (hx : R x last)
    (hsorted : kept'.Pairwise R) (hmem : ∀ e, e ∈ kept' ↔ e = x ∨ e ∈ init)
    (hlength : kept'.length = kept.length) :
    Best R k (n + 1) (fun e => e = x ∨ P e) kept' := by
  subst hkept
  have hlast : ∀ e ∈ kept', R e last := by
    intro e he
    rcases (hmem e).mp he with rfl | he
    · exact hx
    · exact (List.pairwise_append.mp h.sorted).2.2 e he last (by simp)
  refine ⟨hsorted, fun e he => ((hmem e).mp he).imp_right fun he => h.candidate e (by simp [he]),
    ?_, ?_⟩
  · have hlen := h.length
    omega
  · intro e he f hf hout
    have hf : P f := hf.resolve_left fun hfx => hout ((hmem f).mpr (.inl hfx))
    by_cases hflast : f = last
    · subst hflast
      exact hlast e he
    · have hnot : f ∉ init ++ [last] := by
        rw [List.mem_append, List.mem_singleton, not_or]
        exact ⟨fun hin => hout ((hmem f).mpr (.inr hin)), hflast⟩
      exact htrans e last f (hlast e he) (h.above last (by simp) f hf hnot)

theorem Best.leaveOut (htrans : ∀ a b c, R a b → R b c → R a c) (h : Best R k n P kept)
    (hkept : kept = init ++ [last]) (hfull : kept.length = k) (hx : R last x) :
    Best R k (n + 1) (fun e => e = x ∨ P e) kept := by
  refine ⟨h.sorted, fun e he => .inr (h.candidate e he), ?_, ?_⟩
  · have hlen := h.length
    omega
  · intro e he f hf hout
    rcases hf with rfl | hf
    · subst hkept
      rcases List.mem_append.mp he with he | he
      · exact htrans e last f ((List.pairwise_append.mp h.sorted).2.2 e he last (by simp)) hx
      · rwa [List.mem_singleton.mp he]
    · exact h.above e he f hf hout

end Selection
