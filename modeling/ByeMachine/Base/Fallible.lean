import Mathlib.Algebra.Order.Ring.Nat
import Mathlib.Tactic.ByContra

/-!
# Fallible computations

Guards and conversions in `Except`, checked machine arithmetic on naturals, and
the laws that read a successful computation as the facts it decided. A proof
about a fallible function unfolds it and rewrites with these laws; it never
splits the `Except` by hand.
-/

namespace Fallible

universe u v

variable {ε : Type v} {α β : Type u}

/-- A guard: the given error unless the condition holds. -/
def require (p : Prop) [Decidable p] (e : ε) : Except ε Unit :=
  if p then .ok () else .error e

def okOr (o : Option α) (e : ε) : Except ε α :=
  match o with
  | some a => .ok a
  | none => .error e

-- ---------------------------------------------------------------------------
-- Reading a success
-- ---------------------------------------------------------------------------

theorem bind_ok {x : Except ε α} {f : α → Except ε β} {b : β} :
    x >>= f = .ok b ↔ ∃ a, x = .ok a ∧ f a = .ok b := by
  cases x <;> simp [bind, Except.bind]

theorem pure_ok {a b : α} : (pure a : Except ε α) = .ok b ↔ a = b := by
  simp [pure, Except.pure]

theorem require_ok {p : Prop} [Decidable p] {e : ε} {u : Unit} :
    require p e = .ok u ↔ p := by
  unfold require
  split <;> simp_all

theorem okOr_ok {o : Option α} {e : ε} {a : α} : okOr o e = .ok a ↔ o = some a := by
  cases o <;> simp [okOr]

theorem throw_ok {e : ε} {a : α} : (throw e : Except ε α) = .ok a ↔ False := by
  simp [throw, throwThe, MonadExceptOf.throw]

@[simp] theorem ok_bind {a : α} {f : α → Except ε β} : (Except.ok a >>= f) = f a := rfl

@[simp] theorem error_bind {e : ε} {f : α → Except ε β} :
    (Except.error e >>= f) = .error e := rfl

theorem require_pos {p : Prop} [Decidable p] {e : ε} (h : p) : require p e = .ok () :=
  if_pos h

theorem require_neg {p : Prop} [Decidable p] {e : ε} (h : ¬p) : require p e = .error e :=
  if_neg h

@[simp] theorem okOr_some {e : ε} {a : α} : okOr (some a) e = .ok a := rfl

@[simp] theorem okOr_none {e : ε} : okOr (none : Option α) e = .error e := rfl

theorem bind_error {x : Except ε α} {f : α → Except ε β} {e : ε} :
    x >>= f = .error e ↔ x = .error e ∨ ∃ a, x = .ok a ∧ f a = .error e := by
  cases x <;> simp [bind, Except.bind]

theorem require_error {p : Prop} [Decidable p] {e e' : ε} :
    require p e = .error e' ↔ ¬p ∧ e = e' := by
  unfold require
  split <;> simp_all

theorem okOr_error {o : Option α} {e e' : ε} :
    okOr o e = .error e' ↔ o = none ∧ e = e' := by
  cases o <;> simp [okOr]

theorem pure_error {a : α} {e : ε} : (pure a : Except ε α) = .error e ↔ False := by
  simp [pure, Except.pure]

theorem bind_congr_ok {x : Except ε α} {f g : α → Except ε β} (h : ∀ a, x = .ok a → f a = g a) :
    x >>= f = x >>= g := by
  cases x with
  | error e => rfl
  | ok a => exact h a rfl

theorem isOk_iff {x : Except ε α} : x.isOk = true ↔ ∃ a, x = .ok a := by
  cases x <;> simp [Except.isOk, Except.toBool]

theorem toOption_eq_some {x : Except ε α} {a : α} : x.toOption = some a ↔ x = .ok a := by
  cases x <;> simp [Except.toOption]

def errorOf : Except ε α → Option ε
  | .error e => some e
  | .ok _ => none

theorem errorOf_eq_some {x : Except ε α} {e : ε} : errorOf x = some e ↔ x = .error e := by
  cases x <;> simp [errorOf]

-- ---------------------------------------------------------------------------
-- Folds
-- ---------------------------------------------------------------------------

section
variable {γ : Type u} {f : β → γ → Except ε β}

/-- A fold whose steps fail whatever was accumulated succeeds exactly where every step does. -/
theorem foldlM_succeeds {P : γ → Prop} (hstep : ∀ b a, (∃ b', f b a = .ok b') ↔ P a)
    (l : List γ) (b : β) : (∃ b', l.foldlM f b = .ok b') ↔ ∀ a ∈ l, P a := by
  induction l generalizing b with
  | nil => simp [pure, Except.pure]
  | cons a l ih =>
    simp only [List.foldlM_cons, bind_ok, List.forall_mem_cons]
    constructor
    · rintro ⟨r, b', hb', hr⟩
      exact ⟨(hstep b a).mp ⟨b', hb'⟩, (ih b').mp ⟨r, hr⟩⟩
    · rintro ⟨ha, hl⟩
      obtain ⟨b', hb'⟩ := (hstep b a).mpr ha
      obtain ⟨r, hr⟩ := (ih b').mpr hl
      exact ⟨r, b', hb', hr⟩

theorem foldlM_keeps {Q : β → Prop} (hstep : ∀ b a b', Q b → f b a = .ok b' → Q b') {l : List γ}
    {b r : β} (hb : Q b) (h : l.foldlM f b = .ok r) : Q r := by
  induction l generalizing b with
  | nil =>
    simp only [List.foldlM_nil, pure_ok] at h
    exact h ▸ hb
  | cons a l ih =>
    simp only [List.foldlM_cons, bind_ok] at h
    obtain ⟨b', hb', hr⟩ := h
    exact ih (hstep b a b' hb hb') hr

theorem foldlM_eq_foldl {g : β → γ → β} (hstep : ∀ b a b', f b a = .ok b' → b' = g b a) {l : List γ}
    {b r : β} (h : l.foldlM f b = .ok r) : r = l.foldl g b := by
  induction l generalizing b with
  | nil =>
    simp only [List.foldlM_nil, pure_ok] at h
    exact h.symm
  | cons a l ih =>
    simp only [List.foldlM_cons, bind_ok] at h
    obtain ⟨b', hb', hr⟩ := h
    rw [List.foldl_cons, ← hstep b a b' hb']
    exact ih hr

end

-- ---------------------------------------------------------------------------
-- Failures that do not happen
-- ---------------------------------------------------------------------------

def Avoids (e : ε) (m : Except ε α) : Prop := m ≠ .error e

namespace Avoids

variable {e e' : ε} {a : α} {m : Except ε α} {f : α → Except ε β}

protected theorem pure : Avoids e (pure a : Except ε α) := fun h => by cases h

protected theorem bind (hm : Avoids e m) (hf : ∀ a, m = .ok a → Avoids e (f a)) :
    Avoids e (m >>= f) := by
  cases m with
  | error e' => exact fun h => hm (by cases h; rfl)
  | ok a => exact hf a rfl

theorem require {p : Prop} [Decidable p] (h : e' ≠ e) : Avoids e (require p e') := by
  unfold Fallible.require
  split
  · exact Avoids.pure
  · exact fun hfail => h (Except.error.inj hfail)

theorem okOr {o : Option α} (h : o.isSome) : Avoids e (okOr o e') := by
  cases o with
  | none => cases h
  | some a => exact Avoids.pure

end Avoids

theorem mapM_eq_ok {γ δ : Type} {f : γ → Except ε δ} {g : γ → δ} {l : List γ}
    (h : ∀ a ∈ l, f a = .ok (g a)) : l.mapM f = .ok (l.map g) := by
  induction l with
  | nil => rfl
  | cons a l ih =>
    rw [List.mapM_cons, h a (by simp), ih fun b hb => h b (by simp [hb])]
    rfl

end Fallible

-- ---------------------------------------------------------------------------
-- Checked arithmetic at a width
-- ---------------------------------------------------------------------------

namespace Checked

def add (w a b : ℕ) : Option ℕ := if a + b < 2 ^ w then some (a + b) else none

def sub (a b : ℕ) : Option ℕ := if b ≤ a then some (a - b) else none

def mul (w a b : ℕ) : Option ℕ := if a * b < 2 ^ w then some (a * b) else none

def div (a b : ℕ) : Option ℕ := if b = 0 then none else some (a / b)

def narrow (w a : ℕ) : Option ℕ := if a < 2 ^ w then some a else none

theorem add_some {w a b c : ℕ} : add w a b = some c ↔ a + b < 2 ^ w ∧ c = a + b := by
  by_cases h : a + b < 2 ^ w <;> simp [add, h, eq_comm]

theorem sub_some {a b c : ℕ} : sub a b = some c ↔ b ≤ a ∧ c = a - b := by
  by_cases h : b ≤ a <;> simp [sub, h, eq_comm]

theorem mul_some {w a b c : ℕ} : mul w a b = some c ↔ a * b < 2 ^ w ∧ c = a * b := by
  by_cases h : a * b < 2 ^ w <;> simp [mul, h, eq_comm]

theorem div_some {a b c : ℕ} : div a b = some c ↔ b ≠ 0 ∧ c = a / b := by
  by_cases h : b = 0 <;> simp [div, h, eq_comm]

theorem narrow_some {w a c : ℕ} : narrow w a = some c ↔ a < 2 ^ w ∧ c = a := by
  by_cases h : a < 2 ^ w <;> simp [narrow, h, eq_comm]

theorem add_of_lt {w a b : ℕ} (h : a + b < 2 ^ w) : add w a b = some (a + b) := if_pos h

theorem add_of_not_lt {w a b : ℕ} (h : ¬a + b < 2 ^ w) : add w a b = none := if_neg h

theorem sub_of_not_le {a b : ℕ} (h : ¬b ≤ a) : sub a b = none := if_neg h

theorem sub_of_le {a b : ℕ} (h : b ≤ a) : sub a b = some (a - b) := if_pos h

theorem div_of_ne {a b : ℕ} (h : b ≠ 0) : div a b = some (a / b) := if_neg h

end Checked
