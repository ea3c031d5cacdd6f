import Mathlib.Data.List.Basic
import Mathlib.Data.Option.Basic

/-!
# Checked replay

A log read entry by entry against a state, each entry only where the state
allows it.
-/

namespace Replay

universe u v

variable {σ : Type u} {ε : Type v}

/-- The state after the log, where every entry was allowed when its turn came. -/
def replay (read : σ → ε → Option σ) (log : List ε) (s : σ) : Option σ := log.foldlM read s

variable {read : σ → ε → Option σ} {log more : List ε} {e : ε} {s s' s'' : σ}

@[simp] theorem replay_nil : replay read [] = some := rfl

@[simp] theorem replay_cons :
    replay read (e :: log) s = (read s e).bind (replay read log) := by
  simp only [replay, List.foldlM_cons]
  rfl

theorem replay_append :
    replay read (log ++ more) s = (replay read log s).bind (replay read more) := by
  simp only [replay, List.foldlM_append]
  rfl

theorem replay_trans (h : replay read log s = some s') (h' : replay read more s' = some s'') :
    replay read (log ++ more) s = some s'' := by
  rw [replay_append, h]
  exact h'

theorem replay_map {α : Type v} (f : α → ε) (log : List α) (s : σ) :
    replay read (log.map f) s = replay (fun s a => read s (f a)) log s := by
  simp only [replay, List.foldlM_map]

theorem replay_silent (h : ∀ e ∈ log, ∀ s, read s e = some s) (s : σ) :
    replay read log s = some s := by
  induction log with
  | nil => rfl
  | cons e log ih =>
    rw [replay_cons, h e (by simp)]
    exact ih fun e' he' => h e' (by simp [he'])

end Replay
