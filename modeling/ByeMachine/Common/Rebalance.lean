import ByeMachine.Common.Math

/-!
# The blank controller

`common/rebalance.rs`: how many blanks of each denomination bring the pool's
ticket price closest to its target.
-/

namespace ByeMachine

open Fallible

/-- A blank-denomination target: `$1`/`$2`/`$5` counts respectively. -/
structure BlankTargets where
  b1 : ℕ
  b2 : ℕ
  b5 : ℕ
  deriving DecidableEq, Repr

def BlankTargets.toBlanks (b : BlankTargets) : Denomination → ℕ := ![b.b1, b.b2, b.b5]

namespace Rebalance

def absDiff (a b : ℕ) : Result ℕ :=
  if b ≤ a then okOr (Checked.sub a b) (.panic "a >= b by the branch condition")
  else okOr (Checked.sub b a) (.panic "b > a by the branch condition")

/-- `|T·(w_real + Σ b_d·w_d) − C·(n_real + Σ b_d)|`, the absolute ticket-price error a
candidate blank set would leave. -/
def score (ticketTarget weightC wReal nReal : ℕ) (weights counts : Denomination → ℕ) :
    Result ℕ := do
  let (weighted, totalCount) ← [0, 1, 2].foldlM (fun (weighted, totalCount) d => do
    let contribution ← orArithmeticFailure (Checked.mul 128 (weights d) (counts d))
    let weighted ← orArithmeticFailure (Checked.add 128 weighted contribution)
    let totalCount ← orArithmeticFailure (Checked.add 128 totalCount (counts d))
    pure (weighted, totalCount)) (wReal, nReal)
  let lhs ← orArithmeticFailure (Checked.mul 128 ticketTarget weighted)
  let rhs ← orArithmeticFailure (Checked.mul 128 weightC totalCount)
  absDiff lhs rhs

/-- What the scan minimizes, lexicographically: the price error, then the total blanks, then the
`$1` count, then the `$5` count. -/
structure Key where
  score : ℕ
  totalBlanks : ℕ
  a1 : ℕ
  a5 : ℕ
  deriving DecidableEq, Repr

def Key.lt (a b : Key) : Prop :=
  a.score < b.score ∨ a.score = b.score ∧
    (a.totalBlanks < b.totalBlanks ∨ a.totalBlanks = b.totalBlanks ∧
      (a.a1 < b.a1 ∨ a.a1 = b.a1 ∧ a.a5 < b.a5))

instance (a b : Key) : Decidable (a.lt b) := inferInstanceAs (Decidable (_ ∨ _))

/-- The scan's `(a1, a5, delta)`, in the order its three loops visit them. -/
def candidates : List (ℕ × ℕ × ℕ) :=
  [0, 1].flatMap fun a1 => [0, 1].flatMap fun a5 => [0, 1].map fun delta => (a1, a5, delta)

/-- One turn of the scan: keep the candidate with the lesser key. -/
def scanStep (t c wReal nReal : ℕ) (weights : Denomination → ℕ) (b2Star : ℕ)
    (best : Option (Key × BlankTargets)) (candidate : ℕ × ℕ × ℕ) :
    Result (Option (Key × BlankTargets)) := do
  let (a1, a5, delta) := candidate
  let b2 ← orArithmeticFailure (Checked.add 128 b2Star delta)
  let candidateScore ← score t c wReal nReal weights ![a1, b2, a5]
  let totalBlanks ← orArithmeticFailure
    ((Checked.add 128 a1 b2).bind fun v => Checked.add 128 v a5)
  let key : Key := ⟨candidateScore, totalBlanks, a1, a5⟩
  let b1 ← orArithmeticFailure (Checked.narrow 32 a1)
  let b2 ← orArithmeticFailure (Checked.narrow 32 b2)
  let b5 ← orArithmeticFailure (Checked.narrow 32 a5)
  pure <| some <| match best with
    | none => (key, ⟨b1, b2, b5⟩)
    | some (bestKey, bestCandidate) =>
      if key.lt bestKey then (key, ⟨b1, b2, b5⟩) else (bestKey, bestCandidate)

/-- The deterministic blank-targeting algorithm: a closed-form `$2` anchor plus an 8-candidate
scan. A real set already over weight yields zero blanks rather than an error. -/
def evaluate (nReal wReal : ℕ) (blankFaces : Denomination → ℕ) (ticketTarget : ℕ) :
    Result BlankTargets :=
  if nReal = 0 then pure ⟨0, 0, 0⟩ else do
    let c := WEIGHT_C
    let t := ticketTarget
    let w0 ← weightOf (blankFaces 0)
    let w1 ← weightOf (blankFaces 1)
    let w2 ← weightOf (blankFaces 2)
    let weights : Denomination → ℕ := ![w0, w1, w2]
    let scaledN ← orArithmeticFailure (Checked.mul 128 nReal c)
    let scaledW ← orArithmeticFailure (Checked.mul 128 t wReal)
    let num := scaledN - scaledW
    let scaledW2 ← orArithmeticFailure (Checked.mul 128 t (weights 1))
    let den2 ← orArithmeticFailure (Checked.sub scaledW2 c)
    require (0 < den2) (.program .arithmeticFailure)
    let b2Star ← orArithmeticFailure (Checked.div num den2)
    let best ← candidates.foldlM (scanStep t c wReal nReal weights b2Star) none
    let best ← okOr best (.panic "the 8-candidate scan always yields a result")
    pure best.2

end Rebalance

end ByeMachine
