import ByeMachine.Chain

/-! # Operator promotion: `instructions/tier/update_tier.rs` -/

namespace ByeMachine

open Fallible

/-- Whoever the candidate displaced is settled; a candidate that displaced nobody is refused. -/
def settleCrossed (remaining : List AccountMeta) (positions : Positions) (accTier : ℕ) :
    Tier.CrossOutcome → Result (Positions × Option Pubkey)
  | .inserted => pure (positions, none)
  | .swapped evicted => do
    let positions ← Tier.settleDisplacedMember remaining positions evicted accTier
    pure (positions, some evicted.position)
  | .rejected => throw (.program .candidateOutranked)

/-- The pool is read-only here: no weight moves, and no freeze guard is asked. -/
def updateTier (clock : Clock) (c : Chain) (operator poolKey positionKey : Pubkey)
    (remaining : List AccountMeta) : Outcome := do
  let _ ← loadForOperator c operator
  let pool ← c.loadPool poolKey
  let topTier ← c.loadTopTier poolKey
  let position ← c.loadPositionOf poolKey positionKey
  require (Tier.isEligibleCandidate position.state position.inTier)
    (.program .invalidPositionState)
  let accTier := topTier.accTier
  let (topTier, position, crossed) ← Tier.crossIntoTier topTier pool.tierSize position
    (Tier.entryOf positionKey position) accTier
  let (positions, left) ← settleCrossed remaining c.positions accTier crossed
  pure ({ c with
    positions := positions.insert positionKey position
    topTiers := c.topTiers.insert (.topTier poolKey) topTier },
    [.tierChanged poolKey clock.slot left (some positionKey)])

end ByeMachine
