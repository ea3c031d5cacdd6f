import ByeMachine.Common.Guards
import ByeMachine.Common.Rebalance
import ByeMachine.State.WeightIndex

/-!
# The accounting half of a withdrawal

`common/exit_accounting.rs`, shared by `withdraw` and `withdraw_core`.
-/

namespace ByeMachine

open Fallible

/-- What an accounting step writes to the three accounts it mutates, with what it hands back. -/
structure Booked (ε : Type) where
  pool : Pool
  position : Position
  walletStats : WalletStats
  effect : ε

structure WithdrawEffect where
  feesPaid : ℕ
  recordedValue : ℕ
  slotIndex : ℕ
  expectedTotal : ℕ
  blanksBefore : Denomination → ℕ
  wasMember : Bool

/-- The tier leg, drawn only for a member: what is carried into the equal leg, and the checkpoint
after it. -/
def settleTierLeg (position : Position) (accTier : ℕ) : Result (ℕ × ℕ) :=
  if position.inTier then do
    let settled ← positionFeePayout accTier position.tierCheckpoint position.accrued
    pure (settled, accTier)
  else pure (position.accrued, position.tierCheckpoint)

/-- The guards, the two-leg fee settle, the counter deltas and the rebalance. `accrued` is folded in
exactly once. -/
def applyWithdraw (pool : Pool) (position : Position) (walletStats : WalletStats) (accTier : ℕ)
    (now : ℤ) : Result (Booked WithdrawEffect) := do
  assertWeightOpen pool
  require (position.state = .active) (.program .invalidPositionState)
  require (position.lockUntil ≤ now) (.program .positionLocked)
  let wasMember := position.inTier
  let recordedValue := position.recordedValue
  let slotIndex := position.slotIndex
  let (carried, tierCheckpoint) ← settleTierLeg position accTier
  let feesPaid ← positionFeePayout pool.accEqual position.equalCheckpoint carried
  let owedFees ← orArithmeticFailure (Checked.sub pool.owedFees feesPaid)
  let leaf ← weightOf recordedValue
  let wReal ← orArithmeticFailure (Checked.sub pool.wReal leaf)
  let nReal ← orArithmeticFailure (Checked.sub pool.nReal 1)
  let activePositions ← orArithmeticFailure (Checked.sub walletStats.activePositions 1)
  let activeValue ← orArithmeticFailure (Checked.sub walletStats.activeValue recordedValue)
  let targets ← Rebalance.evaluate nReal wReal pool.blankFaces pool.ticketTarget
  let expectedTotal ← WeightIndex.narrowExpectedTotal wReal
  pure {
    pool := { pool with owedFees, wReal, nReal, blanks := targets.toBlanks }
    position := { position with
      tierCheckpoint, equalCheckpoint := pool.accEqual, accrued := 0 }
    walletStats := { walletStats with activePositions, activeValue }
    effect := {
      feesPaid, recordedValue, slotIndex, expectedTotal, blanksBefore := pool.blanks, wasMember } }

end ByeMachine
