import ByeMachine.State.Accounts
import ByeMachine.Common.Math

/-! # Guards: `common/guards.rs` -/

namespace ByeMachine

open Fallible

/-- The weight-freeze guard: an open batch's draw domain must stay fixed until it resolves. -/
def assertWeightOpen (pool : Pool) : Result Unit :=
  require (pool.openBatches = 0) (.program .rollBatchInFlight)

/-- A position whose depositor is the pool's Treasury 02 identity leaves `Pending` only through
`activate_acquired`. -/
def assertNotTreasuryPosition (pool depositor : Pubkey) : Result Unit :=
  require (depositor ≠ .treasury02 pool) (.program .treasuryPositionNotEligible)

end ByeMachine
