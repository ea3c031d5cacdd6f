import ByeMachine.State.Accounts

/-!
# Events

`common/events.rs`: what the instructions publish. Events no instruction of the
repository emits are left out.
-/

namespace ByeMachine

/-- A single scalar `Pool` field value, old or new, as carried by `ConfigChanged`. -/
inductive ConfigValue where
  | amount (value : ℕ)
  | bps (value : ℕ)
  | count (value : ℕ)
  | faces (value : Denomination → ℕ)
  | hours (value : ℕ)

/-- The observed cause of a third-party seizure, as `close_seized` established it. -/
inductive SeizureKind where
  | burned | transferred | frozen | undecidable
  deriving DecidableEq, Repr

/-- Whether a depositor could arrange this cause and keep the card. -/
def SeizureKind.depositorMayKeepTheCard : SeizureKind → Bool
  | .burned => false
  | .transferred | .frozen | .undecidable => true

inductive AuthorityRole where
  | administrator | operator | t03 | t02
  deriving DecidableEq, Repr

inductive RotationPhase where
  | proposed | accepted
  deriving DecidableEq, Repr

inductive Event where
  | protocolInitialized (slot : ℕ) (administrator operator t02Authority t03Authority
      protocolRevenue usdcMint byeMint vrfProgram oracleQueue swapPool : Pubkey)
      (maxSwapSlippageBps : ℕ)
  | poolInitialized (pool : Pubkey) (slot : ℕ) (authority : Pubkey) (poolId : ℕ)
      (weightIndex treasury03 : Pubkey) (price ticketTarget fee allocEqualBps allocTierBps
      allocProtocolBps admissionFloor admissionCeiling walletValueCap maxN buybackRateBps : ℕ)
      (blankFaces : Denomination → ℕ) (t04Ceiling sweepCadenceHours tierSize : ℕ)
  | configChanged (pool : Pubkey) (slot : ℕ) (authority : Pubkey) (param : String)
      (old new : ConfigValue)
  | vrfConfigChanged (slot : ℕ) (authority oldVrfProgram oldOracleQueue oldSwapPool vrfProgram
      oracleQueue swapPool : Pubkey)
  | pauseSet (pool : Pubkey) (slot : ℕ) (authority : Pubkey) (depositsPaused rollsPaused : Bool)
      (reason : ℕ)
  | authorityRotated (slot : ℕ) (authority : Pubkey) (role : AuthorityRole) (old new : Pubkey)
      (phase : RotationPhase)
  | depositPending (pool : Pubkey) (slot : ℕ) (position depositor nftMint : Pubkey)
  | depositApproved (pool : Pubkey) (slot : ℕ) (authority position : Pubkey) (value : ℕ)
      (observedAt observedAgeSeconds : ℤ)
  | rebalanceEvaluated (pool : Pubkey) (slot nReal wReal : ℕ)
      (blanksBefore blanksAfter : Denomination → ℕ)
  | tierChanged (pool : Pubkey) (slot : ℕ) (left entered : Option Pubkey)
  | depositRejected (pool : Pubkey) (slot : ℕ) (authority position : Pubkey) (reason : ℕ)
  | nftReturned (pool : Pubkey) (slot : ℕ) (position depositor nftMint : Pubkey)
  | withdrawn (pool : Pubkey) (slot : ℕ) (position depositor : Pubkey) (feesPaid : ℕ)
  | nftClaimed (pool : Pubkey) (slot : ℕ) (position depositor nftMint : Pubkey)
  | valueRecorded (pool : Pubkey) (slot : ℕ) (authority position : Pubkey) (old new : ℕ)
      (observedAt : ℤ)
  | belowFloorClosed (pool : Pubkey) (slot : ℕ) (authority position depositor : Pubkey)
  | belowFloorRetained (pool : Pubkey) (slot : ℕ) (authority position : Pubkey) (lockUntil : ℤ)
  | sweepBegun (pool : Pubkey) (slot : ℕ) (authority : Pubkey) (sweepEpoch : ℕ)
  | sweepEnded (pool : Pubkey) (slot : ℕ) (authority : Pubkey) (sweepEpoch positionsUpdated : ℕ)
      (lastSweepAt : ℤ)
  | collectionAdmitted (pool : Pubkey) (slot : ℕ) (collection : Pubkey)
      (standards oldStandards : ℕ) (reason : Option ℕ) (authority : Pubkey)
  | collectionWithdrawn (pool : Pubkey) (slot : ℕ) (collection : Pubkey) (standards reason : ℕ)
      (authority : Pubkey)
  | positionSeized (pool : Pubkey) (slot : ℕ) (position : Pubkey) (kind : SeizureKind)
      (ownerObserved : Pubkey) (sourceState : PositionState) (recordedValue : ℕ)
  | batchCommitted (pool : Pubkey) (slot : ℕ) (roller batch : Pubkey) (n sPrice sTicket sFee : ℕ)
      (sAllocBps : Fin 3 → ℕ) (sBlankFaces : Denomination → ℕ)
  | batchResolved (pool : Pubkey) (slot : ℕ) (batch : Pubkey)

end ByeMachine
