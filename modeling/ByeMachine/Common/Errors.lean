import ByeMachine.Base.Fallible

/-!
# Errors

The program's own errors, grouped as the source groups them, and
what else ends an instruction: an Anchor account check, a failed cross-program
call, or an abort (an `expect`, an index out of bounds, an overflow check).
-/

namespace ByeMachine

inductive ByeMachineError where
  | collectionNotAdmitted | standardNotAdmitted | compressedAssetNotSupported
  | depositAlreadyPending | belowAdmissionFloor | aboveAdmissionCeiling | walletValueCapExceeded
  | depositsPaused | standardNotAdmittedForCollection
  | rollBatchInFlight | rollsPaused | sweepPending | rollCountOutOfBounds | realPoolEmpty
  | rollOutOfOrder | batchNotResolved | tierNotFull | recoveryTimeoutNotElapsed
  | queueItemStillPresent | batchPoolMismatch
  | positionLocked | invalidPositionState | notPositionOwner | treasuryPositionNotEligible
  | positionPoolMismatch | candidateOutranked | wrongStandardForInstruction | collateralAbsent
  | collateralPresent | collateralFrozen
  | positionNotPending | zeroValue | sweepNotOpen | lockedDeactivationRejected | sweepAlreadyOpen
  | admissionFloorNotAboveTicket | allocationBpsNotFullyAllocated | blankFaceNotBelowTicket
  | unauthorized | tierSizeOutOfBounds | feeNotPriceMinusTicket | maxNOutOfBounds
  | standardsMaskInvalid | standardsUpdateNoOp | narrowingReasonRequired | reasonNotApplicable
  | blankFaceZero
  | principalShortfall | t04Shortfall | t03Shortfall | slippageExceeded
  | weightDesync | weightIndexFull | weightIndexNotBlank | arithmeticFailure
  deriving DecidableEq, Repr

/-- The Anchor framework errors the instructions raise or inherit from their account checks. -/
inductive ErrorCode where
  | constraintMut | constraintHasOne | constraintSigner | constraintRaw | constraintSeeds
  | constraintAddress | constraintZero | constraintTokenMint | constraintTokenOwner
  | constraintAssociated | accountNotEnoughKeys | accountNotMutable | accountNotInitialized
  | accountAlreadyInUse
  deriving DecidableEq, Repr

/-- How an instruction fails. Every failure reverts the transaction. -/
inductive Error where
  | program (e : ByeMachineError)
  | anchor (e : ErrorCode)
  | arithmeticOverflow
  /-- A cross-program call was refused by the callee. -/
  | cpi
  /-- An `expect` or a runtime check aborted the program. -/
  | panic (message : String)
  /-- A loop outran the bound its model gives it. -/
  | diverged
  deriving DecidableEq, Repr

abbrev Result := Except Error

/-- The computation neither aborts nor outruns its loop bounds. -/
def NoPanic {α : Type*} (x : Result α) : Prop :=
  (∀ message, x ≠ .error (.panic message)) ∧ x ≠ .error .diverged

end ByeMachine
