import ByeMachine.Common.Discriminators
import ByeMachine.Common.Tier

/-!
# Instructions on the wire

An instruction as a transaction carries it: the program, the accounts in order
with what may be done with each, and the data. The runtime grants an address
what any of its mentions asks for.
-/

namespace ByeMachine

inductive AccountRole where
  | readonly | writable | readonlySigner | writableSigner
  deriving DecidableEq, Repr

namespace AccountRole

def isSigner : AccountRole → Bool
  | .readonlySigner | .writableSigner => true
  | .readonly | .writable => false

def isWritable : AccountRole → Bool
  | .writable | .writableSigner => true
  | .readonly | .readonlySigner => false

end AccountRole

structure InstructionMeta where
  address : Pubkey
  role : AccountRole
  deriving DecidableEq, Repr

structure Instruction where
  programAddress : Pubkey
  accounts : List InstructionMeta
  data : Bytes
  deriving DecidableEq, Repr

namespace Instruction

def signs (i : Instruction) (key : Pubkey) : Bool :=
  i.accounts.any fun m => m.address = key && m.role.isSigner

def writes (i : Instruction) (key : Pubkey) : Bool :=
  i.accounts.any fun m => m.address = key && m.role.isWritable

end Instruction

/-- The addresses of `constants.ts` that no account of this program has. -/
structure WellKnown where
  associatedTokenProgram : Pubkey
  sysvarInstructions : Pubkey
  sysvarSlotHashes : Pubkey

end ByeMachine
