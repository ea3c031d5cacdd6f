import ByeMachine.Common.Constants

/-!
# Addresses

`find_program_address` is taken injective in its seeds, so a program-derived
address is modelled by the seeds it comes from. Every other account has a `key`.
-/

namespace ByeMachine

inductive ProgramId where
  | byeMachine | splToken | tokenMetadata | mplCore
  deriving DecidableEq, Repr

inductive Pubkey where
  /-- `Pubkey::default()`: all zero bytes, also the system program's id. -/
  | default
  | key (n : ℕ)
  | program (id : ProgramId)
  | protocolConfig
  | pool (poolId : ℕ)
  | poolCollection (pool collection : Pubkey)
  | principalVault (pool : Pubkey)
  | treasury04 (pool : Pubkey)
  | treasury02 (pool : Pubkey)
  | position (pool nftMint : Pubkey)
  | positionVault (position : Pubkey)
  | walletStats (pool owner : Pubkey)
  | topTier (pool : Pubkey)
  | rollBatch (pool : Pubkey) (batchId : ℕ)
  | vrfIdentity
  deriving DecidableEq, Repr

/-- Whether a transaction can carry this address's signature: nobody holds a key for the
default address or for an address this program derives. -/
def Pubkey.canSign : Pubkey → Bool
  | .key _ => true
  | _ => false

end ByeMachine
