import ByeMachine.Client.Encoders
import ByeMachine.Common.Wire
import ByeMachine.Exec

/-!
# The entrypoint

`lib.rs` and the accounts struct of every instruction: the discriminator chooses
the instruction, its arguments are read off the data, and its accounts are taken
in order. What an account must be (a signer, writable, at one address) is asked
here; what it must hold is asked by `exec`. Which of several errors comes first
is left open.
-/

namespace ByeMachine

open Borsh

structure PassedAccount where
  key : Pubkey
  isSigner : Bool
  isWritable : Bool
  deriving DecidableEq, Repr

def Instruction.passed (i : Instruction) : List PassedAccount :=
  i.accounts.map fun m => ⟨m.address, i.signs m.address, i.writes m.address⟩

-- ---------------------------------------------------------------------------
-- Taking accounts
-- ---------------------------------------------------------------------------

abbrev AccountsIter := StateT (List PassedAccount) Option

namespace AccountsIter

def next : AccountsIter PassedAccount
  | [] => none
  | a :: rest => some (a, rest)

def check (ok : Bool) : AccountsIter Unit := fun rest => if ok then some ((), rest) else none

def read {α : Type} (found : Option α) : AccountsIter α := fun rest => found.map (·, rest)

def account : AccountsIter Pubkey := do
  let a ← next
  pure a.key

/-- `#[account(mut)]`. -/
def writable : AccountsIter Pubkey := do
  let a ← next
  check a.isWritable
  pure a.key

/-- `Signer`. -/
def signer : AccountsIter Pubkey := do
  let a ← next
  check a.isSigner
  pure a.key

/-- `#[account(mut)]` of a `Signer`. -/
def writableSigner : AccountsIter Pubkey := do
  let a ← next
  check (a.isSigner && a.isWritable)
  pure a.key

/-- `seeds =`, `address =` and `Program`. -/
def pinned (key : Pubkey) : AccountsIter Unit := do
  let a ← next
  check (a.key = key)

/-- The same of an account that is `mut` or `init`. -/
def writablePinned (key : Pubkey) : AccountsIter Unit := do
  let a ← next
  check (a.key = key && a.isWritable)

/-- `Option<_>`: the program's own id stands for none. -/
def optional : AccountsIter (Option Pubkey) := do
  let a ← next
  pure (if a.key = .program .byeMachine then none else some a.key)

/-- `#[account(mut)]` of an `Option<_>`. -/
def optionalWritable : AccountsIter (Option Pubkey) := do
  let a ← next
  if a.key = .program .byeMachine then pure none
  else do
    check a.isWritable
    pure (some a.key)

/-- `#[account(address = …)]` of an `Option<_>`. -/
def optionalPinned (key : Pubkey) : AccountsIter (Option Pubkey) := do
  let a ← next
  if a.key = .program .byeMachine then pure none
  else do
    check (a.key = key)
    pure (some a.key)

/-- `ctx.remaining_accounts`. -/
def remaining : AccountsIter (List AccountMeta) := fun rest =>
  some (rest.map fun a => ⟨a.key, a.isWritable⟩, [])

end AccountsIter

-- ---------------------------------------------------------------------------
-- The accounts structs
-- ---------------------------------------------------------------------------

namespace Accounts

open AccountsIter

variable (X : Programs) (K : WellKnown) (c : Chain)

def weightIndexOf (pool : Pubkey) : AccountsIter Pubkey :=
  read ((c.pools.lookup pool).map (·.weightIndex))

def depositorOf (position : Pubkey) : AccountsIter Pubkey :=
  read ((c.positions.lookup position).map (·.depositor))

def nftMintOf (position : Pubkey) : AccountsIter Pubkey :=
  read ((c.positions.lookup position).map (·.nftMint))

def initProtocol : AccountsIter Pubkey := do
  let payer ← writableSigner
  writablePinned .protocolConfig
  pinned .default
  pure payer

def initPool : AccountsIter (Pubkey × Pubkey) := do
  let administrator ← writableSigner
  writablePinned .protocolConfig
  let config ← read c.protocolConfig
  let pool := Pubkey.pool config.poolCounter
  writablePinned pool
  let weightIndex ← writable
  writablePinned (.topTier pool)
  writablePinned (.principalVault pool)
  writablePinned (.treasury04 pool)
  pinned config.usdcMint
  pinned (.program .splToken)
  pinned .default
  pure (administrator, weightIndex)

def updateConfig : AccountsIter (Pubkey × Pubkey × List AccountMeta) := do
  let administrator ← signer
  pinned .protocolConfig
  let pool ← writable
  writablePinned (.topTier pool)
  let rest ← remaining
  pure (administrator, pool, rest)

def updateVrfConfig : AccountsIter Pubkey := do
  let administrator ← signer
  writablePinned .protocolConfig
  pure administrator

def admitCollection (collection : Pubkey) : AccountsIter (Pubkey × Pubkey) := do
  let administrator ← writableSigner
  pinned .protocolConfig
  let pool ← account
  writablePinned (.poolCollection pool collection)
  pinned .default
  pure (administrator, pool)

def withdrawCollection (collection : Pubkey) : AccountsIter (Pubkey × Pubkey) := do
  let administrator ← writableSigner
  pinned .protocolConfig
  let pool ← account
  writablePinned (.poolCollection pool collection)
  pure (administrator, pool)

def setPause : AccountsIter (Pubkey × Pubkey) := do
  let administrator ← signer
  pinned .protocolConfig
  let pool ← writable
  pure (administrator, pool)

def setAuthorities : AccountsIter Pubkey := do
  let signer ← signer
  writablePinned .protocolConfig
  pure signer

/-- `deposit.rs`; `position` is derived from a mint that comes after it. -/
def deposit : AccountsIter DepositAccounts := do
  let depositor ← writableSigner
  let pool ← writable
  let poolCollection ← account
  let position ← writable
  writablePinned (.positionVault position)
  writablePinned (.walletStats pool depositor)
  let nftMint ← account
  check (position = .position pool nftMint)
  let depositorToken ← writable
  let metadata ← writable
  let masterEdition ← account
  let depositorTokenRecord ← optionalWritable
  let positionTokenRecord ← optionalWritable
  pinned (.program .tokenMetadata)
  let authorizationRulesProgram ← optional
  let authorizationRules ← optional
  let sysvarInstructions ← optionalPinned K.sysvarInstructions
  pinned (.program .splToken)
  pinned K.associatedTokenProgram
  pinned .default
  pure {
    depositor, pool, poolCollection, nftMint, depositorToken, metadata, masterEdition
    pnft := { positionTokenRecord, depositorTokenRecord, sysvarInstructions
              authorizationRulesProgram, authorizationRules } }

def depositCore : AccountsIter DepositCoreAccounts := do
  let depositor ← writableSigner
  let pool ← writable
  let poolCollection ← account
  let position ← writable
  pinned (.positionVault position)
  writablePinned (.walletStats pool depositor)
  let asset ← writable
  check (position = .position pool asset)
  let collection ← account
  pinned (.program .mplCore)
  pinned .default
  pure { depositor, pool, poolCollection, asset, collection }

/-- `approve_deposit.rs` and `record_value.rs` -/
def attestation : AccountsIter (Pubkey × Pubkey × Pubkey × List AccountMeta) := do
  let operator ← signer
  pinned .protocolConfig
  let pool ← writable
  let position ← writable
  let weightIndex ← weightIndexOf c pool
  writablePinned weightIndex
  writablePinned (.topTier pool)
  let depositor ← depositorOf c position
  writablePinned (.walletStats pool depositor)
  let rest ← remaining
  pure (operator, pool, position, rest)

def rejectDeposit : AccountsIter (Pubkey × Pubkey) := do
  let operator ← signer
  pinned .protocolConfig
  let position ← writable
  pure (operator, position)

/-- The accounts from `depositor_token` on, which the Token Metadata exits share. -/
def release : AccountsIter ReleaseAccounts := do
  let depositorToken ← writable
  let metadata ← writable
  let masterEdition ← account
  let positionTokenRecord ← optionalWritable
  let depositorTokenRecord ← optionalWritable
  pinned (.program .tokenMetadata)
  let authorizationRulesProgram ← optional
  let authorizationRules ← optional
  let sysvarInstructions ← optionalPinned K.sysvarInstructions
  pinned (.program .splToken)
  pinned K.associatedTokenProgram
  pinned .default
  pure {
    depositorToken, metadata, masterEdition
    pnft := { positionTokenRecord, depositorTokenRecord, sysvarInstructions
              authorizationRulesProgram, authorizationRules } }

/-- `return_rejected.rs`; `depositor` is the position's. -/
def returnRejected : AccountsIter (Pubkey × Pubkey × ReleaseAccounts) := do
  let payer ← writableSigner
  let depositor ← writable
  let position ← writable
  let owner ← depositorOf c position
  check (depositor = owner)
  writablePinned (.positionVault position)
  let nftMint ← nftMintOf c position
  pinned nftMint
  let accounts ← release K
  pure (payer, position, accounts)

def returnRejectedCore : AccountsIter (Pubkey × Pubkey × Pubkey) := do
  let payer ← writableSigner
  let depositor ← writable
  let position ← writable
  let owner ← depositorOf c position
  check (depositor = owner)
  pinned (.positionVault position)
  let asset ← nftMintOf c position
  writablePinned asset
  let collection ← account
  pinned (.program .mplCore)
  pinned .default
  pure (payer, position, collection)

/-- `begin_sweep.rs` and `end_sweep.rs` -/
def sweep : AccountsIter (Pubkey × Pubkey) := do
  let operator ← signer
  pinned .protocolConfig
  let pool ← writable
  pure (operator, pool)

/-- The accounts up to `depositor_usdc`, which the two withdrawals share. -/
def withdrawal : AccountsIter (Pubkey × Pubkey × Pubkey × Option Pubkey) := do
  let depositor ← writableSigner
  let pool ← writable
  let position ← writable
  let weightIndex ← weightIndexOf c pool
  writablePinned weightIndex
  writablePinned (.topTier pool)
  let owner ← depositorOf c position
  writablePinned (.walletStats pool owner)
  writablePinned (.principalVault pool)
  let depositorUsdc ← optionalWritable
  pure (depositor, pool, position, depositorUsdc)

def withdraw : AccountsIter
    (Pubkey × Pubkey × Pubkey × Option Pubkey × ReleaseAccounts × List AccountMeta) := do
  let (depositor, pool, position, depositorUsdc) ← withdrawal c
  writablePinned (.positionVault position)
  let nftMint ← nftMintOf c position
  pinned nftMint
  let accounts ← release K
  let rest ← remaining
  pure (depositor, pool, position, depositorUsdc, accounts, rest)

def withdrawCore : AccountsIter
    (Pubkey × Pubkey × Pubkey × Option Pubkey × Pubkey × List AccountMeta) := do
  let (depositor, pool, position, depositorUsdc) ← withdrawal c
  pinned (.positionVault position)
  let asset ← nftMintOf c position
  writablePinned asset
  let collection ← account
  pinned (.program .mplCore)
  pinned (.program .splToken)
  pinned .default
  let rest ← remaining
  pure (depositor, pool, position, depositorUsdc, collection, rest)

def claimNft : AccountsIter (Pubkey × Pubkey × ReleaseAccounts) := do
  let depositor ← writableSigner
  let position ← writable
  writablePinned (.positionVault position)
  let nftMint ← nftMintOf c position
  pinned nftMint
  let accounts ← release K
  pure (depositor, position, accounts)

def claimNftCore : AccountsIter (Pubkey × Pubkey × Pubkey) := do
  let depositor ← writableSigner
  let position ← writable
  pinned (.positionVault position)
  let asset ← nftMintOf c position
  writablePinned asset
  let collection ← account
  pinned (.program .mplCore)
  pinned .default
  pure (depositor, position, collection)

/-- `close_seized.rs`: it pays nobody and calls no program. -/
def closeSeized : AccountsIter (Pubkey × Pubkey × Pubkey × Pubkey) := do
  let caller ← signer
  let pool ← writable
  let position ← writable
  let weightIndex ← weightIndexOf c pool
  writablePinned weightIndex
  writablePinned (.topTier pool)
  let depositor ← depositorOf c position
  writablePinned (.walletStats pool depositor)
  pinned (.positionVault position)
  let asset ← nftMintOf c position
  pinned asset
  let collection ← account
  pure (caller, pool, position, collection)

def commitRolls : AccountsIter (Pubkey × Pubkey × Pubkey) := do
  let roller ← writableSigner
  pinned .protocolConfig
  let config ← read c.protocolConfig
  let pool ← writable
  pinned (.topTier pool)
  let record ← read (c.pools.lookup pool)
  writablePinned (.rollBatch pool record.batchCounter)
  let rollerUsdc ← writable
  writablePinned (.principalVault pool)
  pinned config.usdcMint
  writablePinned config.oracleQueue
  pinned .vrfIdentity
  pinned X.vrfProgram
  pinned K.sysvarSlotHashes
  pinned (.program .splToken)
  pinned .default
  pure (roller, pool, rollerUsdc)

def vrfCallback : AccountsIter (Pubkey × Pubkey × Pubkey) := do
  let signer ← signer
  let batch ← writable
  let pool ← account
  pure (signer, batch, pool)

/-- `update_tier.rs`: the one instruction that reads its pool only. -/
def updateTier : AccountsIter (Pubkey × Pubkey × Pubkey × List AccountMeta) := do
  let operator ← signer
  pinned .protocolConfig
  let pool ← account
  writablePinned (.topTier pool)
  let position ← writable
  let rest ← remaining
  pure (operator, pool, position, rest)

end Accounts

-- ---------------------------------------------------------------------------
-- Arguments
-- ---------------------------------------------------------------------------

namespace Deserialize

variable (w : Encoding)

def i64 : Deserialize ℤ := signed short

/-- `bool`: one byte, and no other than these two. -/
def bool : Deserialize Bool := do
  let tag ← u8
  match tag with
  | 0 => pure false
  | 1 => pure true
  | tag => throw (.unexpectedVariant tag)

def option {α : Type} (m : Deserialize α) : Deserialize (Option α) := do
  let tag ← u8
  match tag with
  | 0 => pure none
  | 1 => some <$> m
  | tag => throw (.unexpectedVariant tag)

def array32 : Deserialize ℕ := unsigned short 32

def authorityRole : Deserialize AuthorityRole := do
  let tag ← u8
  match tag with
  | 0 => pure .administrator
  | 1 => pure .operator
  | 2 => pure .t03
  | 3 => pure .t02
  | tag => throw (.unexpectedVariant tag)

end Deserialize

open Deserialize in
def ProtocolConfigArgs.deserialize (w : Encoding) : Deserialize ProtocolConfigArgs := do
  let operator ← pubkey w
  let t03Authority ← pubkey w
  let t02Authority ← pubkey w
  let protocolRevenue ← pubkey w
  let usdcMint ← pubkey w
  let byeMint ← pubkey w
  let vrfProgram ← pubkey w
  let oracleQueue ← pubkey w
  let swapPool ← pubkey w
  let maxSwapSlippageBps ← u16
  pure {
    operator, t03Authority, t02Authority, protocolRevenue, usdcMint, byeMint, vrfProgram
    oracleQueue, swapPool, maxSwapSlippageBps }

-- ---------------------------------------------------------------------------
-- Dispatch
-- ---------------------------------------------------------------------------

/-- The arguments at the front of the data; what comes after them is not looked at. -/
def readArgs {α : Type} (m : Deserialize α) (data : Bytes) : AccountsIter α :=
  AccountsIter.read ((m ⟨data, 0⟩).toOption.map Prod.fst)

section

variable (w : Encoding) (X : Programs) (K : WellKnown) (c : Chain)

open Deserialize in
/-- `#[program] mod bye_machine`. -/
def entry (data : Bytes) : InstructionName → AccountsIter Instr
  | .initProtocol => do
    let args ← readArgs (ProtocolConfigArgs.deserialize w) data
    let payer ← Accounts.initProtocol
    pure (.initProtocol payer args)
  | .initPool => do
    let args ← readArgs (PoolConfigArgs.deserialize w) data
    let (administrator, weightIndex) ← Accounts.initPool c
    pure (.initPool administrator weightIndex args)
  | .updateConfig => do
    let update ← readArgs ConfigUpdate.deserialize data
    let (administrator, pool, rest) ← Accounts.updateConfig
    pure (.updateConfig administrator pool rest update)
  | .updateVrfConfig => do
    let (vrfProgram, oracleQueue, swapPool) ← readArgs (do
      let vrfProgram ← pubkey w
      let oracleQueue ← pubkey w
      let swapPool ← pubkey w
      pure (vrfProgram, oracleQueue, swapPool)) data
    let administrator ← Accounts.updateVrfConfig
    pure (.updateVrfConfig administrator vrfProgram oracleQueue swapPool)
  | .admitCollection => do
    let (collection, standards, reason) ← readArgs (do
      let collection ← pubkey w
      let standards ← u8
      let reason ← option u16
      pure (collection, standards, reason)) data
    let (administrator, pool) ← Accounts.admitCollection collection
    pure (.admitCollection administrator pool collection standards reason)
  | .withdrawCollection => do
    let (collection, reason) ← readArgs (do
      let collection ← pubkey w
      let reason ← u16
      pure (collection, reason)) data
    let (administrator, pool) ← Accounts.withdrawCollection collection
    pure (.withdrawCollection administrator pool collection reason)
  | .setPause => do
    let (deposits, rolls, reason) ← readArgs (do
      let deposits ← bool
      let rolls ← bool
      let reason ← u16
      pure (deposits, rolls, reason)) data
    let (administrator, pool) ← Accounts.setPause
    pure (.setPause administrator pool deposits rolls reason)
  | .setAuthorities => do
    let (role, newAuthority) ← readArgs (do
      let role ← authorityRole
      let newAuthority ← option (pubkey w)
      pure (role, newAuthority)) data
    let signer ← Accounts.setAuthorities
    pure (.setAuthorities signer role newAuthority)
  | .deposit => do
    let accounts ← Accounts.deposit K
    pure (.deposit accounts)
  | .depositCore => do
    let accounts ← Accounts.depositCore
    pure (.depositCore accounts)
  | .approveDeposit => do
    let (value, observedAt, lockUntil) ← readArgs (do
      let value ← u64
      let observedAt ← i64
      let lockUntil ← i64
      pure (value, observedAt, lockUntil)) data
    let (operator, pool, position, rest) ← Accounts.attestation c
    pure (.approveDeposit operator pool position rest value observedAt lockUntil)
  | .rejectDeposit => do
    let reason ← readArgs u16 data
    let (operator, position) ← Accounts.rejectDeposit
    pure (.rejectDeposit operator position reason)
  | .returnRejected => do
    let (payer, position, accounts) ← Accounts.returnRejected K c
    pure (.returnRejected payer position accounts)
  | .returnRejectedCore => do
    let (payer, position, collection) ← Accounts.returnRejectedCore c
    pure (.returnRejectedCore payer position collection)
  | .beginSweep => do
    let (operator, pool) ← Accounts.sweep
    pure (.beginSweep operator pool)
  | .recordValue => do
    let (value, observedAt) ← readArgs (do
      let value ← u64
      let observedAt ← i64
      pure (value, observedAt)) data
    let (operator, pool, position, rest) ← Accounts.attestation c
    pure (.recordValue operator pool position rest value observedAt)
  | .endSweep => do
    let (operator, pool) ← Accounts.sweep
    pure (.endSweep operator pool)
  | .withdraw => do
    let (depositor, pool, position, depositorUsdc, accounts, rest) ← Accounts.withdraw K c
    pure (.withdraw depositor pool position depositorUsdc rest accounts)
  | .withdrawCore => do
    let (depositor, pool, position, depositorUsdc, collection, rest) ← Accounts.withdrawCore c
    pure (.withdrawCore depositor pool position depositorUsdc collection rest)
  | .claimNft => do
    let (depositor, position, accounts) ← Accounts.claimNft K c
    pure (.claimNft depositor position accounts)
  | .claimNftCore => do
    let (depositor, position, collection) ← Accounts.claimNftCore c
    pure (.claimNftCore depositor position collection)
  | .closeSeized => do
    let (caller, pool, position, collection) ← Accounts.closeSeized c
    pure (.closeSeized caller pool position collection)
  | .commitRolls => do
    let n ← readArgs u8 data
    let (roller, pool, rollerUsdc) ← Accounts.commitRolls X K c
    pure (.commitRolls roller pool rollerUsdc n)
  | .vrfCallback => do
    let randomness ← readArgs array32 data
    let (signer, batch, pool) ← Accounts.vrfCallback
    pure (.vrfCallback signer batch pool randomness)
  | .updateTier => do
    let (operator, pool, position, rest) ← Accounts.updateTier
    pure (.updateTier operator pool position rest)

def InstructionName.ofDiscriminator (disc : Bytes) : Option InstructionName :=
  InstructionName.all.find? fun name => name.discriminator = disc

/-- Which instruction, on which accounts and arguments, an instruction on the wire stands for. -/
def dispatch (i : Instruction) : Option Instr := do
  guard (i.programAddress = .program .byeMachine)
  let name ← InstructionName.ofDiscriminator (i.data.take 8)
  let (instr, _) ← entry w X K c (i.data.drop 8) name i.passed
  pure instr

def process (clock : Clock) (i : Instruction) : Option (Chain × List Event) := do
  let instr ← dispatch w X K c i
  (exec X clock c instr).toOption

end

end ByeMachine
