import ByeMachine.Instructions.Admin
import ByeMachine.Instructions.Exit
import ByeMachine.Instructions.Roll
import ByeMachine.Instructions.Tier
import Mathlib.Logic.Relation

/-!
# Execution

The instructions of the program, one step of the ledger, and what is reachable.
Between two instructions other programs run: their accounts and the token
accounts change as those programs allow, and none of them can debit a token
account whose owner is an address this program derives.
-/

namespace ByeMachine

/-- One instruction with everything its sender chooses. -/
inductive Instr where
  | initProtocol (payer : Pubkey) (args : ProtocolConfigArgs)
  | initPool (administrator weightIndex : Pubkey) (args : PoolConfigArgs)
  | updateConfig (administrator pool : Pubkey) (remaining : List AccountMeta)
      (update : ConfigUpdate)
  | updateVrfConfig (administrator vrfProgram oracleQueue swapPool : Pubkey)
  | admitCollection (administrator pool collection : Pubkey) (standards : ℕ) (reason : Option ℕ)
  | withdrawCollection (administrator pool collection : Pubkey) (reason : ℕ)
  | setPause (administrator pool : Pubkey) (deposits rolls : Bool) (reason : ℕ)
  | setAuthorities (signer : Pubkey) (role : AuthorityRole) (newAuthority : Option Pubkey)
  | deposit (accounts : DepositAccounts)
  | depositCore (accounts : DepositCoreAccounts)
  | approveDeposit (operator pool position : Pubkey) (remaining : List AccountMeta) (value : ℕ)
      (observedAt lockUntil : ℤ)
  | rejectDeposit (operator position : Pubkey) (reason : ℕ)
  | returnRejected (payer position : Pubkey) (accounts : ReleaseAccounts)
  | returnRejectedCore (payer position collection : Pubkey)
  | beginSweep (operator pool : Pubkey)
  | recordValue (operator pool position : Pubkey) (remaining : List AccountMeta) (value : ℕ)
      (observedAt : ℤ)
  | endSweep (operator pool : Pubkey)
  | withdraw (depositor pool position : Pubkey) (depositorUsdc : Option Pubkey)
      (remaining : List AccountMeta) (accounts : ReleaseAccounts)
  | withdrawCore (depositor pool position : Pubkey) (depositorUsdc : Option Pubkey)
      (collection : Pubkey) (remaining : List AccountMeta)
  | claimNft (depositor position : Pubkey) (accounts : ReleaseAccounts)
  | claimNftCore (depositor position collection : Pubkey)
  | closeSeized (caller pool position collection : Pubkey)
  | commitRolls (roller pool rollerUsdc : Pubkey) (n : ℕ)
  | vrfCallback (signer batch pool : Pubkey) (randomness : ℕ)
  | updateTier (operator pool position : Pubkey) (remaining : List AccountMeta)

variable (X : Programs)

def exec (clock : Clock) (c : Chain) : Instr → Outcome
  | .initProtocol payer args => initProtocol X clock c payer args
  | .initPool administrator weightIndex args => initPool X clock c administrator weightIndex args
  | .updateConfig administrator pool remaining update =>
    updateConfig clock c administrator pool remaining update
  | .updateVrfConfig administrator vrfProgram oracleQueue swapPool =>
    updateVrfConfig clock c administrator vrfProgram oracleQueue swapPool
  | .admitCollection administrator pool collection standards reason =>
    admitCollection X clock c administrator pool collection standards reason
  | .withdrawCollection administrator pool collection reason =>
    withdrawCollection clock c administrator pool collection reason
  | .setPause administrator pool deposits rolls reason =>
    setPause clock c administrator pool deposits rolls reason
  | .setAuthorities signer role newAuthority => setAuthorities clock c signer role newAuthority
  | .deposit accounts => deposit X clock c accounts
  | .depositCore accounts => depositCore X clock c accounts
  | .approveDeposit operator pool position remaining value observedAt lockUntil =>
    approveDeposit clock c operator pool position remaining value observedAt lockUntil
  | .rejectDeposit operator position reason => rejectDeposit clock c operator position reason
  | .returnRejected payer position accounts => returnRejected X clock c payer position accounts
  | .returnRejectedCore payer position collection =>
    returnRejectedCore X clock c payer position collection
  | .beginSweep operator pool => beginSweep clock c operator pool
  | .recordValue operator pool position remaining value observedAt =>
    recordValue clock c operator pool position remaining value observedAt
  | .endSweep operator pool => endSweep clock c operator pool
  | .withdraw depositor pool position depositorUsdc remaining accounts =>
    withdraw X clock c depositor pool position depositorUsdc remaining accounts
  | .withdrawCore depositor pool position depositorUsdc collection remaining =>
    withdrawCore X clock c depositor pool position depositorUsdc collection remaining
  | .claimNft depositor position accounts => claimNft X clock c depositor position accounts
  | .claimNftCore depositor position collection =>
    claimNftCore X clock c depositor position collection
  | .closeSeized caller pool position collection =>
    closeSeized X clock c caller pool position collection
  | .commitRolls roller pool rollerUsdc n => commitRolls X clock c roller pool rollerUsdc n
  | .vrfCallback signer batch pool randomness => vrfCallback X clock c signer batch pool randomness
  | .updateTier operator pool position remaining =>
    updateTier clock c operator pool position remaining

/-- A token account after other programs ran: one a derived address owns may only be credited. -/
def Untouched (tokens tokens' : Tokens) : Prop :=
  ∀ pool account, tokens.lookup (.principalVault pool) = some account →
    ∃ account', tokens'.lookup (.principalVault pool) = some account' ∧
      account'.mint = account.mint ∧ account'.owner = account.owner ∧
      account.amount ≤ account'.amount

/-- One step: an allowed instruction of the program that succeeds, at any clock, or other programs
at work on their own accounts. A failing instruction reverts. -/
inductive StepWhere (allowed : Chain → Instr → Prop) : Chain → Chain → Prop where
  | instruction {c c' : Chain} (clock : Clock) (instr : Instr) (events : List Event)
      (permitted : allowed c instr) (run : exec X clock c instr = .ok (c', events)) :
      StepWhere allowed c c'
  | elsewhere {c : Chain} (tokens : Tokens) (externals : Externals)
      (untouched : Untouched c.tokens tokens) : StepWhere allowed c { c with tokens, externals }

abbrev Step : Chain → Chain → Prop := StepWhere X fun _ _ => True

/-- A ledger on which this program has not run yet. -/
structure Genesis (c : Chain) : Prop where
  protocolConfig : c.protocolConfig = none
  pools : c.pools = ∅
  weightIndexes : c.weightIndexes = ∅
  topTiers : c.topTiers = ∅
  positions : c.positions = ∅
  walletStats : c.walletStats = ∅
  rollBatches : c.rollBatches = ∅

def ReachableWhere (allowed : Chain → Instr → Prop) (c : Chain) : Prop :=
  ∃ c₀, Genesis c₀ ∧ Relation.ReflTransGen (StepWhere X allowed) c₀ c

/-- What sequences of successful instructions reach, with any arguments. -/
abbrev Reachable : Chain → Prop := ReachableWhere X fun _ _ => True

end ByeMachine
