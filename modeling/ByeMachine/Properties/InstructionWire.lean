import ByeMachine.Laws.Wire
import ByeMachine.Properties.RawLog

/-!
# What the client builds is what the program runs

A caller names a builder and its parameters. The builder refuses numbers that do
not fit and otherwise makes an instruction; the program takes it for exactly what
the caller meant where the addresses that the ledger decides agree with the
ledger, and refuses it where they do not.
-/

namespace ByeMachine

open Bytes Borsh Fallible Wire

inductive ClientCall where
  | initProtocol (payer : Pubkey) (args : ProtocolConfigArgs)
  | initPool (administrator : Pubkey) (poolId : ℤ) (weightIndex usdcMint : Pubkey)
      (args : PoolConfigArgs)
  | updateConfig (administrator : Pubkey) (poolId : ℤ) (update : ConfigUpdate)
      (demoted : List Pubkey)
  | setPause (administrator : Pubkey) (poolId : ℤ) (deposits rolls : Bool) (reason : ℤ)
  | updateVrfConfig (administrator vrfProgram oracleQueue swapPool : Pubkey)
  | admitCollection (administrator : Pubkey) (poolId : ℤ) (collection : Pubkey) (standards : ℤ)
      (reason : Option ℤ)
  | withdrawCollection (administrator : Pubkey) (poolId : ℤ) (collection : Pubkey) (reason : ℤ)
  | setAuthorities (signer : Pubkey) (role : AuthorityRole) (newAuthority : Option Pubkey)
  | deposit (depositor : Pubkey) (poolId : ℤ)
      (collection nftMint depositorToken metadata masterEdition : Pubkey) (pnft : PnftRelease)
  | depositCore (depositor : Pubkey) (poolId : ℤ) (collection asset : Pubkey)
  | approveDeposit (operator : Pubkey) (poolId : ℤ) (nftMint depositor weightIndex : Pubkey)
      (displaced : Option Pubkey) (value observedAt lockUntil : ℤ)
  | rejectDeposit (operator pool nftMint : Pubkey) (reason : ℤ)
  | returnRejected (payer depositor pool nftMint : Pubkey) (accounts : ReleaseAccounts)
  | returnRejectedCore (payer depositor pool asset collection : Pubkey)
  | beginSweep (operator : Pubkey) (poolId : ℤ)
  | endSweep (operator : Pubkey) (poolId : ℤ)
  | recordValue (operator : Pubkey) (poolId : ℤ) (nftMint depositor weightIndex : Pubkey)
      (value observedAt : ℤ) (effect : Builders.ValueEffect)
  | withdraw (depositor : Pubkey) (poolId : ℤ) (nftMint weightIndex : Pubkey)
      (depositorUsdc : Option Pubkey) (accounts : ReleaseAccounts) (successor : Option Pubkey)
  | withdrawCore (depositor : Pubkey) (poolId : ℤ) (asset collection weightIndex : Pubkey)
      (depositorUsdc successor : Option Pubkey)
  | claimNft (depositor pool nftMint : Pubkey) (accounts : ReleaseAccounts)
  | claimNftCore (depositor pool asset collection : Pubkey)
  | closeSeized (caller : Pubkey) (poolId : ℤ) (asset collection depositor weightIndex : Pubkey)
  | commitRolls (roller : Pubkey) (poolId batchCounter : ℤ)
      (rollerUsdc usdcMint oracleQueue : Pubkey) (n : ℤ)
  | vrfCallback (pool : Pubkey) (batchId : ℤ) (randomness : Bytes)
  | updateTier (operator : Pubkey) (poolId : ℤ) (nftMint : Pubkey) (displaced : Option Pubkey)

namespace ClientCall

section

variable (w : Encoding) (X : Programs) (K : WellKnown)

def build : ClientCall → Except BuildError Instruction
  | initProtocol payer args => Builders.initProtocol w payer args
  | initPool administrator poolId weightIndex usdcMint args =>
    Builders.initPool w administrator poolId weightIndex usdcMint args
  | updateConfig administrator poolId update demoted =>
    Builders.updateConfig administrator poolId update demoted
  | setPause administrator poolId deposits rolls reason =>
    Builders.setPause administrator poolId deposits rolls reason
  | updateVrfConfig administrator vrfProgram oracleQueue swapPool =>
    Builders.updateVrfConfig w administrator vrfProgram oracleQueue swapPool
  | admitCollection administrator poolId collection standards reason =>
    Builders.admitCollection w administrator poolId collection standards reason
  | withdrawCollection administrator poolId collection reason =>
    Builders.withdrawCollection w administrator poolId collection reason
  | setAuthorities signer role newAuthority => Builders.setAuthorities w signer role newAuthority
  | deposit depositor poolId collection nftMint depositorToken metadata masterEdition pnft =>
    Builders.deposit K depositor poolId collection nftMint depositorToken metadata masterEdition pnft
  | depositCore depositor poolId collection asset =>
    Builders.depositCore depositor poolId collection asset
  | approveDeposit operator poolId nftMint depositor weightIndex displaced value observedAt
      lockUntil =>
    Builders.approveDeposit operator poolId nftMint depositor weightIndex displaced value observedAt
      lockUntil
  | rejectDeposit operator pool nftMint reason => Builders.rejectDeposit operator pool nftMint reason
  | returnRejected payer depositor pool nftMint accounts =>
    Builders.returnRejected K payer depositor pool nftMint accounts
  | returnRejectedCore payer depositor pool asset collection =>
    Builders.returnRejectedCore payer depositor pool asset collection
  | beginSweep operator poolId => Builders.beginSweep operator poolId
  | endSweep operator poolId => Builders.endSweep operator poolId
  | recordValue operator poolId nftMint depositor weightIndex value observedAt effect =>
    Builders.recordValue operator poolId nftMint depositor weightIndex value observedAt effect
  | withdraw depositor poolId nftMint weightIndex depositorUsdc accounts successor =>
    Builders.withdraw K depositor poolId nftMint weightIndex depositorUsdc accounts successor
  | withdrawCore depositor poolId asset collection weightIndex depositorUsdc successor =>
    Builders.withdrawCore depositor poolId asset collection weightIndex depositorUsdc successor
  | claimNft depositor pool nftMint accounts => Builders.claimNft K depositor pool nftMint accounts
  | claimNftCore depositor pool asset collection =>
    Builders.claimNftCore depositor pool asset collection
  | closeSeized caller poolId asset collection depositor weightIndex =>
    Builders.closeSeized caller poolId asset collection depositor weightIndex
  | commitRolls roller poolId batchCounter rollerUsdc usdcMint oracleQueue n =>
    Builders.commitRolls X K roller poolId batchCounter rollerUsdc usdcMint oracleQueue n
  | vrfCallback pool batchId randomness => Builders.vrfCallback X pool batchId randomness
  | updateTier operator poolId nftMint displaced =>
    Builders.updateTier operator poolId nftMint displaced

/-- The numbers are of their types, and the payload is as long as the builder asks. -/
def Fits : ClientCall → Prop
  | initProtocol _ args => args.maxSwapSlippageBps < 2 ^ 16
  | initPool _ poolId _ _ args => InWidth 16 poolId ∧ args.Fits w
  | updateConfig _ poolId update demoted =>
    demoted.length ≤ Builders.MAX_TIER_SIZE - 1 ∧ InWidth 16 poolId ∧ update.Fits
  | setPause _ poolId _ _ reason | withdrawCollection _ poolId _ reason =>
    InWidth 16 poolId ∧ InWidth 16 reason
  | admitCollection _ poolId _ standards reason =>
    InWidth 16 poolId ∧ InWidth 8 standards ∧ ∀ n ∈ reason, InWidth 16 n
  | deposit _ poolId .. | depositCore _ poolId .. | beginSweep _ poolId | endSweep _ poolId
  | withdraw _ poolId .. | withdrawCore _ poolId .. | closeSeized _ poolId ..
  | updateTier _ poolId .. => InWidth 16 poolId
  | approveDeposit _ poolId _ _ _ _ value observedAt lockUntil =>
    InWidth 16 poolId ∧ InWidth 64 value ∧ FitsI64 observedAt ∧ FitsI64 lockUntil
  | recordValue _ poolId _ _ _ value observedAt _ =>
    InWidth 16 poolId ∧ InWidth 64 value ∧ FitsI64 observedAt
  | rejectDeposit _ _ _ reason => InWidth 16 reason
  | commitRolls _ poolId batchCounter _ _ _ n =>
    InWidth 16 poolId ∧ InWidth 64 batchCounter ∧ InWidth 8 n
  | vrfCallback _ batchId randomness => InWidth 64 batchId ∧ randomness.length = 32
  | updateVrfConfig .. | setAuthorities .. | returnRejected .. | returnRejectedCore ..
  | claimNft .. | claimNftCore .. => True

variable (c : Chain)

def IndexOf (pool weightIndex : Pubkey) : Prop :=
  (c.pools.lookup pool).map (·.weightIndex) = some weightIndex

def DepositorOf (position depositor : Pubkey) : Prop :=
  (c.positions.lookup position).map (·.depositor) = some depositor

def NftMintOf (position nftMint : Pubkey) : Prop :=
  (c.positions.lookup position).map (·.nftMint) = some nftMint

/-- The addresses that the client looks up are those the ledger has. -/
def Supplied : ClientCall → Prop
  | initPool _ poolId _ usdcMint _ =>
    ∃ config, c.protocolConfig = some config ∧ poolId.toNat = config.poolCounter ∧
      usdcMint = config.usdcMint
  | deposit _ _ _ _ _ _ _ pnft => ∀ key ∈ pnft.sysvarInstructions, key = K.sysvarInstructions
  | approveDeposit _ poolId nftMint depositor weightIndex .. =>
    IndexOf c (.pool poolId.toNat) weightIndex ∧
      DepositorOf c (.position (.pool poolId.toNat) nftMint) depositor
  | recordValue _ poolId nftMint depositor weightIndex .. =>
    IndexOf c (.pool poolId.toNat) weightIndex ∧
      DepositorOf c (.position (.pool poolId.toNat) nftMint) depositor
  | returnRejected _ depositor pool nftMint accounts =>
    DepositorOf c (.position pool nftMint) depositor ∧ NftMintOf c (.position pool nftMint) nftMint ∧
      ∀ key ∈ accounts.pnft.sysvarInstructions, key = K.sysvarInstructions
  | returnRejectedCore _ depositor pool asset _ =>
    DepositorOf c (.position pool asset) depositor ∧ NftMintOf c (.position pool asset) asset
  | withdraw depositor poolId nftMint weightIndex _ accounts _ =>
    IndexOf c (.pool poolId.toNat) weightIndex ∧
      DepositorOf c (.position (.pool poolId.toNat) nftMint) depositor ∧
      NftMintOf c (.position (.pool poolId.toNat) nftMint) nftMint ∧
      ∀ key ∈ accounts.pnft.sysvarInstructions, key = K.sysvarInstructions
  | withdrawCore depositor poolId asset _ weightIndex _ _ =>
    IndexOf c (.pool poolId.toNat) weightIndex ∧
      DepositorOf c (.position (.pool poolId.toNat) asset) depositor ∧
      NftMintOf c (.position (.pool poolId.toNat) asset) asset
  | claimNft _ pool nftMint accounts =>
    NftMintOf c (.position pool nftMint) nftMint ∧
      ∀ key ∈ accounts.pnft.sysvarInstructions, key = K.sysvarInstructions
  | claimNftCore _ pool asset _ => NftMintOf c (.position pool asset) asset
  | closeSeized _ poolId asset _ depositor weightIndex =>
    IndexOf c (.pool poolId.toNat) weightIndex ∧
      DepositorOf c (.position (.pool poolId.toNat) asset) depositor ∧
      NftMintOf c (.position (.pool poolId.toNat) asset) asset
  | commitRolls _ poolId batchCounter _ usdcMint oracleQueue _ =>
    ∃ config, c.protocolConfig = some config ∧ ∃ pool,
      c.pools.lookup (.pool poolId.toNat) = some pool ∧ batchCounter.toNat = pool.batchCounter ∧
      usdcMint = config.usdcMint ∧ oracleQueue = config.oracleQueue
  | initProtocol .. | updateConfig .. | setPause .. | updateVrfConfig .. | admitCollection ..
  | withdrawCollection .. | setAuthorities .. | depositCore .. | rejectDeposit .. | beginSweep ..
  | endSweep .. | vrfCallback .. | updateTier .. => True

def passed (keys : List Pubkey) : List AccountMeta := keys.map fun key => ⟨key, true⟩

/-- What the caller means. -/
def intended : ClientCall → Instr
  | initProtocol payer args => .initProtocol payer args
  | initPool administrator _ weightIndex _ args => .initPool administrator weightIndex args
  | updateConfig administrator poolId update demoted =>
    .updateConfig administrator (.pool poolId.toNat) (passed demoted) update
  | setPause administrator poolId deposits rolls reason =>
    .setPause administrator (.pool poolId.toNat) deposits rolls reason.toNat
  | updateVrfConfig administrator vrfProgram oracleQueue swapPool =>
    .updateVrfConfig administrator vrfProgram oracleQueue swapPool
  | admitCollection administrator poolId collection standards reason =>
    .admitCollection administrator (.pool poolId.toNat) collection standards.toNat
      (reason.map Int.toNat)
  | withdrawCollection administrator poolId collection reason =>
    .withdrawCollection administrator (.pool poolId.toNat) collection reason.toNat
  | setAuthorities signer role newAuthority => .setAuthorities signer role newAuthority
  | deposit depositor poolId collection nftMint depositorToken metadata masterEdition pnft =>
    .deposit {
      depositor, pool := .pool poolId.toNat
      poolCollection := .poolCollection (.pool poolId.toNat) collection
      nftMint, depositorToken, metadata, masterEdition, pnft }
  | depositCore depositor poolId collection asset =>
    .depositCore {
      depositor, pool := .pool poolId.toNat
      poolCollection := .poolCollection (.pool poolId.toNat) collection, asset, collection }
  | approveDeposit operator poolId nftMint _ _ displaced value observedAt lockUntil =>
    .approveDeposit operator (.pool poolId.toNat) (.position (.pool poolId.toNat) nftMint)
      (passed displaced.toList) value.toNat observedAt lockUntil
  | rejectDeposit operator pool nftMint reason =>
    .rejectDeposit operator (.position pool nftMint) reason.toNat
  | returnRejected payer _ pool nftMint accounts =>
    .returnRejected payer (.position pool nftMint) accounts
  | returnRejectedCore payer _ pool asset collection =>
    .returnRejectedCore payer (.position pool asset) collection
  | beginSweep operator poolId => .beginSweep operator (.pool poolId.toNat)
  | endSweep operator poolId => .endSweep operator (.pool poolId.toNat)
  | recordValue operator poolId nftMint _ _ value observedAt effect =>
    .recordValue operator (.pool poolId.toNat) (.position (.pool poolId.toNat) nftMint)
      (passed (match effect with
        | .close successor => successor.toList
        | .cross displaced => displaced.toList)) value.toNat observedAt
  | withdraw depositor poolId nftMint _ depositorUsdc accounts successor =>
    .withdraw depositor (.pool poolId.toNat) (.position (.pool poolId.toNat) nftMint) depositorUsdc
      (passed successor.toList) accounts
  | withdrawCore depositor poolId asset collection _ depositorUsdc successor =>
    .withdrawCore depositor (.pool poolId.toNat) (.position (.pool poolId.toNat) asset)
      depositorUsdc collection (passed successor.toList)
  | claimNft depositor pool nftMint accounts =>
    .claimNft depositor (.position pool nftMint) accounts
  | claimNftCore depositor pool asset collection =>
    .claimNftCore depositor (.position pool asset) collection
  | closeSeized caller poolId asset collection _ _ =>
    .closeSeized caller (.pool poolId.toNat) (.position (.pool poolId.toNat) asset) collection
  | commitRolls roller poolId _ rollerUsdc _ _ n =>
    .commitRolls roller (.pool poolId.toNat) rollerUsdc n.toNat
  | vrfCallback pool batchId randomness =>
    .vrfCallback X.scopedVrfIdentity (.rollBatch pool batchId.toNat) pool (leNat randomness)
  | updateTier operator poolId nftMint displaced =>
    .updateTier operator (.pool poolId.toNat) (.position (.pool poolId.toNat) nftMint)
      (passed displaced.toList)

def keys : ClientCall → List Pubkey
  | initProtocol _ args => Wire.protocolKeys args
  | initPool _ _ _ _ args => [args.treasury03]
  | updateVrfConfig _ vrfProgram oracleQueue swapPool => [vrfProgram, oracleQueue, swapPool]
  | admitCollection _ _ collection _ _ | withdrawCollection _ _ collection _ => [collection]
  | setAuthorities _ _ newAuthority => newAuthority.toList
  | _ => []

def options : ClientCall → List (Option Pubkey)
  | deposit _ _ _ _ _ _ _ pnft => pnftOptions pnft
  | returnRejected _ _ _ _ accounts | claimNft _ _ _ accounts => pnftOptions accounts.pnft
  | withdraw _ _ _ _ depositorUsdc accounts _ => depositorUsdc :: pnftOptions accounts.pnft
  | withdrawCore _ _ _ _ _ depositorUsdc _ => [depositorUsdc]
  | _ => []
where
  pnftOptions (pnft : PnftRelease) : List (Option Pubkey) :=
    [pnft.positionTokenRecord, pnft.depositorTokenRecord, pnft.sysvarInstructions,
      pnft.authorizationRulesProgram, pnft.authorizationRules]

/-- Every address in the data is one that 32 bytes name, and no optional account is this program,
which is how a missing one is passed. -/
structure Plain (call : ClientCall) : Prop where
  keys : ∀ key ∈ call.keys, w.Faithful key
  options : ∀ o ∈ call.options, ∀ key ∈ o, key ≠ .program .byeMachine

end

end ClientCall

-- ---------------------------------------------------------------------------
-- One builder
-- ---------------------------------------------------------------------------

theorem ofDiscriminator_discriminator (name : InstructionName) :
    InstructionName.ofDiscriminator name.discriminator = some name := by
  have hfound : (InstructionName.ofDiscriminator name.discriminator).isSome := by
    rw [InstructionName.ofDiscriminator, List.find?_isSome]
    exact ⟨name, name.mem_all, by simp⟩
  obtain ⟨found, h⟩ := Option.isSome_iff_exists.mp hfound
  have hdisc := List.find?_some h
  rw [decide_eq_true_eq] at hdisc
  rw [h, InstructionName.discriminator_injective hdisc]

section

variable (w : Encoding) (X : Programs) (K : WellKnown) (c : Chain)

/-- Builds where the numbers fit, and the program takes what was built for `instr` where the
addresses are those of the ledger, and for nothing else. -/
structure BuiltFor (built : Except BuildError Instruction) (fits supplied : Prop) (instr : Instr) :
    Prop where
  builds : fits → ∃ i, built = .ok i ∧
    ∀ instr', dispatch w X K c i = some instr' ↔ supplied ∧ instr' = instr
  refuses : ¬fits → ∃ e, built = .error e

end

section

open Builders

variable {w : Encoding} {X : Programs} {K : WellKnown} {c : Chain} {name : InstructionName}
  {metas rest left : List InstructionMeta} {P Q : Prop} {instr : Instr} {α : Type}

theorem dispatch_built {args : Bytes} {m : AccountsIter Instr}
    (hentry : entry w X K c args name (buildAnchorIx name args metas rest).passed =
      m (buildAnchorIx name args metas rest).passed)
    (ht : Takes m (metas ++ rest) left Q instr) (instr' : Instr) :
    dispatch w X K c (buildAnchorIx name args metas rest) = some instr' ↔ Q ∧ instr' = instr := by
  have htake : (name.discriminator ++ args).take 8 = name.discriminator :=
    List.take_left' name.length_discriminator
  have hdrop : (name.discriminator ++ args).drop 8 = args :=
    List.drop_left' name.length_discriminator
  have hrun : dispatch w X K c (buildAnchorIx name args metas rest) =
      (entry w X K c args name (buildAnchorIx name args metas rest).passed).bind
        fun s => some s.1 := by
    simp only [dispatch, buildAnchorIx, PROGRAM_ID, guard, htake, hdrop,
      ofDiscriminator_discriminator, if_true]
    rfl
  obtain ⟨hsome, hnone⟩ := ht _ (grants_passed (buildAnchorIx name args metas rest))
  rw [hrun, hentry]
  by_cases hQ : Q
  · obtain ⟨_, -, hm⟩ := hsome hQ
    rw [hm]
    simp [hQ, eq_comm]
  · rw [hnone hQ]
    simp [hQ]

theorem builtFor_sent {data : Except EncodeError Bytes} {reader : Deserialize α} {a : α}
    {m : α → AccountsIter Instr} (h : Sends data reader P a)
    (hentry : ∀ args, entry w X K c args name = readArgs reader args >>= m)
    (ht : Takes (m a) (metas ++ rest) left Q instr) :
    BuiltFor w X K c (do
      let args ← data.mapError BuildError.encode
      pure (buildAnchorIx name args metas rest)) P Q instr where
  builds hP := by
    obtain ⟨args, r, hdata, hread⟩ := h.reads hP
    refine ⟨buildAnchorIx name args metas rest, by rw [hdata]; rfl, dispatch_built ?_ ht⟩
    have hargs : readArgs reader args = AccountsIter.read (some a) := by rw [readArgs, hread]; rfl
    rw [hentry, hargs]
    rfl
  refuses hP := by
    obtain ⟨e, he⟩ := h.refuses hP
    exact ⟨.encode e, by rw [he]; rfl⟩

theorem builtFor_plain (ht : Takes (entry w X K c [] name) (metas ++ rest) left Q instr) :
    BuiltFor w X K c (pure (buildAnchorIx name [] metas rest)) True Q instr where
  builds _ := ⟨_, rfl, dispatch_built rfl ht⟩
  refuses h := absurd trivial h

theorem BuiltFor.cast {built : Except BuildError Instruction} {P' Q' : Prop}
    (h : BuiltFor w X K c built P Q instr) (hP : P ↔ P') (hQ : Q ↔ Q') :
    BuiltFor w X K c built P' Q' instr := by
  rwa [propext hP, propext hQ] at h

theorem builtFor_pool {f : Pubkey → Except BuildError Instruction} {poolId : ℤ}
    (h : BuiltFor w X K c (f (.pool poolId.toNat)) P Q instr) :
    BuiltFor w X K c (derivePool poolId >>= f) (InWidth 16 poolId ∧ P) Q instr := by
  by_cases hid : InWidth 16 poolId
  · have hpool : derivePool poolId = .ok (.pool poolId.toNat) := by
      rw [InWidth] at hid
      rw [derivePool, seedFromU16Le, if_pos hid]
      rfl
    rw [hpool]
    exact h.cast (by simp [hid]) Iff.rfl
  · rw [InWidth] at hid
    exact ⟨fun hP => absurd hP.1 hid, fun _ =>
      ⟨.encode .outOfRange, by rw [derivePool, seedFromU16Le, if_neg hid]; rfl⟩⟩

theorem builtFor_batch {f : Pubkey → Except BuildError Instruction} {pool : Pubkey} {batchId : ℤ}
    (h : BuiltFor w X K c (f (.rollBatch pool batchId.toNat)) P Q instr) :
    BuiltFor w X K c (deriveBatch pool batchId >>= f) (InWidth 64 batchId ∧ P) Q instr := by
  by_cases hid : InWidth 64 batchId
  · have hbatch : deriveBatch pool batchId = .ok (.rollBatch pool batchId.toNat) := by
      rw [InWidth] at hid
      rw [deriveBatch, seedFromU64Le, if_pos hid]
      rfl
    rw [hbatch]
    exact h.cast (by simp [hid]) Iff.rfl
  · rw [InWidth] at hid
    exact ⟨fun hP => absurd hP.1 hid, fun _ =>
      ⟨.encode .outOfRange, by rw [deriveBatch, seedFromU64Le, if_neg hid]; rfl⟩⟩

end

-- ---------------------------------------------------------------------------
-- Accounts that several instructions take
-- ---------------------------------------------------------------------------

section

open Builders

variable {X : Programs} {K : WellKnown} {c : Chain} {rest : List InstructionMeta}
  {pool position nftMint depositor weightIndex operator : Pubkey} {keys : List Pubkey}

theorem takes_release {a : ReleaseAccounts}
    (ho : ∀ o ∈ ClientCall.options.pnftOptions a.pnft, ∀ key ∈ o, key ≠ .program .byeMachine) :
    Takes (Accounts.release K) (releaseMetas K a ++ rest) rest
      (∀ key ∈ a.pnft.sysvarInstructions, key = K.sysvarInstructions) a := by
  simp only [ClientCall.options.pnftOptions, List.forall_mem_cons] at ho
  obtain ⟨h1, h2, h3, h4, h5, -⟩ := ho
  refine Takes.cast (.bind .writable <| .bind .writable <| .bind .account <|
    .bind (.optionalWritable h1) <| .bind (.optionalWritable h2) <| .bind .pinned_self <|
    .bind (.optional h4) <| .bind (.optional h5) <| .bind (.optionalPinned h3) <|
    .bind .pinned_self <| .bind .pinned_self <| .bind .pinned_self .pure) ?_
  simp only [true_and, and_true]

theorem takes_attestation :
    Takes (Accounts.attestation c)
      ([Builders.signer operator, readonly .protocolConfig, Builders.writable pool,
        Builders.writable position, Builders.writable weightIndex,
        Builders.writable (.topTier pool), Builders.writable (.walletStats pool depositor)] ++
        keys.map Builders.writable) []
      (ClientCall.IndexOf c pool weightIndex ∧ ClientCall.DepositorOf c position depositor)
      (operator, pool, position, ClientCall.passed keys) := by
  refine Takes.cast (.bind .signer <| .bind .pinned_self <| .bind .writable <| .bind .writable <|
    .read fun _ _ => .bind .writablePinned <| .bind .writablePinned_self <|
    .read fun _ _ => .bind .writablePinned <| .bind .remaining .pure) ?_
  simp [ClientCall.IndexOf, ClientCall.DepositorOf]

theorem takes_withdrawal {depositorUsdc : Option Pubkey}
    (ho : ∀ key ∈ depositorUsdc, key ≠ .program .byeMachine) :
    Takes (Accounts.withdrawal c)
      (Builders.writableSigner depositor :: Builders.writable pool :: Builders.writable position ::
        Builders.writable weightIndex :: Builders.writable (.topTier pool) ::
        Builders.writable (.walletStats pool depositor) ::
        Builders.writable (.principalVault pool) :: Builders.optionalWritable depositorUsdc :: rest)
      rest
      (ClientCall.IndexOf c pool weightIndex ∧ ClientCall.DepositorOf c position depositor)
      (depositor, pool, position, depositorUsdc) := by
  refine Takes.cast (.bind .writableSigner <| .bind .writable <| .bind .writable <|
    .read fun _ _ => .bind .writablePinned <| .bind .writablePinned_self <|
    .read fun _ _ => .bind .writablePinned <| .bind .writablePinned_self <|
    .bind (.optionalWritable ho) .pure) ?_
  simp [ClientCall.IndexOf, ClientCall.DepositorOf]

end

-- ---------------------------------------------------------------------------
-- Every builder
-- ---------------------------------------------------------------------------

section

open Builders

variable {w : Encoding} {X : Programs} {K : WellKnown} {call : ClientCall}

theorem builtFor_call (hplain : call.Plain w) (c : Chain) :
    BuiltFor w X K c (call.build w X K) (call.Fits w) (call.Supplied K c) (call.intended X) := by
  obtain ⟨hkeys, hoptions⟩ := hplain
  cases call with
  | initProtocol payer args =>
    simp only [ClientCall.keys, protocolKeys, List.forall_mem_cons] at hkeys
    obtain ⟨h1, h2, h3, h4, h5, h6, h7, h8, h9, -⟩ := hkeys
    refine .cast (builtFor_sent (sends_build ((conveys_pubkey h1).bind <|
      (conveys_pubkey h2).bind <| (conveys_pubkey h3).bind <| (conveys_pubkey h4).bind <|
      (conveys_pubkey h5).bind <| (conveys_pubkey h6).bind <| (conveys_pubkey h7).bind <|
      (conveys_pubkey h8).bind <| (conveys_pubkey h9).bind <| conveys_nat16.last)) (fun _ => rfl)
      (.bind (.bind .writableSigner <| .bind .writablePinned_self <| .bind .pinned_self .pure)
        .pure)) ?_ ?_
    · simp [ClientCall.Fits]
    · simp [ClientCall.Supplied]
  | initPool administrator poolId weightIndex usdcMint args =>
    have hkey : w.Faithful args.treasury03 := hkeys _ (by simp [ClientCall.keys])
    refine .cast (builtFor_pool <| builtFor_sent (sends_poolConfigArgs hkey) (fun _ => rfl)
      (.bind (.bind .writableSigner <| .bind .writablePinned_self <| .read fun config _ =>
        .bind .writablePinned <| .bind .writable <| .bind .writablePinned <|
        .bind .writablePinned <| .bind .writablePinned <| .bind .pinned <| .bind .pinned_self <|
        .bind .pinned_self .pure) .pure)) ?_ ?_
    · simp [ClientCall.Fits]
    · simp [ClientCall.Supplied]
  | updateConfig administrator poolId update demoted =>
    by_cases hlen : Builders.MAX_TIER_SIZE - 1 < demoted.length
    · refine ⟨fun hfits => absurd hfits.1 (not_le.mpr hlen), fun _ => ⟨.demoted demoted.length, ?_⟩⟩
      rw [ClientCall.build, Builders.updateConfig, if_pos hlen]
      rfl
    · rw [ClientCall.build, Builders.updateConfig, if_neg hlen]
      refine .cast (builtFor_pool <| builtFor_sent (sends_configUpdate update) (fun _ => rfl)
        (.bind (.bind .signer <| .bind .pinned_self <| .bind .writable <|
          .bind .writablePinned_self <| .bind .remaining .pure) .pure)) ?_ ?_
      · simp [ClientCall.Fits, not_lt.mp hlen]
      · simp [ClientCall.Supplied]
  | setPause administrator poolId deposits rolls reason =>
    refine .cast (builtFor_pool <| builtFor_sent (sends_build ((conveys_bool _).bind <|
      (conveys_bool _).bind <| (conveys_u16 _).last)) (fun _ => rfl)
      (.bind (.bind .signer <| .bind .pinned_self <| .bind .writable .pure) .pure)) ?_ ?_
    · simp [ClientCall.Fits]
    · simp [ClientCall.Supplied]
  | updateVrfConfig administrator vrfProgram oracleQueue swapPool =>
    simp only [ClientCall.keys, List.forall_mem_cons] at hkeys
    obtain ⟨h1, h2, h3, -⟩ := hkeys
    refine .cast (builtFor_sent (sends_build ((conveys_pubkey h1).bind <|
      (conveys_pubkey h2).bind <| (conveys_pubkey h3).last)) (fun _ => rfl)
      (.bind (.bind .signer <| .bind .writablePinned_self .pure) .pure)) ?_ ?_
    · simp [ClientCall.Fits]
    · simp [ClientCall.Supplied]
  | admitCollection administrator poolId collection standards reason =>
    have hkey : w.Faithful collection := hkeys _ (by simp [ClientCall.keys])
    refine .cast (builtFor_pool <| builtFor_sent (sends_build ((conveys_pubkey hkey).bind <|
      (conveys_u8 _).bind <| (conveys_optionU16 _).last)) (fun _ => rfl)
      (.bind (.bind .writableSigner <| .bind .pinned_self <| .bind .account <|
        .bind .writablePinned_self <| .bind .pinned_self .pure) .pure)) ?_ ?_
    · simp [ClientCall.Fits]
    · simp [ClientCall.Supplied]
  | withdrawCollection administrator poolId collection reason =>
    have hkey : w.Faithful collection := hkeys _ (by simp [ClientCall.keys])
    refine .cast (builtFor_pool <| builtFor_sent (sends_build ((conveys_pubkey hkey).bind <|
      (conveys_u16 _).last)) (fun _ => rfl)
      (.bind (.bind .writableSigner <| .bind .pinned_self <| .bind .account <|
        .bind .writablePinned_self .pure) .pure)) ?_ ?_
    · simp [ClientCall.Fits]
    · simp [ClientCall.Supplied]
  | setAuthorities signerAddress role newAuthority =>
    have hkey : ∀ key ∈ newAuthority, w.Faithful key := by
      intro key hkey
      exact hkeys key (by simpa [ClientCall.keys] using hkey)
    refine .cast (builtFor_sent (sends_build ((conveys_authorityRole role).bind <|
      (conveys_optionPubkey hkey).last)) (fun _ => rfl)
      (.bind (.bind .signer <| .bind .writablePinned_self .pure) .pure)) ?_ ?_
    · simp [ClientCall.Fits]
    · simp [ClientCall.Supplied]
  | deposit depositor poolId collection nftMint depositorToken metadata masterEdition pnft =>
    simp only [ClientCall.options, ClientCall.options.pnftOptions, List.forall_mem_cons] at hoptions
    obtain ⟨h1, h2, h3, h4, h5, -⟩ := hoptions
    refine .cast (builtFor_pool <| builtFor_plain
      (.bind (.bind .writableSigner <| .bind .writable <| .bind .account <| .bind .writable <|
        .bind .writablePinned_self <| .bind .writablePinned_self <| .bind .account <|
        .bind .check <| .bind .writable <| .bind .writable <| .bind .account <|
        .bind (.optionalWritable h2) <| .bind (.optionalWritable h1) <| .bind .pinned_self <|
        .bind (.optional h4) <| .bind (.optional h5) <| .bind (.optionalPinned h3) <|
        .bind .pinned_self <| .bind .pinned_self <| .bind .pinned_self .pure) .pure)) ?_ ?_
    · simp [ClientCall.Fits]
    · simp [ClientCall.Supplied]
  | depositCore depositor poolId collection asset =>
    refine .cast (builtFor_pool <| builtFor_plain
      (.bind (.bind .writableSigner <| .bind .writable <| .bind .account <| .bind .writable <|
        .bind .pinned_self <| .bind .writablePinned_self <| .bind .writable <| .bind .check <|
        .bind .account <| .bind .pinned_self <| .bind .pinned_self .pure) .pure)) ?_ ?_
    · simp [ClientCall.Fits]
    · simp [ClientCall.Supplied]
  | approveDeposit operator poolId nftMint depositor weightIndex displaced value observedAt
      lockUntil =>
    refine .cast (builtFor_pool <| builtFor_sent (sends_build ((conveys_u64 _).bind <|
      (conveys_i64 _).bind <| (conveys_i64 _).last)) (fun _ => rfl)
      (.bind takes_attestation .pure)) ?_ ?_
    · simp [ClientCall.Fits]
    · simp [ClientCall.Supplied]
  | rejectDeposit operator pool nftMint reason =>
    refine .cast (builtFor_sent (sends_build (conveys_u16 _)) (fun _ => rfl)
      (.bind (.bind .signer <| .bind .pinned_self <| .bind .writable .pure) .pure)) ?_ ?_
    · simp [ClientCall.Fits]
    · simp [ClientCall.Supplied]
  | returnRejected payer depositor pool nftMint accounts =>
    refine .cast (builtFor_plain
      (.bind (.bind .writableSigner <| .bind .writable <| .bind .writable <|
        .read fun _ _ => .bind .check <| .bind .writablePinned_self <|
        .read fun _ _ => .bind .pinned <| .bind (takes_release hoptions) .pure) .pure)) ?_ ?_
    · simp [ClientCall.Fits]
    · simp [ClientCall.Supplied, ClientCall.DepositorOf, ClientCall.NftMintOf,
        -Option.map_eq_some_iff]
  | returnRejectedCore payer depositor pool asset collection =>
    refine .cast (builtFor_plain
      (.bind (.bind .writableSigner <| .bind .writable <| .bind .writable <|
        .read fun _ _ => .bind .check <| .bind .pinned_self <|
        .read fun _ _ => .bind .writablePinned <| .bind .account <| .bind .pinned_self <|
        .bind .pinned_self .pure) .pure)) ?_ ?_
    · simp [ClientCall.Fits]
    · simp [ClientCall.Supplied, ClientCall.DepositorOf, ClientCall.NftMintOf,
        -Option.map_eq_some_iff]
  | beginSweep operator poolId =>
    refine .cast (builtFor_pool <| builtFor_plain
      (.bind (.bind .signer <| .bind .pinned_self <| .bind .writable .pure) .pure)) ?_ ?_
    · simp [ClientCall.Fits]
    · simp [ClientCall.Supplied]
  | endSweep operator poolId =>
    refine .cast (builtFor_pool <| builtFor_plain
      (.bind (.bind .signer <| .bind .pinned_self <| .bind .writable .pure) .pure)) ?_ ?_
    · simp [ClientCall.Fits]
    · simp [ClientCall.Supplied]
  | recordValue operator poolId nftMint depositor weightIndex value observedAt effect =>
    cases effect with
    | close successor =>
      refine .cast (builtFor_pool <| builtFor_sent (sends_build ((conveys_u64 _).bind <|
        (conveys_i64 _).last)) (fun _ => rfl) (.bind takes_attestation .pure)) ?_ ?_
      · simp [ClientCall.Fits]
      · simp [ClientCall.Supplied]
    | cross displaced =>
      refine .cast (builtFor_pool <| builtFor_sent (sends_build ((conveys_u64 _).bind <|
        (conveys_i64 _).last)) (fun _ => rfl) (.bind takes_attestation .pure)) ?_ ?_
      · simp [ClientCall.Fits]
      · simp [ClientCall.Supplied]
  | withdraw depositor poolId nftMint weightIndex depositorUsdc accounts successor =>
    simp only [ClientCall.options, List.forall_mem_cons] at hoptions
    refine .cast (builtFor_pool <| builtFor_plain
      (.bind (.bind (takes_withdrawal hoptions.1) <| .bind .writablePinned_self <|
        .read fun _ _ => .bind .pinned <| .bind (takes_release hoptions.2) <|
        .bind .remaining .pure) .pure)) ?_ ?_
    · simp [ClientCall.Fits]
    · simp [ClientCall.Supplied, ClientCall.NftMintOf, and_assoc]
  | withdrawCore depositor poolId asset collection weightIndex depositorUsdc successor =>
    have hoption : ∀ key ∈ depositorUsdc, key ≠ .program .byeMachine :=
      hoptions _ (by simp [ClientCall.options])
    refine .cast (builtFor_pool <| builtFor_plain
      (.bind (.bind (takes_withdrawal hoption) <| .bind .pinned_self <|
        .read fun _ _ => .bind .writablePinned <| .bind .account <| .bind .pinned_self <|
        .bind .pinned_self <| .bind .pinned_self <| .bind .remaining .pure) .pure)) ?_ ?_
    · simp [ClientCall.Fits]
    · simp [ClientCall.Supplied, ClientCall.NftMintOf, and_assoc]
  | claimNft depositor pool nftMint accounts =>
    refine .cast (builtFor_plain
      (.bind (.bind .writableSigner <| .bind .writable <| .bind .writablePinned_self <|
        .read fun _ _ => .bind .pinned <| .bind (takes_release hoptions) .pure) .pure)) ?_ ?_
    · simp [ClientCall.Fits]
    · simp [ClientCall.Supplied, ClientCall.NftMintOf]
  | claimNftCore depositor pool asset collection =>
    refine .cast (builtFor_plain
      (.bind (.bind .writableSigner <| .bind .writable <| .bind .pinned_self <|
        .read fun _ _ => .bind .writablePinned <| .bind .account <| .bind .pinned_self <|
        .bind .pinned_self .pure) .pure)) ?_ ?_
    · simp [ClientCall.Fits]
    · simp [ClientCall.Supplied, ClientCall.NftMintOf]
  | closeSeized caller poolId asset collection depositor weightIndex =>
    refine .cast (builtFor_pool <| builtFor_plain
      (.bind (.bind .signer <| .bind .writable <| .bind .writable <|
        .read fun _ _ => .bind .writablePinned <| .bind .writablePinned_self <|
        .read fun _ _ => .bind .writablePinned <| .bind .pinned_self <|
        .read fun _ _ => .bind .pinned <| .bind .account .pure) .pure)) ?_ ?_
    · simp [ClientCall.Fits]
    · simp [ClientCall.Supplied, ClientCall.IndexOf, ClientCall.DepositorOf, ClientCall.NftMintOf,
        -Option.map_eq_some_iff]
  | commitRolls roller poolId batchCounter rollerUsdc usdcMint oracleQueue n =>
    refine .cast (builtFor_pool <| builtFor_batch <| builtFor_sent (sends_build (conveys_u8 _))
      (fun _ => rfl)
      (.bind (.bind .writableSigner <| .bind .pinned_self <| .read fun _ _ => .bind .writable <|
        .bind .pinned_self <| .read fun _ _ => .bind .writablePinned <| .bind .writable <|
        .bind .writablePinned_self <| .bind .pinned <| .bind .writablePinned <|
        .bind .pinned_self <| .bind .pinned_self <| .bind .pinned_self <| .bind .pinned_self <|
        .bind .pinned_self .pure) .pure)) ?_ ?_
    · simp [ClientCall.Fits]
    · simp [ClientCall.Supplied]
  | vrfCallback pool batchId randomness =>
    refine .cast (builtFor_batch <| builtFor_sent (sends_build (conveys_array32 _)) (fun _ => rfl)
      (.bind (.bind .signer <| .bind .writable <| .bind .account .pure) .pure)) ?_ ?_
    · simp [ClientCall.Fits]
    · simp [ClientCall.Supplied]
  | updateTier operator poolId nftMint displaced =>
    refine .cast (builtFor_pool <| builtFor_plain
      (.bind (.bind .signer <| .bind .pinned_self <| .bind .account <| .bind .writablePinned_self <|
        .bind .writable <| .bind .remaining .pure) .pure)) ?_ ?_
    · simp [ClientCall.Fits]
    · simp [ClientCall.Supplied]

/-- A call builds exactly where its numbers fit. On any ledger the program takes what was built for
exactly what the caller meant, and runs that, where the addresses are those of the ledger; it takes
it for nothing else. -/
theorem instruction_wire (w : Encoding) (X : Programs) (K : WellKnown) (call : ClientCall)
    (hplain : call.Plain w) :
    (¬call.Fits w → ∃ e, call.build w X K = .error e) ∧
    (call.Fits w → ∃ i, call.build w X K = .ok i ∧ ∀ c,
      (∀ instr, dispatch w X K c i = some instr ↔ call.Supplied K c ∧ instr = call.intended X) ∧
      ∀ clock result, process w X K c clock i = some result ↔
        call.Supplied K c ∧ exec X clock c (call.intended X) = .ok result) := by
  refine ⟨(builtFor_call hplain bankGenesis).refuses, fun hfits => ?_⟩
  obtain ⟨i, hbuilt, -⟩ := (builtFor_call (X := X) (K := K) hplain bankGenesis).builds hfits
  refine ⟨i, hbuilt, fun c => ?_⟩
  have hdispatch : ∀ instr, dispatch w X K c i = some instr ↔
      call.Supplied K c ∧ instr = call.intended X := by
    obtain ⟨i', hbuilt', h⟩ := (builtFor_call (X := X) (K := K) hplain c).builds hfits
    rw [hbuilt] at hbuilt'
    rwa [Except.ok.inj hbuilt']
  refine ⟨hdispatch, fun clock result => ?_⟩
  have hprocess : process w X K c clock i =
      (dispatch w X K c i).bind fun instr => (exec X clock c instr).toOption := rfl
  rw [hprocess, Option.bind_eq_some_iff]
  constructor
  · rintro ⟨instr, hinstr, hrun⟩
    obtain ⟨hsupplied, rfl⟩ := (hdispatch instr).mp hinstr
    exact ⟨hsupplied, toOption_eq_some.mp hrun⟩
  · rintro ⟨hsupplied, hrun⟩
    exact ⟨_, (hdispatch _).mpr ⟨hsupplied, rfl⟩, toOption_eq_some.mpr hrun⟩

def bankWellKnown : WellKnown := ⟨.key 70, .key 71, .key 72⟩

def bankApproval : ClientCall :=
  .approveDeposit (.key 2) 0 (.key 30) (.key 20) (.key 9) none 15_000_000 2 77

theorem bankApproval_plain : bankApproval.Plain walletEncoding :=
  ⟨by simp [bankApproval, ClientCall.keys], by simp [bankApproval, ClientCall.options]⟩

theorem bankApproval_fits : bankApproval.Fits walletEncoding := by
  simp [bankApproval, ClientCall.Fits, InWidth, FitsI64]

theorem bankApproval_supplied :
    bankApproval.Supplied bankWellKnown (bankRun [admitCards, depositCard 30]) := by
  change (_ = some (Pubkey.key 9)) ∧ (_ = some (Pubkey.key 20))
  decide +kernel

/-- It is built, and it activates the card. -/
theorem instruction_wire_approval :
    ∃ i, bankApproval.build walletEncoding bank bankWellKnown = .ok i ∧
      dispatch walletEncoding bank bankWellKnown (bankRun [admitCards, depositCard 30]) i =
        some (approveCard 30 15_000_000 77).2 := by
  obtain ⟨i, hbuilt, h⟩ := (instruction_wire walletEncoding bank bankWellKnown bankApproval
    bankApproval_plain).2 bankApproval_fits
  exact ⟨i, hbuilt, ((h _).1 _).mpr ⟨bankApproval_supplied, rfl⟩⟩

end

end ByeMachine
