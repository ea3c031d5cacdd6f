import ByeMachine.Exec

/-!
# Scripts

A script runs instructions one after the other, each at its own clock; where it
ends is reachable. The small environment at the end is one on which the
instructions can be evaluated: a bank of Core cards whose bytes name their
owner.
-/

namespace ByeMachine

open Fallible

section
variable (X : Programs)

def runScript (script : List (Clock × Instr)) (c : Chain) : Result Chain :=
  script.foldlM (fun c s => (exec X s.1 c s.2).map Prod.fst) c

/-- Where a script leads, and the chain it started from where it fails. -/
def Chain.after (script : List (Clock × Instr)) (c : Chain) : Chain :=
  (runScript X script c).toOption.getD c

end

variable {X : Programs} {allowed : Chain → Instr → Prop} {c c' : Chain}
  {script : List (Clock × Instr)}

theorem exec_of_map {clock : Clock} {instr : Instr}
    (h : (exec X clock c instr).map Prod.fst = .ok c') :
    ∃ events, exec X clock c instr = .ok (c', events) := by
  cases hexec : exec X clock c instr with
  | error e => simp [hexec, Except.map] at h
  | ok answer =>
    simp only [hexec, Except.map, Except.ok.injEq] at h
    exact ⟨answer.2, by rw [← h]⟩

theorem runScript_steps (hallowed : ∀ s ∈ script, ∀ c, allowed c s.2)
    (h : runScript X script c = .ok c') : Relation.ReflTransGen (StepWhere X allowed) c c' := by
  induction script generalizing c with
  | nil =>
    simp only [runScript, List.foldlM_nil, pure_ok] at h
    exact h ▸ .refl
  | cons s rest ih =>
    simp only [runScript, List.foldlM_cons, bind_ok] at h
    obtain ⟨next, hstep, hrest⟩ := h
    obtain ⟨events, hrun⟩ := exec_of_map hstep
    exact .head (.instruction s.1 s.2 events (hallowed s (by simp) c) hrun)
      (ih (fun s hs => hallowed s (by simp [hs])) hrest)

theorem runScript_after (h : (runScript X script c).isOk) :
    runScript X script c = .ok (c.after X script) := by
  unfold Chain.after
  cases hrun : runScript X script c with
  | error e => simp [hrun, Except.isOk, Except.toBool] at h
  | ok c' => rfl

theorem exec_after {s : Clock × Instr} (h : (runScript X [s] c).isOk) :
    ∃ events, exec X s.1 c s.2 = .ok (c.after X [s], events) := by
  have hrun := runScript_after h
  simp only [runScript, List.foldlM_cons, List.foldlM_nil, bind_ok, pure_ok] at hrun
  obtain ⟨next, hstep, rfl⟩ := hrun
  exact exec_of_map hstep

theorem steps_after (hallowed : ∀ s ∈ script, ∀ c, allowed c s.2)
    (h : (runScript X script c).isOk) :
    Relation.ReflTransGen (StepWhere X allowed) c (c.after X script) :=
  runScript_steps hallowed (runScript_after h)

theorem ReachableWhere.after (hc : ReachableWhere X allowed c)
    (hallowed : ∀ s ∈ script, ∀ c, allowed c s.2) (h : (runScript X script c).isOk) :
    ReachableWhere X allowed (c.after X script) := by
  obtain ⟨c₀, hgenesis, hsteps⟩ := hc
  exact ⟨c₀, hgenesis, hsteps.trans (steps_after hallowed h)⟩

-- ---------------------------------------------------------------------------
-- Founding a pool
-- ---------------------------------------------------------------------------

theorem assertChunksZero_replicate {fuel n : ℕ} (h : n ≤ fuel) :
    assertChunksZero fuel (List.replicate n 0) = .ok () := by
  induction fuel generalizing n with
  | zero =>
    obtain rfl : n = 0 := by omega
    rfl
  | succ fuel ih =>
    cases n with
    | zero => rfl
    | succ n =>
      have hdrop : (List.replicate (n + 1) 0).drop ZERO_CHUNK_LEN
          = List.replicate (n + 1 - ZERO_CHUNK_LEN) 0 := List.drop_replicate
      simp only [assertChunksZero, List.replicate_succ]
      rw [← List.replicate_succ, require_pos (by simp [List.take_replicate]), ok_bind, hdrop]
      exact ih (by unfold ZERO_CHUNK_LEN; omega)

theorem assertWeightIndexBlank_replicate :
    assertWeightIndexBlank (List.replicate (8 + WEIGHT_INDEX_SPACE) 0) = .ok () := by
  unfold assertWeightIndexBlank
  rw [List.length_replicate, require_pos rfl, ok_bind, List.drop_replicate]
  exact assertChunksZero_replicate (Nat.sub_le _ _)

/-- The ledger `init_pool` leaves. -/
def Chain.withPool (c : Chain) (X : Programs) (config : ProtocolConfig) (weightIndex : Pubkey)
    (args : PoolConfigArgs) : Chain :=
  let poolKey := Pubkey.pool config.poolCounter
  { c with
    protocolConfig := some { config with poolCounter := config.poolCounter + 1 }
    pools := c.pools.insert poolKey
      (genesisPool config.poolCounter weightIndex args (X.bumpOf poolKey))
    weightIndexes := c.weightIndexes.insert weightIndex (.blank poolKey)
    topTiers := c.topTiers.insert (.topTier poolKey)
      (genesisTier poolKey (X.bumpOf (.topTier poolKey)))
    tokens := (c.tokens.insert (.principalVault poolKey)
      ⟨config.usdcMint, poolKey, 0, false⟩).insert (.treasury04 poolKey)
        ⟨config.usdcMint, poolKey, 0, false⟩ }

theorem initPool_succeeds {clock : Clock} {config : ProtocolConfig} {weightIndex : Pubkey}
    {args : PoolConfigArgs} (hconfig : c.protocolConfig = some config)
    (hsigner : config.administrator.canSign)
    (hpool : c.pools.lookup (.pool config.poolCounter) = none)
    (hindex : c.weightIndexes.lookup weightIndex = none)
    (hblank : c.externals weightIndex
      = ⟨.program .byeMachine, List.replicate (8 + WEIGHT_INDEX_SPACE) 0⟩)
    (htier : c.topTiers.lookup (.topTier (.pool config.poolCounter)) = none)
    (hmint : X.isMint (c.externals config.usdcMint))
    (hvault : c.tokens.lookup (.principalVault (.pool config.poolCounter)) = none)
    (htreasury : c.tokens.lookup (.treasury04 (.pool config.poolCounter)) = none)
    (hvalid : validateConfig args = .ok ()) (hcounter : config.poolCounter + 1 < 2 ^ 16) :
    (exec X clock c (.initPool config.administrator weightIndex args)).map Prod.fst
      = .ok (c.withPool X config weightIndex args) := by
  have hadmin : loadForAdministrator c config.administrator = .ok config := by
    unfold loadForAdministrator requireSigner Chain.loadConfig
    rw [require_pos hsigner, hconfig]
    simp [require_pos, pure, Except.pure]
  have htake : (List.replicate (8 + WEIGHT_INDEX_SPACE) 0).take 8 = List.replicate 8 0 := by
    rw [List.take_replicate, Nat.min_eq_left (Nat.le_add_right _ _)]
  have htreasury' : (c.tokens.insert (.principalVault (.pool config.poolCounter))
      ⟨config.usdcMint, .pool config.poolCounter, 0, false⟩).lookup
        (.treasury04 (.pool config.poolCounter)) = none := by
    rw [Finmap.lookup_insert_of_ne _ (by simp), htreasury]
  simp only [exec, initPool, hadmin, ok_bind, hpool, hindex, hblank, htier, htake, hvalid,
    Chain.loadMint, initToken, hvault, htreasury', assertWeightIndexBlank_replicate, require_pos,
    Checked.add_of_lt hcounter, okOr_some, and_self, hmint, pure, Except.pure, Except.map,
    Chain.withPool]

-- ---------------------------------------------------------------------------
-- A bank of Core cards
-- ---------------------------------------------------------------------------

def bankCollection : Pubkey := .key 50

/-- One byte names a wallet, two the vault of a position. -/
def bankOwner : List ℕ → Option Pubkey
  | [wallet] => some (.key wallet)
  | [pool, card] => some (.positionVault (.position (.pool pool) (.key card)))
  | _ => none

def bankBytes : Pubkey → Option (List ℕ)
  | .key wallet => some [wallet]
  | .positionVault (.position (.pool pool) (.key card)) => some [pool, card]
  | _ => none

def bankTransfer (call : CoreTransfer) (externals : Externals) : Option Externals :=
  let info := externals call.asset
  if bankOwner info.data = some call.authority then
    (bankBytes call.newOwner).map fun data =>
      Function.update externals call.asset { info with data }
  else none

/-- Cards without plugins, and nothing else. -/
def bank : Programs where
  initialAdministrator := .key 1
  bumpOf _ := 255
  isMint info := info.owner = .program .splToken
  associatedTokenAddress _ _ := .key 60
  metadataPda _ := .key 61
  masterEditionPda _ := .key 62
  parseMetadata _ := none
  parseMasterEdition _ := none
  parseAsset data := (bankOwner data).map fun owner =>
    ⟨.assetV1, owner, .collection bankCollection⟩
  loadBody _ info := some info.data.length
  parsePluginHeader _ := none
  parsePluginRegistry _ := none
  pluginTypeFromU8 _ := none
  transferEvent := 1
  fetchFrozen _ _ _ := none
  fetchRuleSet _ _ := none
  transferCore := bankTransfer
  transferPnft _ _ := none
  vrfProgram := .key 8
  scopedVrfIdentity := .key 7
  requestRandomness _ externals := some externals

/-- The settlement mint, a blank index account, and cards 30 to 39 in wallet 20. -/
def bankExternals : Externals
  | .key 3 => ⟨.program .splToken, []⟩
  | .key 9 => ⟨.program .byeMachine, List.replicate (8 + WEIGHT_INDEX_SPACE) 0⟩
  | .key n => if 30 ≤ n ∧ n < 40 then ⟨.program .mplCore, [20]⟩ else ⟨.default, []⟩
  | _ => ⟨.default, []⟩

/-- Wallet 21 can pay for rolls, wallet 20 can be paid. -/
def bankTokens : Tokens :=
  ((∅ : Tokens).insert (.key 40) ⟨.key 3, .key 21, 10 ^ 12, false⟩).insert (.key 41)
    ⟨.key 3, .key 20, 0, false⟩

def bankGenesis : Chain where
  protocolConfig := none
  pools := ∅
  weightIndexes := ∅
  topTiers := ∅
  positions := ∅
  walletStats := ∅
  poolCollections := ∅
  rollBatches := ∅
  tokens := bankTokens
  externals := bankExternals

def bankConfigArgs : ProtocolConfigArgs where
  operator := .key 2
  t03Authority := .key 4
  t02Authority := .key 5
  protocolRevenue := .key 6
  usdcMint := .key 3
  byeMint := .key 10
  vrfProgram := .key 8
  oracleQueue := .key 11
  swapPool := .key 12
  maxSwapSlippageBps := 100

def bankConfig : ProtocolConfig where
  administrator := .key 1
  pendingAdministrator := .default
  pendingOperator := .default
  pendingT03Authority := .default
  pendingT02Authority := .default
  operator := .key 2
  t03Authority := .key 4
  t02Authority := .key 5
  protocolRevenue := .key 6
  usdcMint := .key 3
  byeMint := .key 10
  vrfProgram := .key 8
  oracleQueue := .key 11
  swapPool := .key 12
  maxSwapSlippageBps := 100
  poolCounter := 0
  bump := 255

def defaultArgs (treasury03 : Pubkey) : PoolConfigArgs where
  treasury03
  price := DEFAULT_PRICE
  ticketTarget := DEFAULT_TICKET_TARGET
  fee := DEFAULT_FEE
  allocEqualBps := DEFAULT_ALLOC_EQUAL_BPS
  allocTierBps := DEFAULT_ALLOC_TIER_BPS
  allocProtocolBps := DEFAULT_ALLOC_PROTOCOL_BPS
  admissionFloor := DEFAULT_ADMISSION_FLOOR
  admissionCeiling := 0
  walletValueCap := 0
  maxN := MAX_BATCH_CAPACITY
  buybackRateBps := DEFAULT_BUYBACK_RATE_BPS
  blankFaces := DEFAULT_BLANK_FACES
  t04Ceiling := DEFAULT_T04_CEILING
  sweepCadenceHours := DEFAULT_SWEEP_CADENCE_HOURS
  tierSize := DEFAULT_TIER_SIZE

/-- The bank with one pool, founded on a configuration. -/
def bankPool (args : PoolConfigArgs) : Chain :=
  { bankGenesis with protocolConfig := some bankConfig }.withPool bank bankConfig (.key 9) args

def founding (args : PoolConfigArgs) : List (Clock × Instr) :=
  [(⟨0, 0⟩, .initProtocol (.key 1) bankConfigArgs), (⟨0, 0⟩, .initPool (.key 1) (.key 9) args)]

theorem founding_run {args : PoolConfigArgs} (hvalid : validateConfig args = .ok ()) :
    runScript bank (founding args) bankGenesis = .ok (bankPool args) := by
  have hpool : (exec bank ⟨0, 0⟩ { bankGenesis with protocolConfig := some bankConfig }
      (.initPool bankConfig.administrator (.key 9) args)).map Prod.fst = .ok (bankPool args) :=
    initPool_succeeds (X := bank) rfl rfl rfl rfl rfl rfl (by decide) (by decide +kernel)
      (by decide +kernel) hvalid (by decide)
  simp only [runScript, founding, List.foldlM_cons, List.foldlM_nil]
  rw [bind_ok]
  refine ⟨{ bankGenesis with protocolConfig := some bankConfig }, rfl, ?_⟩
  rw [bind_ok]
  exact ⟨_, hpool, rfl⟩

theorem bank_reachable {args : PoolConfigArgs} (hvalid : validateConfig args = .ok ())
    (hallowed : ∀ s ∈ founding args ++ script, ∀ c, allowed c s.2)
    (h : (runScript bank script (bankPool args)).isOk) :
    ReachableWhere bank allowed ((bankPool args).after bank script) := by
  have hfounded : ReachableWhere bank allowed (bankPool args) :=
    ⟨bankGenesis, ⟨rfl, rfl, rfl, rfl, rfl, rfl, rfl⟩,
      runScript_steps (fun s hs => hallowed s (List.mem_append_left _ hs)) (founding_run hvalid)⟩
  exact hfounded.after (fun s hs => hallowed s (List.mem_append_right _ hs)) h

/-- Where a script leads from the pool founded on the default configuration. -/
def bankRun (script : List (Clock × Instr)) : Chain :=
  (bankPool (defaultArgs .default)).after bank script

theorem defaultArgs_valid : validateConfig (defaultArgs .default) = .ok () := by decide +kernel

theorem bankRun_reachable
    (h : (runScript bank script (bankPool (defaultArgs .default))).isOk) :
    Reachable bank (bankRun script) :=
  bank_reachable defaultArgs_valid (fun _ _ _ => trivial) h

-- ---------------------------------------------------------------------------
-- Moves of a bank script
-- ---------------------------------------------------------------------------

def bankPosition (card : ℕ) : Pubkey := .position (.pool 0) (.key card)

def admitCards : Clock × Instr :=
  (⟨1, 1⟩, .admitCollection (.key 1) (.pool 0) bankCollection STANDARDS_BIT_CORE none)

/-- Wallet 20 deposits a card. -/
def depositCard (card : ℕ) : Clock × Instr :=
  (⟨1, 1⟩, .depositCore
    ⟨.key 20, .pool 0, .poolCollection (.pool 0) bankCollection, .key card, bankCollection⟩)

/-- The operator activates it, locked until a time. -/
def approveCard (card value : ℕ) (lockUntil : ℤ) : Clock × Instr :=
  (⟨2, 2⟩, .approveDeposit (.key 2) (.pool 0) (bankPosition card) [] value 2 lockUntil)

/-- The operator revalues card 30, in an open sweep. -/
def revalueCard (clock : Clock) (value : ℕ) : Clock × Instr :=
  (clock, .recordValue (.key 2) (.pool 0) (bankPosition 30) [] value clock.unixTimestamp)

/-- Wallet 21 opens a batch. -/
def commitBatch (n : ℕ) : Clock × Instr := (⟨3, 3⟩, .commitRolls (.key 21) (.pool 0) (.key 40) n)

def configure (update : ConfigUpdate) : Clock × Instr :=
  (⟨4, 4⟩, .updateConfig (.key 1) (.pool 0) [] update)

/-- Wallet 20 withdraws a card, and is paid to its own token account. -/
def withdrawCard (card : ℕ) : Clock × Instr :=
  (⟨5, 200⟩, .withdrawCore (.key 20) (.pool 0) (bankPosition card) (some (.key 41)) bankCollection
    [])

end ByeMachine
