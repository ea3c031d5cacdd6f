import ByeMachine.Refinement.Accounting
import ByeMachine.Refinement.Accounts

/-!
# What a successful handler did

One record a handler: the checks it made, what it read and computed, and what it
left. The proofs about an instruction read its record, never the handler.
-/

namespace ByeMachine

open Fallible

variable {X : Programs} {clock : Clock} {c c' : Chain} {events : List Event}

-- ---------------------------------------------------------------------------
-- Deposits
-- ---------------------------------------------------------------------------

structure RecordDeposit (X : Programs) (clock : Clock) (c : Chain) (poolKey depositor nftMint : Pubkey)
    (pool : Pool) (standard : ℕ) (tokens : Tokens) (externals : Externals) (c' : Chain)
    (events : List Event) : Prop where
  counts : pool.positionCounter + 1 < 2 ^ 64
  after : c' = { c with
    pools := c.pools.insert poolKey { pool with positionCounter := pool.positionCounter + 1 }
    positions := c.positions.insert (.position poolKey nftMint)
      (pendingPosition poolKey depositor nftMint pool.positionCounter standard
        (X.bumpOf (.position poolKey nftMint))
        (X.bumpOf (.positionVault (.position poolKey nftMint))))
    walletStats := c.walletStats.insert (.walletStats poolKey depositor)
      { (c.walletStats.lookup (.walletStats poolKey depositor)).getD ⟨.default, .default, 0, 0, 0⟩ with
        pool := poolKey, owner := depositor, bump := X.bumpOf (.walletStats poolKey depositor) }
    tokens
    externals }
  published : events
    = [.depositPending poolKey clock.slot (.position poolKey nftMint) depositor nftMint]

theorem recordDeposit_ok {poolKey depositor nftMint : Pubkey} {pool : Pool} {standard : ℕ}
    {tokens : Tokens} {externals : Externals}
    (h : recordDeposit X clock c poolKey depositor nftMint pool standard tokens externals
      = .ok (c', events)) :
    RecordDeposit X clock c poolKey depositor nftMint pool standard tokens externals c' events := by
  simp only [recordDeposit, bind_ok, okOr_ok, Checked.add_some, pure_ok, Prod.mk.injEq] at h
  obtain ⟨_, ⟨hcounts, rfl⟩, rfl, rfl⟩ := h
  exact ⟨hcounts, rfl, rfl⟩

structure Deposit (X : Programs) (clock : Clock) (c : Chain) (a : DepositAccounts) (c' : Chain)
    (events : List Event) (pool : Pool) (record : PoolCollection) (standard : ℕ)
    (tokens tokens' : Tokens) (externals : Externals) : Prop where
  signs : a.depositor.canSign = true
  loads : c.loadPool a.pool = .ok pool
  admitted : c.poolCollections.lookup a.poolCollection = some record
  free : c.positions.lookup (.position a.pool a.nftMint) = none
  init : initToken c.tokens (.positionVault (.position a.pool a.nftMint)) a.nftMint
    (.position a.pool a.nftMint) = .ok tokens
  mint : c.loadMint X a.nftMint = .ok ()
  held : ∃ account, tokens.lookup a.depositorToken = some account ∧ account.mint = a.nftMint ∧
    account.owner = a.depositor
  unpaused : pool.depositsPaused = false
  admits : validateAdmission X c.externals a.nftMint a.metadata a.masterEdition a.pool
    a.poolCollection record = .ok standard
  takes : takeCustody X standard a tokens c.externals = .ok (tokens', externals)
  records : recordDeposit X clock c a.pool a.depositor a.nftMint pool standard tokens' externals
    = .ok (c', events)

theorem deposit_ok {a : DepositAccounts} (h : deposit X clock c a = .ok (c', events)) :
    ∃ pool record standard tokens tokens' externals,
      Deposit X clock c a c' events pool record standard tokens tokens' externals := by
  simp only [deposit, loadToken, bind_ok, require_ok, requireSigner_ok, okOr_ok, Prod.exists] at h
  obtain ⟨-, hsign, pool, hpool, record, hrecord, -, hfree, tokens, hinit, ⟨⟩, hmint, account,
    haccount, -, hmints, -, howner, -, hunpaused, standard, hadmits, tokens', externals, htakes,
    hrecords⟩ := h
  exact ⟨pool, record, standard, tokens, tokens', externals, hsign, hpool, hrecord, hfree, hinit,
    hmint, ⟨account, haccount, hmints, howner⟩, hunpaused, hadmits, htakes, hrecords⟩

structure DepositCore (X : Programs) (clock : Clock) (c : Chain) (a : DepositCoreAccounts)
    (c' : Chain) (events : List Event) (pool : Pool) (record : PoolCollection)
    (asset : BaseAssetV1) (externals : Externals) : Prop where
  signs : a.depositor.canSign = true
  loads : c.loadPool a.pool = .ok pool
  admitted : c.poolCollections.lookup a.poolCollection = some record
  free : c.positions.lookup (.position a.pool a.asset) = none
  unpaused : pool.depositsPaused = false
  reads : readCoreAsset X (c.externals a.asset) = .ok asset
  owner : asset.owner = a.depositor
  declares : declaredCoreCollection asset = .ok a.collection
  admits : requireAdmits a.pool a.collection a.poolCollection record STANDARD_CORE = .ok ()
  transfers : X.transferCore ⟨a.asset, some a.collection, .positionVault (.position a.pool a.asset),
    a.depositor, a.depositor⟩ c.externals = some externals
  records : recordDeposit X clock c a.pool a.depositor a.asset pool STANDARD_CORE c.tokens externals
    = .ok (c', events)

theorem depositCore_ok {a : DepositCoreAccounts} (h : depositCore X clock c a = .ok (c', events)) :
    ∃ pool record asset externals,
      DepositCore X clock c a c' events pool record asset externals := by
  simp only [depositCore, invoke, bind_ok, require_ok, requireSigner_ok, okOr_ok] at h
  obtain ⟨-, hsign, pool, hpool, record, hrecord, -, hfree, -, hunpaused, asset, hreads, -, howner,
    collection, hdeclares, ⟨⟩, hadmits, -, rfl, externals, htransfers, hrecords⟩ := h
  exact ⟨pool, record, asset, externals, hsign, hpool, hrecord, hfree, hunpaused, hreads, howner,
    hdeclares, hadmits, htransfers, hrecords⟩

structure ApproveDeposit (clock : Clock) (c : Chain) (operator poolKey positionKey : Pubkey)
    (remaining : List AccountMeta) (value : ℕ) (observedAt lockUntil : ℤ) (c' : Chain)
    (events : List Event) (a : Loaded) (slot : ℕ) (index : WeightIndex) (topTier : TopTier)
    (positions : Positions) (entered : Bool) (displaced : Option Pubkey) (targets : BlankTargets)
    (age : ℤ) : Prop where
  operates : ∃ config, loadForOperator c operator = .ok config
  loads : loadThroughPool c poolKey positionKey = .ok a
  pending : a.position.state = .pending
  treasury : assertNotTreasuryPosition poolKey a.position.depositor = .ok ()
  opened : a.pool.openBatches = 0
  limits : validateAdmissionLimits a.pool value a.walletStats.activeValue = .ok ()
  attested : 0 < value ∧ value ≤ WEIGHT_C
  fits : a.pool.wReal + weight value < 2 ^ 64
  counts : a.pool.nReal + 1 < 2 ^ 32 ∧ a.walletStats.activePositions + 1 < 2 ^ 32 ∧
    a.walletStats.activeValue + value < 2 ^ 64
  inserts : a.weightIndex.insert value (a.pool.wReal + weight value) = .ok (slot, index)
  promotes : promoteActivated a.topTier a.pool.tierSize
    ⟨positionKey, value, clock.unixTimestamp, a.position.positionId⟩ remaining c.positions
      = .ok (topTier, positions, entered, displaced)
  balances : Rebalance.evaluate (a.pool.nReal + 1) (a.pool.wReal + weight value) a.pool.blankFaces
    a.pool.ticketTarget = .ok targets
  ages : checkedSubI64 clock.unixTimestamp observedAt = some age
  after : c' = { c with
    pools := c.pools.insert poolKey
      (a.pool.rebalanced (a.pool.nReal + 1) (a.pool.wReal + weight value) targets)
    positions := positions.insert positionKey
      (if entered then
        (a.position.activated value slot a.pool.accEqual observedAt clock.unixTimestamp
          lockUntil).entered a.topTier.accTier
      else a.position.activated value slot a.pool.accEqual observedAt clock.unixTimestamp lockUntil)
    weightIndexes := c.weightIndexes.insert a.pool.weightIndex index
    topTiers := c.topTiers.insert (.topTier poolKey) topTier
    walletStats := c.walletStats.insert (.walletStats poolKey a.position.depositor)
      { a.walletStats with
        activePositions := a.walletStats.activePositions + 1
        activeValue := a.walletStats.activeValue + value } }
  published : events
    = [.depositApproved poolKey clock.slot operator positionKey value observedAt age,
        .rebalanceEvaluated poolKey clock.slot (a.pool.nReal + 1) (a.pool.wReal + weight value)
          a.pool.blanks targets.toBlanks] ++
      if entered then [.tierChanged poolKey clock.slot displaced (some positionKey)] else []

theorem approveDeposit_ok {operator poolKey positionKey : Pubkey} {remaining : List AccountMeta}
    {value : ℕ} {observedAt lockUntil : ℤ}
    (h : approveDeposit clock c operator poolKey positionKey remaining value observedAt lockUntil
      = .ok (c', events)) :
    ∃ a slot index topTier positions entered displaced targets age,
      ApproveDeposit clock c operator poolKey positionKey remaining value observedAt lockUntil c'
        events a slot index topTier positions entered displaced targets age := by
  simp only [approveDeposit, bind_ok, require_ok, assertWeightOpen_ok, orArithmeticFailure_ok,
    Checked.add_some, weightOf_ok, narrowExpectedTotal_ok, pure_ok, Prod.mk.injEq, Prod.exists] at h
  obtain ⟨config, hconfig, a, ha, -, hpending, ⟨⟩, htreasury, -, hopen, ⟨⟩, hlimits, _,
    ⟨hpos, hle, rfl⟩, _, ⟨-, rfl⟩, _, ⟨hreal, rfl⟩, _, ⟨hfits, rfl⟩, slot, index, hinserts, _,
    ⟨hpositions, rfl⟩, _, ⟨hvalue, rfl⟩, topTier, positions, entered, displaced, hpromotes, targets,
    hbalances, age, hages, rfl, rfl⟩ := h
  exact ⟨a, slot, index, topTier, positions, entered, displaced, targets, age, ⟨config, hconfig⟩, ha,
    hpending, htreasury, hopen, hlimits, ⟨hpos, hle⟩, hfits, ⟨hreal, hpositions, hvalue⟩, hinserts,
    hpromotes, hbalances, hages, rfl, rfl⟩

structure RejectDeposit (clock : Clock) (c : Chain) (operator positionKey : Pubkey) (reason : ℕ)
    (c' : Chain) (events : List Event) (p : Position) : Prop where
  operates : ∃ config, loadForOperator c operator = .ok config
  found : c.positions.lookup positionKey = some p
  keyed : positionKey = .position p.pool p.nftMint
  pending : p.state = .pending
  treasury : assertNotTreasuryPosition p.pool p.depositor = .ok ()
  after : c' = { c with
    positions := c.positions.insert positionKey { p with state := .rejected, rejectReason := reason } }
  published : events = [.depositRejected p.pool clock.slot operator positionKey reason]

theorem rejectDeposit_ok {operator positionKey : Pubkey} {reason : ℕ}
    (h : rejectDeposit clock c operator positionKey reason = .ok (c', events)) :
    ∃ p, RejectDeposit clock c operator positionKey reason c' events p := by
  simp only [rejectDeposit, bind_ok, require_ok, loadOwnPosition_ok, pure_ok, Prod.mk.injEq] at h
  obtain ⟨config, hconfig, p, ⟨hp, hkey⟩, -, hpending, ⟨⟩, htreasury, rfl, rfl⟩ := h
  exact ⟨p, ⟨config, hconfig⟩, hp, hkey, hpending, htreasury, rfl, rfl⟩

-- ---------------------------------------------------------------------------
-- Values and the tier
-- ---------------------------------------------------------------------------

structure RecordValue (clock : Clock) (c : Chain) (operator poolKey positionKey : Pubkey)
    (remaining : List AccountMeta) (value : ℕ) (observedAt : ℤ) (c' : Chain) (events : List Event)
    (a : Loaded) (booked : Booked RecordEffect) (index : WeightIndex) (topTier : TopTier)
    (p : Position) (positions : Positions) (change : TierChange) : Prop where
  operates : ∃ config, loadForOperator c operator = .ok config
  loads : loadThroughPool c poolKey positionKey = .ok a
  books : applyRecordValue a.pool a.position a.walletStats value observedAt clock.unixTimestamp
    = .ok booked
  moves : moveLeaf a.weightIndex booked.effect value = .ok index
  ranks : recordTier booked.effect.outcome a.topTier a.pool.tierSize poolKey positionKey
    booked.position value remaining c.positions = .ok (topTier, p, positions, change)
  after : c' = { c with
    pools := c.pools.insert poolKey booked.pool
    positions := positions.insert positionKey p
    weightIndexes := c.weightIndexes.insert a.pool.weightIndex index
    topTiers := c.topTiers.insert (.topTier poolKey) topTier
    walletStats := c.walletStats.insert (.walletStats poolKey a.position.depositor)
      booked.walletStats }
  published : events
    = [.valueRecorded poolKey clock.slot operator positionKey booked.effect.oldValue value observedAt,
        .rebalanceEvaluated poolKey clock.slot booked.pool.nReal booked.pool.wReal
          booked.effect.blanksBefore booked.pool.blanks] ++
      (match booked.effect.outcome with
        | .close =>
          [.belowFloorClosed poolKey clock.slot operator positionKey a.position.depositor]
        | .retained =>
          [.belowFloorRetained poolKey clock.slot operator positionKey p.lockUntil]
        | .refresh => []) ++ tierEvents poolKey clock.slot change

theorem recordValue_ok {operator poolKey positionKey : Pubkey} {remaining : List AccountMeta}
    {value : ℕ} {observedAt : ℤ}
    (h : recordValue clock c operator poolKey positionKey remaining value observedAt
      = .ok (c', events)) :
    ∃ a booked index topTier p positions change, RecordValue clock c operator poolKey positionKey
      remaining value observedAt c' events a booked index topTier p positions change := by
  simp only [recordValue, bind_ok, pure_ok, Prod.mk.injEq, Prod.exists] at h
  obtain ⟨config, hconfig, a, ha, booked, hbooks, index, hmoves, topTier, p, positions, change,
    hranks, rfl, rfl⟩ := h
  exact ⟨a, booked, index, topTier, p, positions, change, ⟨config, hconfig⟩, ha, hbooks, hmoves,
    hranks, rfl, rfl⟩

structure UpdateTier (clock : Clock) (c : Chain) (operator poolKey positionKey : Pubkey)
    (remaining : List AccountMeta) (c' : Chain) (events : List Event) (pool : Pool)
    (topTier topTier' : TopTier) (p p' : Position) (crossed : Tier.CrossOutcome)
    (positions : Positions) (left : Option Pubkey) : Prop where
  operates : ∃ config, loadForOperator c operator = .ok config
  loads : c.loadPool poolKey = .ok pool
  reads : c.loadTopTier poolKey = .ok topTier
  binds : c.loadPositionOf poolKey positionKey = .ok p
  eligible : Tier.isEligibleCandidate p.state p.inTier = true
  crosses : Tier.crossIntoTier topTier pool.tierSize p (Tier.entryOf positionKey p) topTier.accTier
    = .ok (topTier', p', crossed)
  settles : settleCrossed remaining c.positions topTier.accTier crossed = .ok (positions, left)
  after : c' = { c with
    positions := positions.insert positionKey p'
    topTiers := c.topTiers.insert (.topTier poolKey) topTier' }
  published : events = [.tierChanged poolKey clock.slot left (some positionKey)]

theorem updateTier_ok {operator poolKey positionKey : Pubkey} {remaining : List AccountMeta}
    (h : updateTier clock c operator poolKey positionKey remaining = .ok (c', events)) :
    ∃ pool topTier topTier' p p' crossed positions left, UpdateTier clock c operator poolKey
      positionKey remaining c' events pool topTier topTier' p p' crossed positions left := by
  simp only [updateTier, bind_ok, require_ok, pure_ok, Prod.mk.injEq, Prod.exists] at h
  obtain ⟨config, hconfig, pool, hpool, topTier, htier, p, hp, -, heligible, topTier', p', crossed,
    hcrosses, positions, left, hsettles, rfl, rfl⟩ := h
  exact ⟨pool, topTier, topTier', p, p', crossed, positions, left, ⟨config, hconfig⟩, hpool, htier,
    hp, heligible, hcrosses, hsettles, rfl, rfl⟩

-- ---------------------------------------------------------------------------
-- Exits
-- ---------------------------------------------------------------------------

structure ReturnRejected (X : Programs) (clock : Clock) (c : Chain) (payer positionKey : Pubkey)
    (a : ReleaseAccounts) (c' : Chain) (events : List Event) (p : Position) (tokens : Tokens)
    (externals : Externals) : Prop where
  signs : payer.canSign = true
  found : c.positions.lookup positionKey = some p
  keyed : positionKey = .position p.pool p.nftMint
  exits : requireTokenMetadataExit X c p positionKey = .ok ()
  rejected : p.state = .rejected
  releases : releaseAndClose X p positionKey payer a c.tokens c.externals = .ok (tokens, externals)
  after : c' = { c with positions := c.positions.erase positionKey, tokens, externals }
  published : events = [.nftReturned p.pool clock.slot positionKey p.depositor p.nftMint]

theorem returnRejected_ok {payer positionKey : Pubkey} {a : ReleaseAccounts}
    (h : returnRejected X clock c payer positionKey a = .ok (c', events)) :
    ∃ p tokens externals,
      ReturnRejected X clock c payer positionKey a c' events p tokens externals := by
  simp only [returnRejected, bind_ok, require_ok, requireSigner_ok, loadOwnPosition_ok, pure_ok,
    Prod.mk.injEq, Prod.exists] at h
  obtain ⟨-, hsign, p, ⟨hp, hkey⟩, ⟨⟩, hexits, -, hstate, tokens, externals, hreleases, rfl, rfl⟩ :=
    h
  exact ⟨p, tokens, externals, hsign, hp, hkey, hexits, hstate, hreleases, rfl, rfl⟩

structure ReturnRejectedCore (X : Programs) (clock : Clock) (c : Chain)
    (payer positionKey collection : Pubkey) (c' : Chain) (events : List Event) (p : Position)
    (named : Option Pubkey) (externals : Externals) : Prop where
  signs : payer.canSign = true
  found : c.positions.lookup positionKey = some p
  keyed : positionKey = .position p.pool p.nftMint
  core : p.standard = STANDARD_CORE
  rejected : p.state = .rejected
  settleable : requireCollateralSettleable X c.externals p.nftMint collection
    (.positionVault positionKey) = .ok named
  releases : releaseCoreFromVault X c.externals p.nftMint named p.depositor
    (.positionVault positionKey) payer = .ok externals
  after : c' = { c with positions := c.positions.erase positionKey, externals }
  published : events = [.nftReturned p.pool clock.slot positionKey p.depositor p.nftMint]

theorem returnRejectedCore_ok {payer positionKey collection : Pubkey}
    (h : returnRejectedCore X clock c payer positionKey collection = .ok (c', events)) :
    ∃ p named externals,
      ReturnRejectedCore X clock c payer positionKey collection c' events p named externals := by
  simp only [returnRejectedCore, bind_ok, require_ok, requireSigner_ok, loadOwnPosition_ok, pure_ok,
    Prod.mk.injEq] at h
  obtain ⟨-, hsign, p, ⟨hp, hkey⟩, -, hcore, -, hstate, named, hgate, externals, hreleases, rfl,
    rfl⟩ := h
  exact ⟨p, named, externals, hsign, hp, hkey, hcore, hstate, hgate, hreleases, rfl, rfl⟩

structure ClaimNft (X : Programs) (clock : Clock) (c : Chain) (depositor positionKey : Pubkey)
    (a : ReleaseAccounts) (c' : Chain) (events : List Event) (p : Position) (tokens : Tokens)
    (externals : Externals) : Prop where
  signs : depositor.canSign = true
  found : c.positions.lookup positionKey = some p
  keyed : positionKey = .position p.pool p.nftMint
  owner : p.depositor = depositor
  exits : requireTokenMetadataExit X c p positionKey = .ok ()
  closed : p.state = .closedBelowFloor
  releases : releaseAndClose X p positionKey depositor a c.tokens c.externals
    = .ok (tokens, externals)
  after : c' = { c with positions := c.positions.erase positionKey, tokens, externals }
  published : events = [.nftClaimed p.pool clock.slot positionKey depositor p.nftMint]

theorem claimNft_ok {depositor positionKey : Pubkey} {a : ReleaseAccounts}
    (h : claimNft X clock c depositor positionKey a = .ok (c', events)) :
    ∃ p tokens externals,
      ClaimNft X clock c depositor positionKey a c' events p tokens externals := by
  simp only [claimNft, bind_ok, require_ok, requireSigner_ok, loadOwnPosition_ok, pure_ok,
    Prod.mk.injEq, Prod.exists] at h
  obtain ⟨-, hsign, p, ⟨hp, hkey⟩, -, howner, ⟨⟩, hexits, -, hstate, tokens, externals, hreleases,
    rfl, rfl⟩ := h
  exact ⟨p, tokens, externals, hsign, hp, hkey, howner, hexits, hstate, hreleases, rfl, rfl⟩

structure ClaimNftCore (X : Programs) (clock : Clock) (c : Chain)
    (depositor positionKey collection : Pubkey) (c' : Chain) (events : List Event) (p : Position)
    (named : Option Pubkey) (externals : Externals) : Prop where
  signs : depositor.canSign = true
  found : c.positions.lookup positionKey = some p
  keyed : positionKey = .position p.pool p.nftMint
  owner : p.depositor = depositor
  core : p.standard = STANDARD_CORE
  closed : p.state = .closedBelowFloor ∨ p.state = .seized
  settleable : requireCollateralSettleable X c.externals p.nftMint collection
    (.positionVault positionKey) = .ok named
  releases : releaseCoreFromVault X c.externals p.nftMint named depositor
    (.positionVault positionKey) depositor = .ok externals
  after : c' = { c with positions := c.positions.erase positionKey, externals }
  published : events = [.nftClaimed p.pool clock.slot positionKey depositor p.nftMint]

theorem claimNftCore_ok {depositor positionKey collection : Pubkey}
    (h : claimNftCore X clock c depositor positionKey collection = .ok (c', events)) :
    ∃ p named externals,
      ClaimNftCore X clock c depositor positionKey collection c' events p named externals := by
  simp only [claimNftCore, bind_ok, require_ok, requireSigner_ok, loadOwnPosition_ok, pure_ok,
    Prod.mk.injEq] at h
  obtain ⟨-, hsign, p, ⟨hp, hkey⟩, -, howner, -, hcore, -, hstate, named, hgate, externals,
    hreleases, rfl, rfl⟩ := h
  exact ⟨p, named, externals, hsign, hp, hkey, howner, hcore, hstate, hgate, hreleases, rfl, rfl⟩

/-- What the two withdrawals share. -/
structure WithdrawAccounting (clock : Clock) (c : Chain) (poolKey positionKey : Pubkey)
    (depositorUsdc : Option Pubkey) (remaining : List AccountMeta) (a : Loaded) (c' : Chain)
    (events : List Event) (booked : Booked WithdrawEffect) (index : WeightIndex)
    (topTier : TopTier) (p : Position) (positions : Positions) (change : TierChange)
    (tokens : Tokens) : Prop where
  books : applyWithdraw a.pool a.position a.walletStats a.topTier.accTier clock.unixTimestamp
    = .ok booked
  removes : a.weightIndex.remove booked.effect.slotIndex booked.effect.recordedValue
    booked.effect.expectedTotal = .ok index
  ranks : withdrawTier booked.effect.wasMember a.topTier a.pool.tierSize poolKey positionKey
    booked.position remaining c.positions = .ok (topTier, p, positions, change)
  pays : payFees c.tokens poolKey depositorUsdc booked.effect.feesPaid = .ok tokens
  after : c' = { c with
    pools := c.pools.insert poolKey booked.pool
    positions := positions.erase positionKey
    weightIndexes := c.weightIndexes.insert a.pool.weightIndex index
    topTiers := c.topTiers.insert (.topTier poolKey) topTier
    walletStats := c.walletStats.insert (.walletStats poolKey a.position.depositor)
      booked.walletStats
    tokens }
  published : events
    = [.withdrawn poolKey clock.slot positionKey a.position.depositor booked.effect.feesPaid,
        .rebalanceEvaluated poolKey clock.slot booked.pool.nReal booked.pool.wReal
          booked.effect.blanksBefore booked.pool.blanks] ++ tierEvents poolKey clock.slot change

theorem withdrawAccounting_ok {poolKey positionKey : Pubkey} {depositorUsdc : Option Pubkey}
    {remaining : List AccountMeta} {a : Loaded}
    (h : withdrawAccounting clock c poolKey positionKey depositorUsdc remaining a
      = .ok (c', events)) :
    ∃ booked index topTier p positions change tokens, WithdrawAccounting clock c poolKey positionKey
      depositorUsdc remaining a c' events booked index topTier p positions change tokens := by
  simp only [withdrawAccounting, bind_ok, pure_ok, Prod.mk.injEq, Prod.exists] at h
  obtain ⟨booked, hbooks, index, hremoves, topTier, p, positions, change, hranks, tokens, hpays, rfl,
    rfl⟩ := h
  exact ⟨booked, index, topTier, p, positions, change, tokens, hbooks, hremoves, hranks, hpays, rfl,
    rfl⟩

structure Withdraw (X : Programs) (clock : Clock) (c : Chain)
    (depositor poolKey positionKey : Pubkey) (depositorUsdc : Option Pubkey)
    (remaining : List AccountMeta) (release : ReleaseAccounts) (c' : Chain) (events : List Event)
    (a : Loaded) (paid : Chain) (tokens : Tokens) (externals : Externals) : Prop where
  signs : depositor.canSign = true
  loads : loadThroughPool c poolKey positionKey = .ok a
  owner : a.position.depositor = depositor
  exits : requireTokenMetadataExit X c a.position positionKey = .ok ()
  payout : checkDepositorUsdc c poolKey depositor depositorUsdc = .ok ()
  accounts : withdrawAccounting clock c poolKey positionKey depositorUsdc remaining a
    = .ok (paid, events)
  releases : releaseAndClose X a.position positionKey depositor release paid.tokens paid.externals
    = .ok (tokens, externals)
  after : c' = { paid with tokens, externals }

theorem withdraw_ok {depositor poolKey positionKey : Pubkey} {depositorUsdc : Option Pubkey}
    {remaining : List AccountMeta} {release : ReleaseAccounts}
    (h : withdraw X clock c depositor poolKey positionKey depositorUsdc remaining release
      = .ok (c', events)) :
    ∃ a paid tokens externals, Withdraw X clock c depositor poolKey positionKey depositorUsdc
      remaining release c' events a paid tokens externals := by
  simp only [withdraw, bind_ok, require_ok, requireSigner_ok, pure_ok, Prod.mk.injEq,
    Prod.exists] at h
  obtain ⟨-, hsign, a, ha, -, howner, ⟨⟩, hexits, ⟨⟩, hpayout, paid, _, haccounts, tokens, externals,
    hreleases, rfl, rfl⟩ := h
  exact ⟨a, paid, tokens, externals, hsign, ha, howner, hexits, hpayout, haccounts, hreleases, rfl⟩

structure WithdrawCore (X : Programs) (clock : Clock) (c : Chain)
    (depositor poolKey positionKey : Pubkey) (depositorUsdc : Option Pubkey) (collection : Pubkey)
    (remaining : List AccountMeta) (c' : Chain) (events : List Event) (a : Loaded)
    (named : Option Pubkey) (paid : Chain) (externals : Externals) : Prop where
  signs : depositor.canSign = true
  loads : loadThroughPool c poolKey positionKey = .ok a
  owner : a.position.depositor = depositor
  core : a.position.standard = STANDARD_CORE
  payout : checkDepositorUsdc c poolKey depositor depositorUsdc = .ok ()
  settleable : requireCollateralSettleable X c.externals a.position.nftMint collection
    (.positionVault positionKey) = .ok named
  accounts : withdrawAccounting clock c poolKey positionKey depositorUsdc remaining a
    = .ok (paid, events)
  releases : releaseCoreFromVault X paid.externals a.position.nftMint named depositor
    (.positionVault positionKey) depositor = .ok externals
  after : c' = { paid with externals }

theorem withdrawCore_ok {depositor poolKey positionKey collection : Pubkey}
    {depositorUsdc : Option Pubkey} {remaining : List AccountMeta}
    (h : withdrawCore X clock c depositor poolKey positionKey depositorUsdc collection remaining
      = .ok (c', events)) :
    ∃ a named paid externals, WithdrawCore X clock c depositor poolKey positionKey depositorUsdc
      collection remaining c' events a named paid externals := by
  simp only [withdrawCore, bind_ok, require_ok, requireSigner_ok, pure_ok, Prod.mk.injEq,
    Prod.exists] at h
  obtain ⟨-, hsign, a, ha, -, howner, -, hcore, ⟨⟩, hpayout, named, hgate, paid, _, haccounts,
    externals, hreleases, rfl, rfl⟩ := h
  exact ⟨a, named, paid, externals, hsign, ha, howner, hcore, hpayout, hgate, haccounts, hreleases,
    rfl⟩

structure CloseSeized (X : Programs) (clock : Clock) (c : Chain)
    (caller poolKey positionKey collection : Pubkey) (c' : Chain) (events : List Event) (a : Loaded)
    (kind : SeizureKind) (owner : Pubkey) (booked : Booked SeizeEffect) (index : WeightIndex)
    (topTier : TopTier) (p : Position) (change : TierChange) : Prop where
  signs : caller.canSign = true
  loads : loadThroughPool c poolKey positionKey = .ok a
  core : a.position.standard = STANDARD_CORE
  inVault : cardInVault a.position.state = true
  unreachable : requireCollateralUnreachable X c.externals a.position.nftMint collection
    (.positionVault positionKey) = .ok (kind, owner)
  books : applyCloseSeized a.pool a.position a.walletStats kind clock.unixTimestamp = .ok booked
  removes : removeDeparted a.weightIndex a.topTier positionKey booked.position
    booked.effect.departure = .ok (index, topTier, p, change)
  after : c' = { c with
    pools := c.pools.insert poolKey booked.pool
    positions := c.positions.insert positionKey p
    weightIndexes := c.weightIndexes.insert a.pool.weightIndex index
    topTiers := c.topTiers.insert (.topTier poolKey) topTier
    walletStats := c.walletStats.insert (.walletStats poolKey a.position.depositor)
      booked.walletStats }
  published : events
    = [.positionSeized poolKey clock.slot positionKey kind owner booked.effect.sourceState
        booked.effect.recordedValue] ++
      (match booked.effect.departure with
        | some departure =>
          [.rebalanceEvaluated poolKey clock.slot booked.pool.nReal booked.pool.wReal
            departure.blanksBefore booked.pool.blanks]
        | none => []) ++ tierEvents poolKey clock.slot change

theorem closeSeized_ok {caller poolKey positionKey collection : Pubkey}
    (h : closeSeized X clock c caller poolKey positionKey collection = .ok (c', events)) :
    ∃ a kind owner booked index topTier p change, CloseSeized X clock c caller poolKey positionKey
      collection c' events a kind owner booked index topTier p change := by
  simp only [closeSeized, bind_ok, require_ok, requireSigner_ok, pure_ok, Prod.mk.injEq,
    Prod.exists] at h
  obtain ⟨-, hsign, a, ha, -, hcore, -, hvault, kind, owner, hcause, booked, hbooks, index, topTier,
    p, change, hremoves, rfl, rfl⟩ := h
  exact ⟨a, kind, owner, booked, index, topTier, p, change, hsign, ha, hcore, hvault, hcause, hbooks,
    hremoves, rfl, rfl⟩

-- ---------------------------------------------------------------------------
-- Pools and rolls
-- ---------------------------------------------------------------------------

structure InitPool (X : Programs) (clock : Clock) (c : Chain) (administrator weightIndex : Pubkey)
    (args : PoolConfigArgs) (c' : Chain) (events : List Event) (config : ProtocolConfig)
    (tokens tokens' : Tokens) : Prop where
  administers : loadForAdministrator c administrator = .ok config
  free : c.pools.lookup (.pool config.poolCounter) = none
  zero : c.weightIndexes.lookup weightIndex = none ∧
    (c.externals weightIndex).owner = .program .byeMachine ∧
    (c.externals weightIndex).data.take 8 = List.replicate 8 0
  tierFree : c.topTiers.lookup (.topTier (.pool config.poolCounter)) = none
  mint : c.loadMint X config.usdcMint = .ok ()
  vault : initToken c.tokens (.principalVault (.pool config.poolCounter)) config.usdcMint
    (.pool config.poolCounter) = .ok tokens
  treasury : initToken tokens (.treasury04 (.pool config.poolCounter)) config.usdcMint
    (.pool config.poolCounter) = .ok tokens'
  valid : validateConfig args = .ok ()
  blank : assertWeightIndexBlank (c.externals weightIndex).data = .ok ()
  counts : config.poolCounter + 1 < 2 ^ 16
  after : c' = { c with
    protocolConfig := some { config with poolCounter := config.poolCounter + 1 }
    pools := c.pools.insert (.pool config.poolCounter)
      (genesisPool config.poolCounter weightIndex args (X.bumpOf (.pool config.poolCounter)))
    weightIndexes := c.weightIndexes.insert weightIndex (.blank (.pool config.poolCounter))
    topTiers := c.topTiers.insert (.topTier (.pool config.poolCounter))
      (genesisTier (.pool config.poolCounter) (X.bumpOf (.topTier (.pool config.poolCounter))))
    tokens := tokens' }
  published : events
    = [.poolInitialized (.pool config.poolCounter) clock.slot administrator config.poolCounter
        weightIndex args.treasury03 args.price args.ticketTarget args.fee args.allocEqualBps
        args.allocTierBps args.allocProtocolBps args.admissionFloor args.admissionCeiling
        args.walletValueCap args.maxN args.buybackRateBps args.blankFaces args.t04Ceiling
        args.sweepCadenceHours args.tierSize]

theorem initPool_ok {administrator weightIndex : Pubkey} {args : PoolConfigArgs}
    (h : initPool X clock c administrator weightIndex args = .ok (c', events)) :
    ∃ config tokens tokens',
      InitPool X clock c administrator weightIndex args c' events config tokens tokens' := by
  simp only [initPool, bind_ok, require_ok, okOr_ok, Checked.add_some, pure_ok,
    Prod.mk.injEq] at h
  obtain ⟨config, hconfig, -, hfree, -, hzero, -, htier, ⟨⟩, hmint, tokens, hvault, tokens',
    htreasury, ⟨⟩, hvalid, ⟨⟩, hblank, _, ⟨hcounts, rfl⟩, rfl, rfl⟩ := h
  exact ⟨config, tokens, tokens', hconfig, hfree, hzero, htier, hmint, hvault, htreasury, hvalid,
    hblank, hcounts, rfl, rfl⟩

structure UpdateConfig (clock : Clock) (c : Chain) (administrator poolKey : Pubkey)
    (remaining : List AccountMeta) (update : ConfigUpdate) (c' : Chain) (events : List Event)
    (pool : Pool) (topTier topTier' : TopTier) (positions : Positions) (demoted : List Event) :
    Prop where
  administers : ∃ config, loadForAdministrator c administrator = .ok config
  loads : c.loadPool poolKey = .ok pool
  reads : c.loadTopTier poolKey = .ok topTier
  valid : validate (effectiveConfig pool update) = .ok ()
  freezes : requireFreeze pool update = .ok ()
  demotes : demotions topTier remaining c.positions poolKey clock.slot update
    = .ok (topTier', positions, demoted)
  after : c' = { c with
    pools := c.pools.insert poolKey (applyUpdate pool update)
    topTiers := c.topTiers.insert (.topTier poolKey) topTier'
    positions }
  published : events = demoted ++ (plannedChanges pool update).map fun (param, old, new) =>
    .configChanged poolKey clock.slot administrator param old new

theorem updateConfig_ok {administrator poolKey : Pubkey} {remaining : List AccountMeta}
    {update : ConfigUpdate}
    (h : updateConfig clock c administrator poolKey remaining update = .ok (c', events)) :
    ∃ pool topTier topTier' positions demoted, UpdateConfig clock c administrator poolKey remaining
      update c' events pool topTier topTier' positions demoted := by
  simp only [updateConfig, bind_ok, pure_ok, Prod.mk.injEq, Prod.exists] at h
  obtain ⟨config, hconfig, pool, hpool, topTier, htier, ⟨⟩, hvalid, ⟨⟩, hfreezes, topTier', positions,
    demoted, hdemotes, rfl, rfl⟩ := h
  exact ⟨pool, topTier, topTier', positions, demoted, ⟨config, hconfig⟩, hpool, htier, hvalid,
    hfreezes, hdemotes, rfl, rfl⟩

structure CommitRolls (X : Programs) (clock : Clock) (c : Chain) (roller poolKey rollerUsdc : Pubkey)
    (n : ℕ) (c' : Chain) (events : List Event) (config : ProtocolConfig) (pool pool' : Pool)
    (topTier : TopTier) (source vault : TokenAccount) (batchId liability : ℕ) (tokens : Tokens)
    (externals : Externals) : Prop where
  signs : roller.canSign = true
  configured : c.loadConfig = .ok config
  loads : c.loadPool poolKey = .ok pool
  reads : c.loadTopTier poolKey = .ok topTier
  free : c.rollBatches.lookup (.rollBatch poolKey pool.batchCounter) = none
  funds : c.tokens.lookup rollerUsdc = some source
  holds : c.tokens.lookup (.principalVault poolKey) = some vault
  sameMint : source.mint = vault.mint
  owner : source.owner = roller
  mint : c.loadMint X config.usdcMint = .ok ()
  commits : applyCommit pool topTier.len n = .ok (pool', batchId, liability)
  pays : splTransfer c.tokens rollerUsdc (.principalVault poolKey) roller liability = .ok tokens
  requests : X.requestRandomness ⟨roller, config.oracleQueue, .rollBatch poolKey pool.batchCounter,
    .rollBatch poolKey pool.batchCounter, poolKey, .rollBatch poolKey pool.batchCounter⟩ c.externals
      = some externals
  after : c' = { c with
    pools := c.pools.insert poolKey pool'
    rollBatches := c.rollBatches.insert (.rollBatch poolKey pool.batchCounter)
      (committedBatch poolKey roller (.rollBatch poolKey pool.batchCounter) pool' batchId n
        clock.slot (X.bumpOf (.rollBatch poolKey pool.batchCounter)))
    tokens
    externals }
  published : events
    = [.batchCommitted poolKey clock.slot roller (.rollBatch poolKey pool.batchCounter) n
        pool'.price pool'.ticketTarget pool'.fee
        ![pool'.allocEqualBps, pool'.allocTierBps, pool'.allocProtocolBps] pool'.blankFaces]

theorem commitRolls_ok {roller poolKey rollerUsdc : Pubkey} {n : ℕ}
    (h : commitRolls X clock c roller poolKey rollerUsdc n = .ok (c', events)) :
    ∃ config pool pool' topTier source vault batchId liability tokens externals,
      CommitRolls X clock c roller poolKey rollerUsdc n c' events config pool pool' topTier source
        vault batchId liability tokens externals := by
  simp only [commitRolls, loadToken, invoke, bind_ok, require_ok, requireSigner_ok, okOr_ok, pure_ok,
    Prod.mk.injEq, Prod.exists] at h
  obtain ⟨-, hsign, config, hconfig, pool, hpool, topTier, htier, -, hfree, source, hsource, vault,
    hvault, -, hmints, -, howner, ⟨⟩, hmint, pool', batchId, liability, hcommits, tokens, hpays,
    externals, hrequests, rfl, rfl⟩ := h
  exact ⟨config, pool, pool', topTier, source, vault, batchId, liability, tokens, externals, hsign,
    hconfig, hpool, htier, hfree, hsource, hvault, hmints, howner, hmint, hcommits, hpays, hrequests,
    rfl, rfl⟩

structure VrfCallback (X : Programs) (clock : Clock) (c : Chain) (signer batchKey poolKey : Pubkey)
    (randomness : ℕ) (c' : Chain) (events : List Event) (batch batch' : RollBatch) (pool : Pool) :
    Prop where
  signer : signer = X.scopedVrfIdentity
  found : c.rollBatches.lookup batchKey = some batch
  keyed : batchKey = .rollBatch batch.pool batch.batchId
  loads : c.loadPool poolKey = .ok pool
  ofPool : poolKey = batch.pool
  resolves : applyResolve batch pool randomness = .ok batch'
  after : c' = { c with rollBatches := c.rollBatches.insert batchKey batch' }
  published : events = [.batchResolved poolKey clock.slot batchKey]

theorem vrfCallback_ok {signer batchKey poolKey : Pubkey} {randomness : ℕ}
    (h : vrfCallback X clock c signer batchKey poolKey randomness = .ok (c', events)) :
    ∃ batch batch' pool,
      VrfCallback X clock c signer batchKey poolKey randomness c' events batch batch' pool := by
  simp only [vrfCallback, bind_ok, require_ok, okOr_ok, pure_ok, Prod.mk.injEq] at h
  obtain ⟨-, hsigner, batch, hbatch, -, hkey, pool, hpool, -, hofPool, batch', hresolves, rfl, rfl⟩ :=
    h
  exact ⟨batch, batch', pool, hsigner, hbatch, hkey, hpool, hofPool, hresolves, rfl, rfl⟩

end ByeMachine
