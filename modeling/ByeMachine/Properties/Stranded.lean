import ByeMachine.Invariants.Accounted
import ByeMachine.Invariants.Lives
import ByeMachine.Laws.Rebalance
import ByeMachine.Properties.Census
import ByeMachine.Script

/-!
# No Core position is stranded

A Core position that may leave is let out by its own exit or by a seizure,
whatever its card has become, and a seizure that is let in books through. Its
weight leaves once, by whichever of the three departures comes first.
-/

namespace ByeMachine

open Fallible

variable {X : Programs} {may : Ledger → Settlement → Prop} {c c' : Chain} {L L' : Ledger}
  {key k collection : Pubkey} {p : Position} {now : ℤ} {clock : Clock} {events : List Event}
  {externals : Externals}

-- ---------------------------------------------------------------------------
-- The gates of the two routes
-- ---------------------------------------------------------------------------

/-- The state, freeze and lock guards of the exit a Core position has in its state. -/
def exitGuards (pool : Pool) (p : Position) (now : ℤ) : Result Unit :=
  match p.state with
  | .active => do
    assertWeightOpen pool
    require (p.lockUntil ≤ now) (.program .positionLocked)
  | .rejected | .closedBelowFloor | .seized => pure ()
  | .pending => throw (.program .invalidPositionState)

/-- The position's own exit is admitted, and names this collection in the transfer. -/
def ExitAdmitted (X : Programs) (externals : Externals) (pool : Pool) (k : Pubkey) (p : Position)
    (collection : Pubkey) (now : ℤ) (named : Option Pubkey) : Prop :=
  exitGuards pool p now = .ok () ∧
    requireCollateralSettleable X externals p.nftMint collection (.positionVault k) = .ok named

/-- The state, lock and freeze guards of `close_seized`. -/
def seizeGuards (pool : Pool) (p : Position) (kind : SeizureKind) (now : ℤ) : Result Unit := do
  require (cardInVault p.state) (.program .invalidPositionState)
  match p.state with
  | .active => do
    requireSeizable p kind now
    assertWeightOpen pool
  | .pending | .rejected | .closedBelowFloor | .seized => pure ()

/-- A seizure of the position is admitted, on this cause. -/
def SeizeAdmitted (X : Programs) (externals : Externals) (pool : Pool) (k : Pubkey) (p : Position)
    (collection : Pubkey) (now : ℤ) (kind : SeizureKind) (owner : Pubkey) : Prop :=
  requireCollateralUnreachable X externals p.nftMint collection (.positionVault k)
      = .ok (kind, owner) ∧ seizeGuards pool p kind now = .ok ()

/-- The exit a Core position has in its state. -/
inductive OwnExit (key k : Pubkey) (p : Position) (collection : Pubkey) : Instr → Prop where
  | returnRejectedCore (payer : Pubkey) (hstate : p.state = .rejected) :
      OwnExit key k p collection (.returnRejectedCore payer k collection)
  | claimNftCore (hstate : p.state = .closedBelowFloor) :
      OwnExit key k p collection (.claimNftCore p.depositor k collection)
  | withdrawCore (depositorUsdc : Option Pubkey) (remaining : List AccountMeta)
      (hstate : p.state = .active) :
      OwnExit key k p collection
        (.withdrawCore p.depositor key k depositorUsdc collection remaining)

/-- The collection account is the one the card declares, where it declares one. -/
def DeclaredSupplied (X : Programs) (externals : Externals) (asset collection : Pubkey) : Prop :=
  ∀ card declared, HoldsCard X externals asset card →
    card.updateAuthority = .collection declared → collection = declared

/-- The position may leave: it holds no weight, or its lock has passed and no batch is open. -/
def MayLeave (pool : Pool) (p : Position) (now : ℤ) : Prop :=
  p.state = .rejected ∨ p.state = .closedBelowFloor ∨
    (p.state = .active ∧ pool.openBatches = 0 ∧ p.lockUntil ≤ now)

theorem MayLeave.exitGuards {pool : Pool} (h : MayLeave pool p now) :
    exitGuards pool p now = .ok () := by
  rcases h with h | h | ⟨h, hopen, hlock⟩
  · rw [ByeMachine.exitGuards, h]
    rfl
  · rw [ByeMachine.exitGuards, h]
    rfl
  · simp only [ByeMachine.exitGuards, h, bind_ok, assertWeightOpen_ok, require_ok]
    exact ⟨(), hopen, hlock⟩

theorem MayLeave.seizeGuards {pool : Pool} (h : MayLeave pool p now) (kind : SeizureKind) :
    seizeGuards pool p kind now = .ok () := by
  rcases h with h | h | ⟨h, hopen, hlock⟩
  · simp [ByeMachine.seizeGuards, h, cardInVault, require_pos]
  · simp [ByeMachine.seizeGuards, h, cardInVault, require_pos]
  · have hseizable : requireSeizable p kind now = .ok () := by
      unfold requireSeizable
      split
      · exact require_pos hlock
      · rfl
    simp [ByeMachine.seizeGuards, h, cardInVault, require_pos, hseizable, assertWeightOpen, hopen]

theorem readCollateral_total {asset : Pubkey} (vault : Pubkey)
    (h : DeclaredSupplied X externals asset collection) :
    ∃ reading named, readCollateral X externals asset collection vault = .ok (reading, named) := by
  obtain ⟨answer, hanswer⟩ := Classifies.total X externals asset collection vault
  rw [hanswer.reads]
  cases hanswer with
  | misnamed hcard _ hdeclared hother => exact absurd (h _ _ hcard hdeclared) hother
  | burned | transferred | frozen | undecidable | settleable => exact ⟨_, _, rfl⟩

/-- One of the routes is open, and both are exactly where the reading is undecidable. -/
theorem routes_open (hleave : MayLeave L.pool p now)
    (hsupplied : DeclaredSupplied X externals p.nftMint collection) :
    ((∃ named, ExitAdmitted X externals L.pool k p collection now named) ∨
        ∃ kind owner, SeizeAdmitted X externals L.pool k p collection now kind owner) ∧
      (((∃ named, ExitAdmitted X externals L.pool k p collection now named) ∧
          ∃ kind owner, SeizeAdmitted X externals L.pool k p collection now kind owner) ↔
        ∃ owner named, readCollateral X externals p.nftMint collection (.positionVault k)
          = .ok (.undecidable owner, named)) := by
  obtain ⟨reading, named, hread⟩ := readCollateral_total (.positionVault k) hsupplied
  unfold ExitAdmitted SeizeAdmitted requireCollateralSettleable requireCollateralUnreachable
  rw [hread]
  cases reading with
  | settleable => simp [hleave.exitGuards, pure_ok]
  | unreachable cause owner => cases cause <;> simp [hleave.seizeGuards, pure_ok]
  | undecidable owner => simp [hleave.exitGuards, hleave.seizeGuards, pure_ok]

-- ---------------------------------------------------------------------------
-- The exits take their gates
-- ---------------------------------------------------------------------------

theorem release_isSome {asset : Pubkey} {named : Option Pubkey} {depositor vault payer : Pubkey} :
    (∃ externals', releaseCoreFromVault X externals asset named depositor vault payer
      = .ok externals') ↔
        (X.transferCore ⟨asset, named, depositor, vault, payer⟩ externals).isSome := by
  simp [releaseCoreFromVault, invoke, okOr_ok, Option.isSome_iff_exists]

theorem returnRejectedCore_iff {pool : Pool} {payer : Pubkey} (hp : c.positions.lookup k = some p)
    (hkey : k = .position p.pool p.nftMint) (hcore : p.standard = STANDARD_CORE)
    (hstate : p.state = .rejected) :
    (∃ out, returnRejectedCore X clock c payer k collection = .ok out) ↔
      payer.canSign = true ∧ ∃ named,
        ExitAdmitted X c.externals pool k p collection clock.unixTimestamp named ∧
        (X.transferCore ⟨p.nftMint, named, p.depositor, .positionVault k, payer⟩
          c.externals).isSome := by
  have hguards : exitGuards pool p clock.unixTimestamp = .ok () := by
    rw [exitGuards, hstate]
    rfl
  simp only [ExitAdmitted, hguards, true_and, ← release_isSome]
  constructor
  · rintro ⟨⟨c', events⟩, h⟩
    simp only [returnRejectedCore, bind_ok, requireSigner_ok, loadOwnPosition_ok, pure_ok] at h
    obtain ⟨-, hsign, _, ⟨hq, -⟩, -, -, -, -, named, hgate, externals', hrelease, -⟩ := h
    obtain rfl := Option.some.inj (hp.symm.trans hq)
    exact ⟨hsign, named, hgate, externals', hrelease⟩
  · rintro ⟨hsign, named, hgate, externals', hrelease⟩
    have hsigner : requireSigner payer = .ok () := requireSigner_ok.mpr hsign
    simp [returnRejectedCore, hsigner, loadOwnPosition_ok.mpr ⟨hp, hkey⟩, require_pos hcore,
      require_pos hstate, hgate, hrelease]

theorem claimNftCore_iff {pool : Pool} (hp : c.positions.lookup k = some p)
    (hkey : k = .position p.pool p.nftMint) (hcore : p.standard = STANDARD_CORE)
    (hstate : p.state = .closedBelowFloor) :
    (∃ out, claimNftCore X clock c p.depositor k collection = .ok out) ↔
      p.depositor.canSign = true ∧ ∃ named,
        ExitAdmitted X c.externals pool k p collection clock.unixTimestamp named ∧
        (X.transferCore ⟨p.nftMint, named, p.depositor, .positionVault k, p.depositor⟩
          c.externals).isSome := by
  have hguards : exitGuards pool p clock.unixTimestamp = .ok () := by
    rw [exitGuards, hstate]
    rfl
  simp only [ExitAdmitted, hguards, true_and, ← release_isSome]
  constructor
  · rintro ⟨⟨c', events⟩, h⟩
    simp only [claimNftCore, bind_ok, requireSigner_ok, loadOwnPosition_ok, pure_ok] at h
    obtain ⟨-, hsign, _, ⟨hq, -⟩, -, -, -, -, -, -, named, hgate, externals', hrelease, -⟩ := h
    obtain rfl := Option.some.inj (hp.symm.trans hq)
    exact ⟨hsign, named, hgate, externals', hrelease⟩
  · rintro ⟨hsign, named, hgate, externals', hrelease⟩
    have hsigner : requireSigner p.depositor = .ok () := requireSigner_ok.mpr hsign
    simp [claimNftCore, hsigner, loadOwnPosition_ok.mpr ⟨hp, hkey⟩, require_pos, hcore, hstate,
      hgate, hrelease]

theorem ownExit_admitted {pool : Pool} {instr : Instr} {out : Chain × List Event}
    (hexit : OwnExit key k p collection instr) (hpool : c.pools.lookup key = some pool)
    (hp : c.positions.lookup k = some p) (hkey : k = .position p.pool p.nftMint)
    (hcore : p.standard = STANDARD_CORE) (h : exec X clock c instr = .ok out) :
    ∃ named, ExitAdmitted X c.externals pool k p collection clock.unixTimestamp named := by
  cases hexit with
  | returnRejectedCore payer hstate =>
    obtain ⟨-, named, hadmitted, -⟩ :=
      (returnRejectedCore_iff hp hkey hcore hstate).mp ⟨out, h⟩
    exact ⟨named, hadmitted⟩
  | claimNftCore hstate =>
    obtain ⟨-, named, hadmitted, -⟩ := (claimNftCore_iff hp hkey hcore hstate).mp ⟨out, h⟩
    exact ⟨named, hadmitted⟩
  | withdrawCore depositorUsdc remaining hstate =>
    simp only [exec, withdrawCore, bind_ok] at h
    obtain ⟨-, -, a, ha, -, -, -, -, -, -, named, hgate, ⟨c', events⟩, haccounting, -⟩ := h
    obtain ⟨hpool', hp', -⟩ := loadThroughPool_ok ha
    obtain rfl := Option.some.inj (hp.symm.trans hp')
    obtain rfl := Option.some.inj (hpool.symm.trans hpool')
    simp only [withdrawAccounting, bind_ok] at haccounting
    obtain ⟨booked, hbooked, -⟩ := haccounting
    obtain ⟨targets, hfrom, hlock, -⟩ := applyWithdraw_ok.mp hbooked
    refine ⟨named, ?_, hgate⟩
    simp only [exitGuards, hstate, bind_ok, assertWeightOpen_ok, require_ok]
    exact ⟨(), hfrom.opened, hlock⟩

-- ---------------------------------------------------------------------------
-- A seizure books through
-- ---------------------------------------------------------------------------

theorem loadThroughPool_reads {stats : WalletStats} (hwf : c.WellFormed) (hL : c.Reads key L)
    (hp : L.positions.lookup k = some p) (hstats : L.walletStats p.depositor = some stats) :
    loadThroughPool c key k = .ok ⟨L.pool, p, L.weightIndex, L.topTier, stats⟩ := by
  obtain ⟨hlookup, rfl⟩ := hL.lookup.mp hp
  simp only [loadThroughPool, bind_ok, pure_ok, loadPool_ok, loadPositionOf_ok, loadTopTier_ok,
    Chain.loadWeightIndex, Chain.loadWalletStats, okOr_ok]
  rw [hL.walletStats] at hstats
  exact ⟨_, ⟨hL.pool, hwf.poolKey _ _ hL.pool⟩, _, ⟨hlookup, hwf.positionKey k p hlookup⟩, _,
    hL.weightIndex, _, hL.topTier, _, hstats, rfl⟩

/-- The controller answers the pool that the position would leave. -/
def Answers (pool : Pool) (p : Position) : Prop :=
  ∃ targets, Rebalance.evaluate (pool.nReal - 1) (pool.wReal - weight p.recordedValue)
    pool.blankFaces pool.ticketTarget = .ok targets

/-- Past its guards, a seizure's accounting asks only the controller. -/
theorem seizure_books {stats : WalletStats} {kind : SeizureKind} (hranked : L.Ranked)
    (hsynced : L.Synced) (haccounted : L.Accounted) (hp : L.positions.lookup k = some p)
    (hstats : L.walletStats p.depositor = some stats)
    (hguards : seizeGuards L.pool p kind now = .ok ())
    (hanswers : p.state = .active → Answers L.pool p) :
    ∃ booked after, applyCloseSeized L.pool p stats kind now = .ok booked ∧
      removeDeparted L.weightIndex L.topTier k booked.position booked.effect.departure
        = .ok after := by
  by_cases hactive : p.state = .active
  · obtain ⟨targets, htargets⟩ := hanswers hactive
    have hchecked := haccounted.checked k p hp
    have howed := haccounted.legs_le hp hactive
    simp only [seizeGuards, hactive, bind_ok, assertWeightOpen_ok] at hguards
    obtain ⟨-, -, ⟨⟩, hseizable, hopen⟩ := hguards
    have hlegs := lt_of_le_of_lt howed haccounted.width
    have hequal : pendingFees L.pool.accEqual p.equalCheckpoint + p.accrued < 2 ^ 64 := by
      unfold Position.legs at hlegs
      omega
    have hdepart := (departWeight_ok hopen hactive).mpr ⟨targets, hsynced.departsFrom hp hactive
      hstats hopen (hchecked.equal hactive) htargets, hequal, rfl⟩
    obtain ⟨index, hindex⟩ := hsynced.remove_succeeds hp hactive
    have hbooked : applyCloseSeized L.pool p stats kind now = .ok {
        pool := L.pool.without p.recordedValue targets
        position := p.departed .seized L.pool.accEqual
        walletStats := stats.without p.recordedValue
        effect := ⟨.active, p.recordedValue, some (departed L.pool p stats targets).effect⟩ } := by
      simp only [applyCloseSeized, seizeRow, hactive, hseizable, assertWeightOpen,
        require_pos hopen, hdepart, ok_bind, pure, Except.pure]
      rfl
    obtain ⟨after, hdeparted⟩ : ∃ after, vacateDeparted p.inTier L.topTier k
        (p.departed .seized L.pool.accEqual) = .ok after := by
      cases hin : p.inTier with
      | false => exact ⟨_, rfl⟩
      | true =>
        obtain ⟨t, hvacate⟩ := hranked.vacate_succeeds hp hin
          (q := p.departed .seized L.pool.accEqual) (hchecked.tier hactive hin) (by
            rw [Position.legs, Position.tierLeg_in hin] at hlegs
            show pendingFees L.topTier.accTier p.tierCheckpoint
              + (pendingFees L.pool.accEqual p.equalCheckpoint + p.accrued) < 2 ^ 64
            omega)
        exact ⟨(t, _, some (some k, none)), by simp [vacateDeparted, hvacate]; rfl⟩
    refine ⟨_, (index, after), hbooked, ?_⟩
    simp only [removeDeparted, departed, hindex, hdeparted, ok_bind, pure, Except.pure]
  · -- No other row holds weight.
    have hrow : seizeRow L.pool p stats kind now = .ok ⟨L.pool, p, stats, none⟩ := by
      cases hstate : p.state with
      | active => exact absurd hstate hactive
      | seized => simp [seizeGuards, hstate, cardInVault, require_neg] at hguards
      | pending | rejected | closedBelowFloor => simp [seizeRow, hstate, pure, Except.pure]
    refine ⟨⟨L.pool, { p with state := .seized }, stats, ⟨p.state, p.recordedValue, none⟩⟩,
      (L.weightIndex, L.topTier, { p with state := .seized }, none), ?_, rfl⟩
    simp only [applyCloseSeized, hrow, ok_bind, pure, Except.pure]

/-- A seizure runs exactly where a signer asks for one that is admitted, and the controller answers
an active position's departure. -/
theorem closeSeized_iff {caller : Pubkey} (hsound : c.Sound) (hL : c.Reads key L)
    (haccounted : L.Accounted) (hrolled : L.RolledUp) (hp : L.positions.lookup k = some p)
    (hcore : p.standard = STANDARD_CORE) :
    (∃ out, closeSeized X clock c caller key k collection = .ok out) ↔
      caller.canSign = true ∧
        (∃ kind owner, SeizeAdmitted X c.externals L.pool k p collection clock.unixTimestamp kind
          owner) ∧
        (p.state = .active → Answers L.pool p) := by
  obtain ⟨stats, hstats⟩ := hrolled k p hp
  have hload := loadThroughPool_reads hsound.wellFormed hL hp hstats
  constructor
  · rintro ⟨⟨c', events⟩, h⟩
    simp only [closeSeized, hload, ok_bind, bind_ok, requireSigner_ok, require_ok,
      Prod.exists] at h
    obtain ⟨-, hsign, -, -, -, hvault, kind, owner, hcause, booked, hbooked, -⟩ := h
    by_cases hactive : p.state = .active
    · obtain ⟨targets, hfrom, -⟩ := applyCloseSeized_active hactive hbooked
      simp only [applyCloseSeized, seizeRow, hactive, bind_ok] at hbooked
      obtain ⟨_, ⟨⟨⟩, hseizable, -⟩, -⟩ := hbooked
      refine ⟨hsign, ⟨kind, owner, hcause, ?_⟩, fun _ => ⟨targets, hfrom.targets⟩⟩
      simp [seizeGuards, hactive, cardInVault, require_pos, hseizable, assertWeightOpen,
        hfrom.opened]
    · refine ⟨hsign, ⟨kind, owner, hcause, ?_⟩, fun h => absurd h hactive⟩
      cases hstate : p.state with
      | active => exact absurd hstate hactive
      | seized => simp [hstate, cardInVault] at hvault
      | pending | rejected | closedBelowFloor =>
        simp [seizeGuards, hstate, cardInVault, require_pos]
  · rintro ⟨hsign, ⟨kind, owner, hcause, hguards⟩, hanswers⟩
    obtain ⟨booked, ⟨index, t, q, change⟩, hbooked, hremove⟩ := seizure_books
      (hsound.ranked key L hL) (hsound.synced key L hL) haccounted hp hstats hguards hanswers
    have hsigner : requireSigner caller = .ok () := requireSigner_ok.mpr hsign
    have hvault : cardInVault p.state = true := by
      simp only [seizeGuards, bind_ok, require_ok] at hguards
      exact hguards.choose_spec.1
    simp [closeSeized, hsigner, hload, require_pos, hcore, hvault, hcause, hbooked, hremove]

-- ---------------------------------------------------------------------------
-- A departure takes the weight once
-- ---------------------------------------------------------------------------

/-- Between the two ledgers the position's weight was taken from the aggregates, and its leaf from
the index. -/
structure GivesWeight (L L' : Ledger) (p : Position) : Prop where
  weight : L'.pool.wReal + weight p.recordedValue = L.pool.wReal
  count : L'.pool.nReal + 1 = L.pool.nReal
  leaf : L.weightIndex.remove p.slotIndex p.recordedValue L'.pool.wReal = .ok L'.weightIndex

theorem GivesWeight.of_write {pool' : Pool} {index : WeightIndex} {stats : WalletStats}
    {targets : BlankTargets} (hwf : c'.WellFormed) (hfrom : DepartsFrom L.pool p stats targets)
    (hpool : c'.pools.lookup key = some pool') (hwReal : pool'.wReal
      = L.pool.wReal - ByeMachine.weight p.recordedValue) (hnReal : pool'.nReal = L.pool.nReal - 1)
    (hsame : pool'.weightIndex = L.pool.weightIndex)
    (hindex : c'.weightIndexes.lookup L.pool.weightIndex = some index)
    (hremove : L.weightIndex.remove p.slotIndex p.recordedValue
      (L.pool.wReal - ByeMachine.weight p.recordedValue) = .ok index) :
    ∃ L', c'.Reads key L' ∧ GivesWeight L L' p := by
  obtain ⟨L', hL'⟩ := hwf.ledger key pool' hpool
  have hreads := ledger_eq_some.mp hL'
  obtain rfl := Option.some.inj (hpool.symm.trans hreads.pool)
  have hafter := hreads.weightIndex
  rw [hsame, hindex, Option.some.injEq] at hafter
  refine ⟨L', hreads, ?_, ?_, by rw [hwReal, ← hafter]; exact hremove⟩
  · rw [hwReal]
    exact Nat.sub_add_cancel hfrom.weight
  · rw [hnReal]
    exact Nat.sub_add_cancel hfrom.nReal

theorem withdrawAccounting_gives {stats : WalletStats} {depositorUsdc : Option Pubkey}
    {remaining : List AccountMeta} {c₁ : Chain} (hwf : c'.WellFormed)
    (h : withdrawAccounting clock c key k depositorUsdc remaining
      ⟨L.pool, p, L.weightIndex, L.topTier, stats⟩ = .ok (c₁, events))
    (hpools : c'.pools = c₁.pools) (hindexes : c'.weightIndexes = c₁.weightIndexes) :
    ∃ L', c'.Reads key L' ∧ GivesWeight L L' p := by
  simp only [withdrawAccounting, bind_ok, pure_ok, Prod.mk.injEq, Prod.exists] at h
  obtain ⟨booked, hbooked, index, hindex, _, _, _, _, -, _, -, rfl, -⟩ := h
  obtain ⟨targets, hfrom, -, -, -, -, rfl⟩ := applyWithdraw_ok.mp hbooked
  have hpool := (congrArg (Finmap.lookup key) hpools).trans (Finmap.lookup_insert _)
  have hindex' := (congrArg (Finmap.lookup L.pool.weightIndex) hindexes).trans
    (Finmap.lookup_insert _)
  exact GivesWeight.of_write hwf hfrom hpool rfl rfl rfl hindex' hindex

theorem recordValue_gives {operator : Pubkey} {pool : Pool} {remaining : List AccountMeta}
    {value : ℕ} {observedAt : ℤ} (hwf : c.WellFormed) (hwf' : c'.WellFormed)
    (hp : c.positions.lookup k = some p) (hpool : c.pools.lookup key = some pool)
    (hclose : classify value pool.admissionFloor p.lockUntil clock.unixTimestamp = .close)
    (h : recordValue clock c operator key k remaining value observedAt = .ok (c', events)) :
    p.pool = key ∧ ∃ L L', c.Reads key L ∧ c'.Reads key L' ∧ GivesWeight L L' p := by
  simp only [recordValue, bind_ok, pure_ok, Prod.mk.injEq, Prod.exists] at h
  obtain ⟨_, -, a, ha, booked, hbooked, index, hindex, _, _, _, _, -, rfl, -⟩ := h
  obtain ⟨L, q, stats, rfl, hL, hbound⟩ := hwf.loadThroughPool ha
  obtain rfl := Option.some.inj (hp.symm.trans (hL.lookup.mp hbound.position).1)
  obtain rfl := Option.some.inj (hpool.symm.trans hL.pool)
  obtain ⟨targets, _, -, hfrom, -, rfl⟩ := applyRecordValue_closed hbooked hclose
  obtain ⟨L', hL', hgives⟩ := GivesWeight.of_write hwf' hfrom (Finmap.lookup_insert _) rfl rfl rfl
    (Finmap.lookup_insert _) hindex
  exact ⟨hbound.ofPool, L, L', hL, hL', hgives⟩

theorem closeSeized_gives {caller : Pubkey} (hwf : c.WellFormed) (hwf' : c'.WellFormed)
    (hp : c.positions.lookup k = some p) (hactive : p.state = .active)
    (h : closeSeized X clock c caller key k collection = .ok (c', events)) :
    p.pool = key ∧ ∃ L L', c.Reads key L ∧ c'.Reads key L' ∧ GivesWeight L L' p := by
  simp only [closeSeized, bind_ok, pure_ok, Prod.mk.injEq, Prod.exists] at h
  obtain ⟨-, -, a, ha, -, -, -, -, kind, _, -, booked, hbooked, index, _, _, _, hremove, rfl, -⟩ := h
  obtain ⟨L, q, stats, rfl, hL, hbound⟩ := hwf.loadThroughPool ha
  obtain rfl := Option.some.inj (hp.symm.trans (hL.lookup.mp hbound.position).1)
  obtain ⟨targets, hfrom, -, hpool, -, -, heffect⟩ := applyCloseSeized_active hactive hbooked
  rw [heffect] at hremove
  simp only [removeDeparted, bind_ok, pure_ok, Prod.mk.injEq, Prod.exists] at hremove
  obtain ⟨_, hindex, _, _, _, -, rfl, -⟩ := hremove
  obtain ⟨L', hL', hgives⟩ := GivesWeight.of_write hwf' hfrom (Finmap.lookup_insert _)
    (by rw [hpool]; rfl) (by rw [hpool]; rfl) (by rw [hpool]; rfl) (Finmap.lookup_insert _) hindex
  exact ⟨hbound.ofPool, L, L', hL, hL', hgives⟩

/-- A step after which an active position holds no weight is a departure, and takes its weight from
the aggregates and its leaf from the index. -/
theorem SettlingStep.givesWeight (h : SettlingStep X may c c') (hsound : c.Sound)
    (hp : c.positions.lookup k = some p) (hactive : p.state = .active)
    (hafter : ¬Weighs c' k p.positionId) :
    ∃ L L', c.Reads p.pool L ∧ c'.Reads p.pool L' ∧ GivesWeight L L' p := by
  have hwf := hsound.wellFormed
  have hwf' := (h.sound hsound).wellFormed
  have hstill : ∀ q, c'.positions.lookup k = some q → q.terms.state = .active →
      q.terms.positionId ≠ p.positionId := fun q hq hstate hid => hafter ⟨q, hq, hid, hstate⟩
  cases h with
  | settle =>
    rw [settle_positions] at hstill
    exact absurd rfl (hstill p hp hactive)
  | run hstep =>
    cases hstep with
    | elsewhere => exact absurd rfl (hstill p hp hactive)
    | instruction clock instr events permitted run =>
      have hfate := exec_fate run k
      rw [hp] at hfate
      generalize hlookup : c'.positions.lookup k = after at hfate
      cases hfate with
      | kept hterms =>
        obtain ⟨q, rfl, hq⟩ := Option.map_eq_some_iff.mp hterms
        refine absurd ?_ (hstill q hlookup (by rw [hq]; exact hactive))
        rw [hq]
        rfl
      | revalued _ _ _ hterms =>
        refine absurd ?_ (hstill _ hlookup (by rw [hterms]; exact hactive))
        rw [hterms]
        rfl
      | approved hpending | rejected hpending => rw [hactive] at hpending; cases hpending
      | closed hpool _ hclose =>
        obtain ⟨rfl, hgives⟩ := recordValue_gives hwf hwf' hp hpool hclose run
        exact hgives
      | seized =>
        obtain ⟨rfl, hgives⟩ := closeSeized_gives hwf hwf' hp hactive run
        exact hgives
      | released hrelease =>
        cases hrelease with
        | withdraw =>
          simp only [exec, withdraw, bind_ok, pure_ok, Prod.mk.injEq, Prod.exists] at run
          obtain ⟨-, -, a, ha, -, -, -, -, -, -, _, _, haccounting, _, _, -, rfl, -⟩ := run
          obtain ⟨L, q, stats, rfl, hL, hbound⟩ := hwf.loadThroughPool ha
          obtain rfl := Option.some.inj (hp.symm.trans (hL.lookup.mp hbound.position).1)
          obtain ⟨L', hL', hgives⟩ := withdrawAccounting_gives hwf' haccounting rfl rfl
          exact ⟨L, L', hbound.ofPool ▸ hL, hbound.ofPool ▸ hL', hgives⟩
        | withdrawCore =>
          simp only [exec, withdrawCore, bind_ok, pure_ok, Prod.mk.injEq, Prod.exists] at run
          obtain ⟨-, -, a, ha, -, -, -, -, -, -, _, -, _, _, haccounting, _, -, rfl, -⟩ := run
          obtain ⟨L, q, stats, rfl, hL, hbound⟩ := hwf.loadThroughPool ha
          obtain rfl := Option.some.inj (hp.symm.trans (hL.lookup.mp hbound.position).1)
          obtain ⟨L', hL', hgives⟩ := withdrawAccounting_gives hwf' haccounting rfl rfl
          exact ⟨L, L', hbound.ofPool ▸ hL, hbound.ofPool ▸ hL', hgives⟩
        | claimNft _ hstate => rw [hactive] at hstate; cases hstate
        | claimNftCore _ hstate => rw [hactive] at hstate; simp at hstate
        | returnRejected _ hstate | returnRejectedCore _ hstate =>
          rw [hactive] at hstate
          cases hstate

-- ---------------------------------------------------------------------------
-- No position is stranded
-- ---------------------------------------------------------------------------

theorem Untouched.refl (tokens : Tokens) : Untouched tokens tokens :=
  fun _ account h => ⟨account, h, rfl, rfl, le_rfl⟩

/-- Of a reachable state, a Core position that may leave, and any contents of its card and of the
collection that the card declares: its exit or a seizure is admitted, both exactly where the
reading is undecidable; an exit that runs was admitted, and a seizure that is admitted runs
wherever the controller answers. Over any run a position takes up weight at most once and gives
back what it took up exactly once, and the step that gives it back takes it from the aggregates and
its leaf from the index. -/
theorem no_stranded_core (h : SettlingReachable X Accrues c) :
    (∀ key L k p now externals collection, c.ledger key = some L →
      L.positions.lookup k = some p → p.standard = STANDARD_CORE → MayLeave L.pool p now →
      DeclaredSupplied X externals p.nftMint collection →
      ((∃ named, ExitAdmitted X externals L.pool k p collection now named) ∨
        ∃ kind owner, SeizeAdmitted X externals L.pool k p collection now kind owner) ∧
      (((∃ named, ExitAdmitted X externals L.pool k p collection now named) ∧
          ∃ kind owner, SeizeAdmitted X externals L.pool k p collection now kind owner) ↔
        ∃ owner named, readCollateral X externals p.nftMint collection (.positionVault k)
          = .ok (.undecidable owner, named)) ∧
      (∀ slot instr out, OwnExit key k p collection instr →
        exec X ⟨slot, now⟩ { c with externals } instr = .ok out →
        ∃ named, ExitAdmitted X externals L.pool k p collection now named) ∧
      (∀ slot caller, (∃ out, exec X ⟨slot, now⟩ { c with externals }
          (.closeSeized caller key k collection) = .ok out) ↔
        caller.canSign = true ∧
          (∃ kind owner, SeizeAdmitted X externals L.pool k p collection now kind owner) ∧
          (p.state = .active → Answers L.pool p))) ∧
    (∀ c₀ k id taken given, Genesis c₀ → Weighings X Accrues k id c₀ c taken given →
      taken ≤ 1 ∧ given ≤ taken ∧ (given = taken ↔ ¬Weighs c k id)) ∧
    (∀ c' k p, SettlingStep X Accrues c c' → c.positions.lookup k = some p →
      p.state = .active → ¬Weighs c' k p.positionId →
      ∃ L L', c.Reads p.pool L ∧ c'.Reads p.pool L' ∧ GivesWeight L L' p) := by
  refine ⟨?_, fun c₀ k id taken given hgenesis hrun => hrun.once hgenesis,
    fun c' k p hstep hp hactive hafter => hstep.givesWeight h.sound hp hactive hafter⟩
  intro key L k p now externals collection hL hp hcore hleave hsupplied
  obtain ⟨hopen, hboth⟩ := routes_open (L := L) (k := k) hleave hsupplied
  -- The contents are what other programs may have left.
  have hreach : SettlingReachable X Accrues { c with externals } :=
    h.step (.elsewhere c.tokens externals (.refl c.tokens))
  have hreads : Chain.Reads { c with externals } key L := ledger_eq_some.mp hL
  obtain ⟨hlookup, hofPool⟩ := hreads.lookup.mp hp
  refine ⟨hopen, hboth, fun slot instr out hexit hrun => ?_, fun slot caller => ?_⟩
  · exact ownExit_admitted hexit hreads.pool hlookup
      (hreach.sound.wellFormed.positionKey k p hlookup) hcore hrun
  · exact closeSeized_iff hreach.sound hreads (hreach.accounted hreads) (hreach.rolledUp hreads) hp
      hcore

/-- An active card that a third party took back to wallet 20 once its lock had passed. -/
theorem no_stranded_core_bank :
    ∃ out, exec bank ⟨5, 100⟩ { bankRun [admitCards, depositCard 30, approveCard 30 12000000 100]
      with externals := bankExternals }
      (.closeSeized (.key 22) (.pool 0) (bankPosition 30) bankCollection) = .ok out := by
  have hreach : Reachable bank (bankRun [admitCards, depositCard 30, approveCard 30 12000000 100]) :=
    bankRun_reachable (by decide +kernel)
  have hstands : (((bankRun [admitCards, depositCard 30, approveCard 30 12000000 100]).ledger
      (.pool 0)).bind fun L => (L.positions.lookup (bankPosition 30)).map fun p =>
        (L.pool.openBatches, L.pool.nReal, p.state, p.lockUntil, p.nftMint, p.standard))
      = some (0, 1, .active, 100, .key 30, STANDARD_CORE) := by decide +kernel
  obtain ⟨L, hL, hposition⟩ := Option.bind_eq_some_iff.mp hstands
  obtain ⟨p, hp, heq⟩ := Option.map_eq_some_iff.mp hposition
  simp only [Prod.mk.injEq] at heq
  obtain ⟨hopen, hone, hactive, hlock, hmint, hcore⟩ := heq
  have hread : readCollateral bank bankExternals p.nftMint bankCollection
      (.positionVault (bankPosition 30)) = .ok (.unreachable .transferred (.key 20), none) := by
    rw [hmint]
    decide +kernel
  have hsupplied : DeclaredSupplied bank bankExternals p.nftMint bankCollection := by
    rw [hmint]
    rintro card declared ⟨-, hparse, -⟩ hdeclared
    have hcard : card = ⟨.assetV1, .key 20, .collection bankCollection⟩ :=
      (Option.some.inj hparse).symm
    rw [hcard] at hdeclared
    exact UpdateAuthority.collection.inj hdeclared
  obtain ⟨hroute, -, -, hseize⟩ := (no_stranded_core hreach.settling).1 (.pool 0) L (bankPosition 30)
    p 100 bankExternals bankCollection hL hp hcore (.inr (.inr ⟨hactive, hopen, hlock.le⟩)) hsupplied
  refine (hseize 5 (.key 22)).mpr ⟨rfl, hroute.resolve_left ?_, fun _ => ?_⟩
  · rintro ⟨named, -, hsettleable⟩
    simp [requireCollateralSettleable, hread, throw_ok] at hsettleable
  · rw [Answers, hone]
    exact ⟨_, Rebalance.evaluate_empty⟩

end ByeMachine
