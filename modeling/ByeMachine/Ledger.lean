import ByeMachine.Exec
import ByeMachine.Laws.IndexRuns
import ByeMachine.Laws.Tier

/-!
# One pool's ledger

Everything the program keeps about one pool, read off the chain, and the moves
it is changed by. An instruction changes a pool's ledger by a short sequence of
moves; every invariant of a pool is proved move by move.
-/

namespace ByeMachine

/-- The accounts of one pool. -/
structure Ledger where
  pool : Pool
  weightIndex : WeightIndex
  topTier : TopTier
  /-- The positions of this pool, by address. -/
  positions : Positions
  /-- By owner. -/
  walletStats : Pubkey → Option WalletStats
  /-- The principal vault's balance. -/
  vault : ℕ

def ofPool (pool : Pubkey) : Pubkey → Position → Bool := fun _ position => position.pool = pool

def Chain.ledger (c : Chain) (key : Pubkey) : Option Ledger := do
  let pool ← c.pools.lookup key
  let weightIndex ← c.weightIndexes.lookup pool.weightIndex
  let topTier ← c.topTiers.lookup (.topTier key)
  let vault ← c.tokens.lookup (.principalVault key)
  pure {
    pool
    weightIndex
    topTier
    positions := Store.restrict (ofPool key) c.positions
    walletStats := fun owner => c.walletStats.lookup (.walletStats key owner)
    vault := vault.amount }

-- ---------------------------------------------------------------------------
-- Moves
-- ---------------------------------------------------------------------------

/-- A position as its activation leaves it, before any promotion. -/
def Position.activated (position : Position) (value slotIndex accEqual : ℕ)
    (observedAt now lockUntil : ℤ) : Position :=
  { position with
    state := .active, recordedValue := value, valueObservedAt := observedAt
    depositValue := value, slotIndex, activatedAt := now, equalCheckpoint := accEqual, lockUntil }

/-- A position after a new attestation. -/
def Position.revalued (position : Position) (value : ℕ) (observedAt : ℤ) : Position :=
  { position with recordedValue := value, valueObservedAt := observedAt }

def Position.equalOwed (position : Position) (accEqual : ℕ) : ℕ :=
  pendingFees accEqual position.equalCheckpoint + position.accrued

/-- A position whose equal leg is settled as it leaves the weighted set. -/
def Position.departed (position : Position) (state : PositionState) (accEqual : ℕ) : Position :=
  { position with state, accrued := position.equalOwed accEqual, equalCheckpoint := accEqual }

def Position.entered (position : Position) (accTier : ℕ) : Position :=
  { position with inTier := true, tierCheckpoint := accTier }

/-- A pool whose real set changed, with the blanks the controller answered. -/
def Pool.rebalanced (pool : Pool) (nReal wReal : ℕ) (targets : BlankTargets) : Pool :=
  { pool with nReal, wReal, blanks := targets.toBlanks }

/-- What every departure asks of the pool and the owner's rollup. -/
structure DepartsFrom (pool : Pool) (p : Position) (stats : WalletStats) (targets : BlankTargets) :
    Prop where
  opened : pool.openBatches = 0
  active : p.state = .active
  attested : 0 < p.recordedValue ∧ p.recordedValue ≤ WEIGHT_C
  checkpoint : p.equalCheckpoint ≤ pool.accEqual
  weight : weight p.recordedValue ≤ pool.wReal
  nReal : 1 ≤ pool.nReal
  count : 1 ≤ stats.activePositions
  value : p.recordedValue ≤ stats.activeValue
  targets : Rebalance.evaluate (pool.nReal - 1) (pool.wReal - ByeMachine.weight p.recordedValue)
    pool.blankFaces pool.ticketTarget = .ok targets
  fits : pool.wReal - ByeMachine.weight p.recordedValue < 2 ^ 64

def WalletStats.without (stats : WalletStats) (value : ℕ) : WalletStats :=
  { stats with
    activePositions := stats.activePositions - 1, activeValue := stats.activeValue - value }

/-- The pool after a departure, its fee ledger apart. -/
def Pool.without (pool : Pool) (value : ℕ) (targets : BlankTargets) : Pool :=
  { pool with
    nReal := pool.nReal - 1, wReal := pool.wReal - weight value, blanks := targets.toBlanks }

inductive Move : Ledger → Ledger → Prop where
  /-- A pending position takes a leaf and joins the weighted set. -/
  | activate {L : Ledger} {k : Pubkey} {p : Position} {stats : WalletStats} {index : WeightIndex}
      {targets : BlankTargets} {value slot : ℕ} {observedAt now lockUntil : ℤ}
      (hp : L.positions.lookup k = some p) (hstate : p.state = .pending)
      (hopen : L.pool.openBatches = 0) (hstats : L.walletStats p.depositor = some stats)
      (hindex : L.weightIndex.insert value (L.pool.wReal + weight value) = .ok (slot, index))
      (htargets : Rebalance.evaluate (L.pool.nReal + 1) (L.pool.wReal + weight value)
        L.pool.blankFaces L.pool.ticketTarget = .ok targets) :
      Move L { L with
        pool := L.pool.rebalanced (L.pool.nReal + 1) (L.pool.wReal + weight value) targets
        weightIndex := index
        positions := L.positions.insert k
          (p.activated value slot L.pool.accEqual observedAt now lockUntil)
        walletStats := Function.update L.walletStats p.depositor (some { stats with
          activePositions := stats.activePositions + 1
          activeValue := stats.activeValue + value }) }
  /-- An active position's value is attested again, and a member moves to its new rank. -/
  | revalue {L : Ledger} {k : Pubkey} {p : Position} {stats : WalletStats} {index : WeightIndex}
      {topTier : TopTier} {targets : BlankTargets} {value wReal activeValue : ℕ} {observedAt : ℤ}
      (hp : L.positions.lookup k = some p) (hstate : p.state = .active)
      (hopen : L.pool.openBatches = 0) (hstats : L.walletStats p.depositor = some stats)
      (hindex : L.weightIndex.update p.slotIndex p.recordedValue value wReal = .ok index)
      (hweight : wReal + weight p.recordedValue = L.pool.wReal + weight value)
      (hvalue : activeValue + p.recordedValue = stats.activeValue + value)
      (htargets : Rebalance.evaluate L.pool.nReal wReal L.pool.blankFaces L.pool.ticketTarget
        = .ok targets)
      (hmember : p.inTier = true → Tier.refreshMember L.topTier L.pool.tierSize k
        (Tier.entryOf k (p.revalued value observedAt)) = .ok topTier)
      (hother : p.inTier = false → topTier = L.topTier) :
      Move L { L with
        pool := L.pool.rebalanced L.pool.nReal wReal targets
        weightIndex := index
        topTier
        positions := L.positions.insert k (p.revalued value observedAt)
        walletStats := Function.update L.walletStats p.depositor
          (some { stats with activeValue }) }
  /-- An active non-member gives its leaf back and is closed below the floor or seized. -/
  | depart {L : Ledger} {k : Pubkey} {p : Position} {stats : WalletStats} {index : WeightIndex}
      {targets : BlankTargets} {state : PositionState} {value : ℕ} {observedAt : ℤ}
      (hp : L.positions.lookup k = some p) (htier : p.inTier = false)
      (hfrom : DepartsFrom L.pool p stats targets)
      (hstats : L.walletStats p.depositor = some stats)
      (hafter : state = .closedBelowFloor ∨ state = .seized)
      (hindex : L.weightIndex.remove p.slotIndex p.recordedValue
        (L.pool.wReal - weight p.recordedValue) = .ok index) :
      Move L { L with
        pool := L.pool.without p.recordedValue targets
        weightIndex := index
        positions := L.positions.insert k
          ((p.departed state L.pool.accEqual).revalued value observedAt)
        walletStats := Function.update L.walletStats p.depositor
          (some (stats.without p.recordedValue)) }
  /-- An active non-member gives its leaf back, is paid what it is owed and its account closes. -/
  | withdraw {L : Ledger} {k : Pubkey} {p : Position} {stats : WalletStats} {index : WeightIndex}
      {targets : BlankTargets}
      (hp : L.positions.lookup k = some p) (htier : p.inTier = false)
      (hfrom : DepartsFrom L.pool p stats targets)
      (hstats : L.walletStats p.depositor = some stats)
      (howed : p.equalOwed L.pool.accEqual ≤ L.pool.owedFees)
      (hvault : p.equalOwed L.pool.accEqual ≤ L.vault)
      (hindex : L.weightIndex.remove p.slotIndex p.recordedValue
        (L.pool.wReal - weight p.recordedValue) = .ok index) :
      Move L { L with
        pool := { L.pool.without p.recordedValue targets with
          owedFees := L.pool.owedFees - p.equalOwed L.pool.accEqual }
        weightIndex := index
        positions := L.positions.erase k
        walletStats := Function.update L.walletStats p.depositor
          (some (stats.without p.recordedValue))
        vault := L.vault - p.equalOwed L.pool.accEqual }
  /-- A departing member leaves the tier, its tier leg settled. -/
  | leave {L : Ledger} {k : Pubkey} {p p' : Position} {topTier : TopTier} {removed : TierEntry}
      (hp : L.positions.lookup k = some p) (htier : p.inTier = true)
      (hopen : L.pool.openBatches = 0)
      (hvacate : Tier.vacate L.topTier k p L.topTier.accTier = .ok (topTier, p', removed)) :
      Move L { L with topTier, positions := L.positions.insert k p' }
  /-- An active non-member enters where the tier has room. -/
  | join {L : Ledger} {k : Pubkey} {p : Position} {topTier : TopTier}
      (hp : L.positions.lookup k = some p) (hstate : p.state = .active) (htier : p.inTier = false)
      (hpromote : Tier.promote L.topTier L.pool.tierSize (Tier.entryOf k p)
        = .ok (topTier, .inserted)) :
      Move L { L with
        topTier, positions := L.positions.insert k (p.entered L.topTier.accTier) }
  /-- An active non-member takes the last member's place, whose tier leg is settled. -/
  | swap {L : Ledger} {k : Pubkey} {p q q' : Position} {topTier : TopTier} {evicted : TierEntry}
      (hp : L.positions.lookup k = some p) (hstate : p.state = .active) (htier : p.inTier = false)
      (hpromote : Tier.promote L.topTier L.pool.tierSize (Tier.entryOf k p)
        = .ok (topTier, .swapped evicted))
      (hq : L.positions.lookup evicted.position = some q)
      (hsettle : Tier.settleMember q L.topTier.accTier = .ok q') :
      Move L { L with
        topTier
        positions := (L.positions.insert evicted.position q').insert k
          (p.entered L.topTier.accTier) }
  /-- A position that holds no weight is rejected or seized. -/
  | retire {L : Ledger} {k : Pubkey} {p : Position} {state : PositionState} {reason : ℕ}
      (hp : L.positions.lookup k = some p) (hstate : p.state ≠ .active)
      (hafter : state = .rejected ∨ state = .seized) :
      Move L { L with
        positions := L.positions.insert k { p with state, rejectReason := reason } }
  /-- A position that holds no weight is closed, unpaid. -/
  | release {L : Ledger} {k : Pubkey} {p : Position}
      (hp : L.positions.lookup k = some p) (hstate : p.state ≠ .active) :
      Move L { L with positions := L.positions.erase k }
  /-- A batch opens against a tier as full as the pool can fill it. -/
  | commit {L : Ledger} {liability : ℕ}
      (hopen : L.pool.openBatches = 0)
      (htier : L.topTier.len = requiredTierLen L.pool.tierSize L.pool.nReal) :
      Move L { L with
        pool := { L.pool with
          pendingRollLiability := L.pool.pendingRollLiability + liability
          openBatches := L.pool.openBatches + 1
          batchCounter := L.pool.batchCounter + 1 }
        vault := L.vault + liability }
  /-- The sweep and pause fields, which nothing else depends on. -/
  | tick {L : Ledger} {sweepPending depositsPaused rollsPaused : Bool}
      {sweepUpdates sweepEpoch pauseReason : ℕ} {lastSweepAt : ℤ} :
      Move L { L with pool := { L.pool with
        sweepPending, sweepUpdates, sweepEpoch, lastSweepAt, depositsPaused, rollsPaused
        pauseReason } }
  /-- The principal vault is credited. -/
  | credit {L : Ledger} {amount : ℕ} : Move L { L with vault := L.vault + amount }

abbrev Moves : Ledger → Ledger → Prop := Relation.ReflTransGen Move

/-- A deposit: a new pending position under the next id, its owner's rollup made if absent. -/
inductive Intake : Ledger → Ledger → Prop where
  | intro {L : Ledger} {k : Pubkey} {p : Position} {stats : WalletStats}
      (hfree : L.positions.lookup k = none) (hstate : p.state = .pending)
      (htier : p.inTier = false) (haccrued : p.accrued = 0)
      (hid : p.positionId = L.pool.positionCounter)
      (hcount : stats.activePositions
        = ((L.walletStats p.depositor).map (·.activePositions)).getD 0)
      (hvalue : stats.activeValue = ((L.walletStats p.depositor).map (·.activeValue)).getD 0) :
      Intake L { L with
        pool := { L.pool with positionCounter := L.pool.positionCounter + 1 }
        positions := L.positions.insert k p
        walletStats := Function.update L.walletStats p.depositor (some stats) }

def SettledAll (accTier : ℕ) : List TierEntry → Positions → Positions → Prop
  | [], positions, positions' => positions' = positions
  | e :: evicted, positions, positions' =>
    ∃ q q', positions.lookup e.position = some q ∧ Tier.settleMember q accTier = .ok q' ∧
      SettledAll accTier evicted (positions.insert e.position q') positions'

/-- The demotions a configuration move forces. -/
def Demotes (L : Ledger) (topTier : TopTier) (positions : Positions) : ConfigUpdate → Prop
  | .tierSize value => ∃ evicted, Tier.shrink L.topTier value = .ok (topTier, evicted) ∧
      SettledAll L.topTier.accTier evicted L.positions positions
  | _ => topTier = L.topTier ∧ positions = L.positions

/-- A configuration move the validation accepts, with the demotions it forces. -/
inductive Configure (update : ConfigUpdate) : Ledger → Ledger → Prop where
  | intro {L : Ledger} {topTier : TopTier} {positions : Positions}
      (hvalid : validate (effectiveConfig L.pool update) = .ok ())
      (hfreeze : requiresWeightFreeze L.pool update = true → L.pool.openBatches = 0)
      (hdemote : Demotes L topTier positions update) :
      Configure update L
        { L with pool := applyUpdate L.pool update, topTier, positions }

end ByeMachine
