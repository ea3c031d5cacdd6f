import ByeMachine.Invariants.Runs
import ByeMachine.Script

/-!
# The five records agree

In every reachable state the pool's counters, its weight index and its owners'
rollups are what the active positions make them.
-/

namespace ByeMachine

open Fallible

/-- What the records say of the active positions, each read where the program keeps it. -/
structure Ledger.Synchronised (L : Ledger) : Prop where
  wReal : L.pool.wReal = L.weightIndex.slots.totalWeight
  totalWeight : L.weightIndex.slots.totalWeight
    = sumActive (fun p => weight p.recordedValue) L.positions
  weighed : ∀ k p, L.positions.lookup k = some p → p.state = .active →
    weightOf p.recordedValue = .ok (weight p.recordedValue)
  nReal : L.pool.nReal = sumActive (fun _ => 1) L.positions
  leaf : ∀ k p, L.positions.lookup k = some p → p.state = .active →
    fenwickLeaf L.weightIndex.slots.tree (p.slotIndex + 1) = .ok (weight p.recordedValue)
  distinct : ∀ k k' p p', L.positions.lookup k = some p → L.positions.lookup k' = some p' →
    p.state = .active → p'.state = .active → p.slotIndex = p'.slotIndex → k = k'
  otherLeaf : ∀ slot, slot < FENWICK_CAPACITY →
    (∀ k p, L.positions.lookup k = some p → p.state = .active → p.slotIndex ≠ slot) →
    fenwickLeaf L.weightIndex.slots.tree (slot + 1) = .ok 0
  rollup : ∀ owner stats, L.walletStats owner = some stats →
    stats.activePositions = sumActive (ownedCount owner) L.positions ∧
      stats.activeValue = sumActive (ownedValue owner) L.positions
  noRollup : ∀ k p, L.positions.lookup k = some p → p.state = .active →
    L.walletStats p.depositor ≠ none

theorem Ledger.Synced.synchronised {L : Ledger} (h : L.Synced) : L.Synchronised where
  wReal := h.wReal
  totalWeight := h.total
  weighed := by
    intro k p hp hactive
    obtain ⟨h0, hC⟩ := h.attested k p hp hactive
    exact weightOf_ok.mpr ⟨h0, hC, rfl⟩
  nReal := h.nReal
  leaf := by
    intro k p hp hactive
    rw [← h.leaf hp hactive]
    exact h.slots.leaf capacity_lt (h.slot_lt hp hactive)
  distinct := h.distinct
  otherLeaf := by
    intro slot hslot hnone
    rw [← InStep.leaf_zero hnone]
    exact h.slots.leaf capacity_lt hslot
  rollup := by
    intro owner stats hstats
    have hcount := h.count owner
    have hvalue := h.value owner
    rw [countOf, hstats] at hcount
    rw [valueOf, hstats] at hvalue
    exact ⟨hcount, hvalue⟩
  noRollup := by
    intro k p hp hactive hnone
    have hcount := h.count p.depositor
    rw [countOf, hnone] at hcount
    have hle := le_sumActive (ownedCount p.depositor) hp hactive
    rw [← hcount, ownedCount, if_pos rfl] at hle
    exact absurd hle (by decide)

/-- In every reachable state every pool's records agree with its active positions. -/
theorem reachable_synchronised {X : Programs} {c : Chain} (h : Reachable X c) {key : Pubkey}
    {pool : Pool} (hpool : c.pools.lookup key = some pool) :
    ∃ L, c.ledger key = some L ∧ L.pool = pool ∧ L.Synchronised := by
  obtain ⟨L, hL, hreads, heq⟩ := h.sound.ledger hpool
  exact ⟨L, hL, heq, (h.sound.synced key L hreads).synchronised⟩

def bankOfTwo : Chain :=
  bankRun [admitCards, depositCard 30, depositCard 31, approveCard 30 12000000 100,
    approveCard 31 15000000 100]

/-- Its two active cards weigh in slots of their own. -/
theorem reachable_synchronised_bank : ∃ L p q, bankOfTwo.ledger (.pool 0) = some L ∧
    L.positions.lookup (bankPosition 30) = some p ∧ L.positions.lookup (bankPosition 31) = some q ∧
    p.slotIndex ≠ q.slotIndex ∧ L.pool.nReal = 2 ∧ L.Synchronised := by
  obtain ⟨pool, hpool, hreal⟩ := Option.map_eq_some_iff.mp
    (show (bankOfTwo.pools.lookup (.pool 0)).map (·.nReal) = some 2 by decide +kernel)
  obtain ⟨L, hL, rfl, hsync⟩ := reachable_synchronised (bankRun_reachable (by decide +kernel)) hpool
  have hactive : (bankOfTwo.ledger (.pool 0)).any (fun L =>
      (L.positions.lookup (bankPosition 30)).any (fun p => p.state = .active) ∧
        (L.positions.lookup (bankPosition 31)).any fun p => p.state = .active) = true := by
    decide +kernel
  simp only [show bankOfTwo.ledger (.pool 0) = some L from hL, Option.any_some, Option.any_eq_true,
    decide_eq_true_eq] at hactive
  obtain ⟨⟨p, hp, hpactive⟩, q, hq, hqactive⟩ := hactive
  refine ⟨L, p, q, hL, hp, hq, fun hslot => ?_, hreal, hsync⟩
  exact absurd (hsync.distinct _ _ _ _ hp hq hpactive hqactive hslot) (by decide)

end ByeMachine
