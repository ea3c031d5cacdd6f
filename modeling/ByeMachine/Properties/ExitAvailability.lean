import ByeMachine.Invariants.Accounted
import ByeMachine.Laws.Rebalance
import ByeMachine.Script

/-!
# A depositor can always leave

Whatever came before, an unlocked active position's departure fails only where
the controller cannot answer the pool it would leave.
-/

namespace ByeMachine

open Fallible

variable {X : Programs} {c : Chain} {key k : Pubkey} {L : Ledger} {p : Position} {now : ℤ}

def Departs (L : Ledger) (k : Pubkey) (p : Position) (now : ℤ) (stats : WalletStats) : Prop :=
  ∃ booked index, applyWithdraw L.pool p stats L.topTier.accTier now = .ok booked ∧
    L.weightIndex.remove booked.effect.slotIndex booked.effect.recordedValue
      booked.effect.expectedTotal = .ok index ∧
    (p.inTier = true → ∃ r, Tier.vacate L.topTier k booked.position L.topTier.accTier = .ok r)

/-- In every state that instructions and accruals reach, an active position whose lock has run out
can depart while no batch is open, wherever the controller answers. -/
theorem exit_available (h : SettlingReachable X Accrues c) (hL : c.ledger key = some L)
    (hopen : L.pool.openBatches = 0) (hp : L.positions.lookup k = some p)
    (hactive : p.state = .active) (hlock : p.lockUntil ≤ now)
    (htargets : ∃ targets, Rebalance.evaluate (L.pool.nReal - 1)
      (L.pool.wReal - weight p.recordedValue) L.pool.blankFaces L.pool.ticketTarget
        = .ok targets) :
    ∃ stats, L.walletStats p.depositor = some stats ∧ Departs L k p now stats := by
  have hreads := ledger_eq_some.mp hL
  have hranked := h.sound.ranked key L hreads
  have hsynced := h.sound.synced key L hreads
  have haccounted := h.accounted hreads
  have hchecked := haccounted.checked k p hp
  obtain ⟨targets, htargets⟩ := htargets
  obtain ⟨stats, hstats⟩ := hsynced.stats_exists hp hactive
  have howed := haccounted.legs_le hp hactive
  have hbooked := applyWithdraw_ok.mpr ⟨targets, hsynced.departsFrom hp hactive hstats hopen
    (hchecked.equal hactive) htargets, hlock, hchecked.tier hactive,
    lt_of_le_of_lt howed haccounted.width, howed, rfl⟩
  obtain ⟨index, hindex⟩ := hsynced.remove_succeeds hp hactive
  refine ⟨stats, hstats, _, index, hbooked, hindex, fun hin => ?_⟩
  -- The accounting drew the tier leg and stamped its checkpoint: nothing is left to settle.
  have hstamp : (withdrawn L.pool p stats L.topTier.accTier targets).position.tierCheckpoint
      = L.topTier.accTier := if_pos hin
  obtain ⟨t, hvacate⟩ := hranked.vacate_succeeds hp hin
    (q := (withdrawn L.pool p stats L.topTier.accTier targets).position) hstamp.le (by
      rw [hstamp, pendingFees_self]
      exact Nat.two_pow_pos 64)
  exact ⟨_, hvacate⟩

def bankAccrued : Chain :=
  (bankRun [admitCards, depositCard 30, approveCard 30 12000000 100]).settle (.pool 0)
    ⟨5 * ACC_PRECISION, 3 * ACC_PRECISION, 8, 0, 0⟩

theorem exit_available_bank :
    ∃ L p stats, bankAccrued.ledger (.pool 0) = some L ∧
      L.positions.lookup (bankPosition 30) = some p ∧ p.inTier = true ∧
      p.legs L.pool.accEqual L.topTier.accTier = 8 ∧ Departs L (bankPosition 30) p 100 stats := by
  have hbefore : ((bankRun [admitCards, depositCard 30, approveCard 30 12000000 100]).ledger
      (.pool 0)).map (fun M => (M.pool.accEqual, M.topTier.accTier, (M.settled
        ⟨5 * ACC_PRECISION, 3 * ACC_PRECISION, 8, 0, 0⟩).activeOwed)) = some (0, 0, 8) := by
    decide +kernel
  obtain ⟨M, hM, hstands⟩ := Option.map_eq_some_iff.mp hbefore
  simp only [Prod.mk.injEq] at hstands
  have hreachable : SettlingReachable bank Accrues bankAccrued :=
    SettlingReachable.settle (Reachable.settling (bankRun_reachable (by decide +kernel)))
      (ledger_eq_some.mp hM) ⟨by rw [hstands.1]; exact Nat.zero_le _,
        by rw [hstands.2.1]; exact Nat.zero_le _, hstands.2.2.le, by decide⟩
  have hafter : ((bankAccrued.ledger (.pool 0)).bind fun L =>
      (L.positions.lookup (bankPosition 30)).map fun p => (L.pool.openBatches, L.pool.nReal,
        p.state, p.lockUntil, p.inTier, p.legs L.pool.accEqual L.topTier.accTier))
      = some (0, 1, .active, 100, true, 8) := by decide +kernel
  obtain ⟨L, hL, hposition⟩ := Option.bind_eq_some_iff.mp hafter
  obtain ⟨p, hp, heq⟩ := Option.map_eq_some_iff.mp hposition
  simp only [Prod.mk.injEq] at heq
  obtain ⟨hopen, hone, hactive, hlock, hin, hlegs⟩ := heq
  obtain ⟨stats, -, hdeparts⟩ := exit_available hreachable hL hopen hp hactive hlock.le
    (by rw [hone]; exact ⟨_, Rebalance.evaluate_empty⟩)
  exact ⟨L, p, stats, hL, hp, hin, hlegs, hdeparts⟩

end ByeMachine
