import ByeMachine.Invariants.Evolution
import ByeMachine.Refinement.Accounting

/-!
# Entitlements

What a position may draw of the fees: both its legs and what was settled while
it is active, what was settled afterwards. Every change of a position re-stamps
and settles so that its entitlement stands.
-/

namespace ByeMachine

open Fallible

/-- What a position may draw of the fees. -/
def Position.entitlement (p : Position) (accEqual accTier : ℕ) : ℕ :=
  if p.state = .active then p.legs accEqual accTier else p.accrued

def Ledger.entitled (L : Ledger) (p : Position) : ℕ :=
  p.entitlement L.pool.accEqual L.topTier.accTier

def Ledger.entitlements (L : Ledger) : ℕ := Store.total (fun _ p => L.entitled p) L.positions

variable {p q : Position} {accEqual accTier : ℕ} {k : Pubkey} {L L' : Ledger}

-- ---------------------------------------------------------------------------
-- One position
-- ---------------------------------------------------------------------------

theorem Position.entitlement_active (h : p.state = .active) :
    p.entitlement accEqual accTier = p.legs accEqual accTier := if_pos h

theorem Position.entitlement_inactive (h : p.state ≠ .active) :
    p.entitlement accEqual accTier = p.accrued := if_neg h

theorem Position.tierLeg_out (h : p.inTier = false) : p.tierLeg accTier = 0 := by
  simp [Position.tierLeg, h]

theorem Position.tierLeg_in (h : p.inTier = true) :
    p.tierLeg accTier = pendingFees accTier p.tierCheckpoint := if_pos h

theorem Position.legs_out (h : p.inTier = false) :
    p.legs accEqual accTier = p.equalOwed accEqual := by
  rw [Position.legs, Position.tierLeg_out h, Position.equalOwed, Nat.zero_add]

theorem Position.activated_entitlement {value slotIndex : ℕ} {observedAt now lockUntil : ℤ}
    (hstate : p.state ≠ .active) (hout : p.inTier = false) :
    (p.activated value slotIndex accEqual observedAt now lockUntil).entitlement accEqual accTier
      = p.entitlement accEqual accTier := by
  rw [Position.entitlement_active rfl, Position.entitlement_inactive hstate,
    Position.legs_out (p := p.activated value slotIndex accEqual observedAt now lockUntil) hout,
    Position.equalOwed]
  show pendingFees accEqual accEqual + p.accrued = p.accrued
  rw [pendingFees_self, Nat.zero_add]

theorem Position.entered_entitlement (hout : p.inTier = false) :
    (p.entered accTier).entitlement accEqual accTier = p.entitlement accEqual accTier := by
  have hlegs : (p.entered accTier).legs accEqual accTier = p.legs accEqual accTier := by
    rw [Position.legs, Position.legs, Position.tierLeg_out hout, Position.tierLeg_in rfl]
    show pendingFees accEqual p.equalCheckpoint + (pendingFees accTier accTier + p.accrued) = _
    rw [pendingFees_self]
  unfold Position.entitlement
  rw [hlegs]
  rfl

theorem Position.leftTier_entitlement (hactive : p.state = .active) (hin : p.inTier = true) :
    (p.leftTier accTier).entitlement accEqual accTier = p.entitlement accEqual accTier := by
  rw [Position.entitlement_active hactive, Position.entitlement_active (p := p.leftTier accTier)
    hactive, Position.legs_out rfl, Position.legs, Position.tierLeg_in hin]
  rfl

theorem Position.departed_entitlement {state : PositionState} {value : ℕ} {observedAt : ℤ}
    (hactive : p.state = .active) (hout : p.inTier = false) (hafter : state ≠ .active) :
    ((p.departed state accEqual).revalued value observedAt).entitlement accEqual accTier
      = p.entitlement accEqual accTier := by
  rw [Position.entitlement_active hactive, Position.legs_out hout]
  exact Position.entitlement_inactive hafter

/-- No change of a position changes its entitlement. -/
theorem PositionStep.entitlement (h : PositionStep accEqual accTier p q) :
    q.entitlement accEqual accTier = p.entitlement accEqual accTier := by
  cases h with
  | activate hstate hout => exact Position.activated_entitlement (by rw [hstate]; decide) hout
  | revalue => rfl
  | depart hactive hout hafter =>
    exact Position.departed_entitlement hactive hout (by obtain rfl | rfl := hafter <;> decide)
  | leave hactive hin => exact Position.leftTier_entitlement hactive hin
  | join hactive hout => exact Position.entered_entitlement hout
  | retire hinactive hafter =>
    rw [Position.entitlement_inactive hinactive]
    exact Position.entitlement_inactive (by obtain rfl | rfl := hafter <;> simp)

theorem PositionSteps.entitlement (h : PositionSteps accEqual accTier p q) :
    q.entitlement accEqual accTier = p.entitlement accEqual accTier := by
  induction h with
  | refl => rfl
  | tail _ hstep ih => exact hstep.entitlement.trans ih

-- ---------------------------------------------------------------------------
-- All positions
-- ---------------------------------------------------------------------------

theorem Ledger.Evolves.entitled_eq (h : L.Evolves L') (p : Position) :
    L'.entitled p = L.entitled p := by
  rw [Ledger.entitled, h.accEqual, h.accTier]
  rfl

theorem Ledger.Evolves.kept (h : L.Evolves L') (hp : L'.positions.lookup k = some p) :
    ∃ p₀, L.positions.lookup k = some p₀ ∧ L'.entitled p = L.entitled p₀ := by
  obtain ⟨p₀, hp₀, hsteps⟩ := h.positions k p hp
  exact ⟨p₀, hp₀, (h.entitled_eq p).trans hsteps.entitlement⟩

theorem Ledger.Evolves.entitlements_le (h : L.Evolves L') : L'.entitlements ≤ L.entitlements := by
  unfold Ledger.entitlements
  simp only [h.entitled_eq]
  exact h.positions.total_le fun _ _ _ hsteps => (PositionSteps.entitlement hsteps).le

end ByeMachine
