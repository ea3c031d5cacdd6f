import ByeMachine.Invariants.Ranked
import ByeMachine.Refinement.Frame

/-!
# Tier operations as moves

What the handlers' tier branches do where they succeed, and the moves they make:
a departure with its member leaving first, a successor joining, a crossing.
-/

namespace ByeMachine

open Fallible

-- ---------------------------------------------------------------------------
-- What the branches do
-- ---------------------------------------------------------------------------

theorem settleDisplacedMember_ok {remaining : List AccountMeta} {positions positions' : Positions}
    {evicted : TierEntry} {accTier : ℕ}
    (h : Tier.settleDisplacedMember remaining positions evicted accTier = .ok positions') :
    ∃ q q', positions.lookup evicted.position = some q ∧ Tier.settleMember q accTier = .ok q' ∧
      positions' = positions.insert evicted.position q' := by
  simp only [Tier.settleDisplacedMember, loadPosition, bind_ok, okOr_ok, require_ok, pure_ok] at h
  obtain ⟨info, hfind, -, -, q, hq, q', hsettle, rfl⟩ := h
  have hkey : info.key = evicted.position := by simpa using List.find?_some hfind
  exact ⟨q, q', hkey ▸ hq, hsettle, by rw [hkey]⟩

/-- The successor a close path landed, if it was handed one. -/
structure Filled (poolKey : Pubkey) (tierSize accTier : ℕ) (t t' : TopTier)
    (positions positions' : Positions) (k : Pubkey) : Prop where
  intro ::
  candidate : ∃ p, positions.lookup k = some p ∧ p.pool = poolKey ∧ p.state = .active ∧
    p.inTier = false ∧ Tier.promote t tierSize (Tier.entryOf k p) = .ok (t', .inserted) ∧
    positions' = positions.insert k (p.entered accTier)

theorem fillVacancyFromCandidate_ok {t t' : TopTier} {tierSize accTier : ℕ}
    {remaining : List AccountMeta} {positions positions' : Positions} {poolKey : Pubkey}
    {entered : Option Pubkey}
    (h : Tier.fillVacancyFromCandidate t tierSize remaining positions poolKey accTier
      = .ok (t', positions', entered)) :
    (t' = t ∧ positions' = positions) ∨
      ∃ k, Filled poolKey tierSize accTier t t' positions positions' k := by
  unfold Tier.fillVacancyFromCandidate at h
  split at h
  · rw [pure_ok, Prod.mk.injEq, Prod.mk.injEq] at h
    exact .inl ⟨h.1.symm, h.2.1.symm⟩
  · next info _ =>
    simp only [loadPosition, Tier.fillVacancy, Tier.isEligibleCandidate, bind_ok, okOr_ok,
      require_ok, pure_ok, Prod.mk.injEq, Bool.and_eq_true, decide_eq_true_eq,
      Bool.not_eq_true'] at h
    obtain ⟨-, -, p, hp, -, hpool, -, ⟨hstate, htier⟩, _, ⟨⟨_, outcome⟩, hpromote, -, hin, rfl⟩,
      rfl, rfl, -⟩ := h
    obtain rfl : outcome = .inserted := hin
    exact .inr ⟨info.key, p, hp, hpool, hstate, htier, hpromote, rfl⟩

/-- A promotion with whoever it displaced settled: the tier and the other positions after it. -/
inductive Crossed (tierSize : ℕ) (t : TopTier) (entry : TierEntry) (positions : Positions) :
    TopTier → Positions → Bool → Prop where
  | inserted {t' : TopTier} (hpromote : Tier.promote t tierSize entry = .ok (t', .inserted)) :
      Crossed tierSize t entry positions t' positions true
  | swapped {t' : TopTier} {evicted : TierEntry} {q q' : Position}
      (hpromote : Tier.promote t tierSize entry = .ok (t', .swapped evicted))
      (hq : positions.lookup evicted.position = some q)
      (hsettle : Tier.settleMember q t.accTier = .ok q') :
      Crossed tierSize t entry positions t' (positions.insert evicted.position q') true
  | rejected {t' : TopTier} (hpromote : Tier.promote t tierSize entry = .ok (t', .rejected)) :
      Crossed tierSize t entry positions t' positions false

theorem promoteActivated_ok {t t' : TopTier} {tierSize : ℕ} {entry : TierEntry}
    {remaining : List AccountMeta} {positions positions' : Positions} {entered : Bool}
    {displaced : Option Pubkey}
    (h : promoteActivated t tierSize entry remaining positions
      = .ok (t', positions', entered, displaced)) :
    Crossed tierSize t entry positions t' positions' entered := by
  simp only [promoteActivated, bind_ok] at h
  obtain ⟨⟨t₁, outcome⟩, hpromote, h⟩ := h
  cases outcome with
  | inserted =>
    simp only [pure_ok, Prod.mk.injEq] at h
    obtain ⟨rfl, rfl, rfl, -⟩ := h
    exact .inserted hpromote
  | swapped evicted =>
    simp only [bind_ok, pure_ok, Prod.mk.injEq] at h
    obtain ⟨_, hsettle, rfl, rfl, rfl, -⟩ := h
    obtain ⟨q, q', hq, hsettled, rfl⟩ := settleDisplacedMember_ok hsettle
    exact .swapped hpromote hq hsettled
  | rejected =>
    simp only [pure_ok, Prod.mk.injEq] at h
    obtain ⟨rfl, rfl, rfl, -⟩ := h
    exact .rejected hpromote

theorem crossIntoTier_ok {t t' : TopTier} {tierSize accTier : ℕ} {p p' : Position}
    {entry : TierEntry} {crossed : Tier.CrossOutcome}
    (h : Tier.crossIntoTier t tierSize p entry accTier = .ok (t', p', crossed)) :
    match crossed with
    | .inserted => Tier.promote t tierSize entry = .ok (t', .inserted) ∧ p' = p.entered accTier
    | .swapped evicted =>
      Tier.promote t tierSize entry = .ok (t', .swapped evicted) ∧ p' = p.entered accTier
    | .rejected => Tier.promote t tierSize entry = .ok (t', .rejected) ∧ p' = p := by
  simp only [Tier.crossIntoTier, bind_ok] at h
  obtain ⟨⟨t₁, outcome⟩, hpromote, h⟩ := h
  cases outcome <;>
    · simp only [pure_ok, Prod.mk.injEq] at h
      obtain ⟨rfl, rfl, rfl⟩ := h
      exact ⟨hpromote, rfl⟩

theorem crossAndSettle_ok {t t' : TopTier} {tierSize : ℕ} {k : Pubkey} {p p' : Position}
    {entry : TierEntry} {remaining : List AccountMeta} {positions positions' : Positions}
    {change : TierChange}
    (h : crossAndSettle t tierSize k p entry remaining positions
      = .ok (t', p', positions', change)) :
    ∃ entered, Crossed tierSize t entry positions t' positions' entered ∧
      p' = if entered then p.entered t.accTier else p := by
  simp only [crossAndSettle, bind_ok] at h
  obtain ⟨⟨t₁, p₁, crossed⟩, hcross, h⟩ := h
  have hcross := crossIntoTier_ok hcross
  cases crossed with
  | inserted =>
    obtain ⟨hpromote, rfl⟩ := hcross
    simp only [pure_ok, Prod.mk.injEq] at h
    obtain ⟨rfl, rfl, rfl, -⟩ := h
    exact ⟨true, .inserted hpromote, rfl⟩
  | swapped evicted =>
    obtain ⟨hpromote, rfl⟩ := hcross
    simp only [bind_ok, pure_ok, Prod.mk.injEq] at h
    obtain ⟨_, hsettle, rfl, rfl, rfl, -⟩ := h
    obtain ⟨q, q', hq, hsettled, rfl⟩ := settleDisplacedMember_ok hsettle
    exact ⟨true, .swapped hpromote hq hsettled, rfl⟩
  | rejected =>
    obtain ⟨hpromote, rfl⟩ := hcross
    simp only [pure_ok, Prod.mk.injEq] at h
    obtain ⟨rfl, rfl, rfl, -⟩ := h
    exact ⟨false, .rejected hpromote, rfl⟩

theorem settleCrossed_ok {t t' : TopTier} {tierSize : ℕ} {p p' : Position} {entry : TierEntry}
    {crossed : Tier.CrossOutcome} {remaining : List AccountMeta} {positions positions' : Positions}
    {left : Option Pubkey}
    (hcross : Tier.crossIntoTier t tierSize p entry t.accTier = .ok (t', p', crossed))
    (h : settleCrossed remaining positions t.accTier crossed = .ok (positions', left)) :
    Crossed tierSize t entry positions t' positions' true ∧ p' = p.entered t.accTier := by
  have hcross := crossIntoTier_ok hcross
  cases crossed with
  | inserted =>
    simp only [settleCrossed, pure_ok, Prod.mk.injEq] at h
    obtain ⟨rfl, -⟩ := h
    exact ⟨.inserted hcross.1, hcross.2⟩
  | swapped evicted =>
    simp only [settleCrossed, bind_ok, pure_ok, Prod.mk.injEq] at h
    obtain ⟨_, hsettle, rfl, -⟩ := h
    obtain ⟨q, q', hq, hsettled, rfl⟩ := settleDisplacedMember_ok hsettle
    exact ⟨.swapped hcross.1 hq hsettled, hcross.2⟩
  | rejected => simp only [settleCrossed, throw_ok] at h

-- ---------------------------------------------------------------------------
-- The moves
-- ---------------------------------------------------------------------------

section Moves

variable {c : Chain} {poolKey k : Pubkey} {L : Ledger} {p : Position}

theorem Crossed.moves (poolKey : Pubkey) {t' : TopTier} {positions' : Positions} {entered : Bool}
    (hranked : L.Ranked)
    (hcross : Crossed L.pool.tierSize L.topTier (Tier.entryOf k p) c.positions t' positions' entered)
    (hkeyed : OnlyPool poolKey c.positions c.positions)
    (hpositions : L.positions = (Store.restrict (ofPool poolKey) c.positions).insert k p)
    (hpool : p.pool = poolKey) (hstate : p.state = .active) (htier : p.inTier = false) :
    OnlyPool poolKey c.positions positions' ∧
      Moves L { L with
        topTier := t'
        positions := Store.restrict (ofPool poolKey)
          (positions'.insert k (if entered then p.entered L.topTier.accTier else p)) } := by
  have hp : L.positions.lookup k = some p := by rw [hpositions, Finmap.lookup_insert]
  obtain ⟨hlisted, -, hlen, hpos, hsize⟩ := hranked
  cases hcross with
  | inserted hpromote =>
    refine ⟨hkeyed, .single ?_⟩
    have hmove := Move.join hp hstate htier hpromote
    rw [hpositions, Finmap.insert_insert, ← restrict_write (by exact hpool)] at hmove
    exact hmove
  | @swapped evicted q q' hpromote hq hsettle =>
    obtain ⟨-, -, -, init, hmem, -⟩ := Tier.promote_ok hlen hpos hsize hpromote
    obtain ⟨q₁, hq₁, hin, -, -⟩ := hlisted.lookup (e := evicted) (by rw [hmem]; simp)
    have hne : evicted.position ≠ k := by
      rintro rfl
      rw [hp, Option.some.injEq] at hq₁
      rw [← hq₁, htier] at hin
      cases hin
    -- The evicted member is the one the chain holds, and it is this pool's.
    have hfound := hq₁
    rw [hpositions, Finmap.lookup_insert_of_ne _ hne, Store.lookup_restrict, hq,
      Option.some.injEq] at hfound
    obtain ⟨rfl, hofPool⟩ := hfound
    have hqpool : q.pool = poolKey := by simpa [ofPool] using hofPool
    obtain ⟨-, -, rfl⟩ := Tier.settleMember_ok.mp hsettle
    refine ⟨hkeyed.write hqpool ?_, .single ?_⟩
    · have := hkeyed.keyed _ _ hq
      rwa [hqpool] at this
    · have hmove := Move.swap hp hstate htier hpromote hq₁ hsettle
      rw [hpositions, Finmap.insert_insert_of_ne _ hne.symm, Finmap.insert_insert,
        ← restrict_write (by exact hqpool), ← restrict_write (by exact hpool)] at hmove
      exact hmove
  | rejected hpromote =>
    obtain rfl : t' = L.topTier := Tier.promote_ok hlen hpos hsize hpromote
    refine ⟨hkeyed, ?_⟩
    rw [if_neg (by decide), restrict_write hpool, ← hpositions]

theorem Filled.moves {t' : TopTier} {positions' : Positions} {kc : Pubkey}
    (hfill : Filled poolKey L.pool.tierSize L.topTier.accTier L.topTier t' c.positions positions' kc)
    (hkeyed : OnlyPool poolKey c.positions c.positions)
    (hpositions : L.positions = (Store.restrict (ofPool poolKey) c.positions).insert k p)
    (hmember : ∀ q, c.positions.lookup k = some q → q.inTier = true) (hpool : p.pool = poolKey) :
    OnlyPool poolKey c.positions positions' ∧
      Moves L { L with
        topTier := t'
        positions := Store.restrict (ofPool poolKey) (positions'.insert k p) } := by
  obtain ⟨q, hq, hqpool, hstate, htier, hpromote, rfl⟩ := hfill.candidate
  have hne : kc ≠ k := by
    rintro rfl
    rw [hmember q hq] at htier
    cases htier
  have hq' : L.positions.lookup kc = some q := by
    rw [hpositions, Finmap.lookup_insert_of_ne _ hne, Store.lookup_restrict]
    exact ⟨hq, by simp [ofPool, hqpool]⟩
  refine ⟨hkeyed.write hqpool ?_, .single ?_⟩
  · have := hkeyed.keyed _ _ hq
    rwa [hqpool] at this
  · have hmove := Move.join hq' hstate htier hpromote
    rw [hpositions, Finmap.insert_insert_of_ne _ hne.symm, ← restrict_write (by exact hqpool),
      ← restrict_write hpool] at hmove
    exact hmove

def Position.tierSettled (p : Position) (accTier : ℕ) : Position :=
  if p.inTier then p.leftTier accTier else p

section TierSettled

variable (p : Position) (accTier : ℕ)

@[simp] theorem Position.tierSettled_inTier : (p.tierSettled accTier).inTier = false := by
  cases hin : p.inTier <;> simp [Position.tierSettled, hin, Position.leftTier]

@[simp] theorem Position.tierSettled_pool : (p.tierSettled accTier).pool = p.pool := by
  unfold Position.tierSettled; split <;> rfl

@[simp] theorem Position.tierSettled_nftMint : (p.tierSettled accTier).nftMint = p.nftMint := by
  unfold Position.tierSettled; split <;> rfl

@[simp] theorem Position.tierSettled_state : (p.tierSettled accTier).state = p.state := by
  unfold Position.tierSettled; split <;> rfl

@[simp] theorem Position.tierSettled_recordedValue :
    (p.tierSettled accTier).recordedValue = p.recordedValue := by
  unfold Position.tierSettled; split <;> rfl

@[simp] theorem Position.tierSettled_slotIndex :
    (p.tierSettled accTier).slotIndex = p.slotIndex := by
  unfold Position.tierSettled; split <;> rfl

@[simp] theorem Position.tierSettled_depositor :
    (p.tierSettled accTier).depositor = p.depositor := by
  unfold Position.tierSettled; split <;> rfl

@[simp] theorem Position.tierSettled_equalCheckpoint :
    (p.tierSettled accTier).equalCheckpoint = p.equalCheckpoint := by
  unfold Position.tierSettled; split <;> rfl

end TierSettled

theorem DepartsFrom.tierSettled {pool : Pool} {stats : WalletStats} {targets : BlankTargets}
    (h : DepartsFrom pool p stats targets) (accTier : ℕ) :
    DepartsFrom pool (p.tierSettled accTier) stats targets := by
  obtain ⟨hopen, hactive, hattested, hcheckpoint, hweight, hnReal, hcount, hvalue, htargets,
    hfits⟩ := h
  constructor <;> simpa

/-- A position as the whole departure leaves it: both legs settled, out of the tier. -/
def Position.settledOut (p : Position) (state : PositionState) (accEqual accTier value : ℕ)
    (observedAt : ℤ) : Position :=
  ((p.tierSettled accTier).departed state accEqual).revalued value observedAt

/-- The tier a departure leaves behind. -/
def TierAfter (L : Ledger) (k : Pubkey) (p : Position) (t' : TopTier) : Prop :=
  if p.inTier then
    p.tierCheckpoint ≤ L.topTier.accTier ∧
      pendingFees L.topTier.accTier p.tierCheckpoint + p.accrued < 2 ^ 64 ∧
      ∃ removed, Tier.demote L.topTier k = .ok (t', some removed)
  else t' = L.topTier

theorem TierAfter.accTier {t' : TopTier} (h : TierAfter L k p t')
    (hmax : L.topTier.len ≤ MAX_TIER_SIZE) : t'.accTier = L.topTier.accTier := by
  unfold TierAfter at h
  split at h
  · obtain ⟨-, -, removed, hdemote⟩ := h
    exact (Tier.demote_ok hmax hdemote).accTier
  · rw [h]

theorem TierAfter.moves {t' : TopTier} (h : TierAfter L k p t')
    (hp : L.positions.lookup k = some p) (hopen : L.pool.openBatches = 0) :
    Moves L { L with
      topTier := t', positions := L.positions.insert k (p.tierSettled L.topTier.accTier) } := by
  cases hin : p.inTier with
  | false =>
    rw [TierAfter, hin, if_neg (by decide)] at h
    rw [h, Position.tierSettled, hin, if_neg (by decide), Store.insert_of_lookup hp]
  | true =>
    rw [TierAfter, hin, if_pos rfl] at h
    obtain ⟨hle, hlt, removed, hdemote⟩ := h
    have hsettle := Tier.settleMember_ok.mpr ⟨hle, hlt, rfl⟩
    have hvacate : Tier.vacate L.topTier k p L.topTier.accTier
        = .ok (t', p.leftTier L.topTier.accTier, removed) := by
      simp only [Tier.vacate, hdemote, ok_bind, okOr_some, hsettle, pure, Except.pure]
    rw [Position.tierSettled, if_pos hin]
    exact .single (.leave hp hin hopen hvacate)

end Moves

end ByeMachine
