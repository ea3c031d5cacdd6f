import ByeMachine.Ledger
import Mathlib.Tactic.FinCases

/-!
# The top tier's invariant

The ranked array and the positions' flags agree, the array fits the configured
size, and position ids are unique. Every move of a pool's ledger keeps it.
-/

namespace ByeMachine

open Fallible

structure Ledger.Ranked (L : Ledger) : Prop where
  listed : Tier.Listed L.topTier.members L.positions
  identified : Identified L.positions L.pool.positionCounter
  len_le : L.topTier.len ≤ L.pool.tierSize
  tierSize_pos : 0 < L.pool.tierSize
  tierSize_le : L.pool.tierSize ≤ MAX_TIER_SIZE

theorem Ledger.Ranked.len_le_max {L : Ledger} (h : L.Ranked) : L.topTier.len ≤ MAX_TIER_SIZE :=
  h.len_le.trans h.tierSize_le

theorem Ledger.Ranked.length_members {L : Ledger} (h : L.Ranked) :
    L.topTier.members.length = L.topTier.len :=
  TopTier.length_members h.len_le_max

-- ---------------------------------------------------------------------------
-- Ids
-- ---------------------------------------------------------------------------

section Ids

variable {positions : Positions} {counter : ℕ} {k : Pubkey} {p p' : Position}

theorem Identified.write (h : Identified positions counter) (hp : positions.lookup k = some p)
    (hid : p'.positionId = p.positionId) : Identified (positions.insert k p') counter where
  below := by
    intro x q hq
    by_cases hx : x = k
    · subst hx
      rw [Finmap.lookup_insert, Option.some.injEq] at hq
      rw [← hq, hid]
      exact h.below x p hp
    · exact h.below x q (Finmap.lookup_insert_of_ne _ hx ▸ hq)
  distinct := by
    -- Every entry has the id of the entry that stood there before.
    have hold : ∀ x q, (positions.insert k p').lookup x = some q →
        ∃ q₀, positions.lookup x = some q₀ ∧ q₀.positionId = q.positionId := by
      intro x q hq
      by_cases hx : x = k
      · subst hx
        rw [Finmap.lookup_insert, Option.some.injEq] at hq
        exact ⟨p, hp, by rw [← hq, hid]⟩
      · exact ⟨q, Finmap.lookup_insert_of_ne _ hx ▸ hq, rfl⟩
    intro x x' q q' hq hq' heq
    obtain ⟨q₀, hq₀, hid₀⟩ := hold x q hq
    obtain ⟨q₀', hq₀', hid₀'⟩ := hold x' q' hq'
    exact h.distinct x x' q₀ q₀' hq₀ hq₀' (by rw [hid₀, hid₀', heq])

theorem Identified.intake (h : Identified positions counter)
    (hid : p.positionId = counter) : Identified (positions.insert k p) (counter + 1) where
  below := by
    intro x q hq
    by_cases hx : x = k
    · subst hx
      rw [Finmap.lookup_insert, Option.some.injEq] at hq
      rw [← hq, hid]
      omega
    · have := h.below x q (Finmap.lookup_insert_of_ne _ hx ▸ hq)
      omega
  distinct := by
    intro x x' q q' hq hq' heq
    by_cases hx : x = k <;> by_cases hx' : x' = k
    · rw [hx, hx']
    · subst hx
      rw [Finmap.lookup_insert, Option.some.injEq] at hq
      have := h.below x' q' (Finmap.lookup_insert_of_ne _ hx' ▸ hq')
      rw [← hq, hid] at heq
      omega
    · subst hx'
      rw [Finmap.lookup_insert, Option.some.injEq] at hq'
      have := h.below x q (Finmap.lookup_insert_of_ne _ hx ▸ hq)
      rw [← hq', hid] at heq
      omega
    · exact h.distinct x x' q q' (Finmap.lookup_insert_of_ne _ hx ▸ hq)
        (Finmap.lookup_insert_of_ne _ hx' ▸ hq') heq

theorem Identified.erase (h : Identified positions counter) :
    Identified (positions.erase k) counter where
  below := by
    intro x q hq
    by_cases hx : x = k
    · subst hx; simp at hq
    · exact h.below x q (Finmap.lookup_erase_ne hx ▸ hq)
  distinct := by
    intro x x' q q' hq hq' heq
    by_cases hx : x = k
    · subst hx; simp at hq
    · by_cases hx' : x' = k
      · subst hx'; simp at hq'
      · exact h.distinct x x' q q' (Finmap.lookup_erase_ne hx ▸ hq)
          (Finmap.lookup_erase_ne hx' ▸ hq') heq

end Ids

-- ---------------------------------------------------------------------------
-- Moves
-- ---------------------------------------------------------------------------

theorem Tier.Listed.inTier_eq_false {members : List TierEntry} {positions : Positions}
    (h : Tier.Listed members positions) {k : Pubkey} {p : Position}
    (hp : positions.lookup k = some p) (hstate : p.state ≠ .active) : p.inTier = false := by
  by_contra hin
  exact hstate (h.active k p hp (by simpa using hin))

theorem Tier.Listed.rewrite {members : List TierEntry} {positions : Positions}
    (h : Tier.Listed members positions) {k : Pubkey} {p p' : Position}
    (hp : positions.lookup k = some p) (hold : p.inTier = false) (hnew : p'.inTier = false) :
    Tier.Listed members (positions.insert k p') := by
  refine h.write (fun q hq => ?_) hnew
  obtain rfl : p = q := Option.some.inj (hp.symm.trans hq)
  exact hold

theorem Tier.settleMember_inTier {q q' : Position} {accTier : ℕ}
    (h : Tier.settleMember q accTier = .ok q') : q'.inTier = false ∧ q'.positionId = q.positionId := by
  obtain ⟨-, -, rfl⟩ := Tier.settleMember_ok.mp h
  exact ⟨rfl, rfl⟩

theorem Move.ranked {L L' : Ledger} (hmove : Move L L') (h : L.Ranked) : L'.Ranked := by
  obtain ⟨hlisted, hids, hlen, hpos, hsize⟩ := h
  have hmax : L.topTier.len ≤ MAX_TIER_SIZE := hlen.trans hsize
  cases hmove with
  | @activate k p stats index targets value slot observedAt now lockUntil hp hstate =>
    have hout := hlisted.inTier_eq_false hp (by rw [hstate]; decide)
    exact ⟨hlisted.rewrite hp hout hout, hids.write hp rfl, hlen, hpos, hsize⟩
  | @revalue k p stats index topTier targets value wReal activeValue observedAt hp hstate _ _ _ _ _
      _ hmember hother =>
    cases hin : p.inTier with
    | false =>
      obtain rfl := hother hin
      exact ⟨hlisted.rewrite hp hin hin, hids.write hp rfl, hlen, hpos, hsize⟩
    | true =>
      -- The member leaves with its flag cleared and comes back with the new value.
      obtain ⟨pre, x, post, hmem, hx, hlands, hlen', -⟩ :=
        Tier.refreshMember_ok hlen hsize (hmember hin)
      rw [hmem] at hlisted
      let left := L.positions.insert k { p with inTier := false }
      have hleft : Tier.Listed (pre ++ post) left := hlisted.leave hx rfl
      have hids' : Identified left L.pool.positionCounter := hids.write hp rfl
      have hback : Tier.Listed topTier.members (left.insert k (p.revalued value observedAt)) :=
        hleft.join hids' (Finmap.lookup_insert _) rfl hin hstate rfl hlands
      rw [Finmap.insert_insert] at hback
      exact ⟨hback, hids.write hp rfl, hlen'.trans_le hlen, hpos, hsize⟩
  | depart hp htier =>
    exact ⟨hlisted.rewrite hp htier htier, hids.write hp rfl, hlen, hpos, hsize⟩
  | @withdraw k p stats index targets hp htier =>
    refine ⟨hlisted.erase fun q hq => ?_, hids.erase, hlen, hpos, hsize⟩
    obtain rfl : p = q := Option.some.inj (hp.symm.trans hq)
    exact htier
  | @leave k p p' topTier removed hp htier _ hvacate =>
    obtain ⟨⟨hposition, ⟨pre, post, hmem, hmem'⟩, -, hlen', -⟩, hsettle⟩ :=
      Tier.vacate_ok hmax hvacate
    obtain ⟨hout, hid⟩ := Tier.settleMember_inTier hsettle
    rw [hmem] at hlisted
    have hleft := hlisted.leave hposition hout
    rw [← hmem'] at hleft
    exact ⟨hleft, hids.write hp hid, show topTier.len ≤ L.pool.tierSize by omega, hpos, hsize⟩
  | @join k p topTier hp hstate htier hpromote =>
    obtain ⟨hroom, hlen', -, hlands⟩ := Tier.promote_ok hlen hpos hsize hpromote
    exact ⟨hlisted.join hids hp htier rfl hstate rfl hlands, hids.write hp rfl,
      show topTier.len ≤ L.pool.tierSize by omega, hpos, hsize⟩
  | @swap k p q q' topTier evicted hp hstate htier hpromote hq hsettle =>
    obtain ⟨-, hlen', -, init, hmem, hlands⟩ := Tier.promote_ok hlen hpos hsize hpromote
    obtain ⟨hout, hid⟩ := Tier.settleMember_inTier hsettle
    rw [show L.topTier.members = init ++ evicted :: [] from hmem] at hlisted
    have hne : k ≠ evicted.position := by
      rintro rfl
      obtain ⟨q₀, hq₀, hin, -, -⟩ := hlisted.lookup (e := evicted) (by simp)
      rw [hp, Option.some.injEq] at hq₀
      rw [← hq₀, htier] at hin
      cases hin
    have hleft := hlisted.leave rfl hout
    rw [List.append_nil] at hleft
    have hids' := hids.write hq hid
    have hp' : (L.positions.insert evicted.position q').lookup k = some p := by
      rw [Finmap.lookup_insert_of_ne _ hne, hp]
    exact ⟨hleft.join hids' hp' htier rfl hstate rfl hlands, hids'.write hp' rfl,
      hlen'.trans_le hlen, hpos, hsize⟩
  | @retire k p state reason hp hstate =>
    have hout := hlisted.inTier_eq_false hp hstate
    exact ⟨hlisted.rewrite hp hout hout, hids.write hp rfl, hlen, hpos, hsize⟩
  | @release k p hp hstate =>
    have hout := hlisted.inTier_eq_false hp hstate
    refine ⟨hlisted.erase fun q hq => ?_, hids.erase, hlen, hpos, hsize⟩
    obtain rfl : p = q := Option.some.inj (hp.symm.trans hq)
    exact hout
  | commit => exact ⟨hlisted, hids, hlen, hpos, hsize⟩
  | tick => exact ⟨hlisted, hids, hlen, hpos, hsize⟩
  | credit => exact ⟨hlisted, hids, hlen, hpos, hsize⟩

theorem Moves.ranked {L L' : Ledger} (hmoves : Moves L L') (h : L.Ranked) : L'.Ranked := by
  induction hmoves with
  | refl => exact h
  | tail _ hmove ih => exact hmove.ranked ih

theorem Intake.ranked {L L' : Ledger} (hintake : Intake L L') (h : L.Ranked) : L'.Ranked := by
  obtain ⟨hlisted, hids, hlen, hpos, hsize⟩ := h
  cases hintake with
  | intro hfree hstate htier haccrued hid =>
    refine ⟨hlisted.write (fun q hq => ?_) htier, hids.intake hid, hlen, hpos, hsize⟩
    rw [hfree] at hq
    cases hq

-- ---------------------------------------------------------------------------
-- Configuration
-- ---------------------------------------------------------------------------

/-- What settling a list of evicted members keeps, when each step keeps it. -/
theorem SettledAll.keep {accTier : ℕ} {motive : List TierEntry → Positions → Prop}
    (step : ∀ e evicted positions q q', motive (e :: evicted) positions →
      positions.lookup e.position = some q → Tier.settleMember q accTier = .ok q' →
      motive evicted (positions.insert e.position q'))
    {evicted : List TierEntry} {positions positions' : Positions}
    (hsettled : SettledAll accTier evicted positions positions') (h : motive evicted positions) :
    motive [] positions' := by
  induction evicted generalizing positions with
  | nil =>
    obtain rfl := hsettled
    exact h
  | cons e evicted ih =>
    obtain ⟨q, q', hq, hsettle, hrest⟩ := hsettled
    exact ih hrest (step e evicted positions q q' h hq hsettle)

theorem SettledAll.listed {accTier : ℕ} {kept evicted : List TierEntry}
    {positions positions' : Positions} (hsettled : SettledAll accTier evicted positions positions')
    (h : Tier.Listed (kept ++ evicted) positions) : Tier.Listed kept positions' := by
  have hall := hsettled.keep
    (motive := fun rest positions => Tier.Listed (kept ++ rest) positions)
    (fun e rest positions q q' hl hq hsettle =>
      hl.leave rfl (Tier.settleMember_inTier hsettle).1) h
  rwa [List.append_nil] at hall

theorem SettledAll.identified {accTier counter : ℕ} {evicted : List TierEntry}
    {positions positions' : Positions} (hsettled : SettledAll accTier evicted positions positions')
    (h : Identified positions counter) : Identified positions' counter :=
  hsettled.keep (motive := fun _ positions => Identified positions counter)
    (fun _ _ _ _ _ hids hq hsettle => hids.write hq (Tier.settleMember_inTier hsettle).2) h

theorem validateFaces_ok {faces : Denomination → ℕ} {ticketTarget : ℕ} {u : Unit} :
    validateFaces faces ticketTarget = .ok u ↔
      ∀ d, 0 < faces d ∧ faces d < ticketTarget := by
  simp only [validateFaces, List.forM_eq_forM, List.forM_cons, List.forM_nil, bind_ok,
    require_ok, pure_ok]
  constructor
  · rintro ⟨-, ⟨-, h0, h0'⟩, -, ⟨-, h1, h1'⟩, -, ⟨-, h2, h2'⟩, -⟩ d
    fin_cases d
    exacts [⟨h0, h0'⟩, ⟨h1, h1'⟩, ⟨h2, h2'⟩]
  · intro h
    exact ⟨(), ⟨(), h 0⟩, (), ⟨(), h 1⟩, (), ⟨(), h 2⟩, trivial⟩

theorem validate_ok {config : EffectiveConfig} {u : Unit} (h : validate config = .ok u) :
    config.ticketTarget < config.admissionFloor ∧
      (∀ d, 0 < config.blankFaces d ∧ config.blankFaces d < config.ticketTarget) ∧
      1 ≤ config.tierSize ∧ config.tierSize ≤ MAX_TIER_SIZE := by
  simp only [validate, bind_ok, require_ok, validateFaces_ok] at h
  obtain ⟨-, hfloor, -, hfaces, -, -, -, -, -, -, -, -, htier⟩ := h
  exact ⟨hfloor, hfaces, htier⟩

theorem effectiveConfig_tierSize (pool : Pool) (update : ConfigUpdate) :
    (effectiveConfig pool update).tierSize = (applyUpdate pool update).tierSize := by
  cases update <;> rfl

theorem Configure.ranked {L L' : Ledger} {update : ConfigUpdate} (hconfig : Configure update L L')
    (h : L.Ranked) : L'.Ranked := by
  have hmax := h.len_le_max
  obtain ⟨hlisted, hids, hlen, hpos, hsize⟩ := h
  cases hconfig with
  | @intro topTier positions hvalid hfreeze hdemote =>
    obtain ⟨-, -, hpos', hsize'⟩ := validate_ok hvalid
    rw [effectiveConfig_tierSize] at hpos' hsize'
    cases update with
    | tierSize value =>
      obtain ⟨evicted, hshrink, hsettled⟩ := hdemote
      obtain ⟨rfl, rfl, hmem⟩ := Tier.shrink_ok hmax hshrink
      rw [← List.take_append_drop value L.topTier.members] at hlisted
      exact ⟨hmem ▸ hsettled.listed hlisted, hsettled.identified hids, min_le_right _ _, hpos',
        hsize'⟩
    | _ =>
      obtain ⟨rfl, rfl⟩ := hdemote
      exact ⟨hlisted, hids, hlen, hpos', hsize'⟩

end ByeMachine
