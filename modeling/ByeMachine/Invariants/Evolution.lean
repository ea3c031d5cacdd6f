import ByeMachine.Invariants.Synced

/-!
# What a move does to a position

A position changes in six ways, one field group at a time. A move takes every
position it leaves through some of them, so a property of a position is proved
over the six and holds over every run.
-/

namespace ByeMachine

open Fallible

/-- One change of a position under accumulators that stand at `accEqual` and `accTier`. -/
inductive PositionStep (accEqual accTier : ℕ) : Position → Position → Prop where
  | activate {p : Position} {value slotIndex : ℕ} {observedAt now lockUntil : ℤ}
      (hstate : p.state = .pending) (hout : p.inTier = false) :
      PositionStep accEqual accTier p
        (p.activated value slotIndex accEqual observedAt now lockUntil)
  | revalue {p : Position} {value : ℕ} {observedAt : ℤ} (hactive : p.state = .active) :
      PositionStep accEqual accTier p (p.revalued value observedAt)
  | depart {p : Position} {state : PositionState} {value : ℕ} {observedAt : ℤ}
      (hactive : p.state = .active) (hout : p.inTier = false)
      (hafter : state = .closedBelowFloor ∨ state = .seized) :
      PositionStep accEqual accTier p ((p.departed state accEqual).revalued value observedAt)
  | leave {p : Position} (hactive : p.state = .active) (hin : p.inTier = true) :
      PositionStep accEqual accTier p (p.leftTier accTier)
  | join {p : Position} (hactive : p.state = .active) (hout : p.inTier = false) :
      PositionStep accEqual accTier p (p.entered accTier)
  | retire {p : Position} {state : PositionState} {reason : ℕ} (hinactive : p.state ≠ .active)
      (hafter : state = .rejected ∨ state = .seized) :
      PositionStep accEqual accTier p { p with state, rejectReason := reason }

abbrev PositionSteps (accEqual accTier : ℕ) : Position → Position → Prop :=
  Relation.ReflTransGen (PositionStep accEqual accTier)

variable {accEqual accTier : ℕ} {p q : Position} {k : Pubkey} {L L' L'' : Ledger}
  {positions positions' : Positions}

abbrev Evolved (accEqual accTier : ℕ) : Positions → Positions → Prop :=
  Store.Evolves (PositionSteps accEqual accTier)

theorem Evolved.refl : Evolved accEqual accTier positions positions :=
  Store.Evolves.refl fun _ => .refl

theorem Evolved.write (hp : positions.lookup k = some p) (h : PositionStep accEqual accTier p q) :
    Evolved accEqual accTier positions (positions.insert k q) :=
  Store.Evolves.write (fun _ => .refl) hp (.single h)

theorem Evolved.erase : Evolved accEqual accTier positions (positions.erase k) :=
  Store.Evolves.erase fun _ => .refl

theorem Evolved.trans {positions'' : Positions} (h : Evolved accEqual accTier positions positions')
    (h' : Evolved accEqual accTier positions' positions'') :
    Evolved accEqual accTier positions positions'' :=
  Store.Evolves.trans (fun _ _ _ => Relation.ReflTransGen.trans) h h'

/-- From `L` to `L'` the accumulators stand, and every position left came from one there was. -/
structure Ledger.Evolves (L L' : Ledger) : Prop where
  accEqual : L'.pool.accEqual = L.pool.accEqual
  accTier : L'.topTier.accTier = L.topTier.accTier
  positions : Evolved L.pool.accEqual L.topTier.accTier L.positions L'.positions

theorem Ledger.Evolves.refl (L : Ledger) : L.Evolves L := ⟨rfl, rfl, .refl⟩

theorem Ledger.Evolves.trans (h : L.Evolves L') (h' : L'.Evolves L'') : L.Evolves L'' where
  accEqual := h'.accEqual.trans h.accEqual
  accTier := h'.accTier.trans h.accTier
  positions := h.positions.trans (by rw [← h.accEqual, ← h.accTier]; exact h'.positions)

theorem Move.evolves (h : Move L L') (hranked : L.Ranked) : L.Evolves L' := by
  cases h with
  | @activate k p stats index targets value slot observedAt now lockUntil hp hstate =>
    have hout := hranked.listed.inTier_eq_false hp (by rw [hstate]; decide)
    exact ⟨rfl, rfl, .write hp (.activate hstate hout)⟩
  | @revalue k p stats index topTier targets value wReal activeValue observedAt hp hstate _ _ _ _ _ _
      hmember hother =>
    refine ⟨rfl, ?_, .write hp (.revalue hstate)⟩
    cases hin : p.inTier with
    | false => rw [hother hin]
    | true =>
      obtain ⟨_, _, _, _, _, _, _, hacc⟩ :=
        Tier.refreshMember_ok hranked.len_le hranked.tierSize_le (hmember hin)
      exact hacc
  | depart hp htier hfrom hstats hafter =>
    exact ⟨rfl, rfl, .write hp (.depart hfrom.active htier hafter)⟩
  | withdraw | release => exact ⟨rfl, rfl, .erase⟩
  | leave hp htier hopen hvacate =>
    obtain ⟨⟨-, -, -, -, hacc⟩, hsettle⟩ := Tier.vacate_ok hranked.len_le_max hvacate
    obtain ⟨-, -, rfl⟩ := Tier.settleMember_ok.mp hsettle
    exact ⟨rfl, hacc, .write hp (.leave (hranked.listed.active _ _ hp htier) htier)⟩
  | join hp hstate htier hpromote =>
    obtain ⟨-, -, hacc, -⟩ := Tier.promote_ok hranked.len_le hranked.tierSize_pos
      hranked.tierSize_le hpromote
    exact ⟨rfl, hacc, .write hp (.join hstate htier)⟩
  | @swap k p q q' topTier evicted hp hstate htier hpromote hq hsettle =>
    obtain ⟨-, -, hacc, init, hmem, -⟩ := Tier.promote_ok hranked.len_le hranked.tierSize_pos
      hranked.tierSize_le hpromote
    obtain ⟨-, -, rfl⟩ := Tier.settleMember_ok.mp hsettle
    obtain ⟨q₀, hq₀, hin, hactive, -⟩ := hranked.listed.lookup (e := evicted) (by simp [hmem])
    obtain rfl := Option.some.inj (hq.symm.trans hq₀)
    have hne : k ≠ evicted.position := by
      rintro rfl
      obtain rfl := Option.some.inj (hp.symm.trans hq)
      rw [htier] at hin
      cases hin
    have hp' : (L.positions.insert evicted.position (q.leftTier L.topTier.accTier)).lookup k
        = some p := (Finmap.lookup_insert_of_ne _ hne).trans hp
    exact ⟨rfl, hacc, (Evolved.write hq (.leave hactive hin)).trans (.write hp' (.join hstate htier))⟩
  | retire hp hstate hafter => exact ⟨rfl, rfl, .write hp (.retire hstate hafter)⟩
  | commit | tick | credit => exact ⟨rfl, rfl, .refl⟩

theorem Moves.evolves (h : Moves L L') (hranked : L.Ranked) : L.Evolves L' := by
  induction h with
  | refl => exact .refl L
  | tail hmoves hmove ih => exact ih.trans (hmove.evolves (Moves.ranked hmoves hranked))

theorem SettledAll.evolved {kept evicted : List TierEntry}
    (hsettled : SettledAll accTier evicted positions positions')
    (h : Tier.Listed (kept ++ evicted) positions) : Evolved accEqual accTier positions positions' := by
  refine (hsettled.keep (motive := fun rest current => Tier.Listed (kept ++ rest) current ∧
    Evolved accEqual accTier positions current) ?_ ⟨h, .refl⟩).2
  rintro e rest current q q' ⟨hlisted, hevolved⟩ hq hsettle
  obtain ⟨-, -, rfl⟩ := Tier.settleMember_ok.mp hsettle
  obtain ⟨q₀, hq₀, hin, hactive, -⟩ := hlisted.lookup (e := e) (by simp)
  obtain rfl := Option.some.inj (hq.symm.trans hq₀)
  exact ⟨hlisted.leave rfl rfl, hevolved.trans (.write hq (.leave hactive hin))⟩

theorem Configure.evolves {update : ConfigUpdate} (h : Configure update L L') (hranked : L.Ranked) :
    L.Evolves L' := by
  cases h with
  | @intro topTier positions hvalid hfreeze hdemote =>
    have hacc := (applyUpdate_sameLedger L.pool update).accEqual
    cases update with
    | tierSize value =>
      obtain ⟨evicted, hshrink, hsettled⟩ := hdemote
      obtain ⟨rfl, rfl, -⟩ := Tier.shrink_ok hranked.len_le_max hshrink
      have hlisted := hranked.listed
      rw [← List.take_append_drop value L.topTier.members] at hlisted
      exact ⟨hacc, rfl, hsettled.evolved hlisted⟩
    | _ =>
      obtain ⟨rfl, rfl⟩ := hdemote
      exact ⟨hacc, rfl, .refl⟩

end ByeMachine
