import ByeMachine.Invariants.Runs
import ByeMachine.Script

/-!
# The top tier is well formed

In every reachable state the ranked array and the positions' flags say the same
thing, and the operations that rely on it cannot fail for want of it.
-/

namespace ByeMachine

open Fallible

/-- What the array says, and how it agrees with the positions. -/
structure Ledger.TierFormed (L : Ledger) : Prop where
  ranked : L.topTier.members.Pairwise fun a b => Tier.rank a b = .lt
  distinct : (L.topTier.members.map (·.position)).Nodup
  tierSize : L.topTier.len ≤ L.pool.tierSize ∧ L.pool.tierSize ≤ 20
  nReal : L.topTier.len ≤ L.pool.nReal
  members : ∀ k, k ∈ L.topTier.members.map (·.position) ↔
    ∃ p, L.positions.lookup k = some p ∧ p.inTier = true
  active : ∀ k p, L.positions.lookup k = some p → p.inTier = true → p.state = .active
  entry : ∀ e ∈ L.topTier.members, ∃ p, L.positions.lookup e.position = some p ∧
    e.value = p.recordedValue ∧ e.activatedAt = p.activatedAt ∧ e.positionId = p.positionId

/-- What the operations on it can rely on. -/
structure Ledger.TierSafe (L : Ledger) : Prop where
  promote : ∀ candidate, NoPanic (Tier.promote L.topTier L.pool.tierSize candidate)
  demote : ∀ position, NoPanic (Tier.demote L.topTier position)
  shrink : ∀ newTierSize, NoPanic (Tier.shrink L.topTier newTierSize)
  refresh : ∀ k p entry, L.positions.lookup k = some p → p.inTier = true →
    ∃ t', Tier.refreshMember L.topTier L.pool.tierSize k entry = .ok t'
  vacate : ∀ k p p' accTier, L.positions.lookup k = some p → p.inTier = true →
    Tier.vacate L.topTier k p' accTier ≠ .error (.program .invalidPositionState)

variable {L : Ledger}

theorem Ledger.Ranked.len_le_nReal (h : L.Ranked) (hsynced : L.Synced) :
    L.topTier.len ≤ L.pool.nReal := by
  have hcount : (L.topTier.members.map (·.position)).length ≤ sumActive (fun _ => 1) L.positions := by
    refine Store.length_le_total h.listed.nodup_positions fun k hk => ?_
    obtain ⟨e, he, rfl⟩ := List.mem_map.mp hk
    obtain ⟨p, hp, -, hactive, -⟩ := h.listed.lookup he
    exact ⟨p, hp, by rw [Position.share_active hactive]⟩
  rw [List.length_map, h.length_members] at hcount
  rw [hsynced.nReal]
  exact hcount

theorem Ledger.Ranked.tierFormed (h : L.Ranked) (hsynced : L.Synced) : L.TierFormed where
  ranked := h.listed.sorted.imp Tier.rank_lt.mpr
  distinct := h.listed.nodup_positions
  tierSize := ⟨h.len_le, h.tierSize_le⟩
  nReal := h.len_le_nReal hsynced
  members := by
    intro k
    constructor
    · intro hk
      obtain ⟨e, he, rfl⟩ := List.mem_map.mp hk
      obtain ⟨p, hp, hin, -⟩ := h.listed.lookup he
      exact ⟨p, hp, hin⟩
    · rintro ⟨p, hp, hin⟩
      exact List.mem_map.mpr ⟨_, h.listed.mem hp hin, rfl⟩
  active := h.listed.active
  entry := by
    intro e he
    obtain ⟨p, hp, -, -, hentry⟩ := h.listed.lookup he
    exact ⟨p, hp, congrArg TierEntry.value hentry, congrArg TierEntry.activatedAt hentry,
      congrArg TierEntry.positionId hentry⟩

theorem Tier.settleMember_error {p : Position} {accTier : ℕ} {e : Error}
    (h : Tier.settleMember p accTier = .error e) : e = .program .arithmeticFailure := by
  simp only [Tier.settleMember, positionFeePayout, orArithmeticFailure, bind_error, okOr_error,
    pure_error, and_false, exists_false, or_false] at h
  obtain ⟨-, h⟩ | ⟨_, -, ⟨-, h⟩ | ⟨_, -, ⟨-, h⟩ | ⟨_, -, -, h⟩⟩⟩ := h <;> exact h.symm

theorem Ledger.Ranked.tierSafe (h : L.Ranked) : L.TierSafe where
  promote := by
    intro candidate
    obtain ⟨_, _, hrun⟩ := Tier.promote_succeeds candidate h.len_le h.tierSize_pos h.tierSize_le
    rw [hrun]
    exact noPanic_ok _
  demote := by
    intro position
    obtain ⟨hrun, -⟩ | ⟨_, _, _, _, -, -, -, hrun, -⟩ :=
      Tier.demote_spec position h.len_le_max <;>
    · rw [hrun]
      exact noPanic_ok _
  shrink := by
    intro newTierSize
    obtain ⟨t', hrun, -⟩ := Tier.shrink_spec newTierSize h.len_le_max
    rw [hrun]
    exact noPanic_ok _
  refresh := by
    intro k p entry hp hin
    obtain ⟨t, hdemote⟩ := h.listed.demote_succeeds h.len_le_max hp hin
    obtain ⟨-, -, hpos, hlen, -⟩ := Tier.demote_ok h.len_le_max hdemote
    have hlen' := h.len_le
    obtain ⟨t', hpromote, -⟩ := Tier.promote_room entry
      (show t.len < L.pool.tierSize by omega) h.tierSize_le
    exact ⟨t', by simp [Tier.refreshMember, hdemote, hpromote, require, pure, Except.pure]⟩
  vacate := by
    intro k p p' accTier hp hin hrun
    obtain ⟨t, hdemote⟩ := h.listed.demote_succeeds h.len_le_max hp hin
    simp only [Tier.vacate, hdemote, ok_bind, okOr_some, bind_error, pure_error, and_false,
      exists_false, or_false] at hrun
    cases Tier.settleMember_error hrun

/-- In every reachable state every pool's tier is well formed, and safe to operate on. -/
theorem reachable_tierFormed {X : Programs} {c : Chain} (h : Reachable X c) {key : Pubkey}
    {pool : Pool} (hpool : c.pools.lookup key = some pool) :
    ∃ L, c.ledger key = some L ∧ L.pool = pool ∧ L.TierFormed ∧ L.TierSafe := by
  obtain ⟨L, hL, hreads, heq⟩ := h.sound.ledger hpool
  have hranked := h.sound.ranked key L hreads
  exact ⟨L, hL, heq, hranked.tierFormed (h.sound.synced key L hreads), hranked.tierSafe⟩

/-- A pool with two members. -/
theorem reachable_tierFormed_bank :
    ∃ L, (bankRun [admitCards, depositCard 30, approveCard 30 12000000 100, depositCard 31,
      approveCard 31 20000000 100]).ledger (.pool 0) = some L ∧ L.pool.nReal = 2 ∧
        L.TierFormed ∧ L.TierSafe := by
  have hn : ((bankRun [admitCards, depositCard 30, approveCard 30 12000000 100, depositCard 31,
    approveCard 31 20000000 100]).pools.lookup (.pool 0)).map (·.nReal) = some 2 := by
    decide +kernel
  obtain ⟨pool, hpool, hreal⟩ := Option.map_eq_some_iff.mp hn
  obtain ⟨L, hL, rfl, hformed, hsafe⟩ :=
    reachable_tierFormed (bankRun_reachable (by decide +kernel)) hpool
  exact ⟨L, hL, hreal, hformed, hsafe⟩

end ByeMachine
