import ByeMachine.Invariants.Runs
import ByeMachine.Script

/-!
# The tier gate of an open batch

A batch opens against a tier as full as the pool can fill it, and nothing but a
raise of `tier_size` lets the tier fall short of that again while it is open.
-/

namespace ByeMachine

open Fallible

/-- While a batch is open the tier holds every card it must. -/
def Ledger.Gated (L : Ledger) : Prop :=
  0 < L.pool.openBatches → L.topTier.len = requiredTierLen L.pool.tierSize L.pool.nReal

/-- A raise of `tier_size` over an open batch, with real cards left to fill the new places. -/
def RaisesTier (pool : Pool) : ConfigUpdate → Prop
  | .tierSize value => 0 < pool.openBatches ∧ pool.tierSize < value ∧ pool.tierSize < pool.nReal
  | _ => False

def KeepsGate (c : Chain) : Instr → Prop
  | .updateConfig _ key _ update =>
    ∀ pool, c.pools.lookup key = some pool → ¬RaisesTier pool update
  | _ => True

variable {X : Programs} {c : Chain} {key : Pubkey} {L L' : Ledger}

/-- The narrowing of the required length never wraps at an accepted tier size. -/
theorem requiredTierLen_eq {tierSize nReal : ℕ} (h : tierSize ≤ MAX_TIER_SIZE) :
    requiredTierLen tierSize nReal = min tierSize nReal := by
  unfold MAX_TIER_SIZE at h
  exact Nat.mod_eq_of_lt (by omega)

theorem Ledger.Ranked.len_lt_nReal (h : L.Ranked) (hsynced : L.Synced) {k : Pubkey} {p : Position}
    (hp : L.positions.lookup k = some p) (hactive : p.state = .active) (hout : p.inTier = false) :
    L.topTier.len < L.pool.nReal := by
  have hfresh : k ∉ L.topTier.members.map (·.position) := by
    intro hk
    obtain ⟨e, he, rfl⟩ := List.mem_map.mp hk
    obtain ⟨q, hq, hin, -⟩ := h.listed.lookup he
    obtain rfl := Option.some.inj (hp.symm.trans hq)
    rw [hout] at hin
    cases hin
  have hcount : (k :: L.topTier.members.map (·.position)).length
      ≤ sumActive (fun _ => 1) L.positions := by
    refine Store.length_le_total (List.nodup_cons.mpr ⟨hfresh, h.listed.nodup_positions⟩)
      fun x hx => ?_
    obtain rfl | hx := List.mem_cons.mp hx
    · exact ⟨p, hp, by rw [Position.share_active hactive]⟩
    · obtain ⟨e, he, rfl⟩ := List.mem_map.mp hx
      obtain ⟨q, hq, -, hq', -⟩ := h.listed.lookup he
      exact ⟨q, hq, by rw [Position.share_active hq']⟩
  rw [List.length_cons, List.length_map, h.length_members] at hcount
  rw [hsynced.nReal]
  exact hcount

theorem Ledger.Founded.gated (h : L.Founded) : L.Gated := by
  obtain ⟨key, poolId, weightIndex, args, bump, tierBump, -, rfl⟩ := h
  exact fun hopen => absurd hopen (lt_irrefl 0)

theorem Move.gated (h : Move L L') (hranked : L.Ranked) (hsynced : L.Synced) (hgated : L.Gated) :
    L'.Gated := by
  intro hopen
  cases h with
  | activate _ _ hzero | leave _ _ hzero => exact absurd hzero hopen.ne'
  | revalue _ _ hzero => exact absurd hzero hopen.ne'
  | depart _ _ hfrom | withdraw _ _ hfrom => exact absurd hfrom.opened hopen.ne'
  | @join k p topTier hp hstate htier hpromote =>
    -- A full tier leaves no room, and a tier with every real card no candidate.
    obtain ⟨hroom, -⟩ := Tier.promote_ok hranked.len_le hranked.tierSize_pos hranked.tierSize_le
      hpromote
    have hlt := hranked.len_lt_nReal hsynced hp hstate htier
    have hlen := hgated hopen
    rw [requiredTierLen_eq hranked.tierSize_le] at hlen
    omega
  | swap _ _ _ hpromote =>
    obtain ⟨-, hlen, -⟩ := Tier.promote_ok hranked.len_le hranked.tierSize_pos hranked.tierSize_le
      hpromote
    exact hlen.trans (hgated hopen)
  | retire | release | tick | credit => exact hgated hopen
  | commit _ htier => exact htier

theorem Moves.gated (h : Moves L L') (hranked : L.Ranked) (hsynced : L.Synced)
    (hgated : L.Gated) : L'.Gated := by
  induction h with
  | refl => exact hgated
  | tail hmoves hmove ih =>
    exact hmove.gated (Moves.ranked hmoves hranked) (Moves.synced hmoves hranked hsynced) ih

theorem Intake.gated (h : Intake L L') (hgated : L.Gated) : L'.Gated := by
  cases h
  exact hgated

/-- A lower `tier_size` takes the excess out of the tier; a higher one needs the real set to be
in it already. -/
theorem Configure.gated {update : ConfigUpdate} (h : Configure update L L')
    (hkeeps : ¬RaisesTier L.pool update) (hranked : L.Ranked) (hgated : L.Gated) : L'.Gated := by
  intro hopen
  cases h with
  | @intro topTier positions hvalid hfreeze hdemote =>
    have hsame := applyUpdate_sameLedger L.pool update
    have hopen₀ : 0 < L.pool.openBatches := by
      rw [← hsame.openBatches]
      exact hopen
    have hlen := hgated hopen₀
    cases update with
    | tierSize value =>
      obtain ⟨evicted, hshrink, -⟩ := hdemote
      have hsize : value ≤ MAX_TIER_SIZE := (validate_ok hvalid).2.2.2
      obtain ⟨-, rfl, -⟩ := Tier.shrink_ok hranked.len_le_max hshrink
      show min L.topTier.len value = requiredTierLen value L.pool.nReal
      rw [requiredTierLen_eq hranked.tierSize_le] at hlen
      rw [requiredTierLen_eq hsize, hlen]
      have hbound : value ≤ L.pool.tierSize ∨ L.pool.nReal ≤ L.pool.tierSize := by
        by_contra hraise
        obtain ⟨hvalue, hreal⟩ := not_or.mp hraise
        exact hkeeps ⟨hopen₀, not_le.mp hvalue, not_le.mp hreal⟩
      omega
    | _ =>
      obtain ⟨rfl, rfl⟩ := hdemote
      exact hlen

theorem Change.gated {update : Option ConfigUpdate} (h : Change update L L')
    (hkeeps : ∀ u, update = some u → ¬RaisesTier L.pool u) (hranked : L.Ranked)
    (hsynced : L.Synced) (hgated : L.Gated) : L'.Gated := by
  cases h with
  | moves hmoves => exact Moves.gated hmoves hranked hsynced hgated
  | intake hintake hmoves =>
    exact Moves.gated hmoves (hintake.ranked hranked) (hintake.synced hsynced)
      (hintake.gated hgated)
  | configure hupdate hconfig => exact hconfig.gated (hkeeps _ hupdate) hranked hgated

/-- In every run that never raises the tier over an open batch, the gate a batch was opened under
holds for as long as it is open. -/
theorem reachable_gated (h : ReachableWhere X KeepsGate c) {pool : Pool}
    (hpool : c.pools.lookup key = some pool) :
    ∃ L, c.ledger key = some L ∧ L.pool = pool ∧ (0 < pool.openBatches →
      L.topTier.len = requiredTierLen pool.tierSize pool.nReal ∧
        L.topTier.len = min pool.tierSize pool.nReal) := by
  obtain ⟨L, hL, hreads, rfl⟩ := h.sound.ledger hpool
  refine ⟨L, hL, rfl, fun hopen => ?_⟩
  have hgated : L.Gated := by
    refine h.ledger (P := Ledger.Gated) (fun L hfounded => hfounded.gated) ?_ hreads
    intro c key L L' update hL hranked hsynced hchange hallowed hgated
    refine hchange.gated (fun u hu => ?_) hranked hsynced hgated
    obtain ⟨administrator, remaining, hkeeps⟩ := hallowed u hu
    exact hkeeps L.pool hL.pool
  rw [← requiredTierLen_eq (h.sound.ranked key L hreads).tierSize_le]
  exact ⟨hgated hopen, hgated hopen⟩

theorem reachable_gated_bank :
    ∃ L, (bankRun [admitCards, depositCard 30, approveCard 30 12000000 100, commitBatch 1,
      configure (.maxN 5)]).ledger (.pool 0) = some L ∧ 0 < L.pool.openBatches ∧
        L.topTier.len = requiredTierLen L.pool.tierSize L.pool.nReal := by
  have hopen : ((bankRun [admitCards, depositCard 30, approveCard 30 12000000 100, commitBatch 1,
    configure (.maxN 5)]).pools.lookup (.pool 0)).map (·.openBatches) = some 1 := by
    decide +kernel
  obtain ⟨pool, hpool, hone⟩ := Option.map_eq_some_iff.mp hopen
  have hreachable : ReachableWhere bank KeepsGate (bankRun [admitCards, depositCard 30,
      approveCard 30 12000000 100, commitBatch 1, configure (.maxN 5)]) := by
    refine bank_reachable defaultArgs_valid (fun s hs c => ?_) (by decide +kernel)
    simp only [founding, List.cons_append, List.nil_append, List.mem_cons, List.not_mem_nil,
      or_false] at hs
    obtain rfl | rfl | rfl | rfl | rfl | rfl | rfl := hs
    case inr.inr.inr.inr.inr.inr => exact fun pool _ hraises => hraises
    all_goals trivial
  have hpos : 0 < pool.openBatches := hone ▸ Nat.one_pos
  obtain ⟨L, hL, rfl, hgated⟩ := reachable_gated hreachable hpool
  exact ⟨L, hL, hpos, (hgated hpos).1⟩

def soloArgs : PoolConfigArgs := { defaultArgs .default with tierSize := 1 }

/-- Two cards over one place, a batch against the full tier, and a second place: the tier is now
one short of what the batch was committed against. -/
theorem gate_broken_by_raise :
    ∃ L, Reachable bank ((bankPool soloArgs).after bank [admitCards, depositCard 30,
        approveCard 30 20000000 100, depositCard 31, approveCard 31 12000000 100, commitBatch 1,
        configure (.tierSize 2)]) ∧
      ((bankPool soloArgs).after bank [admitCards, depositCard 30, approveCard 30 20000000 100,
        depositCard 31, approveCard 31 12000000 100, commitBatch 1,
        configure (.tierSize 2)]).ledger (.pool 0) = some L ∧
      L.pool.openBatches = 1 ∧ L.topTier.len = 1 ∧
      requiredTierLen L.pool.tierSize L.pool.nReal = 2 := by
  have hbroken : (((bankPool soloArgs).after bank [admitCards, depositCard 30,
      approveCard 30 20000000 100, depositCard 31, approveCard 31 12000000 100, commitBatch 1,
      configure (.tierSize 2)]).ledger (.pool 0)).map (fun L => (L.pool.openBatches, L.topTier.len,
        requiredTierLen L.pool.tierSize L.pool.nReal)) = some (1, 1, 2) := by decide +kernel
  obtain ⟨L, hL, heq⟩ := Option.map_eq_some_iff.mp hbroken
  simp only [Prod.mk.injEq] at heq
  exact ⟨L, bank_reachable (by decide +kernel) (fun _ _ _ => trivial) (by decide +kernel), hL,
    heq.1, heq.2.1, heq.2.2⟩

end ByeMachine
