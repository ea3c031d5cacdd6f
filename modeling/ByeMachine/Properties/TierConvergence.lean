import ByeMachine.Base.Best
import ByeMachine.Invariants.Accounted
import ByeMachine.Properties.Succession

/-!
# Promotion converges

Promotion keeps the best of what it has seen, so the order of the candidates
does not matter. Each successful `update_tier` puts a better position in the
tier, so their number is bounded, and a tier no call can change holds the best.
-/

namespace ByeMachine

open Fallible Selection

-- ---------------------------------------------------------------------------
-- Promoting a list
-- ---------------------------------------------------------------------------

namespace Tier

variable {t t' : TopTier} {k n : ℕ} {candidates seen : List TierEntry} {x : TierEntry}
  {P : TierEntry → Prop}

def promoteAll (tierSize : ℕ) (t : TopTier) (candidates : List TierEntry) : Result TopTier :=
  candidates.foldlM (fun t candidate => do
    let (t, _) ← promote t tierSize candidate
    pure t) t

def bestOf (k : ℕ) (candidates : List TierEntry) : List TierEntry :=
  (candidates.mergeSort fun a b => rank b a ≠ .lt).take k

theorem sorted_mergeSort (hids : (candidates.map (·.positionId)).Nodup) :
    Sorted (candidates.mergeSort fun a b => rank b a ≠ .lt) := by
  have hsorted : (candidates.mergeSort fun a b => rank b a ≠ .lt).Pairwise
      fun a b => ¬Outranks b a := by
    refine (List.pairwise_mergeSort ?_ ?_ candidates).imp ?_
    · simp only [ne_eq, rank_lt, decide_eq_true_eq]
      unfold Outranks
      omega
    · simp only [ne_eq, rank_lt, Bool.or_eq_true, decide_eq_true_eq]
      unfold Outranks
      omega
    · simp only [ne_eq, rank_lt, decide_eq_true_eq, imp_self, implies_true]
  have hdistinct : (candidates.mergeSort fun a b => rank b a ≠ .lt).Pairwise
      fun a b => a.positionId ≠ b.positionId :=
    List.pairwise_map.mp (((List.mergeSort_perm _ _).map _).nodup_iff.mpr hids)
  exact hsorted.imp₂ (fun _ _ hab hne => not_outranks hab (Ne.symm hne)) hdistinct

theorem best_bestOf (hids : (candidates.map (·.positionId)).Nodup) (k : ℕ) :
    Best Outranks k candidates.length (· ∈ candidates) (bestOf k candidates) := by
  have hbest := best_take (sorted_mergeSort hids) k
  simp only [List.length_mergeSort, List.mem_mergeSort] at hbest
  exact hbest

theorem promote_best (hlen : t.len ≤ k) (hpos : 0 < k) (hsize : k ≤ MAX_TIER_SIZE)
    (hbest : Best Outranks k seen.length (· ∈ seen) t.members)
    (hids : ∀ e ∈ seen, x.positionId ≠ e.positionId) :
    ∃ t' outcome, promote t k x = .ok (t', outcome) ∧ t'.len ≤ k ∧
      Best Outranks k (x :: seen).length (· ∈ x :: seen) t'.members := by
  have hmembers : t.members.length = t.len := TopTier.length_members (hlen.trans hsize)
  have hmin := hbest.length
  have hfresh : ∀ e ∈ t.members, x.positionId ≠ e.positionId := fun e he =>
    hids e (hbest.candidate e he)
  simp only [List.length_cons, List.mem_cons]
  by_cases hroom : t.len < k
  · obtain ⟨t', hrun, ⟨entries, rfl⟩, hlands⟩ := promote_room x hroom hsize
    exact ⟨_, .inserted, hrun, hroom, hbest.insert (hbest.all Outranks.irrefl (by omega)) (by omega)
      (hlands.sorted hbest.sorted hfresh) (fun _ => hlands.mem) hlands.length⟩
  · obtain ⟨init, lowest, hinit, ⟨hout, hrun⟩ | ⟨hout, t', hrun, ⟨entries, rfl⟩, hlands⟩⟩ :=
      promote_full x hroom (by omega) (hlen.trans hsize)
    · have hlowest : Outranks lowest x := not_outranks hout (hfresh lowest (by simp [hinit]))
      exact ⟨t, .rejected, hrun, hlen,
        hbest.leaveOut (fun _ _ _ => Outranks.trans) hinit (by omega) hlowest⟩
    · have hsorted : Sorted init := (List.pairwise_append.mp (hinit ▸ hbest.sorted)).1
      refine ⟨_, .swapped lowest, hrun, hlen, hbest.swap (fun _ _ _ => Outranks.trans) hinit
        (by omega) hout (hlands.sorted hsorted fun e he => hfresh e (by simp [hinit, he]))
        (fun _ => hlands.mem) ?_⟩
      rw [hlands.length, hinit, List.length_append, List.length_singleton]

theorem promoteAll_best (hlen : t.len ≤ k) (hpos : 0 < k) (hsize : k ≤ MAX_TIER_SIZE)
    (hbest : Best Outranks k seen.length (· ∈ seen) t.members)
    (hids : ((candidates.reverse ++ seen).map (·.positionId)).Nodup) :
    ∃ t', promoteAll k t candidates = .ok t' ∧
      Best Outranks k (candidates.reverse ++ seen).length (· ∈ candidates.reverse ++ seen)
        t'.members := by
  induction candidates generalizing t seen with
  | nil => exact ⟨t, rfl, hbest⟩
  | cons x candidates ih =>
    rw [List.reverse_cons, List.append_assoc, List.singleton_append] at hids ⊢
    have hnew : ∀ e ∈ seen, x.positionId ≠ e.positionId := by
      have hseen := (List.nodup_append.mp (List.map_append ▸ hids)).2.1
      rw [List.map_cons, List.nodup_cons] at hseen
      exact fun e he heq => hseen.1 (List.mem_map.mpr ⟨e, he, heq.symm⟩)
    obtain ⟨t₁, outcome, hrun, hlen₁, hbest₁⟩ := promote_best hlen hpos hsize hbest hnew
    obtain ⟨t', hrest, hbest'⟩ := ih hlen₁ hbest₁ hids
    refine ⟨t', ?_, hbest'⟩
    rw [promoteAll, List.foldlM_cons, hrun]
    exact hrest

/-- In any order the candidates leave the best of them, in sorted order. -/
theorem promoteAll_bestOf {order : List TierEntry} (hempty : t.len = 0) (hpos : 0 < k)
    (hsize : k ≤ MAX_TIER_SIZE) (hids : (candidates.map (·.positionId)).Nodup)
    (horder : order.Perm candidates) :
    ∃ t', promoteAll k t order = .ok t' ∧ t'.members = bestOf k candidates := by
  have hnone : t.members = [] := by rw [TopTier.members, hempty, List.take_zero]
  have hstart : Best Outranks k ([] : List TierEntry).length (· ∈ ([] : List TierEntry))
      t.members := by
    rw [hnone]
    exact ⟨.nil, by simp, by simp, by simp⟩
  have hperm : (order.reverse ++ []).Perm candidates := by
    rw [List.append_nil]
    exact (List.reverse_perm order).trans horder
  obtain ⟨t', hrun, hbest⟩ := promoteAll_best (by omega) hpos hsize hstart
    ((hperm.map _).nodup_iff.mpr hids)
  refine ⟨t', hrun, hbest.unique Outranks.irrefl (fun _ _ _ => Outranks.trans) ?_⟩
  have hbestOf := best_bestOf hids k
  rw [hperm.length_eq]
  simpa only [hperm.mem_iff] using hbestOf

end Tier

-- ---------------------------------------------------------------------------
-- Standing
-- ---------------------------------------------------------------------------

/-- The active positions of its pool that a position outranks, and itself. -/
def height (positions : Positions) (k : Pubkey) (p : Position) : ℕ :=
  1 + Store.total (fun k' q => if q.pool = p.pool ∧ q.state = .active ∧
    Tier.rank (Tier.entryOf k p) (Tier.entryOf k' q) = .lt then 1 else 0) positions

/-- The heights of the members of every tier. -/
def standing (positions : Positions) : ℕ :=
  Store.total (fun k p => if p.inTier then height positions k p else 0) positions

section Standing

variable {positions positions' : Positions} {k k' : Pubkey} {p q p' : Position}

theorem height_lt (hq : positions.lookup k' = some q) (hpool : q.pool = p.pool)
    (hactive : q.state = .active) (hout : Tier.Outranks (Tier.entryOf k p) (Tier.entryOf k' q)) :
    height positions k' q < height positions k p := by
  refine Nat.add_lt_add_left (Store.total_lt hq ?_ fun k₁ q₁ _ => ?_) 1
  · simp only [Tier.rank_lt, Tier.Outranks.irrefl, and_false, if_false, hpool, hactive, hout,
      and_self, if_true]
    exact Nat.zero_lt_one
  · split
    · next h =>
      have habove := hout.trans (Tier.rank_lt.mp h.2.2)
      rw [if_pos ⟨h.1.trans hpool, h.2.1, Tier.rank_lt.mpr habove⟩]
    · exact Nat.zero_le _

theorem SameTerms.evolves (h : SameTerms positions positions') :
    Store.Evolves (fun p q => q.terms = p.terms) positions positions' := by
  intro k q hq
  have hterms := h k
  rw [hq, Option.map_some, eq_comm, Option.map_eq_some_iff] at hterms
  obtain ⟨p, hp, heq⟩ := hterms
  exact ⟨p, hp, heq.symm⟩

theorem SameTerms.total {f : Pubkey → Position → ℕ} (h : SameTerms positions positions')
    (hf : ∀ k p q, q.terms = p.terms → f k q = f k p) :
    Store.total f positions' = Store.total f positions := by
  have hback : SameTerms positions' positions := fun k => (h k).symm
  exact Nat.le_antisymm (h.evolves.total_le fun k p q heq => Nat.le_of_eq (hf k p q heq))
    (hback.evolves.total_le fun k p q heq => Nat.le_of_eq (hf k p q heq))

theorem entryOf_terms (h : q.terms = p.terms) (k : Pubkey) :
    Tier.entryOf k q = Tier.entryOf k p :=
  show Tier.entryOf k q.terms = Tier.entryOf k p.terms from congrArg (Tier.entryOf k) h

theorem pool_terms (h : q.terms = p.terms) : q.pool = p.pool :=
  show q.terms.pool = p.terms.pool from congrArg Position.pool h

theorem state_terms (h : q.terms = p.terms) : q.state = p.state :=
  show q.terms.state = p.terms.state from congrArg Position.state h

theorem SameTerms.height (h : SameTerms positions positions') (heq : q.terms = p.terms) :
    ByeMachine.height positions' k q = ByeMachine.height positions k p := by
  unfold ByeMachine.height
  rw [entryOf_terms heq, pool_terms heq]
  refine congrArg (1 + ·) (h.total fun k₁ p₁ q₁ heq₁ => ?_)
  rw [entryOf_terms heq₁, pool_terms heq₁, state_terms heq₁]

theorem SameTerms.standing (h : SameTerms positions positions') :
    ByeMachine.standing positions' =
      Store.total (fun k p => if p.inTier then ByeMachine.height positions k p else 0)
        positions' := by
  refine Store.total_congr fun k p _ => ?_
  rw [h.height rfl]

/-- The candidate counts from now on, and whoever it displaced counted less. -/
theorem Crossed.standing_lt {pool : Pubkey} {L : Ledger} {c : Chain} {t' : TopTier}
    (hL : c.Reads pool L) (hranked : L.Ranked) (hp : L.positions.lookup k = some p)
    (hout : p.inTier = false)
    (h : Crossed L.pool.tierSize L.topTier (Tier.entryOf k p) c.positions t' positions' true)
    (accTier : ℕ) :
    standing c.positions < standing (positions'.insert k (p.entered accTier)) := by
  obtain ⟨hlookup, hown⟩ := hL.lookup.mp hp
  have hin : (p.entered accTier).inTier = true := rfl
  have hheight : height c.positions k (p.entered accTier) = height c.positions k p :=
    (SameTerms.refl _).height rfl
  cases h with
  | inserted =>
    have hsame : SameTerms c.positions (c.positions.insert k (p.entered accTier)) :=
      .write hlookup rfl
    have hcount := Store.total_replace (b := p.entered accTier)
      (f := fun k p => if p.inTier then height c.positions k p else 0) hlookup
    simp only [hout, hin, Bool.false_eq_true, if_false, if_true, hheight] at hcount
    have hpos : 0 < height c.positions k p := Nat.add_pos_left Nat.zero_lt_one _
    rw [hsame.standing]
    unfold standing
    omega
  | @swapped evicted q _ hpromote hq hsettle =>
    obtain ⟨hmem, houtranks⟩ := Tier.promote_swapped hranked.len_le hranked.tierSize_pos
      hranked.tierSize_le hpromote
    obtain ⟨q₀, hq₀, hqin, hqactive, hentry⟩ := hranked.listed.lookup hmem
    obtain ⟨hq₁, hqown⟩ := hL.lookup.mp hq₀
    obtain rfl := Option.some.inj (hq.symm.trans hq₁)
    obtain ⟨-, -, rfl⟩ := Tier.settleMember_ok.mp hsettle
    have hne : k ≠ evicted.position := by
      rintro rfl
      rw [Option.some.inj (hlookup.symm.trans hq), hqin] at hout
      cases hout
    have hlookup' : (c.positions.insert evicted.position
        (q.leftTier L.topTier.accTier)).lookup k = some p := by
      rw [Finmap.lookup_insert_of_ne _ hne, hlookup]
    have hsame := (SameTerms.write (q := q.leftTier L.topTier.accTier) hq rfl).trans
      (.write (q := p.entered accTier) hlookup' rfl)
    -- The evicted member stops counting, then the candidate starts.
    have hleft := Store.total_replace (b := q.leftTier L.topTier.accTier)
      (f := fun k p => if p.inTier then height c.positions k p else 0) hq
    have hcount := Store.total_replace (b := p.entered accTier)
      (f := fun k p => if p.inTier then height c.positions k p else 0) hlookup'
    have hleftOut : (q.leftTier L.topTier.accTier).inTier = false := rfl
    simp only [hqin, hleftOut, Bool.false_eq_true, if_false, if_true] at hleft
    simp only [hout, hin, Bool.false_eq_true, if_false, if_true, hheight] at hcount
    rw [hentry] at houtranks
    have hlt := height_lt (p := p) hq (hqown.trans hown.symm) hqactive houtranks
    rw [hsame.standing]
    unfold standing
    omega

end Standing

-- ---------------------------------------------------------------------------
-- Runs of promotions
-- ---------------------------------------------------------------------------

/-- `n` successful `update_tier` calls lead from `c` to the chain, on any pools and with whatever
accounts they were passed. -/
inductive TierUpdates (X : Programs) (c : Chain) : ℕ → Chain → Prop where
  | none : TierUpdates X c 0 c
  | update {n : ℕ} {c₁ c₂ : Chain} {clock : Clock} {operator pool k : Pubkey}
      {remaining : List AccountMeta} {events : List Event} (hrun : TierUpdates X c n c₁)
      (h : exec X clock c₁ (.updateTier operator pool k remaining) = .ok (c₂, events)) :
      TierUpdates X c (n + 1) c₂

/-- Some call that would promote `k` was refused because the tier outranks it. -/
def Refused (X : Programs) (c : Chain) (pool k : Pubkey) : Prop :=
  ∃ clock operator remaining, exec X clock c (.updateTier operator pool k remaining)
    = .error (.program .candidateOutranked)

section Runs

variable {X : Programs} {may : Ledger → Settlement → Prop} {c c' : Chain} {L : Ledger} {n : ℕ}
  {clock : Clock} {operator pool k : Pubkey} {p : Position} {remaining : List AccountMeta}
  {events : List Event} {config : ProtocolConfig}

/-- A promotion touches bookkeeping alone, and the standing rises. -/
theorem updateTier_rises (hsound : c.Sound)
    (h : exec X clock c (.updateTier operator pool k remaining) = .ok (c', events)) :
    c'.pools = c.pools ∧ standing c.positions < standing c'.positions := by
  simp only [exec, updateTier, bind_ok, require_ok, pure_ok, Prod.mk.injEq, Prod.exists,
    Tier.isEligibleCandidate, Bool.and_eq_true, decide_eq_true_eq, Bool.not_eq_true'] at h
  obtain ⟨_, -, pool, hpool, topTier, htopTier, p, hposition, -, ⟨-, hout⟩, t', p', crossed,
    hcross, positions', _, hsettle, rfl, -⟩ := h
  obtain ⟨L, hL, rfl, -⟩ := hsound.wellFormed.loadPool hpool
  obtain ⟨hp, hofPool, -⟩ := hsound.wellFormed.loadPositionOf hposition
  obtain rfl := Option.some.inj ((loadTopTier_ok.mp htopTier).symm.trans hL.topTier)
  obtain ⟨hcrossed, rfl⟩ := settleCrossed_ok hcross hsettle
  exact ⟨rfl, Crossed.standing_lt hL (hsound.ranked _ L hL) (hL.lookup.mpr ⟨hp, hofPool⟩) hout
    hcrossed _⟩

theorem TierUpdates.rises (h : TierUpdates X c n c') (hc : SettlingReachable X may c) :
    SettlingReachable X may c' ∧ SameTerms c.positions c'.positions ∧ c'.pools = c.pools ∧
      standing c.positions + n ≤ standing c'.positions := by
  induction h with
  | none => exact ⟨hc, .refl _, rfl, Nat.le_refl _⟩
  | update _ h ih =>
    obtain ⟨hreach, hsame, hpools, hrisen⟩ := ih
    obtain ⟨hpools', hrises⟩ := updateTier_rises hreach.sound h
    exact ⟨hreach.step (.instruction _ _ _ trivial h), hsame.trans (updateTier_fate h),
      hpools'.trans hpools, by omega⟩

/-- No standing is higher than with every position a member that outranks every other. -/
theorem standing_le (positions : Positions) : standing positions ≤
    Store.total (fun _ _ => 1 + Store.total (fun _ _ => 1) positions) positions := by
  refine Store.total_le fun k p _ => ?_
  split
  · refine Nat.add_le_add_left (Store.total_le fun k' q _ => ?_) 1
    split
    · exact Nat.le_refl _
    · exact Nat.zero_le _
  · exact Nat.zero_le _

theorem TierUpdates.bounded (hc : SettlingReachable X may c) :
    ∃ bound, ∀ n c', TierUpdates X c n c' → n ≤ bound := by
  refine ⟨Store.total (fun _ _ => 1 + Store.total (fun _ _ => 1) c.positions) c.positions,
    fun n c' h => ?_⟩
  obtain ⟨-, hsame, -, hrisen⟩ := h.rises hc
  have htop := standing_le c'.positions
  rw [hsame.total fun _ _ _ _ => rfl, hsame.total fun _ _ _ _ => rfl] at htop
  exact (Nat.le_add_left _ _).trans (hrisen.trans htop)

-- ---------------------------------------------------------------------------
-- Where the promotions end
-- ---------------------------------------------------------------------------

theorem updateTier_eligible (hwf : c.WellFormed) (hL : c.Reads pool L) (helig : L.Eligible k p)
    (clock : Clock) (operator : Pubkey) (remaining : List AccountMeta) :
    exec X clock c (.updateTier operator pool k remaining) = (do
      let _ ← loadForOperator c operator
      let (topTier, position, crossed) ← Tier.crossIntoTier L.topTier L.pool.tierSize p
        (Tier.entryOf k p) L.topTier.accTier
      let (positions, left) ← settleCrossed remaining c.positions L.topTier.accTier crossed
      pure ({ c with
        positions := positions.insert k position
        topTiers := c.topTiers.insert (.topTier pool) topTier },
        [.tierChanged pool clock.slot left (some k)])) := by
  obtain ⟨hp, hactive, hout⟩ := helig
  obtain ⟨hlookup, hown⟩ := hL.lookup.mp hp
  have hpool : c.loadPool pool = .ok L.pool :=
    loadPool_ok.mpr ⟨hL.pool, hwf.poolKey pool L.pool hL.pool⟩
  have hposition : c.loadPositionOf pool k = .ok p :=
    loadPositionOf_ok.mpr ⟨hlookup, hown ▸ hwf.positionKey k p hlookup⟩
  have heligible : Tier.isEligibleCandidate p.state p.inTier = true := by
    rw [hactive, hout]
    rfl
  simp only [exec, updateTier, hpool, loadTopTier_ok.mpr hL.topTier, hposition, ok_bind,
    require_pos heligible]

theorem settleCrossed_refused {positions : Positions} {accTier : ℕ} {crossed : Tier.CrossOutcome}
    (h : settleCrossed remaining positions accTier crossed
      = .error (.program .candidateOutranked)) : crossed = .rejected := by
  cases crossed with
  | rejected => rfl
  | inserted => cases h
  | swapped evicted =>
    simp only [settleCrossed, Tier.settleDisplacedMember, loadPosition, bind_error, okOr_error,
      require_error, pure_error, reduceCtorEq, and_false, exists_false, or_false, false_or] at h
    obtain ⟨_, -, _, -, _, -, h⟩ := h
    cases Tier.settleMember_error h

theorem Refused.rejected (h : Refused X c pool k) (hsound : c.Sound) (hL : c.Reads pool L)
    (helig : L.Eligible k p) :
    ∃ t', Tier.promote L.topTier L.pool.tierSize (Tier.entryOf k p) = .ok (t', .rejected) := by
  have hranked := hsound.ranked pool L hL
  obtain ⟨clock, operator, remaining, h⟩ := h
  rw [updateTier_eligible hsound.wellFormed hL helig, bind_error] at h
  obtain h | ⟨_, -, h⟩ := h
  · simp only [loadForOperator, requireSigner, Chain.loadConfig, bind_error, require_error,
      okOr_error, pure_error, reduceCtorEq, Error.program.injEq, and_false, exists_false,
      or_false] at h
  obtain h | ⟨⟨t', p', crossed⟩, hcross, h⟩ := bind_error.mp h
  · obtain ⟨t', outcome, hpromote⟩ := Tier.promote_succeeds (Tier.entryOf k p) hranked.len_le
      hranked.tierSize_pos hranked.tierSize_le
    simp only [Tier.crossIntoTier, hpromote, ok_bind] at h
    cases outcome <;> cases h
  · obtain h | ⟨_, -, h⟩ := bind_error.mp h
    · obtain rfl := settleCrossed_refused h
      exact ⟨t', (crossIntoTier_ok hcross).1⟩
    · cases h

/-- The operator can promote an eligible position, or is told that the tier outranks it. -/
theorem updateTier_offered (hc : SettlingReachable X Accrues c) (hL : c.Reads pool L)
    (hoperator : loadForOperator c operator = .ok config) (helig : L.Eligible k p) (clock : Clock) :
    ∃ remaining, (exec X clock c (.updateTier operator pool k remaining)).isOk ∨
      exec X clock c (.updateTier operator pool k remaining)
        = .error (.program .candidateOutranked) := by
  have hranked := hc.sound.ranked pool L hL
  have haccounted := hc.accounted hL
  obtain ⟨t', outcome, hpromote⟩ := Tier.promote_succeeds (Tier.entryOf k p) hranked.len_le
    hranked.tierSize_pos hranked.tierSize_le
  refine ⟨offered outcome.displaced, ?_⟩
  rw [updateTier_eligible hc.sound.wellFormed hL helig, hoperator, ok_bind]
  cases outcome with
  | inserted =>
    simp only [Tier.crossIntoTier, hpromote, ok_bind]
    exact .inl rfl
  | rejected =>
    simp only [Tier.crossIntoTier, hpromote, ok_bind]
    exact .inr rfl
  | swapped evicted =>
    obtain ⟨hmem, -⟩ := Tier.promote_swapped hranked.len_le hranked.tierSize_pos
      hranked.tierSize_le hpromote
    obtain ⟨q, hq, hqin, hqactive, -⟩ := hranked.listed.lookup hmem
    obtain ⟨hlookup, -⟩ := hL.lookup.mp hq
    -- The owed fees cover the leg of the member that leaves.
    have howed := haccounted.legs_le hq hqactive
    have hwidth := haccounted.width
    rw [Position.legs, Position.tierLeg_in hqin] at howed
    have hsettle : Tier.settleMember q L.topTier.accTier = .ok (q.leftTier L.topTier.accTier) :=
      Tier.settleMember_ok.mpr
        ⟨(haccounted.checked _ q hq).tier hqactive hqin, by omega, rfl⟩
    have hdisplaced : Tier.settleDisplacedMember (offered (some evicted.position)) c.positions
        evicted L.topTier.accTier
        = .ok (c.positions.insert evicted.position (q.leftTier L.topTier.accTier)) := by
      simp only [Tier.settleDisplacedMember, offered_find, okOr_some, ok_bind, loadPosition,
        hlookup, hsettle]
      rfl
    have hcross : Tier.crossIntoTier L.topTier L.pool.tierSize p (Tier.entryOf k p)
        L.topTier.accTier = .ok (t', p.entered L.topTier.accTier, .swapped evicted) := by
      simp only [Tier.crossIntoTier, hpromote, ok_bind]
      rfl
    simp only [hcross, settleCrossed, Tier.PromoteOutcome.displaced, hdisplaced, ok_bind]
    exact .inl rfl

/-- A tier that outranks every eligible position holds the best. -/
theorem topK_of_refused (hsound : c.Sound) (hL : c.Reads pool L)
    (h : ∀ k p, L.Eligible k p → Refused X c pool k) : L.TopK := by
  have hranked := hsound.ranked pool L hL
  have hsynced := hsound.synced pool L hL
  have hlen := hranked.len_le
  have hout : ∀ k p, L.Eligible k p → L.topTier.len = L.pool.tierSize ∧
      ∃ init lowest, L.topTier.members = init ++ [lowest] ∧
        ¬Tier.Outranks (Tier.entryOf k p) lowest := by
    intro k p helig
    obtain ⟨t', hrejected⟩ := (h k p helig).rejected hsound hL helig
    exact Tier.promote_rejected hlen hranked.tierSize_pos hranked.tierSize_le hrejected
  refine hranked.topK_iff.mpr ⟨?_, fun k p k' p' hp hin helig => ?_⟩
  · by_cases hsome : ∃ k p, L.Eligible k p
    · obtain ⟨k, p, helig⟩ := hsome
      have hlt := helig.len_lt hranked hsynced
      have hfull := (hout k p helig).1
      omega
    · have hall := hranked.nReal_le_len hsynced fun k p helig => hsome ⟨k, p, helig⟩
      have hreal := hranked.len_le_nReal hsynced
      omega
  · obtain ⟨-, init, lowest, hmembers, hnot⟩ := hout k' p' helig
    have hmem : lowest ∈ L.topTier.members := by rw [hmembers]; simp
    -- The lowest member is another position, so it does outrank the candidate.
    have hlowest : Tier.Outranks lowest (Tier.entryOf k' p') := by
      refine Tier.not_outranks hnot fun hid => ?_
      obtain ⟨q, hq, hqin, -, hentry⟩ := hranked.listed.lookup hmem
      rw [hentry] at hid
      obtain rfl := hranked.identified.distinct k' _ p' q helig.1 hq hid
      have hout := helig.2.2
      rw [Option.some.inj (helig.1.symm.trans hq), hqin] at hout
      cases hout
    have he := hranked.listed.mem hp hin
    rw [hmembers, List.mem_append, List.mem_singleton] at he
    obtain he | he := he
    · have hsorted := List.pairwise_append.mp (hmembers ▸ hranked.listed.sorted)
      exact (hsorted.2.2 _ he lowest (by simp)).trans hlowest
    · rwa [he]

def Ledger.ActiveEntry (L : Ledger) (e : TierEntry) : Prop :=
  ∃ k p, L.positions.lookup k = some p ∧ p.state = .active ∧ e = Tier.entryOf k p

theorem Ledger.TopK.best_active (h : L.TopK) :
    Best Tier.Outranks L.pool.tierSize L.pool.nReal L.ActiveEntry L.topTier.members where
  sorted := h.sorted
  candidate := fun e he => ⟨_, h.members e he⟩
  length := h.length
  above := by
    rintro e he _ ⟨k, p, hp, hactive, rfl⟩ hout
    exact h.best e he k p hp hactive hout

theorem SameTerms.activeEntry {L' : Ledger} {e : TierEntry}
    (hsame : SameTerms c.positions c'.positions) (hL : c.Reads pool L) (hL' : c'.Reads pool L')
    (h : L'.ActiveEntry e) : L.ActiveEntry e := by
  obtain ⟨k, q, hq, hactive, rfl⟩ := h
  obtain ⟨hlookup, hown⟩ := hL'.lookup.mp hq
  obtain ⟨p, hp, hterms⟩ := hsame.evolves k q hlookup
  exact ⟨k, p, hL.lookup.mpr ⟨hp, (pool_terms hterms).symm.trans hown⟩,
    (state_terms hterms).symm.trans hactive, entryOf_terms hterms k⟩

theorem Ledger.TopK.unique {L' : Ledger} (h : L.TopK) (h' : L'.TopK) (hL : c.Reads pool L)
    (hL' : c'.Reads pool L') (hsame : SameTerms c.positions c'.positions)
    (hpools : c'.pools = c.pools) : L'.topTier.members = L.topTier.members := by
  have hpool : L'.pool = L.pool := by
    have hread := hL'.pool
    rw [hpools, hL.pool] at hread
    exact (Option.some.inj hread).symm
  have hback : SameTerms c'.positions c.positions := fun k => (hsame k).symm
  have hentries : L'.ActiveEntry = L.ActiveEntry :=
    funext fun e => propext ⟨hsame.activeEntry hL hL', hback.activeEntry hL' hL⟩
  have hbest' := h'.best_active
  rw [hpool, hentries] at hbest'
  exact hbest'.unique Tier.Outranks.irrefl (fun _ _ _ => Tier.Outranks.trans) h.best_active

/-- In any order promotions leave the best `k`. Runs of `update_tier` are bounded, an eligible
position can be tried until the tier outranks it, and where the tier outranks them all it holds
the best: the same members however the run went. -/
theorem promotion_converges :
    (∀ (t : TopTier) (k : ℕ) (candidates order : List TierEntry), t.len = 0 → 0 < k →
      k ≤ MAX_TIER_SIZE → (candidates.map (·.positionId)).Nodup → order.Perm candidates →
      ∃ t', Tier.promoteAll k t order = .ok t' ∧ t'.members = Tier.bestOf k candidates) ∧
    ∀ X c, SettlingReachable X Accrues c →
      (∃ bound, ∀ n c', TierUpdates X c n c' → n ≤ bound) ∧
      ∀ n c' pool L', TierUpdates X c n c' → c'.ledger pool = some L' →
        (∀ operator config clock k p, loadForOperator c' operator = .ok config →
          L'.Eligible k p → ∃ remaining,
            (exec X clock c' (.updateTier operator pool k remaining)).isOk ∨
            exec X clock c' (.updateTier operator pool k remaining)
              = .error (.program .candidateOutranked)) ∧
        ((∀ k p, L'.Eligible k p → Refused X c' pool k) →
          L'.TopK ∧
          ∀ m d M, TierUpdates X c m d → d.ledger pool = some M →
            (∀ k p, M.Eligible k p → Refused X d pool k) →
            M.topTier.members = L'.topTier.members) := by
  refine ⟨fun t k candidates order hempty hpos hsize hids horder =>
    Tier.promoteAll_bestOf hempty hpos hsize hids horder, fun X c hc => ⟨TierUpdates.bounded hc, ?_⟩⟩
  intro n c' pool L' hrun hL'
  obtain ⟨hreach, hsame, hpools, -⟩ := hrun.rises hc
  have hreads := ledger_eq_some.mp hL'
  refine ⟨fun operator config clock k p hoperator helig =>
    updateTier_offered hreach hreads hoperator helig clock, fun hrefused => ?_⟩
  have hbest := topK_of_refused hreach.sound hreads hrefused
  refine ⟨hbest, fun m d M hrun' hM hrefused' => ?_⟩
  obtain ⟨hreach', hsame', hpools', -⟩ := hrun'.rises hc
  have hreads' := ledger_eq_some.mp hM
  have hback : SameTerms c'.positions c.positions := fun k => (hsame k).symm
  exact hbest.unique (topK_of_refused hreach'.sound hreads' hrefused') hreads hreads'
    (hback.trans hsame') (hpools'.trans hpools.symm)

end Runs

-- ---------------------------------------------------------------------------
-- A member overtaken
-- ---------------------------------------------------------------------------

/-- A sweep lowers the member of `rivalBank` below card 31. -/
def loweredBank : Chain :=
  rivalBank.after bank [(⟨3, 3⟩, .beginSweep (.key 2) (.pool 0)),
    (⟨4, 4⟩, .recordValue (.key 2) (.pool 0) (bankPosition 30) [] 11000000 4)]

def overtakenBank : Chain :=
  loweredBank.after bank [(⟨5, 5⟩, .updateTier (.key 2) (.pool 0) (bankPosition 31)
    (offered (some (bankPosition 30))))]

theorem loweredBank_reachable : Reachable bank loweredBank := by
  have hrival : Reachable bank rivalBank :=
    bank_reachable (by decide +kernel) (fun _ _ _ => trivial) (by decide +kernel)
  exact hrival.after (fun _ _ _ => trivial) (by decide +kernel)

theorem overtakenBank_updates : TierUpdates bank loweredBank 1 overtakenBank := by
  obtain ⟨events, hrun⟩ := exec_after (X := bank) (c := loweredBank)
    (s := (⟨5, 5⟩, .updateTier (.key 2) (.pool 0) (bankPosition 31)
      (offered (some (bankPosition 30))))) (by decide +kernel)
  exact .update .none hrun

theorem overtakenBank_ledger : ∃ L, overtakenBank.ledger (.pool 0) = some L ∧
    L.topTier.members = [⟨bankPosition 31, 12000000, 2, 1⟩] ∧
    ∀ k p, L.Eligible k p → k = bankPosition 30 := by
  have hstands : (overtakenBank.ledger (.pool 0)).map (fun L => (L.topTier.members,
      (L.positions.lookup (bankPosition 31)).map (·.inTier), L.positions.keys))
      = some ([⟨bankPosition 31, 12000000, 2, 1⟩], some true,
        {bankPosition 30, bankPosition 31}) := by decide +kernel
  obtain ⟨L, hL, heq⟩ := Option.map_eq_some_iff.mp hstands
  simp only [Prod.mk.injEq] at heq
  obtain ⟨hmembers, hin, hkeys⟩ := heq
  refine ⟨L, hL, hmembers, ?_⟩
  rintro k p ⟨hp, -, hout⟩
  have hmem : k ∈ L.positions.keys := by
    rw [Finmap.mem_keys, ← Finmap.lookup_isSome, hp]
    rfl
  rw [hkeys, Finset.mem_insert, Finset.mem_singleton] at hmem
  obtain rfl | rfl := hmem
  · rfl
  · rw [hp, Option.map_some, hout] at hin
    cases hin

/-- After one promotion card 30 is turned away, and card 31 holds the tier of one. Two of three
entries with a tie in value are kept, whichever comes first. -/
theorem promotion_converges_bank :
    (∃ t', Tier.promoteAll 2 (genesisTier (.pool 0) 0)
        [⟨.key 3, 5, 0, 2⟩, ⟨.key 2, 9, 0, 1⟩, ⟨.key 1, 5, 0, 0⟩] = .ok t' ∧
      t'.members = Tier.bestOf 2 [⟨.key 1, 5, 0, 0⟩, ⟨.key 2, 9, 0, 1⟩, ⟨.key 3, 5, 0, 2⟩]) ∧
    ∃ L, overtakenBank.ledger (.pool 0) = some L ∧
      L.topTier.members = [⟨bankPosition 31, 12000000, 2, 1⟩] ∧ L.TopK := by
  obtain ⟨horders, hruns⟩ := promotion_converges
  refine ⟨horders _ 2 _ _ rfl (by decide) (by decide) (by decide) (by decide), ?_⟩
  obtain ⟨L, hL, hmembers, honly⟩ := overtakenBank_ledger
  obtain ⟨-, hends⟩ := hruns bank loweredBank (Reachable.settling loweredBank_reachable)
  obtain ⟨-, hbest⟩ := hends 1 overtakenBank (.pool 0) L overtakenBank_updates hL
  refine ⟨L, hL, hmembers, (hbest fun k p helig => ?_).1⟩
  rw [honly k p helig]
  exact ⟨⟨6, 6⟩, .key 2, [], errorOf_eq_some.mp (by decide +kernel)⟩

end ByeMachine
