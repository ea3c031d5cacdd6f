import ByeMachine.Properties.Displacement
import ByeMachine.Properties.TopTier

/-!
# Who succeeds a departing member

The operator asks the resolver who fills the vacancy of a departing member and
passes that account along. The program does not rank the non-members: it lands
the account it is given, and a tier of the best stays one.
-/

namespace ByeMachine

open Fallible TierResolve

variable {X : Programs} {w : Encoding} {rpc : Rpc} {accounts : Pubkey → Option Bytes}
  {c c' : Chain} {L L' : Ledger} {now : ℤ} {k pool : Pubkey} {p : Position} {clock : Clock}
  {events : List Event} {instr : Instr} {remaining : List AccountMeta} {answer : Option Pubkey}

/-- The tier is exactly the best `min(tierSize, nReal)` active positions by rank, best first. -/
structure Ledger.TopK (L : Ledger) : Prop where
  sorted : Tier.Sorted L.topTier.members
  members : ∀ e ∈ L.topTier.members,
    ∃ p, L.positions.lookup e.position = some p ∧ p.state = .active ∧ e = Tier.entryOf e.position p
  length : L.topTier.members.length = min L.pool.tierSize L.pool.nReal
  best : ∀ e ∈ L.topTier.members, ∀ k p, L.positions.lookup k = some p → p.state = .active →
    Tier.entryOf k p ∉ L.topTier.members → Tier.Outranks e (Tier.entryOf k p)

def Ledger.Eligible (L : Ledger) (k : Pubkey) (p : Position) : Prop :=
  L.positions.lookup k = some p ∧ p.state = .active ∧ p.inTier = false

def Ledger.BestEligible (L : Ledger) (kc : Pubkey) : Prop :=
  ∃ p, L.Eligible kc p ∧ ∀ k q, L.Eligible k q → k ≠ kc →
    Tier.Outranks (Tier.entryOf kc p) (Tier.entryOf k q)

/-- Whom the vacancy of the position at `k` is owed to. -/
inductive Owed (L : Ledger) (k : Pubkey) : Option Pubkey → Prop where
  | stranger (hout : k ∉ L.topTier.members.map (·.position)) : Owed L k none
  | nobody (hin : k ∈ L.topTier.members.map (·.position)) (hnone : ∀ k p, ¬L.Eligible k p) :
      Owed L k none
  | successor {kc : Pubkey} (hin : k ∈ L.topTier.members.map (·.position))
      (hbest : L.BestEligible kc) :
      Owed L k (some kc)

-- ---------------------------------------------------------------------------
-- What the resolver answers
-- ---------------------------------------------------------------------------

theorem exists_left {α β : Type} {R : α → β → Prop} {as : List α} {bs : List β}
    (h : List.Forall₂ R as bs) {b : β} (hb : b ∈ bs) : ∃ a ∈ as, R a b := by
  induction h with
  | nil => cases hb
  | cons hab _ ih =>
    rcases List.mem_cons.mp hb with rfl | hb
    · exact ⟨_, List.mem_cons_self, hab⟩
    · obtain ⟨a, ha, hR⟩ := ih hb
      exact ⟨a, List.mem_cons_of_mem _ ha, hR⟩

theorem exists_right {α β : Type} {R : α → β → Prop} {as : List α} {bs : List β}
    (h : List.Forall₂ R as bs) {a : α} (ha : a ∈ as) : ∃ b ∈ bs, R a b :=
  exists_left h.flip ha

theorem findHighestRanked_ok (h : ClockReachable X c now) (himages : Images w c accounts)
    (hserves : Serves accounts rpc)
    (hfaithful : ∀ k p, c.positions.lookup k = some p → w.Faithful k ∧ w.Faithful p.pool)
    (hpool : w.Faithful pool) (hL : c.Reads pool L) :
    ∃ found, findHighestRankedEligibleNonMember w rpc pool = .ok found ∧
      ((found = none ∧ ∀ k p, ¬L.Eligible k p) ∨
        ∃ e, found = some (entryData e) ∧ L.BestEligible e.position) := by
  obtain ⟨hits, hscan, hmem⟩ :=
    scan_eligible himages hserves (fun k p hp => (hfaithful k p hp).2) hpool
  -- Each hit is read as the entry of the position it holds.
  have heach : ∀ hit ∈ hits, ∃ e, (∃ p, L.Eligible hit.1 p ∧ e = Tier.entryOf hit.1 p) ∧
      readEligiblePosition hit.1 hit.2 = .ok (entryData e) := by
    rintro ⟨k, data⟩ hhit
    obtain ⟨p, hp, rfl, hown, hactive, hout⟩ := (hmem k data).mp hhit
    refine ⟨_, ⟨p, ⟨hL.lookup.mpr ⟨hp, hown⟩, hactive, hout⟩, rfl⟩, ?_⟩
    have hfits := h.fits hp hactive (hfaithful k p hp).1
    exact readEligiblePosition_ok hfits.positionId hfits.value hfits.activatedAt
  obtain ⟨es, hread, hall⟩ := mapM_read heach
  have hentry : ∀ k p, L.Eligible k p → Tier.entryOf k p ∈ es := by
    rintro k p ⟨hp, hactive, hout⟩
    obtain ⟨hlookup, hown⟩ := hL.lookup.mp hp
    obtain ⟨e, he, q, ⟨hq, -⟩, rfl⟩ :=
      exists_right hall ((hmem k _).mpr ⟨p, hlookup, rfl, hown, hactive, hout⟩)
    rwa [← Option.some.inj (hq.symm.trans hp)] at *
  have hrun : findHighestRankedEligibleNonMember w rpc pool
      = .ok (highestRanked (es.map entryData)) := by
    simp only [findHighestRankedEligibleNonMember, hscan, hread, ok_bind]
    rfl
  refine ⟨_, hrun, ?_⟩
  cases es with
  | nil => exact .inl ⟨rfl, fun k p helig => by cases hentry k p helig⟩
  | cons e es =>
    obtain ⟨best, hbest, hfold, hleast⟩ := foldl_better e es
    obtain ⟨hit, -, p, helig, rfl⟩ := exists_left hall hbest
    refine .inr ⟨_, congrArg some hfold, p, helig, fun k q hq hne => ?_⟩
    -- No two positions tie.
    refine Tier.not_outranks (hleast _ (hentry k q hq)) fun hid => hne ?_
    exact (h.sound.ranked pool L hL).identified.distinct k _ q p hq.1 helig.1 hid

theorem resolveSuccessor_owed (h : ClockReachable X c now) (himages : Images w c accounts)
    (hserves : Serves accounts rpc)
    (hfaithful : ∀ k p, c.positions.lookup k = some p → w.Faithful k ∧ w.Faithful p.pool)
    (hpool : w.Faithful pool) (hL : c.Reads pool L) (k : Pubkey) :
    ∃ answer, resolveSuccessor w rpc pool k = .ok answer ∧ Owed L k answer := by
  have hranked := h.sound.ranked pool L hL
  have hread := readTopTier_ok (hserves.fetched (himages.topTier _ _ hL.topTier)) hranked.len_le_max
    (h.members_fit hL fun k p hp => (hfaithful k p hp).1)
  have htake : (L.topTier.members.map entryData).take L.topTier.len
      = L.topTier.members.map entryData := by
    rw [List.take_of_length_le]
    rw [List.length_map, hranked.length_members]
  have hany : ((L.topTier.members.map entryData).any fun entry => entry.position = k) = true ↔
      k ∈ L.topTier.members.map (·.position) := by
    simp only [List.any_eq_true, List.mem_map, exists_exists_and_eq_and, decide_eq_true_eq]
    rfl
  cases hin : (L.topTier.members.map entryData).any fun entry => entry.position = k with
  | false =>
    have hout : k ∉ L.topTier.members.map (·.position) := fun hk => by
      rw [hany.mpr hk] at hin
      cases hin
    refine ⟨none, ?_, .stranger hout⟩
    simp only [resolveSuccessor, hread, ok_bind, htake, hin, Bool.false_eq_true, if_false]
    rfl
  | true =>
    obtain ⟨found, hfind, hfound⟩ := findHighestRanked_ok h himages hserves hfaithful hpool hL
    refine ⟨found.map (·.position), ?_, ?_⟩
    · simp only [resolveSuccessor, hread, ok_bind, htake, hin, if_true, hfind]
      rfl
    · obtain ⟨rfl, hnone⟩ | ⟨e, rfl, hbest⟩ := hfound
      · exact .nobody (hany.mp hin) hnone
      · exact .successor (hany.mp hin) hbest

-- ---------------------------------------------------------------------------
-- The program lands the answer
-- ---------------------------------------------------------------------------

/-- The tier and the positions once the answer has joined the vacated tier `t`. -/
inductive Joined (c : Chain) (L : Ledger) (t : TopTier) :
    Option Pubkey → TopTier → Positions → Prop where
  | nobody : Joined c L t none t c.positions
  | successor {kc : Pubkey} {q : Position} {t' : TopTier} {accTier : ℕ} (hq : L.Eligible kc q)
      (hlen : t'.len = t.len + 1) :
      Joined c L t (some kc) t' (c.positions.insert kc (q.entered accTier))

theorem fillVacancyFromCandidate_offered {t : TopTier} (howed : Owed L k answer)
    (hL : c.Reads pool L) (hranked : L.Ranked) (hroom : t.len < L.pool.tierSize) (accTier : ℕ) :
    ∃ t' positions', Tier.fillVacancyFromCandidate t L.pool.tierSize (offered answer) c.positions
        pool accTier = .ok (t', positions', answer) ∧ Joined c L t answer t' positions' := by
  cases howed with
  | stranger | nobody => exact ⟨t, c.positions, rfl, .nobody⟩
  | @successor kc _ hbest =>
    obtain ⟨q, hq, -⟩ := hbest
    have hq' := hq
    obtain ⟨hlookup, hactive, hout⟩ := hq'
    obtain ⟨hposition, rfl⟩ := hL.lookup.mp hlookup
    obtain ⟨t', hpromote, ⟨entries, rfl⟩, -⟩ :=
      Tier.promote_room (Tier.entryOf kc q) hroom hranked.tierSize_le
    refine ⟨{ t with entries, len := t.len + 1 }, c.positions.insert kc (q.entered accTier), ?_,
      .successor hq rfl⟩
    have helig : Tier.isEligibleCandidate q.state q.inTier = true := by
      rw [hactive, hout]
      rfl
    simp only [Tier.fillVacancyFromCandidate, offered, Option.toList_some, List.map_cons,
      List.head?_cons, require, if_true, loadPosition, hposition, okOr_some, ok_bind, helig,
      Tier.fillVacancy, hpromote]
    rfl

-- ---------------------------------------------------------------------------
-- Departures
-- ---------------------------------------------------------------------------

/-- The instructions through which the position at `k` leaves the tier, passing `remaining`. -/
inductive Vacates (pool k : Pubkey) (remaining : List AccountMeta) : Instr → Prop where
  | withdraw {depositor : Pubkey} {depositorUsdc : Option Pubkey} {release : ReleaseAccounts} :
      Vacates pool k remaining (.withdraw depositor pool k depositorUsdc remaining release)
  | withdrawCore {depositor collection : Pubkey} {depositorUsdc : Option Pubkey} :
      Vacates pool k remaining (.withdrawCore depositor pool k depositorUsdc collection remaining)
  | recordValue {operator : Pubkey} {value : ℕ} {observedAt : ℤ} :
      Vacates pool k remaining (.recordValue operator pool k remaining value observedAt)

/-- The tier a departure leaves, and the other positions: only a member's departure writes them. -/
inductive TierLeft (c : Chain) (pool k : Pubkey) (remaining : List AccountMeta) (L : Ledger) :
    Bool → TopTier → Positions → Prop where
  | stranger : TierLeft c pool k remaining L false L.topTier c.positions
  | member {t t' : TopTier} {removed : TierEntry} {positions' : Positions}
      {entered : Option Pubkey} (hdemote : Tier.demote L.topTier k = .ok (t, some removed))
      (hfill : Tier.fillVacancyFromCandidate t L.pool.tierSize remaining c.positions pool
        L.topTier.accTier = .ok (t', positions', entered)) :
      TierLeft c pool k remaining L true t' positions'

/-- What a departure of `p` leaves of its pool. -/
structure Vacancy (c c' : Chain) (pool k : Pubkey) (remaining : List AccountMeta) (L L' : Ledger)
    (p : Position) : Prop where
  position : L.positions.lookup k = some p
  active : p.state = .active
  nReal : L'.pool.nReal + 1 = L.pool.nReal
  tierSize : L'.pool.tierSize = L.pool.tierSize
  tier : ∃ positions', TierLeft c pool k remaining L p.inTier L'.topTier positions' ∧
    ∀ k', k' ≠ k → c'.positions.lookup k' = positions'.lookup k'

theorem vacateAndFill_left {q q' : Position} {t' : TopTier} {positions' : Positions}
    {change : TierChange}
    (h : vacateAndFill L.topTier L.pool.tierSize pool k q remaining c.positions
      = .ok (t', q', positions', change)) : TierLeft c pool k remaining L true t' positions' := by
  simp only [vacateAndFill, Tier.vacate, bind_ok, okOr_ok, pure_ok, Prod.mk.injEq, Prod.exists] at h
  obtain ⟨_, _, _, ⟨_, _, hdemote, _, rfl, _, -, rfl, -, -⟩, _, _, _, hfill, rfl, -, rfl, -⟩ := h
  exact .member hdemote hfill

theorem Vacancy.of_write {pool' : Pool} {t' : TopTier} {positions' : Positions}
    {stats : WalletStats} {targets : BlankTargets} (hsound : c'.Sound)
    (hp : L.positions.lookup k = some p) (hfrom : DepartsFrom L.pool p stats targets)
    (hpool : c'.pools.lookup pool = some pool') (hnReal : pool'.nReal = L.pool.nReal - 1)
    (htierSize : pool'.tierSize = L.pool.tierSize)
    (htopTier : c'.topTiers.lookup (.topTier pool) = some t')
    (hleft : TierLeft c pool k remaining L p.inTier t' positions')
    (hothers : ∀ k', k' ≠ k → c'.positions.lookup k' = positions'.lookup k') :
    ∃ L', c'.ledger pool = some L' ∧ Vacancy c c' pool k remaining L L' p := by
  obtain ⟨L', hL', hreads, rfl⟩ := hsound.ledger hpool
  obtain rfl := Option.some.inj (htopTier.symm.trans hreads.topTier)
  refine ⟨L', hL', hp, hfrom.active, ?_, htierSize, positions', hleft, hothers⟩
  rw [hnReal]
  exact Nat.sub_add_cancel hfrom.nReal

theorem withdrawAccounting_vacancy {stats : WalletStats} {depositorUsdc : Option Pubkey}
    {c₁ : Chain} (hsound : c'.Sound) (hp : L.positions.lookup k = some p)
    (h : withdrawAccounting clock c pool k depositorUsdc remaining
      ⟨L.pool, p, L.weightIndex, L.topTier, stats⟩ = .ok (c₁, events))
    (hpools : c'.pools = c₁.pools) (htiers : c'.topTiers = c₁.topTiers)
    (hpositions : c'.positions = c₁.positions) :
    ∃ L', c'.ledger pool = some L' ∧ Vacancy c c' pool k remaining L L' p := by
  simp only [withdrawAccounting, bind_ok, pure_ok, Prod.mk.injEq, Prod.exists] at h
  obtain ⟨booked, hbooked, _, -, t', _, positions', _, htier, _, -, rfl, -⟩ := h
  obtain ⟨targets, hfrom, -, -, -, -, rfl⟩ := applyWithdraw_ok.mp hbooked
  have hleft : TierLeft c pool k remaining L p.inTier t' positions' := by
    have htier : withdrawTier p.inTier L.topTier L.pool.tierSize pool k _ remaining c.positions
      = .ok (t', _, positions', _) := htier
    cases hin : p.inTier with
    | true =>
      simp only [withdrawTier, hin, if_true] at htier
      exact vacateAndFill_left htier
    | false =>
      simp only [withdrawTier, hin, Bool.false_eq_true, if_false, pure_ok, Prod.mk.injEq] at htier
      obtain ⟨rfl, -, rfl, -⟩ := htier
      exact .stranger
  have hpool := (congrArg (Finmap.lookup pool) hpools).trans (Finmap.lookup_insert _)
  have htopTier := (congrArg (Finmap.lookup (.topTier pool)) htiers).trans (Finmap.lookup_insert _)
  refine Vacancy.of_write hsound hp hfrom hpool rfl rfl htopTier hleft fun k' hne => ?_
  rw [hpositions]
  exact Finmap.lookup_erase_ne hne

theorem recordValue_vacancy {operator : Pubkey} {value : ℕ} {observedAt : ℤ} (hsound : c.Sound)
    (hsound' : c'.Sound) (hL : c.Reads pool L)
    (hgone : ∀ q, c'.positions.lookup k = some q → q.state ≠ .active)
    (h : recordValue clock c operator pool k remaining value observedAt = .ok (c', events)) :
    ∃ p L', c'.ledger pool = some L' ∧ Vacancy c c' pool k remaining L L' p := by
  simp only [recordValue, bind_ok, pure_ok, Prod.mk.injEq, Prod.exists] at h
  obtain ⟨_, -, a, ha, booked, hbooked, _, -, t', q, positions', _, htier, rfl, -⟩ := h
  obtain ⟨L₁, p, stats, rfl, hL₁, hbound⟩ := hsound.wellFormed.loadThroughPool ha
  obtain rfl := hL.unique hL₁
  dsimp only at hbooked htier
  by_cases hclose : classify value L.pool.admissionFloor p.lockUntil clock.unixTimestamp = .close
  · obtain ⟨targets, _, -, hfrom, -, rfl⟩ := applyRecordValue_closed hbooked hclose
    have hleft : TierLeft c pool k remaining L p.inTier t' positions' := by
      obtain ⟨hin, hvacate⟩ | ⟨hout, rfl, -, rfl⟩ := recordTier_closed htier
      · have hin : p.inTier = true := hin
        rw [hin]
        exact vacateAndFill_left hvacate
      · have hout : p.inTier = false := hout
        rw [hout]
        exact .stranger
    exact ⟨p, Vacancy.of_write hsound' hbound.position hfrom (Finmap.lookup_insert _) rfl rfl
      (Finmap.lookup_insert _) hleft fun k' hne => Finmap.lookup_insert_of_ne _ hne⟩
  · -- A re-attestation that keeps the position keeps it active.
    obtain ⟨_, _, _, _, hrevalues, -, -, -, rfl⟩ := applyRecordValue_kept hbooked hclose
    have hterms := congrArg Position.state (recordTier_terms htier).1
    exact absurd (hterms.trans hrevalues.active) (hgone q (Finmap.lookup_insert _))

theorem vacancy_of_vacates (hvacates : Vacates pool k remaining instr) (hsound : c.Sound)
    (hL : c.Reads pool L) (h : exec X clock c instr = .ok (c', events))
    (hgone : ∀ q, c'.positions.lookup k = some q → q.state ≠ .active) :
    ∃ p L', c'.ledger pool = some L' ∧ Vacancy c c' pool k remaining L L' p := by
  have hstep : Step X c c' := .instruction clock _ _ trivial h
  have hsound' := hstep.sound hsound
  cases hvacates with
  | withdraw =>
    simp only [exec, withdraw, bind_ok, require_ok, pure_ok, Prod.mk.injEq, Prod.exists] at h
    obtain ⟨-, -, a, ha, -, -, -, -, -, -, c₁, _, haccounting, _, _, -, rfl, -⟩ := h
    obtain ⟨L₁, p, stats, rfl, hL₁, hbound⟩ := hsound.wellFormed.loadThroughPool ha
    obtain rfl := hL.unique hL₁
    exact ⟨p, withdrawAccounting_vacancy hsound' hbound.position haccounting rfl rfl rfl⟩
  | withdrawCore =>
    simp only [exec, withdrawCore, bind_ok, require_ok, pure_ok, Prod.mk.injEq, Prod.exists] at h
    obtain ⟨-, -, a, ha, -, -, -, -, -, -, _, -, c₁, _, haccounting, _, -, rfl, -⟩ := h
    obtain ⟨L₁, p, stats, rfl, hL₁, hbound⟩ := hsound.wellFormed.loadThroughPool ha
    obtain rfl := hL.unique hL₁
    exact ⟨p, withdrawAccounting_vacancy hsound' hbound.position haccounting rfl rfl rfl⟩
  | recordValue => exact recordValue_vacancy hsound hsound' hL hgone h

-- ---------------------------------------------------------------------------
-- The best stay the best
-- ---------------------------------------------------------------------------

/-- Every member outranks every active non-member. -/
def Ledger.Above (L : Ledger) : Prop :=
  ∀ k p k' p', L.positions.lookup k = some p → p.inTier = true → L.Eligible k' p' →
    Tier.Outranks (Tier.entryOf k p) (Tier.entryOf k' p')

theorem Ledger.Ranked.mem_iff (h : L.Ranked) (hp : L.positions.lookup k = some p) :
    Tier.entryOf k p ∈ L.topTier.members ↔ p.inTier = true := by
  refine ⟨fun hmem => ?_, h.listed.mem hp⟩
  obtain ⟨q, hq, hin, -⟩ := h.listed.lookup hmem
  rwa [Option.some.inj (hp.symm.trans hq)]

theorem Ledger.Ranked.topK_iff (h : L.Ranked) :
    L.TopK ↔ L.topTier.len = min L.pool.tierSize L.pool.nReal ∧ L.Above := by
  constructor
  · intro hbest
    refine ⟨h.length_members ▸ hbest.length, fun k p k' p' hp hin ⟨hp', hactive, hout⟩ => ?_⟩
    refine hbest.best _ (h.listed.mem hp hin) k' p' hp' hactive fun hmem => ?_
    rw [(h.mem_iff hp').mp hmem] at hout
    cases hout
  · rintro ⟨hlen, habove⟩
    refine ⟨h.listed.sorted, fun e he => ?_, h.length_members ▸ hlen, ?_⟩
    · obtain ⟨p, hp, -, hactive, hentry⟩ := h.listed.lookup he
      exact ⟨p, hp, hactive, hentry⟩
    · intro e he k p hp hactive hout
      obtain ⟨q, hq, hin, -, hentry⟩ := h.listed.lookup he
      rw [hentry]
      refine habove _ q k p hq hin ⟨hp, hactive, ?_⟩
      rwa [← Bool.not_eq_true, ← h.mem_iff hp]

theorem Ledger.Eligible.len_lt (helig : L.Eligible k p) (h : L.Ranked) (hsynced : L.Synced) :
    L.topTier.len < L.pool.nReal := by
  obtain ⟨hp, hactive, hout⟩ := helig
  have hnew : k ∉ L.topTier.members.map (·.position) := by
    intro hk
    obtain ⟨e, he, rfl⟩ := List.mem_map.mp hk
    obtain ⟨q, hq, hin, -⟩ := h.listed.lookup he
    rw [Option.some.inj (hp.symm.trans hq), hin] at hout
    cases hout
  have hcount : (k :: L.topTier.members.map (·.position)).length
      ≤ sumActive (fun _ => 1) L.positions := by
    refine Store.length_le_total (List.nodup_cons.mpr ⟨hnew, h.listed.nodup_positions⟩) ?_
    intro key hkey
    rcases List.mem_cons.mp hkey with rfl | hkey
    · exact ⟨p, hp, by rw [Position.share_active hactive]⟩
    · obtain ⟨e, he, rfl⟩ := List.mem_map.mp hkey
      obtain ⟨q, hq, -, hqactive, -⟩ := h.listed.lookup he
      exact ⟨q, hq, by rw [Position.share_active hqactive]⟩
  rw [List.length_cons, List.length_map, h.length_members] at hcount
  rw [hsynced.nReal]
  exact hcount

theorem Ledger.Ranked.nReal_le_len (h : L.Ranked) (hsynced : L.Synced)
    (hnone : ∀ k p, ¬L.Eligible k p) : L.pool.nReal ≤ L.topTier.len := by
  have hcount : sumActive (fun _ => 1) L.positions
      ≤ (L.topTier.members.map (·.position)).length := by
    refine Store.total_le_length (fun k p _ => ?_) fun k p hp hshare => ?_
    · unfold Position.share
      split
      · exact le_rfl
      · exact Nat.zero_le _
    · have hactive : p.state = .active := by
        by_contra hinactive
        exact hshare (Position.share_inactive hinactive)
      have hin : p.inTier = true := by
        by_contra hout
        exact hnone k p ⟨hp, hactive, by simpa using hout⟩
      exact List.mem_map.mpr ⟨_, h.listed.mem hp hin, rfl⟩
  rw [List.length_map, h.length_members] at hcount
  rw [hsynced.nReal]
  exact hcount

theorem Tier.Listed.mem_positions {members : List TierEntry} {positions : Positions}
    (h : Tier.Listed members positions) (hp : positions.lookup k = some p) :
    k ∈ members.map (·.position) ↔ p.inTier = true := by
  constructor
  · intro hk
    obtain ⟨e, he, rfl⟩ := List.mem_map.mp hk
    obtain ⟨q, hq, hin, -⟩ := h.lookup he
    rwa [Option.some.inj (hp.symm.trans hq)]
  · exact fun hin => List.mem_map.mpr ⟨_, h.mem hp hin, rfl⟩

/-- A departure whose answer joined leaves a tier of the best. -/
theorem Vacancy.topK (h : Vacancy c c' pool k (offered answer) L L' p) (hL : c.Reads pool L)
    (hL' : c'.Reads pool L') (hranked : L.Ranked) (hranked' : L'.Ranked) (hsynced : L.Synced)
    (hgone : ∀ q, c'.positions.lookup k = some q → q.state ≠ .active) (howed : Owed L k answer)
    (hbest : L.TopK) : L'.TopK := by
  obtain ⟨hp, hactive, hnReal, htierSize, positions', htier, hothers⟩ := h
  obtain ⟨hlen, habove⟩ := hranked.topK_iff.mp hbest
  refine hranked'.topK_iff.mpr ?_
  -- The departed position is active no more, and every other stands as the tier branch left it.
  have hback : ∀ k' q, L'.positions.lookup k' = some q → q.state = .active →
      k' ≠ k ∧ positions'.lookup k' = some q ∧ q.pool = pool := by
    intro k' q hq hqactive
    obtain ⟨hlookup, hown⟩ := hL'.lookup.mp hq
    have hne : k' ≠ k := by
      rintro rfl
      exact hgone q hlookup hqactive
    exact ⟨hne, (hothers k' hne).symm.trans hlookup, hown⟩
  -- Where the tier branch wrote no position, each active one stands as it stood.
  have habove_same : positions' = c.positions → L'.Above := by
    rintro rfl k₁ p₁ k₂ p₂ hp₁ hin ⟨hp₂, hactive₂, hout⟩
    obtain ⟨-, hlookup₁, hown₁⟩ := hback k₁ p₁ hp₁ (hranked'.listed.active k₁ p₁ hp₁ hin)
    obtain ⟨-, hlookup₂, hown₂⟩ := hback k₂ p₂ hp₂ hactive₂
    exact habove k₁ p₁ k₂ p₂ (hL.lookup.mpr ⟨hlookup₁, hown₁⟩) hin
      ⟨hL.lookup.mpr ⟨hlookup₂, hown₂⟩, hactive₂, hout⟩
  generalize hin : p.inTier = wasMember at htier
  generalize L'.topTier = t' at htier ⊢
  cases htier with
  | stranger =>
    have hlt := Ledger.Eligible.len_lt ⟨hp, hactive, hin⟩ hranked hsynced
    exact ⟨by omega, habove_same rfl⟩
  | @member t _ removed _ entered hdemote hfill =>
    obtain ⟨-, -, hpos, ht, -⟩ := Tier.demote_ok hranked.len_le_max hdemote
    have hle := hranked.len_le
    have hmember := (hranked.listed.mem_positions hp).mpr hin
    obtain ⟨t₁, positions₁, hrun, hjoined⟩ := fillVacancyFromCandidate_offered howed hL hranked
      (show t.len < L.pool.tierSize by omega) L.topTier.accTier
    rw [hrun, Except.ok.injEq, Prod.mk.injEq, Prod.mk.injEq] at hfill
    obtain ⟨rfl, rfl, -⟩ := hfill
    cases howed with
    | stranger hout => exact absurd hmember hout
    | nobody _ hnone =>
      cases hjoined with
      | nobody =>
        have hall := hranked.nReal_le_len hsynced hnone
        have hreal := hranked.len_le_nReal hsynced
        exact ⟨by omega, habove_same rfl⟩
    | @successor kc _ hbestEligible =>
      cases hjoined with
      | @successor _ q _ accTier hq hlen' =>
        have hlt := hq.len_lt hranked hsynced
        refine ⟨by omega, ?_⟩
        obtain ⟨q₀, hq₀, houtranks⟩ := hbestEligible
        obtain rfl : q = q₀ := Option.some.inj (hq.1.symm.trans hq₀.1)
        rintro k₁ p₁ k₂ p₂ hp₁ hin₁ ⟨hp₂, hactive₂, hout₂⟩
        obtain ⟨-, hlookup₁, hown₁⟩ := hback k₁ p₁ hp₁ (hranked'.listed.active k₁ p₁ hp₁ hin₁)
        obtain ⟨-, hlookup₂, hown₂⟩ := hback k₂ p₂ hp₂ hactive₂
        have hne₂ : k₂ ≠ kc := by
          rintro rfl
          rw [Finmap.lookup_insert, Option.some.injEq] at hlookup₂
          rw [← hlookup₂] at hout₂
          cases hout₂
        rw [Finmap.lookup_insert_of_ne _ hne₂] at hlookup₂
        have helig₂ : L.Eligible k₂ p₂ := ⟨hL.lookup.mpr ⟨hlookup₂, hown₂⟩, hactive₂, hout₂⟩
        by_cases hk₁ : k₁ = kc
        · -- The successor outranks whoever it was chosen over.
          subst hk₁
          rw [Finmap.lookup_insert, Option.some.injEq] at hlookup₁
          rw [← hlookup₁]
          exact houtranks k₂ p₂ helig₂ hne₂
        · rw [Finmap.lookup_insert_of_ne _ hk₁] at hlookup₁
          exact habove k₁ p₁ k₂ p₂ (hL.lookup.mpr ⟨hlookup₁, hown₁⟩) hin₁ helig₂

/-- Whoever the resolver answers, the program accepts, and a tier of the best stays one. -/
theorem resolveSuccessor_topK (h : ClockReachable X c now) (himages : Images w c accounts)
    (hserves : Serves accounts rpc)
    (hfaithful : ∀ k p, c.positions.lookup k = some p → w.Faithful k ∧ w.Faithful p.pool)
    (hpool : w.Faithful pool) (hL : c.ledger pool = some L) (hbest : L.TopK) (k : Pubkey) :
    ∃ answer, resolveSuccessor w rpc pool k = .ok answer ∧
      (k ∉ L.topTier.members.map (·.position) → answer = none) ∧
      (∀ p p' t removed accTier, Tier.vacate L.topTier k p accTier = .ok (t, p', removed) →
        ∃ t' positions', Tier.fillVacancyFromCandidate t L.pool.tierSize (offered answer)
          c.positions pool accTier = .ok (t', positions', answer)) ∧
      ∀ clock instr c' events, Vacates pool k (offered answer) instr →
        exec X clock c instr = .ok (c', events) →
        (∀ q, c'.positions.lookup k = some q → q.state ≠ .active) →
        ∃ L', c'.ledger pool = some L' ∧ L'.TopK := by
  have hreads := ledger_eq_some.mp hL
  have hranked := h.sound.ranked pool L hreads
  obtain ⟨answer, hanswer, howed⟩ :=
    resolveSuccessor_owed h himages hserves hfaithful hpool hreads k
  refine ⟨answer, hanswer, ?_, ?_, ?_⟩
  · intro hout
    cases howed with
    | stranger | nobody => rfl
    | successor hin => exact absurd hin hout
  · intro p p' t removed accTier hvacate
    obtain ⟨⟨-, -, hpos, hlen, -⟩, -⟩ := Tier.vacate_ok hranked.len_le_max hvacate
    have hle := hranked.len_le
    obtain ⟨t', positions', hrun, -⟩ := fillVacancyFromCandidate_offered howed hreads hranked
      (show t.len < L.pool.tierSize by omega) accTier
    exact ⟨t', positions', hrun⟩
  · intro clock instr c' events hvacates hrun hgone
    obtain ⟨p, L', hL', hvacancy⟩ := vacancy_of_vacates hvacates h.sound hreads hrun hgone
    have hstep : Step X c c' := .instruction clock _ _ trivial hrun
    have hsound' := hstep.sound h.sound
    have hreads' := ledger_eq_some.mp hL'
    exact ⟨L', hL', hvacancy.topK hreads hreads' hranked (hsound'.ranked pool L' hreads')
      (h.sound.synced pool L hreads) hgone howed hbest⟩

-- ---------------------------------------------------------------------------
-- A tier of one
-- ---------------------------------------------------------------------------

/-- A tier of one, held by card 30; card 31 is active beside it. -/
def rivalBank : Chain :=
  (bankPool { defaultArgs .default with tierSize := 1 }).after bank
    [admitCards, depositCard 30, depositCard 31, approveCard 30 13000000 100,
      approveCard 31 12000000 100]

theorem rivalBank_reachable : ClockReachable bank rivalBank 2 :=
  bank_clock (by decide +kernel) (by decide) (by decide +kernel) (by decide)

-- It starts with nobody in its one place.
example : ((bankPool { defaultArgs .default with tierSize := 1 }).topTiers.lookup
    (.topTier (.pool 0))).map (·.len) = some 0 := by decide +kernel

theorem rivalBank_key {k : Pubkey} {p : Position} (hp : rivalBank.positions.lookup k = some p) :
    k = bankPosition 30 ∨ k = bankPosition 31 := by
  have hkeys : rivalBank.positions.keys = {bankPosition 30, bankPosition 31} := by decide +kernel
  have hmem : k ∈ rivalBank.positions.keys := by
    rw [Finmap.mem_keys, ← Finmap.lookup_isSome, hp]
    rfl
  rwa [hkeys, Finset.mem_insert, Finset.mem_singleton] at hmem

theorem rivalBank_faithful {k : Pubkey} {p : Position} (hp : rivalBank.positions.lookup k = some p) :
    bankEncoding.Faithful k ∧ bankEncoding.Faithful p.pool := by
  have hsound : rivalBank.Sound := ClockReachable.sound rivalBank_reachable
  have hkey := hsound.wellFormed.positionKey k p hp
  obtain rfl | rfl := rivalBank_key hp <;>
  · refine ⟨rfl, ?_⟩
    rw [← (Pubkey.position.inj hkey).1]
    rfl

theorem rivalBank_ledger : ∃ L p q, rivalBank.ledger (.pool 0) = some L ∧
    L.positions.lookup (bankPosition 30) = some p ∧ p.inTier = true ∧
    Tier.entryOf (bankPosition 30) p = ⟨bankPosition 30, 13000000, 2, 0⟩ ∧
    L.Eligible (bankPosition 31) q ∧
    Tier.entryOf (bankPosition 31) q = ⟨bankPosition 31, 12000000, 2, 1⟩ ∧
    L.topTier.len = min L.pool.tierSize L.pool.nReal := by
  have hstands : ((rivalBank.ledger (.pool 0)).bind fun L =>
      (L.positions.lookup (bankPosition 30)).bind fun p =>
        (L.positions.lookup (bankPosition 31)).map fun q =>
          (p.inTier, Tier.entryOf (bankPosition 30) p, q.state, q.inTier,
            Tier.entryOf (bankPosition 31) q,
            decide (L.topTier.len = min L.pool.tierSize L.pool.nReal)))
      = some (true, ⟨bankPosition 30, 13000000, 2, 0⟩, .active, false,
          ⟨bankPosition 31, 12000000, 2, 1⟩, true) := by decide +kernel
  obtain ⟨L, hL, hboth⟩ := Option.bind_eq_some_iff.mp hstands
  obtain ⟨p, hp, hother⟩ := Option.bind_eq_some_iff.mp hboth
  obtain ⟨q, hq, heq⟩ := Option.map_eq_some_iff.mp hother
  simp only [Prod.mk.injEq, decide_eq_true_eq] at heq
  obtain ⟨hin, hentry, hactive, hout, hentry', hlen⟩ := heq
  exact ⟨L, p, q, hL, hp, hin, hentry, ⟨hq, hactive, hout⟩, hentry', hlen⟩

theorem rivalBank_withdraw :
    (runScript bank [(⟨5, 200⟩, .withdrawCore (.key 20) (.pool 0) (bankPosition 30) (some (.key 41))
      bankCollection (offered (some (bankPosition 31))))] rivalBank).isOk := by decide +kernel

theorem rivalBank_gone : ∀ q, (rivalBank.after bank [(⟨5, 200⟩, .withdrawCore (.key 20) (.pool 0)
    (bankPosition 30) (some (.key 41)) bankCollection
      (offered (some (bankPosition 31))))]).positions.lookup (bankPosition 30) = some q →
    q.state ≠ .active := by
  intro q hq
  have hnone : (rivalBank.after bank [(⟨5, 200⟩, .withdrawCore (.key 20) (.pool 0)
    (bankPosition 30) (some (.key 41)) bankCollection
      (offered (some (bankPosition 31))))]).positions.lookup (bankPosition 30) = none := by
    decide +kernel
  rw [hnone] at hq
  cases hq

/-- Card 30 leaves: the resolver answers card 31, and a tier of the best stays one. -/
theorem resolveSuccessor_topK_bank :
    ∃ L, rivalBank.ledger (.pool 0) = some L ∧ L.TopK ∧
      resolveSuccessor bankEncoding (rivalBank.node bankEncoding) (.pool 0) (bankPosition 30)
        = .ok (some (bankPosition 31)) ∧
      ∃ c' events L', exec bank ⟨5, 200⟩ rivalBank (.withdrawCore (.key 20) (.pool 0)
          (bankPosition 30) (some (.key 41)) bankCollection (offered (some (bankPosition 31))))
          = .ok (c', events) ∧
        c'.ledger (.pool 0) = some L' ∧ L'.TopK := by
  obtain ⟨L, p, q, hL, hp, hin, hentry, helig, hentry', hlen⟩ := rivalBank_ledger
  have hreads := ledger_eq_some.mp hL
  have hsound : rivalBank.Sound := ClockReachable.sound rivalBank_reachable
  have hranked := hsound.ranked _ _ hreads
  have himages := images_images (w := bankEncoding) hsound.wellFormed
  have hserves := serves_node rivalBank bankEncoding
  -- Card 31 is the one active non-member.
  have honly : ∀ k q', L.Eligible k q' → k = bankPosition 31 := by
    rintro k q' ⟨hq', -, hout⟩
    obtain rfl | hk := rivalBank_key (hreads.lookup.mp hq').1
    · rw [Option.some.inj (hp.symm.trans hq'), hout] at hin
      cases hin
    · exact hk
  have hbest : L.TopK := by
    refine hranked.topK_iff.mpr ⟨hlen, fun k p' k' q' hp' hin' helig' => ?_⟩
    obtain rfl := honly k' q' helig'
    obtain rfl : q = q' := Option.some.inj (helig.1.symm.trans helig'.1)
    obtain rfl | rfl := rivalBank_key (hreads.lookup.mp hp').1
    · obtain rfl : p = p' := Option.some.inj (hp.symm.trans hp')
      rw [hentry, hentry']
      exact .inl (by decide)
    · obtain rfl : q = p' := Option.some.inj (helig.1.symm.trans hp')
      rw [helig.2.2] at hin'
      cases hin'
  have hpool : bankEncoding.Faithful (.pool 0) := rfl
  have hmember := (hranked.listed.mem_positions hp).mpr hin
  obtain ⟨answer, hanswer, howed⟩ := resolveSuccessor_owed rivalBank_reachable himages hserves
    (fun _ _ => rivalBank_faithful) hpool hreads (bankPosition 30)
  obtain rfl : answer = some (bankPosition 31) := by
    cases howed with
    | stranger hout => exact absurd hmember hout
    | nobody _ hnone => exact absurd helig (hnone _ _)
    | successor _ hbestEligible =>
      obtain ⟨q', hq', -⟩ := hbestEligible
      rw [honly _ q' hq']
  obtain ⟨events, hrun⟩ := exec_after rivalBank_withdraw
  obtain ⟨answer', hanswer', -, -, hkept⟩ := resolveSuccessor_topK rivalBank_reachable himages
    hserves (fun _ _ => rivalBank_faithful) hpool hL hbest (bankPosition 30)
  obtain rfl := Except.ok.inj (hanswer.symm.trans hanswer')
  obtain ⟨L', hL', hbest'⟩ := hkept _ _ _ events .withdrawCore hrun rivalBank_gone
  exact ⟨L, hL, hbest, hanswer, _, events, L', hrun, hL', hbest'⟩

end ByeMachine
