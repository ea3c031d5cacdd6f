import ByeMachine.Invariants.Ranked

/-!
# The weight records' invariant

The pool's counters, the weight index and the wallets' rollups are five records
of one fact: which positions are active, at which values. `Synced` ties each of
them to the positions, and every move of a pool's ledger keeps it.
-/

namespace ByeMachine

open Fallible

-- ---------------------------------------------------------------------------
-- Sums over the active positions
-- ---------------------------------------------------------------------------

/-- What a position adds to a sum over the active ones. -/
def Position.share (f : Position → ℕ) (p : Position) : ℕ := if p.state = .active then f p else 0

def sumActive (f : Position → ℕ) (positions : Positions) : ℕ :=
  Store.total (fun _ p => p.share f) positions

theorem Position.share_active {f : Position → ℕ} {p : Position} (h : p.state = .active) :
    p.share f = f p := if_pos h

theorem Position.share_inactive {f : Position → ℕ} {p : Position} (h : p.state ≠ .active) :
    p.share f = 0 := if_neg h

section Sums

variable {positions : Positions} {k : Pubkey} {p p' : Position} (f : Position → ℕ)

theorem sumActive_write (p' : Position) (hp : positions.lookup k = some p) :
    p.share f + sumActive f (positions.insert k p') = p'.share f + sumActive f positions :=
  Store.total_replace (f := fun _ p => p.share f) hp

theorem sumActive_same (hp : positions.lookup k = some p) (hshare : p'.share f = p.share f) :
    sumActive f (positions.insert k p') = sumActive f positions := by
  have := sumActive_write f p' hp
  omega

theorem sumActive_intake (hfree : positions.lookup k = none) (hstate : p.state ≠ .active) :
    sumActive f (positions.insert k p) = sumActive f positions := by
  rw [sumActive, Store.total_insert_new (Store.notMem_of_lookup hfree), Position.share_inactive hstate,
    zero_add, sumActive]

theorem sumActive_erase (hp : positions.lookup k = some p) (hstate : p.state ≠ .active) :
    sumActive f (positions.erase k) = sumActive f positions := by
  have := Store.total_erase (f := fun _ p => Position.share f p) hp
  rw [Position.share_inactive hstate, zero_add] at this
  exact this

theorem le_sumActive (hp : positions.lookup k = some p) (hstate : p.state = .active) :
    f p ≤ sumActive f positions := by
  have := Store.le_total (f := fun _ p => Position.share f p) hp
  rwa [Position.share_active hstate] at this

end Sums

-- ---------------------------------------------------------------------------
-- The records
-- ---------------------------------------------------------------------------

def leafAt (slot : ℕ) (p : Position) : ℕ := if p.slotIndex = slot then weight p.recordedValue else 0

def leavesOf (positions : Positions) (slot : ℕ) : ℕ := sumActive (leafAt slot) positions

/-- An owner's rollup; an owner without one has nothing active. -/
def countOf (stats : Pubkey → Option WalletStats) (owner : Pubkey) : ℕ :=
  ((stats owner).map (·.activePositions)).getD 0

def valueOf (stats : Pubkey → Option WalletStats) (owner : Pubkey) : ℕ :=
  ((stats owner).map (·.activeValue)).getD 0

def ownedCount (owner : Pubkey) (p : Position) : ℕ := if p.depositor = owner then 1 else 0

def ownedValue (owner : Pubkey) (p : Position) : ℕ :=
  if p.depositor = owner then p.recordedValue else 0

/-- The weight index, the pool's counters and the rollups all record the active positions. -/
structure InStep (positions : Positions) (index : WeightIndex) (wReal nReal : ℕ)
    (stats : Pubkey → Option WalletStats) : Prop where
  slots : index.Inv (leavesOf positions)
  attested : ∀ k p, positions.lookup k = some p → p.state = .active →
    0 < p.recordedValue ∧ p.recordedValue ≤ WEIGHT_C
  distinct : ∀ k k' p p', positions.lookup k = some p → positions.lookup k' = some p' →
    p.state = .active → p'.state = .active → p.slotIndex = p'.slotIndex → k = k'
  total : index.slots.totalWeight = sumActive (fun p => weight p.recordedValue) positions
  wReal : wReal = index.slots.totalWeight
  nReal : nReal = sumActive (fun _ => 1) positions
  count : ∀ owner, countOf stats owner = sumActive (ownedCount owner) positions
  value : ∀ owner, valueOf stats owner = sumActive (ownedValue owner) positions

def Ledger.Synced (L : Ledger) : Prop :=
  InStep L.positions L.weightIndex L.pool.wReal L.pool.nReal L.walletStats

-- ---------------------------------------------------------------------------
-- Reading the records
-- ---------------------------------------------------------------------------

section Reading

variable {positions : Positions} {index index' : WeightIndex} {wReal nReal : ℕ}
  {stats : Pubkey → Option WalletStats} {k : Pubkey} {p p' : Position}

theorem InStep.leaf_le (hp : positions.lookup k = some p) (hactive : p.state = .active) :
    weight p.recordedValue ≤ leavesOf positions p.slotIndex := by
  have := le_sumActive (leafAt p.slotIndex) hp hactive
  rwa [leafAt, if_pos rfl] at this

theorem InStep.leaf (h : InStep positions index wReal nReal stats)
    (hp : positions.lookup k = some p) (hactive : p.state = .active) :
    leavesOf positions p.slotIndex = weight p.recordedValue := by
  have hsplit := Store.total_erase (f := fun _ p' => Position.share (leafAt p.slotIndex) p') hp
  have hrest : Store.total (fun _ p' => Position.share (leafAt p.slotIndex) p') (positions.erase k)
      = Store.total (fun _ _ => 0) (positions.erase k) := by
    refine Store.total_congr fun k' q hq => ?_
    have hne : k' ≠ k := by rintro rfl; simp at hq
    rw [Finmap.lookup_erase_ne hne] at hq
    by_cases hqactive : q.state = .active
    · rw [Position.share_active hqactive, leafAt, if_neg]
      exact fun heq => hne (h.distinct _ _ _ _ hq hp hqactive hactive heq)
    · exact Position.share_inactive hqactive
  rw [hrest, Position.share_active hactive, leafAt, if_pos rfl] at hsplit
  simpa [leavesOf, sumActive, Store.total] using hsplit.symm

theorem InStep.leaf_zero {slot : ℕ}
    (hnone : ∀ k p, positions.lookup k = some p → p.state = .active → p.slotIndex ≠ slot) :
    leavesOf positions slot = 0 := by
  have hzero : leavesOf positions slot = Store.total (fun _ _ => 0) positions := by
    rw [leavesOf, sumActive]
    refine Store.total_congr fun k q hq => ?_
    by_cases hactive : q.state = .active
    · rw [Position.share_active hactive, leafAt, if_neg (hnone k q hq hactive)]
    · exact Position.share_inactive hactive
  simpa [Store.total] using hzero

theorem InStep.slot_lt (h : InStep positions index wReal nReal stats)
    (hp : positions.lookup k = some p) (hactive : p.state = .active) :
    p.slotIndex < FENWICK_CAPACITY := by
  by_contra hge
  obtain ⟨h0, hC⟩ := h.attested k p hp hactive
  have hpos := weight_pos h0 hC
  have hzero := h.slots.above p.slotIndex (h.slots.highWater.trans (by omega))
  have hle := InStep.leaf_le hp hactive
  omega

-- ---------------------------------------------------------------------------
-- Writes that move no weight
-- ---------------------------------------------------------------------------

/-- A write the weight records do not see. -/
def Neutral (p p' : Position) : Prop :=
  (p.state ≠ .active ∧ p'.state ≠ .active) ∨
    (p'.state = p.state ∧ p'.recordedValue = p.recordedValue ∧ p'.slotIndex = p.slotIndex ∧
      p'.depositor = p.depositor)

theorem Neutral.sumActive (hneutral : Neutral p p') (hp : positions.lookup k = some p)
    {f : Position → ℕ} (hf : ∀ q q' : Position, q'.recordedValue = q.recordedValue →
      q'.slotIndex = q.slotIndex → q'.depositor = q.depositor → f q' = f q) :
    sumActive f (positions.insert k p') = sumActive f positions := by
  refine sumActive_same f hp ?_
  obtain ⟨hold, hnew⟩ | ⟨hstate, hvalue, hslot, howner⟩ := hneutral
  · rw [Position.share_inactive hold, Position.share_inactive hnew]
  · rw [Position.share, Position.share, hstate, hf p p' hvalue hslot howner]

theorem InStep.neutral (h : InStep positions index wReal nReal stats)
    (hp : positions.lookup k = some p) (hneutral : Neutral p p') :
    InStep (positions.insert k p') index wReal nReal stats where
  slots := by
    have hleaves : leavesOf (positions.insert k p') = leavesOf positions := by
      funext slot
      exact hneutral.sumActive hp fun q q' hvalue hslot _ => by rw [leafAt, leafAt, hvalue, hslot]
    rw [hleaves]
    exact h.slots
  attested := by
    intro x q hq hactive
    by_cases hx : x = k
    · subst hx
      rw [Finmap.lookup_insert, Option.some.injEq] at hq
      subst hq
      obtain ⟨-, hnew⟩ | ⟨hstate, hvalue, -, -⟩ := hneutral
      · exact absurd hactive hnew
      · rw [hvalue]
        exact h.attested x p hp (hstate ▸ hactive)
    · exact h.attested x q (Finmap.lookup_insert_of_ne _ hx ▸ hq) hactive
  distinct := by
    -- Every active entry stands where an active entry with the same slot stood.
    have hold : ∀ x q, (positions.insert k p').lookup x = some q → q.state = .active →
        ∃ q₀, positions.lookup x = some q₀ ∧ q₀.state = .active ∧ q₀.slotIndex = q.slotIndex := by
      intro x q hq hactive
      by_cases hx : x = k
      · subst hx
        rw [Finmap.lookup_insert, Option.some.injEq] at hq
        subst hq
        obtain ⟨-, hnew⟩ | ⟨hstate, -, hslot, -⟩ := hneutral
        · exact absurd hactive hnew
        · exact ⟨p, hp, hstate ▸ hactive, hslot.symm⟩
      · exact ⟨q, Finmap.lookup_insert_of_ne _ hx ▸ hq, hactive, rfl⟩
    intro x x' q q' hq hq' hactive hactive' heq
    obtain ⟨q₀, hq₀, hactive₀, hslot₀⟩ := hold x q hq hactive
    obtain ⟨q₀', hq₀', hactive₀', hslot₀'⟩ := hold x' q' hq' hactive'
    exact h.distinct x x' q₀ q₀' hq₀ hq₀' hactive₀ hactive₀' (by rw [hslot₀, hslot₀', heq])
  total := h.total.trans (hneutral.sumActive hp fun q q' hvalue _ _ => by rw [hvalue]).symm
  wReal := h.wReal
  nReal := h.nReal.trans (hneutral.sumActive hp fun _ _ _ _ _ => rfl).symm
  count := fun owner => (h.count owner).trans
    (hneutral.sumActive hp fun q q' _ _ howner => by rw [ownedCount, ownedCount, howner]).symm
  value := fun owner => (h.value owner).trans
    (hneutral.sumActive hp fun q q' hvalue _ howner => by
      rw [ownedValue, ownedValue, howner, hvalue]).symm

theorem InStep.erase (h : InStep positions index wReal nReal stats)
    (hp : positions.lookup k = some p) (hstate : p.state ≠ .active) :
    InStep (positions.erase k) index wReal nReal stats := by
  have hsub : ∀ x q, (positions.erase k).lookup x = some q → positions.lookup x = some q := by
    intro x q hq
    by_cases hx : x = k
    · subst hx; simp at hq
    · exact Finmap.lookup_erase_ne hx ▸ hq
  have hsum : ∀ f, sumActive f (positions.erase k) = sumActive f positions :=
    fun f => sumActive_erase f hp hstate
  exact {
    slots := by
      have hleaves : leavesOf (positions.erase k) = leavesOf positions := funext fun _ => hsum _
      rw [hleaves]
      exact h.slots
    attested := fun x q hq => h.attested x q (hsub x q hq)
    distinct := fun x x' q q' hq hq' => h.distinct x x' q q' (hsub x q hq) (hsub x' q' hq')
    total := h.total.trans (hsum _).symm
    wReal := h.wReal
    nReal := h.nReal.trans (hsum _).symm
    count := fun owner => (h.count owner).trans (hsum _).symm
    value := fun owner => (h.value owner).trans (hsum _).symm }

theorem InStep.intake (h : InStep positions index wReal nReal stats) {entry : WalletStats}
    (hfree : positions.lookup k = none) (hstate : p.state ≠ .active)
    (hcount : entry.activePositions = countOf stats p.depositor)
    (hvalue : entry.activeValue = valueOf stats p.depositor) :
    InStep (positions.insert k p) index wReal nReal
      (Function.update stats p.depositor (some entry)) := by
  have hsub : ∀ x q, (positions.insert k p).lookup x = some q → q.state = .active →
      positions.lookup x = some q := by
    intro x q hq hactive
    by_cases hx : x = k
    · subst hx
      rw [Finmap.lookup_insert, Option.some.injEq] at hq
      exact absurd hactive (hq ▸ hstate)
    · exact Finmap.lookup_insert_of_ne _ hx ▸ hq
  have hsum : ∀ f, sumActive f (positions.insert k p) = sumActive f positions :=
    fun f => sumActive_intake f hfree hstate
  exact {
    slots := by
      have hleaves : leavesOf (positions.insert k p) = leavesOf positions := funext fun _ => hsum _
      rw [hleaves]
      exact h.slots
    attested := fun x q hq hactive => h.attested x q (hsub x q hq hactive) hactive
    distinct := fun x x' q q' hq hq' hactive hactive' =>
      h.distinct x x' q q' (hsub x q hq hactive) (hsub x' q' hq' hactive') hactive hactive'
    total := h.total.trans (hsum _).symm
    wReal := h.wReal
    nReal := h.nReal.trans (hsum _).symm
    count := by
      intro owner
      rw [hsum, ← h.count owner]
      by_cases ho : owner = p.depositor
      · subst ho; simp [countOf, hcount]
      · simp [countOf, ho]
    value := by
      intro owner
      rw [hsum, ← h.value owner]
      by_cases ho : owner = p.depositor
      · subst ho; simp [valueOf, hvalue]
      · simp [valueOf, ho] }

-- ---------------------------------------------------------------------------
-- Writes that move weight
-- ---------------------------------------------------------------------------

theorem InStep.leavesOf_insert (h : InStep positions index wReal nReal stats)
    (hp : positions.lookup k = some p) {slot : ℕ}
    (hslot : p.state = .active → p.slotIndex = slot)
    (hslot' : p'.state = .active → p'.slotIndex = slot)
    (hfree : p.state ≠ .active → leavesOf positions slot = 0) :
    leavesOf (positions.insert k p')
      = Function.update (leavesOf positions) slot (p'.share fun q => weight q.recordedValue) := by
  have hshare : ∀ q : Position, (q.state = .active → q.slotIndex = slot) → ∀ x,
      q.share (leafAt x) = if x = slot then q.share fun q => weight q.recordedValue else 0 := by
    intro q hq x
    by_cases hactive : q.state = .active
    · simp [Position.share_active hactive, leafAt, hq hactive, eq_comm]
    · simp [Position.share_inactive hactive]
  have hbefore : leavesOf positions slot = p.share fun q => weight q.recordedValue := by
    by_cases hactive : p.state = .active
    · rw [← hslot hactive, h.leaf hp hactive, Position.share_active hactive]
    · rw [hfree hactive, Position.share_inactive hactive]
  funext x
  have hwrite := sumActive_write (leafAt x) p' hp
  rw [hshare p hslot, hshare p' hslot'] at hwrite
  by_cases hx : x = slot
  · subst hx
    simp only [if_true] at hwrite
    rw [Function.update_self]
    unfold leavesOf at *
    omega
  · rw [if_neg hx, if_neg hx] at hwrite
    rw [Function.update_of_ne hx]
    unfold leavesOf
    omega

/-- A position enters, leaves or moves within the active set, and every record follows it. -/
theorem InStep.rewrite (h : InStep positions index wReal nReal stats) (p' : Position) (slot : ℕ)
    (hp : positions.lookup k = some p) {wReal' nReal' : ℕ} {entry entry' : WalletStats}
    (hslot : p.state = .active → p.slotIndex = slot)
    (hslot' : p'.state = .active → p'.slotIndex = slot)
    (hfree : p.state ≠ .active → leavesOf positions slot = 0)
    (hattested : p'.state = .active → 0 < p'.recordedValue ∧ p'.recordedValue ≤ WEIGHT_C)
    (howner : p'.depositor = p.depositor)
    (hindex : index'.Inv (Function.update (leavesOf positions) slot
      (p'.share fun q => weight q.recordedValue)))
    (htotal : index'.slots.totalWeight = wReal')
    (hwReal : wReal' + (p.share fun q => weight q.recordedValue)
      = wReal + p'.share fun q => weight q.recordedValue)
    (hnReal : nReal' + (p.share fun _ => 1) = nReal + p'.share fun _ => 1)
    (hentry : stats p.depositor = some entry)
    (hcount : entry'.activePositions + (p.share fun _ => 1)
      = entry.activePositions + p'.share fun _ => 1)
    (hvalue : entry'.activeValue + (p.share fun q => q.recordedValue)
      = entry.activeValue + p'.share fun q => q.recordedValue) :
    InStep (positions.insert k p') index' wReal' nReal'
      (Function.update stats p.depositor (some entry')) where
  slots := by
    rw [h.leavesOf_insert hp hslot hslot' hfree]
    exact hindex
  attested := by
    intro x q hq hactive
    by_cases hx : x = k
    · subst hx
      rw [Finmap.lookup_insert, Option.some.injEq] at hq
      subst hq
      exact hattested hactive
    · exact h.attested x q (Finmap.lookup_insert_of_ne _ hx ▸ hq) hactive
  distinct := by
    -- No other active position stands at the slot, whether `p` held it or it was free.
    have hother : ∀ x q, x ≠ k → positions.lookup x = some q → q.state = .active →
        q.slotIndex ≠ slot := by
      intro x q hx hq hactive heq
      by_cases hold : p.state = .active
      · exact hx (h.distinct x k q p hq hp hactive hold (heq.trans (hslot hold).symm))
      · have hzero := hfree hold
        have hleaf := InStep.leaf_le hq hactive
        obtain ⟨h0, hC⟩ := h.attested x q hq hactive
        have hpos := weight_pos h0 hC
        rw [heq] at hleaf
        omega
    intro x x' q q' hq hq' hactive hactive' heq
    by_cases hx : x = k <;> by_cases hx' : x' = k
    · rw [hx, hx']
    · subst hx
      rw [Finmap.lookup_insert, Option.some.injEq] at hq
      subst hq
      rw [Finmap.lookup_insert_of_ne _ hx'] at hq'
      exact absurd (heq.symm.trans (hslot' hactive)) (hother x' q' hx' hq' hactive')
    · subst hx'
      rw [Finmap.lookup_insert, Option.some.injEq] at hq'
      subst hq'
      rw [Finmap.lookup_insert_of_ne _ hx] at hq
      exact absurd (heq.trans (hslot' hactive')) (hother x q hx hq hactive)
    · exact h.distinct x x' q q' (Finmap.lookup_insert_of_ne _ hx ▸ hq)
        (Finmap.lookup_insert_of_ne _ hx' ▸ hq') hactive hactive' heq
  total := by
    have hsum := sumActive_write (fun q => weight q.recordedValue) p' hp
    have := h.total
    have := h.wReal
    omega
  wReal := htotal.symm
  nReal := by
    have hsum := sumActive_write (fun _ => 1) p' hp
    have := h.nReal
    omega
  count := by
    intro owner
    have hsum := sumActive_write (ownedCount owner) p' hp
    have hbefore := h.count owner
    have hshare : ∀ q : Position, q.depositor = p.depositor →
        q.share (ownedCount owner) = if owner = p.depositor then q.share fun _ => 1 else 0 := by
      intro q hq
      by_cases hactive : q.state = .active
      · simp [Position.share_active hactive, ownedCount, hq, eq_comm]
      · simp [Position.share_inactive hactive]
    rw [hshare p rfl, hshare p' howner] at hsum
    by_cases ho : owner = p.depositor
    · subst ho
      simp only [if_true, countOf, hentry, Function.update_self, Option.map_some,
        Option.getD_some] at *
      omega
    · simp only [ho, if_false, countOf, ne_eq, not_false_eq_true, Function.update_of_ne] at *
      omega
  value := by
    intro owner
    have hsum := sumActive_write (ownedValue owner) p' hp
    have hbefore := h.value owner
    have hshare : ∀ q : Position, q.depositor = p.depositor →
        q.share (ownedValue owner)
          = if owner = p.depositor then q.share fun q => q.recordedValue else 0 := by
      intro q hq
      by_cases hactive : q.state = .active
      · simp [Position.share_active hactive, ownedValue, hq, eq_comm]
      · simp [Position.share_inactive hactive]
    rw [hshare p rfl, hshare p' howner] at hsum
    by_cases ho : owner = p.depositor
    · subst ho
      simp only [if_true, valueOf, hentry, Function.update_self, Option.map_some,
        Option.getD_some] at *
      omega
    · simp only [ho, if_false, valueOf, ne_eq, not_false_eq_true, Function.update_of_ne] at *
      omega

theorem InStep.departed {pool : Pool} {targets : BlankTargets} {entry : WalletStats}
    (h : InStep positions index pool.wReal pool.nReal stats) (p' : Position)
    (hp : positions.lookup k = some p) (hfrom : DepartsFrom pool p entry targets)
    (hentry : stats p.depositor = some entry)
    (hindex : index.remove p.slotIndex p.recordedValue (pool.wReal - weight p.recordedValue)
      = .ok index') (howner : p'.depositor = p.depositor) (hinactive : p'.state ≠ .active) :
    InStep (positions.insert k p') index' (pool.wReal - weight p.recordedValue) (pool.nReal - 1)
      (Function.update stats p.depositor (some (entry.without p.recordedValue))) := by
  obtain ⟨-, hactive, -, -, hweight, hnReal, hcount, hvalue, -, -⟩ := hfrom
  obtain ⟨-, -, -, -, -, hinv, htotal, -⟩ := WeightIndex.remove_ok h.slots hindex
  refine h.rewrite p' p.slotIndex hp (fun _ => rfl)
    (fun ha => absurd ha hinactive) (fun hn => absurd hactive hn) (fun ha => absurd ha hinactive)
    howner ?_ htotal ?_ ?_ hentry ?_ ?_
  · rw [Position.share_inactive hinactive]
    exact hinv
  all_goals
    rw [Position.share_active hactive, Position.share_inactive hinactive]
    exact Nat.sub_add_cancel ‹_›

end Reading

-- ---------------------------------------------------------------------------
-- Moves
-- ---------------------------------------------------------------------------

theorem Tier.settleMember_neutral {q q' : Position} {accTier : ℕ}
    (h : Tier.settleMember q accTier = .ok q') : Neutral q q' := by
  obtain ⟨-, -, rfl⟩ := Tier.settleMember_ok.mp h
  exact .inr ⟨rfl, rfl, rfl, rfl⟩

theorem Move.synced {L L' : Ledger} (hmove : Move L L') (hranked : L.Ranked) (h : L.Synced) :
    L'.Synced := by
  cases hmove with
  | @activate k p stats index targets value slot observedAt now lockUntil hp hstate hopen hstats
      hindex htargets =>
    have hinactive : p.state ≠ .active := by rw [hstate]; decide
    obtain ⟨h0, hC, -, -, hinv, hzero, -, htotal, -⟩ := WeightIndex.insert_ok h.slots hindex
    refine h.rewrite (p.activated value slot L.pool.accEqual observedAt now lockUntil) slot
      hp (fun ha => absurd ha hinactive) (fun _ => rfl) (fun _ => hzero)
      (fun _ => ⟨h0, hC⟩) rfl ?_ htotal ?_ ?_ hstats ?_ ?_
    · rw [Position.share_active rfl]
      exact hinv
    all_goals simp [Position.share, Position.activated, Pool.rebalanced, hinactive]
  | @revalue k p stats index topTier targets value wReal activeValue observedAt hp hactive hopen
      hstats hindex hweight hvalue htargets hmember hother =>
    have hactive' : (p.revalued value observedAt).state = .active := hactive
    obtain ⟨h0, hC, -, -, hleaf, hinv, htotal, -⟩ := WeightIndex.update_ok h.slots hindex
    refine h.rewrite (p.revalued value observedAt) p.slotIndex hp (fun _ => rfl)
      (fun _ => rfl) (fun hn => absurd hactive hn) (fun _ => ⟨h0, hC⟩) rfl ?_ htotal ?_ ?_
      hstats ?_ ?_
    · rw [Position.share_active hactive']
      exact hinv
    · rw [Position.share_active hactive, Position.share_active hactive']
      exact hweight
    · rw [Position.share_active hactive, Position.share_active hactive']
      rfl
    · rw [Position.share_active hactive, Position.share_active hactive']
    · rw [Position.share_active hactive, Position.share_active hactive']
      exact hvalue
  | @depart k p stats index targets state value observedAt hp htier hfrom hstats hafter hindex =>
    exact h.departed _ hp hfrom hstats hindex rfl
      (by obtain rfl | rfl := hafter <;> simp [Position.departed, Position.revalued])
  | @withdraw k p stats index targets hp htier hfrom hstats howed hvault hindex =>
    -- The position is closed where it stands, and then its account goes.
    have hclosed := h.departed { p with state := .closedBelowFloor } hp hfrom hstats hindex rfl
      (by simp)
    have herased := hclosed.erase (Finmap.lookup_insert _) (by simp)
    rwa [Store.erase_insert_self] at herased
  | leave hp _ _ hvacate =>
    obtain ⟨-, hsettle⟩ := Tier.vacate_ok hranked.len_le_max hvacate
    exact h.neutral hp (Tier.settleMember_neutral hsettle)
  | join hp => exact h.neutral hp (.inr ⟨rfl, rfl, rfl, rfl⟩)
  | @swap k p q q' topTier evicted hp hstate htier hpromote hq hsettle =>
    have hevicted := h.neutral hq (Tier.settleMember_neutral hsettle)
    by_cases hk : k = evicted.position
    · subst hk
      obtain rfl : p = q := Option.some.inj (hp.symm.trans hq)
      obtain ⟨-, -, rfl⟩ := Tier.settleMember_ok.mp hsettle
      exact hevicted.neutral (Finmap.lookup_insert _) (.inr ⟨rfl, rfl, rfl, rfl⟩)
    · exact hevicted.neutral (p := p) (by rw [Finmap.lookup_insert_of_ne _ hk, hp])
        (.inr ⟨rfl, rfl, rfl, rfl⟩)
  | @retire k p state reason hp hstate hafter =>
    exact h.neutral hp (.inl ⟨hstate, by obtain rfl | rfl := hafter <;> simp⟩)
  | release hp hstate => exact h.erase hp hstate
  | commit => exact h
  | tick => exact h
  | credit => exact h

theorem Moves.synced {L L' : Ledger} (hmoves : Moves L L') (hranked : L.Ranked) (h : L.Synced) :
    L'.Synced := by
  induction hmoves with
  | refl => exact h
  | tail hmoves hmove ih => exact hmove.synced (Moves.ranked hmoves hranked) ih

theorem Intake.synced {L L' : Ledger} (hintake : Intake L L') (h : L.Synced) : L'.Synced := by
  cases hintake with
  | intro hfree hstate _ _ _ hcount hvalue =>
    exact InStep.intake h hfree (by rw [hstate]; decide) hcount hvalue

theorem SettledAll.inStep {accTier : ℕ} {evicted : List TierEntry}
    {positions positions' : Positions} {index : WeightIndex} {wReal nReal : ℕ}
    {stats : Pubkey → Option WalletStats}
    (hsettled : SettledAll accTier evicted positions positions')
    (h : InStep positions index wReal nReal stats) : InStep positions' index wReal nReal stats :=
  hsettled.keep (motive := fun _ positions => InStep positions index wReal nReal stats)
    (fun _ _ _ _ _ hin hq hsettle => hin.neutral hq (Tier.settleMember_neutral hsettle)) h

/-- What no configuration move touches. -/
structure SameLedger (pool pool' : Pool) : Prop where
  poolId : pool'.poolId = pool.poolId
  weightIndex : pool'.weightIndex = pool.weightIndex
  wReal : pool'.wReal = pool.wReal
  nReal : pool'.nReal = pool.nReal
  blanks : pool'.blanks = pool.blanks
  openBatches : pool'.openBatches = pool.openBatches
  pendingRollLiability : pool'.pendingRollLiability = pool.pendingRollLiability
  owedFees : pool'.owedFees = pool.owedFees
  accEqual : pool'.accEqual = pool.accEqual

theorem applyUpdate_sameLedger (pool : Pool) (update : ConfigUpdate) :
    SameLedger pool (applyUpdate pool update) := by
  cases update <;> constructor <;> rfl

theorem applyUpdate_targets {pool : Pool} {update : ConfigUpdate}
    (h : requiresWeightFreeze pool update = false) :
    (applyUpdate pool update).blankFaces = pool.blankFaces ∧
      (applyUpdate pool update).ticketTarget = pool.ticketTarget := by
  cases update with
  | blankFaces faces => cases h
  | pricing price ticketTarget fee =>
    simp only [requiresWeightFreeze, bne_eq_false_iff_eq] at h
    exact ⟨rfl, h⟩
  | _ => exact ⟨rfl, rfl⟩

theorem Configure.synced {L L' : Ledger} {update : ConfigUpdate} (hconfig : Configure update L L')
    (h : L.Synced) : L'.Synced := by
  cases hconfig with
  | @intro topTier positions hvalid hfreeze hdemote =>
    obtain ⟨-, -, hwReal, hnReal, -, -, -, -, -⟩ := applyUpdate_sameLedger L.pool update
    have hkeep : InStep positions L.weightIndex L.pool.wReal L.pool.nReal L.walletStats := by
      cases update with
      | tierSize value =>
        obtain ⟨evicted, -, hsettled⟩ := hdemote
        exact hsettled.inStep h
      | _ =>
        obtain ⟨-, rfl⟩ := hdemote
        exact h
    simpa only [Ledger.Synced, hwReal, hnReal] using hkeep

end ByeMachine
