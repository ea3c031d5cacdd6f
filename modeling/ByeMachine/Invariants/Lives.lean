import ByeMachine.Invariants.Settlement
import ByeMachine.Refinement.Fate

/-!
# The life of a position

A pool's ids are never given twice, so an address and an id name one deposit.
Over its life a position takes up weight at most once, and gives back what it
took up once.
-/

namespace ByeMachine

open Fallible

variable {X : Programs} {allowed : Chain → Instr → Prop} {may : Ledger → Settlement → Prop}
  {c c' c₀ : Chain} {pool k nftMint : Pubkey} {id : ℕ}

-- ---------------------------------------------------------------------------
-- Ids
-- ---------------------------------------------------------------------------

theorem Move.positionCounter {L L' : Ledger} (h : Move L L') :
    L'.pool.positionCounter = L.pool.positionCounter := by
  cases h <;> rfl

theorem Moves.positionCounter {L L' : Ledger} (h : Moves L L') :
    L'.pool.positionCounter = L.pool.positionCounter := by
  induction h with
  | refl => rfl
  | tail _ hmove ih => exact hmove.positionCounter.trans ih

theorem Change.positionCounter_le {L L' : Ledger} {update : Option ConfigUpdate}
    (h : Change update L L') : L.pool.positionCounter ≤ L'.pool.positionCounter := by
  cases h with
  | moves hmoves => exact (Moves.positionCounter hmoves).ge
  | intake hintake hmoves =>
    rw [Moves.positionCounter hmoves]
    cases hintake
    exact Nat.le_succ _
  | @configure _ u _ hconfig =>
    cases hconfig
    cases u <;> exact le_rfl

/-- The id was given out by the pool. -/
def Past (c : Chain) (pool : Pubkey) (id : ℕ) : Prop :=
  ∃ L, c.Reads pool L ∧ id < L.pool.positionCounter

theorem Chain.Sound.past (h : c.Sound) {p : Position} (hp : c.positions.lookup k = some p) :
    Past c p.pool p.positionId := by
  obtain ⟨L, hL⟩ := h.wellFormed.ofPosition hp
  exact ⟨L, hL, (h.ranked p.pool L hL).identified.below k p (hL.lookup.mpr ⟨hp, rfl⟩)⟩

theorem StepWhere.past (h : StepWhere X allowed c c') (hsound : c.Sound)
    (hpast : Past c pool id) : Past c' pool id := by
  obtain ⟨L, hL, hlt⟩ := hpast
  obtain ⟨configures, heffect, -⟩ := h.effect hsound
  obtain ⟨L', hL', hchange⟩ := heffect.forward hsound.wellFormed hL
  exact ⟨L', hL', hlt.trans_le hchange.positionCounter_le⟩

theorem SettlingStep.past (h : SettlingStep X may c c') (hsound : c.Sound)
    (hpast : Past c pool id) : Past c' pool id := by
  cases h with
  | run hstep => exact hstep.past hsound hpast
  | @settle key L s hL =>
    obtain ⟨M, hM, hlt⟩ := hpast
    by_cases hkey : pool = key
    · subst hkey
      obtain rfl := hM.unique hL
      exact ⟨_, settle_reads hsound.wellFormed hL, hlt⟩
    · exact ⟨M, settle_reads_other hsound.wellFormed hL hkey hM, hlt⟩

-- ---------------------------------------------------------------------------
-- States
-- ---------------------------------------------------------------------------

/-- How the state of a deposit moves. -/
inductive Transition : PositionState → PositionState → Prop where
  | stay (s : PositionState) : Transition s s
  | approve : Transition .pending .active
  | reject : Transition .pending .rejected
  | close : Transition .active .closedBelowFloor
  | seize {s : PositionState} (hs : s ≠ .seized) : Transition s .seized

/-- What stands at an address under an id already given out stood there before, and its state
moved by a transition. -/
theorem Fate.transition {clock : Clock} {instr : Instr} {before after : Option Position}
    {q : Position} (h : Fate X clock c k instr before after) (hkey : k = .position pool nftMint)
    (hpast : Past c pool id) (hq : after = some q) (hid : q.positionId = id) :
    ∃ p, before = some p ∧ p.positionId = id ∧ Transition p.state q.state := by
  have hfresh : ∀ {record : Pool}, c.pools.lookup pool = some record →
      record.positionCounter ≠ id := by
    rintro record hpool rfl
    obtain ⟨L, hL, hlt⟩ := hpast
    obtain rfl := Option.some.inj (hL.pool.symm.trans hpool)
    exact Nat.lt_irrefl _ hlt
  have hsame : ∀ {p q : Position}, q.terms = p.terms → q.state = p.state ∧
      q.positionId = p.positionId := by
    intro p q hterms
    have hstate := congrArg Position.state hterms
    have hpid := congrArg Position.positionId hterms
    exact ⟨hstate, hpid⟩
  cases h with
  | kept hterms =>
    rw [hq] at hterms
    obtain ⟨p, hp, hpq⟩ := Option.map_eq_some_iff.mp hterms.symm
    obtain ⟨hstate, hpid⟩ := hsame hpq.symm
    exact ⟨p, hp, hpid.symm.trans hid, hstate ▸ .stay _⟩
  | taken hkey' hpool | takenCore hkey' hpool =>
    -- A card taken in gets the next id.
    rw [hkey, Pubkey.position.injEq] at hkey'
    obtain rfl := Option.some.inj hq
    exact absurd hid (hfresh (hkey'.1 ▸ hpool))
  | @approved _ _ _ _ _ _ _ _ p _ hpending hterms =>
    obtain rfl := Option.some.inj hq
    obtain ⟨hstate, hpid⟩ := hsame hterms
    exact ⟨p, rfl, hpid.symm.trans hid, by rw [hpending, hstate]; exact .approve⟩
  | @rejected _ _ p hpending =>
    obtain rfl := Option.some.inj hq
    exact ⟨p, rfl, hid, by rw [hpending]; exact .reject⟩
  | @revalued _ _ _ _ _ _ p _ _ _ _ hterms =>
    obtain rfl := Option.some.inj hq
    obtain ⟨hstate, hpid⟩ := hsame hterms
    exact ⟨p, rfl, hpid.symm.trans hid, by rw [hstate]; exact .stay _⟩
  | @closed _ _ _ _ _ _ p _ _ hactive _ hterms =>
    obtain rfl := Option.some.inj hq
    obtain ⟨hstate, hpid⟩ := hsame hterms
    exact ⟨p, rfl, hpid.symm.trans hid, by rw [hactive, hstate]; exact .close⟩
  | @seized _ _ _ _ _ p _ _ hnot _ _ hterms =>
    obtain rfl := Option.some.inj hq
    obtain ⟨hstate, hpid⟩ := hsame hterms
    exact ⟨p, rfl, hpid.symm.trans hid, by rw [hstate]; exact .seize hnot⟩
  | released => cases hq

theorem StepWhere.transition {q : Position} (h : StepWhere X allowed c c')
    (hkey : k = .position pool nftMint) (hpast : Past c pool id)
    (hq : c'.positions.lookup k = some q) (hid : q.positionId = id) :
    ∃ p, c.positions.lookup k = some p ∧ p.positionId = id ∧ Transition p.state q.state := by
  cases h with
  | elsewhere => exact ⟨q, hq, hid, .stay _⟩
  | instruction clock instr events permitted run =>
    exact (exec_fate run k).transition hkey hpast hq hid

theorem SettlingStep.transition {q : Position} (h : SettlingStep X may c c')
    (hkey : k = .position pool nftMint) (hpast : Past c pool id)
    (hq : c'.positions.lookup k = some q) (hid : q.positionId = id) :
    ∃ p, c.positions.lookup k = some p ∧ p.positionId = id ∧ Transition p.state q.state := by
  cases h with
  | run hstep => exact hstep.transition hkey hpast hq hid
  | settle =>
    rw [settle_positions] at hq
    exact ⟨q, hq, hid, .stay _⟩

-- ---------------------------------------------------------------------------
-- Weight, over a life
-- ---------------------------------------------------------------------------

/-- The position deposited under this id holds weight. -/
def Weighs (c : Chain) (k : Pubkey) (id : ℕ) : Prop :=
  ∃ p, c.positions.lookup k = some p ∧ p.positionId = id ∧ p.state = .active

/-- A run, with how often the position deposited under this id took up weight and gave it back. -/
inductive Weighings (X : Programs) (may : Ledger → Settlement → Prop) (k : Pubkey) (id : ℕ)
    (c₀ : Chain) : Chain → ℕ → ℕ → Prop where
  | start : Weighings X may k id c₀ c₀ 0 0
  | same {c c' : Chain} {taken given : ℕ} (hrun : Weighings X may k id c₀ c taken given)
      (hstep : SettlingStep X may c c') (hsame : Weighs c' k id ↔ Weighs c k id) :
      Weighings X may k id c₀ c' taken given
  | taken {c c' : Chain} {taken given : ℕ} (hrun : Weighings X may k id c₀ c taken given)
      (hstep : SettlingStep X may c c') (hbefore : ¬Weighs c k id) (hafter : Weighs c' k id) :
      Weighings X may k id c₀ c' (taken + 1) given
  | given {c c' : Chain} {taken given : ℕ} (hrun : Weighings X may k id c₀ c taken given)
      (hstep : SettlingStep X may c c') (hbefore : Weighs c k id) (hafter : ¬Weighs c' k id) :
      Weighings X may k id c₀ c' taken (given + 1)

theorem Weighings.steps {taken given : ℕ} (h : Weighings X may k id c₀ c taken given) :
    Relation.ReflTransGen (SettlingStep X may) c₀ c := by
  induction h with
  | start => exact .refl
  | same _ hstep _ ih | taken _ hstep _ _ ih | given _ hstep _ _ ih => exact ih.tail hstep

theorem Weighings.exist (k : Pubkey) (id : ℕ)
    (h : Relation.ReflTransGen (SettlingStep X may) c₀ c) :
    ∃ taken given, Weighings X may k id c₀ c taken given := by
  induction h with
  | refl => exact ⟨0, 0, .start⟩
  | @tail c c' _ hstep ih =>
    obtain ⟨taken, given, hrun⟩ := ih
    by_cases hbefore : Weighs c k id
    · by_cases hafter : Weighs c' k id
      · exact ⟨_, _, .same hrun hstep ⟨fun _ => hbefore, fun _ => hafter⟩⟩
      · exact ⟨_, _, .given hrun hstep hbefore hafter⟩
    · by_cases hafter : Weighs c' k id
      · exact ⟨_, _, .taken hrun hstep hbefore hafter⟩
      · exact ⟨_, _, .same hrun hstep ⟨fun h => absurd h hafter, fun h => absurd h hbefore⟩⟩

/-- The deposit has held weight and can never hold it again. -/
def Spent (c : Chain) (k : Pubkey) (id : ℕ) : Prop :=
  ∃ pool nftMint, k = .position pool nftMint ∧ Past c pool id ∧
    ∀ q, c.positions.lookup k = some q → q.positionId = id → q.state ≠ .pending ∧ q.state ≠ .active

theorem Spent.not_weighs (h : Spent c k id) : ¬Weighs c k id := by
  rintro ⟨p, hp, hid, hactive⟩
  obtain ⟨pool, nftMint, -, -, hstates⟩ := h
  exact (hstates p hp hid).2 hactive

theorem Spent.step (h : Spent c k id) (hsound : c.Sound) (hstep : SettlingStep X may c c') :
    Spent c' k id := by
  obtain ⟨pool, nftMint, hkey, hpast, hstates⟩ := h
  refine ⟨pool, nftMint, hkey, hstep.past hsound hpast, fun q hq hid => ?_⟩
  obtain ⟨p, hp, hpid, htransition⟩ := hstep.transition hkey hpast hq hid
  obtain ⟨hpending, hactive⟩ := hstates p hp hpid
  generalize p.state = before, q.state = after at htransition hpending hactive
  cases htransition with
  | stay => exact ⟨hpending, hactive⟩
  | approve | reject => exact absurd rfl hpending
  | close => exact absurd rfl hactive
  | seize => exact ⟨by decide, by decide⟩

theorem Weighs.spent (h : Weighs c k id) (hsound : c.Sound) (hstep : SettlingStep X may c c')
    (hafter : ¬Weighs c' k id) : Spent c' k id := by
  obtain ⟨p, hp, rfl, hactive⟩ := h
  have hkey := hsound.wellFormed.positionKey k p hp
  have hpast := hsound.past hp
  refine ⟨p.pool, p.nftMint, hkey, hstep.past hsound hpast, fun q hq hid => ?_⟩
  obtain ⟨r, hr, -, htransition⟩ := hstep.transition hkey hpast hq hid
  obtain rfl := Option.some.inj (hp.symm.trans hr)
  refine ⟨fun hpending => ?_, fun hstill => hafter ⟨q, hq, hid, hstill⟩⟩
  rw [hactive, hpending] at htransition
  cases htransition

/-- A position takes up weight at most once, and has given back what it took up exactly when it
holds none. -/
theorem Weighings.once {taken given : ℕ} (h : Weighings X may k id c₀ c taken given)
    (hgenesis : Genesis c₀) :
    taken ≤ 1 ∧ given ≤ taken ∧ (given = taken ↔ ¬Weighs c k id) := by
  suffices hstage : (Weighs c k id ∧ taken = 1 ∧ given = 0) ∨
      (¬Weighs c k id ∧ taken = 0 ∧ given = 0) ∨ (Spent c k id ∧ taken = 1 ∧ given = 1) by
    rcases hstage with ⟨hweighs, rfl, rfl⟩ | ⟨hnot, rfl, rfl⟩ | ⟨hspent, rfl, rfl⟩
    · simp [hweighs]
    · simp [hnot]
    · simp [hspent.not_weighs]
  induction h with
  | start =>
    refine .inr (.inl ⟨?_, rfl, rfl⟩)
    rintro ⟨p, hp, -, -⟩
    rw [hgenesis.positions] at hp
    cases hp
  | same hrun hstep hsame ih =>
    have hsound : Chain.Sound _ := SettlingReachable.sound ⟨_, hgenesis, hrun.steps⟩
    rcases ih with ⟨hweighs, hcounts⟩ | ⟨hnot, hcounts⟩ | ⟨hspent, hcounts⟩
    · exact .inl ⟨hsame.mpr hweighs, hcounts⟩
    · exact .inr (.inl ⟨fun hafter => hnot (hsame.mp hafter), hcounts⟩)
    · exact .inr (.inr ⟨hspent.step hsound hstep, hcounts⟩)
  | taken hrun hstep hbefore hafter ih =>
    have hsound : Chain.Sound _ := SettlingReachable.sound ⟨_, hgenesis, hrun.steps⟩
    rcases ih with ⟨hweighs, -⟩ | ⟨-, rfl, rfl⟩ | ⟨hspent, -⟩
    · exact absurd hweighs hbefore
    · exact .inl ⟨hafter, rfl, rfl⟩
    · exact absurd hafter (hspent.step hsound hstep).not_weighs
  | given hrun hstep hbefore hafter ih =>
    have hsound : Chain.Sound _ := SettlingReachable.sound ⟨_, hgenesis, hrun.steps⟩
    rcases ih with ⟨-, rfl, rfl⟩ | ⟨hnot, -⟩ | ⟨hspent, -⟩
    · exact .inr (.inr ⟨hbefore.spent hsound hstep hafter, rfl, rfl⟩)
    · exact absurd hbefore hnot
    · exact absurd hbefore hspent.not_weighs

end ByeMachine
