import ByeMachine.Invariants.Runs
import ByeMachine.Script

/-!
# What the settlement of a roll writes

The accumulators, the owed fees, the roll liability and the count of open
batches move when a batch is settled, which no instruction here does. Runs that
a settlement interrupts stay sound, whatever it writes.
-/

namespace ByeMachine

open Fallible

/-- The fields of a pool and its tier that a settlement writes. -/
structure Settlement where
  accEqual : ℕ
  accTier : ℕ
  owedFees : ℕ
  pendingRollLiability : ℕ
  openBatches : ℕ
  deriving DecidableEq, Repr

def Pool.settled (pool : Pool) (s : Settlement) : Pool :=
  { pool with
    accEqual := s.accEqual, owedFees := s.owedFees
    pendingRollLiability := s.pendingRollLiability, openBatches := s.openBatches }

def Ledger.settled (L : Ledger) (s : Settlement) : Ledger :=
  { L with pool := L.pool.settled s, topTier := { L.topTier with accTier := s.accTier } }

/-- The settlement written to a pool, where there is one. -/
def Chain.settle (c : Chain) (key : Pubkey) (s : Settlement) : Chain :=
  match c.ledger key with
  | none => c
  | some L => { c with
      pools := c.pools.insert key (L.pool.settled s)
      topTiers := c.topTiers.insert (.topTier key) { L.topTier with accTier := s.accTier } }

variable {c : Chain} {key other : Pubkey} {L : Ledger} {s : Settlement}

theorem settle_positions (c : Chain) (key : Pubkey) (s : Settlement) :
    (c.settle key s).positions = c.positions := by
  unfold Chain.settle
  split <;> rfl

theorem settle_tokens (c : Chain) (key : Pubkey) (s : Settlement) :
    (c.settle key s).tokens = c.tokens := by
  unfold Chain.settle
  split <;> rfl

theorem settle_externals (c : Chain) (key : Pubkey) (s : Settlement) :
    (c.settle key s).externals = c.externals := by
  unfold Chain.settle
  split <;> rfl

theorem settle_rollBatches (c : Chain) (key : Pubkey) (s : Settlement) :
    (c.settle key s).rollBatches = c.rollBatches := by
  unfold Chain.settle
  split <;> rfl

theorem settle_touches (hwf : c.WellFormed) (hL : c.Reads key L) :
    Touches c (c.settle key s) key L (L.settled s) := by
  have hrun : c.settle key s = { c with
      pools := c.pools.insert key (L.pool.settled s)
      topTiers := c.topTiers.insert (.topTier key) { L.topTier with accTier := s.accTier } } := by
    rw [Chain.settle, ledger_eq_some.mpr hL]
  rw [hrun]
  exact Touches.of_write_pool hL rfl rfl rfl rfl rfl (.refl hwf.positionKey) hL.positions.symm rfl
    (.of_eq hwf hL rfl rfl)

theorem settle_reads (hwf : c.WellFormed) (hL : c.Reads key L) :
    (c.settle key s).Reads key (L.settled s) := (settle_touches hwf hL).after

theorem settle_reads_other (hwf : c.WellFormed) (hL : c.Reads key L) (hne : other ≠ key)
    {M : Ledger} (hM : c.Reads other M) : (c.settle key s).Reads other M := by
  have htouches := settle_touches (s := s) hwf hL
  have hindex : M.pool.weightIndex ≠ L.pool.weightIndex := fun heq =>
    hne (hwf.indexOwner other key M.pool L.pool hM.pool hL.pool heq)
  have hsame : (c.settle key s).tokens = c.tokens ∧ (c.settle key s).positions = c.positions := by
    rw [Chain.settle, ledger_eq_some.mpr hL]
    exact ⟨rfl, rfl⟩
  exact {
    pool := (htouches.pools other hne).trans hM.pool
    weightIndex := (htouches.indexes _ hindex).trans hM.weightIndex
    topTier := (htouches.topTiers other hne).trans hM.topTier
    positions := by rw [hM.positions, hsame.2]
    walletStats := fun owner => (hM.walletStats owner).trans
      (htouches.walletStats other owner hne).symm
    vault := by
      rw [hsame.1]
      exact hM.vault }

/-- Every ledger after a settlement was there before, and is the settled one at its key. -/
theorem settle_backward (hwf : c.WellFormed) (hL : c.Reads key L) {M : Ledger}
    (hM : (c.settle key s).Reads other M) :
    other = key ∧ M = L.settled s ∨ other ≠ key ∧ c.Reads other M := by
  by_cases hother : other = key
  · subst hother
    exact .inl ⟨rfl, hM.unique (settle_reads hwf hL)⟩
  · refine .inr ⟨hother, ?_⟩
    have hpool := hM.pool
    rw [(settle_touches (s := s) hwf hL).pools other hother] at hpool
    obtain ⟨N, hN⟩ := hwf.ledger other M.pool hpool
    obtain rfl := hM.unique (settle_reads_other hwf hL hother (ledger_eq_some.mp hN))
    exact ledger_eq_some.mp hN

theorem Ledger.Ranked.settled (h : L.Ranked) : (L.settled s).Ranked :=
  ⟨h.listed, h.identified, h.len_le, h.tierSize_pos, h.tierSize_le⟩

theorem Ledger.Synced.settled (h : L.Synced) : (L.settled s).Synced := h

theorem Chain.Sound.settle (h : c.Sound) (hL : c.Reads key L) : (c.settle key s).Sound where
  wellFormed := (settle_touches h.wellFormed hL).wellFormed h.wellFormed
  ranked := by
    intro other M hM
    obtain ⟨rfl, rfl⟩ | ⟨-, hM'⟩ := settle_backward h.wellFormed hL hM
    · exact (h.ranked other L hL).settled
    · exact h.ranked other M hM'
  synced := by
    intro other M hM
    obtain ⟨rfl, rfl⟩ | ⟨-, hM'⟩ := settle_backward h.wellFormed hL hM
    · exact (h.synced other L hL).settled
    · exact h.synced other M hM'

-- ---------------------------------------------------------------------------
-- Runs that settlements interrupt
-- ---------------------------------------------------------------------------

/-- A step of the program, or a settlement of the kind that `may` happen. -/
inductive SettlingStep (X : Programs) (may : Ledger → Settlement → Prop) : Chain → Chain → Prop where
  | run {c c' : Chain} (hstep : Step X c c') : SettlingStep X may c c'
  | settle {c : Chain} {key : Pubkey} {L : Ledger} {s : Settlement} (hL : c.Reads key L)
      (hmay : may L s) : SettlingStep X may c (c.settle key s)

/-- What the program's instructions and such settlements reach, in any order. -/
def SettlingReachable (X : Programs) (may : Ledger → Settlement → Prop) (c : Chain) : Prop :=
  ∃ c₀, Genesis c₀ ∧ Relation.ReflTransGen (SettlingStep X may) c₀ c

section
variable {X : Programs} {may : Ledger → Settlement → Prop} {c' : Chain}

theorem SettlingStep.sound (h : SettlingStep X may c c') (hsound : c.Sound) : c'.Sound := by
  cases h with
  | run hstep => exact hstep.sound hsound
  | settle hL => exact hsound.settle hL

theorem SettlingReachable.sound (h : SettlingReachable X may c) : c.Sound := by
  obtain ⟨c₀, hgenesis, hsteps⟩ := h
  induction hsteps with
  | refl => exact hgenesis.sound
  | tail _ hstep ih => exact hstep.sound ih

theorem Reachable.settling (h : Reachable X c) : SettlingReachable X may c := by
  obtain ⟨c₀, hgenesis, hsteps⟩ := h
  exact ⟨c₀, hgenesis, hsteps.lift id fun _ _ hstep => .run hstep⟩

theorem SettlingReachable.settle (h : SettlingReachable X may c) (hL : c.Reads key L)
    (hmay : may L s) : SettlingReachable X may (c.settle key s) := by
  obtain ⟨c₀, hgenesis, hsteps⟩ := h
  exact ⟨c₀, hgenesis, hsteps.tail (.settle hL hmay)⟩

theorem SettlingReachable.step (h : SettlingReachable X may c) (hstep : Step X c c') :
    SettlingReachable X may c' := by
  obtain ⟨c₀, hgenesis, hsteps⟩ := h
  exact ⟨c₀, hgenesis, hsteps.tail (.run hstep)⟩

/-- A property a founded pool has, every change keeps and every settlement that may happen keeps
holds wherever such a run leads. -/
theorem SettlingReachable.ledger {P : Ledger → Prop} (h : SettlingReachable X may c)
    (hfounded : ∀ L, L.Founded → P L)
    (hchange : ∀ L L' update, L.Ranked → L.Synced → Change update L L' → P L → P L')
    (hsettled : ∀ L s, may L s → P L → P (L.settled s)) (hL : c.Reads key L) : P L := by
  obtain ⟨c₀, hgenesis, hsteps⟩ := h
  induction hsteps generalizing key L with
  | refl =>
    have hpool := hL.pool
    rw [hgenesis.pool_none] at hpool
    cases hpool
  | tail hsteps hstep ih =>
    have hsound : Chain.Sound _ := SettlingReachable.sound ⟨c₀, hgenesis, hsteps⟩
    cases hstep with
    | run hstep =>
      obtain ⟨configures, heffect, -⟩ := hstep.effect hsound
      obtain ⟨M, hM, hchanged⟩ | hnew := heffect.backward hsound.wellFormed hL
      · exact hchange M L _ (hsound.ranked key M hM) (hsound.synced key M hM) hchanged (ih hM)
      · exact hfounded L hnew
    | settle hM hmay =>
      obtain ⟨rfl, rfl⟩ | ⟨-, hL'⟩ := settle_backward hsound.wellFormed hM hL
      · exact hsettled _ _ hmay (ih hM)
      · exact ih hL'

end

/-- Where a script on the bank leads, a pool may be settled. -/
theorem bankRun_settled {may : Ledger → Settlement → Prop} {script : List (Clock × Instr)}
    {key : Pubkey} {s : Settlement}
    (h : (runScript bank script (bankPool (defaultArgs .default))).isOk)
    (hpool : ((bankRun script).ledger key).isSome) (hmay : ∀ L, may L s) :
    SettlingReachable bank may ((bankRun script).settle key s) := by
  obtain ⟨L, hL⟩ := Option.isSome_iff_exists.mp hpool
  exact (Reachable.settling (bankRun_reachable h)).settle (ledger_eq_some.mp hL) (hmay L)

end ByeMachine
