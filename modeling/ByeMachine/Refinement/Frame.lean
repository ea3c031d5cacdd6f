import ByeMachine.Refinement.Accounts

/-!
# The frame of an instruction

An instruction writes the accounts of one pool. Every other pool's ledger stays
as it was, but for its vault, which anyone may credit.
-/

namespace ByeMachine

open Fallible

-- ---------------------------------------------------------------------------
-- Positions
-- ---------------------------------------------------------------------------

/-- Only positions of one pool were written, and each stands at its own address. -/
structure OnlyPool (pool : Pubkey) (positions positions' : Positions) : Prop where
  other : ∀ k, (∀ nftMint, k ≠ .position pool nftMint) →
    positions'.lookup k = positions.lookup k
  keyed : ∀ k p, positions'.lookup k = some p → k = .position p.pool p.nftMint

section Positions

variable {pool k : Pubkey} {positions positions' : Positions} {p : Position}

theorem OnlyPool.refl (h : ∀ k p, positions.lookup k = some p → k = .position p.pool p.nftMint) :
    OnlyPool pool positions positions := ⟨fun _ _ => rfl, h⟩

theorem OnlyPool.write (h : OnlyPool pool positions positions') (hpool : p.pool = pool)
    (hkey : k = .position pool p.nftMint) : OnlyPool pool positions (positions'.insert k p) where
  other := by
    intro x hx
    rw [Finmap.lookup_insert_of_ne _ (by rw [hkey]; exact hx _)]
    exact h.other x hx
  keyed := by
    intro x q hq
    by_cases hx : x = k
    · subst hx
      rw [Finmap.lookup_insert, Option.some.injEq] at hq
      rw [← hq, hkey, hpool]
    · exact h.keyed x q (Finmap.lookup_insert_of_ne _ hx ▸ hq)

theorem OnlyPool.close {nftMint : Pubkey} (h : OnlyPool pool positions positions')
    (hkey : k = .position pool nftMint) : OnlyPool pool positions (positions'.erase k) where
  other := by
    intro x hx
    rw [Finmap.lookup_erase_ne (by rw [hkey]; exact hx _)]
    exact h.other x hx
  keyed := by
    intro x q hq
    by_cases hx : x = k
    · subst hx; simp at hq
    · exact h.keyed x q (Finmap.lookup_erase_ne hx ▸ hq)

theorem OnlyPool.restrict_other {other : Pubkey} (h : OnlyPool pool positions positions')
    (hkeyed : ∀ k p, positions.lookup k = some p → k = .position p.pool p.nftMint)
    (hne : other ≠ pool) :
    Store.restrict (ofPool other) positions' = Store.restrict (ofPool other) positions := by
  apply Store.ext_some
  intro x q
  simp only [Store.lookup_restrict, ofPool, decide_eq_true_eq]
  constructor
  · rintro ⟨hq, rfl⟩
    rw [h.other x fun nftMint heq => ?_] at hq
    · exact ⟨hq, rfl⟩
    · have := h.keyed x q hq
      rw [heq, Pubkey.position.injEq] at this
      exact hne this.1.symm
  · rintro ⟨hq, rfl⟩
    refine ⟨?_, rfl⟩
    rw [h.other x fun nftMint heq => ?_]
    · exact hq
    · have := hkeyed x q hq
      rw [heq, Pubkey.position.injEq] at this
      exact hne this.1.symm

theorem restrict_write (hpool : p.pool = pool) :
    Store.restrict (ofPool pool) (positions.insert k p)
      = (Store.restrict (ofPool pool) positions).insert k p :=
  Store.restrict_insert_pos (by simp [ofPool, hpool])

end Positions

-- ---------------------------------------------------------------------------
-- One pool's accounts
-- ---------------------------------------------------------------------------

/-- A batch keeps its pool and the faces it was committed under. -/
def BatchesKept (c c' : Chain) : Prop :=
  ∀ k batch, c.rollBatches.lookup k = some batch → ∃ batch', c'.rollBatches.lookup k = some batch' ∧
    batch'.pool = batch.pool ∧ batch'.sBlankFaces = batch.sBlankFaces

theorem BatchesKept.of_eq {c c' : Chain} (h : c'.rollBatches = c.rollBatches) : BatchesKept c c' :=
  fun _ batch hbatch => ⟨batch, h ▸ hbatch, rfl, rfl⟩

theorem BatchesKept.trans {c c' c'' : Chain} (h : BatchesKept c c') (h' : BatchesKept c' c'') :
    BatchesKept c c'' := by
  intro k batch hbatch
  obtain ⟨batch', hbatch', hpool, hfaces⟩ := h k batch hbatch
  obtain ⟨batch'', hbatch'', hpool', hfaces'⟩ := h' k batch' hbatch'
  exact ⟨batch'', hbatch'', hpool'.trans hpool, hfaces'.trans hfaces⟩

/-- From `c` to `c'` only one pool's accounts were written, its ledger going from `L` to `L'`. -/
structure Touches (c c' : Chain) (key : Pubkey) (L L' : Ledger) : Prop where
  before : c.Reads key L
  after : c'.Reads key L'
  poolId : L'.pool.poolId = L.pool.poolId
  weightIndex : L'.pool.weightIndex = L.pool.weightIndex
  pools : ∀ other, other ≠ key → c'.pools.lookup other = c.pools.lookup other
  indexes : ∀ other, other ≠ L.pool.weightIndex →
    c'.weightIndexes.lookup other = c.weightIndexes.lookup other
  topTiers : ∀ other, other ≠ key →
    c'.topTiers.lookup (.topTier other) = c.topTiers.lookup (.topTier other)
  positions : OnlyPool key c.positions c'.positions
  walletStats : ∀ other owner, other ≠ key →
    c'.walletStats.lookup (.walletStats other owner) = c.walletStats.lookup (.walletStats other owner)
  vaults : ∀ other pool, other ≠ key → c.pools.lookup other = some pool →
    Keeps c.tokens c'.tokens (.principalVault other)
  vaultOwner : ∀ vault, c'.tokens.lookup (.principalVault key) = some vault → vault.owner = key
  batches : BatchesKept c c'

section Frame

variable {c c' : Chain} {key : Pubkey} {L L' : Ledger}

theorem Chain.Reads.unique (h : c.Reads key L) (h' : c.Reads key L') : L = L' :=
  Option.some.inj ((ledger_eq_some.mpr h).symm.trans (ledger_eq_some.mpr h'))

theorem Chain.Reads.kept (h : c.Reads key L) (hpool : c'.pools.lookup key = c.pools.lookup key)
    (hindex : c'.weightIndexes.lookup L.pool.weightIndex
      = c.weightIndexes.lookup L.pool.weightIndex)
    (htier : c'.topTiers.lookup (.topTier key) = c.topTiers.lookup (.topTier key))
    (hpositions : Store.restrict (ofPool key) c'.positions = Store.restrict (ofPool key) c.positions)
    (hstats : ∀ owner, c'.walletStats.lookup (.walletStats key owner)
      = c.walletStats.lookup (.walletStats key owner))
    (hvault : Keeps c.tokens c'.tokens (.principalVault key)) :
    ∃ amount, c'.Reads key { L with vault := L.vault + amount } := by
  obtain ⟨vault, hfound, hamount⟩ := h.vault
  obtain ⟨vault', hfound', -, -, hle⟩ := hvault vault hfound
  exact ⟨vault'.amount - vault.amount, hpool.trans h.pool, hindex.trans h.weightIndex,
    htier.trans h.topTier, h.positions.trans hpositions.symm,
    fun owner => (h.walletStats owner).trans (hstats owner).symm,
    vault', hfound', by show _ = L.vault + _; omega⟩

theorem Touches.reads_other (h : Touches c c' key L L') (hwf : c.WellFormed) {other : Pubkey}
    (hne : other ≠ key) {M : Ledger} (hM : c.Reads other M) :
    ∃ amount, c'.Reads other { M with vault := M.vault + amount } := by
  have hindex : M.pool.weightIndex ≠ L.pool.weightIndex := fun heq =>
    hne (hwf.indexOwner other key M.pool L.pool hM.pool h.before.pool heq)
  exact hM.kept (h.pools other hne) (h.indexes _ hindex) (h.topTiers other hne)
    (h.positions.restrict_other hwf.positionKey hne) (fun owner => h.walletStats other owner hne)
    (h.vaults other M.pool hne hM.pool)

theorem Touches.wellFormed (h : Touches c c' key L L') (hwf : c.WellFormed) : c'.WellFormed where
  poolKey := by
    intro other pool hpool
    by_cases hother : other = key
    · subst hother
      rw [h.after.pool, Option.some.injEq] at hpool
      rw [← hpool, h.poolId]
      exact hwf.poolKey other L.pool h.before.pool
    · exact hwf.poolKey other pool (h.pools other hother ▸ hpool)
  ledger := by
    intro other pool hpool
    by_cases hother : other = key
    · subst hother
      exact ⟨L', ledger_eq_some.mpr h.after⟩
    · obtain ⟨M, hM⟩ := hwf.ledger other pool (h.pools other hother ▸ hpool)
      obtain ⟨amount, hM'⟩ := h.reads_other hwf hother (ledger_eq_some.mp hM)
      exact ⟨_, ledger_eq_some.mpr hM'⟩
  vaultOwner := by
    intro other pool vault hpool hvault
    by_cases hother : other = key
    · subst hother
      exact h.vaultOwner vault hvault
    · have hpool' := h.pools other hother ▸ hpool
      obtain ⟨M, hM⟩ := hwf.ledger other pool hpool'
      obtain ⟨vault₀, hvault₀, -⟩ := (ledger_eq_some.mp hM).vault
      obtain ⟨vault₁, hvault₁, -, howner, -⟩ := h.vaults other pool hother hpool' vault₀ hvault₀
      rw [hvault, Option.some.injEq] at hvault₁
      rw [hvault₁, howner]
      exact hwf.vaultOwner other pool vault₀ hpool' hvault₀
  indexOwner := by
    -- Every pool after stands where a pool with the same index stood.
    have hold : ∀ other pool, c'.pools.lookup other = some pool →
        ∃ pool₀, c.pools.lookup other = some pool₀ ∧ pool₀.weightIndex = pool.weightIndex := by
      intro other pool hpool
      by_cases hother : other = key
      · subst hother
        rw [h.after.pool, Option.some.injEq] at hpool
        exact ⟨L.pool, h.before.pool, by rw [← hpool, h.weightIndex]⟩
      · exact ⟨pool, h.pools other hother ▸ hpool, rfl⟩
    intro other other' pool pool' hpool hpool' heq
    obtain ⟨pool₀, hpool₀, hindex⟩ := hold other pool hpool
    obtain ⟨pool₀', hpool₀', hindex'⟩ := hold other' pool' hpool'
    exact hwf.indexOwner other other' pool₀ pool₀' hpool₀ hpool₀' (by rw [hindex, hindex', heq])
  positionKey := h.positions.keyed
  positionPool := by
    intro k p hp
    have hkey := h.positions.keyed k p hp
    by_cases hpool : p.pool = key
    · exact ⟨L'.pool, hpool ▸ h.after.pool⟩
    · have hp' : c.positions.lookup k = some p := by
        rw [← h.positions.other k fun nftMint heq => ?_, hp]
        rw [heq, Pubkey.position.injEq] at hkey
        exact hpool hkey.1.symm
      obtain ⟨pool, hfound⟩ := hwf.positionPool k p hp'
      exact ⟨pool, (h.pools _ hpool).trans hfound⟩
  statsPool := by
    intro other owner stats hstats
    by_cases hother : other = key
    · exact ⟨L'.pool, hother ▸ h.after.pool⟩
    · rw [h.walletStats other owner hother] at hstats
      obtain ⟨pool, hfound⟩ := hwf.statsPool other owner stats hstats
      exact ⟨pool, (h.pools other hother).trans hfound⟩

/-- What an instruction does to the vaults and the batches: the other pools' vaults are kept, this
pool's stands at `amount`. -/
structure Custody (c c' : Chain) (key : Pubkey) (amount : ℕ) : Prop where
  vaults : ∀ other pool, other ≠ key → c.pools.lookup other = some pool →
    Keeps c.tokens c'.tokens (.principalVault other)
  vault : ∃ vault, c'.tokens.lookup (.principalVault key) = some vault ∧ vault.owner = key ∧
    vault.amount = amount
  batches : BatchesKept c c'

theorem Chain.WellFormed.vault (hwf : c.WellFormed) (hL : c.Reads key L) :
    ∃ vault, c.tokens.lookup (.principalVault key) = some vault ∧ vault.owner = key ∧
      vault.amount = L.vault := by
  obtain ⟨vault, hvault, hamount⟩ := hL.vault
  exact ⟨vault, hvault, hwf.vaultOwner key L.pool vault hL.pool hvault, hamount⟩

theorem Custody.of_eq (hwf : c.WellFormed) (hL : c.Reads key L) (htokens : c'.tokens = c.tokens)
    (hbatches : c'.rollBatches = c.rollBatches) : Custody c c' key L.vault where
  vaults := fun _ _ _ _ => htokens ▸ Keeps.refl _ _
  vault := htokens ▸ hwf.vault hL
  batches := .of_eq hbatches

theorem Custody.of_keeps (hwf : c.WellFormed) (hL : c.Reads key L)
    (hkeeps : ∀ other pool, c.pools.lookup other = some pool →
      Keeps c.tokens c'.tokens (.principalVault other))
    (hbatches : BatchesKept c c') : ∃ credited, Custody c c' key (L.vault + credited) := by
  obtain ⟨vault, hvault, howner, hamount⟩ := hwf.vault hL
  obtain ⟨vault', hvault', -, howner', hle⟩ := hkeeps key L.pool hL.pool vault hvault
  exact ⟨vault'.amount - vault.amount, fun other pool _ hpool => hkeeps other pool hpool,
    ⟨vault', hvault', howner'.trans howner, by omega⟩, hbatches⟩

/-- What a handler writes back of the accounts it binds through the pool. -/
theorem Touches.of_write {pool' : Pool} {index' : WeightIndex} {topTier' : TopTier}
    {stats' : Pubkey → Option WalletStats} {positions' : Positions} {amount : ℕ}
    (hL : c.Reads key L) (hpools : c'.pools = c.pools.insert key pool')
    (hpoolId : pool'.poolId = L.pool.poolId) (hindex : pool'.weightIndex = L.pool.weightIndex)
    (hindexes : c'.weightIndexes = c.weightIndexes.insert L.pool.weightIndex index')
    (htiers : c'.topTiers = c.topTiers.insert (.topTier key) topTier')
    (hpositions : OnlyPool key c.positions c'.positions)
    (hrestrict : Store.restrict (ofPool key) c'.positions = positions')
    (hstats : ∀ owner, stats' owner = c'.walletStats.lookup (.walletStats key owner))
    (hothers : ∀ other owner, other ≠ key → c'.walletStats.lookup (.walletStats other owner)
      = c.walletStats.lookup (.walletStats other owner))
    (hcustody : Custody c c' key amount) :
    Touches c c' key L {
      pool := pool', weightIndex := index', topTier := topTier'
      positions := positions'
      walletStats := stats'
      vault := amount } where
  before := hL
  after := {
    pool := by rw [hpools]; exact Finmap.lookup_insert _
    weightIndex := by
      rw [hindexes]
      show Finmap.lookup pool'.weightIndex _ = _
      rw [hindex]
      exact Finmap.lookup_insert _
    topTier := by rw [htiers]; exact Finmap.lookup_insert _
    positions := hrestrict.symm
    walletStats := hstats
    vault := by
      obtain ⟨vault, hvault, -, hamount⟩ := hcustody.vault
      exact ⟨vault, hvault, hamount⟩ }
  poolId := hpoolId
  weightIndex := hindex
  pools := by
    intro other hne
    rw [hpools, Finmap.lookup_insert_of_ne _ hne]
  indexes := by
    intro other hne
    rw [hindexes, Finmap.lookup_insert_of_ne _ hne]
  topTiers := by
    intro other hne
    rw [htiers, Finmap.lookup_insert_of_ne _ (by simp [hne])]
  positions := hpositions
  walletStats := hothers
  vaults := hcustody.vaults
  vaultOwner := by
    intro vault hfound
    obtain ⟨vault', hvault, howner, -⟩ := hcustody.vault
    rw [hvault, Option.some.injEq] at hfound
    rw [← hfound, howner]
  batches := hcustody.batches

theorem Touches.of_write_stats {pool' : Pool} {index' : WeightIndex} {topTier' : TopTier}
    {owner : Pubkey} {stats' : WalletStats} {positions' : Positions} {amount : ℕ}
    (hL : c.Reads key L) (hpools : c'.pools = c.pools.insert key pool')
    (hpoolId : pool'.poolId = L.pool.poolId) (hindex : pool'.weightIndex = L.pool.weightIndex)
    (hindexes : c'.weightIndexes = c.weightIndexes.insert L.pool.weightIndex index')
    (htiers : c'.topTiers = c.topTiers.insert (.topTier key) topTier')
    (hpositions : OnlyPool key c.positions c'.positions)
    (hrestrict : Store.restrict (ofPool key) c'.positions = positions')
    (hstats : c'.walletStats = c.walletStats.insert (.walletStats key owner) stats')
    (hcustody : Custody c c' key amount) :
    Touches c c' key L {
      pool := pool', weightIndex := index', topTier := topTier'
      positions := positions'
      walletStats := Function.update L.walletStats owner (some stats')
      vault := amount } := by
  refine Touches.of_write hL hpools hpoolId hindex hindexes htiers hpositions hrestrict ?_ ?_ hcustody
  · intro o
    rw [hstats]
    by_cases ho : o = owner
    · subst ho; simp
    · rw [Function.update_of_ne ho, Finmap.lookup_insert_of_ne _ (by simp [ho])]
      exact hL.walletStats o
  · intro other o hne
    rw [hstats, Finmap.lookup_insert_of_ne _ (by simp [hne])]

theorem Touches.of_write_pool {pool' : Pool} {topTier' : TopTier} {positions' : Positions} {amount : ℕ}
    (hL : c.Reads key L) (hpools : c'.pools = c.pools.insert key pool')
    (hpoolId : pool'.poolId = L.pool.poolId) (hindex : pool'.weightIndex = L.pool.weightIndex)
    (hindexes : c'.weightIndexes = c.weightIndexes)
    (htiers : c'.topTiers = c.topTiers.insert (.topTier key) topTier')
    (hpositions : OnlyPool key c.positions c'.positions)
    (hrestrict : Store.restrict (ofPool key) c'.positions = positions')
    (hstats : c'.walletStats = c.walletStats)
    (hcustody : Custody c c' key amount) :
    Touches c c' key L { L with
      pool := pool', topTier := topTier'
      positions := positions'
      vault := amount } := by
  refine Touches.of_write hL hpools hpoolId hindex ?_ htiers hpositions hrestrict ?_ ?_ hcustody
  · rw [hindexes, Store.insert_of_lookup hL.weightIndex]
  · intro o
    rw [hstats]
    exact hL.walletStats o
  · intro other o _
    rw [hstats]

theorem Touches.of_write_positions {positions' : Positions} {amount : ℕ} (hL : c.Reads key L)
    (hpools : c'.pools = c.pools) (hindexes : c'.weightIndexes = c.weightIndexes)
    (htiers : c'.topTiers = c.topTiers) (hpositions : OnlyPool key c.positions c'.positions)
    (hrestrict : Store.restrict (ofPool key) c'.positions = positions')
    (hstats : c'.walletStats = c.walletStats) (hcustody : Custody c c' key amount) :
    Touches c c' key L { L with
      positions := positions'
      vault := amount } := by
  refine Touches.of_write_pool hL ?_ rfl rfl hindexes ?_ hpositions hrestrict hstats hcustody
  · rw [hpools, Store.insert_of_lookup hL.pool]
  · rw [htiers, Store.insert_of_lookup hL.topTier]

theorem Touches.credited (h : Touches c c' key L L') (tokens : Tokens) (externals : Externals)
    (hkeeps : ∀ other pool, c'.pools.lookup other = some pool →
      Keeps c'.tokens tokens (.principalVault other)) :
    ∃ credited, Touches c { c' with tokens, externals } key L
      { L' with vault := L'.vault + credited } := by
  obtain ⟨vault, hvault, hamount⟩ := h.after.vault
  obtain ⟨vault', hvault', -, howner, hle⟩ := hkeeps key L'.pool h.after.pool vault hvault
  refine ⟨vault'.amount - vault.amount, { h with
    after := { h.after with vault := ⟨vault', hvault', ?_⟩ }, vaults := ?_, vaultOwner := ?_ }⟩
  · show vault'.amount = L'.vault + _
    omega
  · intro other pool hne hpool
    exact (h.vaults other pool hne hpool).trans (hkeeps other pool (h.pools other hne ▸ hpool))
  · intro account haccount
    obtain rfl : vault' = account := Option.some.inj (hvault'.symm.trans haccount)
    exact howner.trans (h.vaultOwner vault hvault)

end Frame

end ByeMachine
