import ByeMachine.Ledger

/-!
# Accounts and the ledger

What the account checks tell a handler, what the token moves leave alone, and
the frame of an instruction: it writes one pool's accounts and no other's.
-/

namespace ByeMachine

open Fallible

-- ---------------------------------------------------------------------------
-- Well-formed chains
-- ---------------------------------------------------------------------------

/-- What the addresses guarantee of a chain the program alone wrote. -/
structure Chain.WellFormed (c : Chain) : Prop where
  poolKey : ∀ key pool, c.pools.lookup key = some pool → key = .pool pool.poolId
  ledger : ∀ key pool, c.pools.lookup key = some pool → ∃ L, c.ledger key = some L
  vaultOwner : ∀ key pool vault, c.pools.lookup key = some pool →
    c.tokens.lookup (.principalVault key) = some vault → vault.owner = key
  indexOwner : ∀ key key' pool pool', c.pools.lookup key = some pool →
    c.pools.lookup key' = some pool' → pool.weightIndex = pool'.weightIndex → key = key'
  positionKey : ∀ key position, c.positions.lookup key = some position →
    key = .position position.pool position.nftMint
  positionPool : ∀ key position, c.positions.lookup key = some position →
    ∃ pool, c.pools.lookup position.pool = some pool
  statsPool : ∀ key owner stats, c.walletStats.lookup (.walletStats key owner) = some stats →
    ∃ pool, c.pools.lookup key = some pool

/-- The accounts a ledger is read from. -/
structure Chain.Reads (c : Chain) (key : Pubkey) (L : Ledger) : Prop where
  pool : c.pools.lookup key = some L.pool
  weightIndex : c.weightIndexes.lookup L.pool.weightIndex = some L.weightIndex
  topTier : c.topTiers.lookup (.topTier key) = some L.topTier
  positions : L.positions = Store.restrict (ofPool key) c.positions
  walletStats : ∀ owner, L.walletStats owner = c.walletStats.lookup (.walletStats key owner)
  vault : ∃ vault, c.tokens.lookup (.principalVault key) = some vault ∧ vault.amount = L.vault

theorem ledger_eq_some {c : Chain} {key : Pubkey} {L : Ledger} :
    c.ledger key = some L ↔ c.Reads key L := by
  simp only [Chain.ledger, Option.bind_eq_bind, Option.bind_eq_some_iff, Option.pure_def,
    Option.some.injEq]
  constructor
  · rintro ⟨pool, hpool, index, hindex, topTier, htier, vault, hvault, rfl⟩
    exact ⟨hpool, hindex, htier, rfl, fun _ => rfl, vault, hvault, rfl⟩
  · rintro ⟨hpool, hindex, htier, hpositions, hstats, vault, hvault, hamount⟩
    refine ⟨L.pool, hpool, L.weightIndex, hindex, L.topTier, htier, vault, hvault, ?_⟩
    obtain ⟨pool, index, topTier, positions, stats, amount⟩ := L
    simp only at hpositions hstats hamount
    simp [hpositions, hamount, funext hstats]

theorem Chain.Reads.lookup {c : Chain} {key : Pubkey} {L : Ledger} (h : c.Reads key L)
    {k : Pubkey} {p : Position} :
    L.positions.lookup k = some p ↔ c.positions.lookup k = some p ∧ p.pool = key := by
  rw [h.positions, Store.lookup_restrict]
  simp [ofPool]

-- ---------------------------------------------------------------------------
-- What the account checks say
-- ---------------------------------------------------------------------------

theorem requireSigner_ok {key : Pubkey} {u : Unit} :
    requireSigner key = .ok u ↔ key.canSign = true := require_ok

theorem loadPool_ok {c : Chain} {key : Pubkey} {pool : Pool} :
    c.loadPool key = .ok pool ↔ c.pools.lookup key = some pool ∧ key = .pool pool.poolId := by
  simp only [Chain.loadPool, bind_ok, okOr_ok, require_ok, pure_ok]
  constructor
  · rintro ⟨_, hpool, -, hkey, rfl⟩
    exact ⟨hpool, hkey⟩
  · rintro ⟨hpool, hkey⟩
    exact ⟨_, hpool, (), hkey, rfl⟩

theorem loadOwnPosition_ok {c : Chain} {key : Pubkey} {p : Position} :
    c.loadOwnPosition key = .ok p ↔
      c.positions.lookup key = some p ∧ key = .position p.pool p.nftMint := by
  simp only [Chain.loadOwnPosition, loadPosition, bind_ok, okOr_ok, require_ok, pure_ok]
  constructor
  · rintro ⟨_, hp, -, hkey, rfl⟩
    exact ⟨hp, hkey⟩
  · rintro ⟨hp, hkey⟩
    exact ⟨_, hp, (), hkey, rfl⟩

theorem loadPositionOf_ok {c : Chain} {pool key : Pubkey} {p : Position} :
    c.loadPositionOf pool key = .ok p ↔
      c.positions.lookup key = some p ∧ key = .position pool p.nftMint := by
  simp only [Chain.loadPositionOf, loadPosition, bind_ok, okOr_ok, require_ok, pure_ok]
  constructor
  · rintro ⟨_, hp, -, hkey, rfl⟩
    exact ⟨hp, hkey⟩
  · rintro ⟨hp, hkey⟩
    exact ⟨_, hp, (), hkey, rfl⟩

theorem loadTopTier_ok {c : Chain} {pool : Pubkey} {topTier : TopTier} :
    c.loadTopTier pool = .ok topTier ↔ c.topTiers.lookup (.topTier pool) = some topTier := okOr_ok

theorem Chain.WellFormed.loadPool {c : Chain} (hwf : c.WellFormed) {key : Pubkey} {pool : Pool}
    (h : c.loadPool key = .ok pool) :
    ∃ L, c.Reads key L ∧ L.pool = pool ∧ key = .pool pool.poolId := by
  obtain ⟨hpool, hkey⟩ := loadPool_ok.mp h
  obtain ⟨L, hL⟩ := hwf.ledger key pool hpool
  have hreads := ledger_eq_some.mp hL
  rw [hreads.pool, Option.some.injEq] at hpool
  exact ⟨L, hreads, hpool, hkey⟩

theorem Chain.WellFormed.loadPositionOf {c : Chain} (hwf : c.WellFormed) {pool key : Pubkey}
    {p : Position} (h : c.loadPositionOf pool key = .ok p) :
    c.positions.lookup key = some p ∧ p.pool = pool ∧ key = .position pool p.nftMint := by
  obtain ⟨hp, hkey⟩ := loadPositionOf_ok.mp h
  have hown := hwf.positionKey key p hp
  rw [hkey, Pubkey.position.injEq] at hown
  exact ⟨hp, hown.1.symm, hkey⟩

/-- A position and its owner's rollup, bound to a pool by their seeds. -/
structure Bound (L : Ledger) (poolKey positionKey : Pubkey) (p : Position) (stats : WalletStats) :
    Prop where
  position : L.positions.lookup positionKey = some p
  walletStats : L.walletStats p.depositor = some stats
  ofPool : p.pool = poolKey
  positionKey : positionKey = .position poolKey p.nftMint
  isPool : ∃ poolId, poolKey = .pool poolId

theorem Chain.WellFormed.loadThroughPool {c : Chain} (hwf : c.WellFormed)
    {poolKey positionKey : Pubkey} {a : Loaded} (h : loadThroughPool c poolKey positionKey = .ok a) :
    ∃ L p stats, a = ⟨L.pool, p, L.weightIndex, L.topTier, stats⟩ ∧ c.Reads poolKey L ∧
      Bound L poolKey positionKey p stats := by
  simp only [ByeMachine.loadThroughPool, bind_ok, pure_ok] at h
  obtain ⟨pool, hpool, p, hposition, index, hindex, topTier, htier, stats, hstats, rfl⟩ := h
  obtain ⟨L, hL, rfl, hkey⟩ := hwf.loadPool hpool
  obtain ⟨hp, hofPool, hpositionKey⟩ := hwf.loadPositionOf hposition
  obtain rfl := Option.some.inj ((okOr_ok.mp hindex).symm.trans hL.weightIndex)
  obtain rfl := Option.some.inj ((loadTopTier_ok.mp htier).symm.trans hL.topTier)
  refine ⟨L, p, stats, rfl, hL, hL.lookup.mpr ⟨hp, hofPool⟩, ?_, hofPool, hpositionKey, ⟨_, hkey⟩⟩
  rw [hL.walletStats]
  exact okOr_ok.mp hstats

-- ---------------------------------------------------------------------------
-- Token accounts
-- ---------------------------------------------------------------------------

/-- A token account that may have been credited, and nothing else. -/
def Keeps (tokens tokens' : Tokens) (key : Pubkey) : Prop :=
  ∀ account, tokens.lookup key = some account → ∃ account', tokens'.lookup key = some account' ∧
    account'.mint = account.mint ∧ account'.owner = account.owner ∧
    account.amount ≤ account'.amount

theorem Keeps.refl (tokens : Tokens) (key : Pubkey) : Keeps tokens tokens key :=
  fun account h => ⟨account, h, rfl, rfl, le_rfl⟩

theorem Keeps.trans {t t' t'' : Tokens} {key : Pubkey} (h : Keeps t t' key)
    (h' : Keeps t' t'' key) : Keeps t t'' key := by
  intro account ha
  obtain ⟨account', ha', hmint, howner, hamount⟩ := h account ha
  obtain ⟨account'', ha'', hmint', howner', hamount'⟩ := h' account' ha'
  exact ⟨account'', ha'', hmint'.trans hmint, howner'.trans howner, hamount.trans hamount'⟩

theorem Keeps.of_lookup {t t' : Tokens} {key : Pubkey} (h : t'.lookup key = t.lookup key) :
    Keeps t t' key := fun account ha => ⟨account, h.trans ha, rfl, rfl, le_rfl⟩

theorem moveToken_keeps {t t' : Tokens} {source destination key : Pubkey} {amount : ℕ}
    (h : moveToken t source destination amount = .ok t') (hne : key ≠ source) :
    Keeps t t' key := by
  simp only [moveToken, bind_ok, okOr_ok, require_ok] at h
  obtain ⟨debited, -, credited, hcredited, -, -, h⟩ := h
  split at h
  · obtain rfl := pure_ok.mp h
    exact Keeps.refl _ _
  · simp only [bind_ok, okOr_ok, Checked.add_some, pure_ok] at h
    obtain ⟨_, ⟨-, rfl⟩, rfl⟩ := h
    intro account ha
    by_cases hkey : key = destination
    · subst hkey
      rw [hcredited, Option.some.injEq] at ha
      subst ha
      exact ⟨_, Finmap.lookup_insert _, rfl, rfl, Nat.le_add_right _ _⟩
    · refine ⟨account, ?_, rfl, rfl, le_rfl⟩
      rw [Finmap.lookup_insert_of_ne _ hkey, Finmap.lookup_insert_of_ne _ hne, ha]

theorem splTransfer_move {t t' : Tokens} {source destination authority : Pubkey} {amount : ℕ}
    (h : splTransfer t source destination authority amount = .ok t') :
    moveToken t source destination amount = .ok t' ∧
      ∃ account, t.lookup source = some account ∧ account.owner = authority := by
  simp only [splTransfer, bind_ok, okOr_ok, require_ok] at h
  obtain ⟨debited, hdebited, credited, -, -, ⟨howner, -⟩, h⟩ := h
  exact ⟨h, debited, hdebited, howner⟩

theorem splTransfer_keeps {t t' : Tokens} {source destination authority key : Pubkey}
    {amount : ℕ} (h : splTransfer t source destination authority amount = .ok t')
    (hne : ∀ account, t.lookup key = some account → account.owner ≠ authority) :
    Keeps t t' key := by
  obtain ⟨hmove, debited, hdebited, howner⟩ := splTransfer_move h
  refine moveToken_keeps hmove ?_
  rintro rfl
  exact hne debited hdebited howner

theorem splTransfer_debit {t t' : Tokens} {source destination authority : Pubkey} {amount : ℕ}
    (h : splTransfer t source destination authority amount = .ok t')
    (hne : source ≠ destination) :
    ∃ account, t.lookup source = some account ∧ amount ≤ account.amount ∧
      t'.lookup source = some { account with amount := account.amount - amount } := by
  simp only [splTransfer, moveToken, bind_ok, okOr_ok, require_ok, if_neg hne, Checked.add_some,
    pure_ok] at h
  obtain ⟨_, -, _, -, -, -, debited, hdebited, _, -, -, ⟨-, hle⟩, _, -, rfl⟩ := h
  refine ⟨debited, hdebited, hle, ?_⟩
  rw [Finmap.lookup_insert_of_ne _ hne, Finmap.lookup_insert]

theorem splTransfer_credit {t t' : Tokens} {source destination authority : Pubkey} {amount : ℕ}
    (h : splTransfer t source destination authority amount = .ok t')
    (hne : source ≠ destination) :
    ∃ account, t.lookup destination = some account ∧
      t'.lookup destination = some { account with amount := account.amount + amount } := by
  simp only [splTransfer, moveToken, bind_ok, okOr_ok, require_ok, if_neg hne, Checked.add_some,
    pure_ok] at h
  obtain ⟨_, -, _, -, -, -, debited, hdebited, credited, hcredited, -, -, _, ⟨-, rfl⟩, rfl⟩ := h
  exact ⟨credited, hcredited, Finmap.lookup_insert _⟩

theorem initToken_keeps {t t' : Tokens} {account mint owner : Pubkey}
    (h : initToken t account mint owner = .ok t') (key : Pubkey) : Keeps t t' key := by
  simp only [initToken, bind_ok, require_ok, pure_ok] at h
  obtain ⟨-, hfree, rfl⟩ := h
  refine fun a ha => ⟨a, ?_, rfl, rfl, le_rfl⟩
  rw [Finmap.lookup_insert_of_ne _ (by rintro rfl; rw [hfree] at ha; cases ha), ha]

theorem closeToken_keeps {t t' : Tokens} {account authority key : Pubkey}
    (h : closeToken t account authority = .ok t') (hne : key ≠ account) : Keeps t t' key := by
  simp only [closeToken, bind_ok, okOr_ok, require_ok, pure_ok] at h
  obtain ⟨_, -, -, -, rfl⟩ := h
  exact Keeps.of_lookup (Finmap.lookup_erase_ne hne)

theorem createIdempotent_keeps {t t' : Tokens} {account mint owner : Pubkey}
    (h : createIdempotent t account mint owner = .ok t') (key : Pubkey) : Keeps t t' key := by
  unfold createIdempotent at h
  split at h
  · next hnone =>
    obtain rfl := pure_ok.mp h
    refine fun a ha => ⟨a, ?_, rfl, rfl, le_rfl⟩
    rw [Finmap.lookup_insert_of_ne _ (by rintro rfl; rw [hnone] at ha; cases ha), ha]
  · simp only [bind_ok, require_ok, pure_ok] at h
    obtain ⟨-, -, rfl⟩ := h
    exact Keeps.refl _ _

theorem transferPnft_keeps {X : Programs} {call : PnftTransfer} {t t' : Tokens}
    {e e' : Externals} {key : Pubkey} (h : transferPnft X call t e = .ok (t', e'))
    (hne : ∀ account, t.lookup key = some account → account.owner ≠ call.tokenOwner) :
    Keeps t t' key := by
  simp only [transferPnft, bind_ok, okOr_ok, require_ok, pure_ok, Prod.mk.injEq] at h
  obtain ⟨_, -, source, hsource, -, howner, _, hmade, _, hmove, rfl, rfl⟩ := h
  intro account ha
  have hkey : key ≠ call.token := by
    rintro rfl
    exact hne source hsource howner
  exact (createIdempotent_keeps hmade key).trans (moveToken_keeps hmove hkey) account ha

theorem releaseAndClose_keeps {X : Programs} {position : Position} {positionKey payer key : Pubkey}
    {accounts : ReleaseAccounts} {t t' : Tokens} {e e' : Externals}
    (h : releaseAndClose X position positionKey payer accounts t e = .ok (t', e'))
    (hvault : key ≠ .positionVault positionKey)
    (hne : ∀ account, t.lookup key = some account → account.owner ≠ positionKey) :
    Keeps t t' key := by
  simp only [releaseAndClose, bind_ok, pure_ok, Prod.mk.injEq] at h
  obtain ⟨⟨t₁, e₁⟩, hrelease, t₂, hclose, rfl, rfl⟩ := h
  refine Keeps.trans ?_ (closeToken_keeps hclose hvault)
  unfold releaseFromVault at hrelease
  split at hrelease
  · simp only [bind_ok] at hrelease
    obtain ⟨_, -, _, -, _, -, hrelease⟩ := hrelease
    exact transferPnft_keeps hrelease hne
  · split at hrelease
    · simp only [bind_ok, require_ok, pure_ok, Prod.mk.injEq] at hrelease
      obtain ⟨-, -, -, -, _, hcreate, _, htransfer, rfl, -⟩ := hrelease
      exact Keeps.trans (createIdempotent_keeps hcreate key)
        (moveToken_keeps (splTransfer_move htransfer).1 hvault)
    · cases hrelease

end ByeMachine
