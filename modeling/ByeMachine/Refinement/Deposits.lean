import ByeMachine.Refinement.Handlers
import ByeMachine.Refinement.TierMoves

/-!
# Deposits as moves

Taking a card in is an intake; approving it activates its position and offers it
to the tier; rejecting it retires the position and returning it releases it.
-/

namespace ByeMachine

open Fallible

/-- What an instruction does to one pool's ledger; `update` is the configuration move it makes. -/
inductive Change (update : Option ConfigUpdate) : Ledger → Ledger → Prop where
  | moves {L L' : Ledger} (hmoves : Moves L L') : Change update L L'
  | intake {L L₁ L' : Ledger} (hintake : Intake L L₁) (hmoves : Moves L₁ L') : Change update L L'
  | configure {L L' : Ledger} {u : ConfigUpdate} (hupdate : update = some u)
      (hconfig : Configure u L L') : Change update L L'

/-- An instruction that writes one pool's accounts and changes its ledger so. -/
def Carries (c c' : Chain) (key : Pubkey) (update : Option ConfigUpdate) : Prop :=
  ∃ L L', Touches c c' key L L' ∧ Change update L L'

theorem Carries.of_moves {c c' : Chain} {key : Pubkey} {update : Option ConfigUpdate} {L L' : Ledger}
    (htouches : Touches c c' key L L') (hmoves : Moves L L') : Carries c c' key update :=
  ⟨L, L', htouches, .moves hmoves⟩

-- ---------------------------------------------------------------------------
-- Vaults are no one's to debit
-- ---------------------------------------------------------------------------

section Vaults

variable {c : Chain} {t t' : Tokens} {other : Pubkey} {pool : Pool}

theorem Chain.WellFormed.vaultOwner_of_keeps (hwf : c.WellFormed)
    (hpool : c.pools.lookup other = some pool) (hkeeps : Keeps c.tokens t (.principalVault other))
    {account : TokenAccount} (h : t.lookup (.principalVault other) = some account) :
    account.owner = .pool pool.poolId := by
  obtain ⟨L, hL⟩ := hwf.ledger other pool hpool
  obtain ⟨vault, hvault, -⟩ := (ledger_eq_some.mp hL).vault
  obtain ⟨account', haccount', -, howner, -⟩ := hkeeps vault hvault
  rw [h, Option.some.injEq] at haccount'
  rw [haccount', howner, hwf.vaultOwner other pool vault hpool hvault, hwf.poolKey other pool hpool]

theorem Chain.WellFormed.not_owner (hwf : c.WellFormed)
    (hpool : c.pools.lookup other = some pool) (hkeeps : Keeps c.tokens t (.principalVault other))
    {authority : Pubkey} (hauthority : ∀ poolId, authority ≠ .pool poolId) :
    ∀ account, t.lookup (.principalVault other) = some account → account.owner ≠ authority :=
  fun _ haccount howner =>
    hauthority _ (howner.symm.trans (hwf.vaultOwner_of_keeps hpool hkeeps haccount))

theorem Chain.WellFormed.released {X : Programs} {p : Position} {positionKey payer nftMint : Pubkey}
    {a : ReleaseAccounts} {e e' : Externals} (hwf : c.WellFormed)
    (h : releaseAndClose X p positionKey payer a c.tokens e = .ok (t', e'))
    (hkey : positionKey = .position p.pool nftMint) :
    ∀ other pool, c.pools.lookup other = some pool → Keeps c.tokens t' (.principalVault other) :=
  fun _ _ hpool => releaseAndClose_keeps h (by simp)
    (hwf.not_owner hpool (Keeps.refl _ _) (by simp [hkey]))

theorem Chain.WellFormed.ofPosition {k : Pubkey} {p : Position} (hwf : c.WellFormed)
    (hp : c.positions.lookup k = some p) : ∃ L, c.Reads p.pool L := by
  obtain ⟨pool, hpool⟩ := hwf.positionPool k p hp
  obtain ⟨L, hL⟩ := hwf.ledger p.pool pool hpool
  exact ⟨L, ledger_eq_some.mp hL⟩

theorem Pubkey.ne_pool_of_canSign {key : Pubkey} (h : key.canSign = true) (poolId : ℕ) :
    key ≠ .pool poolId := by
  rintro rfl
  cases h

end Vaults

-- ---------------------------------------------------------------------------
-- deposit and deposit_core
-- ---------------------------------------------------------------------------

section Deposit

variable {X : Programs} {clock : Clock} {c c' : Chain} {events : List Event}

theorem takeCustody_keeps {standard : ℕ} {a : DepositAccounts} {t t' : Tokens} {e e' : Externals}
    {key : Pubkey} (h : takeCustody X standard a t e = .ok (t', e'))
    (hne : ∀ account, t.lookup key = some account → account.owner ≠ a.depositor) :
    Keeps t t' key := by
  unfold takeCustody at h
  split at h
  · simp only [bind_ok] at h
    obtain ⟨_, -, _, -, _, -, h⟩ := h
    exact transferPnft_keeps h hne
  · split at h
    · simp only [bind_ok, pure_ok, Prod.mk.injEq] at h
      obtain ⟨_, -, _, htransfer, rfl, -⟩ := h
      exact splTransfer_keeps htransfer hne
    · cases h

theorem recordDeposit_carries {poolKey depositor nftMint : Pubkey} {pool : Pool} {standard : ℕ}
    {tokens : Tokens} {externals : Externals} {update : Option ConfigUpdate} (hwf : c.WellFormed)
    (hpool : c.loadPool poolKey = .ok pool)
    (hfree : c.positions.lookup (.position poolKey nftMint) = none)
    (hkeeps : ∀ other pool, c.pools.lookup other = some pool →
      Keeps c.tokens tokens (.principalVault other))
    (h : recordDeposit X clock c poolKey depositor nftMint pool standard tokens externals
      = .ok (c', events)) : Carries c c' poolKey update := by
  obtain ⟨L, hL, rfl, -⟩ := hwf.loadPool hpool
  obtain ⟨-, rfl, -⟩ := recordDeposit_ok h
  obtain ⟨credited, hcustody⟩ :
      ∃ credited, Custody c { c with tokens } poolKey (L.vault + credited) :=
    Custody.of_keeps hwf hL hkeeps (.of_eq rfl)
  have hfree' : L.positions.lookup (.position poolKey nftMint) = none := by
    by_contra hsome
    obtain ⟨q, hq⟩ := Option.ne_none_iff_exists'.mp hsome
    have := (hL.lookup.mp hq).1
    rw [hfree] at this
    cases this
  have hintake := @Intake.intro L _
    (pendingPosition poolKey depositor nftMint L.pool.positionCounter standard
      (X.bumpOf (.position poolKey nftMint))
      (X.bumpOf (.positionVault (.position poolKey nftMint))))
    { (c.walletStats.lookup (.walletStats poolKey depositor)).getD
        ⟨.default, .default, 0, 0, 0⟩ with
      pool := poolKey, owner := depositor, bump := X.bumpOf (.walletStats poolKey depositor) }
    hfree' rfl rfl rfl rfl
    (by rw [pendingPosition, hL.walletStats]
        cases c.walletStats.lookup (.walletStats poolKey depositor) <;> rfl)
    (by rw [pendingPosition, hL.walletStats]
        cases c.walletStats.lookup (.walletStats poolKey depositor) <;> rfl)
  refine ⟨L, _, Touches.of_write_stats hL rfl rfl rfl
    (Store.insert_of_lookup hL.weightIndex).symm (Store.insert_of_lookup hL.topTier).symm
    ((OnlyPool.refl hwf.positionKey).write rfl rfl)
    ((restrict_write rfl).trans (congrArg (Finmap.insert _ _) hL.positions.symm)) rfl
    ⟨hcustody.vaults, hcustody.vault, .of_eq rfl⟩, .intake hintake (.single .credit)⟩

theorem deposit_carries {a : DepositAccounts} {update : Option ConfigUpdate} (hwf : c.WellFormed)
    (h : deposit X clock c a = .ok (c', events)) : Carries c c' a.pool update := by
  obtain ⟨pool, record, standard, t₁, t₂, e₂, h⟩ := deposit_ok h
  refine recordDeposit_carries hwf h.loads h.free (fun other pool' hpool' => ?_) h.records
  have hkeeps := initToken_keeps h.init (.principalVault other)
  exact hkeeps.trans (takeCustody_keeps h.takes
    (hwf.not_owner hpool' hkeeps (Pubkey.ne_pool_of_canSign h.signs)))

theorem depositCore_carries {a : DepositCoreAccounts} {update : Option ConfigUpdate}
    (hwf : c.WellFormed) (h : depositCore X clock c a = .ok (c', events)) :
    Carries c c' a.pool update := by
  obtain ⟨pool, record, asset, externals, h⟩ := depositCore_ok h
  exact recordDeposit_carries hwf h.loads h.free (fun _ _ _ => Keeps.refl _ _) h.records

-- ---------------------------------------------------------------------------
-- approve_deposit
-- ---------------------------------------------------------------------------

theorem approveDeposit_carries {operator poolKey positionKey : Pubkey}
    {remaining : List AccountMeta} {value : ℕ} {observedAt lockUntil : ℤ}
    {update : Option ConfigUpdate} (hwf : c.WellFormed)
    (hranked : ∀ L, c.Reads poolKey L → L.Ranked)
    (h : approveDeposit clock c operator poolKey positionKey remaining value observedAt lockUntil
      = .ok (c', events)) : Carries c c' poolKey update := by
  obtain ⟨a, slot, index, topTier, positions, entered, _, targets, _, h⟩ := approveDeposit_ok h
  obtain rfl := h.after
  obtain ⟨L, p, stats, rfl, hL, hposition, hstats, hofPool, hkey, -⟩ := hwf.loadThroughPool h.loads
  have hstate : p.state = .pending := h.pending
  have hactivate := @Move.activate _ _ _ _ _ _ _ _ observedAt clock.unixTimestamp lockUntil
    hposition hstate h.opened hstats h.inserts h.balances
  -- The promotion runs on the ledger the activation left.
  have hout := (hranked L hL).listed.inTier_eq_false hposition (by rw [hstate]; decide)
  have hcrossed : Crossed L.pool.tierSize L.topTier (Tier.entryOf positionKey (p.activated value
      slot L.pool.accEqual observedAt clock.unixTimestamp lockUntil)) c.positions topTier positions
      entered := promoteActivated_ok h.promotes
  obtain ⟨honly, hcross⟩ := Crossed.moves poolKey
    (hactivate.ranked (hranked L hL)) hcrossed (OnlyPool.refl hwf.positionKey)
    (congrArg (Finmap.insert _ _) hL.positions) hofPool rfl hout
  refine .of_moves (Touches.of_write_stats hL rfl rfl rfl rfl rfl (honly.write ?_ ?_) rfl rfl
    (.of_eq hwf hL rfl rfl)) (.head hactivate hcross)
  · cases entered <;> exact hofPool
  · cases entered <;> exact hkey

-- ---------------------------------------------------------------------------
-- reject_deposit
-- ---------------------------------------------------------------------------

theorem rejectDeposit_carries {operator positionKey : Pubkey} {reason : ℕ}
    {update : Option ConfigUpdate} (hwf : c.WellFormed)
    (h : rejectDeposit clock c operator positionKey reason = .ok (c', events)) :
    ∃ key, Carries c c' key update := by
  obtain ⟨p, h⟩ := rejectDeposit_ok h
  obtain rfl := h.after
  obtain ⟨L, hL⟩ := hwf.ofPosition h.found
  have hretire := @Move.retire _ _ _ _ reason (hL.lookup.mpr ⟨h.found, rfl⟩)
    (by rw [h.pending]; decide) (.inl rfl)
  exact ⟨p.pool, .of_moves (Touches.of_write_positions hL rfl rfl rfl
    ((OnlyPool.refl hwf.positionKey).write rfl h.keyed)
    ((restrict_write rfl).trans (congrArg (Finmap.insert _ _) hL.positions.symm)) rfl
    (.of_eq hwf hL rfl rfl)) (.single hretire)⟩

-- ---------------------------------------------------------------------------
-- Positions closed without a payout
-- ---------------------------------------------------------------------------

theorem closed_carries {positionKey : Pubkey} {p : Position} (tokens : Tokens)
    {externals : Externals} {update : Option ConfigUpdate} (hwf : c.WellFormed)
    (hp : c.positions.lookup positionKey = some p)
    (hkey : positionKey = .position p.pool p.nftMint) (hstate : p.state ≠ .active)
    (hkeeps : ∀ other pool, c.pools.lookup other = some pool →
      Keeps c.tokens tokens (.principalVault other)) :
    Carries c { c with positions := c.positions.erase positionKey, tokens, externals } p.pool
      update := by
  obtain ⟨L, hL⟩ := hwf.ofPosition hp
  let closed := { c with positions := c.positions.erase positionKey, tokens, externals }
  obtain ⟨credited, hcustody⟩ : ∃ credited, Custody c closed p.pool (L.vault + credited) :=
    Custody.of_keeps hwf hL hkeeps (.of_eq rfl)
  have hrelease := Move.release (hL.lookup.mpr ⟨hp, rfl⟩) hstate
  exact .of_moves (Touches.of_write_positions hL rfl rfl rfl
    ((OnlyPool.refl hwf.positionKey).close hkey)
    (Store.restrict_erase.trans (congrArg (Finmap.erase _) hL.positions.symm)) rfl hcustody)
    (.tail (.single hrelease) .credit)

theorem returnRejected_carries {payer positionKey : Pubkey} {a : ReleaseAccounts}
    {update : Option ConfigUpdate} (hwf : c.WellFormed)
    (h : returnRejected X clock c payer positionKey a = .ok (c', events)) :
    ∃ key, Carries c c' key update := by
  obtain ⟨p, tokens, externals, h⟩ := returnRejected_ok h
  obtain rfl := h.after
  exact ⟨p.pool, closed_carries _ hwf h.found h.keyed (by rw [h.rejected]; decide)
    (hwf.released h.releases h.keyed)⟩

theorem returnRejectedCore_carries {payer positionKey collection : Pubkey}
    {update : Option ConfigUpdate} (hwf : c.WellFormed)
    (h : returnRejectedCore X clock c payer positionKey collection = .ok (c', events)) :
    ∃ key, Carries c c' key update := by
  obtain ⟨p, named, externals, h⟩ := returnRejectedCore_ok h
  obtain rfl := h.after
  exact ⟨p.pool, closed_carries c.tokens hwf h.found h.keyed (by rw [h.rejected]; decide)
    fun _ _ _ => Keeps.refl _ _⟩

end Deposit

end ByeMachine
