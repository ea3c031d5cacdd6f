import ByeMachine.Refinement.Values

/-!
# Exits as moves

A withdrawal vacates the tier and then pays and closes its position at once; a
claim releases a closed position; a seizure closes an active row and retires any
other.
-/

namespace ByeMachine

open Fallible

variable {X : Programs} {clock : Clock} {c c' : Chain} {events : List Event}
  {poolKey k depositor : Pubkey} {L : Ledger} {p : Position} {stats : WalletStats}

-- ---------------------------------------------------------------------------
-- The payout
-- ---------------------------------------------------------------------------

theorem checkDepositorUsdc_ok {destination : Pubkey} {u : Unit}
    (h : checkDepositorUsdc c poolKey depositor (some destination) = .ok u) :
    ∃ account, c.tokens.lookup destination = some account ∧ account.owner = depositor := by
  simp only [checkDepositorUsdc, loadToken, bind_ok, okOr_ok, require_ok] at h
  obtain ⟨_, -, account, haccount, -, -, howner⟩ := h
  exact ⟨account, haccount, howner⟩

theorem payFees_custody {depositorUsdc : Option Pubkey} {feesPaid : ℕ} {tokens : Tokens} {u : Unit}
    (hwf : c.WellFormed) (hL : c.Reads poolKey L) (hsign : depositor.canSign = true)
    (hcheck : checkDepositorUsdc c poolKey depositor depositorUsdc = .ok u)
    (h : payFees c.tokens poolKey depositorUsdc feesPaid = .ok tokens) :
    feesPaid ≤ L.vault ∧ ∀ c' : Chain, c'.tokens = tokens → c'.rollBatches = c.rollBatches →
      Custody c c' poolKey (L.vault - feesPaid) := by
  obtain ⟨vault, hvault, howner, hamount⟩ := hwf.vault hL
  have hpoolKey := hwf.poolKey poolKey L.pool hL.pool
  rcases Nat.eq_zero_or_pos feesPaid with rfl | hpos
  · simp only [payFees, Nat.lt_irrefl, if_false, pure_ok] at h
    subst h
    exact ⟨Nat.zero_le _, fun c' htokens hbatches => .of_eq hwf hL htokens hbatches⟩
  · simp only [payFees, if_pos hpos, bind_ok, okOr_ok] at h
    obtain ⟨destination, rfl, htransfer⟩ := h
    obtain ⟨account, haccount, howned⟩ := checkDepositorUsdc_ok hcheck
    have hne : Pubkey.principalVault poolKey ≠ destination := by
      rintro rfl
      rw [hvault, Option.some.injEq] at haccount
      rw [← haccount, howner, hpoolKey] at howned
      exact Pubkey.ne_pool_of_canSign hsign _ howned.symm
    obtain ⟨vault', hvault', hle, hdebited⟩ := splTransfer_debit htransfer hne
    obtain rfl : vault = vault' := Option.some.inj (hvault.symm.trans hvault')
    refine ⟨by omega, fun c' htokens hbatches => ?_⟩
    subst htokens
    refine ⟨?_, ⟨_, hdebited, howner, by simp [hamount]⟩, .of_eq hbatches⟩
    intro other pool hother hpool
    refine splTransfer_keeps htransfer fun other' hother' => ?_
    rw [hwf.vaultOwner other pool other' hpool hother']
    exact hother

-- ---------------------------------------------------------------------------
-- withdraw and withdraw_core
-- ---------------------------------------------------------------------------

theorem withdrawTier_ok {p' : Position} {t' : TopTier} {targets : BlankTargets}
    {remaining : List AccountMeta} {positions' : Positions} {change : TierChange}
    (hle : p.inTier = true → p.tierCheckpoint ≤ L.topTier.accTier)
    (hlt : p.legs L.pool.accEqual L.topTier.accTier < 2 ^ 64)
    (h : withdrawTier p.inTier L.topTier L.pool.tierSize poolKey k
      (withdrawn L.pool p stats L.topTier.accTier targets).position remaining c.positions
      = .ok (t', p', positions', change)) :
    ∃ t, TierAfter L k p t ∧ Succeeded poolKey L c p t t' positions' := by
  cases hin : p.inTier with
  | true =>
    simp only [withdrawTier, hin, if_true] at h
    obtain ⟨t, removed, hvacate, hfill⟩ := vacateAndFill_ok h
    simp only [Tier.vacate, bind_ok, okOr_ok, pure_ok, Prod.mk.injEq, Prod.exists] at hvacate
    obtain ⟨_, _, hdemote, _, rfl, _, -, rfl, -⟩ := hvacate
    refine ⟨_, ?_, hfill.imp_right (And.intro hin)⟩
    rw [TierAfter, if_pos hin]
    simp only [Position.legs, Position.tierLeg, hin, if_true] at hlt
    exact ⟨hle hin, by omega, _, hdemote⟩
  | false =>
    simp only [withdrawTier, hin, Bool.false_eq_true, if_false, pure_ok, Prod.mk.injEq] at h
    obtain ⟨rfl, -, rfl, -⟩ := h
    exact ⟨L.topTier, by simp [TierAfter, hin], .inl ⟨rfl, rfl⟩⟩

theorem Position.tierSettled_equalOwed (p : Position) (accEqual accTier : ℕ) :
    (p.tierSettled accTier).equalOwed accEqual = p.legs accEqual accTier := by
  cases hin : p.inTier <;>
    simp [Position.tierSettled, Position.equalOwed, Position.legs, Position.tierLeg,
      Position.leftTier, hin]

theorem withdrawAccounting_touches {depositorUsdc : Option Pubkey} {remaining : List AccountMeta}
    {u : Unit} (hwf : c.WellFormed) (hL : c.Reads poolKey L) (hranked : L.Ranked)
    (hbound : Bound L poolKey k p stats) (hsign : depositor.canSign = true)
    (hcheck : checkDepositorUsdc c poolKey depositor depositorUsdc = .ok u)
    (h : withdrawAccounting clock c poolKey k depositorUsdc remaining
      ⟨L.pool, p, L.weightIndex, L.topTier, stats⟩ = .ok (c', events)) :
    ∃ L', Touches c c' poolKey L L' ∧ Moves L L' := by
  simp only [withdrawAccounting, bind_ok, pure_ok, Prod.mk.injEq, Prod.exists] at h
  obtain ⟨booked, hbooked, index, hindex, t', p', positions', _, htier, tokens, hpay, rfl, -⟩ := h
  obtain ⟨targets, hfrom, -, hle, hlt, howed, rfl⟩ := applyWithdraw_ok.mp hbooked
  obtain ⟨t, hafter, hsucceeded⟩ := withdrawTier_ok hle hlt htier
  obtain ⟨hpaid, hcustody⟩ := payFees_custody hwf hL hsign hcheck hpay
  obtain ⟨hp, hstats, hofPool, hkey, -⟩ := hbound
  obtain ⟨honly, hvacated⟩ := vacancy_moves hwf hL hranked hp hfrom.opened hafter hsucceeded
  have hlegs := p.tierSettled_equalOwed L.pool.accEqual L.topTier.accTier
  have hwithdraw := Move.withdraw
    (L := { L with
      topTier := t'
      positions := (Store.restrict (ofPool poolKey) positions').insert k
        (p.tierSettled L.topTier.accTier) })
    (Finmap.lookup_insert _) (by simp) (hfrom.tierSettled _) (by simpa using hstats)
    (by rwa [hlegs]) (by rwa [hlegs]) (by simpa [withdrawn] using hindex)
  simp only [Store.erase_insert_self, hlegs, Position.tierSettled_recordedValue,
    Position.tierSettled_depositor] at hwithdraw
  exact ⟨_, Touches.of_write_stats hL rfl rfl rfl rfl rfl (honly.close hkey) Store.restrict_erase
    rfl (hcustody _ rfl rfl), .tail hvacated hwithdraw⟩

theorem withdraw_carries {depositorUsdc : Option Pubkey} {remaining : List AccountMeta}
    {release : ReleaseAccounts} {update : Option ConfigUpdate} (hwf : c.WellFormed)
    (hranked : ∀ L, c.Reads poolKey L → L.Ranked)
    (h : withdraw X clock c depositor poolKey k depositorUsdc remaining release
      = .ok (c', events)) : Carries c c' poolKey update := by
  simp only [withdraw, bind_ok, require_ok, requireSigner_ok, pure_ok, Prod.mk.injEq,
    Prod.exists] at h
  obtain ⟨-, hsign, a, ha, -, -, -, -, _, hcheck, c₁, _, haccounting, tokens, externals, hrelease,
    rfl, -⟩ := h
  obtain ⟨L, p, stats, rfl, hL, hbound⟩ := hwf.loadThroughPool ha
  obtain ⟨L', htouches, hmoves⟩ :=
    withdrawAccounting_touches hwf hL (hranked L hL) hbound hsign hcheck haccounting
  have hkey : k = .position p.pool p.nftMint := hbound.ofPool ▸ hbound.positionKey
  obtain ⟨credited, htouches'⟩ := htouches.credited tokens externals
    ((htouches.wellFormed hwf).released hrelease hkey)
  exact .of_moves htouches' (.tail hmoves .credit)

theorem withdrawCore_carries {depositorUsdc : Option Pubkey} {collection : Pubkey}
    {remaining : List AccountMeta} {update : Option ConfigUpdate} (hwf : c.WellFormed)
    (hranked : ∀ L, c.Reads poolKey L → L.Ranked)
    (h : withdrawCore X clock c depositor poolKey k depositorUsdc collection remaining
      = .ok (c', events)) : Carries c c' poolKey update := by
  simp only [withdrawCore, bind_ok, require_ok, requireSigner_ok, pure_ok, Prod.mk.injEq,
    Prod.exists] at h
  obtain ⟨-, hsign, a, ha, -, -, -, -, _, hcheck, _, -, c₁, _, haccounting, externals, -, rfl, -⟩ := h
  obtain ⟨L, p, stats, rfl, hL, hbound⟩ := hwf.loadThroughPool ha
  obtain ⟨L', htouches, hmoves⟩ :=
    withdrawAccounting_touches hwf hL (hranked L hL) hbound hsign hcheck haccounting
  obtain ⟨credited, htouches'⟩ := htouches.credited c₁.tokens externals
    fun _ _ _ => Keeps.refl _ _
  exact .of_moves htouches' (.tail hmoves .credit)

-- ---------------------------------------------------------------------------
-- claim_nft and claim_nft_core
-- ---------------------------------------------------------------------------

theorem claimNft_carries {a : ReleaseAccounts} {update : Option ConfigUpdate} (hwf : c.WellFormed)
    (h : claimNft X clock c depositor k a = .ok (c', events)) : ∃ key, Carries c c' key update := by
  simp only [claimNft, bind_ok, require_ok, loadOwnPosition_ok, pure_ok, Prod.mk.injEq,
    Prod.exists] at h
  obtain ⟨-, -, p, ⟨hp, hkey⟩, -, -, -, -, -, hstate, t, e, hrelease, rfl, -⟩ := h
  exact ⟨p.pool, closed_carries _ hwf hp hkey (by rw [hstate]; decide) (hwf.released hrelease hkey)⟩

theorem claimNftCore_carries {collection : Pubkey} {update : Option ConfigUpdate}
    (hwf : c.WellFormed) (h : claimNftCore X clock c depositor k collection = .ok (c', events)) :
    ∃ key, Carries c c' key update := by
  simp only [claimNftCore, bind_ok, require_ok, loadOwnPosition_ok, pure_ok, Prod.mk.injEq] at h
  obtain ⟨-, -, p, ⟨hp, hkey⟩, -, -, -, -, -, hstate, _, -, e, -, rfl, -⟩ := h
  have hinactive : p.state ≠ .active := by
    rcases hstate with hstate | hstate <;> rw [hstate] <;> decide
  exact ⟨p.pool, closed_carries c.tokens hwf hp hkey hinactive
    fun _ _ _ => Keeps.refl _ _⟩

-- ---------------------------------------------------------------------------
-- close_seized
-- ---------------------------------------------------------------------------

theorem removeDeparted_closing {p' : Position} {t' : TopTier} {targets : BlankTargets}
    {index : WeightIndex} {change : TierChange} (hmax : L.topTier.len ≤ MAX_TIER_SIZE)
    (h : removeDeparted L.weightIndex L.topTier k (p.departed .seized L.pool.accEqual)
      (some (departed L.pool p stats targets).effect) = .ok (index, t', p', change)) :
    L.weightIndex.remove p.slotIndex p.recordedValue (L.pool.wReal - weight p.recordedValue)
        = .ok index ∧
      TierAfter L k p t' ∧ p' = p.settledOut .seized L.pool.accEqual L.topTier.accTier
        p.recordedValue p.valueObservedAt := by
  simp only [removeDeparted, bind_ok, pure_ok, Prod.mk.injEq, Prod.exists] at h
  obtain ⟨_, hremove, _, _, _, hdeparted, rfl, rfl, rfl, -⟩ := h
  refine ⟨hremove, ?_⟩
  have hvacated : vacateDeparted p.inTier L.topTier k (p.departed .seized L.pool.accEqual)
    = .ok (_, _, _) := hdeparted
  cases hin : p.inTier with
  | true =>
    simp only [vacateDeparted, hin, if_true, bind_ok, pure_ok, Prod.mk.injEq,
      Prod.exists] at hvacated
    obtain ⟨_, _, removed, hvacate, rfl, rfl, -⟩ := hvacated
    exact vacate_departed p.recordedValue p.valueObservedAt hin hmax
      hvacate
  | false =>
    simp only [vacateDeparted, hin, Bool.false_eq_true, if_false, pure_ok,
      Prod.mk.injEq] at hvacated
    obtain ⟨rfl, rfl, -⟩ := hvacated
    exact ⟨by simp [TierAfter, hin], by simp [Position.settledOut, Position.tierSettled, hin]; rfl⟩

theorem closeSeized_carries {caller collection : Pubkey} {update : Option ConfigUpdate}
    (hwf : c.WellFormed) (hranked : ∀ L, c.Reads poolKey L → L.Ranked)
    (h : closeSeized X clock c caller poolKey k collection = .ok (c', events)) :
    Carries c c' poolKey update := by
  simp only [closeSeized, bind_ok, require_ok, pure_ok, Prod.mk.injEq, Prod.exists] at h
  obtain ⟨-, -, a, ha, -, -, -, -, kind, _, -, booked, hbooked, index, t', p', _, hremove, rfl,
    -⟩ := h
  obtain ⟨L, p, stats, rfl, hL, hbound⟩ := hwf.loadThroughPool ha
  dsimp only at hbooked hremove ⊢
  by_cases hactive : p.state = .active
  · obtain ⟨targets, hfrom, -, hpool, hposition, hstats, heffect⟩ :=
      applyCloseSeized_active hactive hbooked
    rw [hposition, heffect] at hremove
    obtain ⟨hindex, hafter, rfl⟩ := removeDeparted_closing (hranked L hL).len_le_max hremove
    rw [hpool, hstats]
    exact closing_carries hwf hL (hranked L hL) hbound hfrom (.inr rfl) hindex hafter
      (.inl ⟨rfl, rfl⟩)
  · obtain ⟨hpool, hposition, hstats, heffect⟩ := applyCloseSeized_inactive hactive hbooked
    rw [hposition, heffect] at hremove
    simp only [removeDeparted, pure_ok, Prod.mk.injEq] at hremove
    obtain ⟨rfl, rfl, rfl, -⟩ := hremove
    rw [hpool, hstats]
    obtain ⟨hp, hwallet, hofPool, hkey, -⟩ := hbound
    rw [hL.walletStats] at hwallet
    have hretire := @Move.retire _ _ _ _ p.rejectReason hp hactive (.inr rfl)
    -- The other four accounts are written back as they were read.
    rw [Store.insert_of_lookup hL.pool, Store.insert_of_lookup hL.weightIndex,
      Store.insert_of_lookup hL.topTier, Store.insert_of_lookup hwallet]
    exact .of_moves (Touches.of_write_positions hL rfl rfl rfl
      ((OnlyPool.refl hwf.positionKey).write hofPool hkey)
      ((restrict_write (p := { p with state := .seized }) hofPool).trans
        (congrArg (Finmap.insert _ _) hL.positions.symm)) rfl (.of_eq hwf hL rfl rfl))
      (.single hretire)

-- ---------------------------------------------------------------------------
-- update_tier
-- ---------------------------------------------------------------------------

theorem updateTier_carries {operator : Pubkey} {remaining : List AccountMeta}
    {update : Option ConfigUpdate} (hwf : c.WellFormed)
    (hranked : ∀ L, c.Reads poolKey L → L.Ranked)
    (h : updateTier clock c operator poolKey k remaining = .ok (c', events)) :
    Carries c c' poolKey update := by
  simp only [updateTier, bind_ok, require_ok, pure_ok, Prod.mk.injEq, Prod.exists,
    Tier.isEligibleCandidate, Bool.and_eq_true, decide_eq_true_eq, Bool.not_eq_true'] at h
  obtain ⟨_, -, pool, hpool, topTier, htopTier, p, hposition, -, ⟨hactive, hout⟩, t', p', crossed,
    hcross, positions', _, hsettle, rfl, -⟩ := h
  obtain ⟨L, hL, rfl, -⟩ := hwf.loadPool hpool
  obtain ⟨hp, hofPool, hkey⟩ := hwf.loadPositionOf hposition
  obtain rfl := Option.some.inj ((loadTopTier_ok.mp htopTier).symm.trans hL.topTier)
  have hp' : L.positions.lookup k = some p := hL.lookup.mpr ⟨hp, hofPool⟩
  obtain ⟨hcrossed, rfl⟩ := settleCrossed_ok hcross hsettle
  obtain ⟨honly, hmoves⟩ := Crossed.moves poolKey (hranked L hL) hcrossed
    (.refl hwf.positionKey) (by rw [← hL.positions, Store.insert_of_lookup hp']) hofPool hactive
    hout
  exact .of_moves (Touches.of_write_pool hL (Store.insert_of_lookup hL.pool).symm rfl rfl rfl rfl
    (honly.write hofPool hkey) rfl rfl (.of_eq hwf hL rfl rfl)) hmoves

end ByeMachine
