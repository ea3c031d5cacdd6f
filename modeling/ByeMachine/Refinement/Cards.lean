import ByeMachine.Refinement.Exits
import ByeMachine.Refinement.Fate

/-!
# Where the cards go

A Token Metadata card is the one unit of its mint in a token account; a Core card
names its owner itself. An instruction moves no card, takes one in, or pays one
out of the vault of the position it closes.
-/

namespace ByeMachine

open Fallible

def coreOwner (X : Programs) (info : AccountInfo) : Option Pubkey :=
  if info.owner = .program .mplCore then
    ((X.parseAsset info.data).filter fun asset => asset.key = .assetV1).map (·.owner)
  else none

def Instr.exits : Instr → Option Pubkey
  | .withdraw _ _ position _ _ _ | .withdrawCore _ _ position _ _ _ | .claimNft _ position _
  | .claimNftCore _ position _ | .returnRejected _ position _ | .returnRejectedCore _ position _ =>
    some position
  | _ => none

def Instr.takes : Instr → Option (Pubkey × Pubkey)
  | .deposit a => some (.position a.pool a.nftMint, a.depositor)
  | .depositCore a => some (.position a.pool a.asset, a.depositor)
  | _ => none

theorem Instr.takes_of_exits {instr : Instr} {k : Pubkey} (h : instr.exits = some k) :
    instr.takes = none := by
  cases instr <;> first | rfl | cases h

def Instr.cardTo : Instr → Option Pubkey
  | .withdraw _ _ _ _ _ accounts | .claimNft _ _ accounts | .returnRejected _ _ accounts =>
    some accounts.depositorToken
  | _ => none

/-- The fee payout that goes before the card: out of the pool's vault, for a withdrawal only. -/
inductive FeesPaid (tokens : Tokens) : Instr → Tokens → Prop where
  | withdraw {depositor pool position : Pubkey} {depositorUsdc : Option Pubkey}
      {remaining : List AccountMeta} {accounts : ReleaseAccounts} {n : ℕ} {paid : Tokens}
      (hpaid : payFees tokens pool depositorUsdc n = .ok paid) :
      FeesPaid tokens (.withdraw depositor pool position depositorUsdc remaining accounts) paid
  | withdrawCore {depositor pool position collection : Pubkey} {depositorUsdc : Option Pubkey}
      {remaining : List AccountMeta} {n : ℕ} {paid : Tokens}
      (hpaid : payFees tokens pool depositorUsdc n = .ok paid) :
      FeesPaid tokens (.withdrawCore depositor pool position depositorUsdc collection remaining) paid
  | claimNft {depositor position : Pubkey} {accounts : ReleaseAccounts} :
      FeesPaid tokens (.claimNft depositor position accounts) tokens
  | claimNftCore {depositor position collection : Pubkey} :
      FeesPaid tokens (.claimNftCore depositor position collection) tokens
  | returnRejected {payer position : Pubkey} {accounts : ReleaseAccounts} :
      FeesPaid tokens (.returnRejected payer position accounts) tokens
  | returnRejectedCore {payer position collection : Pubkey} :
      FeesPaid tokens (.returnRejectedCore payer position collection) tokens

/-- What an instruction does to the token accounts and to other programs' accounts. -/
inductive CardMove (X : Programs) (c c' : Chain) : Instr → Prop where
  | idle {instr : Instr} (hexits : instr.exits = none) (htakes : instr.takes = none)
      (htokens : c'.tokens = c.tokens) (hexternals : c'.externals = c.externals) :
      CardMove X c c' instr
  | founded {administrator weightIndex : Pubkey} {args : PoolConfigArgs}
      (hkeeps : ∀ key, Keeps c.tokens c'.tokens key) (hexternals : c'.externals = c.externals) :
      CardMove X c c' (.initPool administrator weightIndex args)
  | committed {roller pool source : Pubkey} {n amount : ℕ} {request : VrfRequest}
      (hsign : roller.canSign = true)
      (hpaid : splTransfer c.tokens source (.principalVault pool) roller amount = .ok c'.tokens)
      (hrequest : X.requestRandomness request c.externals = some c'.externals) :
      CardMove X c c' (.commitRolls roller pool source n)
  | taken {a : DepositAccounts} {standard bump vaultBump : ℕ} {pool : Pool} {tokens : Tokens}
      (hsign : a.depositor.canSign = true)
      (hfree : c.positions.lookup (.position a.pool a.nftMint) = none)
      (hopened : c'.positions.lookup (.position a.pool a.nftMint) = some (pendingPosition a.pool
        a.depositor a.nftMint pool.positionCounter standard bump vaultBump))
      (hinit : initToken c.tokens (.positionVault (.position a.pool a.nftMint)) a.nftMint
        (.position a.pool a.nftMint) = .ok tokens)
      (hcustody : takeCustody X standard a tokens c.externals = .ok (c'.tokens, c'.externals)) :
      CardMove X c c' (.deposit a)
  | takenCore {a : DepositCoreAccounts} {bump vaultBump : ℕ} {pool : Pool}
      (hsign : a.depositor.canSign = true)
      (hfree : c.positions.lookup (.position a.pool a.asset) = none)
      (hopened : c'.positions.lookup (.position a.pool a.asset) = some (pendingPosition a.pool
        a.depositor a.asset pool.positionCounter STANDARD_CORE bump vaultBump))
      (howner : coreOwner X (c.externals a.asset) = some a.depositor)
      (htokens : c'.tokens = c.tokens)
      (htransfer : X.transferCore ⟨a.asset, some a.collection,
        .positionVault (.position a.pool a.asset), a.depositor, a.depositor⟩ c.externals
          = some c'.externals) :
      CardMove X c c' (.depositCore a)
  | released {instr : Instr} {k payer : Pubkey} {p : Position} {accounts : ReleaseAccounts}
      {paid : Tokens} (hexits : instr.exits = some k)
      (hcard : instr.cardTo = some accounts.depositorToken)
      (hp : c.positions.lookup k = some p) (hclosed : c'.positions.lookup k = none)
      (hfees : FeesPaid c.tokens instr paid)
      (hrelease : releaseAndClose X p k payer accounts paid c.externals
        = .ok (c'.tokens, c'.externals)) :
      CardMove X c c' instr
  | releasedCore {instr : Instr} {k payer : Pubkey} {p : Position} {named : Option Pubkey}
      (hexits : instr.exits = some k) (hp : c.positions.lookup k = some p)
      (hclosed : c'.positions.lookup k = none) (hstandard : p.standard = STANDARD_CORE)
      (hfees : FeesPaid c.tokens instr c'.tokens)
      (howner : coreOwner X (c.externals p.nftMint) = some (.positionVault k))
      (htransfer : X.transferCore ⟨p.nftMint, named, p.depositor, .positionVault k, payer⟩
        c.externals = some c'.externals) :
      CardMove X c c' instr

section CardMoves

variable {X : Programs} {clock : Clock} {c c' : Chain} {events : List Event} {instr : Instr}
  {k : Pubkey} {p : Position}

theorem readCoreAsset_owner {info : AccountInfo} {asset : BaseAssetV1}
    (h : readCoreAsset X info = .ok asset) : coreOwner X info = some asset.owner := by
  simp only [readCoreAsset, bind_ok, require_ok, okOr_ok, pure_ok] at h
  obtain ⟨-, howner, _, hparsed, -, hkey, rfl⟩ := h
  simp [coreOwner, howner, hparsed, hkey]

theorem requireCollateralSettleable_owner {externals : Externals} {asset collection vault : Pubkey}
    {named : Option Pubkey}
    (h : requireCollateralSettleable X externals asset collection vault = .ok named) :
    coreOwner X (externals asset) = some vault := by
  simp only [requireCollateralSettleable, bind_ok] at h
  obtain ⟨⟨reading, _⟩, hread, h⟩ := h
  unfold readCollateral at hread
  dsimp only at hread
  split at hread
  · obtain ⟨rfl, -⟩ := Prod.mk.inj (pure_ok.mp hread)
    cases h
  case isFalse howner =>
    split at hread
    · obtain ⟨rfl, -⟩ := Prod.mk.inj (pure_ok.mp hread)
      cases h
    next parsed hparsed =>
      split at hread
      · obtain ⟨rfl, -⟩ := Prod.mk.inj (pure_ok.mp hread)
        cases h
      next hvault =>
        rw [coreOwner, if_pos (not_not.mp howner), hparsed, Option.map_some, not_not.mp hvault]

theorem withdrawAccounting_fees {poolKey : Pubkey} {depositorUsdc : Option Pubkey}
    {remaining : List AccountMeta} {a : Loaded}
    (h : withdrawAccounting clock c poolKey k depositorUsdc remaining a = .ok (c', events)) :
    (∃ n, payFees c.tokens poolKey depositorUsdc n = .ok c'.tokens) ∧
      c'.externals = c.externals ∧ c'.positions.lookup k = none := by
  simp only [withdrawAccounting, bind_ok, pure_ok, Prod.mk.injEq, Prod.exists] at h
  obtain ⟨_, -, _, -, _, _, _, _, -, _, hpaid, rfl, -⟩ := h
  exact ⟨⟨_, hpaid⟩, rfl, Finmap.lookup_erase _ _⟩

theorem withdraw_cardMove {depositor poolKey : Pubkey} {depositorUsdc : Option Pubkey}
    {remaining : List AccountMeta} {accounts : ReleaseAccounts}
    (h : withdraw X clock c depositor poolKey k depositorUsdc remaining accounts
      = .ok (c', events)) :
    CardMove X c c' (.withdraw depositor poolKey k depositorUsdc remaining accounts) := by
  simp only [withdraw, bind_ok, require_ok, pure_ok, Prod.mk.injEq, Prod.exists] at h
  obtain ⟨-, -, a, ha, -, rfl, -, -, -, -, c₁, _, haccounting, tokens, externals, hrelease, rfl, -⟩ :=
    h
  obtain ⟨-, hp, -⟩ := loadThroughPool_ok ha
  obtain ⟨⟨n, hpaid⟩, hexternals, hclosed⟩ := withdrawAccounting_fees haccounting
  rw [hexternals] at hrelease
  exact .released rfl rfl hp hclosed (.withdraw hpaid) hrelease

theorem withdrawCore_cardMove {depositor poolKey collection : Pubkey}
    {depositorUsdc : Option Pubkey} {remaining : List AccountMeta}
    (h : withdrawCore X clock c depositor poolKey k depositorUsdc collection remaining
      = .ok (c', events)) :
    CardMove X c c' (.withdrawCore depositor poolKey k depositorUsdc collection remaining) := by
  simp only [withdrawCore, bind_ok, require_ok, pure_ok, Prod.mk.injEq, Prod.exists] at h
  obtain ⟨-, -, a, ha, -, rfl, -, hstandard, -, -, named, hgate, c₁, _, haccounting, externals,
    hrelease, rfl, -⟩ := h
  obtain ⟨-, hp, -⟩ := loadThroughPool_ok ha
  obtain ⟨⟨n, hpaid⟩, hexternals, hclosed⟩ := withdrawAccounting_fees haccounting
  rw [hexternals] at hrelease
  exact .releasedCore rfl hp hclosed hstandard (.withdrawCore hpaid)
    (requireCollateralSettleable_owner hgate) (okOr_ok.mp hrelease)

theorem deposit_cardMove {a : DepositAccounts} (h : deposit X clock c a = .ok (c', events)) :
    CardMove X c c' (.deposit a) := by
  simp only [deposit, bind_ok, require_ok, requireSigner_ok, recordDeposit, pure_ok, Prod.mk.injEq,
    Prod.exists] at h
  obtain ⟨-, hsign, pool, -, _, -, -, hfree, tokens, hinit, _, -, _, -, -, -, -, -, -, -, standard, -,
    tokens', externals', hcustody, _, -, rfl, -⟩ := h
  exact .taken hsign hfree (Finmap.lookup_insert _) hinit hcustody

theorem depositCore_cardMove {a : DepositCoreAccounts}
    (h : depositCore X clock c a = .ok (c', events)) : CardMove X c c' (.depositCore a) := by
  simp only [depositCore, bind_ok, require_ok, requireSigner_ok, recordDeposit, pure_ok,
    Prod.mk.injEq] at h
  obtain ⟨-, hsign, pool, -, _, -, -, hfree, -, -, asset, hasset, -, howner, _, -, _, -, -, -,
    externals', htransfer, _, -, rfl, -⟩ := h
  have hread := readCoreAsset_owner hasset
  rw [howner] at hread
  exact .takenCore hsign hfree (Finmap.lookup_insert _) hread rfl (okOr_ok.mp htransfer)

theorem Housekeeping.cards (h : Housekeeping c c') :
    c'.tokens = c.tokens ∧ c'.externals = c.externals := by
  cases h <;> exact ⟨rfl, rfl⟩

/-- Every successful instruction moves the cards by one of the moves. -/
theorem exec_cardMove (h : exec X clock c instr = .ok (c', events)) : CardMove X c c' instr := by
  cases hkeeps : instr.keepsHouse with
  | true =>
    obtain ⟨htokens, hexternals⟩ := (exec_housekeeping hkeeps h).cards
    refine .idle ?_ ?_ htokens hexternals
    all_goals cases instr <;> first | rfl | cases hkeeps
  | false =>
    cases instr with
    | initPool administrator weightIndex args =>
      simp only [exec, initPool, bind_ok, require_ok, pure_ok, Prod.mk.injEq] at h
      obtain ⟨_, -, -, -, -, -, -, -, -, -, t₁, hinit₁, t₂, hinit₂, _, -, -, -, _, -, rfl, -⟩ := h
      exact .founded (fun key => (initToken_keeps hinit₁ key).trans (initToken_keeps hinit₂ key)) rfl
    | updateConfig administrator pool remaining update =>
      simp only [exec, updateConfig, bind_ok, pure_ok, Prod.mk.injEq, Prod.exists] at h
      obtain ⟨_, -, _, -, _, -, _, -, _, -, _, _, _, -, rfl, -⟩ := h
      exact .idle rfl rfl rfl rfl
    | deposit accounts => exact deposit_cardMove h
    | depositCore accounts => exact depositCore_cardMove h
    | approveDeposit operator pool position remaining value observedAt lockUntil =>
      simp only [exec, approveDeposit, bind_ok, require_ok, pure_ok, Prod.mk.injEq, Prod.exists] at h
      obtain ⟨_, -, _, -, -, -, -, -, -, -, -, -, _, -, _, -, _, -, _, -, _, _, -, _, -, _, -, _, _, _,
        _, -, _, -, _, -, rfl, -⟩ := h
      exact .idle rfl rfl rfl rfl
    | rejectDeposit operator position reason =>
      simp only [exec, rejectDeposit, bind_ok, require_ok, pure_ok, Prod.mk.injEq] at h
      obtain ⟨_, -, _, -, -, -, -, -, rfl, -⟩ := h
      exact .idle rfl rfl rfl rfl
    | returnRejected payer position accounts =>
      simp only [exec, returnRejected, bind_ok, pure_ok, Prod.mk.injEq, Prod.exists,
        loadOwnPosition_ok] at h
      obtain ⟨-, -, p, ⟨hp, -⟩, _, -, -, -, tokens, externals, hrelease, rfl, -⟩ := h
      exact .released rfl rfl hp (Finmap.lookup_erase _ _) .returnRejected hrelease
    | returnRejectedCore payer position collection =>
      simp only [exec, returnRejectedCore, bind_ok, require_ok, pure_ok, Prod.mk.injEq,
        loadOwnPosition_ok] at h
      obtain ⟨-, -, p, ⟨hp, -⟩, -, hstandard, -, -, named, hgate, externals, hrelease, rfl, -⟩ := h
      exact .releasedCore rfl hp (Finmap.lookup_erase _ _) hstandard .returnRejectedCore
        (requireCollateralSettleable_owner hgate) (okOr_ok.mp hrelease)
    | recordValue operator pool position remaining value observedAt =>
      simp only [exec, recordValue, bind_ok, pure_ok, Prod.mk.injEq, Prod.exists] at h
      obtain ⟨_, -, _, -, _, -, _, -, _, _, _, _, -, rfl, -⟩ := h
      exact .idle rfl rfl rfl rfl
    | withdraw depositor pool position depositorUsdc remaining accounts =>
      exact withdraw_cardMove h
    | withdrawCore depositor pool position depositorUsdc collection remaining =>
      exact withdrawCore_cardMove h
    | claimNft depositor position accounts =>
      simp only [exec, claimNft, bind_ok, require_ok, pure_ok, Prod.mk.injEq, Prod.exists,
        loadOwnPosition_ok] at h
      obtain ⟨-, -, p, ⟨hp, -⟩, -, rfl, _, -, -, -, tokens, externals, hrelease, rfl, -⟩ := h
      exact .released rfl rfl hp (Finmap.lookup_erase _ _) .claimNft hrelease
    | claimNftCore depositor position collection =>
      simp only [exec, claimNftCore, bind_ok, require_ok, pure_ok, Prod.mk.injEq,
        loadOwnPosition_ok] at h
      obtain ⟨-, -, p, ⟨hp, -⟩, -, rfl, -, hstandard, -, -, named, hgate, externals, hrelease, rfl,
        -⟩ := h
      exact .releasedCore rfl hp (Finmap.lookup_erase _ _) hstandard .claimNftCore
        (requireCollateralSettleable_owner hgate) (okOr_ok.mp hrelease)
    | closeSeized caller pool position collection =>
      simp only [exec, closeSeized, bind_ok, require_ok, pure_ok, Prod.mk.injEq, Prod.exists] at h
      obtain ⟨-, -, _, -, -, -, -, -, _, _, -, _, -, _, _, _, _, -, rfl, -⟩ := h
      exact .idle rfl rfl rfl rfl
    | commitRolls roller pool rollerUsdc n =>
      simp only [exec, commitRolls, bind_ok, requireSigner_ok, pure_ok, Prod.mk.injEq,
        Prod.exists] at h
      obtain ⟨-, hsign, _, -, _, -, _, -, -, -, _, -, _, -, -, -, -, -, -, -, _, _, _, -, _, hpaid, _,
        hrequest, rfl, -⟩ := h
      exact .committed hsign hpaid (okOr_ok.mp hrequest)
    | vrfCallback signer batch pool randomness =>
      simp only [exec, vrfCallback, bind_ok, pure_ok, Prod.mk.injEq] at h
      obtain ⟨-, -, _, -, -, -, _, -, -, -, _, -, rfl, -⟩ := h
      exact .idle rfl rfl rfl rfl
    | updateTier operator pool position remaining =>
      simp only [exec, updateTier, bind_ok, require_ok, pure_ok, Prod.mk.injEq, Prod.exists] at h
      obtain ⟨_, -, _, -, _, -, _, -, -, -, _, _, _, -, _, _, -, rfl, -⟩ := h
      exact .idle rfl rfl rfl rfl
    | _ => cases hkeeps

end CardMoves

-- ---------------------------------------------------------------------------
-- One unit of a mint
-- ---------------------------------------------------------------------------

/-- The vault held one unit and no more: it is closed, and the unit stands on an account of
`owner`'s. -/
structure UnitMoved (t t' : Tokens) (vault destination owner : Pubkey) : Prop where
  apart : destination ≠ vault
  unit : ∃ account account', t.lookup vault = some account ∧ account.amount = 1 ∧
    t'.lookup destination = some account' ∧ account'.mint = account.mint ∧
    account'.owner = owner ∧
    account'.amount = ((t.lookup destination).map (·.amount)).getD 0 + 1
  closed : t'.lookup vault = none
  others : ∀ key, key ≠ vault → key ≠ destination → t'.lookup key = t.lookup key

section Units

variable {X : Programs} {t t' t'' : Tokens} {e e' : Externals} {source destination key : Pubkey}
  {amount : ℕ}

theorem moveToken_moves (h : moveToken t source destination amount = .ok t')
    (hne : source ≠ destination) : ∃ debited credited, t.lookup source = some debited ∧
      t.lookup destination = some credited ∧ debited.mint = credited.mint ∧
      amount ≤ debited.amount ∧
      t' = (t.insert source { debited with amount := debited.amount - amount }).insert destination
        { credited with amount := credited.amount + amount } := by
  simp only [moveToken, bind_ok, okOr_ok, require_ok, if_neg hne, Checked.add_some, pure_ok] at h
  obtain ⟨debited, hdebited, credited, hcredited, -, ⟨hmint, hle⟩, _, ⟨-, rfl⟩, rfl⟩ := h
  exact ⟨debited, credited, hdebited, hcredited, hmint, hle, rfl⟩

theorem moveToken_fills {debited account : TokenAccount}
    (hdebited : t.lookup source = some debited) (hfound : t.lookup destination = some account)
    (howner : debited.owner ≠ account.owner)
    (h : moveToken t source destination 1 = .ok t') :
    t'.lookup destination = some { account with amount := account.amount + 1 } := by
  have hne : source ≠ destination := by
    rintro rfl
    obtain rfl := Option.some.inj (hdebited.symm.trans hfound)
    exact howner rfl
  obtain ⟨_, credited, -, hcredited, -, -, rfl⟩ := moveToken_moves h hne
  obtain rfl := Option.some.inj (hfound.symm.trans hcredited)
  exact Finmap.lookup_insert _

theorem createIdempotent_ok {mint owner : Pubkey}
    (h : createIdempotent t destination mint owner = .ok t') :
    (∃ account, t'.lookup destination = some account ∧ account.mint = mint ∧
      account.owner = owner ∧
      account.amount = ((t.lookup destination).map (·.amount)).getD 0) ∧
      ∀ key, key ≠ destination → t'.lookup key = t.lookup key := by
  unfold createIdempotent at h
  split at h
  · next hnone =>
    obtain rfl := pure_ok.mp h
    rw [hnone]
    exact ⟨⟨_, Finmap.lookup_insert _, rfl, rfl, rfl⟩, fun key hkey =>
      Finmap.lookup_insert_of_ne _ hkey⟩
  · next account hfound =>
    simp only [bind_ok, require_ok, pure_ok] at h
    obtain ⟨-, ⟨hmint, howner⟩, rfl⟩ := h
    exact ⟨⟨account, hfound, hmint, howner, by rw [hfound]; rfl⟩, fun _ _ => rfl⟩

theorem createIdempotent_found {mint owner : Pubkey} {account : TokenAccount}
    (hfound : t.lookup destination = some account)
    (h : createIdempotent t destination mint owner = .ok t') : t' = t := by
  simp only [createIdempotent, hfound, bind_ok, pure_ok] at h
  obtain ⟨-, -, rfl⟩ := h
  rfl

theorem UnitMoved.of_close {vault mint owner authority : Pubkey}
    (hcreate : createIdempotent t destination mint owner = .ok t')
    (hmove : moveToken t' vault destination 1 = .ok t'')
    {closed : Tokens} (hclose : closeToken t'' vault authority = .ok closed) :
    UnitMoved t closed vault destination owner := by
  obtain ⟨⟨made, hmade, hmint, howner, hbefore⟩, hothers⟩ := createIdempotent_ok hcreate
  simp only [closeToken, bind_ok, okOr_ok, require_ok, pure_ok] at hclose
  obtain ⟨emptied, hemptied, -, ⟨hzero, -⟩, rfl⟩ := hclose
  have hapart : vault ≠ destination := by
    -- A transfer to itself leaves the vault full, and it is not closed.
    rintro rfl
    simp only [moveToken, bind_ok, okOr_ok, require_ok, if_true, pure_ok] at hmove
    obtain ⟨debited, hdebited, _, -, -, ⟨-, hle⟩, rfl⟩ := hmove
    obtain rfl := Option.some.inj (hdebited.symm.trans hemptied)
    omega
  obtain ⟨debited, credited, hdebited, hcredited, hmints, hle, rfl⟩ := moveToken_moves hmove hapart
  obtain rfl := Option.some.inj (hmade.symm.trans hcredited)
  rw [Finmap.lookup_insert_of_ne _ hapart, Finmap.lookup_insert, Option.some.injEq] at hemptied
  have hone : debited.amount = 1 := by
    rw [← hemptied] at hzero
    dsimp only at hzero
    omega
  refine ⟨hapart.symm, ⟨debited, { made with amount := made.amount + 1 }, ?_, hone, ?_, hmints.symm,
    howner, ?_⟩, Finmap.lookup_erase _ _, ?_⟩
  · rw [← hothers vault hapart]
    exact hdebited
  · rw [Finmap.lookup_erase_ne hapart.symm]
    exact Finmap.lookup_insert _
  · rw [hbefore]
  · intro key hvault hdestination
    rw [Finmap.lookup_erase_ne hvault, Finmap.lookup_insert_of_ne _ hdestination,
      Finmap.lookup_insert_of_ne _ hvault]
    exact hothers key hdestination

theorem releaseAndClose_moves {p : Position} {k payer : Pubkey} {a : ReleaseAccounts}
    (h : releaseAndClose X p k payer a t e = .ok (t', e')) :
    (p.standard = STANDARD_PNFT ∨ p.standard = STANDARD_LEGACY) ∧
      UnitMoved t t' (.positionVault k) a.depositorToken p.depositor ∧
      (p.standard = STANDARD_LEGACY →
        a.depositorToken = X.associatedTokenAddress p.depositor p.nftMint) := by
  simp only [releaseAndClose, bind_ok, pure_ok, Prod.mk.injEq] at h
  obtain ⟨⟨t₁, e₁⟩, hrelease, t₂, hclose, rfl, rfl⟩ := h
  unfold releaseFromVault at hrelease
  split at hrelease
  next hpnft =>
    simp only [transferPnft, bind_ok, pure_ok, Prod.mk.injEq] at hrelease
    obtain ⟨_, -, _, -, _, -, _, -, _, -, -, -, _, hcreate, _, hmove, rfl, -⟩ := hrelease
    refine ⟨.inl hpnft, .of_close hcreate hmove hclose, fun hlegacy => ?_⟩
    rw [hpnft] at hlegacy
    cases hlegacy
  next =>
    split at hrelease
    next hlegacy =>
      simp only [bind_ok, require_ok, pure_ok, Prod.mk.injEq] at hrelease
      obtain ⟨-, -, -, haddress, _, hcreate, _, htransfer, rfl, -⟩ := hrelease
      exact ⟨.inr hlegacy, .of_close hcreate (splTransfer_move htransfer).1 hclose,
        fun _ => haddress⟩
    next => cases hrelease

theorem takeCustody_fills {standard : ℕ} {a : DepositAccounts}
    (hinit : initToken t (.positionVault (.position a.pool a.nftMint)) a.nftMint
      (.position a.pool a.nftMint) = .ok t')
    (hsign : a.depositor.canSign = true) (h : takeCustody X standard a t' e = .ok (t'', e')) :
    t''.lookup (.positionVault (.position a.pool a.nftMint))
      = some ⟨a.nftMint, .position a.pool a.nftMint, 1, false⟩ := by
  simp only [initToken, bind_ok, require_ok, pure_ok] at hinit
  obtain ⟨-, -, rfl⟩ := hinit
  have hvault := Finmap.lookup_insert (a := Pubkey.positionVault (.position a.pool a.nftMint))
    (b := (⟨a.nftMint, .position a.pool a.nftMint, 0, false⟩ : TokenAccount)) t
  -- Either route debits an account of the depositor's, which the new vault is not.
  have hnot : ∀ debited : TokenAccount, debited.owner = a.depositor →
      debited.owner ≠ .position a.pool a.nftMint := by
    intro debited howner heq
    rw [← howner, heq] at hsign
    cases hsign
  unfold takeCustody at h
  split at h
  · simp only [transferPnft, bind_ok, okOr_ok, require_ok, pure_ok, Prod.mk.injEq] at h
    obtain ⟨_, -, _, -, _, -, _, -, source, hsource, -, howner, t₁, hcreate, _, hmove, rfl, -⟩ := h
    obtain rfl := createIdempotent_found hvault hcreate
    exact moveToken_fills hsource hvault (hnot source howner) hmove
  · split at h
    · simp only [bind_ok, pure_ok, Prod.mk.injEq] at h
      obtain ⟨-, -, _, htransfer, rfl, -⟩ := h
      obtain ⟨hmove, source, hsource, howner⟩ := splTransfer_move htransfer
      exact moveToken_fills hsource hvault (hnot source howner) hmove
    · cases h

end Units

end ByeMachine
