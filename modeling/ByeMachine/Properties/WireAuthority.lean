import ByeMachine.Properties.InstructionWire
import ByeMachine.Refinement.Footprint

/-!
# What an instruction on the wire may do

Whatever the data and the accounts of an instruction are: if the program accepts
it, it changed only accounts that the instruction passes to be written, and the
instruction carries the signature that the ledger asks for.
-/

namespace ByeMachine

open Borsh Fallible

-- ---------------------------------------------------------------------------
-- What taking accounts asks
-- ---------------------------------------------------------------------------

/-- What is taken off accounts of the instruction is only taken where `Q` holds of it. -/
def Asks (i : Instruction) {α : Type} (m : AccountsIter α) (Q : α → Prop) : Prop :=
  ∀ accounts v rest, accounts ⊆ i.passed → m accounts = some (v, rest) →
    rest ⊆ i.passed ∧ Q v

namespace Asks

open AccountsIter

variable {i : Instruction} {α β : Type} {m : AccountsIter α} {f : α → AccountsIter β}
  {P : α → Prop} {Q : β → Prop}

protected theorem pure {v : α} (h : P v) : Asks i (pure v) P := by
  intro accounts u rest hsub hrun
  cases hrun
  exact ⟨hsub, h⟩

protected theorem bind (h : Asks i m P) (hf : ∀ v, P v → Asks i (f v) Q) : Asks i (m >>= f) Q := by
  intro accounts u rest hsub hrun
  have hbind : (m accounts).bind (fun s => f s.1 s.2) = some (u, rest) := hrun
  obtain ⟨⟨v, left⟩, hm, hv⟩ := Option.bind_eq_some_iff.mp hbind
  obtain ⟨hleft, hP⟩ := h accounts v left hsub hm
  exact hf v hP left u rest hleft hv

theorem mono {P' : α → Prop} (h : Asks i m P) (hP : ∀ v, P v → P' v) : Asks i m P' := by
  intro accounts v rest hsub hrun
  obtain ⟨hrest, hv⟩ := h accounts v rest hsub hrun
  exact ⟨hrest, hP v hv⟩

theorem next : Asks i next fun a =>
    (a.isSigner = true → i.signs a.key = true) ∧ (a.isWritable = true → i.writes a.key = true) := by
  rintro (_ | ⟨a, accounts⟩) v rest hsub hrun
  · cases hrun
  · cases hrun
    have hmem : a ∈ i.passed := hsub List.mem_cons_self
    obtain ⟨m, -, rfl⟩ := List.mem_map.mp hmem
    exact ⟨fun x hx => hsub (List.mem_cons_of_mem _ hx), id, id⟩

theorem check {ok : Bool} : Asks i (check ok) fun _ => ok = true := by
  intro accounts v rest hsub hrun
  cases ok with
  | true => cases hrun; exact ⟨hsub, rfl⟩
  | false => cases hrun

theorem read {found : Option α} : Asks i (AccountsIter.read found) fun v => found = some v := by
  intro accounts v rest hsub hrun
  cases found with
  | none => cases hrun
  | some x => cases hrun; exact ⟨hsub, rfl⟩

theorem account : Asks i account fun _ => True := .bind next fun _ _ => .pure trivial

theorem writable : Asks i writable fun k => i.writes k = true :=
  .bind next fun _ ha => .bind check fun _ hok => .pure (ha.2 hok)

theorem signer : Asks i signer fun k => i.signs k = true :=
  .bind next fun _ ha => .bind check fun _ hok => .pure (ha.1 hok)

theorem writableSigner : Asks i writableSigner fun k => i.signs k = true := by
  refine .bind next fun _ ha => .bind check fun _ hok => .pure (ha.1 ?_)
  exact (Bool.and_eq_true_iff.mp hok).1

theorem pinned {key : Pubkey} : Asks i (pinned key) fun _ => True :=
  .bind next fun _ _ => .mono check fun _ _ => trivial

theorem writablePinned {key : Pubkey} : Asks i (writablePinned key) fun _ => i.writes key = true := by
  refine .bind next fun a ha => .mono check fun _ hok => ?_
  obtain ⟨hkey, hwritable⟩ := Bool.and_eq_true_iff.mp hok
  rw [← decide_eq_true_eq.mp hkey]
  exact ha.2 hwritable

theorem optional : Asks i optional fun _ => True := .bind next fun _ _ => .pure trivial

theorem optionalWritable : Asks i optionalWritable fun _ => True := by
  refine .bind next fun a _ => ?_
  split
  · exact .pure trivial
  · exact .bind check fun _ _ => .pure trivial

theorem optionalPinned {key : Pubkey} : Asks i (optionalPinned key) fun _ => True := by
  refine .bind next fun a _ => ?_
  split
  · exact .pure trivial
  · exact .bind check fun _ _ => .pure trivial

theorem remaining : Asks i remaining fun metas => ∀ k ∈ writableKeys metas, i.writes k = true := by
  intro accounts v rest hsub hrun
  cases hrun
  refine ⟨List.nil_subset _, fun k hk => ?_⟩
  obtain ⟨_, hmem, rfl⟩ := List.mem_map.mp hk
  obtain ⟨hmem, hwritable⟩ := List.mem_filter.mp hmem
  obtain ⟨a, ha, rfl⟩ := List.mem_map.mp hmem
  obtain ⟨m, -, rfl⟩ := List.mem_map.mp (hsub ha)
  exact hwritable

end Asks

-- ---------------------------------------------------------------------------
-- Every instruction
-- ---------------------------------------------------------------------------

/-- The instruction passes to be written whatever `instr` may change, and carries its signature. -/
structure Instruction.Allows (i : Instruction) (c : Chain) (instr : Instr) : Prop where
  signs : i.signs instr.signer = true
  writes : ∀ k ∈ instr.footprint c, i.writes k = true

section

variable {w : Encoding} {X : Programs} {K : WellKnown} {c : Chain} {i : Instruction}

theorem boundKeys_pinned {pool position weightIndex depositor : Pubkey}
    (hindex : (c.pools.lookup pool).map (·.weightIndex) = some weightIndex)
    (howner : (c.positions.lookup position).map (·.depositor) = some depositor) :
    boundKeys c pool position =
      [pool, position, .topTier pool, weightIndex, .walletStats pool depositor] := by
  obtain ⟨p, hp, rfl⟩ := Option.map_eq_some_iff.mp howner
  rw [boundKeys, indexKeys, ownerKeys, hindex, hp]
  rfl

theorem asks_attestation : Asks i (Accounts.attestation c) fun v =>
    i.signs v.1 = true ∧
      ∀ k ∈ boundKeys c v.2.1 v.2.2.1 ++ writableKeys v.2.2.2, i.writes k = true := by
  refine .bind Asks.signer fun operator hsigns => .bind Asks.pinned fun _ _ =>
    .bind Asks.writable fun pool hpool => .bind Asks.writable fun position hposition =>
    .bind Asks.read fun weightIndex hindex => .bind Asks.writablePinned fun _ hweights =>
    .bind Asks.writablePinned fun _ htier => .bind Asks.read fun depositor howner =>
    .bind Asks.writablePinned fun _ hstats => .bind Asks.remaining fun rest hrest =>
    .pure ⟨hsigns, ?_⟩
  rw [boundKeys_pinned hindex howner, List.forall_mem_append]
  exact ⟨by simp [hpool, hposition, hweights, htier, hstats], hrest⟩

theorem asks_withdrawal : Asks i (Accounts.withdrawal c) fun v =>
    i.signs v.1 = true ∧ ∀ k ∈ boundKeys c v.2.1 v.2.2.1, i.writes k = true := by
  refine .bind Asks.writableSigner fun depositor hsigns => .bind Asks.writable fun pool hpool =>
    .bind Asks.writable fun position hposition => .bind Asks.read fun weightIndex hindex =>
    .bind Asks.writablePinned fun _ hweights => .bind Asks.writablePinned fun _ htier =>
    .bind Asks.read fun owner howner => .bind Asks.writablePinned fun _ hstats =>
    .bind Asks.writablePinned fun _ _ => .bind Asks.optionalWritable fun _ _ => .pure ⟨hsigns, ?_⟩
  rw [boundKeys_pinned hindex howner]
  simp [hpool, hposition, hweights, htier, hstats]

theorem asks_release : Asks i (Accounts.release K) fun _ => True :=
  .bind Asks.writable fun _ _ => .bind Asks.writable fun _ _ => .bind Asks.account fun _ _ =>
    .bind Asks.optionalWritable fun _ _ => .bind Asks.optionalWritable fun _ _ =>
    .bind Asks.pinned fun _ _ => .bind Asks.optional fun _ _ => .bind Asks.optional fun _ _ =>
    .bind Asks.optionalPinned fun _ _ => .bind Asks.pinned fun _ _ => .bind Asks.pinned fun _ _ =>
    .bind Asks.pinned fun _ _ => .pure trivial

theorem asks_entry (args : Bytes) (name : InstructionName) :
    Asks i (entry w X K c args name) (i.Allows c) := by
  cases name with
  | initProtocol =>
    simp only [entry, Accounts.initProtocol, bind_assoc, pure_bind]
    exact .bind Asks.read fun _ _ => .bind Asks.writableSigner fun _ hsigns =>
      .bind Asks.writablePinned fun _ hconfig => .bind Asks.pinned fun _ _ =>
      .pure ⟨hsigns, by simp [Instr.footprint, hconfig]⟩
  | initPool =>
    simp only [entry, Accounts.initPool, bind_assoc, pure_bind]
    exact .bind Asks.read fun _ _ => .bind Asks.writableSigner fun _ hsigns =>
      .bind Asks.writablePinned fun _ hconfig => .bind Asks.read fun config hfound =>
      .bind Asks.writablePinned fun _ hpool => .bind Asks.writable fun _ hindex =>
      .bind Asks.writablePinned fun _ htier => .bind Asks.writablePinned fun _ _ =>
      .bind Asks.writablePinned fun _ _ => .bind Asks.pinned fun _ _ => .bind Asks.pinned fun _ _ =>
      .bind Asks.pinned fun _ _ =>
      .pure ⟨hsigns, by simp [Instr.footprint, poolKeys, hfound, hconfig, hpool, hindex, htier]⟩
  | updateConfig =>
    simp only [entry, Accounts.updateConfig, bind_assoc, pure_bind]
    exact .bind Asks.read fun _ _ => .bind Asks.signer fun _ hsigns => .bind Asks.pinned fun _ _ =>
      .bind Asks.writable fun _ hpool => .bind Asks.writablePinned fun _ htier =>
      .bind Asks.remaining fun _ hrest =>
      .pure ⟨hsigns, by simpa [Instr.footprint, hpool, htier] using hrest⟩
  | updateVrfConfig =>
    simp only [entry, Accounts.updateVrfConfig, bind_assoc, pure_bind]
    exact .bind Asks.read fun _ _ => .bind Asks.signer fun _ hsigns =>
      .bind Asks.writablePinned fun _ hconfig =>
      .pure ⟨hsigns, by simp [Instr.footprint, hconfig]⟩
  | admitCollection =>
    simp only [entry, Accounts.admitCollection, bind_assoc, pure_bind]
    exact .bind Asks.read fun _ _ => .bind Asks.writableSigner fun _ hsigns =>
      .bind Asks.pinned fun _ _ => .bind Asks.account fun _ _ =>
      .bind Asks.writablePinned fun _ hcollection => .bind Asks.pinned fun _ _ =>
      .pure ⟨hsigns, by simp [Instr.footprint, hcollection]⟩
  | withdrawCollection =>
    simp only [entry, Accounts.withdrawCollection, bind_assoc, pure_bind]
    exact .bind Asks.read fun _ _ => .bind Asks.writableSigner fun _ hsigns =>
      .bind Asks.pinned fun _ _ => .bind Asks.account fun _ _ =>
      .bind Asks.writablePinned fun _ hcollection =>
      .pure ⟨hsigns, by simp [Instr.footprint, hcollection]⟩
  | setPause =>
    simp only [entry, Accounts.setPause, bind_assoc, pure_bind]
    exact .bind Asks.read fun _ _ => .bind Asks.signer fun _ hsigns => .bind Asks.pinned fun _ _ =>
      .bind Asks.writable fun _ hpool => .pure ⟨hsigns, by simp [Instr.footprint, hpool]⟩
  | setAuthorities =>
    simp only [entry, Accounts.setAuthorities, bind_assoc, pure_bind]
    exact .bind Asks.read fun _ _ => .bind Asks.signer fun _ hsigns =>
      .bind Asks.writablePinned fun _ hconfig =>
      .pure ⟨hsigns, by simp [Instr.footprint, hconfig]⟩
  | deposit =>
    simp only [entry, Accounts.deposit, bind_assoc, pure_bind]
    refine .bind Asks.writableSigner fun _ hsigns => .bind Asks.writable fun _ hpool =>
      .bind Asks.account fun _ _ => .bind Asks.writable fun position hposition =>
      .bind Asks.writablePinned fun _ _ => .bind Asks.writablePinned fun _ hstats =>
      .bind Asks.account fun nftMint _ => .bind Asks.check fun _ hkey => ?_
    -- The position passed is the one derived from the pool and the card.
    rw [decide_eq_true_eq.mp hkey] at hposition
    exact .bind Asks.writable fun _ _ => .bind Asks.writable fun _ _ => .bind Asks.account fun _ _ =>
      .bind Asks.optionalWritable fun _ _ => .bind Asks.optionalWritable fun _ _ =>
      .bind Asks.pinned fun _ _ => .bind Asks.optional fun _ _ => .bind Asks.optional fun _ _ =>
      .bind Asks.optionalPinned fun _ _ => .bind Asks.pinned fun _ _ => .bind Asks.pinned fun _ _ =>
      .bind Asks.pinned fun _ _ =>
      .pure ⟨hsigns, by simp [Instr.footprint, hpool, hposition, hstats]⟩
  | depositCore =>
    simp only [entry, Accounts.depositCore, bind_assoc, pure_bind]
    refine .bind Asks.writableSigner fun _ hsigns => .bind Asks.writable fun _ hpool =>
      .bind Asks.account fun _ _ => .bind Asks.writable fun position hposition =>
      .bind Asks.pinned fun _ _ => .bind Asks.writablePinned fun _ hstats =>
      .bind Asks.writable fun asset _ => .bind Asks.check fun _ hkey => ?_
    rw [decide_eq_true_eq.mp hkey] at hposition
    exact .bind Asks.account fun _ _ => .bind Asks.pinned fun _ _ => .bind Asks.pinned fun _ _ =>
      .pure ⟨hsigns, by simp [Instr.footprint, hpool, hposition, hstats]⟩
  | approveDeposit =>
    exact .bind Asks.read fun _ _ => .bind asks_attestation fun _ h => .pure ⟨h.1, h.2⟩
  | rejectDeposit =>
    simp only [entry, Accounts.rejectDeposit, bind_assoc, pure_bind]
    exact .bind Asks.read fun _ _ => .bind Asks.signer fun _ hsigns => .bind Asks.pinned fun _ _ =>
      .bind Asks.writable fun _ hposition => .pure ⟨hsigns, by simp [Instr.footprint, hposition]⟩
  | returnRejected =>
    simp only [entry, Accounts.returnRejected, bind_assoc, pure_bind]
    exact .bind Asks.writableSigner fun _ hsigns => .bind Asks.writable fun _ _ =>
      .bind Asks.writable fun _ hposition => .bind Asks.read fun _ _ => .bind Asks.check fun _ _ =>
      .bind Asks.writablePinned fun _ _ => .bind Asks.read fun _ _ => .bind Asks.pinned fun _ _ =>
      .bind asks_release fun _ _ => .pure ⟨hsigns, by simp [Instr.footprint, hposition]⟩
  | returnRejectedCore =>
    simp only [entry, Accounts.returnRejectedCore, bind_assoc, pure_bind]
    exact .bind Asks.writableSigner fun _ hsigns => .bind Asks.writable fun _ _ =>
      .bind Asks.writable fun _ hposition => .bind Asks.read fun _ _ => .bind Asks.check fun _ _ =>
      .bind Asks.pinned fun _ _ => .bind Asks.read fun _ _ => .bind Asks.writablePinned fun _ _ =>
      .bind Asks.account fun _ _ => .bind Asks.pinned fun _ _ => .bind Asks.pinned fun _ _ =>
      .pure ⟨hsigns, by simp [Instr.footprint, hposition]⟩
  | beginSweep | endSweep =>
    simp only [entry, Accounts.sweep, bind_assoc, pure_bind]
    exact .bind Asks.signer fun _ hsigns => .bind Asks.pinned fun _ _ =>
      .bind Asks.writable fun _ hpool => .pure ⟨hsigns, by simp [Instr.footprint, hpool]⟩
  | recordValue =>
    exact .bind Asks.read fun _ _ => .bind asks_attestation fun _ h => .pure ⟨h.1, h.2⟩
  | withdraw =>
    simp only [entry, Accounts.withdraw, bind_assoc, pure_bind]
    exact .bind asks_withdrawal fun _ h => .bind Asks.writablePinned fun _ _ =>
      .bind Asks.read fun _ _ => .bind Asks.pinned fun _ _ => .bind asks_release fun _ _ =>
      .bind Asks.remaining fun _ hrest => .pure ⟨h.1, List.forall_mem_append.mpr ⟨h.2, hrest⟩⟩
  | withdrawCore =>
    simp only [entry, Accounts.withdrawCore, bind_assoc, pure_bind]
    exact .bind asks_withdrawal fun _ h => .bind Asks.pinned fun _ _ =>
      .bind Asks.read fun _ _ => .bind Asks.writablePinned fun _ _ => .bind Asks.account fun _ _ =>
      .bind Asks.pinned fun _ _ => .bind Asks.pinned fun _ _ => .bind Asks.pinned fun _ _ =>
      .bind Asks.remaining fun _ hrest => .pure ⟨h.1, List.forall_mem_append.mpr ⟨h.2, hrest⟩⟩
  | claimNft =>
    simp only [entry, Accounts.claimNft, bind_assoc, pure_bind]
    exact .bind Asks.writableSigner fun _ hsigns => .bind Asks.writable fun _ hposition =>
      .bind Asks.writablePinned fun _ _ => .bind Asks.read fun _ _ => .bind Asks.pinned fun _ _ =>
      .bind asks_release fun _ _ => .pure ⟨hsigns, by simp [Instr.footprint, hposition]⟩
  | claimNftCore =>
    simp only [entry, Accounts.claimNftCore, bind_assoc, pure_bind]
    exact .bind Asks.writableSigner fun _ hsigns => .bind Asks.writable fun _ hposition =>
      .bind Asks.pinned fun _ _ => .bind Asks.read fun _ _ => .bind Asks.writablePinned fun _ _ =>
      .bind Asks.account fun _ _ => .bind Asks.pinned fun _ _ => .bind Asks.pinned fun _ _ =>
      .pure ⟨hsigns, by simp [Instr.footprint, hposition]⟩
  | closeSeized =>
    simp only [entry, Accounts.closeSeized, bind_assoc, pure_bind]
    refine .bind Asks.signer fun _ hsigns => .bind Asks.writable fun pool hpool =>
      .bind Asks.writable fun position hposition => .bind Asks.read fun _ hindex =>
      .bind Asks.writablePinned fun _ hweights => .bind Asks.writablePinned fun _ htier =>
      .bind Asks.read fun _ howner => .bind Asks.writablePinned fun _ hstats =>
      .bind Asks.pinned fun _ _ => .bind Asks.read fun _ _ => .bind Asks.pinned fun _ _ =>
      .bind Asks.account fun _ _ => .pure ⟨hsigns, ?_⟩
    rw [Instr.footprint, boundKeys_pinned hindex howner]
    simp [hpool, hposition, hweights, htier, hstats]
  | commitRolls =>
    simp only [entry, Accounts.commitRolls, bind_assoc, pure_bind]
    exact .bind Asks.read fun _ _ => .bind Asks.writableSigner fun _ hsigns =>
      .bind Asks.pinned fun _ _ => .bind Asks.read fun _ _ => .bind Asks.writable fun _ hpool =>
      .bind Asks.pinned fun _ _ => .bind Asks.read fun _ hfound =>
      .bind Asks.writablePinned fun _ hbatch => .bind Asks.writable fun _ _ =>
      .bind Asks.writablePinned fun _ _ => .bind Asks.pinned fun _ _ =>
      .bind Asks.writablePinned fun _ _ => .bind Asks.pinned fun _ _ => .bind Asks.pinned fun _ _ =>
      .bind Asks.pinned fun _ _ => .bind Asks.pinned fun _ _ => .bind Asks.pinned fun _ _ =>
      .pure ⟨hsigns, by simp [Instr.footprint, batchKeys, hfound, hpool, hbatch]⟩
  | vrfCallback =>
    simp only [entry, Accounts.vrfCallback, bind_assoc, pure_bind]
    exact .bind Asks.read fun _ _ => .bind Asks.signer fun _ hsigns =>
      .bind Asks.writable fun _ hbatch => .bind Asks.account fun _ _ =>
      .pure ⟨hsigns, by simp [Instr.footprint, hbatch]⟩
  | updateTier =>
    simp only [entry, Accounts.updateTier, bind_assoc, pure_bind]
    exact .bind Asks.signer fun _ hsigns => .bind Asks.pinned fun _ _ => .bind Asks.account fun _ _ =>
      .bind Asks.writablePinned fun _ htier => .bind Asks.writable fun _ hposition =>
      .bind Asks.remaining fun _ hrest =>
      .pure ⟨hsigns, by simpa [Instr.footprint, htier, hposition] using hrest⟩

end

-- ---------------------------------------------------------------------------
-- Who may
-- ---------------------------------------------------------------------------

/-- Whose signature the ledger asks for. A rejected card is returned and a seizure recorded by
anyone. -/
def Instr.AuthorisedBy (X : Programs) (c : Chain) (key : Pubkey) : Instr → Prop
  | .initProtocol .. => key = X.initialAdministrator
  | .initPool .. | .updateConfig .. | .updateVrfConfig .. | .admitCollection ..
  | .withdrawCollection .. | .setPause .. | .setAuthorities _ _ (some _) =>
    ∃ config, c.protocolConfig = some config ∧ key = config.administrator
  | .setAuthorities _ role none =>
    ∃ config, c.protocolConfig = some config ∧ key = pendingAuthority config role ∧ key ≠ .default
  | .approveDeposit .. | .rejectDeposit .. | .beginSweep .. | .recordValue .. | .endSweep ..
  | .updateTier .. => ∃ config, c.protocolConfig = some config ∧ key = config.operator
  | .deposit a => ∃ account, c.tokens.lookup a.depositorToken = some account ∧
      account.mint = a.nftMint ∧ key = account.owner
  | .depositCore a => ∃ asset, readCoreAsset X (c.externals a.asset) = .ok asset ∧ key = asset.owner
  | .withdraw _ _ position .. | .withdrawCore _ _ position .. | .claimNft _ position _
  | .claimNftCore _ position _ =>
    ∃ p, c.positions.lookup position = some p ∧ key = p.depositor
  | .commitRolls _ _ rollerUsdc _ =>
    ∃ account, c.tokens.lookup rollerUsdc = some account ∧ key = account.owner
  | .vrfCallback .. => key = X.scopedVrfIdentity
  | .returnRejected .. | .returnRejectedCore .. | .closeSeized .. => True

section

variable {X : Programs} {clock : Clock} {c c' : Chain} {instr : Instr} {events : List Event}
  {key : Pubkey}

theorem administers {config : ProtocolConfig} (h : loadForAdministrator c key = .ok config) :
    ∃ config, c.protocolConfig = some config ∧ key = config.administrator := by
  simp only [loadForAdministrator, Chain.loadConfig, bind_ok, require_ok, okOr_ok, pure_ok] at h
  obtain ⟨-, -, config, hconfig, -, hkey, rfl⟩ := h
  exact ⟨config, hconfig, hkey⟩

theorem operates {config : ProtocolConfig} (h : loadForOperator c key = .ok config) :
    ∃ config, c.protocolConfig = some config ∧ key = config.operator := by
  simp only [loadForOperator, Chain.loadConfig, bind_ok, require_ok, okOr_ok, pure_ok] at h
  obtain ⟨-, -, config, hconfig, -, hkey, rfl⟩ := h
  exact ⟨config, hconfig, hkey⟩

/-- The token account that a deposit debits is its depositor's before the vault exists. -/
theorem deposit_authorised {a : DepositAccounts} (h : deposit X clock c a = .ok (c', events)) :
    ∃ account, c.tokens.lookup a.depositorToken = some account ∧ account.mint = a.nftMint ∧
      a.depositor = account.owner := by
  obtain ⟨_, _, _, tokens, _, _, hdeposit⟩ := deposit_ok h
  obtain ⟨account, hfound, hmint, howner⟩ := hdeposit.held
  have hinit := hdeposit.init
  simp only [initToken, bind_ok, require_ok, pure_ok] at hinit
  obtain ⟨-, -, rfl⟩ := hinit
  by_cases hvault : a.depositorToken = .positionVault (.position a.pool a.nftMint)
  · -- The new vault is the position's, and a position signs nothing.
    rw [hvault, Finmap.lookup_insert, Option.some.injEq] at hfound
    rw [← hfound] at howner
    have hsigns := hdeposit.signs
    rw [← howner] at hsigns
    cases hsigns
  · rw [Finmap.lookup_insert_of_ne _ hvault] at hfound
    exact ⟨account, hfound, hmint, howner.symm⟩

theorem exec_authorised (h : exec X clock c instr = .ok (c', events)) :
    instr.AuthorisedBy X c instr.signer := by
  cases instr with
  | initProtocol payer args =>
    simp only [exec, initProtocol, bind_ok, require_ok] at h
    obtain ⟨-, -, -, hpayer, -⟩ := h
    exact hpayer
  | initPool administrator weightIndex args =>
    obtain ⟨_, _, _, hinit⟩ := initPool_ok h
    exact administers hinit.administers
  | updateConfig administrator pool remaining update =>
    obtain ⟨_, _, _, _, _, hupdate⟩ := updateConfig_ok h
    obtain ⟨_, hconfig⟩ := hupdate.administers
    exact administers hconfig
  | updateVrfConfig administrator vrfProgram oracleQueue swapPool =>
    simp only [exec, updateVrfConfig, bind_ok] at h
    obtain ⟨_, hconfig, -⟩ := h
    exact administers hconfig
  | admitCollection administrator pool collection standards reason =>
    simp only [exec, admitCollection, bind_ok] at h
    obtain ⟨_, hconfig, -⟩ := h
    exact administers hconfig
  | withdrawCollection administrator pool collection reason =>
    simp only [exec, withdrawCollection, bind_ok] at h
    obtain ⟨_, hconfig, -⟩ := h
    exact administers hconfig
  | setPause administrator pool deposits rolls reason =>
    simp only [exec, setPause, bind_ok] at h
    obtain ⟨_, hconfig, -⟩ := h
    exact administers hconfig
  | setAuthorities signer role newAuthority =>
    simp only [exec, setAuthorities, Chain.loadConfig, bind_ok, okOr_ok] at h
    obtain ⟨-, -, config, hconfig, h⟩ := h
    cases newAuthority with
    | some proposed =>
      simp only [bind_ok, require_ok] at h
      obtain ⟨-, hsigner, -⟩ := h
      exact ⟨config, hconfig, hsigner⟩
    | none =>
      simp only [bind_ok, require_ok] at h
      obtain ⟨-, hpending, -, hsigner, -⟩ := h
      exact ⟨config, hconfig, hsigner, hsigner ▸ hpending⟩
  | deposit a => exact deposit_authorised h
  | depositCore a =>
    obtain ⟨_, _, asset, _, hdeposit⟩ := depositCore_ok h
    exact ⟨asset, hdeposit.reads, hdeposit.owner.symm⟩
  | approveDeposit operator pool position remaining value observedAt lockUntil =>
    obtain ⟨_, _, _, _, _, _, _, _, _, happrove⟩ := approveDeposit_ok h
    obtain ⟨_, hconfig⟩ := happrove.operates
    exact operates hconfig
  | rejectDeposit operator position reason =>
    obtain ⟨_, hreject⟩ := rejectDeposit_ok h
    obtain ⟨_, hconfig⟩ := hreject.operates
    exact operates hconfig
  | returnRejected payer position accounts => exact trivial
  | returnRejectedCore payer position collection => exact trivial
  | beginSweep operator pool =>
    simp only [exec, beginSweep, bind_ok] at h
    obtain ⟨_, hconfig, -⟩ := h
    exact operates hconfig
  | recordValue operator pool position remaining value observedAt =>
    obtain ⟨_, _, _, _, _, _, _, hrecord⟩ := recordValue_ok h
    obtain ⟨_, hconfig⟩ := hrecord.operates
    exact operates hconfig
  | endSweep operator pool =>
    simp only [exec, endSweep, bind_ok] at h
    obtain ⟨_, hconfig, -⟩ := h
    exact operates hconfig
  | withdraw depositor pool position depositorUsdc remaining accounts =>
    obtain ⟨a, _, _, _, hwithdraw⟩ := withdraw_ok h
    exact ⟨a.position, (loadThroughPool_ok hwithdraw.loads).2.1, hwithdraw.owner.symm⟩
  | withdrawCore depositor pool position depositorUsdc collection remaining =>
    obtain ⟨a, _, _, _, hwithdraw⟩ := withdrawCore_ok h
    exact ⟨a.position, (loadThroughPool_ok hwithdraw.loads).2.1, hwithdraw.owner.symm⟩
  | claimNft depositor position accounts =>
    obtain ⟨p, _, _, hclaim⟩ := claimNft_ok h
    exact ⟨p, hclaim.found, hclaim.owner.symm⟩
  | claimNftCore depositor position collection =>
    obtain ⟨p, _, _, hclaim⟩ := claimNftCore_ok h
    exact ⟨p, hclaim.found, hclaim.owner.symm⟩
  | closeSeized caller pool position collection => exact trivial
  | commitRolls roller pool rollerUsdc n =>
    obtain ⟨_, _, _, _, source, _, _, _, _, _, hcommit⟩ := commitRolls_ok h
    exact ⟨source, hcommit.funds, hcommit.owner.symm⟩
  | vrfCallback signer batch pool randomness =>
    obtain ⟨_, _, _, hcallback⟩ := vrfCallback_ok h
    exact hcallback.signer
  | updateTier operator pool position remaining =>
    obtain ⟨_, _, _, _, _, _, _, _, hupdate⟩ := updateTier_ok h
    obtain ⟨_, hconfig⟩ := hupdate.operates
    exact operates hconfig

end

-- ---------------------------------------------------------------------------
-- Any instruction on the wire
-- ---------------------------------------------------------------------------

def Instruction.writtenKeys (i : Instruction) : List Pubkey :=
  (i.accounts.filter (·.role.isWritable)).map (·.address)

theorem mem_writtenKeys {i : Instruction} {k : Pubkey} :
    k ∈ i.writtenKeys ↔ i.writes k = true := by
  simp only [Instruction.writtenKeys, Instruction.writes, List.mem_map, List.mem_filter,
    List.any_eq_true, Bool.and_eq_true, decide_eq_true_eq]
  constructor
  · rintro ⟨m, ⟨hmem, hwritable⟩, hkey⟩
    exact ⟨m, hmem, hkey, hwritable⟩
  · rintro ⟨m, hmem, hkey, hwritable⟩
    exact ⟨m, ⟨hmem, hwritable⟩, hkey⟩

theorem Chain.WritesOnly.mono {keys keys' : List Pubkey} {c c' : Chain} (h : c.WritesOnly keys c')
    (hsub : keys ⊆ keys') : c.WritesOnly keys' c' where
  config hk := h.config fun hmem => hk (hsub hmem)
  pools := h.pools.mono hsub
  weightIndexes := h.weightIndexes.mono hsub
  topTiers := h.topTiers.mono hsub
  positions := h.positions.mono hsub
  walletStats := h.walletStats.mono hsub
  poolCollections := h.poolCollections.mono hsub
  rollBatches := h.rollBatches.mono hsub

section

variable {w : Encoding} {X : Programs} {K : WellKnown} {c c' : Chain} {i : Instruction}
  {instr : Instr} {clock : Clock} {events : List Event}

theorem dispatch_allows (h : dispatch w X K c i = some instr) : i.Allows c instr := by
  simp only [dispatch, Option.bind_eq_bind, Option.bind_eq_some_iff] at h
  obtain ⟨-, -, name, -, ⟨_, rest⟩, hentry, hinstr⟩ := h
  cases hinstr
  exact (asks_entry _ name i.passed _ rest (List.Subset.refl _) hentry).2

/-- Whatever instruction the program accepts, it changed no account that the instruction does not
pass to be written, and the instruction carries the signature of whom the ledger asks for. -/
theorem wire_authority (h : process w X K c clock i = some (c', events)) :
    c.WritesOnly i.writtenKeys c' ∧
    ∃ instr, dispatch w X K c i = some instr ∧ exec X clock c instr = .ok (c', events) ∧
      i.signs instr.signer = true ∧ instr.AuthorisedBy X c instr.signer := by
  have hbind : (dispatch w X K c i).bind (fun instr => (exec X clock c instr).toOption) = _ := h
  obtain ⟨instr, hdispatch, hrun⟩ := Option.bind_eq_some_iff.mp hbind
  have hexec := toOption_eq_some.mp hrun
  have hallows := dispatch_allows hdispatch
  refine ⟨(exec_footprint hexec).mono fun k hk => mem_writtenKeys.mpr (hallows.writes k hk),
    instr, hdispatch, hexec, hallows.signs, exec_authorised hexec⟩

/-- The bank's approval is accepted, and carries the operator's signature. -/
theorem wire_authority_approval :
    ∃ i c' events, process walletEncoding bank bankWellKnown (bankRun [admitCards, depositCard 30])
        ⟨2, 2⟩ i = some (c', events) ∧
      (bankRun [admitCards, depositCard 30]).WritesOnly i.writtenKeys c' ∧
      i.signs (.key 2) = true := by
  obtain ⟨i, -, hserves⟩ := (builtFor_call (X := bank) (K := bankWellKnown) bankApproval_plain
    (bankRun [admitCards, depositCard 30])).builds bankApproval_fits
  have hdispatch := (hserves (approveCard 30 15_000_000 77).2).mpr ⟨bankApproval_supplied, rfl⟩
  obtain ⟨events, hrun⟩ := exec_after (X := bank) (s := approveCard 30 15_000_000 77)
    (c := bankRun [admitCards, depositCard 30]) (by decide +kernel)
  have hprocess : process walletEncoding bank bankWellKnown
      (bankRun [admitCards, depositCard 30]) ⟨2, 2⟩ i =
        some ((bankRun [admitCards, depositCard 30]).after bank [approveCard 30 15_000_000 77],
          events) := by
    rw [process, hdispatch]
    exact toOption_eq_some.mpr hrun
  obtain ⟨hwrites, instr, hinstr, -, hsigns, -⟩ := wire_authority hprocess
  rw [hdispatch, Option.some.injEq] at hinstr
  rw [← hinstr] at hsigns
  exact ⟨i, _, _, hprocess, hwrites, hsigns⟩

end

end ByeMachine
