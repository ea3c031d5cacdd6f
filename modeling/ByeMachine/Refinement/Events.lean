import ByeMachine.Refinement.Accounts

/-!
# What an instruction publishes

Every instruction publishes events of its own kinds only.
-/

namespace ByeMachine

open Fallible

inductive EventKind where
  | protocolInitialized | poolInitialized | configChanged | vrfConfigChanged | pauseSet
  | authorityRotated | depositPending | depositApproved | rebalanceEvaluated | tierChanged
  | depositRejected | nftReturned | withdrawn | nftClaimed | valueRecorded | belowFloorClosed
  | belowFloorRetained | sweepBegun | sweepEnded | collectionAdmitted | collectionWithdrawn
  | positionSeized | batchCommitted | batchResolved
  deriving DecidableEq, Repr

def Event.kind : Event → EventKind
  | .protocolInitialized .. => .protocolInitialized
  | .poolInitialized .. => .poolInitialized
  | .configChanged .. => .configChanged
  | .vrfConfigChanged .. => .vrfConfigChanged
  | .pauseSet .. => .pauseSet
  | .authorityRotated .. => .authorityRotated
  | .depositPending .. => .depositPending
  | .depositApproved .. => .depositApproved
  | .rebalanceEvaluated .. => .rebalanceEvaluated
  | .tierChanged .. => .tierChanged
  | .depositRejected .. => .depositRejected
  | .nftReturned .. => .nftReturned
  | .withdrawn .. => .withdrawn
  | .nftClaimed .. => .nftClaimed
  | .valueRecorded .. => .valueRecorded
  | .belowFloorClosed .. => .belowFloorClosed
  | .belowFloorRetained .. => .belowFloorRetained
  | .sweepBegun .. => .sweepBegun
  | .sweepEnded .. => .sweepEnded
  | .collectionAdmitted .. => .collectionAdmitted
  | .collectionWithdrawn .. => .collectionWithdrawn
  | .positionSeized .. => .positionSeized
  | .batchCommitted .. => .batchCommitted
  | .batchResolved .. => .batchResolved

def Instr.publishes : Instr → List EventKind
  | .initProtocol .. => [.protocolInitialized]
  | .initPool .. => [.poolInitialized]
  | .updateConfig .. => [.tierChanged, .configChanged]
  | .updateVrfConfig .. => [.vrfConfigChanged]
  | .admitCollection .. => [.collectionAdmitted]
  | .withdrawCollection .. => [.collectionWithdrawn]
  | .setPause .. => [.pauseSet]
  | .setAuthorities .. => [.authorityRotated]
  | .deposit .. | .depositCore .. => [.depositPending]
  | .approveDeposit .. => [.depositApproved, .rebalanceEvaluated, .tierChanged]
  | .rejectDeposit .. => [.depositRejected]
  | .returnRejected .. | .returnRejectedCore .. => [.nftReturned]
  | .beginSweep .. => [.sweepBegun]
  | .recordValue .. =>
    [.valueRecorded, .rebalanceEvaluated, .belowFloorClosed, .belowFloorRetained, .tierChanged]
  | .endSweep .. => [.sweepEnded]
  | .withdraw .. | .withdrawCore .. => [.withdrawn, .rebalanceEvaluated, .tierChanged]
  | .claimNft .. | .claimNftCore .. => [.nftClaimed]
  | .closeSeized .. => [.positionSeized, .rebalanceEvaluated, .tierChanged]
  | .commitRolls .. => [.batchCommitted]
  | .vrfCallback .. => [.batchResolved]
  | .updateTier .. => [.tierChanged]

section Publishes

variable {X : Programs} {clock : Clock} {c c' : Chain} {events : List Event} {instr : Instr}
  {e : Event}

theorem tierEvents_kind {poolKey : Pubkey} {slot : ℕ} {change : TierChange}
    (h : e ∈ tierEvents poolKey slot change) : e.kind = .tierChanged := by
  cases change with
  | none => simp [tierEvents] at h
  | some change =>
    obtain ⟨left, entered⟩ := change
    simp only [tierEvents, List.mem_singleton] at h
    rw [h]
    rfl

theorem settleEvicted_kind {remaining : List AccountMeta} {accTier slot : ℕ} {poolKey : Pubkey}
    {evicted : List TierEntry} {positions positions' : Positions}
    (h : settleEvicted remaining accTier poolKey slot evicted positions = .ok (positions', events))
    (he : e ∈ events) : e.kind = .tierChanged := by
  induction evicted generalizing positions events with
  | nil =>
    simp only [settleEvicted, pure_ok, Prod.mk.injEq] at h
    obtain ⟨-, rfl⟩ := h
    cases he
  | cons entry evicted ih =>
    simp only [settleEvicted, bind_ok, pure_ok, Prod.mk.injEq, Prod.exists] at h
    obtain ⟨_, -, _, _, hrest, rfl, rfl⟩ := h
    rcases List.mem_cons.mp he with rfl | he
    · rfl
    · exact ih hrest he

theorem demotions_kind {topTier topTier' : TopTier} {remaining : List AccountMeta}
    {positions positions' : Positions} {poolKey : Pubkey} {slot : ℕ} {update : ConfigUpdate}
    (h : demotions topTier remaining positions poolKey slot update
      = .ok (topTier', positions', events)) (he : e ∈ events) : e.kind = .tierChanged := by
  cases update with
  | tierSize value =>
    simp only [demotions, demoteShrinkExcess, bind_ok, pure_ok, Prod.mk.injEq, Prod.exists] at h
    obtain ⟨_, _, -, _, _, hsettle, -, -, rfl⟩ := h
    exact settleEvicted_kind hsettle he
  | _ =>
    simp only [demotions, pure_ok, Prod.mk.injEq] at h
    obtain ⟨-, -, rfl⟩ := h
    cases he

theorem withdrawAccounting_kind {poolKey position : Pubkey} {depositorUsdc : Option Pubkey}
    {remaining : List AccountMeta} {a : Loaded}
    (h : withdrawAccounting clock c poolKey position depositorUsdc remaining a = .ok (c', events))
    (he : e ∈ events) : e.kind ∈ [EventKind.withdrawn, .rebalanceEvaluated, .tierChanged] := by
  simp only [withdrawAccounting, bind_ok, pure_ok, Prod.mk.injEq, Prod.exists] at h
  obtain ⟨_, -, _, -, _, _, _, _, -, _, -, -, rfl⟩ := h
  simp only [List.mem_append, List.mem_cons, List.not_mem_nil, or_false] at he
  obtain (rfl | rfl) | he := he
  · simp [Event.kind]
  · simp [Event.kind]
  · simp [tierEvents_kind he]

theorem recordDeposit_kind {poolKey depositor nftMint : Pubkey} {pool : Pool} {standard : ℕ}
    {tokens : Tokens} {externals : Externals}
    (h : recordDeposit X clock c poolKey depositor nftMint pool standard tokens externals
      = .ok (c', events)) (he : e ∈ events) : e.kind ∈ [EventKind.depositPending] := by
  simp only [recordDeposit, bind_ok, pure_ok, Prod.mk.injEq] at h
  obtain ⟨_, -, -, rfl⟩ := h
  obtain rfl := List.mem_singleton.mp he
  simp [Event.kind]

theorem exec_publishes (h : exec X clock c instr = .ok (c', events)) (he : e ∈ events) :
    e.kind ∈ instr.publishes := by
  cases instr with
  | initProtocol payer args =>
    simp only [exec, initProtocol, bind_ok, pure_ok, Prod.mk.injEq] at h
    obtain ⟨-, -, -, -, -, -, -, rfl⟩ := h
    simp_all [Event.kind, Instr.publishes]
  | initPool administrator weightIndex args =>
    simp only [exec, initPool, bind_ok, pure_ok, Prod.mk.injEq] at h
    obtain ⟨_, -, -, -, -, -, -, -, -, -, _, -, _, -, -, -, -, -, _, -, -, rfl⟩ := h
    simp_all [Event.kind, Instr.publishes]
  | updateConfig administrator pool remaining update =>
    simp only [exec, updateConfig, bind_ok, pure_ok, Prod.mk.injEq, Prod.exists] at h
    obtain ⟨_, -, _, -, _, -, -, -, -, -, _, _, _, hdemote, -, rfl⟩ := h
    rcases List.mem_append.mp he with he | he
    · simp [demotions_kind hdemote he, Instr.publishes]
    · obtain ⟨_, -, rfl⟩ := List.mem_map.mp he
      simp [Event.kind, Instr.publishes]
  | updateVrfConfig administrator vrfProgram oracleQueue swapPool =>
    simp only [exec, updateVrfConfig, bind_ok, pure_ok, Prod.mk.injEq] at h
    obtain ⟨_, -, -, rfl⟩ := h
    simp_all [Event.kind, Instr.publishes]
  | admitCollection administrator pool collection standards reason =>
    simp only [exec, admitCollection, bind_ok, pure_ok, Prod.mk.injEq] at h
    obtain ⟨_, -, _, -, -, -, -, rfl⟩ := h
    simp_all [Event.kind, Instr.publishes]
  | withdrawCollection administrator pool collection reason =>
    simp only [exec, withdrawCollection, bind_ok, pure_ok, Prod.mk.injEq] at h
    obtain ⟨_, -, _, -, _, -, -, rfl⟩ := h
    simp_all [Event.kind, Instr.publishes]
  | setPause administrator pool deposits rolls reason =>
    simp only [exec, setPause, bind_ok, pure_ok, Prod.mk.injEq] at h
    obtain ⟨_, -, _, -, -, rfl⟩ := h
    simp_all [Event.kind, Instr.publishes]
  | setAuthorities signer role newAuthority =>
    simp only [exec, setAuthorities, bind_ok] at h
    obtain ⟨-, -, _, -, h⟩ := h
    cases newAuthority with
    | some proposed =>
      simp only [bind_ok, pure_ok, Prod.mk.injEq] at h
      obtain ⟨-, -, -, rfl⟩ := h
      simp_all [Event.kind, Instr.publishes]
    | none =>
      simp only [bind_ok, pure_ok, Prod.mk.injEq] at h
      obtain ⟨-, -, -, -, -, rfl⟩ := h
      simp_all [Event.kind, Instr.publishes]
  | deposit accounts =>
    simp only [exec, deposit, bind_ok, Prod.exists] at h
    obtain ⟨-, -, _, -, _, -, -, -, _, -, _, -, _, -, -, -, -, -, -, -, _, -, _, _, -, hrecord⟩ := h
    exact recordDeposit_kind hrecord he
  | depositCore accounts =>
    simp only [exec, depositCore, bind_ok] at h
    obtain ⟨-, -, _, -, _, -, -, -, -, -, _, -, -, -, _, -, _, -, -, -, _, -, hrecord⟩ := h
    exact recordDeposit_kind hrecord he
  | approveDeposit operator pool position remaining value observedAt lockUntil =>
    simp only [exec, approveDeposit, bind_ok, pure_ok, Prod.mk.injEq, Prod.exists] at h
    obtain ⟨_, -, a, -, -, -, -, -, -, -, -, -, _, -, _, -, _, -, _, -, _, _, -, _, -, _, -, _, _,
      entered, _, -, _, -, _, -, -, rfl⟩ := h
    cases entered <;> simp_all only [Instr.publishes, List.mem_append, List.mem_cons] <;>
      rcases he with (rfl | rfl | he) | he <;> simp_all [Event.kind]
  | rejectDeposit operator position reason =>
    simp only [exec, rejectDeposit, bind_ok, pure_ok, Prod.mk.injEq] at h
    obtain ⟨_, -, _, -, -, -, -, -, -, rfl⟩ := h
    simp_all [Event.kind, Instr.publishes]
  | returnRejected payer position accounts =>
    simp only [exec, returnRejected, bind_ok, pure_ok, Prod.mk.injEq, Prod.exists] at h
    obtain ⟨-, -, _, -, _, -, -, -, _, _, -, -, rfl⟩ := h
    simp_all [Event.kind, Instr.publishes]
  | returnRejectedCore payer position collection =>
    simp only [exec, returnRejectedCore, bind_ok, pure_ok, Prod.mk.injEq] at h
    obtain ⟨-, -, _, -, -, -, -, -, _, -, _, -, -, rfl⟩ := h
    simp_all [Event.kind, Instr.publishes]
  | beginSweep operator pool =>
    simp only [exec, beginSweep, bind_ok, pure_ok, Prod.mk.injEq, Prod.exists] at h
    obtain ⟨_, -, _, -, _, _, -, -, rfl⟩ := h
    simp_all [Event.kind, Instr.publishes]
  | recordValue operator pool position remaining value observedAt =>
    simp only [exec, recordValue, bind_ok, pure_ok, Prod.mk.injEq, Prod.exists] at h
    obtain ⟨_, -, _, -, booked, -, _, -, _, _, _, change, -, -, rfl⟩ := h
    simp only [List.mem_append, List.mem_cons, List.not_mem_nil, or_false] at he
    obtain ((rfl | rfl) | he) | he := he
    · simp [Event.kind, Instr.publishes]
    · simp [Event.kind, Instr.publishes]
    · cases houtcome : booked.effect.outcome <;> simp_all [Event.kind, Instr.publishes]
    · simp [tierEvents_kind he, Instr.publishes]
  | endSweep operator pool =>
    simp only [exec, endSweep, bind_ok, pure_ok, Prod.mk.injEq, Prod.exists] at h
    obtain ⟨_, -, _, -, _, _, _, -, -, rfl⟩ := h
    simp_all [Event.kind, Instr.publishes]
  | withdraw depositor pool position depositorUsdc remaining accounts =>
    simp only [exec, withdraw, bind_ok, pure_ok, Prod.mk.injEq, Prod.exists] at h
    obtain ⟨-, -, a, -, -, -, _, -, -, -, c₁, _, haccounting, _, _, -, -, rfl⟩ := h
    exact withdrawAccounting_kind haccounting he
  | withdrawCore depositor pool position depositorUsdc collection remaining =>
    simp only [exec, withdrawCore, bind_ok, pure_ok, Prod.mk.injEq, Prod.exists] at h
    obtain ⟨-, -, a, -, -, -, -, -, -, -, _, -, c₁, _, haccounting, _, -, -, rfl⟩ := h
    exact withdrawAccounting_kind haccounting he
  | claimNft depositor position accounts =>
    simp only [exec, claimNft, bind_ok, pure_ok, Prod.mk.injEq, Prod.exists] at h
    obtain ⟨-, -, _, -, -, -, _, -, -, -, _, _, -, -, rfl⟩ := h
    simp_all [Event.kind, Instr.publishes]
  | claimNftCore depositor position collection =>
    simp only [exec, claimNftCore, bind_ok, pure_ok, Prod.mk.injEq] at h
    obtain ⟨-, -, _, -, -, -, -, -, -, -, _, -, _, -, -, rfl⟩ := h
    simp_all [Event.kind, Instr.publishes]
  | closeSeized caller pool position collection =>
    simp only [exec, closeSeized, bind_ok, pure_ok, Prod.mk.injEq, Prod.exists] at h
    obtain ⟨-, -, _, -, -, -, -, -, kind, _, -, booked, -, _, _, _, change, -, -, rfl⟩ := h
    simp only [List.mem_append, List.mem_singleton] at he
    obtain (rfl | he) | he := he
    · simp [Event.kind, Instr.publishes]
    · cases hdeparture : booked.effect.departure <;> simp_all [Event.kind, Instr.publishes]
    · simp [tierEvents_kind he, Instr.publishes]
  | commitRolls roller pool rollerUsdc n =>
    simp only [exec, commitRolls, bind_ok, pure_ok, Prod.mk.injEq, Prod.exists] at h
    obtain ⟨-, -, _, -, _, -, _, -, -, -, _, -, _, -, -, -, -, -, -, -, _, _, _, -, _, -, _, -, -,
      rfl⟩ := h
    simp_all [Event.kind, Instr.publishes]
  | vrfCallback signer batch pool randomness =>
    simp only [exec, vrfCallback, bind_ok, pure_ok, Prod.mk.injEq] at h
    obtain ⟨-, -, _, -, -, -, _, -, -, -, _, -, -, rfl⟩ := h
    simp_all [Event.kind, Instr.publishes]
  | updateTier operator pool position remaining =>
    simp only [exec, updateTier, bind_ok, pure_ok, Prod.mk.injEq, Prod.exists] at h
    obtain ⟨_, -, _, -, _, -, _, -, -, -, _, _, _, -, _, _, -, -, rfl⟩ := h
    simp_all [Event.kind, Instr.publishes]

end Publishes

end ByeMachine
