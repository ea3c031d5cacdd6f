import ByeMachine.Base.Sha256
import Mathlib.Data.List.Nodup

/-!
# Discriminators

The 8 bytes that open an instruction, an account and an event, as Anchor derives
them and as `scripts/lib/anchor.ts` computes them, against what the IDL lists.
-/

namespace ByeMachine

def utf8Bytes (s : String) : Bytes := s.toList.flatMap String.utf8EncodeChar

/-- The first 8 bytes of a name's hash, in one of Anchor's namespaces. -/
def discriminator (space name : String) : Bytes :=
  (Sha256.digest (utf8Bytes space ++ utf8Bytes ":" ++ utf8Bytes name)).take 8

def ixDiscriminator (instructionName : String) : Bytes := discriminator "global" instructionName

def eventDiscriminator (eventName : String) : Bytes := discriminator "event" eventName

@[simp] theorem length_discriminator (space name : String) :
    (discriminator space name).length = 8 := by
  simp [discriminator, Sha256.length_digest]

-- ---------------------------------------------------------------------------
-- Events
-- ---------------------------------------------------------------------------

/-- The events of `common/events.rs`, in the client's order. -/
inductive EventName where
  | acquiredActivated | authorityRotated | batchClosed | batchCommitted | batchCompleted
  | batchRecovered | batchResolved | belowFloorClosed | belowFloorRetained | collectionAdmitted
  | collectionWithdrawn | configChanged | depositApproved | depositPending | depositRejected
  | instantSold | nftClaimed | nftReturned | pauseSet | poolInitialized | positionSeized
  | protocolInitialized | rebalanceEvaluated | rollRefunded | rollSettled | sweepBegun | sweepEnded
  | t04CeilingOverflow | tierChanged | valueRecorded | vrfConfigChanged | withdrawn
  deriving DecidableEq, Repr

namespace EventName

def all : List EventName :=
  [.acquiredActivated, .authorityRotated, .batchClosed, .batchCommitted, .batchCompleted,
    .batchRecovered, .batchResolved, .belowFloorClosed, .belowFloorRetained, .collectionAdmitted,
    .collectionWithdrawn, .configChanged, .depositApproved, .depositPending, .depositRejected,
    .instantSold, .nftClaimed, .nftReturned, .pauseSet, .poolInitialized, .positionSeized,
    .protocolInitialized, .rebalanceEvaluated, .rollRefunded, .rollSettled, .sweepBegun,
    .sweepEnded, .t04CeilingOverflow, .tierChanged, .valueRecorded, .vrfConfigChanged, .withdrawn]

theorem mem_all (name : EventName) : name ∈ all := by
  cases name <;> decide

def text : EventName → String
  | .acquiredActivated => "AcquiredActivated"
  | .authorityRotated => "AuthorityRotated"
  | .batchClosed => "BatchClosed"
  | .batchCommitted => "BatchCommitted"
  | .batchCompleted => "BatchCompleted"
  | .batchRecovered => "BatchRecovered"
  | .batchResolved => "BatchResolved"
  | .belowFloorClosed => "BelowFloorClosed"
  | .belowFloorRetained => "BelowFloorRetained"
  | .collectionAdmitted => "CollectionAdmitted"
  | .collectionWithdrawn => "CollectionWithdrawn"
  | .configChanged => "ConfigChanged"
  | .depositApproved => "DepositApproved"
  | .depositPending => "DepositPending"
  | .depositRejected => "DepositRejected"
  | .instantSold => "InstantSold"
  | .nftClaimed => "NftClaimed"
  | .nftReturned => "NftReturned"
  | .pauseSet => "PauseSet"
  | .poolInitialized => "PoolInitialized"
  | .positionSeized => "PositionSeized"
  | .protocolInitialized => "ProtocolInitialized"
  | .rebalanceEvaluated => "RebalanceEvaluated"
  | .rollRefunded => "RollRefunded"
  | .rollSettled => "RollSettled"
  | .sweepBegun => "SweepBegun"
  | .sweepEnded => "SweepEnded"
  | .t04CeilingOverflow => "T04CeilingOverflow"
  | .tierChanged => "TierChanged"
  | .valueRecorded => "ValueRecorded"
  | .vrfConfigChanged => "VrfConfigChanged"
  | .withdrawn => "Withdrawn"

def discriminator (name : EventName) : Bytes := eventDiscriminator name.text

/-- As `idl/dev/bye_machine.json` lists them. -/
def listed : EventName → Bytes
  | .acquiredActivated => [94, 238, 135, 53, 40, 127, 32, 202]
  | .authorityRotated => [89, 124, 120, 223, 3, 19, 185, 230]
  | .batchClosed => [192, 76, 201, 211, 10, 212, 139, 232]
  | .batchCommitted => [25, 162, 27, 192, 130, 19, 134, 247]
  | .batchCompleted => [29, 223, 111, 148, 201, 240, 170, 51]
  | .batchRecovered => [137, 171, 97, 6, 141, 195, 135, 94]
  | .batchResolved => [50, 219, 86, 137, 199, 89, 41, 20]
  | .belowFloorClosed => [22, 109, 132, 240, 126, 52, 221, 82]
  | .belowFloorRetained => [132, 30, 203, 251, 103, 21, 187, 166]
  | .collectionAdmitted => [230, 4, 125, 175, 177, 169, 46, 116]
  | .collectionWithdrawn => [31, 153, 247, 156, 187, 21, 29, 112]
  | .configChanged => [147, 25, 86, 98, 98, 77, 78, 192]
  | .depositApproved => [229, 217, 230, 247, 42, 220, 160, 243]
  | .depositPending => [101, 208, 102, 93, 232, 105, 39, 35]
  | .depositRejected => [142, 2, 235, 2, 171, 247, 250, 10]
  | .instantSold => [127, 135, 201, 24, 249, 152, 241, 31]
  | .nftClaimed => [4, 232, 63, 124, 139, 205, 168, 234]
  | .nftReturned => [178, 221, 187, 172, 187, 206, 236, 229]
  | .pauseSet => [175, 57, 198, 136, 192, 66, 204, 73]
  | .poolInitialized => [100, 118, 173, 87, 12, 198, 254, 229]
  | .positionSeized => [76, 35, 163, 227, 44, 199, 92, 129]
  | .protocolInitialized => [173, 122, 168, 254, 9, 118, 76, 132]
  | .rebalanceEvaluated => [122, 52, 229, 120, 7, 239, 128, 112]
  | .rollRefunded => [85, 229, 93, 229, 185, 248, 242, 193]
  | .rollSettled => [198, 145, 24, 65, 235, 178, 45, 192]
  | .sweepBegun => [160, 229, 165, 59, 13, 136, 66, 145]
  | .sweepEnded => [205, 223, 178, 214, 13, 11, 22, 111]
  | .t04CeilingOverflow => [175, 48, 91, 182, 51, 24, 230, 69]
  | .tierChanged => [126, 9, 150, 127, 199, 123, 136, 1]
  | .valueRecorded => [199, 217, 250, 231, 39, 89, 141, 173]
  | .vrfConfigChanged => [243, 134, 255, 254, 88, 136, 225, 211]
  | .withdrawn => [20, 89, 223, 198, 194, 124, 219, 13]

/-- The client computes what the program was built with. -/
theorem discriminator_listed (name : EventName) : name.discriminator = name.listed := by
  cases name <;> decide +kernel

@[simp] theorem length_discriminator (name : EventName) : name.discriminator.length = 8 :=
  ByeMachine.length_discriminator _ _

theorem discriminator_injective : Function.Injective discriminator := by
  intro a b h
  rw [discriminator_listed, discriminator_listed] at h
  have hdistinct : (all.map listed).Nodup := by decide +kernel
  exact List.inj_on_of_nodup_map hdistinct (mem_all a) (mem_all b) h

end EventName

-- ---------------------------------------------------------------------------
-- Instructions
-- ---------------------------------------------------------------------------

/-- The instructions of `lib.rs`, in its order. -/
inductive InstructionName where
  | initProtocol | initPool | updateConfig | updateVrfConfig | admitCollection
  | withdrawCollection | setPause | setAuthorities | deposit | depositCore | approveDeposit
  | rejectDeposit | returnRejected | returnRejectedCore | beginSweep | recordValue | endSweep
  | withdraw | withdrawCore | claimNft | claimNftCore | closeSeized | commitRolls | vrfCallback
  | updateTier
  deriving DecidableEq, Repr

namespace InstructionName

def all : List InstructionName :=
  [.initProtocol, .initPool, .updateConfig, .updateVrfConfig, .admitCollection,
    .withdrawCollection, .setPause, .setAuthorities, .deposit, .depositCore, .approveDeposit,
    .rejectDeposit, .returnRejected, .returnRejectedCore, .beginSweep, .recordValue, .endSweep,
    .withdraw, .withdrawCore, .claimNft, .claimNftCore, .closeSeized, .commitRolls, .vrfCallback,
    .updateTier]

theorem mem_all (name : InstructionName) : name ∈ all := by
  cases name <;> decide

def text : InstructionName → String
  | .initProtocol => "init_protocol"
  | .initPool => "init_pool"
  | .updateConfig => "update_config"
  | .updateVrfConfig => "update_vrf_config"
  | .admitCollection => "admit_collection"
  | .withdrawCollection => "withdraw_collection"
  | .setPause => "set_pause"
  | .setAuthorities => "set_authorities"
  | .deposit => "deposit"
  | .depositCore => "deposit_core"
  | .approveDeposit => "approve_deposit"
  | .rejectDeposit => "reject_deposit"
  | .returnRejected => "return_rejected"
  | .returnRejectedCore => "return_rejected_core"
  | .beginSweep => "begin_sweep"
  | .recordValue => "record_value"
  | .endSweep => "end_sweep"
  | .withdraw => "withdraw"
  | .withdrawCore => "withdraw_core"
  | .claimNft => "claim_nft"
  | .claimNftCore => "claim_nft_core"
  | .closeSeized => "close_seized"
  | .commitRolls => "commit_rolls"
  | .vrfCallback => "vrf_callback"
  | .updateTier => "update_tier"

def discriminator (name : InstructionName) : Bytes := ixDiscriminator name.text

def listed : InstructionName → Bytes
  | .initProtocol => [3, 188, 141, 237, 225, 226, 232, 210]
  | .initPool => [116, 233, 199, 204, 115, 159, 171, 36]
  | .updateConfig => [29, 158, 252, 191, 10, 83, 219, 99]
  | .updateVrfConfig => [18, 151, 45, 135, 172, 226, 217, 25]
  | .admitCollection => [105, 62, 17, 216, 239, 101, 90, 233]
  | .withdrawCollection => [193, 70, 37, 202, 162, 164, 240, 111]
  | .setPause => [63, 32, 154, 2, 56, 103, 79, 45]
  | .setAuthorities => [124, 254, 44, 240, 197, 70, 190, 107]
  | .deposit => [242, 35, 198, 137, 82, 225, 242, 182]
  | .depositCore => [73, 114, 179, 123, 5, 111, 10, 65]
  | .approveDeposit => [205, 226, 50, 240, 111, 38, 140, 183]
  | .rejectDeposit => [29, 130, 68, 0, 27, 121, 47, 131]
  | .returnRejected => [174, 230, 140, 164, 239, 212, 183, 103]
  | .returnRejectedCore => [103, 237, 35, 85, 44, 148, 241, 200]
  | .beginSweep => [147, 244, 224, 21, 162, 70, 107, 89]
  | .recordValue => [216, 101, 103, 198, 176, 38, 208, 156]
  | .endSweep => [242, 219, 250, 26, 62, 219, 162, 50]
  | .withdraw => [183, 18, 70, 156, 148, 109, 161, 34]
  | .withdrawCore => [49, 97, 48, 114, 218, 116, 73, 96]
  | .claimNft => [6, 193, 146, 120, 48, 218, 69, 33]
  | .claimNftCore => [208, 1, 245, 197, 33, 232, 63, 53]
  | .closeSeized => [137, 244, 152, 67, 192, 164, 35, 72]
  | .commitRolls => [175, 12, 204, 102, 216, 208, 187, 134]
  | .vrfCallback => [248, 224, 55, 227, 56, 10, 108, 36]
  | .updateTier => [22, 250, 234, 251, 201, 246, 98, 116]

theorem discriminator_listed (name : InstructionName) : name.discriminator = name.listed := by
  cases name <;> decide +kernel

@[simp] theorem length_discriminator (name : InstructionName) : name.discriminator.length = 8 :=
  ByeMachine.length_discriminator _ _

theorem discriminator_injective : Function.Injective discriminator := by
  intro a b h
  rw [discriminator_listed, discriminator_listed] at h
  have hdistinct : (all.map listed).Nodup := by decide +kernel
  exact List.inj_on_of_nodup_map hdistinct (mem_all a) (mem_all b) h

end InstructionName

end ByeMachine
