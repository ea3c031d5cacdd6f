import ByeMachine.Client.Anchor
import ByeMachine.Instructions.Admin

/-!
# Instruction arguments

`scripts/lib/admin.ts` writes the arguments of `init_pool` and `update_config`
with the writer of `scripts/lib/anchor.ts`, and the program reads them as its own
types derive it.
-/

namespace ByeMachine

open Bytes Borsh

-- ---------------------------------------------------------------------------
-- The client's encoders
-- ---------------------------------------------------------------------------

namespace Encoders

open BorshWriter

variable (w : Encoding)

def encodePoolConfigArgs (args : PoolConfigArgs) : Except EncodeError Bytes :=
  build do
    pubkey w args.treasury03
    u64 args.price
    u64 args.ticketTarget
    u64 args.fee
    u16 args.allocEqualBps
    u16 args.allocTierBps
    u16 args.allocProtocolBps
    u64 args.admissionFloor
    u64 args.admissionCeiling
    u64 args.walletValueCap
    u8 args.maxN
    u16 args.buybackRateBps
    arrayU64 (List.ofFn fun d => (args.blankFaces d : ℤ)) 3
    u64 args.t04Ceiling
    u16 args.sweepCadenceHours
    u8 args.tierSize

/-- `new Borsh().enumVariant(index, payload.build()).build()`. -/
def variant (index : ℕ) (payload : BorshWriter Unit) : Except EncodeError Bytes := do
  let payload ← build payload
  build (enumVariant index payload)

def encodeConfigUpdate : ConfigUpdate → Except EncodeError Bytes
  | .admissionFloor value => variant 0 (u64 value)
  | .admissionCeiling value => variant 1 (u64 value)
  | .walletValueCap value => variant 2 (u64 value)
  | .maxN value => variant 3 (u8 value)
  | .buybackRateBps value => variant 4 (u16 value)
  | .t04Ceiling value => variant 5 (u64 value)
  | .sweepCadenceHours value => variant 6 (u16 value)
  | .tierSize value => variant 7 (u8 value)
  | .pricing price ticketTarget fee => variant 8 do u64 price; u64 ticketTarget; u64 fee
  | .allocation equalBps tierBps protocolBps => variant 9 do
    u16 equalBps; u16 tierBps; u16 protocolBps
  | .blankFaces faces => variant 10 (arrayU64 (List.ofFn fun d => (faces d : ℤ)) 3)

end Encoders

-- ---------------------------------------------------------------------------
-- The program's reader
-- ---------------------------------------------------------------------------

inductive IoError where
  | unexpectedLength
  | unexpectedVariant (tag : ℕ)
  | notAllRead
  deriving DecidableEq, Repr

abbrev Deserialize := Reader IoError

namespace Deserialize

def short (_ : ℕ) (_ : Cursor) : IoError := .unexpectedLength

def u8 : Deserialize ℕ := unsigned short 1

def u16 : Deserialize ℕ := unsigned short 2

def u64 : Deserialize ℕ := unsigned short 8

def pubkey (w : Encoding) : Deserialize Pubkey := do
  let bytes ← take short 32
  pure (w.decode bytes)

/-- `T::try_from_slice`: the value, and nothing after it. -/
def tryFromSlice {α : Type} (m : Deserialize α) (data : Bytes) : Except IoError α := do
  let (value, r) ← m ⟨data, 0⟩
  if r.offset = data.length then .ok value else .error .notAllRead

end Deserialize

open Deserialize

def PoolConfigArgs.deserialize (w : Encoding) : Deserialize PoolConfigArgs := do
  let treasury03 ← pubkey w
  let price ← u64
  let ticketTarget ← u64
  let fee ← u64
  let allocEqualBps ← u16
  let allocTierBps ← u16
  let allocProtocolBps ← u16
  let admissionFloor ← u64
  let admissionCeiling ← u64
  let walletValueCap ← u64
  let maxN ← u8
  let buybackRateBps ← u16
  let blankFaces ← triple u64
  let t04Ceiling ← u64
  let sweepCadenceHours ← u16
  let tierSize ← u8
  pure {
    treasury03, price, ticketTarget, fee, allocEqualBps, allocTierBps, allocProtocolBps
    admissionFloor, admissionCeiling, walletValueCap, maxN, buybackRateBps, blankFaces, t04Ceiling
    sweepCadenceHours, tierSize }

/-- By declaration index. -/
def ConfigUpdate.deserialize : Deserialize ConfigUpdate := do
  let tag ← u8
  match tag with
  | 0 => .admissionFloor <$> u64
  | 1 => .admissionCeiling <$> u64
  | 2 => .walletValueCap <$> u64
  | 3 => .maxN <$> u8
  | 4 => .buybackRateBps <$> u16
  | 5 => .t04Ceiling <$> u64
  | 6 => .sweepCadenceHours <$> u16
  | 7 => .tierSize <$> u8
  | 8 => do
    let price ← u64
    let ticketTarget ← u64
    let fee ← u64
    pure (.pricing price ticketTarget fee)
  | 9 => do
    let equalBps ← u16
    let tierBps ← u16
    let protocolBps ← u16
    pure (.allocation equalBps tierBps protocolBps)
  | 10 => .blankFaces <$> triple u64
  | tag => throw (.unexpectedVariant tag)

structure PoolConfigArgs.Fits (w : Encoding) (args : PoolConfigArgs) : Prop where
  treasury03 : w.Faithful args.treasury03
  price : args.price < 2 ^ 64
  ticketTarget : args.ticketTarget < 2 ^ 64
  fee : args.fee < 2 ^ 64
  allocEqualBps : args.allocEqualBps < 2 ^ 16
  allocTierBps : args.allocTierBps < 2 ^ 16
  allocProtocolBps : args.allocProtocolBps < 2 ^ 16
  admissionFloor : args.admissionFloor < 2 ^ 64
  admissionCeiling : args.admissionCeiling < 2 ^ 64
  walletValueCap : args.walletValueCap < 2 ^ 64
  maxN : args.maxN < 2 ^ 8
  buybackRateBps : args.buybackRateBps < 2 ^ 16
  blankFaces : ∀ d, args.blankFaces d < 2 ^ 64
  t04Ceiling : args.t04Ceiling < 2 ^ 64
  sweepCadenceHours : args.sweepCadenceHours < 2 ^ 16
  tierSize : args.tierSize < 2 ^ 8

def ConfigUpdate.Fits : ConfigUpdate → Prop
  | .admissionFloor value | .admissionCeiling value | .walletValueCap value | .t04Ceiling value =>
    value < 2 ^ 64
  | .buybackRateBps value | .sweepCadenceHours value => value < 2 ^ 16
  | .maxN value | .tierSize value => value < 2 ^ 8
  | .pricing price ticketTarget fee => price < 2 ^ 64 ∧ ticketTarget < 2 ^ 64 ∧ fee < 2 ^ 64
  | .allocation equalBps tierBps protocolBps =>
    equalBps < 2 ^ 16 ∧ tierBps < 2 ^ 16 ∧ protocolBps < 2 ^ 16
  | .blankFaces faces => ∀ d, faces d < 2 ^ 64

end ByeMachine
