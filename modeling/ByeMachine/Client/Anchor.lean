import ByeMachine.Base.Borsh
import ByeMachine.State.Layout
import Mathlib.Data.List.Chain

/-!
# The client's writer

`scripts/lib/anchor.ts`: `class Borsh`, over the arguments that the language lets
through. A `number` or a `bigint` is any integer, and a string is a list of code
points in which a surrogate may stand alone.
-/

namespace ByeMachine

open Bytes Borsh

-- ---------------------------------------------------------------------------
-- Strings
-- ---------------------------------------------------------------------------

/-- A Unicode scalar, or a surrogate without its other half (`0xD800` and on). -/
inductive CodePoint where
  | scalar (c : Char)
  | surrogate (unit : Fin 2048)
  deriving DecidableEq

/-- A high surrogate and a low one next to each other are one scalar. -/
def CodePoint.Pairs : CodePoint → CodePoint → Prop
  | .surrogate high, .surrogate low => high.val < 1024 ∧ 1024 ≤ low.val
  | _, _ => False

/-- What UTF-8 has for it: nothing encodes a surrogate. -/
def CodePoint.char : CodePoint → Char
  | .scalar c => c
  | .surrogate _ => '\uFFFD'

/-- `Buffer.from(s, "utf8")`. -/
def utf8 (points : List CodePoint) : Bytes :=
  (points.map CodePoint.char).flatMap String.utf8EncodeChar

/-- A string of the engine, which has no room for one that a `u32` cannot count. -/
@[ext]
structure JsString where
  points : List CodePoint
  unpaired : points.IsChain fun a b => ¬a.Pairs b
  short : (utf8 points).length < 2 ^ 32

namespace JsString

theorem isChain_scalars (chars : List Char) :
    (chars.map CodePoint.scalar).IsChain fun a b => ¬a.Pairs b := by
  rw [List.isChain_map]
  exact List.Pairwise.isChain (List.pairwise_of_forall fun _ _ h => h)

def ofChars (chars : List Char) (short : (utf8 (chars.map .scalar)).length < 2 ^ 32) : JsString :=
  ⟨chars.map .scalar, isChain_scalars chars, short⟩

/-- `buf.toString("utf8")`, given what the engine makes of bytes that are not UTF-8. -/
def ofBuffer (replaced : Bytes → JsString) (b : Bytes) : JsString :=
  match String.fromUTF8? b.toByteArray with
  | some s =>
    if short : (utf8 (s.toList.map .scalar)).length < 2 ^ 32 then ofChars s.toList short
    else replaced b
  | none => replaced b

end JsString

-- ---------------------------------------------------------------------------
-- The writer
-- ---------------------------------------------------------------------------

inductive EncodeError where
  /-- `Buffer` refuses a value that its width does not hold. -/
  | outOfRange
  | bytes (expected got : ℕ)
  | items (expected got : ℕ)
  deriving DecidableEq, Repr

abbrev BorshWriter := Borsh.Writer EncodeError

namespace BorshWriter

/-- `writeUInt8`, `writeUInt16LE`, `writeUInt32LE` and `writeBigUInt64LE`. -/
def uint (n : ℕ) (value : ℤ) : BorshWriter Unit :=
  if 0 ≤ value ∧ value < 256 ^ n then push (leBytes n value.toNat) else throw .outOfRange

def u8 : ℤ → BorshWriter Unit := uint 1

def u16 : ℤ → BorshWriter Unit := uint 2

/-- `n >>> 0`. -/
def toUint32 (n : ℤ) : ℤ := n % 2 ^ 32

def u32 (n : ℤ) : BorshWriter Unit := uint 4 (toUint32 n)

def u64 : ℤ → BorshWriter Unit := uint 8

/-- `writeBigInt64LE`. -/
def i64 (n : ℤ) : BorshWriter Unit :=
  if -2 ^ 63 ≤ n ∧ n < 2 ^ 63 then push (i64Bytes n) else throw .outOfRange

/-- One buffer of two halves, `n & 0xffffffffffffffffn` and `n >> 64n`. -/
def u128 (n : ℤ) : BorshWriter Unit := do
  let low := n % 2 ^ 64
  let high := n / 2 ^ 64
  if 0 ≤ high ∧ high < 2 ^ 64 then push (leBytes 8 low.toNat ++ leBytes 8 high.toNat)
  else throw .outOfRange

def bool (v : Bool) : BorshWriter Unit := u8 (if v then 1 else 0)

def bytes (b : Bytes) : BorshWriter Unit := push b

def fixed (b : Bytes) (len : ℕ) : BorshWriter Unit := do
  if b.length ≠ len then throw (.bytes len b.length)
  push b

def string (s : JsString) : BorshWriter Unit := do
  u32 (utf8 s.points).length
  bytes (utf8 s.points)

def pubkey (w : Encoding) (a : Pubkey) : BorshWriter Unit := push (w.encode a)

def optionU16 : Option ℤ → BorshWriter Unit
  | none => u8 0
  | some n => do u8 1; u16 n

def optionPubkey (w : Encoding) : Option Pubkey → BorshWriter Unit
  | none => u8 0
  | some a => do u8 1; pubkey w a

/-- Elements only, no length prefix. -/
def array (write : ℤ → BorshWriter Unit) (items : List ℤ) (len : ℕ) : BorshWriter Unit := do
  if items.length ≠ len then throw (.items len items.length)
  items.forM write

def arrayU64 : List ℤ → ℕ → BorshWriter Unit := array u64

def arrayU32 : List ℤ → ℕ → BorshWriter Unit := array u32

def enumVariant (index : ℤ) (payload : Bytes) : BorshWriter Unit := do
  u8 index
  bytes payload

end BorshWriter

end ByeMachine
