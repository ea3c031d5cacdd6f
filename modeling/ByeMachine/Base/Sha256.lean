import ByeMachine.Base.Bytes
import Mathlib.Data.Nat.Bitwise

/-!
# SHA-256

FIPS 180-4 over byte strings. A word is a number below `2 ^ 32`: the kernel
computes on numbers, so that the hash of a given string can be decided.
-/

namespace Sha256

def K : List ℕ := [
  0x428a2f98, 0x71374491, 0xb5c0fbcf, 0xe9b5dba5, 0x3956c25b, 0x59f111f1, 0x923f82a4, 0xab1c5ed5,
  0xd807aa98, 0x12835b01, 0x243185be, 0x550c7dc3, 0x72be5d74, 0x80deb1fe, 0x9bdc06a7, 0xc19bf174,
  0xe49b69c1, 0xefbe4786, 0x0fc19dc6, 0x240ca1cc, 0x2de92c6f, 0x4a7484aa, 0x5cb0a9dc, 0x76f988da,
  0x983e5152, 0xa831c66d, 0xb00327c8, 0xbf597fc7, 0xc6e00bf3, 0xd5a79147, 0x06ca6351, 0x14292967,
  0x27b70a85, 0x2e1b2138, 0x4d2c6dfc, 0x53380d13, 0x650a7354, 0x766a0abb, 0x81c2c92e, 0x92722c85,
  0xa2bfe8a1, 0xa81a664b, 0xc24b8b70, 0xc76c51a3, 0xd192e819, 0xd6990624, 0xf40e3585, 0x106aa070,
  0x19a4c116, 0x1e376c08, 0x2748774c, 0x34b0bcb5, 0x391c0cb3, 0x4ed8aa4a, 0x5b9cca4f, 0x682e6ff3,
  0x748f82ee, 0x78a5636f, 0x84c87814, 0x8cc70208, 0x90befffa, 0xa4506ceb, 0xbef9a3f7, 0xc67178f2]

structure State where
  a : ℕ
  b : ℕ
  c : ℕ
  d : ℕ
  e : ℕ
  f : ℕ
  g : ℕ
  h : ℕ

def State.initial : State where
  a := 0x6a09e667
  b := 0xbb67ae85
  c := 0x3c6ef372
  d := 0xa54ff53a
  e := 0x510e527f
  f := 0x9b05688c
  g := 0x1f83d9ab
  h := 0x5be0cd19

def rotateRight (x n : ℕ) : ℕ := x >>> n ||| x <<< (32 - n) % 2 ^ 32

-- ---------------------------------------------------------------------------
-- Padding
-- ---------------------------------------------------------------------------

def beBytes (n value : ℕ) : Bytes := (Bytes.leBytes n value).reverse

/-- One bit, as many zeros as fill the block, and the length in bits. -/
def pad (message : Bytes) : Bytes :=
  message ++ 0x80 :: List.replicate ((119 - message.length % 64) % 64) 0 ++
    beBytes 8 (8 * message.length)

def words : Bytes → List ℕ
  | b₀ :: b₁ :: b₂ :: b₃ :: rest =>
    (((b₀.toNat * 256 + b₁.toNat) * 256 + b₂.toNat) * 256 + b₃.toNat) :: words rest
  | _ => []

-- ---------------------------------------------------------------------------
-- Compression
-- ---------------------------------------------------------------------------

/-- The schedule's next word, from those before it, the latest first. -/
def nextWord (schedule : List ℕ) : ℕ :=
  let w₂ := schedule.getD 1 0
  let w₇ := schedule.getD 6 0
  let w₁₅ := schedule.getD 14 0
  let w₁₆ := schedule.getD 15 0
  let s₀ := rotateRight w₁₅ 7 ^^^ rotateRight w₁₅ 18 ^^^ w₁₅ >>> 3
  let s₁ := rotateRight w₂ 17 ^^^ rotateRight w₂ 19 ^^^ w₂ >>> 10
  (s₁ + w₇ + s₀ + w₁₆) % 2 ^ 32

def extend : ℕ → List ℕ → List ℕ
  | 0, schedule => schedule
  | n + 1, schedule => extend n (nextWord schedule :: schedule)

def round (s : State) (k word : ℕ) : State :=
  let s₁ := rotateRight s.e 6 ^^^ rotateRight s.e 11 ^^^ rotateRight s.e 25
  let choice := (s.e &&& s.f) ^^^ ((s.e ^^^ 0xffffffff) &&& s.g)
  let t₁ := (s.h + s₁ + choice + k + word) % 2 ^ 32
  let s₀ := rotateRight s.a 2 ^^^ rotateRight s.a 13 ^^^ rotateRight s.a 22
  let majority := (s.a &&& s.b) ^^^ (s.a &&& s.c) ^^^ (s.b &&& s.c)
  { a := (t₁ + s₀ + majority) % 2 ^ 32, b := s.a, c := s.b, d := s.c
    e := (s.d + t₁) % 2 ^ 32, f := s.e, g := s.f, h := s.g }

def State.add (s t : State) : State where
  a := (s.a + t.a) % 2 ^ 32
  b := (s.b + t.b) % 2 ^ 32
  c := (s.c + t.c) % 2 ^ 32
  d := (s.d + t.d) % 2 ^ 32
  e := (s.e + t.e) % 2 ^ 32
  f := (s.f + t.f) % 2 ^ 32
  g := (s.g + t.g) % 2 ^ 32
  h := (s.h + t.h) % 2 ^ 32

/-- One block of sixteen words. -/
def compress (s : State) (block : List ℕ) : State :=
  let schedule := (extend 48 block.reverse).reverse
  s.add ((K.zip schedule).foldl (fun s kw => round s kw.1 kw.2) s)

def compressAll : ℕ → State → List ℕ → State
  | 0, s, _ => s
  | n + 1, s, words => compressAll n (compress s (words.take 16)) (words.drop 16)

def State.bytes (s : State) : Bytes :=
  [s.a, s.b, s.c, s.d, s.e, s.f, s.g, s.h].flatMap (beBytes 4)

def digest (message : Bytes) : Bytes :=
  let padded := pad message
  (compressAll (padded.length / 64) .initial (words padded)).bytes

@[simp] theorem length_beBytes (n value : ℕ) : (beBytes n value).length = n := by
  rw [beBytes, List.length_reverse, Bytes.length_leBytes]

theorem length_digest (message : Bytes) : (digest message).length = 32 := by
  simp [digest, State.bytes]

/-- The standard's own example. -/
example : (digest [0x61, 0x62, 0x63]).take 4 = [0xba, 0x78, 0x16, 0xbf] := by decide +kernel

end Sha256
