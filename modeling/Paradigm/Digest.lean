/-
Module: Paradigm.Digest
Layer: Text
Purpose: The SHA-256 digest of a text, by which emitted documents are told apart.
Imports: Paradigm.Hexadecimal
Main exports: Digest.sha256, fingerprint
-/
import Paradigm.Hexadecimal

namespace Paradigm

namespace Digest

/-! ### Constants -/

/-- The words that stand at the beginning: fractional parts of square roots of primes. -/
def initial : List UInt32 :=
  [0x6a09e667, 0xbb67ae85, 0x3c6ef372, 0xa54ff53a, 0x510e527f, 0x9b05688c, 0x1f83d9ab, 0x5be0cd19]

/-- One word for each round: fractional parts of cube roots of primes. -/
def roundWords : List UInt32 :=
  [0x428a2f98, 0x71374491, 0xb5c0fbcf, 0xe9b5dba5, 0x3956c25b, 0x59f111f1, 0x923f82a4, 0xab1c5ed5,
    0xd807aa98, 0x12835b01, 0x243185be, 0x550c7dc3, 0x72be5d74, 0x80deb1fe, 0x9bdc06a7, 0xc19bf174,
    0xe49b69c1, 0xefbe4786, 0x0fc19dc6, 0x240ca1cc, 0x2de92c6f, 0x4a7484aa, 0x5cb0a9dc, 0x76f988da,
    0x983e5152, 0xa831c66d, 0xb00327c8, 0xbf597fc7, 0xc6e00bf3, 0xd5a79147, 0x06ca6351, 0x14292967,
    0x27b70a85, 0x2e1b2138, 0x4d2c6dfc, 0x53380d13, 0x650a7354, 0x766a0abb, 0x81c2c92e, 0x92722c85,
    0xa2bfe8a1, 0xa81a664b, 0xc24b8b70, 0xc76c51a3, 0xd192e819, 0xd6990624, 0xf40e3585, 0x106aa070,
    0x19a4c116, 0x1e376c08, 0x2748774c, 0x34b0bcb5, 0x391c0cb3, 0x4ed8aa4a, 0x5b9cca4f, 0x682e6ff3,
    0x748f82ee, 0x78a5636f, 0x84c87814, 0x8cc70208, 0x90befffa, 0xa4506ceb, 0xbef9a3f7, 0xc67178f2]

/-! ### Words -/

/-- Turns a word to the right. -/
def turn (x : UInt32) (n : UInt32) : UInt32 := (x >>> n) ||| (x <<< (32 - n))

/-- Four bytes as a word, the highest first. -/
def word (a b c d : UInt8) : UInt32 :=
  (a.toUInt32 <<< 24) ||| (b.toUInt32 <<< 16) ||| (c.toUInt32 <<< 8) ||| d.toUInt32

/-- Bytes as words. -/
def words : List UInt8 → List UInt32
  | a :: b :: c :: d :: rest => word a b c d :: words rest
  | _ => []

/-- The next word of a schedule, from the last sixteen with the most recent first. -/
def nextWord (recent : List UInt32) : UInt32 :=
  let back (n : Nat) : UInt32 := (recent[n - 1]?).getD 0
  let low := turn (back 15) 7 ^^^ turn (back 15) 18 ^^^ (back 15 >>> 3)
  let high := turn (back 2) 17 ^^^ turn (back 2) 19 ^^^ (back 2 >>> 10)
  back 16 + low + back 7 + high

/-- Extends a schedule, held with the most recent word first, by a number of words. -/
def extend : Nat → List UInt32 → List UInt32
  | 0, recent => recent
  | n + 1, recent => extend n (nextWord recent :: recent)

/-- The sixty-four words of the rounds for the sixteen words of a block. -/
def schedule (block : List UInt32) : List UInt32 := (extend 48 block.reverse).reverse

/-! ### Rounds -/

/-- The eight words between two rounds. -/
structure State where
  a : UInt32
  b : UInt32
  c : UInt32
  d : UInt32
  e : UInt32
  f : UInt32
  g : UInt32
  h : UInt32

/-- One round with the word of the round and the word of the schedule, summed. -/
def State.round (s : State) (summed : UInt32) : State :=
  let high := turn s.e 6 ^^^ turn s.e 11 ^^^ turn s.e 25
  let choice := (s.e &&& s.f) ^^^ ((~~~s.e) &&& s.g)
  let first := s.h + high + choice + summed
  let low := turn s.a 2 ^^^ turn s.a 13 ^^^ turn s.a 22
  let majority := (s.a &&& s.b) ^^^ (s.a &&& s.c) ^^^ (s.b &&& s.c)
  { a := first + (low + majority), b := s.a, c := s.b, d := s.c
    e := s.d + first, f := s.e, g := s.f, h := s.g }

/-- Adds two states word by word. -/
def State.add (s t : State) : State :=
  { a := s.a + t.a, b := s.b + t.b, c := s.c + t.c, d := s.d + t.d
    e := s.e + t.e, f := s.f + t.f, g := s.g + t.g, h := s.h + t.h }

/-- The state after a block. -/
def State.absorb (s : State) (block : List UInt32) : State :=
  s.add (((schedule block).zipWith (· + ·) roundWords).foldl State.round s)

/-- The state before the first block. -/
def State.start : State :=
  match initial with
  | [a, b, c, d, e, f, g, h] => ⟨a, b, c, d, e, f, g, h⟩
  | _ => ⟨0, 0, 0, 0, 0, 0, 0, 0⟩

/-- The words of a state in order. -/
def State.toList (s : State) : List UInt32 := [s.a, s.b, s.c, s.d, s.e, s.f, s.g, s.h]

/-! ### Padding -/

/-- The eight bytes of a length in bits, the highest first. -/
def lengthBytes (bits : Nat) : List UInt8 :=
  (List.range 8).map fun i => UInt8.ofNat (bits / Nat.pow 256 (7 - i))

/-- A message with the mark of its end, zeros up to a whole number of blocks, and its length. -/
def padded (message : List UInt8) : List UInt8 :=
  let zeros := (64 - (message.length + 9) % 64) % 64
  message ++ 0x80 :: List.replicate zeros 0 ++ lengthBytes (8 * message.length)

/-- Words in blocks of sixteen. -/
def absorbAll (s : State) (count : Nat) (remaining : List UInt32) : State :=
  match count with
  | 0 => s
  | n + 1 => absorbAll (s.absorb (remaining.take 16)) n (remaining.drop 16)

/-- The digest of a message, as eight words. -/
def sha256 (message : List UInt8) : List UInt32 :=
  let all := words (padded message)
  (absorbAll State.start (all.length / 16) all).toList

end Digest

/-- The digest of a text in hexadecimal digits. -/
def fingerprint (text : String) : String :=
  String.join ((Digest.sha256 text.toUTF8.toList).map fun w => Hexadecimal.write 8 w.toNat)

/-- The digest of the empty text. -/
example : fingerprint "" = "e3b0c44298fc1c149afbf4c8996fb92427ae41e4649b934ca495991b7852b855" := by
  decide +kernel

end Paradigm
