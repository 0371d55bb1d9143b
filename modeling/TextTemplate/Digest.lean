/-! # The SHA-256 digest

The digest of a text's UTF-8 form, by the standard's definition: the message is padded to blocks of
512 bits, and every block is mixed into eight words of 32 bits in 64 rounds. -/

namespace TextTemplate.Digest

/-! ### Words -/

/-- A word with its bits rotated to the right. -/
def rotateRight (word : UInt32) (count : UInt32) : UInt32 :=
  (word >>> count) ||| (word <<< (32 - count))

/-- For every bit, that of `f` where `e` has one and that of `g` elsewhere. -/
def choose (e f g : UInt32) : UInt32 := (e &&& f) ^^^ (~~~e &&& g)

/-- For every bit, the one that at least two of the words have. -/
def majority (a b c : UInt32) : UInt32 := (a &&& b) ^^^ (a &&& c) ^^^ (b &&& c)

/-- The mixing of the first state word. -/
def bigSigma0 (word : UInt32) : UInt32 :=
  rotateRight word 2 ^^^ rotateRight word 13 ^^^ rotateRight word 22

/-- The mixing of the fifth state word. -/
def bigSigma1 (word : UInt32) : UInt32 :=
  rotateRight word 6 ^^^ rotateRight word 11 ^^^ rotateRight word 25

/-- The mixing of the word fifteen rounds before, in the schedule. -/
def smallSigma0 (word : UInt32) : UInt32 :=
  rotateRight word 7 ^^^ rotateRight word 18 ^^^ (word >>> 3)

/-- The mixing of the word two rounds before, in the schedule. -/
def smallSigma1 (word : UInt32) : UInt32 :=
  rotateRight word 17 ^^^ rotateRight word 19 ^^^ (word >>> 10)

/-! ### Constants -/

/-- The constants of the rounds: the fractional parts of the cube roots of the first 64 primes. -/
def roundConstants : List UInt32 :=
  [0x428a2f98, 0x71374491, 0xb5c0fbcf, 0xe9b5dba5, 0x3956c25b, 0x59f111f1, 0x923f82a4, 0xab1c5ed5,
   0xd807aa98, 0x12835b01, 0x243185be, 0x550c7dc3, 0x72be5d74, 0x80deb1fe, 0x9bdc06a7, 0xc19bf174,
   0xe49b69c1, 0xefbe4786, 0x0fc19dc6, 0x240ca1cc, 0x2de92c6f, 0x4a7484aa, 0x5cb0a9dc, 0x76f988da,
   0x983e5152, 0xa831c66d, 0xb00327c8, 0xbf597fc7, 0xc6e00bf3, 0xd5a79147, 0x06ca6351, 0x14292967,
   0x27b70a85, 0x2e1b2138, 0x4d2c6dfc, 0x53380d13, 0x650a7354, 0x766a0abb, 0x81c2c92e, 0x92722c85,
   0xa2bfe8a1, 0xa81a664b, 0xc24b8b70, 0xc76c51a3, 0xd192e819, 0xd6990624, 0xf40e3585, 0x106aa070,
   0x19a4c116, 0x1e376c08, 0x2748774c, 0x34b0bcb5, 0x391c0cb3, 0x4ed8aa4a, 0x5b9cca4f, 0x682e6ff3,
   0x748f82ee, 0x78a5636f, 0x84c87814, 0x8cc70208, 0x90befffa, 0xa4506ceb, 0xbef9a3f7, 0xc67178f2]

/-- The eight words of the state. -/
structure State where
  (a b c d e f g h : UInt32)
  deriving DecidableEq

/-- The first state: the fractional parts of the square roots of the first eight primes. -/
def State.initial : State :=
  ⟨0x6a09e667, 0xbb67ae85, 0x3c6ef372, 0xa54ff53a, 0x510e527f, 0x9b05688c, 0x1f83d9ab, 0x5be0cd19⟩

/-- The words of a state in order. -/
def State.words (s : State) : List UInt32 := [s.a, s.b, s.c, s.d, s.e, s.f, s.g, s.h]

/-- The words of two states added. -/
def State.add (s t : State) : State :=
  ⟨s.a + t.a, s.b + t.b, s.c + t.c, s.d + t.d, s.e + t.e, s.f + t.f, s.g + t.g, s.h + t.h⟩

/-! ### Blocks -/

/-- The bytes of a number, the most significant one first. -/
def bytesOf (count value : Nat) : List UInt8 :=
  (List.range count).map fun i => (value / Nat.pow 256 (count - 1 - i) % 256).toUInt8

/-- A message with a one bit, zeros up to a whole number of blocks, and its length in bits. -/
def padded (message : List UInt8) : List UInt8 :=
  let length := message.length
  -- The zeros leave room for the eight bytes of the length in the last block.
  message ++ 0x80 :: List.replicate ((119 - length % 64) % 64) 0 ++ bytesOf 8 (length * 8)

/-- The words of bytes, four bytes to a word, the most significant one first. -/
def wordsOf : List UInt8 → List UInt32
  | a :: b :: c :: d :: rest =>
      (a.toUInt32 <<< 24 ||| b.toUInt32 <<< 16 ||| c.toUInt32 <<< 8 ||| d.toUInt32) :: wordsOf rest
  | _ => []

/-- The next word of the schedule, given the sixteen words before it in order. -/
def nextWord : List UInt32 → UInt32
  | [w0, w1, _, _, _, _, _, _, _, w9, _, _, _, _, w14, _] =>
      smallSigma1 w14 + w9 + smallSigma0 w1 + w0
  | _ => 0

/-- One round, with its constant and its word of the schedule. -/
def round (s : State) (constant word : UInt32) : State :=
  let t1 := s.h + bigSigma1 s.e + choose s.e s.f s.g + constant + word
  let t2 := bigSigma0 s.a + majority s.a s.b s.c
  ⟨t1 + t2, s.a, s.b, s.c, s.d + t1, s.e, s.f, s.g⟩

/-- The rounds for the given constants. `window` are the sixteen words of the schedule that come
next. -/
def rounds (s : State) (window : List UInt32) : List UInt32 → State
  | [] => s
  | constant :: rest =>
      match window with
      | word :: others =>
          rounds (round s constant word) (others ++ [nextWord (word :: others)]) rest
      | [] => s

/-- The state after a block of sixteen words. -/
def compress (s : State) (block : List UInt32) : State := s.add (rounds s block roundConstants)

/-- The state after the blocks of some words. -/
def absorb (s : State) (words : List UInt32) : State :=
  match words with
  | [] => s
  | word :: rest => absorb (compress s ((word :: rest).take 16)) (rest.drop 15)
  termination_by words.length

/-! ### Digests -/

/-- The digest of bytes. -/
def ofBytes (message : List UInt8) : List UInt32 :=
  (absorb .initial (wordsOf (padded message))).words

/-- The eight hexadecimal digits of a word, in lower case. -/
def hexWord (word : UInt32) : List Char :=
  (List.range 8).map fun i => Nat.digitChar (word.toNat / Nat.pow 16 (7 - i) % 16)

/-- The digest of a text as hexadecimal digits. -/
def ofString (text : String) : List Char :=
  (ofBytes text.toUTF8.toList).flatMap hexWord

end TextTemplate.Digest
