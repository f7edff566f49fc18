/-!
# SHA-256

The digest by which a report names the bytes that it speaks of. A message is padded to blocks of 64
bytes; each block is stretched to 64 words and mixed into a state of eight words, and the state
after the last block is the digest.

All arithmetic on words wraps at 2 ^ 32, as it does on `UInt32`.
-/

namespace SchedulerPolicy.Sha256

/-- The state of the digest. -/
structure State where
  a : UInt32
  b : UInt32
  c : UInt32
  d : UInt32
  e : UInt32
  f : UInt32
  g : UInt32
  h : UInt32
deriving DecidableEq, Inhabited

namespace State

/-- The state before the first block: the fractional parts of the square roots of the first eight
primes. -/
def start : State where
  a := 0x6a09e667
  b := 0xbb67ae85
  c := 0x3c6ef372
  d := 0xa54ff53a
  e := 0x510e527f
  f := 0x9b05688c
  g := 0x1f83d9ab
  h := 0x5be0cd19

/-- The word-wise sum of two states. -/
def add (s t : State) : State where
  a := s.a + t.a
  b := s.b + t.b
  c := s.c + t.c
  d := s.d + t.d
  e := s.e + t.e
  f := s.f + t.f
  g := s.g + t.g
  h := s.h + t.h

/-- The words of a state. -/
def words (s : State) : List UInt32 := [s.a, s.b, s.c, s.d, s.e, s.f, s.g, s.h]

end State

/-- What each of the 64 rounds adds: the fractional parts of the cube roots of the first 64 primes.
-/
def roundWords : List UInt32 :=
  [
    0x428a2f98, 0x71374491, 0xb5c0fbcf, 0xe9b5dba5, 0x3956c25b, 0x59f111f1,
    0x923f82a4, 0xab1c5ed5, 0xd807aa98, 0x12835b01, 0x243185be, 0x550c7dc3,
    0x72be5d74, 0x80deb1fe, 0x9bdc06a7, 0xc19bf174, 0xe49b69c1, 0xefbe4786,
    0x0fc19dc6, 0x240ca1cc, 0x2de92c6f, 0x4a7484aa, 0x5cb0a9dc, 0x76f988da,
    0x983e5152, 0xa831c66d, 0xb00327c8, 0xbf597fc7, 0xc6e00bf3, 0xd5a79147,
    0x06ca6351, 0x14292967, 0x27b70a85, 0x2e1b2138, 0x4d2c6dfc, 0x53380d13,
    0x650a7354, 0x766a0abb, 0x81c2c92e, 0x92722c85, 0xa2bfe8a1, 0xa81a664b,
    0xc24b8b70, 0xc76c51a3, 0xd192e819, 0xd6990624, 0xf40e3585, 0x106aa070,
    0x19a4c116, 0x1e376c08, 0x2748774c, 0x34b0bcb5, 0x391c0cb3, 0x4ed8aa4a,
    0x5b9cca4f, 0x682e6ff3, 0x748f82ee, 0x78a5636f, 0x84c87814, 0x8cc70208,
    0x90befffa, 0xa4506ceb, 0xbef9a3f7, 0xc67178f2]

/-! ### Words -/

/-- A word turned to the right by `n` places, `0 < n < 32`. -/
def rotated (x : UInt32) (n : UInt32) : UInt32 := (x >>> n) ||| (x <<< (32 - n))

/-- The word of four bytes, the most significant first. -/
def wordOf (bytes : List UInt8) : UInt32 :=
  bytes.foldl (fun x b => (x <<< 8) ||| b.toUInt32) 0

/-- The bytes of a number, `count` of them and the most significant first. -/
def bytesOf (n : Nat) : (count : Nat) → List UInt8
  | 0 => []
  | count + 1 => UInt8.ofNat (n >>> (8 * count)) :: bytesOf n count

/-! ### Blocks -/

/-- A message with its padding: a bit, zeros, and its length in bits as the last eight bytes of the
last block. -/
def padded (message : List UInt8) : List UInt8 :=
  let zeros := (119 - message.length % 64) % 64
  message ++ 0x80 :: List.replicate zeros 0 ++ bytesOf (8 * message.length) 8

/-- The words of a stretched block, the last one first, from the words so far. -/
def stretched : (count : Nat) → List UInt32 → List UInt32
  | 0, words => words
  | count + 1, words =>
    let back (n : Nat) : UInt32 := words.getD (n - 1) 0
    let s0 := rotated (back 15) 7 ^^^ rotated (back 15) 18 ^^^ (back 15 >>> 3)
    let s1 := rotated (back 2) 17 ^^^ rotated (back 2) 19 ^^^ (back 2 >>> 10)
    stretched count ((back 16 + s0 + back 7 + s1) :: words)

/-- The words of a block: its sixteen, and forty-eight made from them. -/
def schedule (block : List UInt32) : List UInt32 := (stretched 48 block.reverse).reverse

/-- One round, with the word that the round adds and a word of the block. -/
def round (s : State) (k w : UInt32) : State :=
  let s1 := rotated s.e 6 ^^^ rotated s.e 11 ^^^ rotated s.e 25
  let choice := (s.e &&& s.f) ^^^ (~~~s.e &&& s.g)
  let t1 := s.h + s1 + choice + k + w
  let s0 := rotated s.a 2 ^^^ rotated s.a 13 ^^^ rotated s.a 22
  let majority := (s.a &&& s.b) ^^^ (s.a &&& s.c) ^^^ (s.b &&& s.c)
  { a := t1 + (s0 + majority), b := s.a, c := s.b, d := s.c
    e := s.d + t1, f := s.e, g := s.f, h := s.g }

/-- Mixes a block into the state. -/
def mix (s : State) (block : List UInt32) : State :=
  s.add ((roundWords.zip (schedule block)).foldl (fun t kw => round t kw.1 kw.2) s)

/-- The words of bytes whose number is a multiple of four. -/
def wordsOf : List UInt8 → List UInt32
  | a :: b :: c :: d :: rest => wordOf [a, b, c, d] :: wordsOf rest
  | _ => []

/-- Mixes words into the state, sixteen at a time. -/
def mixAll : (fuel : Nat) → State → List UInt32 → State
  | 0, s, _ => s
  | fuel + 1, s, words =>
    if words.isEmpty then s else mixAll fuel (mix s (words.take 16)) (words.drop 16)

/-- The state after a message. -/
def digest (message : List UInt8) : State :=
  let words := wordsOf (padded message)
  mixAll (words.length + 1) .start words

/-! ### Digests as text -/

/-- A byte as two hexadecimal digits. -/
def hexByte (b : UInt8) : List Char :=
  [Nat.digitChar (b.toNat / 16), Nat.digitChar (b.toNat % 16)]

/-- The digest of the bytes of a text, as 64 hexadecimal digits. -/
def hexDigest (text : String) : String :=
  let words := (digest text.toUTF8.toList).words
  String.ofList (words.flatMap fun w => (bytesOf w.toNat 4).flatMap hexByte)

end SchedulerPolicy.Sha256
