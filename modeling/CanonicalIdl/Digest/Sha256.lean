/-!
# SHA-256

The digest of a list of bytes: the message is padded to whole blocks of 64 bytes, and
each block is mixed into a chaining state of eight 32-bit words.

Main results:

- Theorem `length_pad_mod`: a padded message consists of whole blocks.
- Theorem `length_sha256`: every digest has 32 bytes.
-/

namespace CanonicalIdl.Digest

/-- The chaining state. -/
structure ChainState where
  a : UInt32
  b : UInt32
  c : UInt32
  d : UInt32
  e : UInt32
  f : UInt32
  g : UInt32
  h : UInt32
  deriving Repr, DecidableEq

/-- The state before the first block: fractional parts of the square roots of the
first eight primes. -/
def ChainState.start : ChainState :=
  ⟨0x6a09e667, 0xbb67ae85, 0x3c6ef372, 0xa54ff53a,
   0x510e527f, 0x9b05688c, 0x1f83d9ab, 0x5be0cd19⟩

/-- The round constants: fractional parts of the cube roots of the first 64 primes. -/
def roundConstants : List UInt32 :=
  [0x428a2f98, 0x71374491, 0xb5c0fbcf, 0xe9b5dba5, 0x3956c25b, 0x59f111f1,
   0x923f82a4, 0xab1c5ed5, 0xd807aa98, 0x12835b01, 0x243185be, 0x550c7dc3,
   0x72be5d74, 0x80deb1fe, 0x9bdc06a7, 0xc19bf174, 0xe49b69c1, 0xefbe4786,
   0x0fc19dc6, 0x240ca1cc, 0x2de92c6f, 0x4a7484aa, 0x5cb0a9dc, 0x76f988da,
   0x983e5152, 0xa831c66d, 0xb00327c8, 0xbf597fc7, 0xc6e00bf3, 0xd5a79147,
   0x06ca6351, 0x14292967, 0x27b70a85, 0x2e1b2138, 0x4d2c6dfc, 0x53380d13,
   0x650a7354, 0x766a0abb, 0x81c2c92e, 0x92722c85, 0xa2bfe8a1, 0xa81a664b,
   0xc24b8b70, 0xc76c51a3, 0xd192e819, 0xd6990624, 0xf40e3585, 0x106aa070,
   0x19a4c116, 0x1e376c08, 0x2748774c, 0x34b0bcb5, 0x391c0cb3, 0x4ed8aa4a,
   0x5b9cca4f, 0x682e6ff3, 0x748f82ee, 0x78a5636f, 0x84c87814, 0x8cc70208,
   0x90befffa, 0xa4506ceb, 0xbef9a3f7, 0xc67178f2]

/-- Rotation of a word to the right. -/
def rotateRight (x n : UInt32) : UInt32 :=
  (x >>> n) ||| (x <<< (32 - n))

/-- The big-endian bytes of a word. -/
def wordBytes (x : UInt32) : List UInt8 :=
  [(x >>> 24).toUInt8, (x >>> 16).toUInt8, (x >>> 8).toUInt8, x.toUInt8]

/-- The words of a list of bytes, four to a word; an incomplete last word is left out. -/
def bytesToWords : List UInt8 → List UInt32
  | a :: b :: c :: d :: rest =>
    ((a.toUInt32 <<< 24) ||| (b.toUInt32 <<< 16) ||| (c.toUInt32 <<< 8) ||| d.toUInt32) ::
      bytesToWords rest
  | _ => []

/-- How many zero bytes follow the delimiter of a message of `size` bytes. -/
def paddingZeros (size : Nat) : Nat :=
  (119 - size % 64) % 64

/-- The length of a message in bits, as eight bytes. -/
def lengthBytes (size : Nat) : List UInt8 :=
  wordBytes (UInt32.ofNat (size * 8 / UInt32.size)) ++ wordBytes (UInt32.ofNat (size * 8))

/-- The message, a delimiter, zeros and the length, in whole blocks. -/
def pad (message : List UInt8) : List UInt8 :=
  message ++ [0x80] ++ List.replicate (paddingZeros message.length) 0 ++
    lengthBytes message.length

/-- The next `count` schedule words, where `window` holds the coming sixteen. -/
def schedule : Nat → List UInt32 → List UInt32
  | 0, _ => []
  | _ + 1, [] => []
  | count + 1, w :: rest =>
    let x := rest.getD 0 0
    let y := rest.getD 13 0
    let sigma0 := rotateRight x 7 ^^^ rotateRight x 18 ^^^ (x >>> 3)
    let sigma1 := rotateRight y 17 ^^^ rotateRight y 19 ^^^ (y >>> 10)
    w :: schedule count (rest ++ [sigma1 + rest.getD 8 0 + sigma0 + w])

/-- One round with the sum of a round constant and a schedule word. -/
def ChainState.round (s : ChainState) (kw : UInt32) : ChainState :=
  let sum1 := rotateRight s.e 6 ^^^ rotateRight s.e 11 ^^^ rotateRight s.e 25
  let choice := (s.e &&& s.f) ^^^ (~~~s.e &&& s.g)
  let t1 := s.h + sum1 + choice + kw
  let sum0 := rotateRight s.a 2 ^^^ rotateRight s.a 13 ^^^ rotateRight s.a 22
  let majority := (s.a &&& s.b) ^^^ (s.a &&& s.c) ^^^ (s.b &&& s.c)
  ⟨t1 + (sum0 + majority), s.a, s.b, s.c, s.d + t1, s.e, s.f, s.g⟩

/-- Mix one block of sixteen words into the state. -/
def ChainState.mix (s : ChainState) (block : List UInt32) : ChainState :=
  let r := (List.zipWith (· + ·) roundConstants (schedule 64 block)).foldl ChainState.round s
  ⟨s.a + r.a, s.b + r.b, s.c + r.c, s.d + r.d, s.e + r.e, s.f + r.f, s.g + r.g, s.h + r.h⟩

/-- Mix `count` blocks of sixteen words, one after another. -/
def ChainState.mixBlocks : Nat → ChainState → List UInt32 → ChainState
  | 0, s, _ => s
  | count + 1, s, words => mixBlocks count (s.mix (words.take 16)) (words.drop 16)

/-- The eight words of the state as bytes. -/
def ChainState.bytes (s : ChainState) : List UInt8 :=
  [s.a, s.b, s.c, s.d, s.e, s.f, s.g, s.h].flatMap wordBytes

/-- The digest of a message. -/
def sha256 (message : List UInt8) : List UInt8 :=
  let words := bytesToWords (pad message)
  (ChainState.start.mixBlocks (words.length / 16) words).bytes

/-! ## Widths -/

@[simp] theorem length_wordBytes (x : UInt32) : (wordBytes x).length = 4 := rfl

@[simp] theorem length_lengthBytes (size : Nat) : (lengthBytes size).length = 8 := rfl

/-- A padded message consists of whole blocks. -/
theorem length_pad_mod (message : List UInt8) : (pad message).length % 64 = 0 := by
  simp only [pad, List.length_append, List.length_cons, List.length_nil, List.length_replicate,
    length_lengthBytes, paddingZeros]
  omega

theorem ChainState.length_bytes (s : ChainState) : s.bytes.length = 32 := rfl

/-- Every digest has 32 bytes. -/
@[simp] theorem length_sha256 (message : List UInt8) : (sha256 message).length = 32 :=
  ChainState.length_bytes _

end CanonicalIdl.Digest
