import CertKeeper.Bytes

/-!
# The SHA-2 family

One compression function, over words of 32 or of 64 bits, serves the four members of the family.
Their constants are the leading fraction bits of roots of the first primes, so the short words are
halves of the long ones.
-/

namespace CertKeeper.Crypto.Sha2

/-- The first 64 fraction bits of the cube roots of the first eighty primes. -/
def cubeRoots : List Nat :=
  [0x428a2f98d728ae22, 0x7137449123ef65cd, 0xb5c0fbcfec4d3b2f, 0xe9b5dba58189dbbc,
   0x3956c25bf348b538, 0x59f111f1b605d019, 0x923f82a4af194f9b, 0xab1c5ed5da6d8118,
   0xd807aa98a3030242, 0x12835b0145706fbe, 0x243185be4ee4b28c, 0x550c7dc3d5ffb4e2,
   0x72be5d74f27b896f, 0x80deb1fe3b1696b1, 0x9bdc06a725c71235, 0xc19bf174cf692694,
   0xe49b69c19ef14ad2, 0xefbe4786384f25e3, 0x0fc19dc68b8cd5b5, 0x240ca1cc77ac9c65,
   0x2de92c6f592b0275, 0x4a7484aa6ea6e483, 0x5cb0a9dcbd41fbd4, 0x76f988da831153b5,
   0x983e5152ee66dfab, 0xa831c66d2db43210, 0xb00327c898fb213f, 0xbf597fc7beef0ee4,
   0xc6e00bf33da88fc2, 0xd5a79147930aa725, 0x06ca6351e003826f, 0x142929670a0e6e70,
   0x27b70a8546d22ffc, 0x2e1b21385c26c926, 0x4d2c6dfc5ac42aed, 0x53380d139d95b3df,
   0x650a73548baf63de, 0x766a0abb3c77b2a8, 0x81c2c92e47edaee6, 0x92722c851482353b,
   0xa2bfe8a14cf10364, 0xa81a664bbc423001, 0xc24b8b70d0f89791, 0xc76c51a30654be30,
   0xd192e819d6ef5218, 0xd69906245565a910, 0xf40e35855771202a, 0x106aa07032bbd1b8,
   0x19a4c116b8d2d0c8, 0x1e376c085141ab53, 0x2748774cdf8eeb99, 0x34b0bcb5e19b48a8,
   0x391c0cb3c5c95a63, 0x4ed8aa4ae3418acb, 0x5b9cca4f7763e373, 0x682e6ff3d6b2b8a3,
   0x748f82ee5defb2fc, 0x78a5636f43172f60, 0x84c87814a1f0ab72, 0x8cc702081a6439ec,
   0x90befffa23631e28, 0xa4506cebde82bde9, 0xbef9a3f7b2c67915, 0xc67178f2e372532b,
   0xca273eceea26619c, 0xd186b8c721c0c207, 0xeada7dd6cde0eb1e, 0xf57d4f7fee6ed178,
   0x06f067aa72176fba, 0x0a637dc5a2c898a6, 0x113f9804bef90dae, 0x1b710b35131c471b,
   0x28db77f523047d84, 0x32caab7b40c72493, 0x3c9ebe0a15c9bebc, 0x431d67c49c100d4c,
   0x4cc5d4becb3e42b6, 0x597f299cfc657e2a, 0x5fcb6fab3ad6faec, 0x6c44198c4a475817]

/-- The first 64 fraction bits of the square roots of the first eight primes. -/
def firstRoots : List Nat :=
  [0x6a09e667f3bcc908, 0xbb67ae8584caa73b, 0x3c6ef372fe94f82b, 0xa54ff53a5f1d36f1,
   0x510e527fade682d1, 0x9b05688c2b3e6c1f, 0x1f83d9abfb41bd6b, 0x5be0cd19137e2179]

/-- The first 64 fraction bits of the square roots of the ninth to the sixteenth prime. -/
def nextRoots : List Nat :=
  [0xcbbb9d5dc1059ed8, 0x629a292a367cd507, 0x9159015a3070dd17, 0x152fecd8f70e5939,
   0x67332667ffc00b31, 0x8eb44a8768581511, 0xdb0c2e0d64f98fa7, 0x47b5481dbefa4fa4]

/-- What distinguishes a member of the family. -/
structure Variant (w : Nat) where
  /-- The constants that the rounds add. -/
  roundConstants : List (BitVec w)
  /-- The hash value before the first block. -/
  initial : List (BitVec w)
  /-- The rotations of the two sums in a round. -/
  sum0 : Nat × Nat × Nat
  sum1 : Nat × Nat × Nat
  /-- Two rotations and a shift for each of the two terms of the message schedule. -/
  term0 : Nat × Nat × Nat
  term1 : Nat × Nat × Nat
  /-- The length of the hash in octets. -/
  length : Nat

/-- The member with words of 32 bits, a start value and a length. -/
def short (initial : List Nat) (length : Nat) : Variant 32 where
  roundConstants := (cubeRoots.take 64).map fun k => BitVec.ofNat 32 (k >>> 32)
  initial := initial.map (BitVec.ofNat 32)
  sum0 := (2, 13, 22)
  sum1 := (6, 11, 25)
  term0 := (7, 18, 3)
  term1 := (17, 19, 10)
  length := length

/-- The member with words of 64 bits, a start value and a length. -/
def long (initial : List Nat) (length : Nat) : Variant 64 where
  roundConstants := cubeRoots.map (BitVec.ofNat 64)
  initial := initial.map (BitVec.ofNat 64)
  sum0 := (28, 34, 39)
  sum1 := (14, 18, 41)
  term0 := (1, 8, 7)
  term1 := (19, 61, 6)
  length := length

/-- The exclusive sum of three rotations. -/
def rotations {w : Nat} (r : Nat × Nat × Nat) (x : BitVec w) : BitVec w :=
  x.rotateRight r.1 ^^^ x.rotateRight r.2.1 ^^^ x.rotateRight r.2.2

/-- The exclusive sum of two rotations and a shift. -/
def scheduleTerm {w : Nat} (r : Nat × Nat × Nat) (x : BitVec w) : BitVec w :=
  x.rotateRight r.1 ^^^ x.rotateRight r.2.1 ^^^ (x >>> r.2.2)

/-- The eight working words. -/
structure State (w : Nat) where
  a : BitVec w
  b : BitVec w
  c : BitVec w
  d : BitVec w
  e : BitVec w
  f : BitVec w
  g : BitVec w
  h : BitVec w

/-- The working words of a list. -/
def State.ofList {w : Nat} (l : List (BitVec w)) : State w :=
  let word (i : Nat) : BitVec w := l.getD i 0
  ⟨word 0, word 1, word 2, word 3, word 4, word 5, word 6, word 7⟩

/-- The working words in order. -/
def State.toList {w : Nat} (s : State w) : List (BitVec w) :=
  [s.a, s.b, s.c, s.d, s.e, s.f, s.g, s.h]

/-- One round with a constant and a word of the message schedule. -/
def State.round {w : Nat} (v : Variant w) (s : State w) (k m : BitVec w) : State w :=
  let choice := (s.e &&& s.f) ^^^ (~~~s.e &&& s.g)
  let majority := (s.a &&& s.b) ^^^ (s.a &&& s.c) ^^^ (s.b &&& s.c)
  let t1 := s.h + rotations v.sum1 s.e + choice + k + m
  let t2 := rotations v.sum0 s.a + majority
  ⟨t1 + t2, s.a, s.b, s.c, s.d + t1, s.e, s.f, s.g⟩

/-- The rounds with the given constants. The window holds the next sixteen words of the message
schedule; each round uses the first and appends a new one. -/
def rounds {w : Nat} (v : Variant w) : List (BitVec w) → List (BitVec w) → State w → State w
  | [], _, s => s
  | k :: ks, window, s =>
    let word (i : Nat) : BitVec w := window.getD i 0
    let next := scheduleTerm v.term1 (word 14) + word 9 + scheduleTerm v.term0 (word 1) + word 0
    rounds v ks (window.drop 1 ++ [next]) (s.round v k (word 0))

/-- The hash value after a block. -/
def compress {w : Nat} (v : Variant w) (value block : List (BitVec w)) : List (BitVec w) :=
  let s := rounds v v.roundConstants block (State.ofList value)
  (value.zip s.toList).map fun p => p.1 + p.2

/-- The message, a one bit, zeros and the number of bits, up to a multiple of sixteen words. -/
def pad (wordLength : Nat) (m : Bytes) : Bytes :=
  let block := 16 * wordLength
  let field := 2 * wordLength
  let zeros := (2 * block - 1 - field - m.length % block) % block
  m ++ 0x80 :: List.replicate zeros 0 ++ Bytes.ofNatWidth field (8 * m.length)

/-- Pieces of the given length; the last may be shorter. -/
def pieces (length : Nat) (b : Bytes) : List Bytes :=
  (List.range ((b.length + length - 1) / length)).map fun i => (b.drop (i * length)).take length

/-- The hash of a message. -/
def hash {w : Nat} (v : Variant w) (m : Bytes) : Bytes :=
  let wordLength := w / 8
  let block (b : Bytes) : List (BitVec w) :=
    (pieces wordLength b).map fun p => BitVec.ofNat w (Bytes.toNat p)
  let blocks := (pieces (16 * wordLength) (pad wordLength m)).map block
  let value := blocks.foldl (compress v) v.initial
  (value.flatMap fun x => Bytes.ofNatWidth wordLength x.toNat).take v.length

/-- SHA-224; it starts from the low halves of the long start value of SHA-384. -/
def sha224 : Variant 32 := short nextRoots 28

/-- SHA-256; it starts from the high halves of the long start value of SHA-512. -/
def sha256 : Variant 32 := short (firstRoots.map (· >>> 32)) 32

/-- SHA-384. -/
def sha384 : Variant 64 := long nextRoots 48

/-- SHA-512. -/
def sha512 : Variant 64 := long firstRoots 64

end CertKeeper.Crypto.Sha2
