import CertKeeper.Crypto.Sha2

/-!
# SHA-1

The 160-bit hash that names a public key in its certificate. It is also the hash of a probabilistic
signature that names none.
-/

namespace CertKeeper.Crypto.Sha1

/-- The five working words. -/
structure State where
  a : BitVec 32
  b : BitVec 32
  c : BitVec 32
  d : BitVec 32
  e : BitVec 32

/-- The function and the constant of a round. -/
def mix (i : Nat) (b c d : BitVec 32) : BitVec 32 × BitVec 32 :=
  if i < 20 then ((b &&& c) ||| (~~~b &&& d), 0x5a827999)
  else if i < 40 then (b ^^^ c ^^^ d, 0x6ed9eba1)
  else if i < 60 then ((b &&& c) ||| (b &&& d) ||| (c &&& d), 0x8f1bbcdc)
  else (b ^^^ c ^^^ d, 0xca62c1d6)

/-- The rounds with the given numbers. The window holds the next sixteen words of the schedule. -/
def rounds : List Nat → List (BitVec 32) → State → State
  | [], _, s => s
  | i :: rest, window, s =>
    let word (k : Nat) : BitVec 32 := window.getD k 0
    let next := (word 13 ^^^ word 8 ^^^ word 2 ^^^ word 0).rotateLeft 1
    let (f, k) := mix i s.b s.c s.d
    let t := s.a.rotateLeft 5 + f + s.e + k + word 0
    rounds rest (window.drop 1 ++ [next]) ⟨t, s.a, s.b.rotateLeft 30, s.c, s.d⟩

/-- The hash value after a block. -/
def compress (v : State) (block : List (BitVec 32)) : State :=
  let s := rounds (List.range 80) block v
  ⟨v.a + s.a, v.b + s.b, v.c + s.c, v.d + s.d, v.e + s.e⟩

/-- The hash of a message. -/
def hash (m : Bytes) : Bytes :=
  let block (b : Bytes) : List (BitVec 32) :=
    (Sha2.pieces 4 b).map fun p => BitVec.ofNat 32 (Bytes.toNat p)
  let blocks := (Sha2.pieces 64 (Sha2.pad 4 m)).map block
  let s := blocks.foldl compress ⟨0x67452301, 0xefcdab89, 0x98badcfe, 0x10325476, 0xc3d2e1f0⟩
  [s.a, s.b, s.c, s.d, s.e].flatMap fun x => Bytes.ofNatWidth 4 x.toNat

end CertKeeper.Crypto.Sha1
