import CertKeeper.Crypto.Digest
import CertKeeper.Crypto.Modular

/-!
# Curves in short Weierstrass form

The curves of prime order that keys may lie on, their group law in affine coordinates, and the check
of signatures made with them.
-/

namespace CertKeeper.Crypto.Weierstrass

/-- The named curves. -/
inductive Curve where
  | p256
  | p384
  | p521
  deriving DecidableEq, Repr

/-- The numbers that define a curve: the field, the two coefficients, a base point, its order. -/
structure Parameters where
  field : Nat
  a : Nat
  b : Nat
  base : Nat × Nat
  order : Nat

/-- The numbers of a named curve. -/
def Curve.parameters : Curve → Parameters
  | .p256 =>
    let p := Nat.pow 2 256 - Nat.pow 2 224 + Nat.pow 2 192 + Nat.pow 2 96 - 1
    { field := p
      a := p - 3
      b := 0x5ac635d8aa3a93e7b3ebbd55769886bc651d06b0cc53b0f63bce3c3e27d2604b
      base :=
        (0x6b17d1f2e12c4247f8bce6e563a440f277037d812deb33a0f4a13945d898c296,
          0x4fe342e2fe1a7f9b8ee7eb4a7c0f9e162bce33576b315ececbb6406837bf51f5)
      order := 0xffffffff00000000ffffffffffffffffbce6faada7179e84f3b9cac2fc632551 }
  | .p384 =>
    let p := Nat.pow 2 384 - Nat.pow 2 128 - Nat.pow 2 96 + Nat.pow 2 32 - 1
    { field := p
      a := p - 3
      b := 0xb3312fa7e23ee7e4988e056be3f82d19 * Nat.pow 2 256
        + 0x181d9c6efe8141120314088f5013875ac656398d8a2ed19d2a85c8edd3ec2aef
      base :=
        (0xaa87ca22be8b05378eb1c71ef320ad74 * Nat.pow 2 256
          + 0x6e1d3b628ba79b9859f741e082542a385502f25dbf55296c3a545e3872760ab7,
          0x3617de4a96262c6f5d9e98bf9292dc29 * Nat.pow 2 256
            + 0xf8f41dbd289a147ce9da3113b5f0b8c00a60b1ce1d7e819d7a431d7c90ea0e5f)
      order := 0xffffffffffffffffffffffffffffffff * Nat.pow 2 256
        + 0xffffffffffffffffc7634d81f4372ddf581a0db248b0a77aecec196accc52973 }
  | .p521 =>
    let p := Nat.pow 2 521 - 1
    { field := p
      a := p - 3
      b := 0x51 * Nat.pow 2 512
        + 0x953eb9618e1c9a1f929a21a0b68540eea2da725b99b315f3b8b489918ef109e1 * Nat.pow 2 256
        + 0x56193951ec7e937b1652c0bd3bb1bf073573df883d2c34f1ef451fd46b503f00
      base :=
        (0xc6 * Nat.pow 2 512
          + 0x858e06b70404e9cd9e3ecb662395b4429c648139053fb521f828af606b4d3dba * Nat.pow 2 256
          + 0xa14b5e77efe75928fe1dc127a2ffa8de3348b3c1856a429bf97e7e31c2e5bd66,
          0x118 * Nat.pow 2 512
            + 0x39296a789a3bc0045c8a5fb42c7d1bd998f54449579b446817afbd17273e662c * Nat.pow 2 256
            + 0x97ee72995ef42640c550b9013fad0761353c7086a272c24088be94769fd16650)
      order := 0x1ff * Nat.pow 2 512
        + 0xfffffffffffffffffffffffffffffffffffffffffffffffffffffffffffffffa * Nat.pow 2 256
        + 0x51868783bf2f966b7fcc0148f709a5d03bb5c9b8899c47aebb6fb71e91386409 }

/-- The length of a coordinate in octets. -/
def Curve.length : Curve → Nat
  | .p256 => 32
  | .p384 => 48
  | .p521 => 66

/-- A point of a curve; the neutral element has no coordinates. -/
abbrev Point := Option (Nat × Nat)

namespace Parameters

/-- Whether coordinates are those of a point of the curve. -/
def contains (c : Parameters) (x y : Nat) : Bool :=
  x < c.field && y < c.field && y * y % c.field == (x * x % c.field * x + c.a * x + c.b) % c.field

/-- The third point on the line through two points with the given slope, mirrored. -/
def through (c : Parameters) (slope x1 y1 x2 : Nat) : Point :=
  let x := subMod (subMod (slope * slope) x1 c.field) x2 c.field
  some (x, subMod (slope * subMod x1 x c.field) y1 c.field)

/-- The sum of two points. -/
def add (c : Parameters) : Point → Point → Point
  | none, q => q
  | p, none => p
  | some (x1, y1), some (x2, y2) =>
    if x1 = x2 then
      if y1 = y2 ∧ y1 ≠ 0 then
        c.through ((3 * (x1 * x1) + c.a) * inverseMod (2 * y1) c.field % c.field) x1 y1 x2
      else none
    else
      let slope := subMod y2 y1 c.field * inverseMod (subMod x2 x1 c.field) c.field % c.field
      c.through slope x1 y1 x2

/-- Doubles and adds for the lowest `i` binary digits of the factor, the highest of them first. -/
def timesFrom (c : Parameters) (p : Point) (k : Nat) : Nat → Point → Point
  | 0, acc => acc
  | i + 1, acc =>
    let double := c.add acc acc
    timesFrom c p k i (if k.testBit i then c.add double p else double)

/-- A multiple of a point. -/
def times (c : Parameters) (k : Nat) (p : Point) : Point := c.timesFrom p k (bitLength k) none

/-- The number that a hash stands for: its leading bits, as many as the order has. -/
def hashNumber (c : Parameters) (hash : Bytes) : Nat :=
  Bytes.toNat hash >>> (8 * hash.length - bitLength c.order)

/-- Whether the two numbers of a signature fit to a hash under a public point. -/
def verify (c : Parameters) (key : Nat × Nat) (hash : Bytes) (r s : Nat) : Bool :=
  if 0 < r ∧ r < c.order ∧ 0 < s ∧ s < c.order then
    let w := inverseMod s c.order
    let u := c.hashNumber hash * w % c.order
    let v := r * w % c.order
    match c.add (c.times u (some c.base)) (c.times v (some key)) with
    | some (x, _) => x % c.order == r
    | none => false
  else false

end Parameters

end CertKeeper.Crypto.Weierstrass
