import CertKeeper.Crypto.Digest
import CertKeeper.Crypto.Modular

/-!
# Curve 25519

The twisted Edwards curve of signatures and the Montgomery ladder of key agreement, both over the
field of 2²⁵⁵ - 19 elements. Numbers are written with the lowest octet first.
-/

namespace CertKeeper.Crypto.Edwards

/-- The number of field elements. -/
def field : Nat := Nat.pow 2 255 - 19

/-- The order of the base point. -/
def order : Nat := Nat.pow 2 252 + 27742317777372353535851937790883648493

/-- The coefficient of the curve. -/
def coefficient : Nat :=
  0x52036cee2b6ffe738cc740797779e89800700a4d4141d8ab75eb4dca135978a3

/-- The base point. -/
def base : Nat × Nat :=
  (0x216936d3cd6e53fec0a4e231fdd6dc5c692cc7609525a7b2c9562d608f25d51a,
    0x6666666666666666666666666666666666666666666666666666666666666658)

/-- The number of octets, the lowest first. -/
def ofOctets (b : Bytes) : Nat := Bytes.toNat b.reverse

/-- The 32 octets of a number, the lowest first. -/
def toOctets (n : Nat) : Bytes := (Bytes.ofNatWidth 32 n).reverse

/-- The sum of two points. -/
def add (p q : Nat × Nat) : Nat × Nat :=
  let xx := p.1 * q.1 % field
  let yy := p.2 * q.2 % field
  let cross := coefficient * (xx * yy % field) % field
  let plus := 1 + cross
  let minus := subMod 1 cross field
  let inverse := inverseMod (plus * minus % field) field
  ((p.1 * q.2 + q.1 * p.2) % field * (minus * inverse % field) % field,
    (yy + xx) % field * (plus * inverse % field) % field)

/-- Doubles and adds for the lowest `i` binary digits of the factor, the highest of them first. -/
def timesFrom (p : Nat × Nat) (k : Nat) : Nat → Nat × Nat → Nat × Nat
  | 0, acc => acc
  | i + 1, acc =>
    let double := add acc acc
    timesFrom p k i (if k.testBit i then add double p else double)

/-- A multiple of a point. -/
def times (k : Nat) (p : Nat × Nat) : Nat × Nat := timesFrom p k (bitLength k) (0, 1)

/-- The written form of a point: its second coordinate and the parity of the first. -/
def encode (p : Nat × Nat) : Bytes := toOctets (p.2 + p.1 % 2 * Nat.pow 2 255)

/-- A square root of -1. -/
def rootOfMinusOne : Nat := powMod 2 ((field - 1) / 4) field

/-- The point with the given written form. -/
def decode? (b : Bytes) : Option (Nat × Nat) :=
  let n := ofOctets b
  let y := n % Nat.pow 2 255
  let parity := n / Nat.pow 2 255
  let yy := y * y % field
  let square := subMod yy 1 field * inverseMod ((coefficient * yy + 1) % field) field % field
  let root := powMod square ((field + 3) / 8) field
  let x :=
    if root * root % field = square then root else root * rootOfMinusOne % field
  if b.length ≠ 32 ∨ field ≤ y ∨ x * x % field ≠ square ∨ (x = 0 ∧ parity = 1) then none
  else some (if x % 2 = parity then x else field - x, y)

/-- The number behind a private key: the first half of its hash with some bits fixed. -/
def secretNumber (hash : Bytes) : Nat :=
  let n := ofOctets (hash.take 32)
  Nat.pow 2 254 + n % Nat.pow 2 254 / 8 * 8

/-- The public key of a signing key. -/
def publicKey (secret : Bytes) : Bytes :=
  encode (times (secretNumber (Digest.sha512.hash secret)) base)

/-- Whether a signature of a message fits to a public key. -/
def verify (key message signature : Bytes) : Bool :=
  let r := signature.take 32
  let s := ofOctets (signature.drop 32)
  match decode? key with
  | none => false
  | some a =>
    let h := ofOctets (Digest.sha512.hash (r ++ key ++ message)) % order
    let minusA := (subMod 0 a.1 field, a.2)
    signature.length == 64 && s < order && encode (add (times s base) (times h minusA)) == r

end CertKeeper.Crypto.Edwards

namespace CertKeeper.Crypto.Montgomery

open Edwards (field ofOctets toOctets)

/-- The two fractions of the ladder: a multiple of the base point and the next multiple. -/
structure Ladder where
  x2 : Nat
  z2 : Nat
  x3 : Nat
  z3 : Nat

/-- The ladder one binary digit further. -/
def Ladder.step (x1 : Nat) (l : Ladder) (bit : Bool) : Ladder :=
  let (x2, z2, x3, z3) := if bit then (l.x3, l.z3, l.x2, l.z2) else (l.x2, l.z2, l.x3, l.z3)
  let a := x2 + z2
  let b := subMod x2 z2 field
  let aa := a * a % field
  let bb := b * b % field
  let e := subMod aa bb field
  let da := subMod x3 z3 field * a % field
  let cb := (x3 + z3) * b % field
  let difference := subMod da cb field
  let n3 := (da + cb) * (da + cb) % field
  let m3 := x1 * (difference * difference % field) % field
  let n2 := aa * bb % field
  let m2 := e * ((aa + 121665 * e) % field) % field
  if bit then ⟨n3, m3, n2, m2⟩ else ⟨n2, m2, n3, m3⟩

/-- The public key of an agreement key. -/
def publicKey (secret : Bytes) : Bytes :=
  let k := Nat.pow 2 254 + ofOctets secret % Nat.pow 2 254 / 8 * 8
  let bits := (List.range 255).reverse.map k.testBit
  let l := bits.foldl (Ladder.step 9) ⟨1, 0, 9, 1⟩
  toOctets (l.x2 * inverseMod l.z2 field % field)

end CertKeeper.Crypto.Montgomery
