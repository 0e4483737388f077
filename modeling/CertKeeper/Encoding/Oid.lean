import CertKeeper.Bytes

/-!
# Object identifiers

Paths in the tree of registered names, written with dots or as octets. The reading of octets
refuses numbers with leading zeros, so an identifier has one written form.
-/

namespace CertKeeper.Encoding

/-- A path in the tree of registered names. -/
structure Oid where
  arcs : List Nat
  deriving DecidableEq, Repr

namespace Oid

/-- The numbers of a sequence of octets in which the high bit says that a number goes on. The first
argument is the number that is being read, if one is. -/
def readNumbers? : Option Nat → Bytes → Option (List Nat)
  | none, [] => some []
  | some _, [] => none
  | none, b :: rest =>
    if b = 0x80 then none
    else if b < 0x80 then (readNumbers? none rest).map (b.toNat :: ·)
    else readNumbers? (some (b.toNat - 128)) rest
  | some n, b :: rest =>
    if b < 0x80 then (readNumbers? none rest).map ((n * 128 + b.toNat) :: ·)
    else readNumbers? (some (n * 128 + (b.toNat - 128))) rest

/-- The identifier with the given octets. -/
def ofOctets? (b : Bytes) : Option Oid :=
  match readNumbers? none b with
  | some (n :: rest) => some ⟨min (n / 40) 2 :: (n - 40 * min (n / 40) 2) :: rest⟩
  | _ => none

/-- The number of digits to the base 128 of a number; zero has one. -/
def digitCount (n : Nat) : Nat := n.log2 / 7 + 1

/-- A number in octets in which the high bit says that the number goes on. -/
def numberOctets (n : Nat) : Bytes :=
  ((List.range (digitCount n)).reverse.map fun i =>
    UInt8.ofNat (n >>> (7 * i) % 128 + if i = 0 then 0 else 128))

/-- The octets of an identifier. -/
def octets (o : Oid) : Bytes :=
  match o.arcs with
  | a :: b :: rest => ((40 * a + b) :: rest).flatMap numberOctets
  | _ => []

/-- The identifier with dots. -/
def text (o : Oid) : String := String.intercalate "." (o.arcs.map fun n => toString n)

end Oid

end CertKeeper.Encoding
