import CertKeeper.Crypto.Digest
import CertKeeper.Crypto.Modular

/-!
# RSA

Keys, their consistency, and the two signature schemes of PKCS #1: the deterministic one, which is
both made and checked here, and the probabilistic one, which is checked only.
-/

namespace CertKeeper.Crypto.Rsa

/-- A public key. -/
structure PublicKey where
  modulus : Nat
  exponent : Nat
  deriving DecidableEq, Repr

/-- A private key with the numbers that speed up its use. -/
structure PrivateKey where
  modulus : Nat
  publicExponent : Nat
  privateExponent : Nat
  prime1 : Nat
  prime2 : Nat
  exponent1 : Nat
  exponent2 : Nat
  coefficient : Nat
  deriving DecidableEq, Repr

/-- The public half of a private key. -/
def PrivateKey.publicKey (k : PrivateKey) : PublicKey := ⟨k.modulus, k.publicExponent⟩

/-- Whether the numbers of a private key belong together. -/
def PrivateKey.isConsistent (k : PrivateKey) : Bool :=
  k.publicExponent % 2 == 1 && 1 < k.publicExponent && 2 < k.prime1 && 2 < k.prime2 &&
    k.modulus == k.prime1 * k.prime2 &&
    k.privateExponent * k.publicExponent % Nat.lcm (k.prime1 - 1) (k.prime2 - 1) == 1 &&
    k.exponent1 == k.privateExponent % (k.prime1 - 1) &&
    k.exponent2 == k.privateExponent % (k.prime2 - 1) &&
    k.coefficient < k.prime1 && k.coefficient * k.prime2 % k.prime1 == 1 &&
    isPrime k.prime1 && isPrime k.prime2

/-- The private key of two different primes for a public exponent that is a prime and divides
neither of them less one. -/
def PrivateKey.ofPrimes (p q exponent : Nat) : PrivateKey :=
  let order := Nat.lcm (p - 1) (q - 1)
  let inverse := (1 + order * (exponent - inverseMod (order % exponent) exponent)) / exponent
  { modulus := p * q
    publicExponent := exponent
    privateExponent := inverse
    prime1 := p
    prime2 := q
    exponent1 := inverse % (p - 1)
    exponent2 := inverse % (q - 1)
    coefficient := inverseMod q p }

/-- The length of a modulus in octets. -/
def PublicKey.length (k : PublicKey) : Nat := Bytes.octetCount k.modulus

/-- The octets of the name of a hash function. -/
def digestName : Digest → Bytes
  | .sha1 => [0x2b, 0x0e, 0x03, 0x02, 0x1a]
  | .sha224 => sha2 4
  | .sha256 => sha2 1
  | .sha384 => sha2 2
  | .sha512 => sha2 3
where
  /-- The octets of the name of a function of the second family. -/
  sha2 (number : UInt8) : Bytes := [0x60, 0x86, 0x48, 0x01, 0x65, 0x03, 0x04, 0x02, number]

/-- The structure that names the hash function and holds the hash. -/
def digestInfo (d : Digest) (hash : Bytes) : Bytes :=
  let tagged (tag : UInt8) (content : Bytes) : Bytes :=
    tag :: UInt8.ofNat content.length :: content
  tagged 0x30 (tagged 0x30 (tagged 0x06 (digestName d) ++ [0x05, 0x00]) ++ tagged 0x04 hash)

/-- The octets that a deterministic signature of a message encloses, if the modulus is long enough
for them. -/
def paddedHash? (d : Digest) (length : Nat) (message : Bytes) : Option Bytes :=
  let info := digestInfo d (d.hash message)
  if length < info.length + 11 then none
  else some (0x00 :: 0x01 :: List.replicate (length - info.length - 3) 0xff ++ 0x00 :: info)

/-- The deterministic signature of a message. -/
def PrivateKey.sign? (k : PrivateKey) (d : Digest) (message : Bytes) : Option Bytes :=
  let length := k.publicKey.length
  (paddedHash? d length message).map fun em =>
    Bytes.ofNatWidth length (powMod (Bytes.toNat em) k.privateExponent k.modulus)

/-- The octets that a signature encloses, if it can be one under the key. -/
def PublicKey.open? (k : PublicKey) (signature : Bytes) : Option Bytes :=
  let s := Bytes.toNat signature
  if signature.length = k.length ∧ s < k.modulus then
    some (Bytes.ofNatWidth k.length (powMod s k.exponent k.modulus))
  else none

/-- Whether a deterministic signature of a message is right. -/
def PublicKey.verify (k : PublicKey) (d : Digest) (message signature : Bytes) : Bool :=
  match k.open? signature, paddedHash? d k.length message with
  | some em, some expected => em == expected
  | _, _ => false

/-- The mask of the given length that a seed stands for. -/
def mask (d : Digest) (seed : Bytes) (length : Nat) : Bytes :=
  let blocks := (length + d.length - 1) / d.length
  ((List.range blocks).flatMap fun i => d.hash (seed ++ Bytes.ofNatWidth 4 i)).take length

/-- The parameters of the probabilistic scheme. -/
structure PssParameters where
  hash : Digest
  maskHash : Digest
  saltLength : Nat
  deriving DecidableEq, Repr

/-- The octets that are hashed with the salt: eight zeros, the hash of the message, the salt. -/
def saltedHash (p : PssParameters) (message salt : Bytes) : Bytes :=
  p.hash.hash (List.replicate 8 0 ++ p.hash.hash message ++ salt)

/-- Whether the octets inside a probabilistic signature, of the given number of bits, fit to a
message. -/
def pssFits (p : PssParameters) (bits : Nat) (em message : Bytes) : Bool :=
  let dbLength := em.length - p.hash.length - 1
  let masked := em.take dbLength
  let hash := (em.drop dbLength).take p.hash.length
  let unused := 8 * em.length - bits
  let high : UInt8 := 0xff >>> UInt8.ofNat unused
  let plain := (masked.zip (mask p.maskHash hash dbLength)).map fun q => q.1 ^^^ q.2
  let db := (plain.take 1).map (· &&& high) ++ plain.drop 1
  let zeros := dbLength - p.saltLength - 1
  p.hash.length + p.saltLength + 2 ≤ em.length &&
    em.getLast? == some 0xbc &&
    (masked.take 1).all (fun b => b &&& ~~~high == 0) &&
    (db.take zeros).all (· == 0) &&
    (db.drop zeros).head? == some 0x01 &&
    hash == saltedHash p message (db.drop (zeros + 1))

/-- Whether a probabilistic signature of a message is right. -/
def PublicKey.verifyPss (k : PublicKey) (p : PssParameters) (message signature : Bytes) : Bool :=
  let bits := bitLength k.modulus - 1
  let length := (bits + 7) / 8
  match k.open? signature with
  | none => false
  | some opened =>
    let extra := opened.length - length
    (opened.take extra).all (· == 0) && pssFits p bits (opened.drop extra) message

end CertKeeper.Crypto.Rsa
