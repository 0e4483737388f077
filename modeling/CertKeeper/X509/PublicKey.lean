import CertKeeper.Crypto.Edwards
import CertKeeper.Crypto.Weierstrass
import CertKeeper.X509.Algorithm

/-!
# Public keys

The keys that certificates carry. They are compared by what they are and not by how they are
written.

The kinds of keys here are RSA, DSA, points of the curves P-256, P-384 and P-521, Ed25519 and
X25519. That is a part of what cryptographic libraries read: a key of another kind that they know
(a point of `secp256k1`, `secp224r1`, `secp192r1`, of a Brainpool or of a binary curve, an Ed448,
X448 or Diffie-Hellman key) is one of an unknown kind or curve here (`KeyDefect.unknownKind`,
`KeyDefect.unknownCurve`).
-/

namespace CertKeeper.X509

open Encoding Der Crypto Weierstrass

/-- A public key. -/
inductive PublicKey where
  | rsa (k : Rsa.PublicKey)
  /-- A key of the discrete logarithm signature: modulus, order, base and power. -/
  | dsa (p q g y : Nat)
  /-- A point of a curve. -/
  | weierstrass (curve : Curve) (x y : Nat)
  | ed25519 (octets : Bytes)
  | x25519 (octets : Bytes)
  deriving DecidableEq, Repr

/-- Why a key cannot be used. -/
inductive KeyDefect where
  /-- The text has no well-formed blocks. -/
  | framing
  /-- No block of the text is a private key. -/
  | noPrivateKey
  /-- The key is encrypted. -/
  | encrypted
  /-- The key's octets cannot be read or do not fit together. -/
  | unreadable
  /-- A kind of key that is not known. -/
  | unknownKind (oid : Oid)
  /-- A curve that is not known. -/
  | unknownCurve (oid : Oid)
  /-- A curve that is described and not named. -/
  | explicitCurve
  /-- A header that says that the key is protected, in a way that is not known. -/
  | unknownProtection
  deriving DecidableEq, Repr

/-- The wording of a defect. -/
def KeyDefect.message : KeyDefect → String
  | .framing => "<pem>"
  | .noPrivateKey =>
    "Valid PEM but no BEGIN/END delimiters for a private key found. " ++
      "Are you sure this is a private key?"
  | .encrypted => "Password was not given but private key is encrypted"
  | .unreadable => "<key-data>"
  | .unknownKind oid => "Unknown key type: " ++ oid.text
  | .unknownCurve oid => "Curve " ++ oid.text ++ " is not supported"
  | .explicitCurve => "ECDSA keys with explicit parameters are unsupported at this time"
  | .unknownProtection => "Proc-Type PEM header is not valid, key could not be decrypted."

/-- Whether a key cannot be used because its kind or its curve is not known. -/
def KeyDefect.isUnknown : KeyDefect → Bool
  | .unknownKind _ | .unknownCurve _ => true
  | _ => false

/-- The result of a reading that has no more to say than that it failed. -/
def readable {α : Type} (o : Option α) : Except KeyDefect α :=
  match o with
  | some a => .ok a
  | none => .error .unreadable

/-- The named curves; those of other names are not known here. -/
def curveNames : List (Oid × Curve) := [(oidP256, .p256), (oidP384, .p384), (oidP521, .p521)]

/-- The curve that parameters name. -/
def curve? (parameters : Option Element) : Except KeyDefect Curve :=
  match parameters.bind Element.oid? with
  | some oid =>
    match curveNames.lookup oid with
    | some c => .ok c
    | none => .error (.unknownCurve oid)
  | none => .error .explicitCurve

/-- The coordinates of a written point: both of them, perhaps with the parity of the second one, or
the first one and that parity. -/
def readPoint? (c : Curve) (b : Bytes) : Option (Nat × Nat) :=
  let p := c.parameters
  let form := (b.headD 0).toNat
  let x := Bytes.toNat ((b.drop 1).take c.length)
  if b.length = 2 * c.length + 1 then
    let y := Bytes.toNat (b.drop (c.length + 1))
    if p.contains x y ∧ (form = 4 ∨ form = 6 + y % 2) then some (x, y) else none
  else if b.length = c.length + 1 ∧ (form = 2 ∨ form = 3) then
    let square := (x * x % p.field * x + p.a * x + p.b) % p.field
    let root := powMod square ((p.field + 1) / 4) p.field
    let y := if root % 2 = form % 2 then root else subMod 0 root p.field
    if p.contains x y then some (x, y) else none
  else none

/-- The numbers of a sequence that consists of numbers. -/
def naturals? (e : Element) : Option (List Nat) := do
  (← e.sequence?).mapM Element.natural?

/-- The RSA key that octets are. -/
def readRsa? (b : Bytes) : Option Rsa.PublicKey := do
  match ← naturals? (← readOnly? b) with
  | [n, e] => some ⟨n, e⟩
  | _ => none

/-- The sequence of the numbers of an RSA key. -/
def rsaElement (k : Rsa.PublicKey) : Element :=
  Element.sequence [.natural k.modulus, .natural k.exponent]

/-- Whether a name is one of RSA keys. A key that is meant for the probabilistic signature is
otherwise like any RSA key. -/
def isRsaName (oid : Oid) : Bool := oid == oidRsa || oid == oidRsaPss

/-- A key with the name of its algorithm, as a certificate holds it. -/
structure KeyInfo where
  algorithm : AlgorithmId
  octets : Bytes
  deriving DecidableEq, Repr

namespace KeyInfo

/-- The key that an element holds. -/
def ofElement? (e : Element) : Option KeyInfo := do
  match ← e.sequence? with
  | [algorithm, bits] => some ⟨← AlgorithmId.ofElement? algorithm, ← bits.bitString?⟩
  | _ => none

/-- The element that holds a key. -/
def element (k : KeyInfo) : Element :=
  Element.sequence [k.algorithm.element, Element.bitString k.octets]

/-- An RSA key with its algorithm. -/
def ofRsa (k : Rsa.PublicKey) : KeyInfo := ⟨.withNull oidRsa, (rsaElement k).encode⟩

/-- The key that is held, if it is of one of the kinds that are known here. -/
def publicKey? (k : KeyInfo) : Except KeyDefect PublicKey :=
  if isRsaName k.algorithm.oid then (readable (readRsa? k.octets)).map .rsa
  else if k.algorithm.oid = oidWeierstrass then do
    let curve ← curve? k.algorithm.parameters
    let (x, y) ← readable (readPoint? curve k.octets)
    return .weierstrass curve x y
  else if k.algorithm.oid = oidEd25519 then
    if k.octets.length = 32 then .ok (.ed25519 k.octets) else .error .unreadable
  else if k.algorithm.oid = oidX25519 then
    if k.octets.length = 32 then .ok (.x25519 k.octets) else .error .unreadable
  else if k.algorithm.oid = oidDsa then
    match k.algorithm.parameters.bind naturals?, (readOnly? k.octets).bind Element.natural? with
    | some [p, q, g], some y => .ok (.dsa p q g y)
    | _, _ => .error .unreadable
  else .error (.unknownKind k.algorithm.oid)

end KeyInfo

/-- The kind of signing key that a key is, if it is one. -/
def PublicKey.signerKind? : PublicKey → Option SignerKind
  | .rsa _ => some .rsa
  | .dsa _ _ _ _ => some .dsa
  | .weierstrass _ _ _ => some .weierstrass
  | .ed25519 _ => some .ed25519
  | .x25519 _ => none

/-- The two numbers that a signature consists of. -/
def signatureNumbers? (b : Bytes) : Option (Nat × Nat) := do
  match ← naturals? (← readOnly? b) with
  | [r, s] => some (r, s)
  | _ => none

/-- Whether the two numbers of a discrete logarithm signature fit to a hash. -/
def verifyDsa (p q g y : Nat) (hash : Bytes) (r s : Nat) : Bool :=
  let z := Bytes.toNat hash >>> (8 * hash.length - bitLength q)
  let w := inverseMod s q
  0 < r && r < q && 0 < s && s < q &&
    powMod g (z * w % q) p * powMod y (r * w % q) p % p % q == r

/-- Whether a signature of a message under a scheme is right. -/
def PublicKey.verify (k : PublicKey) (scheme : SignatureScheme) (message signature : Bytes) :
    Bool :=
  match k, scheme with
  | .rsa k, .rsa d => k.verify d message signature
  | .rsa k, .rsaPss p => k.verifyPss p message signature
  | .ed25519 k, .ed25519 => Edwards.verify k message signature
  | .weierstrass curve x y, .weierstrass d =>
    match signatureNumbers? signature with
    | some (r, s) => curve.parameters.verify (x, y) (d.hash message) r s
    | none => false
  | .dsa p q g y, .dsa d =>
    match signatureNumbers? signature with
    | some (r, s) => verifyDsa p q g y (d.hash message) r s
    | none => false
  | _, _ => false

end CertKeeper.X509
