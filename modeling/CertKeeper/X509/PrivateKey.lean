import CertKeeper.Encoding.Pem
import CertKeeper.X509.PublicKey

/-!
# Private keys

The keys stored beside certificates, in the general form that names its algorithm or in a form of
their own kind. RSA keys are written in their own form. The kinds of keys are those of public keys;
a key of any other kind is one of an unknown kind, even where a library could read it.
-/

namespace CertKeeper.X509

open Encoding Der Crypto Weierstrass

/-- A private key. -/
inductive PrivateKey where
  | rsa (k : Rsa.PrivateKey)
  /-- Modulus, order, base, public power and secret exponent. -/
  | dsa (p q g y x : Nat)
  /-- A curve, the coordinates of the public point and the secret factor. -/
  | weierstrass (curve : Curve) (x y secret : Nat)
  | ed25519 (secret : Bytes)
  | x25519 (secret : Bytes)
  deriving DecidableEq, Repr

namespace PrivateKey

/-- The public key that belongs to a private key. -/
def publicKey : PrivateKey → PublicKey
  | .rsa k => .rsa k.publicKey
  | .dsa p q g y _ => .dsa p q g y
  | .weierstrass curve x y _ => .weierstrass curve x y
  | .ed25519 secret => .ed25519 (Edwards.publicKey secret)
  | .x25519 secret => .x25519 (Montgomery.publicKey secret)

/-! ## RSA keys -/

/-- The element of an RSA key: a version and its eight numbers. -/
def rsaElement (k : Rsa.PrivateKey) : Element :=
  Element.sequence ([0, k.modulus, k.publicExponent, k.privateExponent, k.prime1, k.prime2,
    k.exponent1, k.exponent2, k.coefficient].map Element.natural)

/-- The RSA key that octets are, if its numbers belong together. -/
def readRsa? (b : Bytes) : Option Rsa.PrivateKey := do
  match ← naturals? (← readOnly? b) with
  | [0, n, e, d, p, q, dp, dq, c] =>
    let k : Rsa.PrivateKey := ⟨n, e, d, p, q, dp, dq, c⟩
    if k.isConsistent then some k else none
  | _ => none

/-- The label of an RSA key in its own form. -/
def rsaLabel : String := "RSA PRIVATE KEY"

/-- The text of an RSA key. -/
def writeRsa (k : Rsa.PrivateKey) : Bytes := Pem.write rsaLabel (rsaElement k).encode

/-! ## Keys of other kinds -/

/-- The key on a curve that octets are: a version, the secret factor, perhaps the curve and the
public point. A curve named inside must be the one named outside, if there is one. -/
def readCurveKey (outer : Option Element) (b : Bytes) : Except KeyDefect PrivateKey := do
  let items ← readable ((readOnly? b).bind Element.sequence?)
  let (version, secret, items) ←
    match items with
    | v :: s :: rest =>
      pure (← readable v.natural?, ← readable (s.content? .octetString), rest)
    | _ => throw .unreadable
  let (inner, items) ←
    readable (takeTagged (.wrapper 0) (fun e => e.only? (.wrapper 0)) items)
  let (point, items) ←
    readable
      (takeTagged (.wrapper 1) (fun e => (e.only? (.wrapper 1)).bind Element.bitString?) items)
  if version ≠ 1 ∨ !items.isEmpty then throw .unreadable
  if outer.isSome ∧ inner.isSome ∧ outer ≠ inner then throw .unreadable
  let parameters ← readable (outer.orElse fun _ => inner)
  let curve ← curve? (some parameters)
  let p := curve.parameters
  let k := Bytes.toNat secret
  if k = 0 ∨ p.order ≤ k then throw .unreadable
  let own ← readable (p.times k (some p.base))
  match point with
  | none => return .weierstrass curve own.1 own.2 k
  | some b =>
    let given ← readable (readPoint? curve b)
    if given = own then return .weierstrass curve own.1 own.2 k else throw .unreadable

/-- The discrete logarithm key in its own form: a version and five numbers. -/
def readDsa? (b : Bytes) : Option PrivateKey := do
  match ← naturals? (← readOnly? b) with
  | [0, p, q, g, y, x] => some (.dsa p q g y x)
  | _ => none

/-- The 32 octets that octets hold once more. -/
def readSecret? (b : Bytes) : Option Bytes := do
  let secret ← (← readOnly? b).content? .octetString
  if secret.length = 32 then some secret else none

/-- The key in the general form: a version, the algorithm, the key's octets, perhaps attributes. The
algorithm is one of the kinds that are known here. -/
def readGeneral (b : Bytes) : Except KeyDefect PrivateKey := do
  let items ← readable ((readOnly? b).bind Element.sequence?)
  let (algorithm, octets) ←
    match items with
    | [v, a, k] => readable (general? v a k)
    | [v, a, k, x] =>
      if x.tag = .wrapper 0 then readable (general? v a k) else throw .unreadable
    | _ => throw .unreadable
  if isRsaName algorithm.oid then return .rsa (← readable (readRsa? octets))
  else if algorithm.oid = oidWeierstrass then readCurveKey algorithm.parameters octets
  else if algorithm.oid = oidEd25519 then return .ed25519 (← readable (readSecret? octets))
  else if algorithm.oid = oidX25519 then return .x25519 (← readable (readSecret? octets))
  else if algorithm.oid = oidDsa then
    match algorithm.parameters.bind naturals?, (readOnly? octets).bind Element.natural? with
    | some [p, q, g], some x => return .dsa p q g (powMod g x p) x
    | _, _ => throw .unreadable
  else throw (.unknownKind algorithm.oid)
where
  /-- The algorithm and the octets of a key, whose version must be zero. -/
  general? (v a k : Element) : Option (AlgorithmId × Bytes) := do
    if (← v.natural?) = 0 then
      some (← AlgorithmId.ofElement? a, ← k.content? .octetString)
    else none

/-! ## Text -/

/-- The labels of the blocks that are private keys. -/
def labels : List String :=
  ["PRIVATE KEY", "ENCRYPTED PRIVATE KEY", rsaLabel, "EC PRIVATE KEY", "DSA PRIVATE KEY"]

/-- Whether octets are an encrypted key: how it is encrypted, and its octets. -/
def isEncrypted (b : Bytes) : Bool :=
  match (readOnly? b).bind Element.sequence? with
  | some [a, k] => (AlgorithmId.ofElement? a).isSome && (k.content? .octetString).isSome
  | _ => false

/-- The key in a block. -/
def ofBlock (b : Pem.Block) : Except KeyDefect PrivateKey :=
  match b.header? "Proc-Type" with
  | some "4,ENCRYPTED" => throw .encrypted
  | some _ => throw .unknownProtection
  | none =>
    match b.label with
    | "PRIVATE KEY" => readGeneral b.content
    | "RSA PRIVATE KEY" => return .rsa (← readable (readRsa? b.content))
    | "EC PRIVATE KEY" => readCurveKey none b.content
    | "DSA PRIVATE KEY" => readable (readDsa? b.content)
    | _ => throw (if isEncrypted b.content then .encrypted else .unreadable)

/-- The key of a text: the first block that is a private key counts. -/
def ofText (b : Bytes) : Except KeyDefect PrivateKey :=
  match Pem.blocks? b with
  | none => .error .framing
  | some blocks =>
    match blocks.find? fun b => labels.contains b.label with
    | none => .error .noPrivateKey
    | some b => ofBlock b

end PrivateKey

end CertKeeper.X509
