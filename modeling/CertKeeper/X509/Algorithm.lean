import CertKeeper.Crypto.Rsa
import CertKeeper.Encoding.Der

/-!
# Algorithm identifiers

The names of algorithms inside certificates and keys, with their parameters. The parameters of a
known algorithm must have their prescribed form, those of an unknown one may be anything.
-/

namespace CertKeeper.X509

open Encoding Der Crypto

/-- An algorithm's name and its parameters, if there are any. -/
structure AlgorithmId where
  oid : Oid
  parameters : Option Element
  deriving DecidableEq, Repr

/-! ## Registered names -/

/-- The name of RSA keys. -/
def oidRsa : Oid := ⟨[1, 2, 840, 113549, 1, 1, 1]⟩

/-- The name of the probabilistic RSA signature. -/
def oidRsaPss : Oid := ⟨[1, 2, 840, 113549, 1, 1, 10]⟩

/-- The name of the mask function of that signature. -/
def oidMask : Oid := ⟨[1, 2, 840, 113549, 1, 1, 8]⟩

/-- The name of keys of the discrete logarithm signature. -/
def oidDsa : Oid := ⟨[1, 2, 840, 10040, 4, 1]⟩

/-- The name of keys on curves in Weierstrass form. -/
def oidWeierstrass : Oid := ⟨[1, 2, 840, 10045, 2, 1]⟩

/-- The name of the signature on the curve of 255 bits, and of its keys. -/
def oidEd25519 : Oid := ⟨[1, 3, 101, 112]⟩

/-- The name of the signature on the curve of 448 bits, and of its keys. -/
def oidEd448 : Oid := ⟨[1, 3, 101, 113]⟩

/-- The name of the key agreement on the curve of 255 bits. -/
def oidX25519 : Oid := ⟨[1, 3, 101, 110]⟩

/-- The name of the key agreement on the curve of 448 bits. -/
def oidX448 : Oid := ⟨[1, 3, 101, 111]⟩

/-- The name of the curve of 256 bits. -/
def oidP256 : Oid := ⟨[1, 2, 840, 10045, 3, 1, 7]⟩

/-- The name of the curve of 384 bits. -/
def oidP384 : Oid := ⟨[1, 3, 132, 0, 34]⟩

/-- The name of the curve of 521 bits. -/
def oidP521 : Oid := ⟨[1, 3, 132, 0, 35]⟩

/-- The name of the hash function SHA-1. -/
def oidSha1 : Oid := ⟨[1, 3, 14, 3, 2, 26]⟩

/-- The name of the hash function of SHA-2 with a number. -/
def oidSha2 (n : Nat) : Oid := ⟨[2, 16, 840, 1, 101, 3, 4, 2, n]⟩

/-- The name of the deterministic RSA signature with a number. -/
def oidRsaSignature (n : Nat) : Oid := ⟨[1, 2, 840, 113549, 1, 1, n]⟩

/-- The name of the curve signature with a number. -/
def oidCurveSignature (n : Nat) : Oid := ⟨[1, 2, 840, 10045, 4, 3, n]⟩

/-- The name of the discrete logarithm signature with a number. -/
def oidDsaSignature (n : Nat) : Oid := ⟨[2, 16, 840, 1, 101, 3, 4, 3, n]⟩

/-- The hash functions by name. -/
def digestNames : List (Oid × Digest) :=
  [(oidSha1, .sha1), (oidSha2 1, .sha256), (oidSha2 2, .sha384), (oidSha2 3, .sha512),
    (oidSha2 4, .sha224)]

/-! ## Parameters -/

/-- The form that the parameters of a known algorithm must have. -/
inductive ParameterForm where
  /-- There must be none. -/
  | absent
  /-- None, or the explicit absence of a value. -/
  | absentOrNull
  /-- A curve: a name, an explicit description or the explicit absence of a value. -/
  | curve
  /-- The parameters of the probabilistic signature, or none. -/
  | pss
  /-- Three numbers. -/
  | threeNaturals

/-- The forms of the parameters of the known algorithms. -/
def parameterForms : List (Oid × ParameterForm) :=
  [(oidRsa, .absentOrNull), (oidRsaPss, .pss), (oidWeierstrass, .curve), (oidDsa, .threeNaturals),
    (oidEd25519, .absent), (oidEd448, .absent), (oidX25519, .absent), (oidX448, .absent)] ++
  digestNames.map (fun p => (p.1, .absentOrNull)) ++
  [5, 11, 12, 13, 14].map (fun n => (oidRsaSignature n, .absentOrNull)) ++
  [1, 2, 3, 4].map (fun n => (oidCurveSignature n, .absentOrNull)) ++
  [1, 2, 3, 4].map (fun n => (oidDsaSignature n, .absentOrNull))

/-- A name alone or a name and parameters, whatever form these have. -/
def AlgorithmId.rawOfElement? (e : Element) : Option AlgorithmId := do
  match ← e.sequence? with
  | [name] => some ⟨← name.oid?, none⟩
  | [name, parameters] => some ⟨← name.oid?, some parameters⟩
  | _ => none

/-- An algorithm whose parameters are the explicit absence of a value. -/
def AlgorithmId.withNull (oid : Oid) : AlgorithmId := ⟨oid, some Element.null⟩

/-- The hash function, the mask function and the hash function that this one uses, the length of the
salt and the trailer of the probabilistic signature. -/
structure PssForm where
  hash : AlgorithmId
  maskOid : Oid
  maskHash : AlgorithmId
  saltLength : Nat
  trailer : Nat

/-- What is meant where the parameters of the probabilistic signature are empty. -/
def PssForm.default : PssForm := ⟨.withNull oidSha1, oidMask, .withNull oidSha1, 20, 1⟩

/-- Whether a hash function is named with parameters of its form. -/
def isHashForm (a : AlgorithmId) : Bool :=
  !((digestNames.lookup a.oid).isSome) || a.parameters.all Element.isNull

/-- A hash function in a wrapper, which differs from the one that is meant otherwise. -/
def wrappedHash? (number : Nat) (e : Element) : Option AlgorithmId := do
  let a ← AlgorithmId.rawOfElement? (← e.only? (.wrapper number))
  if isHashForm a ∧ a ≠ PssForm.default.hash then some a else none

/-- A mask function in a wrapper and the hash function that it uses, which differ from those that
are meant otherwise. -/
def wrappedMask? (number : Nat) (e : Element) : Option (Oid × AlgorithmId) := do
  let a ← AlgorithmId.rawOfElement? (← e.only? (.wrapper number))
  let hash ← AlgorithmId.rawOfElement? (← a.parameters)
  let named := (a.oid, hash)
  if isHashForm hash ∧ named ≠ (PssForm.default.maskOid, PssForm.default.maskHash) then some named
  else none

/-- A number below a bound in a wrapper, which differs from the one that is meant otherwise. -/
def wrappedNatural? (number bound missing : Nat) (e : Element) : Option Nat := do
  let n ← (← e.only? (.wrapper number)).natural?
  if n < bound ∧ n ≠ missing then some n else none

/-- The parameters of the probabilistic signature. -/
def PssForm.ofElement? (e : Element) : Option PssForm := do
  let missing := PssForm.default
  let items ← e.sequence?
  let (hash, items) ← takeTagged (.wrapper 0) (wrappedHash? 0) items
  let (mask, items) ← takeTagged (.wrapper 1) (wrappedMask? 1) items
  let (salt, items) ←
    takeTagged (.wrapper 2) (wrappedNatural? 2 65536 missing.saltLength) items
  let (trailer, items) ← takeTagged (.wrapper 3) (wrappedNatural? 3 256 missing.trailer) items
  let (maskOid, maskHash) := mask.getD (missing.maskOid, missing.maskHash)
  if items.isEmpty then
    some ⟨hash.getD missing.hash, maskOid, maskHash, salt.getD missing.saltLength,
      trailer.getD missing.trailer⟩
  else none

/-- Whether parameters have a form. -/
def ParameterForm.admits : ParameterForm → Option Element → Bool
  | .absent, p => p.isNone
  | .absentOrNull, p => p.all Element.isNull
  | .curve, some p => p.oid?.isSome || p.tag == .sequence || p.isNull
  | .curve, none => false
  | .pss, p => p.all fun e => (PssForm.ofElement? e).isSome
  | .threeNaturals, some p =>
    match p.sequence? with
    | some items => items.length == 3 && items.all fun e => e.natural?.isSome
    | none => false
  | .threeNaturals, none => false

namespace AlgorithmId

/-- The algorithm that an element names. -/
def ofElement? (e : Element) : Option AlgorithmId := do
  let a ← rawOfElement? e
  match parameterForms.lookup a.oid with
  | some form => if form.admits a.parameters then some a else none
  | none => some a

/-- The element that names an algorithm. -/
def element (a : AlgorithmId) : Element :=
  Element.sequence (Element.oid a.oid :: a.parameters.toList)

/-- The deterministic RSA signature with SHA-256, which issued certificates bear. -/
def rsaSha256 : AlgorithmId := withNull (oidRsaSignature 11)

end AlgorithmId

/-! ## Signature schemes -/

/-- The signature schemes that can be checked. -/
inductive SignatureScheme where
  | rsa (d : Digest)
  | rsaPss (p : Rsa.PssParameters)
  | dsa (d : Digest)
  | weierstrass (d : Digest)
  | ed25519
  deriving DecidableEq, Repr

/-- The numbers by which the deterministic RSA signature names its hash function. -/
def rsaDigests : List (Nat × Digest) := [(11, .sha256), (12, .sha384), (13, .sha512), (14, .sha224)]

/-- The numbers by which the curve signature and the discrete logarithm signature name it. -/
def otherDigests : List (Nat × Digest) := [(1, .sha224), (2, .sha256), (3, .sha384), (4, .sha512)]

/-- The schemes without parameters by name. -/
def schemeNames : List (Oid × SignatureScheme) :=
  rsaDigests.map (fun p => (oidRsaSignature p.1, .rsa p.2)) ++
  otherDigests.map (fun p => (oidCurveSignature p.1, .weierstrass p.2)) ++
  otherDigests.map (fun p => (oidDsaSignature p.1, .dsa p.2)) ++ [(oidEd25519, .ed25519)]

/-- The kinds of keys that sign. -/
inductive SignerKind where
  | rsa
  | dsa
  | weierstrass
  | ed25519
  | ed448
  deriving DecidableEq, Repr

/-- The kind of key that signs under a scheme. -/
def SignatureScheme.signerKind : SignatureScheme → SignerKind
  | .rsa _ | .rsaPss _ => .rsa
  | .dsa _ => .dsa
  | .weierstrass _ => .weierstrass
  | .ed25519 => .ed25519

/-- The kind of key that signs with an algorithm, if the algorithm is known. -/
def AlgorithmId.signerKind? (a : AlgorithmId) : Option SignerKind :=
  if a.oid = oidRsaPss then some .rsa
  else if a.oid = oidEd448 then some .ed448
  else (schemeNames.lookup a.oid).map SignatureScheme.signerKind

/-- Why an algorithm names no scheme that can be checked. -/
inductive SchemeDefect where
  /-- The algorithm is not known. -/
  | unsupported
  /-- The probabilistic signature without parameters. -/
  | noParameters
  /-- A mask function that is not known. -/
  | unknownMask (oid : Oid)
  /-- A hash function that is not known. -/
  | unknownHash (oid : Oid)
  deriving DecidableEq, Repr

/-- The wording of a defect. -/
def SchemeDefect.message : SchemeDefect → String
  | .unsupported => "Unsupported signature algorithm"
  | .noParameters => "Invalid RSA PSS parameters"
  | .unknownMask oid => "Unsupported mask generation OID: " ++ oid.text
  | .unknownHash oid => "Signature algorithm OID: " ++ oid.text ++ " not recognized"

/-- The hash function that an algorithm names. -/
def AlgorithmId.digest (a : AlgorithmId) : Except SchemeDefect Digest :=
  match digestNames.lookup a.oid with
  | some d => .ok d
  | none => .error (.unknownHash a.oid)

/-- The scheme that an algorithm names. -/
def AlgorithmId.scheme (a : AlgorithmId) : Except SchemeDefect SignatureScheme := do
  if a.oid = oidRsaPss then
    match a.parameters.bind PssForm.ofElement? with
    | none => throw .noParameters
    | some form =>
      if form.maskOid ≠ oidMask then throw (.unknownMask form.maskOid)
      let maskHash ← form.maskHash.digest
      return .rsaPss ⟨← form.hash.digest, maskHash, form.saltLength⟩
  else
    match schemeNames.lookup a.oid with
    | some scheme => return scheme
    | none => throw .unsupported

end CertKeeper.X509
