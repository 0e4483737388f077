import CertKeeper.Encoding.Pem
import CertKeeper.X509.Extension
import CertKeeper.X509.PublicKey
import CertKeeper.X509.Validity

/-!
# Certificates

A signed statement that a key belongs to a name for a time. A certificate is read from its one
encoding and keeps it, so that it is written again octet for octet.
-/

namespace CertKeeper.X509

open Encoding Der

/-- What a certificate states. -/
structure Statement where
  version : Nat
  serial : Int
  algorithm : AlgorithmId
  issuer : Name
  validity : Validity
  subject : Name
  key : KeyInfo
  extensions : List Extension
  deriving DecidableEq, Repr

/-- A statement with its signature, and the encodings that were read or made. -/
structure Certificate where
  /-- The encoding of the whole certificate. -/
  der : Bytes
  /-- The encoding of the statement, which is what is signed. -/
  signed : Bytes
  statement : Statement
  /-- The algorithm that the signature itself names. -/
  algorithm : AlgorithmId
  signature : Bytes
  deriving DecidableEq, Repr

/-- Why a text is no certificate. -/
inductive CertificateDefect where
  /-- The text has no well-formed blocks. -/
  | framing
  /-- No block of the text is a certificate. -/
  | noCertificate
  /-- The encoding is not that of a certificate. -/
  | malformed
  /-- A version that does not exist. -/
  | version (number : Nat)
  deriving DecidableEq, Repr

/-- The wording of a defect. -/
def CertificateDefect.message : CertificateDefect → String
  | .framing => "<pem>"
  | .noCertificate =>
    "Valid PEM but no BEGIN CERTIFICATE/END CERTIFICATE delimiters. " ++
      "Are you sure this is a certificate?"
  | .malformed => "<asn1>"
  | .version number => toString number ++ " is not a valid X509 version"

namespace Statement

/-- The version of a statement that does not name one. -/
def defaultVersion : Nat := 0

/-- The version that a statement may start with, and the rest of its elements. -/
def takeVersion : List Element → Option (Nat × List Element)
  | [] => none
  | e :: rest =>
    if e.tag = .wrapper 0 then do
      let n ← (← e.only? (.wrapper 0)).natural?
      if n = defaultVersion ∨ 256 ≤ n then none else some (n, rest)
    else some (defaultVersion, e :: rest)

/-- The extensions that a statement may end with. -/
def readExtensions? : List Element → Option (List Extension)
  | [] => some []
  | [e] => do (← (← e.only? (.wrapper 3)).sequence?).mapM Extension.ofElement?
  | _ => none

/-- The statement that an element is. -/
def ofElement? (e : Element) : Option Statement := do
  let (version, items) ← takeVersion (← e.sequence?)
  match items with
  | serial :: algorithm :: issuer :: validity :: subject :: key :: rest =>
    let (_, rest) ← takeTagged (.context 1) (Element.bitsUnder? (.context 1)) rest
    let (_, rest) ← takeTagged (.context 2) (Element.bitsUnder? (.context 2)) rest
    some
      { version := version
        serial := ← serial.integer?
        algorithm := ← AlgorithmId.ofElement? algorithm
        issuer := ← Name.ofElement? issuer
        validity := ← Validity.ofElement? validity
        subject := ← Name.ofElement? subject
        key := ← KeyInfo.ofElement? key
        extensions := ← readExtensions? rest }
  | _ => none

/-- The element of a statement of the third version with a serial number that is not negative. -/
def element (s : Statement) : Element :=
  Element.sequence
    [Element.group (.wrapper 0) [Element.natural s.version], Element.natural s.serial.toNat,
      s.algorithm.element, s.issuer.element, s.validity.element, s.subject.element, s.key.element,
      Element.group (.wrapper 3) [Element.sequence (s.extensions.map Extension.element)]]

end Statement

namespace Certificate

/-- The certificate that octets are, whatever its version. -/
def ofOctets? (der : Bytes) : Option Certificate := do
  match ← (← readOnly? der).sequence? with
  | [statement, algorithm, signature] =>
    some
      { der := der
        signed := statement.encode
        statement := ← Statement.ofElement? statement
        algorithm := ← AlgorithmId.ofElement? algorithm
        signature := ← signature.bitString? }
  | _ => none

/-- The certificate that octets are. -/
def ofDer (der : Bytes) : Except CertificateDefect Certificate :=
  match ofOctets? der with
  | none => .error .malformed
  | some c =>
    if c.statement.version = 0 ∨ c.statement.version = 2 then .ok c
    else .error (.version c.statement.version)

/-- The label of a certificate's block. -/
def label : String := "CERTIFICATE"

/-- The labels of the blocks that are certificates. -/
def labels : List String := [label, "X509 CERTIFICATE"]

/-- The certificate of a text: the first block that is one counts. -/
def ofText (b : Bytes) : Except CertificateDefect Certificate :=
  match Pem.blocks? b with
  | none => .error .framing
  | some blocks =>
    match blocks.find? fun b => labels.contains b.label with
    | none => .error .noCertificate
    | some b => ofDer b.content

/-- The text of a certificate. -/
def text (c : Certificate) : Bytes := Pem.write label c.der

/-- The moment from which on a certificate is valid. -/
def notBefore? (c : Certificate) : Except TimeError Moment := c.statement.validity.notBefore.moment?

/-- The moment at which a certificate is no longer valid. -/
def notAfter? (c : Certificate) : Except TimeError Moment := c.statement.validity.notAfter.moment?

/-- The key that a certificate is for. -/
def publicKey? (c : Certificate) : Except KeyDefect PublicKey := c.statement.key.publicKey?

/-- The DNS names that a certificate is for. -/
def dnsNames? (c : Certificate) : Except ExtensionDefect (List String) :=
  dnsNames c.statement.extensions

end Certificate

/-- Why a certificate is not taken for one that another certificate's key has signed. -/
inductive ChainDefect where
  /-- The statement and the signature name different algorithms. -/
  | algorithmsDiffer
  /-- The issuer is not the other certificate's subject. -/
  | issuerDiffers
  /-- The other certificate's key cannot be used. -/
  | key (defect : KeyDefect)
  /-- The other certificate's key is not one that signs. -/
  | noSigner
  /-- The scheme of the signature is not handled. -/
  | scheme (defect : SchemeDefect)
  /-- The scheme is not one of the other certificate's key. -/
  | wrongKeyKind
  /-- The signature is wrong. -/
  | wrongSignature
  deriving DecidableEq, Repr

namespace ChainDefect

/-- The wording of a defect. -/
def message : ChainDefect → String
  | algorithmsDiffer =>
    "Inner and outer signature algorithms do not match. This is an invalid certificate."
  | issuerDiffers => "Issuer certificate subject does not match certificate issuer."
  | key defect => defect.message
  | noSigner => "Key must be an rsa, dsa, ec, ed25519, or ed448 public key."
  | scheme defect => defect.message
  | wrongKeyKind => "Signature algorithm does not match issuer key type"
  | wrongSignature => ""

/-- Whether a certificate cannot be judged because a key, a curve or a hash function is not
known. -/
def isUnknown : ChainDefect → Bool
  | key defect => defect.isUnknown
  | scheme (.unknownHash _) => true
  | _ => false

end ChainDefect

/-- Checks that a certificate names another one's subject as its issuer and is signed with its
key. -/
def Certificate.checkIssuedBy (c issuer : Certificate) : Except ChainDefect Unit := do
  if c.statement.algorithm ≠ c.algorithm then throw .algorithmsDiffer
  if c.statement.issuer ≠ issuer.statement.subject then throw .issuerDiffers
  let key ← issuer.publicKey?.mapError .key
  match key.signerKind?, c.algorithm.signerKind? with
  | none, _ => throw .noSigner
  | some _, none => throw (.scheme .unsupported)
  | some own, some needed =>
    if own ≠ needed then throw .wrongKeyKind
    let scheme ← c.algorithm.scheme.mapError .scheme
    if !(key.verify scheme c.signed c.signature) then throw .wrongSignature

end CertKeeper.X509
