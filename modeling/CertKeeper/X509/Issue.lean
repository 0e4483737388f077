import CertKeeper.Crypto.Sha1
import CertKeeper.X509.Certificate
import CertKeeper.X509.PrivateKey

/-!
# Making certificates

What a statement must fulfil before it is signed, the extensions of the two kinds of certificates
that are made here, and the signing itself.
-/

namespace CertKeeper.X509

open Encoding Der Crypto Text

/-- Why a certificate is not made. -/
inductive IssueDefect where
  /-- The requested end does not lie after the start. -/
  | endNotAfterStart (notAfter notBefore : Moment)
  /-- A signing key of fewer bits than are allowed was asked for. -/
  | keySize (bits : Int)
  /-- No key of that many bits can be made. -/
  | noKey (bits : Int)
  /-- A common name whose number of octets is not allowed. -/
  | commonNameLength (octets : Nat)
  | serialNotPositive
  | serialTooLong
  /-- A start before the year 1950, for which certificates have no form. -/
  | startTooEarly
  /-- An end before the year 1950. -/
  | endTooEarly
  | endBeforeStart
  /-- A DNS name with characters outside ASCII. -/
  | dnsNameNotAscii
  /-- The signing key is too short for a signature. -/
  | signerTooShort
  /-- The finished certificate cannot be read back. -/
  | unreadable (defect : CertificateDefect)
  /-- The times of the certificate cannot be computed. -/
  | time (error : TimeError)
  deriving DecidableEq

/-- The wording of a defect. -/
def IssueDefect.message : IssueDefect → String
  | .endNotAfterStart notAfter notBefore =>
    "not_after " ++ notAfter.text ++ " must be after not_before " ++ notBefore.text
  | .keySize bits => "ca_key_size must be at least 2048 bits, got " ++ toString bits
  | .noKey bits => "cannot generate an RSA key of " ++ toString bits ++ " bits"
  | .commonNameLength octets =>
    "Attribute's length must be >= 1 and <= 64, but it was " ++ toString octets
  | .serialNotPositive => "The serial number should be positive."
  | .serialTooLong => "The serial number should not be more than 159 bits."
  | .startTooEarly => "The not valid before date must be on or after 1950 January 1)."
  | .endTooEarly => "The not valid after date must be on or after 1950 January 1."
  | .endBeforeStart => "The not valid after date must be after the not valid before date."
  | .dnsNameNotAscii =>
    "DNSName values should be passed as an A-label string. This means unicode characters " ++
      "should be encoded via a library like idna."
  | .signerTooShort => "Digest too large for key size. Use a larger key or different digest."
  | .unreadable defect => defect.message
  | .time error => error.message

/-- A common name has 1 to 64 octets. -/
def checkCommonName (name : String) : Except IssueDefect Unit :=
  let octets := (Utf8.encode name).length
  if 1 ≤ octets ∧ octets ≤ 64 then .ok () else .error (.commonNameLength octets)

/-- A serial number is positive and has at most 159 bits. -/
def checkSerial (serial : Int) : Except IssueDefect Unit :=
  if serial ≤ 0 then .error .serialNotPositive
  else if 159 < bitLength serial.toNat then .error .serialTooLong
  else .ok ()

/-- A DNS name consists of ASCII characters. -/
def checkDnsName (name : String) : Except IssueDefect Unit :=
  if name.toList.all fun c => c.toNat < 0x80 then .ok () else .error .dnsNameNotAscii

/-- The start of the year 1950 in universal time, in microseconds. -/
def earliestInstant : Int := (Time.Date.toDays ⟨1950, 1, 1⟩ : Int) * 86400000000

/-- The start of a certificate's validity in universal time. -/
def universalStart (notBefore : Moment) : Except IssueDefect Moment := do
  let m ← notBefore.toUniversal?.mapError .time
  if m.instant < earliestInstant then throw .startTooEarly
  return m

/-- The end of a certificate's validity in universal time; it does not lie before the start. -/
def universalEnd (start notAfter : Moment) : Except IssueDefect Moment := do
  let m ← notAfter.toUniversal?.mapError .time
  if m.instant < earliestInstant then throw .endTooEarly
  if m.instant < start.instant then throw .endBeforeStart
  return m

/-- The extensions of a certificate for a server with a DNS name. -/
def serverExtensions (dnsName : String) : List Extension :=
  [.dnsName dnsName, .basicConstraints false, .keyUsage 5 0xa0,
    .extendedKeyUsage [oidServerAuth, oidClientAuth]]

/-- The extensions of a certificate for the authority with a key. -/
def authorityExtensions (key : KeyInfo) : List Extension :=
  [.basicConstraints true, .keyUsage 1 0x86, .subjectKeyId (Sha1.hash key.octets)]

/-- The statement about an RSA key that a certificate made here signs. -/
def statementOf (subject issuer : Name) (key : Rsa.PublicKey) (serial : Int) (start stop : Moment)
    (extensions : List Extension) : Statement where
  version := 2
  serial := serial
  algorithm := .rsaSha256
  issuer := issuer
  validity := ⟨.ofMoment start, .ofMoment stop⟩
  subject := subject
  key := .ofRsa key
  extensions := extensions

/-- The octets of the certificate that consists of a statement and its signature. -/
def Statement.seal (s : Statement) (signature : Bytes) : Bytes :=
  (Element.sequence
    [s.element, AlgorithmId.rsaSha256.element, Element.bitString signature]).encode

/-- The certificate that consists of a statement and its signature, as it is read back. -/
def Statement.sign (s : Statement) (signer : Rsa.PrivateKey) : Except IssueDefect Certificate :=
  match signer.sign? .sha256 s.element.encode with
  | none => .error .signerTooShort
  | some signature => (Certificate.ofDer (s.seal signature)).mapError .unreadable

end CertKeeper.X509
