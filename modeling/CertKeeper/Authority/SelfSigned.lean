import CertKeeper.Authority.Basic

/-!
# Authorities with a certificate of their own

An authority that signs with an RSA key and judges by its own certificate. Its own certificate's
validity and role are not looked at.
-/

namespace CertKeeper

open Crypto X509

/-- An authority's certificate and key, and what it puts into the certificates that it issues. -/
structure SelfSigned where
  certificate : Certificate
  key : Rsa.PrivateKey
  /-- The organization in the subjects of issued certificates. -/
  organization : String
  /-- The number of bits of the keys of issued certificates. -/
  leafBits : Int

/-- The name of the field that holds an authority's certificate. -/
def authorityCertificateField : String := "ca.crt"

/-- The name of the field that holds an authority's private key. -/
def authorityKeyField : String := "ca.key"

namespace SelfSigned

/-- The number of bits of issued keys where nothing else is said. -/
def defaultLeafBits : Int := 2048

/-- The organization of authorities whose certificate names none. -/
def defaultOrganization : String := "tls-reconciler"

/-- The public exponent of all keys that are drawn. -/
def publicExponent : Nat := 65537

/-! ## Making and storing -/

/-- What a new authority is made of. -/
structure Options where
  commonName : String
  organization : String
  validityDays : Int
  /-- The number of bits of the authority's own key. -/
  keyBits : Int

/-- The options where nothing else is said. -/
def Options.default : Options := ⟨"tls-reconciler CA", defaultOrganization, 3650, 3072⟩

/-- A new authority. -/
def generate (o : Options) : Action Signing SelfSigned := do
  if o.keyBits < 2048 then throw (.issue (.keySize o.keyBits))
  let key ← Signing.drawKey publicExponent o.keyBits
  let now ← Signing.clock
  Action.ofExcept .issue (checkCommonName o.commonName)
  let name := Name.ofCommonName o.commonName o.organization
  let serial ← Signing.drawSerial
  Action.ofExcept .issue (checkSerial serial)
  let start ← Action.ofExcept .issue (universalStart now)
  let lifetime ← Action.ofExcept .time (Span.ofDays? o.validityDays)
  let notAfter ← Action.ofExcept .time (now.add? lifetime)
  let stop ← Action.ofExcept .issue (universalEnd start notAfter)
  let statement := statementOf name name key.publicKey serial start stop
    (authorityExtensions (.ofRsa key.publicKey))
  let certificate ← Action.ofExcept .issue (statement.sign key)
  return ⟨certificate, key, o.organization, defaultLeafBits⟩

/-- The authority of a certificate and a key, both as texts. -/
def ofTexts (certificate key : Bytes) (leafBits : Int) : Except Failure SelfSigned := do
  let c ← (Certificate.ofText certificate).mapError .certificate
  match ← (PrivateKey.ofText key).mapError .key with
  | .rsa k =>
    let organization ← c.statement.subject.organization?.mapError .distinguishedName
    return ⟨c, k, organization.getD defaultOrganization, leafBits⟩
  | _ => throw .keyNotRsa

/-- The text of the certificate. -/
def certificateText (a : SelfSigned) : Bytes := a.certificate.text

/-- The text of the private key. -/
def keyText (a : SelfSigned) : Bytes := PrivateKey.writeRsa a.key

/-- The fields under which an authority is stored, put into other fields. -/
def store (a : SelfSigned) (data : Fields) : Fields :=
  (data.set authorityCertificateField a.certificateText).set authorityKeyField a.keyText

/-! ## Issuing and judging -/

/-- A certificate for a server, with its new private key. -/
def issue (a : SelfSigned) (o : IssueOptions) (now : Option Moment) :
    Action Signing (Bytes × Bytes) := do
  let notBefore ← Signing.momentOr now
  if ← Action.ofExcept .time (o.notAfter.le? notBefore) then
    throw (.issue (.endNotAfterStart o.notAfter notBefore))
  let key ← Signing.drawKey publicExponent a.leafBits
  Action.ofExcept .issue (checkCommonName o.dnsName)
  let subject := Name.ofCommonName o.dnsName a.organization
  let serial ← Signing.drawSerial
  Action.ofExcept .issue (checkSerial serial)
  let start ← Action.ofExcept .issue (universalStart notBefore)
  let stop ← Action.ofExcept .issue (universalEnd start o.notAfter)
  Action.ofExcept .issue (checkDnsName o.dnsName)
  let statement := statementOf subject a.certificate.statement.subject key.publicKey serial start
    stop (serverExtensions o.dnsName)
  let certificate ← Action.ofExcept .issue (statement.sign a.key)
  return (certificate.text, PrivateKey.writeRsa key)

/-- Whether a defect of the extensions is a reason to reject a certificate. Extensions that occur
twice and names of a form that is not handled are not. -/
def isNameRejection : ExtensionDefect → Bool
  | .duplicate _ | .unsupportedName => false
  | .name (.unknownType _) => false
  | .name .misplacedBits => false
  | _ => true

/-- Judges whether the DNS names of a certificate hold a given one. -/
def validateName (c : Certificate) (dnsName : String) : Except Failure Verdict :=
  match c.dnsNames? with
  | .error defect =>
    if isNameRejection defect then .ok (.rejected (.unreadableNames defect))
    else .error (.extension defect)
  | .ok names =>
    if names.contains dnsName then .ok .accepted else .ok (.rejected (.otherName dnsName))

/-- Judges a certificate at a moment: first the time, then the DNS name if one is given. -/
def validateAt (c : Certificate) (dnsName : Option String) (now : Moment) :
    Except Failure Verdict := do
  let notAfter ← c.notAfter?.mapError .time
  if ← (notAfter.le? now).mapError .time then return .rejected (.expired notAfter)
  let notBefore ← c.notBefore?.mapError .time
  if ← (now.lt? notBefore).mapError .time then return .rejected (.notYetValid notBefore)
  match dnsName with
  | none => return .accepted
  | some name => validateName c name

/-- Judges a certificate: the signature, the time, and the DNS name if one is given. A key, a curve
or a hash function that is not known is no reason to reject. -/
def validate (a : SelfSigned) (c : Certificate) (dnsName : Option String) (now : Option Moment) :
    Action Signing Verdict := do
  match c.checkIssuedBy a.certificate with
  | .ok () => Action.ofExcept id (validateAt c dnsName (← Signing.momentOr now))
  | .error defect =>
    if defect.isUnknown then throw (.chain defect) else return .rejected (.chain defect)

/-- The authority. -/
def toAuthority (a : SelfSigned) : Authority := ⟨a.issue, a.validate⟩

end SelfSigned

end CertKeeper
