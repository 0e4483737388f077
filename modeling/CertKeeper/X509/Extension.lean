import CertKeeper.X509.Name

/-!
# Certificate extensions

Named additions to a certificate. They are decoded together when the DNS names are asked for, so a
malformed extension of a known kind hides all of them.
-/

namespace CertKeeper.X509

open Encoding Der Text

/-- An addition to a certificate. -/
structure Extension where
  kind : Oid
  critical : Bool
  value : Bytes
  deriving DecidableEq, Repr

/-- The identifier of the subject's key. -/
def oidSubjectKeyId : Oid := ⟨[2, 5, 29, 14]⟩

/-- The uses of the key, one bit for each. -/
def oidKeyUsage : Oid := ⟨[2, 5, 29, 15]⟩

/-- Alternative names of the subject. -/
def oidSubjectNames : Oid := ⟨[2, 5, 29, 17]⟩

/-- Alternative names of the issuer. -/
def oidIssuerNames : Oid := ⟨[2, 5, 29, 18]⟩

/-- Whether the subject may issue certificates. -/
def oidBasicConstraints : Oid := ⟨[2, 5, 29, 19]⟩

/-- The names for which the subject may issue certificates. -/
def oidNameConstraints : Oid := ⟨[2, 5, 29, 30]⟩

/-- Where lists of revoked certificates are. -/
def oidListPlaces : Oid := ⟨[2, 5, 29, 31]⟩

/-- The policies under which the certificate was issued. -/
def oidPolicies : Oid := ⟨[2, 5, 29, 32]⟩

/-- The identification of the issuer's key. -/
def oidAuthorityKeyId : Oid := ⟨[2, 5, 29, 35]⟩

/-- Limits on policies. -/
def oidPolicyConstraints : Oid := ⟨[2, 5, 29, 36]⟩

/-- The uses of the key by name. -/
def oidExtendedKeyUsage : Oid := ⟨[2, 5, 29, 37]⟩

/-- Where lists of recently revoked certificates are. -/
def oidFreshListPlaces : Oid := ⟨[2, 5, 29, 46]⟩

/-- The limit on the policy that stands for any. -/
def oidInhibitAnyPolicy : Oid := ⟨[2, 5, 29, 54]⟩

/-- Where to learn more about the issuer. -/
def oidAuthorityAccess : Oid := ⟨[1, 3, 6, 1, 5, 5, 7, 1, 1]⟩

/-- Where to learn more about the subject. -/
def oidSubjectAccess : Oid := ⟨[1, 3, 6, 1, 5, 5, 7, 1, 11]⟩

/-- Features that a server must support. -/
def oidFeatures : Oid := ⟨[1, 3, 6, 1, 5, 5, 7, 1, 24]⟩

/-- The extension by which revocation need not be checked. -/
def oidNoCheck : Oid := ⟨[1, 3, 6, 1, 5, 5, 7, 48, 1, 5]⟩

/-- The use of a key for servers. -/
def oidServerAuth : Oid := ⟨[1, 3, 6, 1, 5, 5, 7, 3, 1]⟩

/-- The use of a key for clients. -/
def oidClientAuth : Oid := ⟨[1, 3, 6, 1, 5, 5, 7, 3, 2]⟩

/-- Why the extensions of a certificate cannot be decoded. -/
inductive ExtensionDefect where
  /-- Two extensions of one kind. -/
  | duplicate (kind : Oid)
  /-- Octets that an extension of a known kind cannot have. -/
  | malformed
  /-- A network address of an impossible length, or a network that does not exist. -/
  | address
  /-- A form of general name that is not handled. -/
  | unsupportedName
  /-- A directory name that has no text. -/
  | name (defect : NameDefect)
  /-- A key that only enciphers or deciphers in an agreement, but is not for agreements. -/
  | uselessAgreement
  /-- A length of paths below a certificate that may not issue any. -/
  | uselessLength
  /-- The issuer's names without a serial number, or the other way round. -/
  | halfIssuer
  /-- Constraints on policies that constrain nothing. -/
  | noConstraint
  deriving DecidableEq, Repr

/-- The wording of a defect. -/
def ExtensionDefect.message : ExtensionDefect → String
  | .duplicate kind => "Duplicate " ++ kind.text ++ " extension found"
  | .malformed => "<asn1>"
  | .address => "<ip>"
  | .unsupportedName => "x400Address/EDIPartyName are not supported types"
  | .name defect => defect.message
  | .uselessAgreement =>
    "encipher_only and decipher_only can only be true when key_agreement is true"
  | .uselessLength => "path_length must be None when ca is False"
  | .halfIssuer =>
    "authority_cert_issuer and authority_cert_serial_number must both be present or both None"
  | .noConstraint =>
    "At least one of require_explicit_policy and inhibit_policy_mapping must not be None"

/-! ## General names -/

/-- A name of a holder in one of the forms that alternative names have. -/
inductive GeneralName where
  | dns (name : String)
  /-- A form that is known and not looked at here. -/
  | other
  | directory (name : Name)
  | address (octets : Bytes)
  | unsupported
  deriving DecidableEq, Repr

namespace GeneralName

/-- A name of another form under its own kind. -/
def isOther (content : Bytes) : Bool :=
  match readElements? content with
  | some [kind, value] => kind.oid?.isSome && (value.only? (.wrapper 0)).isSome
  | _ => false

/-- The general name that an element is. -/
def ofElement? (e : Element) : Option GeneralName :=
  if e.tag = .wrapper 0 then if isOther e.content then some .other else none
  else if e.tag = .context 1 ∨ e.tag = .context 6 then
    (Utf8.decode? e.content).map fun _ => .other
  else if e.tag = .context 2 then (Utf8.decode? e.content).map .dns
  else if e.tag = .wrapper 3 ∨ e.tag = .wrapper 5 then some .unsupported
  else if e.tag = .wrapper 4 then
    ((e.only? (.wrapper 4)).bind Name.ofElement?).map .directory
  else if e.tag = .context 7 then some (.address e.content)
  else if e.tag = .context 8 then (Oid.ofOctets? e.content).map fun _ => .other
  else none

/-- Whether octets are a network: an address and, in as many octets, a mask that consists of ones
and then zeros and covers the address. -/
def isNetwork (octets : Bytes) : Bool :=
  let half := octets.length / 2
  let bits := 8 * half
  let address := Bytes.toNat (octets.take half)
  let mask := Bytes.toNat (octets.drop half)
  let free := Nat.pow 2 bits - mask
  (octets.length == 8 || octets.length == 32) &&
    (mask == 0 || free == Nat.pow 2 free.log2) && address % free == 0

/-- Whether a general name has a value. -/
def check : GeneralName → Except ExtensionDefect Unit
  | .address octets =>
    if octets.length = 4 ∨ octets.length = 16 ∨ isNetwork octets then .ok ()
    else .error .address
  | .unsupported => .error .unsupportedName
  | .directory name =>
    match name.texts? with
    | .ok _ => .ok ()
    | .error defect => .error (.name defect)
  | _ => .ok ()

end GeneralName

/-- The result of a reading that has no more to say than that it failed. -/
def wellFormed {α : Type} (o : Option α) : Except ExtensionDefect α :=
  match o with
  | some a => .ok a
  | none => .error .malformed

/-- The general names in a sequence of them. -/
def generalNames (items : List Element) : Except ExtensionDefect (List GeneralName) := do
  let names ← wellFormed (items.mapM GeneralName.ofElement?)
  names.forM GeneralName.check
  return names

/-! ## Known kinds -/

/-- Whether an element is a number of at most 64 bits. -/
def isSmallNatural (e : Element) : Bool := e.natural?.any (· < Nat.pow 2 64)

/-- Checks a flag that is set or missing and perhaps a limit; there is no limit without the flag. -/
def checkBasicConstraints (e : Element) : Except ExtensionDefect Unit := do
  match ← wellFormed e.sequence? with
  | [] => return
  | [x] =>
    if isSmallNatural x then throw .uselessLength
    if x.boolean? ≠ some true then throw .malformed
  | [x, y] => if x.boolean? ≠ some true ∨ !(isSmallNatural y) then throw .malformed
  | _ => throw .malformed

/-- Checks the uses of a key, one bit for each. -/
def checkKeyUsage (e : Element) : Except ExtensionDefect Unit := do
  let bits ← wellFormed e.bitString?
  let use (n : Nat) : Bool := (bits.getD (n / 8) 0).toNat.testBit (7 - n % 8)
  if !(use 4) ∧ (use 7 ∨ use 8) then throw .uselessAgreement

/-- Checks two limits under context tags, at least one of them. -/
def checkPolicyConstraints (e : Element) : Except ExtensionDefect Unit := do
  let items ← wellFormed e.sequence?
  let limit (number : Nat) (items : List Element) : Option (Option Unit × List Element) :=
    takeTagged (.context number)
      (fun x => if isSmallNatural ⟨.integer, x.content⟩ then some () else none) items
  let (explicit, items) ← wellFormed (limit 0 items)
  let (mapping, items) ← wellFormed (limit 1 items)
  if !items.isEmpty then throw .malformed
  if explicit.isNone ∧ mapping.isNone then throw .noConstraint

/-- Whether every item of a sequence passes a test. -/
def isSequenceOf (test : Element → Bool) (e : Element) : Bool := e.sequence?.any (·.all test)

/-- Checks a list of ways to reach more information. -/
def checkAccess (e : Element) : Except ExtensionDefect Unit := do
  let items ← wellFormed e.sequence?
  let names ← wellFormed (items.mapM fun i => do
    match ← i.sequence? with
    | [method, place] =>
      let _ ← method.oid?
      GeneralName.ofElement? place
    | _ => none)
  names.forM GeneralName.check

/-- Checks the identification of the key of an issuer: an identifier, the issuer's names and a
serial number. The identifier may be missing, and so may the others, but only both of them. -/
def checkAuthorityKeyId (e : Element) : Except ExtensionDefect Unit := do
  let items ← wellFormed e.sequence?
  let (_, items) ← wellFormed (takeTagged (.context 0) some items)
  let (names, items) ← wellFormed
    (takeTagged (.wrapper 1) (fun x => (readElements? x.content).bind general?) items)
  let (serial, items) ← wellFormed
    (takeTagged (.context 2) (fun x => Element.natural? ⟨.integer, x.content⟩) items)
  if !items.isEmpty then throw .malformed
  (names.getD []).forM GeneralName.check
  if names.isSome ≠ serial.isSome then throw .halfIssuer
where
  /-- The general names that elements are. -/
  general? (items : List Element) : Option (List GeneralName) :=
    items.mapM GeneralName.ofElement?

/-- The alternative names of the subject in an extension, if it is of that kind; checks an extension
of another known kind. Policies, constraints on names and places of revocation lists must be
sequences; extensions of unknown kinds are taken as they are. -/
def Extension.decode (x : Extension) : Except ExtensionDefect (List GeneralName) := do
  let one : Except ExtensionDefect Element := wellFormed (readOnly? x.value)
  let check (test : Element → Except ExtensionDefect Unit) :
      Except ExtensionDefect (List GeneralName) := do
    test (← one)
    return []
  let require (test : Element → Bool) : Except ExtensionDefect (List GeneralName) :=
    check fun e => if test e then .ok () else .error .malformed
  if x.kind = oidSubjectNames then
    generalNames (← wellFormed (← one).sequence?)
  else if x.kind = oidIssuerNames then
    check fun e => do let _ ← generalNames (← wellFormed e.sequence?)
  else if x.kind = oidBasicConstraints then check checkBasicConstraints
  else if x.kind = oidKeyUsage then check checkKeyUsage
  else if x.kind = oidSubjectKeyId then require fun e => (e.content? .octetString).isSome
  else if x.kind = oidExtendedKeyUsage then require (isSequenceOf fun e => e.oid?.isSome)
  else if x.kind = oidFeatures then require (isSequenceOf isSmallNatural)
  else if x.kind = oidInhibitAnyPolicy then require fun e => e.natural?.isSome
  else if x.kind = oidPolicyConstraints then check checkPolicyConstraints
  else if x.kind = oidNoCheck then require Element.isNull
  else if x.kind = oidAuthorityKeyId then check checkAuthorityKeyId
  else if x.kind = oidAuthorityAccess ∨ x.kind = oidSubjectAccess then check checkAccess
  else if x.kind = oidNameConstraints then require fun e => e.sequence?.isSome
  else if x.kind = oidPolicies ∨ x.kind = oidListPlaces ∨ x.kind = oidFreshListPlaces then
    require (isSequenceOf fun e => e.sequence?.isSome)
  else return []

/-- The first kind that two extensions have. -/
def duplicateKind? : List Oid → List Extension → Option Oid
  | _, [] => none
  | seen, x :: rest =>
    if seen.contains x.kind then some x.kind else duplicateKind? (x.kind :: seen) rest

/-- The DNS names among the alternative names of the subject, once all extensions are decoded. -/
def dnsNames (xs : List Extension) : Except ExtensionDefect (List String) := do
  match duplicateKind? [] xs with
  | some kind => throw (.duplicate kind)
  | none =>
    let names ← xs.mapM Extension.decode
    return names.flatten.filterMap fun n =>
      match n with
      | .dns name => some name
      | _ => none

/-! ## Elements -/

namespace Extension

/-- The extension that an element is; a flag that says no more than its absence is refused. -/
def ofElement? (e : Element) : Option Extension := do
  match ← e.sequence? with
  | [kind, value] => some ⟨← kind.oid?, false, ← value.content? .octetString⟩
  | [kind, critical, value] =>
    if (← critical.boolean?) then some ⟨← kind.oid?, true, ← value.content? .octetString⟩ else none
  | _ => none

/-- The element of an extension. -/
def element (x : Extension) : Element :=
  Element.sequence ([Element.oid x.kind] ++ (if x.critical then [Element.boolean true] else [])
    ++ [Element.octetString x.value])

/-- An extension that holds an element. -/
def ofValue (kind : Oid) (critical : Bool) (value : Element) : Extension :=
  ⟨kind, critical, value.encode⟩

/-- The alternative name of a subject that is a single DNS name. -/
def dnsName (name : String) : Extension :=
  ofValue oidSubjectNames false (Element.sequence [⟨.context 2, Utf8.encode name⟩])

/-- Whether the subject may issue certificates. -/
def basicConstraints (authority : Bool) : Extension :=
  ofValue oidBasicConstraints true
    (Element.sequence (if authority then [Element.boolean true] else []))

/-- The uses of a key, as bits with the given number of unused ones. -/
def keyUsage (unused bits : UInt8) : Extension :=
  ofValue oidKeyUsage true ⟨.bitString, [unused, bits]⟩

/-- The uses of a key by name. -/
def extendedKeyUsage (uses : List Oid) : Extension :=
  ofValue oidExtendedKeyUsage false (Element.sequence (uses.map Element.oid))

/-- The identifier of the subject's key. -/
def subjectKeyId (identifier : Bytes) : Extension :=
  ofValue oidSubjectKeyId false (Element.octetString identifier)

end Extension

end CertKeeper.X509
