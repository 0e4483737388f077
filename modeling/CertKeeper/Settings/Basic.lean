import CertKeeper.Identity
import CertKeeper.Json.Basic
import CertKeeper.Settings.Dotenv
import CertKeeper.Text.Number
import CertKeeper.Text.Utf8
import CertKeeper.Time.Span
import CertKeeper.Validation

/-!
# Settings

What passes keep valid and how, from values given in the call, the environment and an environment
file. The first source that gives a setting counts, under the first of the setting's names.
-/

namespace CertKeeper

/-- The settings of passes. -/
structure Settings where
  /-- The namespace of all records and instances. -/
  space : String
  /-- The name of the executing instance. -/
  hostname : String
  /-- The name of the record whose change restarts the servers. -/
  servingRecord : String
  /-- The name of the authority's record. -/
  authorityRecord : String
  /-- The service whose DNS name certificates bear. -/
  service : String
  /-- The lifetime of issued certificates in hours. -/
  lifetimeHours : Int
  /-- The number of bits of issued keys. -/
  keyBits : Int
  deriving DecidableEq, Repr

namespace Settings

open Text

/-! ## Sources -/

/-- The names of a setting: its own, those that it may be given under in the call, and those of its
variables, in lower case. Of several names the first one counts. -/
structure Field where
  name : String
  givenNames : List String
  variableNames : List String

/-- A setting that has a plain variable beside the one of this program. -/
def sharedField (name plain : String) : Field where
  name := name
  givenNames := ["TLS_RECONCILER_" ++ plain, plain, name]
  variableNames := ["tls_reconciler_" ++ name, name]

/-- A setting that has a variable of this program only. -/
def ownField (name : String) : Field := ⟨name, [name], ["tls_reconciler_" ++ name]⟩

/-- Where settings come from. -/
structure Sources where
  /-- The values given in the call. -/
  given : Entries String Json
  /-- The variables of the environment. -/
  environment : Entries String String
  /-- The octets of the environment file; none if there is no such file. -/
  file : Bytes
  /-- The name of the machine. -/
  host : String

/-- What sources hold, the variables under their names in lower case. -/
structure Values where
  /-- The values given in the call. -/
  given : Entries String Json
  /-- The variables of the environment. -/
  environment : Entries String String
  /-- The variables of the environment file. -/
  file : Entries String (Option String)

/-- The name of a variable in lower case. All names that are looked for are in ASCII, and outside of
it the Kelvin sign is the only character whose lower case is a letter of ASCII. -/
def lowerName (name : String) : String :=
  name.map fun c => if c = '\u212a' then 'k' else c.toLower

/-- The values of variables whose names are told apart in lower case only. -/
def lowered {α : Type} (values : Entries String α) : Entries String α :=
  Entries.ofList (values.toList.map fun p => (lowerName p.1, p.2))

/-- The values in sources, unless the environment file is no text. -/
def Sources.values (s : Sources) : Except Utf8.Defect Values := do
  let file ← Utf8.decode s.file
  return ⟨s.given, lowered s.environment, lowered (Dotenv.read s.environment file)⟩

/-- The first of several names under which something is found, with what is found. -/
def firstOf {α : Type} (find : String → Option α) : List String → Option (String × α)
  | [] => none
  | n :: rest =>
    match find n with
    | some a => some (n, a)
    | none => firstOf find rest

/-- The value of a setting and the name that complaints about it use. -/
def Values.value? (s : Values) (f : Field) : Option (String × Json) :=
  match firstOf s.given.get? f.givenNames with
  | some r => some r
  | none =>
    match firstOf s.environment.get? f.variableNames with
    | some (_, v) => some (f.name, .text v)
    | none =>
      (firstOf (fun n => (s.file.get? n).join) f.variableNames).map fun r => (f.name, .text r.2)

/-! ## Values -/

/-- A text. -/
def readText : Json → Except ComplaintKind String
  | .text s => .ok s
  | _ => .error .noText

/-- A whole number: a number without a fraction, a truth value or the text of a number. -/
def readNumber : Json → Except ComplaintKind Int
  | .number (.integer n) => .ok n
  | .number (.decimal d) =>
    match d.nearest with
    | .infinite _ => .error .notFinite
    | .finite negative significand exponent =>
      let n := Binary.signed negative (Binary.wholePart significand exponent)
      if !(Binary.isWhole significand exponent) then .error .fraction
      else if -0x8000000000000000 < n ∧ n < 0x8000000000000000 then .ok n
      else .error .hugeNumber
  | .number _ => .error .notFinite
  | .bool b => .ok (if b then 1 else 0)
  | .text s =>
    match readSetting s with
    | .ok n => .ok n
    | .error .noNumber => .error .unreadableNumber
    | .error .tooLong => .error .hugeNumber
  | _ => .error .noNumber

/-- The lifetime is positive. -/
def checkHours (n : Int) : Except ComplaintKind Int :=
  if n ≤ 0 then .error (.notAllowed "certificate_lifetime_hours must be positive") else .ok n

/-- Keys have at least 2048 bits. -/
def checkBits (n : Int) : Except ComplaintKind Int :=
  if n < 2048 then .error (.notAllowed ("key_size must be at least 2048 bits, got " ++ toString n))
  else .ok n

/-- The value of a setting, or the one it has where no source gives it, or a complaint. -/
def Values.read {α : Type} (s : Values) (f : Field) (missing : α)
    (read : Json → Except ComplaintKind α) : Except Complaint α :=
  match s.value? f with
  | none => .ok missing
  | some (name, v) => (read v).mapError fun kind => ⟨[name], kind⟩

/-- The complaint that a reading ends with, if it does. -/
def complaint {α : Type} : Except Complaint α → List Complaint
  | .ok _ => []
  | .error c => [c]

/-- Why there are no settings. -/
inductive Defect where
  /-- The environment file is no text. -/
  | unreadableFile (defect : Utf8.Defect)
  /-- Values are not allowed. -/
  | complaints (list : List Complaint)
  deriving DecidableEq, Repr

/-- The settings that values give, or all complaints about them. -/
def ofValues (v : Values) (host : String) : Except (List Complaint) Settings :=
  let space := v.read (sharedField "namespace" "NAMESPACE") "default" readText
  let hostname := v.read (sharedField "hostname" "HOSTNAME") host readText
  let serving := v.read (ownField "tls_record_name") "tls" readText
  let authority := v.read (ownField "ca_record_name") "ca" readText
  let service := v.read (ownField "service_name") "webhook-service" readText
  let hours := v.read (ownField "certificate_lifetime_hours") 4320 (readNumber · >>= checkHours)
  let bits := v.read (ownField "key_size") 2048 (readNumber · >>= checkBits)
  match space, hostname, serving, authority, service, hours, bits with
  | .ok space, .ok hostname, .ok serving, .ok authority, .ok service, .ok hours, .ok bits =>
    .ok ⟨space, hostname, serving, authority, service, hours, bits⟩
  | space, hostname, serving, authority, service, hours, bits =>
    .error (complaint space ++ complaint hostname ++ complaint serving ++ complaint authority
      ++ complaint service ++ complaint hours ++ complaint bits)

/-- The settings that sources give. -/
def resolve (s : Sources) : Except Defect Settings := do
  let values ← s.values.mapError .unreadableFile
  (ofValues values s.host).mapError .complaints

/-! ## What follows from settings -/

/-- The lifetime of issued certificates. -/
def lifetime? (s : Settings) : Except TimeError Span := Span.ofHours? s.lifetimeHours

/-- The DNS name that certificates bear. -/
def dnsName (s : Settings) : String := serviceDnsName s.service s.space

/-- The record whose change restarts the servers. -/
def servingId (s : Settings) : Identity := ⟨s.space, s.servingRecord⟩

/-- The authority's record. -/
def authorityId (s : Settings) : Identity := ⟨s.space, s.authorityRecord⟩

/-- The executing instance. -/
def selfId (s : Settings) : Identity := ⟨s.space, s.hostname⟩

end Settings

end CertKeeper
