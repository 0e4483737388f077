import CertKeeper.Authority.Basic

/-!
# Evaluations

What a stored pair is worth: nothing is there, something is wrong with it, or it can be used until
it expires.
-/

namespace CertKeeper

open X509

/-- What is wrong with a stored pair. -/
inductive Defect where
  /-- The certificate cannot be read. -/
  | certificate (defect : CertificateDefect)
  /-- The private key cannot be read. -/
  | key (defect : KeyDefect)
  /-- The private key is not the certificate's. -/
  | keysDiffer
  /-- The authority rejects the certificate. -/
  | rejected (rejection : Rejection)
  /-- A defect that is known by its description alone. -/
  | described (reason : String)

namespace Defect

/-- The report of what was found. -/
def message : Defect → String
  | certificate defect => defect.message
  | key defect => defect.message
  | keysDiffer => "public keys differ"
  | rejected rejection => rejection.message
  | described reason => reason

/-- The description of a defect. -/
def reason : Defect → String
  | certificate defect => "cannot parse certificate: " ++ defect.message
  | key defect => "private key does not belong to certificate: " ++ defect.message
  | keysDiffer => "private key does not belong to certificate: " ++ keysDiffer.message
  | rejected rejection => rejection.kind.text ++ ": " ++ rejection.message
  | described reason => reason

end Defect

/-- What a stored pair is worth. -/
inductive Evaluation where
  /-- One half or both are missing. -/
  | absent
  /-- The pair cannot be used. -/
  | invalid (defect : Defect)
  /-- The pair can be used until it expires. -/
  | valid (notAfter : Moment)

/-- The word for an evaluation. -/
def Evaluation.name : Evaluation → String
  | absent => "Absent"
  | invalid _ => "Invalid"
  | valid _ => "Valid"

/-- Checks that a private key, as a text, belongs to a certificate. -/
def checkKey (c : Certificate) (key : Bytes) : Except Defect Unit := do
  let k ← (PrivateKey.ofText key).mapError .key
  let certified ← c.publicKey?.mapError .key
  if certified = k.publicKey then return else throw .keysDiffer

/-- What the pair in a record is worth to an authority: the certificate must be readable, the key
must be its own, and the authority must accept it. A certificate of a version that does not exist is
a failure and not a defect. -/
def evaluate (r : Record) (authority : Authority) (dnsName : Option String)
    (now : Option Moment) : Action Signing Evaluation := do
  match r.certificate?, r.key? with
  | some certificate, some key =>
    match Certificate.ofText certificate with
    | .error (.version number) => throw (.certificate (.version number))
    | .error defect => return .invalid (.certificate defect)
    | .ok c =>
      match checkKey c key with
      | .error defect => return .invalid defect
      | .ok () =>
        match ← authority.validate c dnsName now with
        | .rejected rejection => return .invalid (.rejected rejection)
        | .accepted => return .valid (← Action.ofExcept .time c.notAfter?)
  | _, _ => return .absent

end CertKeeper
