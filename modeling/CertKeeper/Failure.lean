import CertKeeper.Console.Markup
import CertKeeper.Disk.Error
import CertKeeper.Json.Shown
import CertKeeper.Program
import CertKeeper.Record
import CertKeeper.Text.Utf8
import CertKeeper.Validation
import CertKeeper.X509.Issue

/-!
# Failures

Every way in which an action can end without a result, as a cause. The causes of a pass are the
five kinds of engine failures; each names the failure that it results from, if there is one.
-/

namespace CertKeeper

open Text

/-- The kinds of engine failures. -/
inductive EngineKind where
  | reconcile
  | fetch
  | authority
  | issuance
  | write
  deriving DecidableEq, Repr

/-- The kinds of failures that a collaborator outside the library reports. -/
inductive ExternalKind where
  | badValue
  | badType
  | runtime
  | missingKey
  | system
  | connection
  | timeout
  | permission
  | engine (kind : EngineKind)
  deriving DecidableEq, Repr

/-- What is wrong with the index of a stored record. -/
inductive IndexDefect where
  /-- The text is no document. -/
  | malformed
  /-- The document has no members. -/
  | noObject
  /-- A member is not there. -/
  | missing (name : String)
  /-- The version is of a type that is never a number. -/
  | versionType
  /-- The version is a text that is no number. -/
  | versionText (text : String)
  /-- The version is infinite. -/
  | versionInfinite
  /-- The version is an undefined number. -/
  | versionUndefined
  /-- The fields are no map. -/
  | fieldsType
  /-- A field's label is a container. -/
  | labelType
  /-- A field whose label is no text cannot be written again. -/
  | alienLabel
  deriving DecidableEq, Repr

/-- The wording of a defect. -/
def IndexDefect.message : IndexDefect → String
  | .malformed => "<json>"
  | .missing name => quote name
  | .versionText text => "invalid literal for int() with base 10: " ++ quote text
  | .versionInfinite => "cannot convert float infinity to integer"
  | .versionUndefined => "cannot convert float NaN to integer"
  | .noObject | .versionType | .fieldsType | .labelType | .alienLabel => "<python>"

/-- Why an action has no result. -/
inductive Failure where
  | recordNotFound (id : Identity)
  | instanceNotFound (id : Identity)
  /-- A field that is to be removed is not there. -/
  | fieldNotFound (name : String)
  /-- Two fields of a record would be stored in one file. -/
  | fieldCollision (id : Identity)
  | disk (error : Disk.Error)
  /-- Stored octets that are no text. -/
  | text (defect : Utf8.Defect)
  | index (defect : IndexDefect)
  /-- A stored manifest that is not one of an instance. -/
  | manifest (complaints : List Complaint)
  | certificate (defect : X509.CertificateDefect)
  | key (defect : X509.KeyDefect)
  | chain (defect : X509.ChainDefect)
  | distinguishedName (defect : X509.NameDefect)
  /-- The key of an authority is of another kind than RSA. -/
  | keyNotRsa
  | extension (defect : X509.ExtensionDefect)
  | issue (defect : X509.IssueDefect)
  | time (error : TimeError)
  /-- A value that is no evaluation. -/
  | unknownEvaluation (value : Json)
  /-- A word that is no outcome. -/
  | unknownOutcome (word : String)
  /-- A text for the console that cannot be shown. -/
  | markup (defect : Console.MarkupDefect)
  /-- A failure that a collaborator outside the library reports. -/
  | external (kind : ExternalKind) (report : String)
  /-- The watched record cannot be read. -/
  | fetch (id : Identity) (cause : Failure)
  /-- The authority's record does not exist. -/
  | authorityMissing (id : Identity)
  /-- The authority's record cannot be read. -/
  | authorityUnreadable (id : Identity) (cause : Failure)
  /-- The authority's record lacks its certificate or its key. -/
  | authorityIncomplete (id : Identity)
  /-- The authority's record does not hold an authority. -/
  | authorityUnloadable (id : Identity) (cause : Failure)
  /-- The authority cannot be had, for another reason. -/
  | authorityUnresolved (cause : Failure)
  /-- The authority issues no certificate. -/
  | issuance (dnsName : String) (cause : Failure)
  /-- The watched record cannot be written. -/
  | write (id : Identity) (cause : Failure)

namespace Failure

/-- The report of a failure. -/
def message : Failure → String
  | recordNotFound id => quote ("Record " ++ quote id.text ++ " does not exist.")
  | instanceNotFound id => quote ("Instance " ++ quote id.text ++ " does not exist.")
  | fieldNotFound name => quote name
  | fieldCollision id => "record " ++ quote id.text ++ " has field names that collide on disk"
  | disk error => error.message
  | text defect => defect.message
  | index defect => defect.message
  | manifest _ => complaintsText
  | certificate defect => defect.message
  | key defect => defect.message
  | chain defect => defect.message
  | distinguishedName defect => defect.message
  | keyNotRsa => "CA key must be an RSA private key"
  | extension defect => defect.message
  | issue defect => defect.message
  | time error => error.message
  | unknownEvaluation value => "unknown evaluation " ++ value.shown
  | unknownOutcome word => quote word ++ " is not a valid WriteOutcome"
  | markup defect => defect.message
  | external .missingKey report => quote report
  | external _ report => report
  | fetch id cause => "cannot read record " ++ quote id.text ++ ": " ++ cause.message
  | authorityMissing id => "CA record " ++ quote id.text ++ " does not exist"
  | authorityUnreadable id cause =>
    "cannot read CA record " ++ quote id.text ++ ": " ++ cause.message
  | authorityIncomplete id => "CA record " ++ quote id.text ++ " lacks 'ca.crt' or 'ca.key'"
  | authorityUnloadable id cause =>
    "cannot load CA from " ++ quote id.text ++ ": " ++ cause.message
  | authorityUnresolved cause => "cannot resolve certificate authority: " ++ cause.message
  | issuance dnsName cause =>
    "cannot generate certificate for " ++ quote dnsName ++ ": " ++ cause.message
  | write id cause => "cannot update certificate record " ++ quote id.text ++ ": " ++ cause.message

/-- The kind of engine failure that a failure is, if it is one. -/
def engineKind? : Failure → Option EngineKind
  | fetch _ _ => some .fetch
  | authorityMissing _ | authorityUnreadable _ _ | authorityIncomplete _
  | authorityUnloadable _ _ | authorityUnresolved _ => some .authority
  | issuance _ _ => some .issuance
  | write _ _ => some .write
  | external (.engine kind) _ => some kind
  | _ => none

/-- The failure that an engine failure results from. -/
def cause? : Failure → Option Failure
  | fetch _ cause => some cause
  | authorityMissing id => some (recordNotFound id)
  | authorityUnreadable _ cause => some cause
  | authorityUnloadable _ cause => some cause
  | authorityUnresolved cause => some cause
  | issuance _ cause => some cause
  | write _ cause => some cause
  | _ => none

/-- Whether a failure says that a record does not exist. -/
def isRecordNotFound : Failure → Bool
  | recordNotFound _ => true
  | _ => false

end Failure

/-- A change of the failure leaves a result alone. -/
@[simp] theorem mapError_ok {ε ε' α : Type} (f : ε → ε') (x : α) :
    (Except.ok x).mapError f = .ok x := rfl

@[simp] theorem mapError_error {ε ε' α : Type} (f : ε → ε') (e : ε) :
    (Except.error e : Except ε α).mapError f = .error (f e) := rfl

/-- A program that may fail. -/
abbrev Action (I : Interface) := ExceptT Failure (Program I)

namespace Action

variable {I J : Interface} {α : Type}

/-- The result of a computation without questions. -/
def ofExcept {ε : Type} (wrap : ε → Failure) (r : Except ε α) : Action I α :=
  ExceptT.mk (.done (r.mapError wrap))

/-- An action with its questions replaced by programs. -/
def expand (t : (q : I.Question) → Program J (I.Answer q)) (a : Action I α) : Action J α :=
  ExceptT.mk (a.run.expand t)

/-- An action among further questions, its own being the first ones. -/
def left (a : Action I α) : Action (I.sum J) α := ExceptT.mk (Program.left a.run)

/-- An action among further questions, its own being the second ones. -/
def right (a : Action J α) : Action (I.sum J) α := ExceptT.mk (Program.right a.run)

/-- The outcome of an action, whether it fails or not. -/
def outcome (a : Action I α) : Action I (Except Failure α) :=
  ExceptT.mk (a.run.bind fun r => .done (.ok r))

/-- An action that fails with another failure if it fails. -/
def mapFailure (f : Failure → Failure) (a : Action I α) : Action I α :=
  ExceptT.mk (a.run.bind fun r => .done (r.mapError f))

end Action

end CertKeeper
