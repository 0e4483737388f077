import CertKeeper.Evaluation

/-!
# Decisions

What is done about a record, and after which time it must be looked at again: a new pair after its
lifetime, a kept one when it expires.
-/

namespace CertKeeper

/-- What is done about a record. -/
inductive Decision where
  /-- There is no pair; one with a lifetime is issued. -/
  | issue (reason : String) (lifetime : Span)
  /-- The pair cannot be used; it is removed and one with a lifetime is issued. -/
  | invalidate (reason : String) (lifetime : Span)
  /-- The pair stays; it expires after a time. -/
  | keep (remaining : Span)
  deriving DecidableEq, Repr

namespace Decision

/-- The lifetime of issued pairs where nothing else is said: six months of thirty days. -/
def defaultLifetime : Span := ⟨6 * 30 * 24 * 3600000000⟩

/-- The word for a decision. -/
def name : Decision → String
  | issue _ _ => "Issue"
  | invalidate _ _ => "Invalidate"
  | keep _ => "Keep"

/-- Why the record is changed, if it is. -/
def reason? : Decision → Option String
  | issue reason _ => some reason
  | invalidate reason _ => some reason
  | keep _ => none

/-- The time after which the record must be looked at again. -/
def requeueAfter : Decision → Span
  | issue _ lifetime => lifetime
  | invalidate _ lifetime => lifetime
  | keep remaining => remaining

end Decision

/-- What is done about a record at a moment. -/
def Evaluation.decide (e : Evaluation) (lifetime : Span) (now : Moment) :
    Except TimeError Decision :=
  match e with
  | .absent => .ok (.issue "missing" lifetime)
  | .invalid defect => .ok (.invalidate defect.reason lifetime)
  | .valid notAfter => (notAfter.sub? now).map .keep

end CertKeeper
