/-!
# Complaints about given values
-/

namespace CertKeeper

/-- What is wrong with a value. -/
inductive ComplaintKind where
  /-- The value is not there. -/
  | missing
  /-- The value is no text. -/
  | noText
  /-- The value is no map. -/
  | noMap
  /-- The value is not of the shape of the whole document. -/
  | noDocument
  /-- The text is no document at all. -/
  | invalidDocument
  /-- The value is of a type that is never a whole number. -/
  | noNumber
  /-- The text is no whole number. -/
  | unreadableNumber
  /-- The number is too large to be read. -/
  | hugeNumber
  /-- The number has a fraction. -/
  | fraction
  /-- The number is not finite. -/
  | notFinite
  /-- The value is a number that is not allowed, for the given reason. -/
  | notAllowed (reason : String)
  deriving DecidableEq, Repr

/-- A complaint and the path to the value that it is about. -/
structure Complaint where
  place : List String
  kind : ComplaintKind
  deriving DecidableEq, Repr

/-- The text that stands for printed complaints. -/
def complaintsText : String := "<pydantic>"

end CertKeeper
