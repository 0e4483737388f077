/-!
# Failures of time arithmetic
-/

namespace CertKeeper

/-- Why an operation on times has no result. -/
inductive TimeError where
  /-- The result lies outside the years 1 to 9999. -/
  | dateOutOfRange
  /-- A calendar year that no time can have. -/
  | yearOutOfRange (year : Nat)
  /-- A span of more days than a span can have. -/
  | tooManyDays (days : Int)
  /-- A span whose number of days does not even fit into a machine word. -/
  | daysOverflow
  /-- A time with an offset was compared with one without. -/
  | mixedComparison
  /-- A time with an offset was subtracted from one without, or the other way round. -/
  | mixedSubtraction
  deriving DecidableEq, Repr

/-- The wording of a failure of time arithmetic. -/
def TimeError.message : TimeError → String
  | .dateOutOfRange => "date value out of range"
  | .yearOutOfRange year => "year " ++ toString year ++ " is out of range"
  | .tooManyDays days => "days=" ++ toString days ++ "; must have magnitude <= 999999999"
  | .daysOverflow => "Python int too large to convert to C int"
  | .mixedComparison => "can't compare offset-naive and offset-aware datetimes"
  | .mixedSubtraction => "can't subtract offset-naive and offset-aware datetimes"

end CertKeeper
