import CertKeeper.Time.Calendar
import CertKeeper.Time.Error

/-!
# Spans of time

Signed spans in whole microseconds. Their text counts whole days toward the past and the rest of
the day toward the future, so that a negative span has a negative number of days only.
-/

namespace CertKeeper

open Time

/-- A signed span of time. -/
structure Span where
  /-- The length in microseconds. -/
  micros : Int
  deriving DecidableEq, Repr

namespace Span

/-- The microseconds of a day. -/
def microsPerDay : Int := 86400000000

/-- The microseconds of an hour. -/
def microsPerHour : Int := 3600000000

/-- The span of a number of microseconds, if its days are few enough. -/
def ofMicros? (micros : Int) : Except TimeError Span :=
  let days := Int.fdiv micros microsPerDay
  if days < -2147483648 ∨ 2147483647 < days then .error .daysOverflow
  else if days < -999999999 ∨ 999999999 < days then .error (.tooManyDays days)
  else .ok ⟨micros⟩

/-- The span of a number of hours. -/
def ofHours? (hours : Int) : Except TimeError Span := ofMicros? (hours * microsPerHour)

/-- The span of a number of days. -/
def ofDays? (days : Int) : Except TimeError Span := ofMicros? (days * microsPerDay)

/-- The fraction of a second, with six digits, if there is one. -/
def fractionChars (micros : Nat) : List Char :=
  if micros = 0 then [] else '.' :: padded 6 micros

/-- The text of a span: its days, if any, then hours, minutes, seconds and a fraction. -/
def text (s : Span) : String :=
  let days := Int.fdiv s.micros microsPerDay
  let rest := (Int.fmod s.micros microsPerDay).toNat
  let seconds := rest / 1000000
  let dayPart :=
    if days = 0 then ""
    else toString days ++ (if days = 1 ∨ days = -1 then " day, " else " days, ")
  dayPart ++ toString (seconds / 3600) ++ String.ofList
    (':' :: padded 2 (seconds / 60 % 60) ++ ':' :: padded 2 (seconds % 60)
      ++ fractionChars (rest % 1000000))

end Span

end CertKeeper
