import CertKeeper.Encoding.Der
import CertKeeper.Time.Iso

/-!
# Times in certificates

Instants in whole seconds of universal time: with two digits for the year from 1950 to 2049, with
four from 2050 on.
-/

namespace CertKeeper.X509

open Encoding Der Time

/-- A date and the second of the day, in universal time. -/
structure Stamp where
  date : Date
  seconds : Nat
  deriving DecidableEq, Repr

namespace Stamp

/-- The moment of a stamp; the year 0, which a stamp may have, has none. -/
def moment? (s : Stamp) : Except TimeError Moment :=
  if s.date.year = 0 then .error (.yearOutOfRange 0)
  else Moment.ofWall? ((s.date.toDays * 86400 + s.seconds) * 1000000) (some 0)

/-- The stamp of a moment of universal time; its fraction of a second is dropped. -/
def ofMoment (m : Moment) : Stamp := ⟨m.date, m.seconds % 86400⟩

/-- A number of two ASCII digits and the rest. -/
def readTwo? : Bytes → Option (Nat × Bytes)
  | a :: b :: rest =>
    if 0x30 ≤ a ∧ a ≤ 0x39 ∧ 0x30 ≤ b ∧ b ≤ 0x39 then
      some ((a.toNat - 0x30) * 10 + (b.toNat - 0x30), rest)
    else none
  | _ => none

/-- The stamp of a year and the digits of month, day, hour, minute and second, which a `Z` ends. -/
def readAfterYear? (year : Nat) (b : Bytes) : Option Stamp := do
  let (month, b) ← readTwo? b
  let (day, b) ← readTwo? b
  let (hour, b) ← readTwo? b
  let (minute, b) ← readTwo? b
  let (second, b) ← readTwo? b
  let date : Date := ⟨year, month, day⟩
  if b = [0x5a] ∧ date.isValid ∧ hour < 24 ∧ minute < 60 ∧ second < 60 then
    some ⟨date, (hour * 60 + minute) * 60 + second⟩
  else none

/-- The stamp that an element is. -/
def ofElement? (e : Element) : Option Stamp :=
  if e.tag = .utcTime then do
    let (year, b) ← readTwo? e.content
    readAfterYear? (if year < 50 then 2000 + year else 1900 + year) b
  else if e.tag = .generalizedTime then do
    let (century, b) ← readTwo? e.content
    let (year, b) ← readTwo? b
    readAfterYear? (century * 100 + year) b
  else none

/-- The digits of a stamp after its year. -/
def digitsAfterYear (s : Stamp) : List Char :=
  padded 2 s.date.month ++ padded 2 s.date.day ++ padded 2 (s.seconds / 3600)
    ++ padded 2 (s.seconds / 60 % 60) ++ padded 2 (s.seconds % 60)

/-- The element of a stamp. -/
def element (s : Stamp) : Element :=
  let write (year : List Char) : Bytes :=
    Bytes.ascii (String.ofList (year ++ s.digitsAfterYear ++ ['Z']))
  if s.date.year < 2050 then ⟨.utcTime, write (padded 2 (s.date.year % 100))⟩
  else ⟨.generalizedTime, write (padded 4 s.date.year)⟩

end Stamp

/-- The two ends of the time in which a certificate is valid. -/
structure Validity where
  notBefore : Stamp
  notAfter : Stamp
  deriving DecidableEq, Repr

namespace Validity

/-- The validity that an element is. -/
def ofElement? (e : Element) : Option Validity := do
  match ← e.sequence? with
  | [b, a] => some ⟨← Stamp.ofElement? b, ← Stamp.ofElement? a⟩
  | _ => none

/-- The element of a validity. -/
def element (v : Validity) : Element := Element.sequence [v.notBefore.element, v.notAfter.element]

end Validity

end CertKeeper.X509
