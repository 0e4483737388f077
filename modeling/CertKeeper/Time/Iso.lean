import CertKeeper.Text.Number
import CertKeeper.Time.Moment

/-!
# Reading moments

The ISO 8601 form of a reading: date, time of day to the minute or finer, optional offset.
-/

namespace CertKeeper.Moment

open Time Text

/-- A number of exactly the given count of digits and the rest of the text. -/
def readFixed? (width : Nat) (cs : List Char) : Option (Nat × List Char) :=
  let digits := cs.take width
  if digits.length = width ∧ digits.all Char.isDigit then
    some (digitsValue digits, cs.drop width)
  else none

/-- The rest of a text after a given character. -/
def readMark? (mark : Char) : List Char → Option (List Char)
  | c :: rest => if c = mark then some rest else none
  | [] => none

/-- The microseconds of a fraction that may follow; digits after the sixth are dropped. -/
def readFraction (cs : List Char) : Nat × List Char :=
  match cs with
  | '.' :: rest =>
    let digits := rest.takeWhile Char.isDigit
    let six := (digits ++ List.replicate 6 '0').take 6
    (digitsValue six, rest.drop digits.length)
  | _ => (0, cs)

/-- Microseconds of a time of day with optional seconds and fraction, and the rest of the text. -/
def readClock? (cs : List Char) : Option (Nat × List Char) := do
  let (hours, cs) ← readFixed? 2 cs
  let cs ← readMark? ':' cs
  let (minutes, cs) ← readFixed? 2 cs
  let (seconds, cs) :=
    match (readMark? ':' cs).bind (readFixed? 2) with
    | some r => r
    | none => (0, cs)
  let (micros, cs) := readFraction cs
  if hours < 24 ∧ minutes < 60 ∧ seconds < 60 then
    some (((hours * 60 + minutes) * 60 + seconds) * 1000000 + micros, cs)
  else none

/-- The offset at the end of a text: none, `Z`, or a signed time of day. -/
def readOffset? : List Char → Option (Option Int)
  | [] => some none
  | ['Z'] => some (some 0)
  | '+' :: cs =>
    match readClock? cs with
    | some (n, []) => some (some n)
    | _ => none
  | '-' :: cs =>
    match readClock? cs with
    | some (n, []) => some (some (-(n : Int)))
    | _ => none
  | _ => none

/-- The reading that a text denotes. -/
def ofText? (s : String) : Option Moment := do
  let (year, cs) ← readFixed? 4 s.toList
  let cs ← readMark? '-' cs
  let (month, cs) ← readFixed? 2 cs
  let cs ← readMark? '-' cs
  let (day, cs) ← readFixed? 2 cs
  let date : Date := ⟨year, month, day⟩
  if year = 0 ∨ !date.isValid then none
  else
    let cs ← (readMark? 'T' cs).orElse fun _ => readMark? ' ' cs
    let (micros, cs) ← readClock? cs
    let offset ← readOffset? cs
    (ofWall? (date.toDays * 86400000000 + micros) offset).toOption

end CertKeeper.Moment
