/-!
# Calendar dates

Dates of the proleptic Gregorian calendar and their numbers of days since 1 January of year 1.
-/

namespace CertKeeper.Time

/-- A year, a month from 1 and a day of the month from 1. -/
structure Date where
  year : Nat
  month : Nat
  day : Nat
  deriving DecidableEq, Repr

/-- Whether a year has a 29 February. -/
def isLeapYear (y : Nat) : Bool := y % 4 == 0 && (y % 100 != 0 || y % 400 == 0)

/-- The lengths of the months of a year. -/
def monthLengths (y : Nat) : List Nat :=
  [31, if isLeapYear y then 29 else 28, 31, 30, 31, 30, 31, 31, 30, 31, 30, 31]

/-- The length of a month, zero if there is no such month. -/
def monthLength (y m : Nat) : Nat :=
  match m with
  | 0 => 0
  | k + 1 => (monthLengths y).getD k 0

/-- The number of days in the years from 1 to before the given one. -/
def daysBeforeYear (y : Nat) : Nat := 365 * (y - 1) + (y - 1) / 4 - (y - 1) / 100 + (y - 1) / 400

namespace Date

/-- Whether the calendar has the date. -/
def isValid (d : Date) : Bool :=
  1 ≤ d.month && d.month ≤ 12 && 1 ≤ d.day && d.day ≤ monthLength d.year d.month

/-- The number of days from 1 January of year 1 to the date. -/
def toDays (d : Date) : Nat :=
  daysBeforeYear d.year + ((monthLengths d.year).take (d.month - 1)).foldl (· + ·) 0 + (d.day - 1)

/-- The month and the day in it of a day that is counted from zero, given the months' lengths. -/
def ofDayOfYear (month n : Nat) : List Nat → Nat × Nat
  | [] => (month, n + 1)
  | len :: rest => if n < len then (month, n + 1) else ofDayOfYear (month + 1) (n - len) rest

/-- The date that follows 1 January of year 1 by a number of days: cycles of four hundred years
first, then centuries, cycles of four years and single years, the last of each being longer. -/
def ofDays (n : Nat) : Date :=
  let (n400, r400) := (n / 146097, n % 146097)
  let n100 := min (r400 / 36524) 3
  let r100 := r400 - n100 * 36524
  let (n4, r4) := (r100 / 1461, r100 % 1461)
  let n1 := min (r4 / 365) 3
  let year := n400 * 400 + n100 * 100 + n4 * 4 + n1 + 1
  let (month, day) := ofDayOfYear 1 (r4 - n1 * 365) (monthLengths year)
  ⟨year, month, day⟩

end Date

/-- A number in decimal with leading zeros up to the given width. -/
def padded (width n : Nat) : List Char :=
  let digits := Nat.toDigits 10 n
  List.replicate (width - digits.length) '0' ++ digits

/-- A date as year, month and day with hyphens. -/
def Date.toChars (d : Date) : List Char :=
  padded 4 d.year ++ '-' :: padded 2 d.month ++ '-' :: padded 2 d.day

end CertKeeper.Time
