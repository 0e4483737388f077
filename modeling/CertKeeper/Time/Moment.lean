import CertKeeper.Time.Span

/-!
# Moments

What a clock on a wall shows, together with the clock's distance from universal time if it is
known. Moments of the two kinds are never compared with each other. Two moments with an offset
compare by the instant they denote (`Moment.compare?_eq_ok`).

A clock keeps its distance from universal time. So a clock of a zone whose distance changes in the
course of the year is one of these from a moment to a later one just if the distance is the same at
both, and what is said here of a moment and of one a span later is said of such clocks only.
-/

namespace CertKeeper

open Time

/-- A reading of a clock in the years 1 to 9999. -/
structure Moment where
  /-- Microseconds since the start of year 1 on the clock's own dial. -/
  wall : Nat
  /-- Microseconds by which the clock is ahead of universal time, if that is known; it is the same
  at all times. -/
  offset : Option Int
  /-- The dial ends with year 9999. -/
  wall_lt : wall < 3652059 * 86400000000
  deriving DecidableEq

namespace Moment

/-- The reading with the given dial position, if the dial has it. -/
def ofWall? (wall : Int) (offset : Option Int) : Except TimeError Moment :=
  if h : 0 ≤ wall ∧ wall < 3652059 * 86400000000 then
    .ok ⟨wall.toNat, offset, by omega⟩
  else .error .dateOutOfRange

/-- The start of year 1 in universal time. -/
def first : Moment := ⟨0, some 0, by decide⟩

instance : Inhabited Moment := ⟨first⟩

/-- The microseconds from the start of year 1 in universal time; a clock without an offset is taken
to show universal time. -/
def instant (m : Moment) : Int := m.wall - m.offset.getD 0

/-- Whether the distance from universal time is known. -/
def isAware (m : Moment) : Bool := m.offset.isSome

/-- The order of two readings in time. -/
def compare? (a b : Moment) : Except TimeError Ordering :=
  if a.isAware = b.isAware then .ok (compare a.instant b.instant) else .error .mixedComparison

/-- Whether the first reading is earlier than the second one. -/
def lt? (a b : Moment) : Except TimeError Bool := (compare? a b).map (· == .lt)

/-- Whether the first reading is earlier than the second one or at the same time. -/
def le? (a b : Moment) : Except TimeError Bool := (compare? a b).map (· != .gt)

/-- The span from the second reading to the first one. -/
def sub? (a b : Moment) : Except TimeError Span :=
  if a.isAware = b.isAware then .ok ⟨a.instant - b.instant⟩ else .error .mixedSubtraction

/-- The reading of the same clock after a span. The clock's distance from universal time is still
the same then. -/
def add? (m : Moment) (s : Span) : Except TimeError Moment := ofWall? (m.wall + s.micros) m.offset

/-- The reading of a clock on universal time; a clock without an offset counts as one. -/
def toUniversal? (m : Moment) : Except TimeError Moment := ofWall? m.instant (some 0)

/-- Readings with an offset compare by the instants they denote. -/
theorem compare?_eq_ok (a b : Moment) (ha : a.isAware) (hb : b.isAware) :
    compare? a b = .ok (compare a.instant b.instant) := by
  simp [compare?, ha, hb]

/-- The whole seconds of the dial position. -/
def seconds (m : Moment) : Nat := m.wall / 1000000

/-- The date that the clock shows. -/
def date (m : Moment) : Date := Date.ofDays (m.seconds / 86400)

/-- Hours, minutes and seconds with colons, for a number of seconds in a day. -/
def clockChars (seconds : Nat) : List Char :=
  padded 2 (seconds / 3600) ++ ':' :: padded 2 (seconds / 60 % 60) ++ ':' :: padded 2 (seconds % 60)

/-- The distance from universal time: sign, hours and minutes, then seconds and a fraction if they
are not zero. -/
def offsetChars (offset : Int) : List Char :=
  let sign := if offset < 0 then '-' else '+'
  let seconds := offset.natAbs / 1000000
  let fraction := offset.natAbs % 1000000
  let tail :=
    if seconds % 60 = 0 ∧ fraction = 0 then []
    else ':' :: padded 2 (seconds % 60) ++ Span.fractionChars fraction
  sign :: padded 2 (seconds / 3600) ++ ':' :: padded 2 (seconds / 60 % 60) ++ tail

/-- The text of a reading: date, `T`, time of day, a fraction and an offset if there are any. -/
def text (m : Moment) : String :=
  String.ofList (m.date.toChars ++ 'T' :: clockChars (m.seconds % 86400)
    ++ Span.fractionChars (m.wall % 1000000)
    ++ match m.offset with
      | none => []
      | some offset => offsetChars offset)

end Moment

end CertKeeper
