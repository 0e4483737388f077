import CertKeeper.Proofs.CalendarDays
import CertKeeper.Proofs.ElementForms
import CertKeeper.X509.Issue

/-!
# Times as they are written

The stamp of a moment from 1950 on is read again as it was written (`Stamp.ofElement?_element`), and
it denotes that moment without its fraction of a second (`Stamp.moment?_ofMoment`).
-/

namespace CertKeeper.X509

open Encoding Der Time Element

namespace Stamp

/-! ## Digits -/

/-- A number of at most two digits is written with two. -/
theorem padded_two : ∀ n < 100, padded 2 n = [Nat.digitChar (n / 10), Nat.digitChar (n % 10)] := by
  decide

/-- A number of four digits is written with those of its hundreds and those of the rest. -/
theorem padded_four {n : Nat} (hlow : 1000 ≤ n) (hhigh : n < 10000) :
    padded 4 n = padded 2 (n / 100) ++ padded 2 (n % 100) := by
  have hdigits : Nat.toDigits 10 n = [Nat.digitChar (n / 10 / 10 / 10),
      Nat.digitChar (n / 10 / 10 % 10), Nat.digitChar (n / 10 % 10), Nat.digitChar (n % 10)] := by
    rw [Nat.toDigits_of_base_le (by omega) (by omega),
      Nat.toDigits_of_base_le (by omega) (by omega),
      Nat.toDigits_of_base_le (by omega) (by omega), Nat.toDigits_of_lt_base (by omega)]
    rfl
  rw [padded_two _ (by omega), padded_two _ (by omega), padded, hdigits]
  have h1 : n / 10 / 10 = n / 100 := by omega
  have h2 : n / 10 % 10 = n % 100 / 10 := by omega
  have h3 : n % 10 = n % 100 % 10 := by omega
  rw [h1, h2, h3]
  rfl

/-- The octet of a character of ASCII. -/
def octetOf (c : Char) : UInt8 := UInt8.ofNat c.toNat

/-- The octet of a digit lies among those of digits. -/
theorem octetOf_digitChar : ∀ a < 10, 0x30 ≤ octetOf (Nat.digitChar a) ∧
    octetOf (Nat.digitChar a) ≤ 0x39 ∧ (octetOf (Nat.digitChar a)).toNat - 0x30 = a := by
  decide

/-- A number of at most two digits is read again. -/
theorem readTwo?_padded {n : Nat} (hn : n < 100) (rest : Bytes) :
    readTwo? ((padded 2 n).map octetOf ++ rest) = some (n, rest) := by
  obtain ⟨hlow, hhigh, hten⟩ := octetOf_digitChar (n / 10) (by omega)
  obtain ⟨hlow', hhigh', hone⟩ := octetOf_digitChar (n % 10) (by omega)
  rw [padded_two n hn, List.map_cons, List.map_singleton, List.cons_append, List.singleton_append,
    readTwo?, if_pos ⟨hlow, hhigh, hlow', hhigh'⟩, hten, hone, Nat.div_add_mod']

/-! ## Stamps -/

/-- A stamp that certificates can bear: a date of the calendar from 1950 to 9999 and a second of a
day. -/
structure InRange (s : Stamp) : Prop where
  year_ge : 1950 ≤ s.date.year
  year_le : s.date.year ≤ 9999
  valid : s.date.isValid
  seconds_lt : s.seconds < 86400

/-- The month and the day of a stamp in range have two digits at most. -/
theorem InRange.lt_hundred {s : Stamp} (hs : s.InRange) :
    s.date.month < 100 ∧ s.date.day < 100 := by
  have hvalid := hs.valid
  simp only [Date.isValid, Bool.and_eq_true, decide_eq_true_eq] at hvalid
  have hlength := Date.monthLength_le s.date.year s.date.month
  omega

/-- What stands after the year is read again. -/
theorem readAfterYear?_digits {s : Stamp} (hs : s.InRange) :
    readAfterYear? s.date.year ((s.digitsAfterYear ++ ['Z']).map octetOf) = some s := by
  have hmonth := hs.lt_hundred
  obtain ⟨⟨year, month, day⟩, seconds⟩ := s
  obtain ⟨_, _, hvalid, hseconds⟩ := hs
  dsimp only at hmonth hseconds hvalid ⊢
  unfold readAfterYear? digitsAfterYear
  dsimp only
  simp only [List.map_append, List.append_assoc]
  rw [readTwo?_padded hmonth.1]
  simp only [Option.bind_eq_bind, Option.bind_some]
  rw [readTwo?_padded hmonth.2]
  simp only [Option.bind_some]
  rw [readTwo?_padded (by omega)]
  simp only [Option.bind_some]
  rw [readTwo?_padded (by omega)]
  simp only [Option.bind_some]
  rw [readTwo?_padded (by omega)]
  simp only [Option.bind_some]
  have hend : [('Z' : Char)].map octetOf = [0x5a] := rfl
  rw [if_pos ⟨hend, hvalid, by omega, by omega, by omega⟩]
  have hsum : (seconds / 3600 * 60 + seconds / 60 % 60) * 60 + seconds % 60 = seconds := by omega
  rw [hsum]

/-- A stamp is read again. -/
theorem ofElement?_element {s : Stamp} (hs : s.InRange) : ofElement? s.element = some s := by
  have hlow := hs.year_ge
  have hhigh := hs.year_le
  have htext (year : List Char) :
      Bytes.ascii (String.ofList (year ++ s.digitsAfterYear ++ ['Z'])) =
        year.map octetOf ++ (s.digitsAfterYear ++ ['Z']).map octetOf := by
    rw [Bytes.ascii, String.toList_ofList, List.append_assoc, List.map_append]
    rfl
  unfold element
  dsimp only
  by_cases hshort : s.date.year < 2050
  · have hyear : (if s.date.year % 100 < 50 then 2000 + s.date.year % 100
        else 1900 + s.date.year % 100) = s.date.year := by
      split <;> omega
    rw [if_pos hshort, htext, ofElement?, if_pos rfl]
    dsimp only
    rw [readTwo?_padded (by omega)]
    simp only [Option.bind_eq_bind, Option.bind_some]
    rw [hyear, readAfterYear?_digits hs]
  · have hyear : s.date.year / 100 * 100 + s.date.year % 100 = s.date.year := by omega
    have htag : Tag.generalizedTime ≠ Tag.utcTime := by decide
    rw [if_neg hshort, htext, ofElement?, if_neg htag, if_pos rfl]
    dsimp only
    rw [padded_four (by omega) (by omega), List.map_append, List.append_assoc,
      readTwo?_padded (by omega)]
    simp only [Option.bind_eq_bind, Option.bind_some]
    rw [readTwo?_padded (by omega)]
    simp only [Option.bind_some]
    rw [hyear, readAfterYear?_digits hs]

/-! ## Stamps of moments -/

/-- The stamp of a moment from 1950 on is one that certificates can bear. -/
theorem inRange_ofMoment {m : Moment} (hm : earliestInstant ≤ m.wall) : (ofMoment m).InRange := by
  have hearliest : earliestInstant = 711857 * 86400000000 := by decide
  have hlast := m.wall_lt
  have hdays : m.seconds / 86400 < 3652059 ∧ 711857 ≤ m.seconds / 86400 := by
    unfold Moment.seconds
    omega
  refine ⟨?_, ?_, Date.isValid_ofDays _, Nat.mod_lt _ (by omega)⟩
  · apply Date.le_year_ofDays_iff.mpr
    have hstart : daysBeforeYear 1950 = 711857 := by decide
    omega
  · have hend : daysBeforeYear 10000 = 3652059 := by decide
    have hnot : ¬ 10000 ≤ (Date.ofDays (m.seconds / 86400)).year := by
      rw [Date.le_year_ofDays_iff]
      omega
    change (Date.ofDays (m.seconds / 86400)).year ≤ 9999
    omega

/-- The stamp of a moment denotes it without its fraction of a second, in universal time. -/
theorem moment?_ofMoment (m : Moment) :
    ∃ m', (ofMoment m).moment? = .ok m' ∧ m'.offset = some 0 ∧
      m'.wall = m.wall / 1000000 * 1000000 := by
  have hyear : (ofMoment m).date.year ≠ 0 := by
    have hpos : 1 ≤ (Date.ofDays (m.seconds / 86400)).year :=
      Date.le_year_ofDays_iff.mpr (Nat.zero_le _)
    exact Nat.ne_of_gt hpos
  have hdays : (ofMoment m).date.toDays = m.seconds / 86400 := Date.toDays_ofDays _
  have hseconds : (ofMoment m).seconds = m.seconds % 86400 := rfl
  have hlast := m.wall_lt
  have hwhole : (((m.seconds / 86400 : Nat) : Int) * 86400 + ((m.seconds % 86400 : Nat) : Int)) *
      1000000 = ((m.wall / 1000000 * 1000000 : Nat) : Int) := by
    unfold Moment.seconds
    omega
  have hrange : (0 : Int) ≤ ((m.wall / 1000000 * 1000000 : Nat) : Int) ∧
      ((m.wall / 1000000 * 1000000 : Nat) : Int) < 3652059 * 86400000000 := by omega
  refine ⟨⟨m.wall / 1000000 * 1000000, some 0, by omega⟩, ?_, rfl, rfl⟩
  rw [moment?, if_neg hyear, hdays, hseconds, hwhole, Moment.ofWall?, dif_pos hrange]
  rfl

end Stamp

/-- The ends of a validity are read again. -/
theorem Validity.ofElement?_element {v : Validity} (hfits : v.element.content.length < 2 ^ 32)
    (hb : v.notBefore.InRange) (ha : v.notAfter.InRange) :
    Validity.ofElement? v.element = some v := by
  have htag (s : Stamp) : s.element.tag.number < 31 := by
    unfold Stamp.element
    dsimp only
    split <;> simp
  have hitems : v.element.sequence? = some [v.notBefore.element, v.notAfter.element] :=
    sequence?_sequence hfits (by simp [htag])
  rw [Validity.ofElement?, hitems]
  simp only [Option.bind_eq_bind, Option.bind_some]
  rw [Stamp.ofElement?_element hb, Stamp.ofElement?_element ha]
  rfl

end CertKeeper.X509
