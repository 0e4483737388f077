import CertKeeper.Json.Reader
import CertKeeper.Json.Writer
import CertKeeper.Proofs.CharacterOctets

/-!
# Escaped text

A text of a document is read again as it was written, whether or not characters outside ASCII are
escaped (`Json.readText_escaped`). A character above the first plane is escaped as two units, so the
reading of one unit has to know what follows it.
-/

namespace CertKeeper.Json

open Text

/-! ## Units -/

/-- A hexadecimal digit has the value that it was made from. -/
theorem hexValue?_digitChar : ∀ d < 16, hexValue? (Nat.digitChar d) = some d := by decide

/-- A number below 65536 is written with four hexadecimal digits. -/
theorem hex_four {n : Nat} (hn : n < 0x10000) :
    hex 4 n = [Nat.digitChar (n / 0x1000), Nat.digitChar (n / 0x100 % 16),
      Nat.digitChar (n / 0x10 % 16), Nat.digitChar (n % 16)] := by
  unfold hex
  by_cases h1 : n < 0x10
  · have e1 : n / 0x1000 = 0 := by omega
    have e2 : n / 0x100 % 16 = 0 := by omega
    have e3 : n / 0x10 % 16 = 0 := by omega
    rw [Nat.toDigits_of_lt_base h1, e1, e2, e3, Nat.mod_eq_of_lt h1]
    rfl
  rw [Nat.toDigits_of_base_le (by omega) (by omega)]
  by_cases h2 : n < 0x100
  · have e1 : n / 0x1000 = 0 := by omega
    have e2 : n / 0x100 % 16 = 0 := by omega
    have e3 : n / 0x10 % 16 = n / 16 := by omega
    rw [Nat.toDigits_of_lt_base (by omega), e1, e2, e3]
    rfl
  rw [Nat.toDigits_of_base_le (by omega) (by omega)]
  by_cases h3 : n < 0x1000
  · have e1 : n / 0x1000 = 0 := by omega
    have e2 : n / 0x100 % 16 = n / 16 / 16 := by omega
    rw [Nat.toDigits_of_lt_base (by omega), e1, e2]
    rfl
  · have e1 : n / 0x1000 = n / 16 / 16 / 16 := by omega
    have e2 : n / 0x100 % 16 = n / 16 / 16 % 16 := by omega
    rw [Nat.toDigits_of_base_le (by omega) (by omega), Nat.toDigits_of_lt_base (by omega), e1, e2]
    rfl

/-- The four digits of a unit are read as its number. -/
theorem unit?_digits {n : Nat} (hn : n < 0x10000) :
    unit? (Nat.digitChar (n / 0x1000)) (Nat.digitChar (n / 0x100 % 16))
      (Nat.digitChar (n / 0x10 % 16)) (Nat.digitChar (n % 16)) = some n := by
  have hvalue : ((n / 0x1000 * 16 + n / 0x100 % 16) * 16 + n / 0x10 % 16) * 16 + n % 16 = n := by
    omega
  rw [unit?, hexValue?_digitChar _ (by omega), hexValue?_digitChar _ (by omega),
    hexValue?_digitChar _ (by omega), hexValue?_digitChar _ (by omega)]
  exact congrArg some hvalue

/-! ## Single characters -/

/-- A text that begins with a character is read if the rest of it is. -/
def thenRead (c : Char) (rest : List Char) : Option (List Char × List Char) :=
  (readText rest).map fun r => (c :: r.1, r.2)

section Characters

variable {a b c d : Char} (rest : List Char)

/-- A unit that is no half of a pair is read by itself, even where another unit follows. -/
private theorem readText_unit {n : Nat} (h : unit? a b c d = some n)
    (hn : n < 0xD800 ∨ 0xE000 ≤ n) :
    readText ('\\' :: 'u' :: a :: b :: c :: d :: rest) = thenRead (Char.ofNat n) rest := by
  have h1 : ¬ (0xD800 ≤ n ∧ n < 0xDC00) := by omega
  have h2 : ¬ (0xDC00 ≤ n ∧ n < 0xE000) := by omega
  have h3 : ¬ (0xD800 ≤ n ∧ n < 0xE000) := by omega
  conv_lhs => unfold readText
  split
  · next he => cases he
  · next he =>
    cases he
    simp only [h, h1, h2, if_false]
    rfl
  · next he =>
    cases he
    simp only [h, h3, if_false]
    rfl
  · next hother he =>
    cases he
    exact (hother a b c d rest rfl rfl).elim
  · next hother he =>
    cases he
    exact (hother 'u' (a :: b :: c :: d :: rest) rfl rfl).elim
  · next he => cases he

/-- The two halves of a pair are read together. -/
private theorem readText_pair {e f g h : Char} {high low : Nat} (hhigh : unit? a b c d = some high)
    (hlow : unit? e f g h = some low) (h1 : 0xD800 ≤ high ∧ high < 0xDC00)
    (h2 : 0xDC00 ≤ low ∧ low < 0xE000) :
    readText ('\\' :: 'u' :: a :: b :: c :: d :: '\\' :: 'u' :: e :: f :: g :: h :: rest) =
      thenRead (joinSurrogates high low) rest := by
  conv_lhs => unfold readText
  simp only [hhigh, hlow, if_pos h1, if_pos h2]
  rfl

/-- A character with a letter of its own is read from that letter. -/
theorem readText_letter {letter : Char} (h : escaped? letter = some c) :
    readText ('\\' :: letter :: rest) = thenRead c rest := by
  have hu : letter ≠ 'u' := by
    rintro rfl
    cases h
  conv_lhs => unfold readText
  split
  · next he => cases he
  · next he =>
    cases he
    exact absurd rfl hu
  · next he =>
    cases he
    exact absurd rfl hu
  · next he =>
    cases he
    simp only [h]
    rfl
  · next hother he =>
    cases he
    exact (hother letter rest rfl rfl).elim
  · next he => cases he

/-- Any other character that is no control character stands for itself. -/
private theorem readText_plain (hquote : c ≠ '"') (hback : c ≠ '\\') (hc : 0x20 ≤ c.toNat) :
    readText (c :: rest) = thenRead c rest := by
  conv_lhs => unfold readText
  split
  · next he =>
    cases he
    exact absurd rfl hquote
  · next he =>
    cases he
    exact absurd rfl hback
  · next he =>
    cases he
    exact absurd rfl hback
  · next he =>
    cases he
    exact absurd rfl hback
  · next he =>
    cases he
    rw [if_neg (not_lt.mpr hc)]
    rfl
  · next he => cases he

end Characters

/-- A character of the first plane that is written as a unit is read again. -/
theorem readText_unitChars {c : Char} (hc : c.toNat < 0x10000) (rest : List Char) :
    readText (unitChars c.toNat ++ rest) = thenRead c rest := by
  have hvalid := Utf8.toNat_lt_or c
  rw [unitChars, hex_four hc]
  simp only [List.cons_append, List.nil_append]
  rw [readText_unit rest (unit?_digits hc) (by omega), Char.ofNat_toNat]

/-- A character above the first plane that is written as a pair is read again. -/
private theorem readText_unitChars_pair {c : Char} (hc : 0x10000 ≤ c.toNat) (rest : List Char) :
    readText (unitChars (0xD800 + (c.toNat - 0x10000) / 0x400) ++
      unitChars (0xDC00 + (c.toNat - 0x10000) % 0x400) ++ rest) = thenRead c rest := by
  have hvalid := Utf8.toNat_lt_or c
  have hjoin : joinSurrogates (0xD800 + (c.toNat - 0x10000) / 0x400)
      (0xDC00 + (c.toNat - 0x10000) % 0x400) = c := by
    have hvalue : 0x10000 + (0xD800 + (c.toNat - 0x10000) / 0x400 - 0xD800) * 0x400 +
        (0xDC00 + (c.toNat - 0x10000) % 0x400 - 0xDC00) = c.toNat := by omega
    rw [joinSurrogates, hvalue, Char.ofNat_toNat]
  rw [unitChars, unitChars, hex_four (by omega), hex_four (by omega)]
  simp only [List.cons_append, List.nil_append]
  rw [readText_pair rest (unit?_digits (by omega)) (unit?_digits (by omega)) (by omega) (by omega),
    hjoin]

/-- What is written for a character is read as that character, whatever follows it. -/
private theorem readText_escape (ascii : Bool) (c : Char) (rest : List Char) :
    readText (escape ascii c ++ rest) = thenRead c rest := by
  unfold escape
  split
  · next h => exact readText_letter rest (by rw [h]; rfl)
  split
  · next h => exact readText_letter rest (by rw [h]; rfl)
  split
  · next h => exact readText_letter rest (by rw [h]; rfl)
  split
  · next h => exact readText_letter rest (by rw [h]; rfl)
  split
  · next h => exact readText_letter rest (by rw [h]; rfl)
  split
  · next h => exact readText_letter rest (by rw [h]; rfl)
  split
  · next h => exact readText_letter rest (by rw [h]; rfl)
  split
  · exact readText_unitChars (by omega) rest
  split
  · next hquote hback _ _ _ _ _ hcontrol _ =>
    exact readText_plain rest hquote hback (not_lt.mp hcontrol)
  split
  · next h => exact readText_unitChars h rest
  · next h => exact readText_unitChars_pair (not_lt.mp h) rest

/-- A text is read again as it was written, up to its closing mark. -/
theorem readText_escaped (ascii : Bool) (cs rest : List Char) :
    readText (cs.flatMap (escape ascii) ++ '"' :: rest) = some (cs, rest) := by
  induction cs with
  | nil => rfl
  | cons c cs ih =>
    rw [List.flatMap_cons, List.append_assoc, readText_escape, thenRead, ih]
    rfl

end CertKeeper.Json
