import CertKeeper.Proofs.DocumentText
import CertKeeper.Settings.Basic
import Mathlib.Data.List.TakeWhile

/-!
# Numbers in settings

The decimal text of a whole number is read as that number (`Settings.readNumber_toString`). A text
that is read at all has a sign perhaps, digits, among which underscores may stand, and perhaps a
point with zeros behind it, and it is read as the number that its digits denote
(`Settings.standsFor_of_readNumber`).
-/

namespace CertKeeper

namespace Text

variable {cs : List Char} {n : Int}

/-! ## The decimal text of a number -/

/-- A character of the decimal text of a number. -/
def IsDecimal (c : Char) : Prop := c.isDigit = true ∨ c = '-'

private theorem ne_of_isDecimal {c d : Char} (hc : IsDecimal c) (hd : d.isDigit = false)
    (hminus : d ≠ '-') : c ≠ d := by
  rintro rfl
  rcases hc with hc | hc
  · rw [hc] at hd
    cases hd
  · exact hminus hc

private theorem isSpace_of_isDecimal {c : Char} (hc : IsDecimal c) : isSpace c = false := by
  rcases hc with hc | rfl
  · rw [Char.isDigit, Bool.and_eq_true, decide_eq_true_eq, decide_eq_true_eq] at hc
    have hlow : 48 ≤ c.toNat := UInt32.le_iff_toNat_le.mp hc.1
    have hhigh : c.toNat ≤ 57 := UInt32.le_iff_toNat_le.mp hc.2
    simp only [isSpace, spaceRanges, List.any_cons, List.any_nil, Bool.or_false]
    simp
    omega
  · decide

private theorem trim_of_forall {p : Char → Bool} (h : ∀ c ∈ cs, p c = false) : trim p cs = cs := by
  have hdrop {l : List Char} (hl : ∀ c ∈ l, p c = false) : l.dropWhile p = l := by
    cases l with
    | nil => rfl
    | cons c l => exact List.dropWhile_cons_of_neg (by simp [hl c])
  rw [trim, hdrop h, hdrop fun c hc => h c (List.mem_reverse.mp hc), List.reverse_reverse]

private theorem dropZeroFraction_of_isDecimal (h : ∀ c ∈ cs, IsDecimal c) :
    dropZeroFraction cs = cs := by
  have hall : cs.dropWhile (· ≠ '.') = [] := by
    refine List.dropWhile_eq_nil_iff.mpr fun c hc => ?_
    exact decide_eq_true (ne_of_isDecimal (h c hc) rfl (by decide))
  rw [dropZeroFraction, hall]

private theorem dropUnderscores?_of_isDecimal (h : ∀ c ∈ cs, IsDecimal c) :
    dropUnderscores? cs = some cs := by
  have hne (c : Char) (hc : c ∈ cs) : c ≠ '_' := ne_of_isDecimal (h c hc) rfl (by decide)
  have hhead : cs.head? ≠ some '_' := fun hc => hne _ (List.mem_of_head? hc) rfl
  have hlast : cs.getLast? ≠ some '_' := fun hc => hne _ (List.mem_of_getLast? hc) rfl
  have hlone : (cs.zip (cs.drop 1)).all fun p => !(p.1 = '_' && p.2 = '_') := by
    rw [List.all_eq_true]
    intro p hp
    simp [hne p.1 (List.of_mem_zip hp).1]
  have hfilter : cs.filter (· ≠ '_') = cs :=
    List.filter_eq_self.mpr fun c hc => decide_eq_true (hne c hc)
  rw [dropUnderscores?]
  dsimp only
  rw [if_pos ⟨hhead, hlast, hlone⟩, hfilter]

private theorem dropPlus?_of_head {c : Char} {rest : List Char} (hc : IsDecimal c) :
    dropPlus? (c :: rest) = some (c :: rest) := by
  have hplus : c ≠ '+' := ne_of_isDecimal hc rfl (by decide)
  rw [dropPlus?.eq_def]
  split
  · next heq => exact absurd (List.cons.inj heq).1 hplus
  · next heq => exact absurd (List.cons.inj heq).1 hplus
  · rfl

private theorem dropLeadingZeros?_of_head {c : Char} {rest : List Char} (hc : IsDecimal c)
    (hzero : c ≠ '0' ∨ rest = []) : dropLeadingZeros? (c :: rest) = some (c :: rest) := by
  by_cases h : c = '0'
  · obtain rfl := hzero.resolve_left (not_not_intro h)
    subst h
    rfl
  · rw [dropLeadingZeros?.eq_def]
    split
    · next heq => exact absurd (List.cons.inj heq).1 h
    · next heq =>
      cases heq
      exact if_pos hc
    · next heq => cases heq

/-- The digits of a number denote it. -/
theorem readAscii?_toDigits (n : Nat) :
    readPlain?.readAscii? (Nat.toDigits 10 n) = some n := by
  have hvalue : digitsValue (Nat.toDigits 10 n) = n := Nat.ofDigitChars_ten_toDigits
  have hdigits : (Nat.toDigits 10 n).all Char.isDigit = true := List.all_eq_true.mpr fun c hc =>
    Nat.isDigit_of_mem_toDigits (by decide) (by decide) hc
  rw [readPlain?.readAscii?, if_pos ⟨by simp, hdigits⟩, hvalue]

private theorem readPlain?_toDigits (n : Nat) :
    readPlain? (Nat.toDigits 10 n) = some (n : Int) := by
  rw [readPlain?.eq_def]
  have hminus (rest : List Char) : Nat.toDigits 10 n ≠ '-' :: rest := fun h =>
    absurd (Nat.isDigit_of_mem_toDigits (by decide) (by decide) (h ▸ List.mem_cons_self))
      (by decide)
  split
  · next heq => exact absurd heq (hminus _)
  · next heq => exact absurd heq (hminus _)
  · rw [readAscii?_toDigits]
    rfl

private theorem readPlain?_minus_toDigits {n : Nat} (hn : 0 < n) :
    readPlain? ('-' :: Nat.toDigits 10 n) = some (-(n : Int)) := by
  rw [readPlain?.eq_def]
  split
  · next heq =>
    rw [List.cons.injEq] at heq
    exact absurd (congrArg List.head? heq.2) (Json.head?_toDigits_ne hn)
  · next heq =>
    cases heq
    rw [readAscii?_toDigits]
    rfl
  · next hother => exact absurd rfl (hother _)

/-- The decimal text of a number is read as the number, if it is not too long. -/
private theorem readSetting_toString (n : Int) (hlength : (toString n).length ≤ maxNumberLength) :
    readSetting (toString n) = .ok n := by
  have hchars : (toString n).toList =
      if n < 0 then '-' :: Nat.toDigits 10 n.natAbs else Nat.toDigits 10 n.natAbs :=
    Json.chars_integer n
  obtain ⟨c, rest, hcs⟩ : ∃ c rest, (toString n).toList = c :: rest := by
    rw [hchars]
    split
    · exact ⟨_, _, rfl⟩
    · exact List.exists_cons_of_ne_nil Nat.toDigits_ne_nil
  have hdecimal : ∀ d ∈ c :: rest, IsDecimal d := by
    rw [← hcs, hchars]
    split <;> intro d hd
    · rcases List.mem_cons.mp hd with rfl | hd
      · exact .inr rfl
      · exact .inl (Nat.isDigit_of_mem_toDigits (by decide) (by decide) hd)
    · exact .inl (Nat.isDigit_of_mem_toDigits (by decide) (by decide) hd)
  have hzero : c ≠ '0' ∨ rest = [] := by
    by_cases hnegative : n < 0
    · rw [if_pos hnegative, hcs] at hchars
      cases hchars
      exact .inl (by decide)
    rw [if_neg hnegative, hcs] at hchars
    rcases Nat.eq_zero_or_pos n.natAbs with habs | habs
    · rw [habs] at hchars
      cases hchars
      exact .inr rfl
    · refine .inl fun hc => Json.head?_toDigits_ne habs ?_
      rw [← hchars, hc]
      rfl
  have hplain : readPlain? (c :: rest) = some n := by
    rw [← hcs, hchars]
    split
    · next hnegative =>
      rw [readPlain?_minus_toDigits (by omega)]
      exact congrArg some (by omega)
    · rw [readPlain?_toDigits]
      exact congrArg some (by omega)
  have hform : plainForm? (c :: rest) = some (c :: rest) := by
    have hc := hdecimal c List.mem_cons_self
    rw [plainForm?, trim_of_forall fun d hd => isSpace_of_isDecimal (hdecimal d hd),
      dropPlus?_of_head hc, Option.bind_eq_bind, Option.bind_some,
      dropLeadingZeros?_of_head hc hzero, Option.bind_some, dropZeroFraction_of_isDecimal hdecimal,
      dropUnderscores?_of_isDecimal hdecimal]
  rw [← String.length_toList, hcs] at hlength
  rw [readSetting, hcs, hform]
  dsimp only
  rw [if_neg (Nat.not_lt.mpr hlength), hplain]

/-! ## What is read as a number -/

/-- A text of a number: a sign perhaps, digits, among which underscores may stand, and perhaps a
point with zeros behind it. The number is the one that the digits denote, with the sign. -/
def Denotes (cs : List Char) (n : Int) : Prop :=
  ∃ sign body fraction : List Char, cs = sign ++ body ++ fraction ∧
    (∀ c ∈ body, c.isDigit = true ∨ c = '_') ∧ (∃ c ∈ body, c.isDigit = true) ∧
    (fraction = [] ∨ ∃ k, fraction = '.' :: List.replicate k '0') ∧
    ((sign = [] ∨ sign = ['+']) ∧ n = digitsValue (body.filter Char.isDigit) ∨
      sign = ['-'] ∧ n = -digitsValue (body.filter Char.isDigit))

/-- Zeros and underscores before a number. -/
def IsFiller (cs : List Char) : Prop := ∀ c ∈ cs, c = '0' ∨ c = '_'

private theorem digitsValue_filler {zeros : List Char} (h : IsFiller zeros) (digits : List Char) :
    digitsValue (zeros.filter Char.isDigit ++ digits) = digitsValue digits := by
  induction zeros with
  | nil => rfl
  | cons c zeros ih =>
    have htail := ih fun d hd => h d (List.mem_cons_of_mem c hd)
    rcases h c List.mem_cons_self with rfl | rfl
    · exact htail
    · exact htail

private theorem exists_of_readPlain? (h : readPlain? cs = some n) :
    ∃ sign digits, cs = sign ++ digits ∧ digits ≠ [] ∧ (∀ c ∈ digits, c.isDigit = true) ∧
      (sign = [] ∧ n = digitsValue digits ∨ sign = ['-'] ∧ n = -digitsValue digits) := by
  have hascii {digits : List Char} {m : Nat} (hm : readPlain?.readAscii? digits = some m) :
      digits ≠ [] ∧ (∀ c ∈ digits, c.isDigit = true) ∧ m = digitsValue digits := by
    rw [readPlain?.readAscii?] at hm
    split at hm
    · next hdigits =>
      refine ⟨by simpa using hdigits.1, List.all_eq_true.mp hdigits.2, ?_⟩
      exact (Option.some.inj hm).symm
    · cases hm
  rw [readPlain?.eq_def] at h
  split at h
  · cases h
  · next digits _ =>
    obtain ⟨m, hm, rfl⟩ := Option.map_eq_some_iff.mp h
    obtain ⟨hne, hdigits, rfl⟩ := hascii hm
    exact ⟨['-'], digits, rfl, hne, hdigits, .inr ⟨rfl, rfl⟩⟩
  · obtain ⟨m, hm, rfl⟩ := Option.map_eq_some_iff.mp h
    obtain ⟨hne, hdigits, rfl⟩ := hascii hm
    exact ⟨[], cs, rfl, hne, hdigits, .inl ⟨rfl, rfl⟩⟩

private theorem exists_fraction (cs : List Char) :
    ∃ fraction, cs = dropZeroFraction cs ++ fraction ∧
      (fraction = [] ∨ ∃ k, fraction = '.' :: List.replicate k '0') := by
  rw [dropZeroFraction]
  split
  · next zeros heq =>
    split
    · next hzeros =>
      refine ⟨'.' :: zeros, ?_, .inr ⟨zeros.length, ?_⟩⟩
      · rw [← heq, List.takeWhile_append_dropWhile]
      · refine congrArg (List.cons '.') (List.eq_replicate_iff.mpr ⟨rfl, fun c hc => ?_⟩)
        exact of_decide_eq_true (List.all_eq_true.mp hzeros c hc)
    · exact ⟨[], by simp, .inl rfl⟩
  · exact ⟨[], by simp, .inl rfl⟩

private theorem exists_of_dropUnderscores? {plain : List Char}
    (h : dropUnderscores? cs = some plain) :
    plain = cs.filter (· ≠ '_') ∧ cs.head? ≠ some '_' := by
  rw [dropUnderscores?] at h
  split at h
  · next hlone => exact ⟨(Option.some.inj h).symm, hlone.1⟩
  · cases h

/-- What stays of a number without its leading zeros: all of it, or it from a digit on, or a single
zero in place of all of them. -/
private theorem exists_of_dropLeadingZeros? {rest : List Char}
    (h : dropLeadingZeros? cs = some rest) :
    cs = rest ∨ ∃ zeros, IsFiller zeros ∧
      ((∃ c, rest.head? = some c ∧ c.isDigit = true) ∧ cs = zeros ++ rest ∨
        ∃ tail, rest = '0' :: tail ∧ cs = zeros ++ tail ∧ '0' ∈ zeros) := by
  rw [dropLeadingZeros?.eq_def] at h
  split at h
  · next tail =>
    dsimp only at h
    let filler (c : Char) : Bool := c = '0' || c = '_'
    have hsplit : ('0' :: tail).takeWhile filler ++ ('0' :: tail).dropWhile filler = '0' :: tail :=
      List.takeWhile_append_dropWhile
    have hfiller : IsFiller (('0' :: tail).takeWhile filler) := fun c hc => by
      simpa [filler] using List.mem_takeWhile_imp hc
    split at h
    · next hall =>
      split at h <;> cases h
      rw [hall, List.append_nil] at hsplit
      rw [hsplit] at hfiller
      exact .inr ⟨_, hfiller, .inr ⟨[], rfl, by simp, List.mem_cons_self⟩⟩
    · next rest hrest =>
      split at h
      · next hzero =>
        cases h
        rw [hrest] at hsplit
        exact .inr ⟨_, hfiller, .inr ⟨_, rfl, hsplit.symm, List.mem_of_getLast? hzero⟩⟩
      · cases h
    · next c rest _ hrest =>
      split at h
      · next hdigit =>
        cases h
        rw [hrest] at hsplit
        exact .inr ⟨_, hfiller, .inl ⟨⟨c, rfl, hdigit⟩, hsplit.symm⟩⟩
      · cases h
  · split at h <;> cases h
    exact .inl rfl
  · cases h

private theorem exists_of_dropPlus? {unsigned : List Char} (h : dropPlus? cs = some unsigned) :
    cs = unsigned ∨ cs = '+' :: unsigned ∧ unsigned.head? ≠ some '-' := by
  rw [dropPlus?.eq_def] at h
  split at h
  · cases h
  · next rest hminus =>
    cases h
    refine .inr ⟨rfl, fun hhead => ?_⟩
    obtain ⟨tail, rfl⟩ := List.head?_eq_some_iff.mp hhead
    exact hminus tail rfl
  · cases h
    exact .inl rfl

private theorem filter_isDigit {digits : List Char} (hcs : cs.filter (· ≠ '_') = digits)
    (hdigits : ∀ c ∈ digits, c.isDigit = true) :
    (∀ c ∈ cs, c.isDigit = true ∨ c = '_') ∧ cs.filter Char.isDigit = digits := by
  have hall (c : Char) (hc : c ∈ cs) : c.isDigit = true ∨ c = '_' := by
    by_cases hunderscore : c = '_'
    · exact .inr hunderscore
    · exact .inl (hdigits c (hcs ▸ List.mem_filter.mpr ⟨hc, decide_eq_true hunderscore⟩))
  refine ⟨hall, hcs ▸ List.filter_congr fun c hc => ?_⟩
  rcases hall c hc with hdigit | rfl
  · have hne : c ≠ '_' := by
      rintro rfl
      cases hdigit
    rw [hdigit, decide_eq_true hne]
  · rfl

/-- A number without a sign: digits and underscores that denote the same as without the leading
zeros, and what came behind. -/
private theorem exists_body {number unsigned digits fraction : List Char}
    (hzeros : dropLeadingZeros? unsigned = some (number ++ fraction))
    (hplain : number.filter (· ≠ '_') = digits) (hne : digits ≠ [])
    (hdigits : ∀ c ∈ digits, c.isDigit = true) :
    ∃ body, unsigned = body ++ fraction ∧ (∀ c ∈ body, c.isDigit = true ∨ c = '_') ∧
      (∃ c ∈ body, c.isDigit = true) ∧
      digitsValue (body.filter Char.isDigit) = digitsValue digits := by
  obtain ⟨hall, hfilter⟩ := filter_isDigit hplain hdigits
  have hdigit : ∃ c ∈ number, c.isDigit = true := by
    obtain ⟨c, rest, rfl⟩ := List.exists_cons_of_ne_nil hne
    exact ⟨c, (List.mem_filter.mp (hfilter ▸ List.mem_cons_self)).1, hdigits c List.mem_cons_self⟩
  have hfillerAll {zeros : List Char} (h : IsFiller zeros) (c : Char) (hc : c ∈ zeros) :
      c.isDigit = true ∨ c = '_' := by
    rcases h c hc with rfl | rfl
    · exact .inl rfl
    · exact .inr rfl
  obtain rfl | ⟨zeros, hfiller, ⟨-, rfl⟩ | ⟨tail, hnumber, rfl, hzero⟩⟩ :=
    exists_of_dropLeadingZeros? hzeros
  · exact ⟨number, rfl, hall, hdigit, by rw [hfilter]⟩
  · obtain ⟨c, hc, hcdigit⟩ := hdigit
    refine ⟨zeros ++ number, by simp, fun c hc => ?_, ⟨c, List.mem_append_right _ hc, hcdigit⟩, ?_⟩
    · exact (List.mem_append.mp hc).elim (hfillerAll hfiller c) (hall c)
    · rw [List.filter_append, digitsValue_filler hfiller, hfilter]
  · obtain ⟨rest, rfl, rfl⟩ : ∃ rest, number = '0' :: rest ∧ tail = rest ++ fraction := by
      cases number with
      | nil => exact absurd hplain.symm hne
      | cons c rest =>
        cases hnumber
        exact ⟨rest, rfl, rfl⟩
    refine ⟨zeros ++ rest, by simp, fun c hc => ?_, ⟨'0', List.mem_append_left _ hzero, rfl⟩, ?_⟩
    · exact (List.mem_append.mp hc).elim (hfillerAll hfiller c)
        fun hc => hall c (List.mem_cons_of_mem _ hc)
    · rw [List.filter_append, digitsValue_filler hfiller, ← hfilter]
      rfl

/-- A text whose plain form is a number is a text of that number, without its white space. -/
private theorem denotes_of_plainForm? {plain : List Char} (hform : plainForm? cs = some plain)
    (hread : readPlain? plain = some n) : Denotes (trim isSpace cs) n := by
  rw [plainForm?] at hform
  obtain ⟨unsigned, hplus, hform⟩ := Option.bind_eq_some_iff.mp hform
  obtain ⟨whole, hzeros, hform⟩ := Option.bind_eq_some_iff.mp hform
  obtain ⟨hplain, hhead⟩ := exists_of_dropUnderscores? hform
  obtain ⟨fraction, hwhole, hfraction⟩ := exists_fraction whole
  obtain ⟨sign, digits, rfl, hne, hdigits, hvalue⟩ := exists_of_readPlain? hread
  rw [hwhole] at hzeros
  obtain ⟨rfl, rfl⟩ | ⟨rfl, rfl⟩ := hvalue
  case inl =>
    rw [List.nil_append] at hplain
    obtain ⟨body, rfl, hbody, hdigit, hsame⟩ := exists_body hzeros hplain.symm hne hdigits
    obtain hsign | ⟨hsign, -⟩ := exists_of_dropPlus? hplus
    · exact ⟨[], body, fraction, hsign, hbody, hdigit, hfraction,
        .inl ⟨.inl rfl, by rw [hsame]⟩⟩
    · exact ⟨['+'], body, fraction, hsign, hbody, hdigit, hfraction,
        .inl ⟨.inr rfl, by rw [hsame]⟩⟩
  case inr =>
    -- behind a minus sign no zeros have been left out
    obtain ⟨body, hnumber, hfilter⟩ : ∃ body, dropZeroFraction whole = '-' :: body ∧
        body.filter (· ≠ '_') = digits := by
      generalize dropZeroFraction whole = number at hplain hhead
      cases number with
      | nil => cases hplain
      | cons c body =>
        have hc : c ≠ '_' := fun hc => hhead (congrArg some hc)
        rw [List.filter_cons, if_pos (decide_eq_true hc)] at hplain
        cases hplain
        exact ⟨body, rfl, rfl⟩
    obtain ⟨hall, hfilter⟩ := filter_isDigit hfilter hdigits
    rw [hnumber] at hzeros
    obtain rfl | ⟨zeros, -, ⟨⟨c, hc, hdigit⟩, -⟩ | ⟨tail, htail, -, -⟩⟩ :=
      exists_of_dropLeadingZeros? hzeros
    · obtain hsign | ⟨-, hminus⟩ := exists_of_dropPlus? hplus
      · obtain ⟨c, rest, rfl⟩ := List.exists_cons_of_ne_nil hne
        have hc : c ∈ body.filter Char.isDigit := hfilter ▸ List.mem_cons_self
        refine ⟨['-'], body, fraction, hsign, hall,
          ⟨c, (List.mem_filter.mp hc).1, (List.mem_filter.mp hc).2⟩, hfraction, .inr ⟨rfl, ?_⟩⟩
        rw [hfilter]
      · exact absurd rfl hminus
    · cases hc
      cases hdigit
    · cases htail

/-- A text that is read as a number is a text of that number, without its white space. -/
private theorem denotes_of_readSetting {t : String} (h : readSetting t = .ok n) :
    Denotes (trim isSpace t.toList) n := by
  rw [readSetting] at h
  split at h
  · cases h
  · next plain hform =>
    split at h
    · cases h
    split at h
    · next hread =>
      cases h
      exact denotes_of_plainForm? hform hread
    · cases h

end Text

namespace Settings

open Text

variable {n : Int}

/-- The decimal text of a number is read as the number, if it is not too long. -/
theorem readNumber_toString (n : Int) (hlength : (toString n).length ≤ maxNumberLength) :
    readNumber (.text (toString n)) = .ok n := by
  rw [readNumber, readSetting_toString n hlength]

/-- A value that stands for a whole number: a text of it with white space around, the number itself,
a decimal number whose nearest double has no fraction, or a truth value. -/
inductive StandsFor : Json → Int → Prop
  | text {t : String} {n : Int} (denotes : Denotes (trim isSpace t.toList) n) :
      StandsFor (.text t) n
  | integer (n : Int) : StandsFor (.number (.integer n)) n
  | decimal {d : Decimal} {negative : Bool} {significand : Nat} {exponent : Int}
      (nearest : d.nearest = .finite negative significand exponent)
      (whole : Binary.isWhole significand exponent = true) :
      StandsFor (.number (.decimal d))
        (Binary.signed negative (Binary.wholePart significand exponent))
  | truth (b : Bool) : StandsFor (.bool b) (if b then 1 else 0)

/-- Nothing else is read as a number. -/
theorem standsFor_of_readNumber {j : Json} (h : readNumber j = .ok n) : StandsFor j n := by
  rw [readNumber.eq_def] at h
  split at h
  · cases h
    exact .integer _
  · split at h
    · cases h
    next hnearest =>
    dsimp only at h
    split at h
    · cases h
    next hwhole =>
    split at h
    · cases h
      exact .decimal hnearest (by simpa using hwhole)
    · cases h
  · cases h
  · cases h
    exact .truth _
  · split at h
    · next hread =>
      cases h
      exact .text (denotes_of_readSetting hread)
    · cases h
    · cases h
  · cases h

end Settings

end CertKeeper
