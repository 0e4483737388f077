import CertKeeper.Text.Utf8
import Mathlib.Tactic.NormNum

/-!
# Text as octets

Every text is read again as it was written (`Utf8.decode_encode`): the octets of a character are the
shortest ones for its number, and no character has the number of a surrogate.
-/

namespace CertKeeper.Text.Utf8

/-! ## The octets of one character -/

private theorem toNat_octet {n : Nat} (h : n < 256) : (UInt8.ofNat n).toNat = n := by
  rw [UInt8.toNat_ofNat', Nat.mod_eq_of_lt (by omega)]

/-- An octet that continues a character, by its value. -/
private theorem isContinuation_iff (b : UInt8) :
    isContinuation b = true ↔ 0x80 ≤ b.toNat ∧ b.toNat < 0xC0 := by
  simp only [isContinuation, Bool.and_eq_true, decide_eq_true_eq, UInt8.le_iff_toNat_le]
  constructor
  · rintro ⟨hlow, hhigh⟩
    exact ⟨hlow, Nat.lt_succ_of_le hhigh⟩
  · rintro ⟨hlow, hhigh⟩
    exact ⟨hlow, Nat.le_of_lt_succ hhigh⟩

/-- The second octet fits to the first one if the two begin no overlong form, no surrogate and no
number above the last character. -/
theorem fitsAfter_of {a b : UInt8} (hb : isContinuation b = true)
    (hE0 : a.toNat = 0xE0 → 0xA0 ≤ b.toNat) (hED : a.toNat = 0xED → b.toNat < 0xA0)
    (hF0 : a.toNat = 0xF0 → 0x90 ≤ b.toNat) (hF4 : a.toNat = 0xF4 → b.toNat < 0x90) :
    fitsAfter a b = true := by
  have hvalue (x : UInt8) (n : UInt8) : (x == n) = decide (x.toNat = n.toNat) := by
    rw [Bool.eq_iff_iff, beq_iff_eq, decide_eq_true_eq, UInt8.toNat_inj]
  simp only [fitsAfter, hb, Bool.true_and, hvalue, UInt8.lt_iff_toNat_lt, UInt8.le_iff_toNat_le,
    Bool.not_eq_true', Bool.or_eq_false_iff, Bool.and_eq_false_imp, decide_eq_true_eq,
    decide_eq_false_iff_not, not_lt, not_le]
  exact ⟨⟨⟨hE0, hED⟩, hF0⟩, hF4⟩

section Read

variable {a b c d : UInt8} (rest : Bytes) (pos : Nat)

/-- A character of one octet is read. -/
private theorem decodeFrom_one (ha : a.toNat < 0x80) :
    decodeFrom pos (a :: rest) = (decodeFrom (pos + 1) rest).map (Char.ofNat a.toNat :: ·) := by
  have h : a < 0x80 := UInt8.lt_iff_toNat_lt.mpr ha
  conv_lhs => unfold decodeFrom
  rw [if_pos h]

private theorem not_ascii (ha : 0xC2 ≤ a.toNat) : ¬ a < 0x80 := by
  rw [UInt8.lt_iff_toNat_lt]
  change ¬ a.toNat < 0x80
  omega

private theorem isStart (hlow : 0xC2 ≤ a.toNat) (hhigh : a.toNat < 0xF5) :
    ¬ (decide (a < 0xC2) || decide (0xF5 ≤ a)) = true := by
  simp only [Bool.or_eq_true, decide_eq_true_eq, UInt8.lt_iff_toNat_lt, UInt8.le_iff_toNat_le]
  change ¬ (a.toNat < 0xC2 ∨ 0xF5 ≤ a.toNat)
  omega

/-- A character of two octets is read. -/
private theorem decodeFrom_two (hlow : 0xC2 ≤ a.toNat) (hhigh : a.toNat < 0xE0)
    (hb : fitsAfter a b = true) :
    decodeFrom pos (a :: b :: rest) =
      (decodeFrom (pos + 2) rest).map (Char.ofNat (a.toNat % 0x20 * 0x40 + low6 b) :: ·) := by
  have h : a < 0xE0 := UInt8.lt_iff_toNat_lt.mpr hhigh
  conv_lhs => unfold decodeFrom
  rw [if_neg (not_ascii hlow), if_neg (isStart hlow (by omega))]
  simp [hb, h]

/-- A character of three octets is read. -/
private theorem decodeFrom_three (hlow : 0xE0 ≤ a.toNat) (hhigh : a.toNat < 0xF0)
    (hb : fitsAfter a b = true) (hc : isContinuation c = true) :
    decodeFrom pos (a :: b :: c :: rest) = (decodeFrom (pos + 3) rest).map
      (Char.ofNat (a.toNat % 0x10 * 0x1000 + low6 b * 0x40 + low6 c) :: ·) := by
  have h1 : ¬ a < 0xE0 := fun h => absurd (UInt8.lt_iff_toNat_lt.mp h) (not_lt.mpr hlow)
  have h2 : a < 0xF0 := UInt8.lt_iff_toNat_lt.mpr hhigh
  conv_lhs => unfold decodeFrom
  rw [if_neg (not_ascii (by omega)), if_neg (isStart (by omega) (by omega))]
  simp [hb, hc, h1, h2]

/-- A character of four octets is read. -/
private theorem decodeFrom_four (hlow : 0xF0 ≤ a.toNat) (hhigh : a.toNat < 0xF5)
    (hb : fitsAfter a b = true) (hc : isContinuation c = true) (hd : isContinuation d = true) :
    decodeFrom pos (a :: b :: c :: d :: rest) = (decodeFrom (pos + 4) rest).map
      (Char.ofNat (a.toNat % 0x08 * 0x40000 + low6 b * 0x1000 + low6 c * 0x40 + low6 d) :: ·) := by
  have h1 : ¬ a < 0xE0 := fun h =>
    absurd (UInt8.lt_iff_toNat_lt.mp h) (not_lt.mpr (le_trans (by decide) hlow))
  have h2 : ¬ a < 0xF0 := fun h => absurd (UInt8.lt_iff_toNat_lt.mp h) (not_lt.mpr hlow)
  conv_lhs => unfold decodeFrom
  rw [if_neg (not_ascii (by omega)), if_neg (isStart (by omega) hhigh)]
  simp [hb, hc, hd, h1, h2]

end Read

/-! ## The octets of one number -/

/-- The numbers of characters: those below the surrogates and those above them. -/
theorem toNat_lt_or (c : Char) : c.toNat < 0xD800 ∨ 0xE000 ≤ c.toNat ∧ c.toNat < 0x110000 := by
  rcases c.valid with h | ⟨hlow, hhigh⟩
  · exact .inl h
  · exact .inr ⟨hlow, hhigh⟩

section Number

variable {n t : Nat} (rest : Bytes) (pos : Nat)

private theorem toNat_tail (ht : t < 0x40) : (UInt8.ofNat (0x80 + t)).toNat = 0x80 + t :=
  toNat_octet (by omega)

private theorem isContinuation_tail (ht : t < 0x40) :
    isContinuation (UInt8.ofNat (0x80 + t)) = true := by
  rw [isContinuation_iff, toNat_tail ht]
  omega

private theorem low6_tail (ht : t < 0x40) : low6 (UInt8.ofNat (0x80 + t)) = t := by
  rw [low6, toNat_tail ht]
  omega

private theorem decodeFrom_octets_one (h : n < 0x80) :
    decodeFrom pos (UInt8.ofNat n :: rest) =
      (decodeFrom (pos + 1) rest).map (Char.ofNat n :: ·) := by
  have ha : (UInt8.ofNat n).toNat = n := toNat_octet (by omega)
  rw [decodeFrom_one _ _ (by omega), ha]

private theorem decodeFrom_octets_two (hlow : 0x80 ≤ n) (hhigh : n < 0x800) :
    decodeFrom pos (UInt8.ofNat (0xC0 + n / 0x40) :: UInt8.ofNat (0x80 + n % 0x40) :: rest) =
      (decodeFrom (pos + 2) rest).map (Char.ofNat n :: ·) := by
  have ha : (UInt8.ofNat (0xC0 + n / 0x40)).toNat = 0xC0 + n / 0x40 := toNat_octet (by omega)
  have hb : n % 0x40 < 0x40 := Nat.mod_lt _ (by decide)
  have hvalue : (0xC0 + n / 0x40) % 0x20 * 0x40 + n % 0x40 = n := by omega
  have hfits := fitsAfter_of (a := UInt8.ofNat (0xC0 + n / 0x40)) (isContinuation_tail hb)
    (by omega) (by omega) (by omega) (by omega)
  rw [decodeFrom_two _ _ (by omega) (by omega) hfits, low6_tail hb, ha, hvalue]

/-- The form is not overlong and not that of a surrogate: the number is at least 0x800 and that of a
character. -/
private theorem decodeFrom_octets_three (hlow : 0x800 ≤ n) (hhigh : n < 0x10000)
    (hvalid : n < 0xD800 ∨ 0xE000 ≤ n) :
    decodeFrom pos (UInt8.ofNat (0xE0 + n / 0x1000) :: UInt8.ofNat (0x80 + n / 0x40 % 0x40) ::
        UInt8.ofNat (0x80 + n % 0x40) :: rest) =
      (decodeFrom (pos + 3) rest).map (Char.ofNat n :: ·) := by
  have ha : (UInt8.ofNat (0xE0 + n / 0x1000)).toNat = 0xE0 + n / 0x1000 := toNat_octet (by omega)
  have hb : n / 0x40 % 0x40 < 0x40 := Nat.mod_lt _ (by decide)
  have hc : n % 0x40 < 0x40 := Nat.mod_lt _ (by decide)
  have hvalue : (0xE0 + n / 0x1000) % 0x10 * 0x1000 + n / 0x40 % 0x40 * 0x40 + n % 0x40 = n := by
    omega
  have hfits := fitsAfter_of (a := UInt8.ofNat (0xE0 + n / 0x1000)) (isContinuation_tail hb)
    (by rw [toNat_tail hb]; omega) (by rw [toNat_tail hb]; omega) (by omega) (by omega)
  rw [decodeFrom_three _ _ (by omega) (by omega) hfits (isContinuation_tail hc), low6_tail hb,
    low6_tail hc, ha, hvalue]

private theorem decodeFrom_octets_four (hlow : 0x10000 ≤ n) (hhigh : n < 0x110000) :
    decodeFrom pos (UInt8.ofNat (0xF0 + n / 0x40000) :: UInt8.ofNat (0x80 + n / 0x1000 % 0x40) ::
        UInt8.ofNat (0x80 + n / 0x40 % 0x40) :: UInt8.ofNat (0x80 + n % 0x40) :: rest) =
      (decodeFrom (pos + 4) rest).map (Char.ofNat n :: ·) := by
  have ha : (UInt8.ofNat (0xF0 + n / 0x40000)).toNat = 0xF0 + n / 0x40000 := toNat_octet (by omega)
  have hb : n / 0x1000 % 0x40 < 0x40 := Nat.mod_lt _ (by decide)
  have hc : n / 0x40 % 0x40 < 0x40 := Nat.mod_lt _ (by decide)
  have hd : n % 0x40 < 0x40 := Nat.mod_lt _ (by decide)
  have hvalue : (0xF0 + n / 0x40000) % 0x08 * 0x40000 + n / 0x1000 % 0x40 * 0x1000 +
      n / 0x40 % 0x40 * 0x40 + n % 0x40 = n := by omega
  have hfits := fitsAfter_of (a := UInt8.ofNat (0xF0 + n / 0x40000)) (isContinuation_tail hb)
    (by omega) (by omega) (by rw [toNat_tail hb]; omega) (by rw [toNat_tail hb]; omega)
  rw [decodeFrom_four _ _ (by omega) (by omega) hfits (isContinuation_tail hc)
    (isContinuation_tail hd), low6_tail hb, low6_tail hc, low6_tail hd, ha, hvalue]

end Number

/-- What is written for a character is read as that character, whatever follows it. -/
private theorem decodeFrom_encodeChar (c : Char) (rest : Bytes) (pos : Nat) :
    ∃ next, decodeFrom pos (encodeChar c ++ rest) = (decodeFrom next rest).map (c :: ·) := by
  have hvalid := toNat_lt_or c
  have hback : Char.ofNat c.toNat = c := Char.ofNat_toNat c
  unfold encodeChar
  dsimp only
  split
  · next h1 =>
    have hread := decodeFrom_octets_one rest pos h1
    rw [hback] at hread
    exact ⟨pos + 1, hread⟩
  split
  · next h1 h2 =>
    have hread := decodeFrom_octets_two rest pos (not_lt.mp h1) h2
    rw [hback] at hread
    exact ⟨pos + 2, hread⟩
  split
  · next h2 h3 =>
    have hread := decodeFrom_octets_three rest pos (not_lt.mp h2) h3 (hvalid.imp_right And.left)
    rw [hback] at hread
    exact ⟨pos + 3, hread⟩
  · next h3 =>
    have hread := decodeFrom_octets_four rest pos (not_lt.mp h3) (by omega)
    rw [hback] at hread
    exact ⟨pos + 4, hread⟩

/-! ## Whole texts -/

private theorem decodeFrom_flatMap (cs : List Char) (pos : Nat) :
    decodeFrom pos (cs.flatMap encodeChar) = .ok cs := by
  induction cs generalizing pos with
  | nil => rfl
  | cons c cs ih =>
    obtain ⟨next, hnext⟩ := decodeFrom_encodeChar c (cs.flatMap encodeChar) pos
    rw [List.flatMap_cons, hnext, ih]
    rfl

/-- A text is read again as it was written. -/
@[simp] theorem decode_encode (s : String) : decode (encode s) = .ok s := by
  rw [decode, encode, decodeFrom_flatMap]
  exact congrArg Except.ok (String.ofList_toList (s := s))

@[simp] theorem decode?_encode (s : String) : decode? (encode s) = some s := by
  rw [decode?, decode_encode]
  rfl

end CertKeeper.Text.Utf8
