import CertKeeper.Proofs.ElementOctets

/-!
# The forms of elements

Groups, numbers, strings and truth values are read from their elements as they were put in. The
elements inside a group that is not too long are not too long either.
-/

namespace CertKeeper

/-- What was written one by one is read one by one. -/
theorem mapM_map_eq_some {α β : Type} {read : β → Option α} {write : α → β} {l : List α}
    (h : ∀ a ∈ l, read (write a) = some a) : (l.map write).mapM read = some l := by
  induction l with
  | nil => rfl
  | cons a l ih =>
    rw [List.map_cons, List.mapM_cons, h a List.mem_cons_self,
      ih fun b hb => h b (List.mem_cons_of_mem a hb)]
    rfl

namespace Encoding.Der.Element

variable {t : Tag} {items : List Element} {e : Element}

/-! ## Tags -/

@[simp] theorem number_boolean : Tag.boolean.number = 1 := rfl

@[simp] theorem number_integer : Tag.integer.number = 2 := rfl

@[simp] theorem number_bitString : Tag.bitString.number = 3 := rfl

@[simp] theorem number_octetString : Tag.octetString.number = 4 := rfl

@[simp] theorem number_oid : Tag.oid.number = 6 := rfl

@[simp] theorem number_utf8String : Tag.utf8String.number = 12 := rfl

@[simp] theorem number_utcTime : Tag.utcTime.number = 23 := rfl

@[simp] theorem number_generalizedTime : Tag.generalizedTime.number = 24 := rfl

@[simp] theorem number_sequence : Tag.sequence.number = 16 := rfl

@[simp] theorem number_set : Tag.set.number = 17 := rfl

@[simp] theorem number_context (n : Nat) : (Tag.context n).number = n := rfl

@[simp] theorem number_wrapper (n : Nat) : (Tag.wrapper n).number = n := rfl

@[simp] theorem tag_group (t : Tag) (items : List Element) : (group t items).tag = t := rfl

@[simp] theorem tag_sequence (items : List Element) : (sequence items).tag = .sequence := rfl

@[simp] theorem tag_boolean (b : Bool) : (boolean b).tag = .boolean := rfl

@[simp] theorem tag_natural (n : Nat) : (natural n).tag = .integer := rfl

@[simp] theorem tag_oid (o : Oid) : (oid o).tag = .oid := rfl

@[simp] theorem tag_octetString (b : Bytes) : (octetString b).tag = .octetString := rfl

@[simp] theorem tag_bitString (b : Bytes) : (bitString b).tag = .bitString := rfl

/-! ## Groups -/

/-- The elements of a group are shorter than the group. -/
theorem length_lt_of_mem_group (he : e ∈ items) :
    e.content.length < (group t items).content.length := by
  obtain ⟨before, after, rfl⟩ := List.append_of_mem he
  have hlt := e.length_content_lt
  rw [group, List.flatMap_append, List.flatMap_cons, List.length_append, List.length_append]
  omega

/-- The elements of a group with content that is not too long can be read again if their tags are
small. -/
theorem fits_of_mem_group (h : (group t items).content.length < 2 ^ 32) (he : e ∈ items)
    (ht : e.tag.number < 31) : e.Fits :=
  ⟨ht, (length_lt_of_mem_group he).trans h⟩

private theorem content?_group (t : Tag) (items : List Element) :
    (group t items).content? t = some (items.flatMap encode) := if_pos rfl

/-- The elements of a group are read again. -/
theorem items?_group (h : (group t items).content.length < 2 ^ 32)
    (ht : ∀ e ∈ items, e.tag.number < 31) : (group t items).items? t = some items := by
  rw [items?, content?_group, Option.bind_some,
    readElements?_flatMap fun e he => fits_of_mem_group h he (ht e he)]

/-- The elements of a sequence are read again. -/
theorem sequence?_sequence (h : (sequence items).content.length < 2 ^ 32)
    (ht : ∀ e ∈ items, e.tag.number < 31) : (sequence items).sequence? = some items :=
  items?_group h ht

/-- The only element of a group is read again. -/
theorem only?_group (h : (group t [e]).content.length < 2 ^ 32) (ht : e.tag.number < 31) :
    (group t [e]).only? t = some e := by
  rw [only?, content?_group, Option.bind_some, List.flatMap_singleton,
    readOnly?_encode (fits_of_mem_group h (List.mem_singleton_self e) ht)]

/-! ## Numbers -/

/-- The octets of a number that is not negative denote it. -/
private theorem signedValue_naturalOctets (n : Nat) : signedValue (naturalOctets n) = n := by
  have hvalue := Bytes.toNat_ofNat n
  unfold naturalOctets
  cases hoctets : Bytes.ofNat n with
  | nil =>
    rw [hoctets] at hvalue
    rw [← hvalue]
    rfl
  | cons x b =>
    rw [hoctets] at hvalue
    dsimp only
    by_cases hx : x < 0x80
    · have hlow : ¬ 0x80 ≤ x := UInt8.not_le.mpr hx
      rw [if_pos hx, signedValue, List.headD_cons, if_neg hlow, hvalue]
    · rw [if_neg hx, signedValue, List.headD_cons, if_neg (by decide), Bytes.toNat_cons, hvalue]
      simp

/-- The octets of a natural number are not padded. -/
private theorem isMinimal_naturalOctets (n : Nat) : isMinimal (naturalOctets n) := by
  unfold naturalOctets
  cases hoctets : Bytes.ofNat n with
  | nil => rfl
  | cons x b =>
    have hzero := Bytes.ne_zero_of_ofNat_eq_cons hoctets
    dsimp only
    by_cases hx : x < 0x80
    · rw [if_pos hx]
      cases b with
      | nil => rfl
      | cons y b =>
        have hfull : x ≠ 0xff := by
          rintro rfl
          exact absurd hx (by decide)
        rw [isMinimal, beq_false_of_ne hzero, beq_false_of_ne hfull]
        rfl
    · rw [if_neg hx, isMinimal, decide_eq_false hx, Bool.and_false]
      rfl

/-- A number that is not negative is read again. -/
@[simp] theorem integer?_natural (n : Nat) : (natural n).integer? = some (n : Int) := by
  rw [integer?, natural, content?, if_pos rfl, Option.bind_eq_bind, Option.bind_some,
    if_pos (isMinimal_naturalOctets n), signedValue_naturalOctets]

@[simp] theorem natural?_natural (n : Nat) : (natural n).natural? = some n := by
  rw [natural?, integer?_natural]
  simp

/-- A number has at most one octet more than it needs. -/
theorem length_natural_le (n : Nat) :
    (natural n).content.length ≤ Bytes.octetCount n + 1 := by
  change (naturalOctets n).length ≤ _
  have hlength := Bytes.length_ofNat n
  unfold naturalOctets
  cases hoctets : Bytes.ofNat n with
  | nil => simp
  | cons x b =>
    rw [hoctets] at hlength
    dsimp only
    split
    · omega
    · rw [List.length_cons]
      omega

/-! ## Strings and truth values -/

/-- Whole octets are read again from a string of bits. -/
@[simp] theorem bitString?_bitString (b : Bytes) : (bitString b).bitString? = some b := by
  have hpadding : hasZeroPadding (0 : UInt8).toNat b := by
    unfold hasZeroPadding
    split
    · rfl
    · simp [Nat.mod_one]
  rw [bitString?, bitsUnder?, bitString, content?, if_pos rfl, Option.bind_eq_bind,
    Option.bind_some]
  exact if_pos hpadding

end Encoding.Der.Element

end CertKeeper
