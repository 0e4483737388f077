import CertKeeper.Encoding.Der
import CertKeeper.Proofs.NumberOctets

/-!
# Elements as octets

An element with a small tag and content that is not too long is read again as it was written
(`Der.readElement?_encode`), and so are several in a row (`Der.readElements?_flatMap`). Elements
that are read back as a whole were not too long (`Der.lt_of_readOnly?`), and neither were the ones
inside.
-/

namespace CertKeeper

/-- What was written item by item is read item by item. -/
private theorem readAll_flatMap {σ α : Type} {item : List σ → Option (α × List σ)}
    {write : α → List σ}
    {l : List α} (hread : ∀ a ∈ l, ∀ rest, item (write a ++ rest) = some (a, rest))
    (hne : ∀ a ∈ l, write a ≠ []) : readAll item (l.flatMap write) = some l := by
  have hgo (n : Nat) (hn : l.length ≤ n) : readAll.go item n (l.flatMap write) = some l := by
    induction l generalizing n with
    | nil => cases n <;> rfl
    | cons a l ih =>
      obtain ⟨x, xs, hx⟩ := List.exists_cons_of_ne_nil (hne a List.mem_cons_self)
      cases n with
      | zero => exact absurd hn (Nat.not_succ_le_zero _)
      | succ n =>
        rw [List.flatMap_cons]
        have hstep : readAll.go item (n + 1) (write a ++ l.flatMap write) =
            (readAll.go item n (l.flatMap write)).map (a :: ·) := by
          have hitem := hread a List.mem_cons_self (l.flatMap write)
          rw [hx, List.cons_append] at hitem ⊢
          rw [readAll.go, hitem]
          exact List.cons_ne_nil _ _
        rw [hstep, ih (fun b hb => hread b (List.mem_cons_of_mem a hb))
          (fun b hb => hne b (List.mem_cons_of_mem a hb)) n (Nat.le_of_succ_le_succ hn)]
        rfl
  apply hgo _
  clear hgo hread
  induction l with
  | nil => exact Nat.zero_le _
  | cons a l ih =>
    have ha := List.length_pos_iff.mpr (hne a List.mem_cons_self)
    have hl := ih fun b hb => hne b (List.mem_cons_of_mem a hb)
    rw [List.flatMap_cons, List.length_append, List.length_cons]
    omega

namespace Encoding.Der

/-! ## Tags and lengths -/

/-- A tag with a small number is one octet, and it is read again. -/
theorem readTag?_octets {t : Tag} (ht : t.number < 31) (rest : Bytes) :
    readTag? (t.octets ++ rest) = some (t, rest) := by
  obtain ⟨c, constructed, number⟩ := t
  have hnumber : c.number < 4 := by cases c <;> decide
  have hof : TagClass.ofNumber c.number = c := by cases c <;> rfl
  dsimp only at ht
  rw [Tag.octets, if_pos ht, List.singleton_append, readTag?]
  have hoctet (form : Nat) (hform : form ≤ 32) :
      (UInt8.ofNat (c.number * 64 + form + number)).toNat = c.number * 64 + form + number := by
    rw [UInt8.toNat_ofNat']
    omega
  unfold Tag.leading
  cases constructed with
  | false =>
    have h64 : (c.number * 64 + 0 + number) / 64 = c.number := by omega
    have h32 : (c.number * 64 + 0 + number) / 32 % 2 = 0 := by omega
    have hlow : (c.number * 64 + 0 + number) % 32 = number := by omega
    simp only [Bool.false_eq_true, if_false, hoctet 0 (by omega), h64, h32, hlow, if_pos ht, hof]
    rfl
  | true =>
    have h64 : (c.number * 64 + 32 + number) / 64 = c.number := by omega
    have h32 : (c.number * 64 + 32 + number) / 32 % 2 = 1 := by omega
    have hlow : (c.number * 64 + 32 + number) % 32 = number := by omega
    simp only [if_true, hoctet 32 (by omega), h64, h32, hlow, if_pos ht, hof]
    rfl

/-- A length that four octets hold is read again. -/
private theorem readLength?_lengthOctets {n : Nat} (hn : n < 2 ^ 32) (rest : Bytes) :
    readLength? (lengthOctets n ++ rest) = some (n, rest) := by
  unfold lengthOctets
  by_cases hshort : n < 128
  · rw [if_pos hshort, List.singleton_append, readLength?]
    have hlt : UInt8.ofNat n < 0x80 := by
      rw [UInt8.lt_iff_toNat_lt, UInt8.toNat_ofNat']
      exact Nat.lt_of_le_of_lt (Nat.mod_le _ _) hshort
    have hvalue : (UInt8.ofNat n).toNat = n := by
      rw [UInt8.toNat_ofNat']
      omega
    rw [if_pos hlt, hvalue]
  · rw [if_neg hshort, List.cons_append, readLength?]
    have hcount : Bytes.octetCount n ≤ 4 := Bytes.octetCount_le_iff.mpr (by omega)
    have hpos : 1 ≤ Bytes.octetCount n := by
      rw [Nat.one_le_iff_ne_zero]
      intro hzero
      have := Bytes.lt_pow_octetCount n
      rw [hzero] at this
      omega
    have hvalue : (UInt8.ofNat (128 + Bytes.octetCount n)).toNat = 128 + Bytes.octetCount n := by
      rw [UInt8.toNat_ofNat']
      omega
    have hlong : ¬ UInt8.ofNat (128 + Bytes.octetCount n) < 0x80 := by
      rw [UInt8.lt_iff_toNat_lt, hvalue]
      exact Nat.not_lt.mpr (Nat.le_add_right _ _)
    have hdigits : (Bytes.ofNat n ++ rest).take (Bytes.octetCount n) = Bytes.ofNat n := by
      rw [← Bytes.length_ofNat, List.take_left]
    have hrest : (Bytes.ofNat n ++ rest).drop (Bytes.octetCount n) = rest := by
      rw [← Bytes.length_ofNat, List.drop_left]
    rw [if_neg hlong, hvalue, Nat.add_sub_cancel_left]
    simp only [hdigits, hrest, Bytes.toNat_ofNat, Bytes.length_ofNat]
    rw [if_pos ⟨hpos, hcount, trivial, Nat.not_lt.mp hshort, trivial⟩]

/-- A length that was read is held by four octets, and at most five were read. -/
private theorem lt_of_readLength? {b rest : Bytes} {n : Nat} (h : readLength? b = some (n, rest)) :
    n < 2 ^ 32 ∧ b.length ≤ rest.length + 5 := by
  cases b with
  | nil => cases h
  | cons x b =>
    rw [readLength?] at h
    split at h
    · cases h
      have hx := x.toNat_lt
      rw [List.length_cons]
      omega
    · dsimp only at h
      split at h
      · next hlong =>
        obtain ⟨hpos, hcount, hlength, _, _⟩ := hlong
        rw [Option.some.injEq, Prod.mk.injEq] at h
        obtain ⟨rfl, rfl⟩ := h
        refine ⟨?_, ?_⟩
        · have hlt := Bytes.toNat_lt (b.take (x.toNat - 128))
          have hpow : 256 ^ (x.toNat - 128) ≤ 256 ^ 4 := Nat.pow_le_pow_right (by omega) hcount
          rw [hlength] at hlt
          omega
        · rw [List.length_cons, List.length_drop]
          omega
      · cases h

/-! ## Elements -/

namespace Element

/-- An element that can be read again: its tag is small and its length is held by four octets. -/
def Fits (e : Element) : Prop := e.tag.number < 31 ∧ e.content.length < 2 ^ 32

/-- An element takes more octets than its content. -/
theorem length_content_lt (e : Element) : e.content.length < e.encode.length := by
  have hlength : 1 ≤ (lengthOctets e.content.length).length := by
    unfold lengthOctets
    split <;> simp
  rw [encode, List.length_append, List.length_append]
  omega

/-- An element that can be read again takes at most six octets more than its content. -/
theorem length_encode_le {e : Element} (he : e.Fits) :
    e.encode.length ≤ e.content.length + 6 := by
  obtain ⟨htag, hfits⟩ := he
  have htags : e.tag.octets.length = 1 := by
    rw [Tag.octets, if_pos htag]
    rfl
  have hlength : (lengthOctets e.content.length).length ≤ 5 := by
    have hcount : Bytes.octetCount e.content.length ≤ 4 := Bytes.octetCount_le_iff.mpr (by omega)
    unfold lengthOctets
    split
    · simp
    · rw [List.length_cons, Bytes.length_ofNat]
      omega
  rw [encode, List.length_append, List.length_append, htags]
  omega

private theorem encode_ne_nil (e : Element) : e.encode ≠ [] := by
  intro h
  have := e.length_content_lt
  rw [h] at this
  exact Nat.not_lt_zero _ this

end Element

/-- An element is read again. -/
theorem readElement?_encode {e : Element} (he : e.Fits) (rest : Bytes) :
    readElement? (e.encode ++ rest) = some (e, rest) := by
  unfold readElement? Element.encode
  rw [List.append_assoc, List.append_assoc, readTag?_octets he.1]
  simp only [Option.bind_eq_bind, Option.bind_some, readLength?_lengthOctets he.2,
    List.length_append, Nat.le_add_right, if_true, List.take_left, List.drop_left]

/-- An element that can be read again is read as a whole from its octets. -/
theorem readOnly?_encode {e : Element} (he : e.Fits) : readOnly? e.encode = some e := by
  have h := readElement?_encode he []
  rw [List.append_nil] at h
  rw [readOnly?, h]

/-- Elements in a row are read again. -/
theorem readElements?_flatMap {items : List Element} (h : ∀ e ∈ items, e.Fits) :
    readElements? (items.flatMap Element.encode) = some items :=
  readAll_flatMap (fun e he rest => readElement?_encode (h e he) rest) fun e _ => e.encode_ne_nil

/-- An element that is read back as a whole is not too long. -/
theorem lt_of_readOnly? {e e' : Element} (ht : e.tag.number < 31)
    (h : readOnly? e.encode = some e') : e.content.length < 2 ^ 32 := by
  by_contra hlong
  have hlengthOctets : 6 ≤ (lengthOctets e.content.length).length := by
    have hcount : ¬ Bytes.octetCount e.content.length ≤ 4 := by
      rw [Bytes.octetCount_le_iff]
      omega
    unfold lengthOctets
    rw [if_neg (by omega), List.length_cons, Bytes.length_ofNat]
    omega
  unfold readOnly? readElement? Element.encode at h
  rw [List.append_assoc, readTag?_octets ht] at h
  simp only [Option.bind_eq_bind, Option.bind_some] at h
  cases hread : readLength? (lengthOctets e.content.length ++ e.content) with
  | none =>
    rw [hread] at h
    cases h
  | some p =>
    obtain ⟨n, rest⟩ := p
    obtain ⟨hn, hrest⟩ := lt_of_readLength? hread
    rw [List.length_append] at hrest
    rw [hread] at h
    simp only [Option.bind_some] at h
    have hle : n ≤ rest.length := by omega
    have hleft : rest.drop n ≠ [] := by
      intro hnil
      have := congrArg List.length hnil
      rw [List.length_drop, List.length_nil] at this
      omega
    rw [if_pos hle] at h
    cases hdrop : rest.drop n with
    | nil => exact hleft hdrop
    | cons x xs =>
      rw [hdrop] at h
      cases h

end Encoding.Der

end CertKeeper
