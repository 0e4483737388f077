import CertKeeper.Proofs.ElementOctets
import CertKeeper.X509.Certificate

/-!
# Octets are written as they were read

The reading is strict: what is accepted is the one encoding of what it is read as. So an object
identifier, a number, an element and a distinguished name that were read are written octet for octet
(`Oid.octets_of_ofOctets?`, `Element.natural_of_natural?`, `Der.encode_of_readElement?`,
`Name.element_of_ofElement?`).
-/

namespace CertKeeper

/-- What is read item by item is written item by item, if each item is. -/
private theorem flatMap_of_readAll {σ α : Type} {item : List σ → Option (α × List σ)}
    {write : α → List σ}
    (hitem : ∀ {s a rest}, item s = some (a, rest) → write a ++ rest = s) {s : List σ} {l : List α}
    (h : readAll item s = some l) : l.flatMap write = s := by
  have hgo (n : Nat) (s : List σ) (l : List α) (h : readAll.go item n s = some l) :
      l.flatMap write = s := by
    induction n generalizing s l with
    | zero =>
      cases s with
      | nil =>
        cases h
        rfl
      | cons x s => cases h
    | succ n ih =>
      cases s with
      | nil =>
        cases h
        rfl
      | cons x s =>
        rw [readAll.go] at h
        · cases hread : item (x :: s) with
          | none =>
            rw [hread] at h
            cases h
          | some p =>
            obtain ⟨a, rest⟩ := p
            rw [hread] at h
            obtain ⟨l', hl', rfl⟩ := Option.map_eq_some_iff.mp h
            rw [List.flatMap_cons, ih rest l' hl', hitem hread]
        · exact List.cons_ne_nil _ _
  exact hgo _ s l h

/-- What was read one by one is written one by one. -/
theorem map_of_mapM {α β : Type} {read : β → Option α} {write : α → β} {s : List β} {l : List α}
    (hread : ∀ {b a}, read b = some a → write a = b) (h : s.mapM read = some l) :
    l.map write = s := by
  induction s generalizing l with
  | nil =>
    cases h
    rfl
  | cons b s ih =>
    rw [List.mapM_cons] at h
    obtain ⟨a, ha, h⟩ := Option.bind_eq_some_iff.mp h
    obtain ⟨l', hl', h⟩ := Option.bind_eq_some_iff.mp h
    cases h
    rw [List.map_cons, hread ha, ih hl']

namespace Encoding

/-! ## Numbers to the base 128 -/

namespace Oid

/-- One octet of a number: a digit to the base 128, marked unless it is the last one. -/
def digitOctet (n i : Nat) : UInt8 := UInt8.ofNat (n >>> (7 * i) % 128 + if i = 0 then 0 else 128)

/-- The octets of a number are its digits. -/
theorem numberOctets_eq (n : Nat) :
    numberOctets n = (List.range (digitCount n)).reverse.map (digitOctet n) := rfl

/-- A number has as many digits as it takes. -/
theorem digitCount_eq {n k : Nat} (hpos : 0 < n >>> (7 * k)) (hlt : n >>> (7 * k) < 128) :
    digitCount n = k + 1 := by
  rw [Nat.shiftRight_eq_div_pow] at hpos hlt
  have hn : n ≠ 0 := by
    rintro rfl
    rw [Nat.zero_div] at hpos
    exact Nat.lt_irrefl _ hpos
  have hle : 2 ^ (7 * k) ≤ n := (Nat.div_pos_iff.mp hpos).2
  have hge : n < 2 ^ (7 * (k + 1)) := by
    rw [Nat.mul_succ, pow_add]
    rw [Nat.mul_comm]
    exact (Nat.div_lt_iff_lt_mul (Nat.pow_pos (by omega))).mp hlt
  have hlow : 7 * k ≤ n.log2 := (Nat.le_log2 hn).mpr hle
  have hhigh : n.log2 < 7 * (k + 1) := (Nat.log2_lt hn).mpr hge
  unfold digitCount
  omega

end Oid

open Oid

/-- A number that was read, after the digits before, is written octet for octet. -/
private theorem Der.digits_of_readNumber? {m n : Nat} {b rest : Bytes}
    (h : Der.readNumber? m b = some (n, rest)) :
    ∃ k, n >>> (7 * (k + 1)) = m ∧ (m = 0 → digitCount n = k + 1) ∧
      (List.range (k + 1)).reverse.map (digitOctet n) ++ rest = b := by
  induction b generalizing m with
  | nil => cases h
  | cons x b ih =>
    have hx := x.toNat_lt
    rw [readNumber?] at h
    split at h
    · cases h
    next hpadded =>
    split at h
    · next hlast =>
      cases h
      have hlow : x.toNat < 128 := hlast
      refine ⟨0, ?_, ?_, ?_⟩
      · rw [Nat.shiftRight_eq_div_pow]
        omega
      · rintro rfl
        by_cases hzero : x.toNat = 0
        · rw [hzero]
          rfl
        · exact digitCount_eq (by simp only [Nat.mul_zero, Nat.shiftRight_zero]; omega)
            (by simp only [Nat.mul_zero, Nat.shiftRight_zero]; omega)
      · have hdigit : digitOctet (m * 128 + x.toNat) 0 = x := by
          apply UInt8.toNat_inj.mp
          rw [digitOctet, if_pos rfl, UInt8.toNat_ofNat', Nat.mul_zero, Nat.shiftRight_zero]
          omega
        rw [List.range_one, List.reverse_singleton, List.map_singleton, hdigit]
        rfl
    · next hmore =>
      have hhigh : 128 ≤ x.toNat := by
        have : ¬ x.toNat < 128 := hmore
        omega
      obtain ⟨k, hshift, _, hdigits⟩ := ih h
      have hdigit : digitOctet n (k + 1) = x := by
        apply UInt8.toNat_inj.mp
        rw [digitOctet, if_neg (Nat.succ_ne_zero k), UInt8.toNat_ofNat', hshift]
        omega
      refine ⟨k + 1, ?_, ?_, ?_⟩
      · rw [Nat.mul_succ 7 (k + 1), Nat.shiftRight_add, hshift, Nat.shiftRight_eq_div_pow]
        omega
      · rintro rfl
        have hne : x.toNat ≠ 128 := by
          intro heq
          exact hpadded ⟨rfl, UInt8.toNat_inj.mp heq⟩
        exact digitCount_eq (by omega) (by omega)
      · rw [List.range_succ, List.reverse_append, List.reverse_singleton, List.singleton_append,
          List.map_cons, List.cons_append, hdigits, hdigit]

/-- A number that was read is written octet for octet. -/
theorem Der.numberOctets_of_readNumber? {n : Nat} {b rest : Bytes}
    (h : Der.readNumber? 0 b = some (n, rest)) : numberOctets n ++ rest = b := by
  obtain ⟨k, _, hcount, hdigits⟩ := Der.digits_of_readNumber? h
  rw [numberOctets_eq, hcount rfl, hdigits]

/-! ## Object identifiers -/

namespace Oid

/-- Numbers are read one after another. -/
private theorem readNumbers?_some {m : Nat} (hm : m ≠ 0) (b : Bytes) :
    readNumbers? (some m) b =
      (Der.readNumber? m b).bind fun p => (readNumbers? none p.2).map (p.1 :: ·) := by
  induction b generalizing m with
  | nil => rfl
  | cons x b ih =>
    rw [readNumbers?, Der.readNumber?, if_neg (c := m = 0 ∧ x = 0x80) fun h => hm h.1]
    by_cases hlast : x < 0x80
    · rw [if_pos hlast, if_pos hlast]
      rfl
    · rw [if_neg hlast, if_neg hlast]
      exact ih (by omega)

private theorem readNumbers?_none {b : Bytes} (hb : b ≠ []) :
    readNumbers? none b =
      (Der.readNumber? 0 b).bind fun p => (readNumbers? none p.2).map (p.1 :: ·) := by
  cases b with
  | nil => exact absurd rfl hb
  | cons x b =>
    rw [readNumbers?, Der.readNumber?]
    by_cases hpadded : x = 0x80
    · rw [if_pos hpadded, if_pos ⟨rfl, hpadded⟩]
      rfl
    rw [if_neg hpadded, if_neg (c := 0 = 0 ∧ x = 0x80) fun h => hpadded h.2, Nat.zero_mul,
      Nat.zero_add, Nat.zero_add]
    by_cases hlast : x < 0x80
    · rw [if_pos hlast, if_pos hlast]
      rfl
    · rw [if_neg hlast, if_neg hlast]
      refine readNumbers?_some ?_ b
      intro hzero
      have hge : ¬ x.toNat < 128 := hlast
      have heq : x.toNat = 128 := by omega
      exact hpadded (UInt8.toNat_inj.mp heq)

/-- Numbers that were read are written octet for octet. -/
private theorem flatMap_of_readNumbers? {b : Bytes} {l : List Nat}
    (h : readNumbers? none b = some l) :
    l.flatMap numberOctets = b := by
  induction hn : b.length using Nat.strongRecOn generalizing b l with
  | ind n ih =>
    by_cases hb : b = []
    · subst hb
      cases h
      rfl
    rw [readNumbers?_none hb] at h
    obtain ⟨⟨m, rest⟩, hread, h⟩ := Option.bind_eq_some_iff.mp h
    obtain ⟨l', hrest, rfl⟩ := Option.map_eq_some_iff.mp h
    have hwritten := Der.numberOctets_of_readNumber? hread
    have hlt : rest.length < n := by
      rw [← hn, ← hwritten, List.length_append, numberOctets_eq, List.length_map,
        List.length_reverse, List.length_range]
      unfold digitCount
      omega
    rw [List.flatMap_cons, ih _ hlt hrest rfl, hwritten]

/-- An identifier that was read is written octet for octet. -/
theorem octets_of_ofOctets? {b : Bytes} {o : Oid} (h : ofOctets? b = some o) : o.octets = b := by
  unfold ofOctets? at h
  split at h
  · next n rest hnumbers =>
    cases h
    have hfirst : 40 * min (n / 40) 2 + (n - 40 * min (n / 40) 2) = n := by omega
    rw [← flatMap_of_readNumbers? hnumbers]
    change ((40 * min (n / 40) 2 + (n - 40 * min (n / 40) 2)) :: rest).flatMap numberOctets = _
    rw [hfirst]
  · cases h

end Oid

/-! ## Elements -/

namespace Der

/-- A tag that was read is written octet for octet. -/
private theorem octets_of_readTag? {b rest : Bytes} {t : Tag} (h : readTag? b = some (t, rest)) :
    t.octets ++ rest = b := by
  cases b with
  | nil => cases h
  | cons x b =>
    have hx := x.toNat_lt
    have hclass : (TagClass.ofNumber (x.toNat / 64)).number = x.toNat / 64 := by
      have hlt : x.toNat / 64 < 4 := by omega
      generalize x.toNat / 64 = n at hlt
      decide +revert
    have hleading (number : Nat) :
        Tag.leading ⟨TagClass.ofNumber (x.toNat / 64), x.toNat / 32 % 2 == 1, number⟩ =
          x.toNat / 32 * 32 := by
      unfold Tag.leading
      dsimp only
      rw [hclass]
      by_cases hodd : x.toNat / 32 % 2 = 1
      · rw [hodd, beq_self_eq_true, if_pos rfl]
        omega
      · rw [beq_false_of_ne hodd, if_neg Bool.false_ne_true]
        omega
    unfold readTag? at h
    dsimp only at h
    split at h
    · next hsmall =>
      cases h
      have hoctet : UInt8.ofNat (x.toNat / 32 * 32 + x.toNat % 32) = x := by
        rw [Nat.div_add_mod']
        exact UInt8.ofNat_toNat
      rw [Tag.octets, if_pos hsmall, hleading]
      exact congrArg (· :: rest) hoctet
    · split at h
      · next n rest' hnumber =>
        split at h
        · cases h
        next hlarge =>
        cases h
        have hoctet : UInt8.ofNat (x.toNat / 32 * 32 + 31) = x := by
          apply UInt8.toNat_inj.mp
          rw [UInt8.toNat_ofNat']
          omega
        rw [Tag.octets, if_neg hlarge, hleading, hoctet, List.cons_append,
          numberOctets_of_readNumber? hnumber]
      · cases h

/-- A length that was read is written octet for octet. -/
private theorem lengthOctets_of_readLength? {b rest : Bytes} {n : Nat}
    (h : readLength? b = some (n, rest)) : lengthOctets n ++ rest = b := by
  cases b with
  | nil => cases h
  | cons x b =>
    rw [readLength?] at h
    split at h
    · next hshort =>
      cases h
      have hlt : x.toNat < 128 := hshort
      rw [lengthOctets, if_pos hlt, UInt8.ofNat_toNat]
      rfl
    · next hlong =>
      have hge : ¬ x.toNat < 128 := hlong
      dsimp only at h
      split at h
      · next hdigits =>
        obtain ⟨_, _, hlength, hmany, hcount⟩ := hdigits
        rw [Option.some.injEq, Prod.mk.injEq] at h
        obtain ⟨rfl, rfl⟩ := h
        have hoctet : UInt8.ofNat (128 + (x.toNat - 128)) = x := by
          rw [Nat.add_sub_cancel' (Nat.not_lt.mp hge)]
          exact UInt8.ofNat_toNat
        rw [lengthOctets, if_neg (Nat.not_lt.mpr hmany), hcount, hoctet, Bytes.ofNat, hcount]
        nth_rewrite 1 [← hlength]
        rw [Bytes.ofNatWidth_toNat, List.cons_append, List.take_append_drop]
      · cases h

/-- An element that was read is written octet for octet. -/
theorem encode_of_readElement? {b rest : Bytes} {e : Element}
    (h : readElement? b = some (e, rest)) : e.encode ++ rest = b := by
  obtain ⟨⟨tag, b₁⟩, htag, h⟩ := Option.bind_eq_some_iff.mp h
  obtain ⟨⟨length, b₂⟩, hlength, h⟩ := Option.bind_eq_some_iff.mp h
  dsimp only at h
  split at h
  · next hle =>
    cases h
    rw [← octets_of_readTag? htag, ← lengthOctets_of_readLength? hlength, Element.encode,
      List.length_take_of_le hle, List.append_assoc, List.append_assoc, List.take_append_drop]
  · cases h

/-- The only element of octets is written octet for octet. -/
theorem encode_of_readOnly? {b : Bytes} {e : Element} (h : readOnly? b = some e) :
    e.encode = b := by
  unfold readOnly? at h
  split at h
  · next e' hread =>
    cases h
    rw [← encode_of_readElement? hread, List.append_nil]
  · cases h

namespace Element

variable {t : Tag} {e : Element}

/-- The content of an element with a tag says all of it. -/
theorem eq_of_content? {b : Bytes} (h : e.content? t = some b) : e = ⟨t, b⟩ := by
  obtain ⟨htag, hcontent⟩ := Option.ite_none_right_eq_some.mp h
  cases hcontent
  rw [← htag]

/-- A group whose elements were read is the group of these elements. -/
theorem group_of_items? {items : List Element} (h : e.items? t = some items) :
    group t items = e := by
  obtain ⟨content, hcontent, hitems⟩ := Option.bind_eq_some_iff.mp h
  rw [group, flatMap_of_readAll encode_of_readElement? hitems, eq_of_content? hcontent]

/-- The octets of a number that is not negative are the only ones that denote it and are not
padded. -/
private theorem naturalOctets_of_signedValue {b : Bytes} (hminimal : isMinimal b = true)
    (hpos : 0 ≤ signedValue b) : naturalOctets (signedValue b).toNat = b := by
  cases b with
  | nil => cases hminimal
  | cons x rest =>
  have hlow : ¬ 0x80 ≤ x := by
    intro hhigh
    have hlt := Bytes.toNat_lt (x :: rest)
    rw [signedValue, List.headD_cons, if_pos hhigh] at hpos
    have hpow : Nat.pow 256 (x :: rest).length = 256 ^ (x :: rest).length := rfl
    omega
  have hvalue : (signedValue (x :: rest)).toNat = Bytes.toNat (x :: rest) := by
    rw [signedValue, List.headD_cons, if_neg hlow, Int.toNat_natCast]
  have hx : x < 0x80 := UInt8.not_le.mp hlow
  rw [hvalue]
  by_cases hzero : x = 0
  · subst hzero
    cases rest with
    | nil => rfl
    | cons y rest =>
      have hy : ¬ y < 0x80 := by simpa [isMinimal] using hminimal
      have hne : y ≠ 0 := by
        rintro rfl
        exact hy (by decide)
      have hskip : Bytes.toNat (0 :: y :: rest) = Bytes.toNat (y :: rest) := by
        rw [Bytes.toNat_cons, UInt8.toNat_zero, Nat.zero_mul, Nat.zero_add]
      rw [hskip, naturalOctets, Bytes.ofNat_toNat_cons hne]
      exact if_neg hy
  · rw [naturalOctets, Bytes.ofNat_toNat_cons hzero]
    exact if_pos hx

/-- The element of a number that was read is the one that it was read from. -/
theorem natural_of_natural? {n : Nat} (h : e.natural? = some n) : natural n = e := by
  obtain ⟨i, hi, h⟩ := Option.bind_eq_some_iff.mp h
  obtain ⟨b, hcontent, hb⟩ := Option.bind_eq_some_iff.mp hi
  obtain ⟨hminimal, hvalue⟩ := Option.ite_none_right_eq_some.mp hb
  obtain ⟨hpos, hn⟩ := Option.ite_none_right_eq_some.mp h
  cases hvalue
  cases hn
  rw [natural, naturalOctets_of_signedValue hminimal hpos, eq_of_content? hcontent]

/-- The element of an identifier that was read is the one that it was read from. -/
private theorem oid_of_oid? {o : Oid} (h : e.oid? = some o) : oid o = e := by
  obtain ⟨content, hcontent, ho⟩ := Option.bind_eq_some_iff.mp h
  rw [oid, octets_of_ofOctets? ho, eq_of_content? hcontent]

end Element

end Der

end Encoding

/-! ## Names -/

namespace X509

open Encoding Der Element

/-- The element of an attribute that was read is the one that it was read from. -/
theorem Attribute.element_of_ofElement? {e : Element} {a : Attribute}
    (h : Attribute.ofElement? e = some a) : a.element = e := by
  obtain ⟨items, hitems, h⟩ := Option.bind_eq_some_iff.mp h
  split at h
  · next kind value =>
    obtain ⟨o, hkind, h⟩ := Option.bind_eq_some_iff.mp h
    obtain ⟨_, h⟩ := Option.ite_none_right_eq_some.mp h
    cases h
    rw [Attribute.element, oid_of_oid? hkind]
    exact group_of_items? hitems
  · cases h

/-- The element of a name that was read is the one that it was read from. -/
theorem Name.element_of_ofElement? {e : Element} {n : Name} (h : Name.ofElement? e = some n) :
    n.element = e := by
  obtain ⟨items, hitems, h⟩ := Option.bind_eq_some_iff.mp h
  obtain ⟨parts, hparts, h⟩ := Option.bind_eq_some_iff.mp h
  cases h
  rw [Name.element, map_of_mapM _ hparts]
  · exact group_of_items? hitems
  intro p part hpart
  obtain ⟨attributes, hattributes, hread⟩ := Option.bind_eq_some_iff.mp hpart
  split at hread
  · rw [map_of_mapM Attribute.element_of_ofElement? hread]
    exact group_of_items? hattributes
  · cases hread

/-- The element of a name that was read is read again. -/
private theorem Name.ofElement?_of_ofElement? {e : Element} {n : Name}
    (h : Name.ofElement? e = some n) :
    Name.ofElement? n.element = some n := by
  rw [Name.element_of_ofElement? h, h]

/-- The subject of a statement that was read is read again. -/
theorem Statement.ofElement?_subject {e : Element} {s : Statement}
    (h : Statement.ofElement? e = some s) : Name.ofElement? s.subject.element = some s.subject := by
  obtain ⟨items, _, h⟩ := Option.bind_eq_some_iff.mp h
  obtain ⟨⟨version, items⟩, _, h⟩ := Option.bind_eq_some_iff.mp h
  dsimp only at h
  split at h
  · obtain ⟨⟨_, _⟩, _, h⟩ := Option.bind_eq_some_iff.mp h
    obtain ⟨⟨_, _⟩, _, h⟩ := Option.bind_eq_some_iff.mp h
    obtain ⟨serial, _, h⟩ := Option.bind_eq_some_iff.mp h
    obtain ⟨algorithm, _, h⟩ := Option.bind_eq_some_iff.mp h
    obtain ⟨issuer, _, h⟩ := Option.bind_eq_some_iff.mp h
    obtain ⟨validity, _, h⟩ := Option.bind_eq_some_iff.mp h
    obtain ⟨subject, hsubject, h⟩ := Option.bind_eq_some_iff.mp h
    obtain ⟨key, _, h⟩ := Option.bind_eq_some_iff.mp h
    obtain ⟨extensions, _, h⟩ := Option.bind_eq_some_iff.mp h
    cases h
    exact Name.ofElement?_of_ofElement? hsubject
  · cases h

namespace Certificate

variable {b : Bytes} {c : Certificate}

/-- A certificate that octets are is what they are read as, whatever its version. -/
theorem ofOctets?_of_ofDer (h : ofDer b = .ok c) : ofOctets? b = some c := by
  unfold ofDer at h
  split at h
  · cases h
  next c' hoctets =>
  split at h
  · cases h
    exact hoctets
  · cases h

/-- A certificate keeps the octets that it was read from. -/
private theorem der_of_ofOctets? (h : ofOctets? b = some c) : c.der = b := by
  obtain ⟨e, _, h⟩ := Option.bind_eq_some_iff.mp h
  obtain ⟨items, _, h⟩ := Option.bind_eq_some_iff.mp h
  split at h
  · obtain ⟨s, _, h⟩ := Option.bind_eq_some_iff.mp h
    obtain ⟨algorithm, _, h⟩ := Option.bind_eq_some_iff.mp h
    obtain ⟨signature, _, h⟩ := Option.bind_eq_some_iff.mp h
    cases h
    rfl
  · cases h

/-- The octets of a certificate that was read from a text are read as that certificate. -/
theorem ofDer_of_ofText (h : ofText b = .ok c) : ofDer c.der = .ok c := by
  unfold ofText at h
  split at h
  · cases h
  split at h
  · cases h
  next block _ =>
  rw [der_of_ofOctets? (ofOctets?_of_ofDer h)]
  exact h

/-- The subject of a certificate that was read is read again. -/
theorem ofElement?_subject (h : ofText b = .ok c) :
    Name.ofElement? c.statement.subject.element = some c.statement.subject := by
  have hoctets := ofOctets?_of_ofDer (ofDer_of_ofText h)
  obtain ⟨e, _, hoctets⟩ := Option.bind_eq_some_iff.mp hoctets
  obtain ⟨items, _, hoctets⟩ := Option.bind_eq_some_iff.mp hoctets
  split at hoctets
  · obtain ⟨s, hs, hoctets⟩ := Option.bind_eq_some_iff.mp hoctets
    obtain ⟨algorithm, _, hoctets⟩ := Option.bind_eq_some_iff.mp hoctets
    obtain ⟨signature, _, hoctets⟩ := Option.bind_eq_some_iff.mp hoctets
    have hstatement := congrArg Certificate.statement (Option.some.inj hoctets)
    rw [← hstatement]
    exact Statement.ofElement?_subject hs
  · cases hoctets

end Certificate

end X509

end CertKeeper
