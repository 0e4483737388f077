import CertKeeper.Text.Utf8

/-!
# Octets of ASCII

Octets of ASCII are read as the characters with their numbers, and text of ASCII is written in those
octets.
-/

namespace CertKeeper.Text.Utf8

/-- An octet of ASCII is the number of its character. -/
theorem toNat_ofNat_of_ascii {x : UInt8} (hx : x < 0x80) :
    (Char.ofNat x.toNat).toNat = x.toNat := by
  have hlt : x.toNat < 128 := UInt8.lt_iff_toNat_lt.mp hx
  have hvalid : x.toNat.isValidChar := .inl (by omega)
  rw [Char.ofNat, dif_pos hvalid]
  rfl

/-- Octets of ASCII are read one by one. -/
private theorem decodeFrom_ascii {b : Bytes} (h : ∀ x ∈ b, x < 0x80) (pos : Nat) :
    decodeFrom pos b = .ok (b.map fun x => Char.ofNat x.toNat) := by
  induction b generalizing pos with
  | nil => rfl
  | cons x b ih =>
    unfold decodeFrom
    rw [if_pos (h x List.mem_cons_self), ih fun y hy => h y (List.mem_cons_of_mem x hy)]
    rfl

/-- Octets of ASCII are read as the characters with their numbers. -/
theorem decode?_ascii {b : Bytes} (h : ∀ x ∈ b, x < 0x80) :
    decode? b = some (String.ofList (b.map fun x => Char.ofNat x.toNat)) := by
  rw [decode?, decode, decodeFrom_ascii h]
  rfl

/-- A character of ASCII is one octet. -/
private theorem encodeChar_ascii {c : Char} (hc : c.toNat < 0x80) :
    encodeChar c = [UInt8.ofNat c.toNat] :=
  if_pos hc

/-- Text of ASCII is written one octet for each character. -/
theorem encode_ascii {cs : List Char} (h : ∀ c ∈ cs, c.toNat < 0x80) :
    encode (String.ofList cs) = cs.map fun c => UInt8.ofNat c.toNat := by
  rw [encode, String.toList_ofList]
  induction cs with
  | nil => rfl
  | cons c cs ih =>
    rw [List.flatMap_cons, encodeChar_ascii (h c List.mem_cons_self),
      ih fun d hd => h d (List.mem_cons_of_mem c hd)]
    rfl

end CertKeeper.Text.Utf8
