import CertKeeper.Proofs.BlockText
import CertKeeper.Proofs.CertificateText
import CertKeeper.Proofs.RsaKeys

/-!
# Keys and certificates as texts

The text of a key that was made as RSA keys are made is read as that key
(`PrivateKey.ofText_writeRsa`), its public half is read again from a certificate
(`KeyInfo.publicKey?_of_sound`), and the text of a certificate is read as its octets are
(`Certificate.ofText_text`).
-/

namespace CertKeeper.X509

open Encoding Der Element Crypto

/-- The text of a certificate is read as its octets are. -/
theorem Certificate.ofText_text (c : Certificate) :
    Certificate.ofText c.text = Certificate.ofDer c.der := by
  have hlabel : Pem.IsLabel label := .of_all (by decide) (by decide) (by decide)
  rw [ofText, text, Pem.blocks?_write hlabel]
  rfl

variable {k : Rsa.PrivateKey}

/-! ## Lengths -/

/-- A number up to the modulus of a key needs at most a 16th of the octets that a length can
count. -/
theorem octetCount_le (hk : k.Sound) {n : Nat} (hn : n ≤ k.modulus) :
    Bytes.octetCount n ≤ 268435456 := by
  have hcount : Bytes.octetCount k.modulus ≤ 268435456 := by
    have hbits := hk.bits
    unfold Bytes.octetCount
    unfold bitLength at hbits
    split
    · omega
    · next hne =>
      rw [if_neg hne] at hbits
      omega
  exact (Bytes.octetCount_mono hn).trans hcount

/-- A sequence of numbers no greater than the modulus of a sound key has content in proportion to
their count. -/
theorem length_naturals_le (hk : k.Sound) {l : List Nat} (hl : ∀ n ∈ l, n ≤ k.modulus) :
    (Element.sequence (l.map natural)).content.length ≤ l.length * 268435463 := by
  have hone (n : Nat) (hn : n ≤ k.modulus) : (natural n).encode.length ≤ 268435463 := by
    have hlength := length_natural_le n
    have hcount := octetCount_le hk hn
    have hfits : (natural n).Fits := ⟨by simp, by omega⟩
    have hencode := length_encode_le hfits
    omega
  change ((l.map natural).flatMap encode).length ≤ _
  induction l with
  | nil => exact Nat.zero_le _
  | cons n l ih =>
    have hn := hone n (hl n List.mem_cons_self)
    have hrest := ih fun m hm => hl m (List.mem_cons_of_mem n hm)
    rw [List.map_cons, List.flatMap_cons, List.length_append, List.length_cons]
    omega

/-! ## Public keys -/

/-- The two numbers of the public half of a key take an eighth of what a length can count. -/
theorem length_publicKey_le (hk : k.Sound) :
    (rsaElement k.publicKey).content.length ≤ 2 * 268435463 := by
  have hnumbers : ∀ n ∈ [k.modulus, k.publicExponent], n ≤ k.modulus := by
    intro n hn
    simp only [List.mem_cons, List.not_mem_nil, or_false] at hn
    rcases hn with rfl | rfl
    · exact le_rfl
    · exact hk.exponent_lt.le
  exact length_naturals_le hk hnumbers

/-- The public half of a key is read again from a certificate. -/
theorem KeyInfo.publicKey?_of_sound (hk : k.Sound) :
    (KeyInfo.ofRsa k.publicKey).publicKey? = .ok (.rsa k.publicKey) := by
  have hcontent := length_publicKey_le hk
  have hfits : (rsaElement k.publicKey).Fits := ⟨by simp [rsaElement], by omega⟩
  have hencode := length_encode_le hfits
  exact KeyInfo.publicKey?_ofRsa (by omega)

/-! ## Private keys -/

namespace PrivateKey

/-- The numbers of a key are no greater than its modulus. -/
private theorem le_modulus (hk : k.Sound) {n : Nat}
    (hn : n ∈ [0, k.modulus, k.publicExponent, k.privateExponent, k.prime1, k.prime2, k.exponent1,
      k.exponent2, k.coefficient]) : n ≤ k.modulus := by
  have hprime1 : k.prime1 ≤ k.modulus := by
    rw [hk.modulus]
    exact Nat.le_mul_of_pos_right _ hk.prime2.pos
  have hprime2 : k.prime2 ≤ k.modulus := by
    rw [hk.modulus]
    exact Nat.le_mul_of_pos_left _ hk.prime1.pos
  have hmod (p : Nat) : k.privateExponent % p ≤ k.modulus :=
    (Nat.mod_le _ _).trans hk.inverse_lt.le
  simp only [List.mem_cons, List.not_mem_nil, or_false] at hn
  rcases hn with rfl | rfl | rfl | rfl | rfl | rfl | rfl | rfl | rfl
  · exact Nat.zero_le _
  · exact le_rfl
  · exact hk.exponent_lt.le
  · exact hk.inverse_lt.le
  · exact hprime1
  · exact hprime2
  · exact hk.exponent1 ▸ hmod _
  · exact hk.exponent2 ▸ hmod _
  · exact hk.coefficient_lt.le.trans hprime1

/-- The element of a key is not too long. -/
private theorem fits_rsaElement (hk : k.Sound) : (rsaElement k).Fits := by
  have hcontent : (rsaElement k).content.length ≤ 9 * 268435463 :=
    length_naturals_le hk fun n hn => le_modulus hk hn
  exact ⟨by simp [rsaElement], by omega⟩

/-- The octets of a key are read as that key. -/
private theorem readRsa?_encode (hk : k.Sound) : readRsa? (rsaElement k).encode = some k := by
  have hfits := fits_rsaElement hk
  have hitems : naturals? (rsaElement k) = some [0, k.modulus, k.publicExponent, k.privateExponent,
      k.prime1, k.prime2, k.exponent1, k.exponent2, k.coefficient] := by
    rw [naturals?, rsaElement, sequence?_sequence hfits.2 (by simp), Option.bind_eq_bind,
      Option.bind_some]
    exact mapM_map_eq_some fun n _ => natural?_natural n
  rw [readRsa?, readOnly?_encode hfits]
  simp only [Option.bind_eq_bind, Option.bind_some, hitems]
  exact if_pos hk.isConsistent

/-- The text of a key is read as that key if its octets are. -/
theorem ofText_writeRsa_of_readRsa? (h : readRsa? (rsaElement k).encode = some k) :
    ofText (writeRsa k) = .ok (.rsa k) := by
  have hlabel : Pem.IsLabel rsaLabel := .of_all (by decide) (by decide) (by decide)
  have hblock : ofBlock ⟨rsaLabel, [], (rsaElement k).encode⟩ =
      (readable (readRsa? (rsaElement k).encode)).map PrivateKey.rsa := rfl
  rw [ofText, writeRsa, Pem.blocks?_write hlabel]
  change ofBlock ⟨rsaLabel, [], (rsaElement k).encode⟩ = _
  rw [hblock, h]
  rfl

/-- The text of a key that was made as RSA keys are made is read as that key. -/
theorem ofText_writeRsa (hk : k.Sound) : ofText (writeRsa k) = .ok (.rsa k) :=
  ofText_writeRsa_of_readRsa? (readRsa?_encode hk)

end PrivateKey

end CertKeeper.X509
