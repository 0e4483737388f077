import CertKeeper.Proofs.IssuedPair
import CertKeeper.Proofs.SignatureLength

/-!
# Lengths of certificates

Elements are read whose lengths four octets can hold. The certificate of a server is short enough
for that if the organization of the authority has at most a quarter of as many octets; hence an
authority that was made here, and so has signed once, signs every such certificate
(`SelfSigned.Generated.exists_sign`).
-/

namespace CertKeeper

open Encoding Der Element Crypto Text

namespace X509

/-! ## Elements -/

/-- A group is as long as its elements together. -/
theorem length_content_group (t : Tag) (items : List Element) :
    (group t items).content.length = (items.map fun e => e.encode.length).sum := by
  rw [group, List.length_flatMap]

/-- An element takes at most six octets more than its content, if four octets can hold the length
of that. -/
theorem length_encode_le_of {e : Element} {n : Nat} (htag : e.tag.number < 31)
    (hcontent : e.content.length ≤ n) (hn : n < 2 ^ 32) : e.encode.length ≤ n + 6 := by
  have hencode := length_encode_le ⟨htag, Nat.lt_of_le_of_lt hcontent hn⟩
  omega

/-- A group of elements whose encodings have at most `n` octets together has at most `n + 6`. -/
theorem length_encode_group_le {t : Tag} {items : List Element} {n : Nat} (htag : t.number < 31)
    (hitems : (items.map fun e => e.encode.length).sum ≤ n) (hn : n < 2 ^ 32) :
    (group t items).encode.length ≤ n + 6 :=
  length_encode_le_of htag ((length_content_group t items).trans_le hitems) hn

variable {n : Nat}

/-- A string of bits has one octet more than those that it was made from. -/
theorem length_encode_bitString_le {b : Bytes} (hb : b.length ≤ n) (hn : n + 1 < 2 ^ 32) :
    (Element.bitString b).encode.length ≤ n + 7 :=
  length_encode_le_of (n := n + 1) (by simp) (Nat.succ_le_succ hb) hn

/-! ## Names -/

/-- An attribute whose value is text takes some octets more than the text. -/
theorem Attribute.length_element_le {kind : Oid} {s : String}
    (hkind : (Element.oid kind).encode.length ≤ 5) (hs : (Utf8.encode s).length ≤ n)
    (hn : n ≤ 2 ^ 30) : (Attribute.ofText kind s).element.encode.length ≤ n + 17 := by
  have htext : (⟨.utf8String, Utf8.encode s⟩ : Element).encode.length ≤ n + 6 :=
    length_encode_le_of (by simp) hs (by omega)
  refine length_encode_group_le (n := n + 11) (by simp) ?_ (by omega)
  simp only [ofText, List.map_cons, List.map_nil, List.sum_cons, List.sum_nil]
  omega

/-- A name of a common name and an organization has at most 116 octets more than the
organization. -/
theorem Name.length_ofCommonName_le {commonName organization : String}
    (hcommonName : (Utf8.encode commonName).length ≤ 64)
    (horganization : (Utf8.encode organization).length ≤ n) (hn : n ≤ 2 ^ 30) :
    (Name.ofCommonName commonName organization).element.encode.length ≤ n + 116 := by
  have hfirst : (Attribute.ofText oidCommonName commonName).element.encode.length ≤ 64 + 17 :=
    Attribute.length_element_le (by decide) hcommonName (by omega)
  have hsecond : (Attribute.ofText oidOrganization organization).element.encode.length ≤ n + 17 :=
    Attribute.length_element_le (by decide) horganization hn
  have hpart {a : Attribute} {m : Nat} (ha : a.element.encode.length ≤ m) (hm : m < 2 ^ 32) :
      (group .set [a.element]).encode.length ≤ m + 6 :=
    length_encode_group_le (by simp) (by simpa using ha) hm
  have hfirst := hpart hfirst (by omega)
  have hsecond := hpart hsecond (by omega)
  refine length_encode_group_le (n := n + 110) (by simp) ?_ (by omega)
  simp only [ofCommonName, List.map_cons, List.map_nil, List.sum_cons, List.sum_nil]
  omega

/-! ## Times, numbers and keys -/

/-- A stamp has a year of four digits at most, ten further digits and a mark at the end. -/
theorem Stamp.length_element_le {s : Stamp} (hs : s.InRange) : s.element.encode.length ≤ 21 := by
  have htwo {i : Nat} (hi : i < 100) : (Time.padded 2 i).length = 2 := by
    rw [padded_two i hi]
    rfl
  have hlow := hs.year_ge
  have hhigh := hs.year_le
  have hseconds := hs.seconds_lt
  have hdigits : s.digitsAfterYear.length = 10 := by
    simp only [digitsAfterYear, List.length_append, htwo hs.lt_hundred.1, htwo hs.lt_hundred.2]
    rw [htwo (by omega), htwo (by omega), htwo (by omega)]
  have hwrite (year : List Char) :
      (Bytes.ascii (String.ofList (year ++ s.digitsAfterYear ++ ['Z']))).length =
        year.length + 11 := by
    simp [Bytes.ascii, hdigits]
  unfold element
  dsimp only
  split
  · refine length_encode_le_of (n := 15) (by simp) ?_ (by omega)
    rw [hwrite, htwo (by omega)]
    omega
  · refine length_encode_le_of (n := 15) (by simp) ?_ (by omega)
    rw [hwrite, padded_four (by omega) (by omega), List.length_append, htwo (by omega),
      htwo (by omega)]

/-- A serial number has at most twenty octets. -/
private theorem length_serial_le {serial : Int} (h : checkSerial serial = .ok ()) :
    (Element.natural serial.toNat).encode.length ≤ 27 := by
  have hbits : bitLength serial.toNat ≤ 159 := by
    unfold checkSerial at h
    split at h
    · cases h
    split at h
    · cases h
    · omega
  have hcount : Bytes.octetCount serial.toNat ≤ 20 := by
    unfold bitLength at hbits
    unfold Bytes.octetCount
    split
    · omega
    · next hne =>
      rw [if_neg hne] at hbits
      omega
  have hcontent := length_natural_le serial.toNat
  exact length_encode_le_of (n := 21) (by simp) (by omega) (by omega)

/-- The public half of a key takes an eighth of what four octets can hold, and some octets more. -/
private theorem KeyInfo.length_ofRsa_le {k : Rsa.PrivateKey} (hk : k.Sound) :
    (KeyInfo.ofRsa k.publicKey).element.encode.length ≤ 2 ^ 29 + 100 := by
  have hnumbers : (rsaElement k.publicKey).encode.length ≤ 2 * 268435463 + 6 :=
    length_encode_le_of (by simp [rsaElement]) (length_publicKey_le hk) (by omega)
  have hoctets : (Element.bitString (rsaElement k.publicKey).encode).encode.length ≤
      2 * 268435463 + 13 :=
    length_encode_bitString_le hnumbers (by omega)
  have halgorithm : (AlgorithmId.withNull oidRsa).element.encode.length = 15 := by decide
  refine (length_encode_group_le (n := 2 * 268435463 + 28) (by simp) ?_ (by omega)).trans (by omega)
  simp only [ofRsa, List.map_cons, List.map_nil, List.sum_cons, List.sum_nil, halgorithm]
  omega

/-- A signature takes half of that. -/
private theorem length_signature_le {k : Rsa.PrivateKey} (hk : k.Sound) {d : Digest}
    {m signature : Bytes}
    (h : k.sign? d m = some signature) :
    (Element.bitString signature).encode.length ≤ 2 ^ 28 + 7 := by
  have hlength : signature.length ≤ 268435456 := by
    rw [Rsa.PrivateKey.length_sign? h]
    exact octetCount_le hk le_rfl
  exact length_encode_bitString_le hlength (by omega)

/-- The extensions for a short DNS name are short. -/
private theorem length_serverExtensions_le {d : String} (hd : (Utf8.encode d).length ≤ 64) :
    (Element.group (.wrapper 3)
      [Element.sequence ((serverExtensions d).map Extension.element)]).encode.length ≤ 1000 := by
  have hname : (⟨.context 2, Utf8.encode d⟩ : Element).encode.length ≤ 70 :=
    length_encode_le_of (n := 64) (by simp) hd (by omega)
  have hvalue : (Extension.dnsName d).value.length ≤ 76 :=
    length_encode_group_le (n := 70) (by simp) (by simpa using hname) (by omega)
  have hoctets : (Element.octetString (Extension.dnsName d).value).encode.length ≤ 82 :=
    length_encode_le_of (n := 76) (by simp) hvalue (by omega)
  have hkind : (Element.oid (Extension.dnsName d).kind).encode.length = 5 := rfl
  have hfirst : (Extension.dnsName d).element.encode.length ≤ 93 := by
    refine length_encode_group_le (n := 87) (by simp) ?_ (by omega)
    change ([_, _].map fun e : Element => e.encode.length).sum ≤ 87
    simp only [List.map_cons, List.map_nil, List.sum_cons, List.sum_nil, hkind]
    omega
  have hrest : (([.basicConstraints false, .keyUsage 5 0xa0,
      .extendedKeyUsage [oidServerAuth, oidClientAuth]] : List Extension).map fun x =>
        x.element.encode.length).sum ≤ 100 := by decide +kernel
  have hall : (Element.sequence ((serverExtensions d).map Extension.element)).encode.length ≤
      199 := by
    refine length_encode_group_le (n := 193) (by simp) ?_ (by omega)
    rw [List.map_map, serverExtensions, List.map_cons, List.sum_cons]
    exact Nat.add_le_add hfirst hrest
  refine (length_encode_group_le (n := 199) (by simp) (by simpa using hall) (by omega)).trans ?_
  omega

/-! ## Certificates -/

/-- What a certificate for a server consists of can be read again if neither name has an
organization of more than a quarter of the octets that a length can count. -/
private theorem length_parts_lt {subject issuer : Name} {k signer : Rsa.PrivateKey} {serial : Int}
    {start stop : Moment} {d : String} {m signature : Bytes}
    (hsubject : subject.element.encode.length ≤ 2 ^ 30 + 116)
    (hissuer : issuer.element.encode.length ≤ 2 ^ 30 + 116) (hk : k.Sound) (hsigner : signer.Sound)
    (hserial : checkSerial serial = .ok ()) (hstart : earliestInstant ≤ start.wall)
    (hstop : earliestInstant ≤ stop.wall) (hd : (Utf8.encode d).length ≤ 64)
    (hsign : signer.sign? .sha256 m = some signature) :
    (Element.sequence ((statementOf subject issuer k.publicKey serial start stop
      (serverExtensions d)).parts signature)).content.length < 2 ^ 32 := by
  have hversion : (group (.wrapper 0) [Element.natural 2]).encode.length = 5 := by decide
  have halgorithm : AlgorithmId.rsaSha256.element.encode.length = 15 := by decide
  have hnumber := length_serial_le hserial
  have hfirst := Stamp.length_element_le (Stamp.inRange_ofMoment hstart)
  have hlast := Stamp.length_element_le (Stamp.inRange_ofMoment hstop)
  have hvalidity : (⟨.ofMoment start, .ofMoment stop⟩ : Validity).element.encode.length ≤ 48 := by
    refine length_encode_group_le (n := 42) (by simp) ?_ (by omega)
    simp only [List.map_cons, List.map_nil, List.sum_cons, List.sum_nil]
    omega
  have hkey := KeyInfo.length_ofRsa_le hk
  have hextensions := length_serverExtensions_le hd
  have hsignature := length_signature_le hsigner hsign
  have hstatement : (statementOf subject issuer k.publicKey serial start stop
      (serverExtensions d)).element.encode.length ≤ 2 ^ 31 + 2 ^ 29 + 2000 := by
    refine (length_encode_group_le (n := 2 ^ 31 + 2 ^ 29 + 1500) (by simp) ?_ (by omega)).trans
      (by omega)
    simp only [statementOf, List.map_cons, List.map_nil, List.sum_cons, List.sum_nil, hversion,
      halgorithm]
    omega
  rw [Element.sequence, length_content_group]
  simp only [Statement.parts, List.map_cons, List.map_nil, List.sum_cons, List.sum_nil, halgorithm]
  omega

end X509

namespace SelfSigned

open X509

/-- An authority that was made here signs every certificate for a server. -/
theorem Generated.exists_sign {a : SelfSigned} {o : Options} (h : a.Generated o)
    (hkey : a.key.Sound) (horganization : (Utf8.encode o.organization).length ≤ 2 ^ 30)
    {dnsName : String} (hname : checkCommonName dnsName = .ok ()) {k : Rsa.PrivateKey}
    (hk : k.Sound) {serial : Int} (hserial : checkSerial serial = .ok ()) {start stop : Moment}
    (hstart : earliestInstant ≤ start.wall) (hstop : earliestInstant ≤ stop.wall) :
    ∃ c, (statementOf (.ofCommonName dnsName a.organization) a.certificate.statement.subject
      k.publicKey serial start stop (serverExtensions dnsName)).sign a.key = .ok c := by
  rw [h.organization, h.subject hkey]
  have hissuer := fun h => @Name.ofElement?_ofCommonName o.commonName o.organization h
  have hserver := fun h => @Name.ofElement?_ofCommonName dnsName o.organization h
  have hlegible : (statementOf _ _ k.publicKey serial start stop _).Legible :=
    legible_statementOf hserver hissuer (pos_of_checkSerial hserial) hstart hstop
      (oid?_serverExtensions dnsName)
  obtain ⟨_, _, _, _, _, _, hsigned⟩ := h.signed
  obtain ⟨_, hown⟩ := Statement.exists_sign?_of_sign hsigned
  obtain ⟨signature, hsign⟩ := Rsa.PrivateKey.exists_sign? hown (statementOf
    (.ofCommonName dnsName o.organization) (.ofCommonName o.commonName o.organization) k.publicKey
      serial start stop (serverExtensions dnsName)).element.encode
  have hlength := length_of_checkCommonName hname
  exact ⟨_, Statement.sign_of_sign? hlegible hsign (length_parts_lt
    (Name.length_ofCommonName_le hlength horganization le_rfl)
    (Name.length_ofCommonName_le (length_of_checkCommonName h.commonName) horganization le_rfl)
    hk hkey hserial hstart hstop hlength hsign)⟩

end SelfSigned

end CertKeeper
