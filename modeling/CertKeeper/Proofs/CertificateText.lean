import CertKeeper.Proofs.CharacterOctets
import CertKeeper.Proofs.StampText

/-!
# Certificates as they are written

A certificate made here that can be read back states what it was made to state
(`Certificate.eq_of_ofDer_seal`).
-/

namespace CertKeeper.X509

open Encoding Der Element Text

/-! ## Algorithms and keys -/

/-- The algorithm of the signatures made here is read again. -/
theorem AlgorithmId.ofElement?_rsaSha256 :
    AlgorithmId.ofElement? AlgorithmId.rsaSha256.element = some .rsaSha256 := by decide

/-- The algorithm of RSA keys is read again. -/
theorem AlgorithmId.ofElement?_oidRsa :
    AlgorithmId.ofElement? (AlgorithmId.withNull oidRsa).element = some (.withNull oidRsa) := by
  decide

/-- A key is read again if its algorithm is. -/
theorem KeyInfo.ofElement?_element {k : KeyInfo} (hfits : k.element.content.length < 2 ^ 32)
    (halgorithm : AlgorithmId.ofElement? k.algorithm.element = some k.algorithm) :
    KeyInfo.ofElement? k.element = some k := by
  have hitems : k.element.sequence? = some [k.algorithm.element, Element.bitString k.octets] :=
    sequence?_sequence hfits (by simp [AlgorithmId.element])
  rw [KeyInfo.ofElement?, hitems]
  simp only [Option.bind_eq_bind, Option.bind_some]
  rw [halgorithm, bitString?_bitString]
  rfl

/-- The numbers of an RSA key are read again. -/
private theorem readRsa?_rsaElement {k : Crypto.Rsa.PublicKey}
    (hfits : (rsaElement k).encode.length < 2 ^ 32) : readRsa? (rsaElement k).encode = some k := by
  have hcontent := ((rsaElement k).length_content_lt).trans hfits
  have hitems : (rsaElement k).sequence? = some [natural k.modulus, natural k.exponent] :=
    sequence?_sequence hcontent (by simp)
  have hnaturals : naturals? (rsaElement k) = some [k.modulus, k.exponent] := by
    rw [naturals?, hitems]
    simp
  rw [readRsa?, readOnly?_encode ⟨by simp [rsaElement], hcontent⟩]
  simp only [Option.bind_eq_bind, Option.bind_some]
  rw [hnaturals]
  rfl

/-- The RSA key that a certificate holds is the one that was put in. -/
theorem KeyInfo.publicKey?_ofRsa {k : Crypto.Rsa.PublicKey}
    (hfits : (rsaElement k).encode.length < 2 ^ 32) :
    (KeyInfo.ofRsa k).publicKey? = .ok (.rsa k) := by
  have hname : isRsaName (KeyInfo.ofRsa k).algorithm.oid = true := by
    change isRsaName oidRsa = true
    decide
  rw [KeyInfo.publicKey?, if_pos hname]
  change (readable (readRsa? (rsaElement k).encode)).map PublicKey.rsa = _
  rw [readRsa?_rsaElement hfits]
  rfl

/-! ## Names -/

/-- An attribute whose value is text in UTF-8 is read again if its kind is. -/
theorem Attribute.ofElement?_ofText {kind : Oid} {s : String}
    (hfits : (Attribute.ofText kind s).element.content.length < 2 ^ 32)
    (hkind : (Element.oid kind).oid? = some kind) :
    Attribute.ofElement? (Attribute.ofText kind s).element = some (.ofText kind s) := by
  have hitems : (Attribute.ofText kind s).element.sequence? =
      some [Element.oid kind, ⟨.utf8String, Utf8.encode s⟩] :=
    sequence?_sequence hfits (by simp [ofText])
  rw [Attribute.ofElement?, hitems]
  simp only [Option.bind_eq_bind, Option.bind_some]
  rw [hkind]
  rfl

/-- A name is read again if its attributes are and stand in their order. -/
theorem Name.ofElement?_element {n : Name} (hfits : n.element.content.length < 2 ^ 32)
    (horder : ∀ p ∈ n.parts, isAscending ((p.map Attribute.element).map Element.encode))
    (hread : ∀ p ∈ n.parts, ∀ a ∈ p, a.element.content.length < 2 ^ 32 →
      Attribute.ofElement? a.element = some a) :
    Name.ofElement? n.element = some n := by
  have hparts : n.element.sequence? =
      some (n.parts.map fun p => group .set (p.map Attribute.element)) :=
    sequence?_sequence hfits (by simp)
  rw [Name.ofElement?, hparts]
  simp only [Option.bind_eq_bind, Option.bind_some]
  rw [mapM_map_eq_some]
  · rfl
  intro p hp
  have hpart : (group .set (p.map Attribute.element)).content.length < 2 ^ 32 :=
    (length_lt_of_mem_group (List.mem_map_of_mem hp)).trans hfits
  have hitems : (group .set (p.map Attribute.element)).items? .set =
      some (p.map Attribute.element) :=
    items?_group hpart (by simp [Attribute.element])
  have hattributes : (p.map Attribute.element).mapM Attribute.ofElement? = some p :=
    mapM_map_eq_some fun a ha =>
      hread p hp a ha ((length_lt_of_mem_group (List.mem_map_of_mem ha)).trans hpart)
  simp only [hitems, Option.bind_some, horder p hp, if_true, hattributes]

/-- A name of a common name and an organization is read again. -/
theorem Name.ofElement?_ofCommonName {commonName organization : String}
    (hfits : (Name.ofCommonName commonName organization).element.content.length < 2 ^ 32) :
    Name.ofElement? (Name.ofCommonName commonName organization).element =
      some (.ofCommonName commonName organization) := by
  refine Name.ofElement?_element hfits ?_ ?_
  · intro p hp
    simp only [Name.ofCommonName, List.mem_cons, List.not_mem_nil, or_false] at hp
    rcases hp with rfl | rfl <;> rfl
  · intro p hp a ha hlength
    simp only [Name.ofCommonName, List.mem_cons, List.not_mem_nil, or_false] at hp
    rcases hp with rfl | rfl
    · cases List.mem_singleton.mp ha
      exact Attribute.ofElement?_ofText hlength (by decide)
    · cases List.mem_singleton.mp ha
      exact Attribute.ofElement?_ofText hlength (by decide)

/-- The text of an attribute is the one that was put in. -/
private theorem Attribute.text?_ofText (kind : Oid) (s : String) :
    (Attribute.ofText kind s).text? = .ok s := by
  have hnumber : valueTypes.contains (typeNumber Tag.utf8String) = true := by decide
  have hbits : Tag.utf8String ≠ Tag.bitString := by decide
  have hpairs : Tag.utf8String ≠ Tag.bmpString := by decide
  have hquadruples : Tag.utf8String ≠ Tag.universalString := by decide
  simp only [text?, ofText, hnumber, hbits, hpairs, hquadruples, if_false, Bool.not_true,
    Bool.false_eq_true, Utf8.decode?_encode, Option.map_some, String.ofList_toList]

/-- The texts in a name of a common name and an organization. -/
theorem Name.texts?_ofCommonName (commonName organization : String) :
    (Name.ofCommonName commonName organization).texts? =
      .ok [[(.ofText oidCommonName commonName, commonName)],
        [(.ofText oidOrganization organization, organization)]] := by
  simp [texts?, ofCommonName, Attribute.text?_ofText, bind, Except.bind, pure, Except.pure]

/-- The organization in a name of a common name and an organization is the one that was put in. -/
theorem Name.organization?_ofCommonName (commonName organization : String) :
    (Name.ofCommonName commonName organization).organization? = .ok (some organization) := by
  rw [organization?, texts?_ofCommonName]
  rfl

/-! ## Extensions -/

/-- An extension is read again if its kind is. -/
theorem Extension.ofElement?_element {x : Extension} (hfits : x.element.content.length < 2 ^ 32)
    (hkind : (Element.oid x.kind).oid? = some x.kind) :
    Extension.ofElement? x.element = some x := by
  obtain ⟨kind, critical, value⟩ := x
  cases critical with
  | false =>
    have hitems : (Extension.element ⟨kind, false, value⟩).sequence? =
        some [Element.oid kind, Element.octetString value] :=
      sequence?_sequence hfits (by simp)
    rw [Extension.ofElement?, hitems]
    simp only [Option.bind_eq_bind, Option.bind_some]
    rw [hkind]
    rfl
  | true =>
    have hitems : (Extension.element ⟨kind, true, value⟩).sequence? =
        some [Element.oid kind, Element.boolean true, Element.octetString value] :=
      sequence?_sequence hfits (by simp)
    rw [Extension.ofElement?, hitems]
    simp only [Option.bind_eq_bind, Option.bind_some]
    rw [hkind]
    rfl

/-! ## Statements -/

/-- A statement whose parts are read again. -/
structure Statement.Legible (s : Statement) : Prop where
  version : s.version = 2
  serial : 0 ≤ s.serial
  algorithm : AlgorithmId.ofElement? s.algorithm.element = some s.algorithm
  issuer : s.issuer.element.content.length < 2 ^ 32 →
    Name.ofElement? s.issuer.element = some s.issuer
  notBefore : s.validity.notBefore.InRange
  notAfter : s.validity.notAfter.InRange
  subject : s.subject.element.content.length < 2 ^ 32 →
    Name.ofElement? s.subject.element = some s.subject
  key : AlgorithmId.ofElement? s.key.algorithm.element = some s.key.algorithm
  extensions : ∀ x ∈ s.extensions, (Element.oid x.kind).oid? = some x.kind

/-- The version of a statement is read again. -/
private theorem Statement.takeVersion_cons {rest : List Element}
    (hfits : (Element.group (.wrapper 0) [Element.natural 2]).content.length < 2 ^ 32) :
    takeVersion (Element.group (.wrapper 0) [Element.natural 2] :: rest) = some (2, rest) := by
  rw [takeVersion, tag_group, if_pos rfl, only?_group hfits (by simp)]
  simp only [Option.bind_eq_bind, Option.bind_some, natural?_natural]
  exact if_neg (by decide)

/-- The extensions of a statement are read again. -/
private theorem Statement.readExtensions?_group {extensions : List Extension}
    (hfits : (Element.group (.wrapper 3)
      [Element.sequence (extensions.map Extension.element)]).content.length < 2 ^ 32)
    (hkinds : ∀ x ∈ extensions, (Element.oid x.kind).oid? = some x.kind) :
    readExtensions? [Element.group (.wrapper 3)
      [Element.sequence (extensions.map Extension.element)]] = some extensions := by
  have hsequence : (Element.sequence (extensions.map Extension.element)).content.length < 2 ^ 32 :=
    (length_lt_of_mem_group (List.mem_singleton_self _)).trans hfits
  have hread : (extensions.map Extension.element).mapM Extension.ofElement? = some extensions :=
    mapM_map_eq_some fun x hx => Extension.ofElement?_element
      ((length_lt_of_mem_group (List.mem_map_of_mem hx)).trans hsequence) (hkinds x hx)
  rw [readExtensions?, only?_group hfits (by simp)]
  simp only [Option.bind_eq_bind, Option.bind_some]
  rw [sequence?_sequence hsequence (by simp [Extension.element]), Option.bind_some, hread]

/-- A legible statement is read again from its element. -/
theorem Statement.ofElement?_element {s : Statement} (hs : s.Legible)
    (hfits : s.element.content.length < 2 ^ 32) : Statement.ofElement? s.element = some s := by
  obtain ⟨version, serial, algorithm, issuer, validity, subject, key, extensions⟩ := s
  have hversion := hs.version
  dsimp only at hversion
  subst hversion
  let xs := Element.group (.wrapper 3) [Element.sequence (extensions.map Extension.element)]
  let items := [Element.group (.wrapper 0) [Element.natural 2], Element.natural serial.toNat,
    algorithm.element, issuer.element, validity.element, subject.element, key.element, xs]
  have hlength (e : Element) (he : e ∈ items) : e.content.length < 2 ^ 32 :=
    (length_lt_of_mem_group he).trans hfits
  have hitems : (Statement.element ⟨2, serial, algorithm, issuer, validity, subject, key,
      extensions⟩).sequence? = some items :=
    sequence?_sequence hfits (by simp [AlgorithmId.element, Name.element, Validity.element,
      KeyInfo.element])
  have hunique (n : Nat) : takeTagged (.context n) (Element.bitsUnder? (.context n)) [xs] =
      some (none, [xs]) := by
    rw [takeTagged, tag_group, if_neg (by simp [Tag.wrapper, Tag.context])]
  rw [Statement.ofElement?, hitems]
  simp only [Option.bind_eq_bind, Option.bind_some]
  rw [takeVersion_cons (hlength _ (by simp [items]))]
  simp only [Option.bind_some, hunique]
  rw [integer?_natural, hs.algorithm, hs.issuer (hlength _ (by simp [items])),
    Validity.ofElement?_element (hlength _ (by simp [items])) hs.notBefore hs.notAfter,
    hs.subject (hlength _ (by simp [items])),
    KeyInfo.ofElement?_element (hlength _ (by simp [items])) hs.key,
    readExtensions?_group (hlength _ (by simp [items, xs])) hs.extensions]
  simp only [Option.bind_some, Int.toNat_of_nonneg hs.serial]

/-- The three parts of a certificate. -/
def Statement.parts (s : Statement) (signature : Bytes) : List Element :=
  [s.element, AlgorithmId.rsaSha256.element, Element.bitString signature]

/-- A certificate made of a legible statement is read again if it is not too long. -/
theorem Certificate.ofDer_seal {s : Statement} {signature : Bytes} (hs : s.Legible)
    (hfits : (Element.sequence (s.parts signature)).content.length < 2 ^ 32) :
    Certificate.ofDer (s.seal signature) =
      .ok ⟨s.seal signature, s.element.encode, s, .rsaSha256, signature⟩ := by
  have hread : readOnly? (s.seal signature) = some (Element.sequence (s.parts signature)) :=
    readOnly?_encode ⟨by simp, hfits⟩
  have hitems : (Element.sequence (s.parts signature)).sequence? = some (s.parts signature) :=
    sequence?_sequence hfits (by simp [Statement.parts, Statement.element, AlgorithmId.element])
  have hstatement : s.element.content.length < 2 ^ 32 :=
    (length_lt_of_mem_group List.mem_cons_self).trans hfits
  rw [ofDer, ofOctets?, hread]
  simp only [Option.bind_eq_bind, Option.bind_some, hitems]
  dsimp only [Statement.parts]
  rw [Statement.ofElement?_element hs hstatement, AlgorithmId.ofElement?_rsaSha256,
    bitString?_bitString]
  simp only [Option.bind_some]
  rw [if_pos (.inr hs.version)]

/-- A certificate made of a legible statement that can be read back states it. -/
theorem Certificate.eq_of_ofDer_seal {s : Statement} {signature : Bytes} {c : Certificate}
    (hs : s.Legible) (h : Certificate.ofDer (s.seal signature) = .ok c) :
    c = ⟨s.seal signature, s.element.encode, s, .rsaSha256, signature⟩ := by
  have hfits : (Element.sequence (s.parts signature)).content.length < 2 ^ 32 := by
    cases hread : readOnly? (s.seal signature) with
    | none =>
      rw [ofDer, ofOctets?, hread] at h
      cases h
    | some e => exact lt_of_readOnly? (by simp) hread
  rw [ofDer_seal hs hfits] at h
  exact (Except.ok.inj h).symm

end CertKeeper.X509
