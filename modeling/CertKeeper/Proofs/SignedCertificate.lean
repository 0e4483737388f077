import CertKeeper.Proofs.Appraisal
import CertKeeper.Proofs.CharacterOctets
import CertKeeper.Proofs.KeyText

/-!
# Certificates made here

What the checks before the making of a certificate ensure, and what a certificate that was made is
found to be: it states what it was made to state and is read again (`Statement.sign_eq_ok`), it
bears the DNS name that it was made for (`dnsNames_serverExtensions`), it is taken for one of the
authority that signed it (`Certificate.checkIssuedBy_of_signed`), and it is valid from its start to
its end (`Certificate.exists_validAt`).
-/

namespace CertKeeper.X509

open Encoding Der Element Crypto Text

/-! ## What is checked -/

/-- A common name that is accepted has at most 64 octets. -/
theorem length_of_checkCommonName {name : String} (h : checkCommonName name = .ok ()) :
    (Utf8.encode name).length ≤ 64 := by
  unfold checkCommonName at h
  dsimp only at h
  split at h
  · next hlength => exact hlength.2
  · cases h

/-- A serial number that is accepted is positive. -/
theorem pos_of_checkSerial {serial : Int} (h : checkSerial serial = .ok ()) : 0 < serial := by
  unfold checkSerial at h
  split at h
  · cases h
  · omega

/-- The start of a validity is the moment that it was made from, in universal time and not before
the year 1950. -/
theorem universalStart_eq_ok {notBefore start : Moment} (h : universalStart notBefore = .ok start) :
    (start.wall : Int) = notBefore.instant ∧ earliestInstant ≤ start.wall := by
  unfold universalStart at h
  cases hm : notBefore.toUniversal? with
  | error e =>
    rw [hm] at h
    cases h
  | ok m =>
    rw [hm] at h
    obtain ⟨hwall, hinstant⟩ := Moment.toUniversal?_eq_ok hm
    by_cases hearly : m.instant < earliestInstant
    · simp [bind, Except.bind, hearly] at h
    · simp only [bind, Except.bind, mapError_ok, hearly, if_false, pure, Except.pure,
        Except.ok.injEq] at h
      subst h
      exact ⟨hwall, by omega⟩

/-- The end of a certificate in universal time is the instant that was asked for and not too early
to be stated. -/
theorem universalEnd_eq_ok {start notAfter stop : Moment}
    (h : universalEnd start notAfter = .ok stop) :
    (stop.wall : Int) = notAfter.instant ∧ earliestInstant ≤ stop.wall := by
  unfold universalEnd at h
  cases hm : notAfter.toUniversal? with
  | error e =>
    rw [hm] at h
    cases h
  | ok m =>
    rw [hm] at h
    obtain ⟨hwall, hinstant⟩ := Moment.toUniversal?_eq_ok hm
    by_cases hearly : m.instant < earliestInstant
    · simp [bind, Except.bind, hearly] at h
    by_cases hbefore : m.instant < start.instant
    · simp [bind, Except.bind, hearly, hbefore] at h
    · simp only [bind, Except.bind, mapError_ok, hearly, hbefore, if_false, pure, Except.pure,
        Except.ok.injEq] at h
      subst h
      exact ⟨hwall, by omega⟩

/-! ## The DNS name -/

/-- The alternative name of a subject is read again if it is short. -/
private theorem Extension.decode_dnsName {d : String} (hlength : (Utf8.encode d).length ≤ 64) :
    (Extension.dnsName d).decode = .ok [.dns d] := by
  have hname : (⟨.context 2, Utf8.encode d⟩ : Element).Fits := ⟨by simp, by dsimp only; omega⟩
  have hnames : (Element.sequence [⟨.context 2, Utf8.encode d⟩]).content.length < 2 ^ 32 := by
    have hencode := length_encode_le hname
    dsimp only at hencode
    change ([(⟨.context 2, Utf8.encode d⟩ : Element)].flatMap encode).length < _
    rw [List.flatMap_singleton]
    omega
  have hone : readOnly? (Extension.dnsName d).value =
      some (Element.sequence [⟨.context 2, Utf8.encode d⟩]) :=
    readOnly?_encode ⟨by simp, hnames⟩
  have hdecode : (Extension.dnsName d).decode =
      (do generalNames (← wellFormed (← wellFormed
        (readOnly? (Extension.dnsName d).value)).sequence?)) := by
    unfold Extension.decode
    exact if_pos rfl
  have hgeneral : GeneralName.ofElement? ⟨.context 2, Utf8.encode d⟩ =
      (Utf8.decode? (Utf8.encode d)).map .dns := rfl
  rw [hdecode, hone]
  dsimp only [wellFormed, bind, Except.bind]
  rw [sequence?_sequence hnames (by simp)]
  dsimp only
  rw [generalNames, List.mapM_cons, hgeneral, Utf8.decode?_encode]
  rfl

/-- The DNS name of a certificate for a server is the one that was asked for. -/
theorem dnsNames_serverExtensions {d : String} (hlength : (Utf8.encode d).length ≤ 64) :
    dnsNames (serverExtensions d) = .ok [d] := by
  have hrest : [Extension.basicConstraints false, .keyUsage 5 0xa0,
      .extendedKeyUsage [oidServerAuth, oidClientAuth]].mapM Extension.decode =
        .ok [[], [], []] := by decide +kernel
  have hdistinct : duplicateKind? [] (serverExtensions d) = none := rfl
  rw [dnsNames, hdistinct]
  dsimp only
  rw [serverExtensions, List.mapM_cons, Extension.decode_dnsName hlength, hrest]
  rfl

/-! ## The statement and its signature -/

/-- The kinds of the extensions of certificates made here are read again. -/
theorem oid?_serverExtensions (d : String) :
    ∀ x ∈ serverExtensions d, (Element.oid x.kind).oid? = some x.kind := by
  intro x hx
  simp only [serverExtensions, List.mem_cons, List.not_mem_nil, or_false] at hx
  have hnames : (Element.oid oidSubjectNames).oid? = some oidSubjectNames := by decide
  rcases hx with rfl | rfl | rfl | rfl
  · exact hnames
  · decide
  · decide
  · decide

/-- The kinds of the extensions of an authority's certificate are read again. -/
theorem oid?_authorityExtensions (key : KeyInfo) :
    ∀ x ∈ authorityExtensions key, (Element.oid x.kind).oid? = some x.kind := by
  intro x hx
  simp only [authorityExtensions, List.mem_cons, List.not_mem_nil, or_false] at hx
  have hidentifier : (Element.oid oidSubjectKeyId).oid? = some oidSubjectKeyId := by decide
  rcases hx with rfl | rfl | rfl
  · decide
  · decide
  · exact hidentifier

/-- A statement made here is legible if its names and the kinds of its extensions are. -/
theorem legible_statementOf {subject issuer : Name} {key : Rsa.PublicKey} {serial : Int}
    {start stop : Moment} {xs : List Extension}
    (hsubject : subject.element.content.length < 2 ^ 32 →
      Name.ofElement? subject.element = some subject)
    (hissuer : issuer.element.content.length < 2 ^ 32 →
      Name.ofElement? issuer.element = some issuer)
    (hserial : 0 < serial) (hstart : earliestInstant ≤ start.wall)
    (hstop : earliestInstant ≤ stop.wall)
    (hkinds : ∀ x ∈ xs, (Element.oid x.kind).oid? = some x.kind) :
    (statementOf subject issuer key serial start stop xs).Legible where
  version := rfl
  serial := hserial.le
  algorithm := AlgorithmId.ofElement?_rsaSha256
  issuer := hissuer
  notBefore := Stamp.inRange_ofMoment hstart
  notAfter := Stamp.inRange_ofMoment hstop
  subject := hsubject
  key := AlgorithmId.ofElement?_oidRsa
  extensions := hkinds

/-- A certificate of a statement, signed with a key. -/
structure Certificate.Signed (c : Certificate) (s : Statement) (signer : Rsa.PrivateKey) :
    Prop where
  statement : c.statement = s
  algorithm : c.algorithm = .rsaSha256
  read : Certificate.ofDer c.der = .ok c
  verified : signer.publicKey.verify .sha256 c.signed c.signature

/-- A certificate that a key whose signatures are right gives for a legible statement is signed with
that key. -/
theorem Statement.sign_eq_ok {s : Statement} {signer : Rsa.PrivateKey} {c : Certificate}
    (hs : s.Legible) (hk : signer.Signs .sha256) (h : s.sign signer = .ok c) :
    c.Signed s signer := by
  unfold sign at h
  cases hsign : signer.sign? .sha256 s.element.encode with
  | none =>
    rw [hsign] at h
    cases h
  | some signature =>
    rw [hsign] at h
    dsimp only at h
    cases hread : Certificate.ofDer (s.seal signature) with
    | error defect =>
      rw [hread] at h
      cases h
    | ok c' =>
      rw [hread] at h
      cases h
      have hc := Certificate.eq_of_ofDer_seal hs hread
      subst hc
      exact ⟨rfl, rfl, hread, hk _ _ hsign⟩

/-- A key that has signed a statement is long enough for its signature. -/
theorem Statement.exists_sign?_of_sign {s : Statement} {signer : Rsa.PrivateKey} {c : Certificate}
    (h : s.sign signer = .ok c) :
    ∃ signature, signer.sign? .sha256 s.element.encode = some signature := by
  unfold sign at h
  cases hsign : signer.sign? .sha256 s.element.encode with
  | none =>
    rw [hsign] at h
    cases h
  | some signature => exact ⟨signature, rfl⟩

/-- Signing a statement gives a certificate if the key is long enough and the certificate is not too
long. -/
theorem Statement.sign_of_sign? {s : Statement} {signer : Rsa.PrivateKey} {signature : Bytes}
    (hs : s.Legible) (hsign : signer.sign? .sha256 s.element.encode = some signature)
    (hfits : (Element.sequence (s.parts signature)).content.length < 2 ^ 32) :
    s.sign signer = .ok ⟨s.seal signature, s.element.encode, s, .rsaSha256, signature⟩ := by
  rw [sign, hsign]
  dsimp only
  rw [Certificate.ofDer_seal hs hfits]
  rfl

namespace Certificate

variable {c : Certificate} {s : Statement}

/-- A certificate that was made with another one's subject as its issuer is taken for one that the
other one's key has signed if and only if this is an RSA key under which the signature is right. -/
theorem checkIssuedBy_eq_ok_iff {issuer : Certificate} {signer : Rsa.PrivateKey}
    (hc : c.Signed s signer) (halgorithm : s.algorithm = .rsaSha256)
    (hissuer : s.issuer = issuer.statement.subject) :
    c.checkIssuedBy issuer = .ok () ↔
      ∃ k : Rsa.PublicKey, issuer.publicKey? = .ok (.rsa k) ∧
        k.verify .sha256 c.signed c.signature := by
  have hscheme : AlgorithmId.rsaSha256.scheme = .ok (.rsa .sha256) := by decide
  have hkind : AlgorithmId.rsaSha256.signerKind? = some .rsa := by decide
  unfold checkIssuedBy
  rw [hc.statement, hc.algorithm, halgorithm, hissuer]
  simp only [ne_eq, not_true_eq_false, if_false]
  cases hkey : issuer.publicKey? with
  | error defect => exact iff_of_false nofun (by rintro ⟨k, hk, _⟩; cases hk)
  | ok key =>
    cases key with
    | rsa k =>
      have hverify : (PublicKey.rsa k).verify (.rsa .sha256) c.signed c.signature =
          k.verify .sha256 c.signed c.signature := rfl
      simp only [PublicKey.signerKind?, hkind, hscheme, mapError_ok, bind, Except.bind, pure,
        Except.pure, hverify, not_true_eq_false, if_false, Except.ok.injEq,
        PublicKey.rsa.injEq, exists_eq_left']
      cases k.verify .sha256 c.signed c.signature with
      | true => exact iff_of_true rfl rfl
      | false => exact iff_of_false nofun nofun
    | dsa | weierstrass | ed25519 =>
      simp only [PublicKey.signerKind?, hkind]
      exact iff_of_false nofun (by rintro ⟨k, hk, _⟩; cases hk)
    | x25519 => exact iff_of_false nofun (by rintro ⟨k, hk, _⟩; cases hk)

/-- A certificate is issued by another one that is for the key it was signed with and has its
issuer's name. -/
theorem checkIssuedBy_of_signed {issuer : Certificate} {signer : Rsa.PrivateKey}
    (hc : c.Signed s signer) (halgorithm : s.algorithm = .rsaSha256)
    (hissuer : s.issuer = issuer.statement.subject)
    (hkey : issuer.publicKey? = .ok (.rsa signer.publicKey)) : c.checkIssuedBy issuer = .ok () :=
  (checkIssuedBy_eq_ok_iff hc halgorithm hissuer).mpr ⟨_, hkey, hc.verified⟩

/-- Whatever certificate is taken for one that another one's key has signed, its signature is right
under that key. -/
theorem verify_of_checkIssuedBy {issuer : Certificate} {key : PublicKey}
    (hkey : issuer.publicKey? = .ok key) (h : c.checkIssuedBy issuer = .ok ()) :
    ∃ scheme, c.algorithm.scheme = .ok scheme ∧ key.verify scheme c.signed c.signature = true := by
  unfold checkIssuedBy at h
  rw [hkey, mapError_ok] at h
  simp only [bind, Except.bind, pure, Except.pure] at h
  split at h
  · cases h
  split at h
  · cases h
  split at h
  · cases h
  · cases h
  split at h
  · cases h
  cases hscheme : c.algorithm.scheme with
  | error defect =>
    rw [hscheme] at h
    cases h
  | ok scheme =>
    rw [hscheme, mapError_ok] at h
    dsimp only at h
    refine ⟨scheme, rfl, ?_⟩
    cases hverify : key.verify scheme c.signed c.signature with
    | true => rfl
    | false =>
      rw [hverify] at h
      cases h

/-- A certificate is valid at the moment of its start, if its end lies at least a second later; it
ends with the last whole second before the end that was asked for. -/
theorem exists_validAt {now start stop : Moment} (hvalidity : c.statement.validity =
      ⟨.ofMoment start, .ofMoment stop⟩) (hstart : (start.wall : Int) = now.instant)
    (hstop : now.instant + 1000000 ≤ stop.wall) :
    ∃ notAfter, c.ValidAt now notAfter ∧
      notAfter.instant = (stop.wall : Int) / 1000000 * 1000000 := by
  obtain ⟨first, hfirst, hfirstOffset, hfirstWall⟩ := Stamp.moment?_ofMoment start
  obtain ⟨last, hlast, hlastOffset, hlastWall⟩ := Stamp.moment?_ofMoment stop
  have hbefore : c.notBefore? = .ok first := by rw [notBefore?, hvalidity, hfirst]
  have hafter : c.notAfter? = .ok last := by rw [notAfter?, hvalidity, hlast]
  have hfirstInstant : first.instant = first.wall := by
    rw [Moment.instant, hfirstOffset]
    exact Int.sub_zero _
  have hlastInstant : last.instant = last.wall := by
    rw [Moment.instant, hlastOffset]
    exact Int.sub_zero _
  refine ⟨last, ⟨?_, hafter, first, hbefore, ?_⟩, ?_⟩
  · omega
  · omega
  · omega

end Certificate

end CertKeeper.X509
