import CertKeeper.Proofs.Running
import CertKeeper.Proofs.SignedCertificate

/-!
# Issued pairs

Whatever pair an authority that was made here issues, the authority itself finds it to be a valid
one, for the name and from the moment that it was issued for (`SelfSigned.holds_of_issue`). Of any
other authority whose signatures are right this holds but for the signature, which is judged by the
key of the authority's certificate (`SelfSigned.exists_minted_of_issue`).
-/

namespace CertKeeper

open CertKeeper.Action Crypto Encoding Der X509

namespace Signing

variable {τ : Type} {g : Handler Signing τ} {t t' : τ}

/-- A key is drawn if there is one of the number of bits that is asked for. -/
theorem runWith_drawKey (g : Handler Signing τ) (exponent : Nat) (bits : Int) (t : τ) :
    runWith g (drawKey exponent bits) t =
      (if (g (Request.drawKey exponent bits) t).1.modulus = 0 then
          .error (.issue (.noKey bits))
        else .ok (g (Request.drawKey exponent bits) t).1,
        (g (Request.drawKey exponent bits) t).2) := by
  unfold drawKey
  rw [runWith_bind]
  change runWith g (do
    if (g (Request.drawKey exponent bits) t).1.modulus = noKey.modulus then
      throw (.issue (.noKey bits))
    return (g (Request.drawKey exponent bits) t).1) (g (Request.drawKey exponent bits) t).2 = _
  change runWith g (if (g (Request.drawKey exponent bits) t).1.modulus = 0 then _ else _) _ = _
  split <;> rfl

/-- Every key of a number of bits that whoever answers the authorities draws is one that was made
as RSA keys are made, with that number of bits. Where no key of the size can be made, none is
drawn. -/
def DrawsSoundFor (g : Handler Signing τ) (bits : Int) : Prop :=
  ∀ (t t' : τ) (k : Rsa.PrivateKey),
    runWith g (drawKey SelfSigned.publicExponent bits) t = (.ok k, t') →
      k.Sound ∧ (bitLength k.modulus : Int) = bits

/-- A key drawn where only sound keys of the size are drawn is sound. -/
theorem DrawsSoundFor.sound {bits : Int} (hg : DrawsSoundFor g bits) {k : Rsa.PrivateKey}
    (hrun : runWith g (drawKey SelfSigned.publicExponent bits) t = (.ok k, t')) : k.Sound :=
  (hg t t' k hrun).1

end Signing

namespace SelfSigned

variable {a : SelfSigned} {τ : Type} {g : Handler Signing τ} {t t' : τ}

/-- An authority that was made here: its certificate is for its own key and is read again, and so is
the name in it. -/
structure Genuine (a : SelfSigned) : Prop where
  key : a.key.Sound
  certified : a.certificate.publicKey? = .ok (.rsa a.key.publicKey)
  read : Certificate.ofDer a.certificate.der = .ok a.certificate
  subject : a.certificate.statement.subject.element.content.length < 2 ^ 32 →
    Name.ofElement? a.certificate.statement.subject.element =
      some a.certificate.statement.subject

/-- What has been checked and signed when a new authority has been made. -/
structure Generated (a : SelfSigned) (o : Options) : Prop where
  keyBits : 2048 ≤ o.keyBits
  commonName : checkCommonName o.commonName = .ok ()
  organization : a.organization = o.organization
  leafBits : a.leafBits = defaultLeafBits
  signed : ∃ serial start stop, checkSerial serial = .ok () ∧
    earliestInstant ≤ (Moment.wall start : Int) ∧ earliestInstant ≤ (Moment.wall stop : Int) ∧
    (statementOf (.ofCommonName o.commonName o.organization)
      (.ofCommonName o.commonName o.organization) a.key.publicKey serial start stop
        (authorityExtensions (.ofRsa a.key.publicKey))).sign a.key = .ok a.certificate

/-- A new authority has passed the checks of its options and has a key that was drawn for it. -/
theorem generated_of_generate {o : Options} (hrun : runWith g (generate o) t = (.ok a, t')) :
    a.Generated o ∧
      ∃ t₁, runWith g (Signing.drawKey publicExponent o.keyBits) t = (.ok a.key, t₁) := by
  unfold generate at hrun
  split at hrun
  · cases hrun
  next hbits =>
  obtain ⟨key, t₁, hkey, hrun⟩ := runWith_bind_eq_ok.mp hrun
  obtain ⟨now, t₂, _, hrun⟩ := runWith_bind_eq_ok.mp hrun
  obtain ⟨_, hname, hrun⟩ := runWith_ofExcept_bind_eq_ok.mp hrun
  obtain ⟨serial, t₃, _, hrun⟩ := runWith_bind_eq_ok.mp hrun
  obtain ⟨_, hserial, hrun⟩ := runWith_ofExcept_bind_eq_ok.mp hrun
  obtain ⟨start, hstart, hrun⟩ := runWith_ofExcept_bind_eq_ok.mp hrun
  obtain ⟨lifetime, _, hrun⟩ := runWith_ofExcept_bind_eq_ok.mp hrun
  obtain ⟨notAfter, _, hrun⟩ := runWith_ofExcept_bind_eq_ok.mp hrun
  obtain ⟨stop, hstop, hrun⟩ := runWith_ofExcept_bind_eq_ok.mp hrun
  obtain ⟨certificate, hsign, hrun⟩ := runWith_ofExcept_bind_eq_ok.mp hrun
  cases hrun
  refine ⟨⟨by omega, hname, rfl, rfl, serial, start, stop, hserial, ?_, ?_, hsign⟩, t₁, hkey⟩
  · exact (universalStart_eq_ok hstart).2
  · exact (universalEnd_eq_ok hstop).2

namespace Generated

variable {o : Options}

/-- The certificate of a new authority is signed with the authority's own key and states that key
under the authority's name. -/
theorem exists_signed (h : a.Generated o) (hkey : a.key.Sound) :
    ∃ serial start stop, a.certificate.Signed (statementOf
      (.ofCommonName o.commonName o.organization) (.ofCommonName o.commonName o.organization)
        a.key.publicKey serial start stop (authorityExtensions (.ofRsa a.key.publicKey)))
        a.key := by
  obtain ⟨serial, start, stop, hserial, hstart, hstop, hsign⟩ := h.signed
  have hname := fun h => @Name.ofElement?_ofCommonName o.commonName o.organization h
  have hlegible : (statementOf _ _ a.key.publicKey serial start stop _).Legible :=
    legible_statementOf hname hname (pos_of_checkSerial hserial) hstart hstop
      (oid?_authorityExtensions (.ofRsa a.key.publicKey))
  exact ⟨serial, start, stop, Statement.sign_eq_ok hlegible (hkey.signs _) hsign⟩

/-- The certificate of a new authority is for the name of its options. -/
theorem subject (h : a.Generated o) (hkey : a.key.Sound) :
    a.certificate.statement.subject = .ofCommonName o.commonName o.organization := by
  obtain ⟨serial, start, stop, hsigned⟩ := h.exists_signed hkey
  rw [hsigned.statement]
  rfl

/-- The certificate of a new authority names the authority's organization. -/
theorem organization? (h : a.Generated o) (hkey : a.key.Sound) :
    a.certificate.statement.subject.organization? = .ok (some a.organization) := by
  rw [h.subject hkey, h.organization]
  exact Name.organization?_ofCommonName _ _

/-- A new authority with a sound key is genuine. -/
theorem genuine (h : a.Generated o) (hkey : a.key.Sound) : a.Genuine := by
  obtain ⟨serial, start, stop, hsigned⟩ := h.exists_signed hkey
  refine ⟨hkey, ?_, hsigned.read, fun hfits => ?_⟩
  · rw [Certificate.publicKey?, hsigned.statement]
    exact KeyInfo.publicKey?_of_sound hkey
  · rw [h.subject hkey] at hfits ⊢
    exact Name.ofElement?_ofCommonName hfits

end Generated

/-- The key of a new authority was made as RSA keys are made. -/
theorem sound_of_generate {o : Options} (hg : Signing.DrawsSoundFor g o.keyBits)
    (hrun : runWith g (generate o) t = (.ok a, t')) : a.key.Sound := by
  obtain ⟨_, t₁, hkey⟩ := generated_of_generate hrun
  exact hg.sound hkey

/-- A new authority is one that was made here. -/
theorem genuine_of_generate {o : Options} (hg : Signing.DrawsSoundFor g o.keyBits)
    (hrun : runWith g (generate o) t = (.ok a, t')) : a.Genuine :=
  (generated_of_generate hrun).1.genuine (sound_of_generate hg hrun)

/-- What an authority has checked and signed when it has issued a certificate for a key, valid from
a moment on. -/
structure Issued (a : SelfSigned) (o : IssueOptions) (notBefore : Moment) (k : Rsa.PrivateKey)
    (c : Certificate) : Prop where
  ends : o.notAfter.le? notBefore = .ok false
  commonName : checkCommonName o.dnsName = .ok ()
  dnsName : checkDnsName o.dnsName = .ok ()
  signed : ∃ serial start stop, checkSerial serial = .ok () ∧
    universalStart notBefore = .ok start ∧ universalEnd start o.notAfter = .ok stop ∧
    (statementOf (.ofCommonName o.dnsName a.organization) a.certificate.statement.subject
      k.publicKey serial start stop (serverExtensions o.dnsName)).sign a.key = .ok c

/-- An issued pair has passed the checks of what it was asked for and has a key that was drawn for
it. -/
private theorem issued_of_issue {o : IssueOptions} {now : Option Moment} {pair : Bytes × Bytes}
    (hrun : runWith g (a.issue o now) t = (.ok pair, t')) :
    ∃ notBefore k c t₁ t₂, runWith g (Signing.momentOr now) t = (.ok notBefore, t₁) ∧
      runWith g (Signing.drawKey publicExponent a.leafBits) t₁ = (.ok k, t₂) ∧
      a.Issued o notBefore k c ∧ pair = (c.text, PrivateKey.writeRsa k) := by
  unfold issue at hrun
  obtain ⟨notBefore, t₁, hclock, hrun⟩ := runWith_bind_eq_ok.mp hrun
  obtain ⟨ends, hends, hrun⟩ := runWith_ofExcept_bind_eq_ok.mp hrun
  cases ends with
  | true => cases hrun
  | false =>
    obtain ⟨k, t₂, hkey, hrun⟩ := runWith_bind_eq_ok.mp hrun
    obtain ⟨_, hname, hrun⟩ := runWith_ofExcept_bind_eq_ok.mp hrun
    obtain ⟨serial, t₃, _, hrun⟩ := runWith_bind_eq_ok.mp hrun
    obtain ⟨_, hserial, hrun⟩ := runWith_ofExcept_bind_eq_ok.mp hrun
    obtain ⟨start, hstart, hrun⟩ := runWith_ofExcept_bind_eq_ok.mp hrun
    obtain ⟨stop, hstop, hrun⟩ := runWith_ofExcept_bind_eq_ok.mp hrun
    obtain ⟨_, hdns, hrun⟩ := runWith_ofExcept_bind_eq_ok.mp hrun
    obtain ⟨c, hsign, hrun⟩ := runWith_ofExcept_bind_eq_ok.mp hrun
    cases hrun
    exact ⟨notBefore, k, c, t₁, t₂, hclock, hkey,
      ⟨hends, hname, hdns, serial, start, stop, hserial, hstart, hstop, hsign⟩, rfl⟩

/-- At a given moment, what is issued for the key and the serial number that are drawn is the
certificate that is signed for them. -/
theorem runWith_issue_eq {o : IssueOptions} {now start stop : Moment} {k : Rsa.PrivateKey}
    {serial : Int} {c : Certificate} {t₁ t₂ : τ} (hends : o.notAfter.le? now = .ok false)
    (hkey : runWith g (Signing.drawKey publicExponent a.leafBits) t = (.ok k, t₁))
    (hcommonName : checkCommonName o.dnsName = .ok ())
    (hdraw : runWith g Signing.drawSerial t₁ = (.ok serial, t₂))
    (hserial : checkSerial serial = .ok ()) (hstart : universalStart now = .ok start)
    (hstop : universalEnd start o.notAfter = .ok stop) (hdnsName : checkDnsName o.dnsName = .ok ())
    (hsign : (statementOf (.ofCommonName o.dnsName a.organization)
      a.certificate.statement.subject k.publicKey serial start stop
        (serverExtensions o.dnsName)).sign a.key = .ok c) :
    runWith g (a.issue o (some now)) t = (.ok (c.text, PrivateKey.writeRsa k), t₂) := by
  unfold issue
  refine runWith_bind_eq_ok.mpr ⟨now, t, rfl, ?_⟩
  refine runWith_ofExcept_bind_eq_ok.mpr ⟨false, hends, ?_⟩
  refine runWith_bind_eq_ok.mpr ⟨k, t₁, hkey, ?_⟩
  refine runWith_ofExcept_bind_eq_ok.mpr ⟨(), hcommonName, ?_⟩
  refine runWith_bind_eq_ok.mpr ⟨serial, t₂, hdraw, ?_⟩
  refine runWith_ofExcept_bind_eq_ok.mpr ⟨(), hserial, ?_⟩
  refine runWith_ofExcept_bind_eq_ok.mpr ⟨start, hstart, ?_⟩
  refine runWith_ofExcept_bind_eq_ok.mpr ⟨stop, hstop, ?_⟩
  refine runWith_ofExcept_bind_eq_ok.mpr ⟨(), hdnsName, ?_⟩
  exact runWith_ofExcept_bind_eq_ok.mpr ⟨c, hsign, rfl⟩

/-- What an authority has signed when it has issued a pair: the statement about a key that was
drawn, for the name and the time that were asked for. -/
structure Stated (a : SelfSigned) (o : IssueOptions) (now : Moment) (k : Rsa.PrivateKey)
    (c : Certificate) (start stop : Moment) : Prop where
  key : k.Sound
  commonName : checkCommonName o.dnsName = .ok ()
  dnsName : checkDnsName o.dnsName = .ok ()
  starts : (start.wall : Int) = now.instant
  ends : (stop.wall : Int) = o.notAfter.instant
  signed : ∃ serial, c.Signed (statementOf (.ofCommonName o.dnsName a.organization)
    a.certificate.statement.subject k.publicKey serial start stop
      (serverExtensions o.dnsName)) a.key

/-- An issued pair has been signed as it was asked for if the authority's name is read again and its
signatures are right. -/
theorem exists_stated_of_issue {o : IssueOptions} {now : Moment} {pair : Bytes × Bytes}
    (hsubject : a.certificate.statement.subject.element.content.length < 2 ^ 32 →
      Name.ofElement? a.certificate.statement.subject.element =
        some a.certificate.statement.subject)
    (hsigns : a.key.Signs .sha256) (hg : Signing.DrawsSoundFor g a.leafBits)
    (hrun : runWith g (a.issue o (some now)) t = (.ok pair, t')) :
    ∃ k c start stop, pair = (c.text, PrivateKey.writeRsa k) ∧ a.Stated o now k c start stop := by
  obtain ⟨notBefore, k, c, t₁, t₂, hclock, hkey, hissued, hpair⟩ := issued_of_issue hrun
  cases hclock
  obtain ⟨serial, start, stop, hserial, hstart, hstop, hsign⟩ := hissued.signed
  obtain ⟨hstart, hstartEarliest⟩ := universalStart_eq_ok hstart
  obtain ⟨hstop, hstopEarliest⟩ := universalEnd_eq_ok hstop
  have hserver := fun h => @Name.ofElement?_ofCommonName o.dnsName a.organization h
  have hlegible : (statementOf _ _ k.publicKey serial start stop _).Legible :=
    legible_statementOf hserver hsubject (pos_of_checkSerial hserial) hstartEarliest
      hstopEarliest (oid?_serverExtensions o.dnsName)
  have hsigned := Statement.sign_eq_ok hlegible hsigns hsign
  exact ⟨k, c, start, stop, hpair, hg.sound hkey, hissued.commonName, hissued.dnsName, hstart,
    hstop, serial, hsigned⟩

namespace Stated

variable {o : IssueOptions} {k : Rsa.PrivateKey} {c : Certificate} {now start stop : Moment}

/-- The certificate is read from its text. -/
theorem ofText_text (h : a.Stated o now k c start stop) : Certificate.ofText c.text = .ok c := by
  obtain ⟨serial, hsigned⟩ := h.signed
  rw [Certificate.ofText_text, hsigned.read]

/-- The certificate of an issued pair is for the pair's key. -/
theorem publicKey? (h : a.Stated o now k c start stop) :
    c.publicKey? = .ok (.rsa k.publicKey) := by
  obtain ⟨serial, hsigned⟩ := h.signed
  rw [Certificate.publicKey?, hsigned.statement]
  exact KeyInfo.publicKey?_of_sound h.key

/-- The key is its own. -/
theorem checkKey (h : a.Stated o now k c start stop) :
    CertKeeper.checkKey c (PrivateKey.writeRsa k) = .ok () := by
  rw [CertKeeper.checkKey, PrivateKey.ofText_writeRsa h.key, h.publicKey?]
  exact if_pos rfl

/-- The certificate of an issued pair bears the DNS name that was asked for and no other. -/
theorem dnsNames? (h : a.Stated o now k c start stop) : c.dnsNames? = .ok [o.dnsName] := by
  obtain ⟨serial, hsigned⟩ := h.signed
  rw [Certificate.dnsNames?, hsigned.statement]
  exact dnsNames_serverExtensions (length_of_checkCommonName h.commonName)

/-- The certificate of an issued pair is valid from the start to the end that were asked for. -/
theorem validity (h : a.Stated o now k c start stop) :
    c.statement.validity = ⟨.ofMoment start, .ofMoment stop⟩ := by
  obtain ⟨serial, hsigned⟩ := h.signed
  rw [hsigned.statement]
  rfl

end Stated

/-- A certificate with its key, as an authority makes them: the certificate is read from its text,
the key is its own, the authority has signed it, it is valid from the moment on that it was made at
until the end that was asked for, without the fraction of a second, and it bears the name that it
was made for. -/
structure Minted (a : SelfSigned) (o : IssueOptions) (now : Moment) (pair : Bytes × Bytes)
    (c : Certificate) : Prop where
  text : Certificate.ofText pair.1 = .ok c
  own : checkKey c pair.2 = .ok ()
  signed : ∃ s, c.Signed s a.key ∧ s.algorithm = .rsaSha256 ∧
    s.issuer = a.certificate.statement.subject
  valid : ∃ last, c.ValidAt now last ∧ last.instant = o.notAfter.instant / 1000000 * 1000000
  names : c.dnsNames? = .ok [o.dnsName]

/-- A pair that is asked for at least a second before its end and issued is one that an authority
has made as it should. -/
theorem exists_minted_of_issue {o : IssueOptions} {now : Moment} {pair : Bytes × Bytes}
    (hsubject : a.certificate.statement.subject.element.content.length < 2 ^ 32 →
      Name.ofElement? a.certificate.statement.subject.element =
        some a.certificate.statement.subject)
    (hsigns : a.key.Signs .sha256) (hg : Signing.DrawsSoundFor g a.leafBits)
    (hlate : now.instant + 1000000 ≤ o.notAfter.instant)
    (hrun : runWith g (a.issue o (some now)) t = (.ok pair, t')) : ∃ c, a.Minted o now pair c := by
  obtain ⟨k, c, start, stop, rfl, hstated⟩ := exists_stated_of_issue hsubject hsigns hg hrun
  obtain ⟨serial, hsigned⟩ := hstated.signed
  refine ⟨c, hstated.ofText_text, hstated.checkKey, ⟨_, hsigned, rfl, rfl⟩, ?_, hstated.dnsNames?⟩
  rw [← hstated.ends] at hlate ⊢
  exact Certificate.exists_validAt hstated.validity hstated.starts hlate

/-- A genuine authority takes the certificate of a pair that it has issued for one of its own, and
the key of the pair for the certificate's. -/
theorem holds_of_issue (ha : a.Genuine) (hg : Signing.DrawsSoundFor g a.leafBits)
    {now notAfter : Moment} {dnsName : String} {certificate key : Bytes}
    (hlate : now.instant + 1000000 ≤ notAfter.instant)
    (hrun : runWith g (a.issue ⟨notAfter, dnsName⟩ (some now)) t =
      (.ok (certificate, key), t')) :
    ∃ c, Certificate.ofText certificate = .ok c ∧ checkKey c key = .ok () ∧
      c.checkIssuedBy a.certificate = .ok () ∧
      (∃ last, c.ValidAt now last ∧ last.instant = notAfter.instant / 1000000 * 1000000) ∧
      c.dnsNames? = .ok [dnsName] := by
  obtain ⟨c, hc⟩ := exists_minted_of_issue ha.subject (ha.key.signs _) hg hlate hrun
  obtain ⟨s, hsigned, halgorithm, hissuer⟩ := hc.signed
  have hissued := Certificate.checkIssuedBy_of_signed hsigned halgorithm hissuer ha.certified
  exact ⟨c, hc.text, hc.own, hissued, hc.valid, hc.names⟩

end SelfSigned

/-! ## An authority to try -/

/-- The start of March 2025 in universal time. -/
def Moment.march : Moment := ⟨739310 * 86400000000, some 0, by decide⟩

/-- The moment ten years of 365 days later. -/
def Moment.decadeLater : Moment := ⟨742960 * 86400000000, some 0, by decide⟩

/-- The moment 180 days later. -/
def Moment.august : Moment := ⟨739490 * 86400000000, some 0, by decide⟩

/-- The one key that steady surroundings have, if it has as many bits as are asked for. -/
def Signing.steadyKey (bits : Int) : Rsa.PrivateKey := if bits = 2048 then .large else noKey

/-- Surroundings of authorities in which it is always the start of March 2025 and every drawn key is
the same one, of 2048 bits. Keys of other sizes cannot be made, and there is no signer outside the
library. -/
def Signing.steady : Handler Signing Unit
  | .clock, _ => (.march, ())
  | .drawKey _ bits, _ => (steadyKey bits, ())
  | .drawSerial, _ => ((1 : Int), ())
  | .consultIssue _ _, _ => (.error (.external .runtime "no answer"), ())
  | .consultValidate _ _ _, _ => (.error (.external .runtime "no answer"), ())

/-- In steady surroundings a key of 2048 bits can be drawn, and no key of another size. -/
theorem Signing.runWith_drawKey_steady (bits : Int) :
    runWith steady (drawKey SelfSigned.publicExponent bits) () =
      (if bits = 2048 then .ok .large else .error (.issue (.noKey bits)), ()) := by
  have hanswer : steady (Request.drawKey SelfSigned.publicExponent bits) () =
      (steadyKey bits, ()) := rfl
  rw [runWith_drawKey, hanswer, steadyKey]
  split
  · rw [if_neg Rsa.PrivateKey.sound_large.modulus_pos.ne']
  · rfl

/-- The only key of steady surroundings is sound and has 2048 bits. -/
theorem Signing.drawsSoundFor_steady (bits : Int) : DrawsSoundFor steady bits := by
  intro t t' k hrun
  rw [runWith_drawKey_steady] at hrun
  split at hrun
  case isTrue hbits =>
    obtain rfl : .large = k := Except.ok.inj (congrArg Prod.fst hrun)
    have hlength : bitLength Rsa.PrivateKey.large.modulus = 2048 := by decide +kernel
    rw [hlength]
    exact ⟨Rsa.PrivateKey.sound_large, hbits.symm⟩
  case isFalse => cases hrun

namespace SelfSigned

variable {a : SelfSigned}

/-- A new authority whose key has 2048 bits. -/
def Options.short : Options := { Options.default with keyBits := 2048 }

/-- The name of that authority. -/
def shortName : Name := .ofCommonName "tls-reconciler CA" defaultOrganization

/-- What its certificate states. -/
def shortStatement : Statement :=
  statementOf shortName shortName Rsa.PrivateKey.large.publicKey 1 .march .decadeLater
    (authorityExtensions (.ofRsa Rsa.PrivateKey.large.publicKey))

/-- The large key signs every statement whose certificate is not too long. -/
theorem exists_sign_large {s : Statement} (hs : s.Legible)
    (hfits : (Rsa.PrivateKey.large.sign? .sha256 s.element.encode).map (fun signature =>
      decide ((Element.sequence (s.parts signature)).content.length < 2 ^ 32)) = some true) :
    ∃ c, s.sign .large = .ok c ∧ c.statement = s := by
  rw [Option.map_eq_some_iff] at hfits
  obtain ⟨signature, hsign, hfits⟩ := hfits
  exact ⟨_, Statement.sign_of_sign? hs hsign (of_decide_eq_true hfits), rfl⟩

/-- An authority is the new one of the fewest years but for the encodings of its certificate. -/
structure Short (a : SelfSigned) : Prop where
  statement : a.certificate.statement = shortStatement
  key : a.key = .large
  organization : a.organization = defaultOrganization
  leafBits : a.leafBits = defaultLeafBits

/-- The new authority of the fewest years is made if every draw gives the large key. -/
theorem exists_generate_short :
    ∃ a, runWith Signing.steady (generate .short) () = (.ok a, ()) ∧ a.Short := by
  have hname := fun h => @Name.ofElement?_ofCommonName "tls-reconciler CA" defaultOrganization h
  have hlegible : shortStatement.Legible :=
    legible_statementOf hname hname (by decide) (by decide) (by decide)
      (oid?_authorityExtensions _)
  obtain ⟨c, hsign, hc⟩ := exists_sign_large hlegible (by decide +kernel)
  refine ⟨⟨c, .large, defaultOrganization, defaultLeafBits⟩, ?_, hc, rfl, rfl, rfl⟩
  unfold generate
  rw [if_neg (by decide)]
  refine runWith_bind_eq_ok.mpr ⟨.large, (), Signing.runWith_drawKey_steady 2048, ?_⟩
  refine runWith_bind_eq_ok.mpr ⟨.march, (), rfl, ?_⟩
  refine runWith_ofExcept_bind_eq_ok.mpr ⟨(), by decide, ?_⟩
  refine runWith_bind_eq_ok.mpr ⟨(1 : Int), (), rfl, ?_⟩
  refine runWith_ofExcept_bind_eq_ok.mpr ⟨(), by decide, ?_⟩
  refine runWith_ofExcept_bind_eq_ok.mpr ⟨.march, by decide, ?_⟩
  refine runWith_ofExcept_bind_eq_ok.mpr ⟨_, rfl, ?_⟩
  refine runWith_ofExcept_bind_eq_ok.mpr ⟨.decadeLater, by decide, ?_⟩
  refine runWith_ofExcept_bind_eq_ok.mpr ⟨.decadeLater, by decide, ?_⟩
  exact runWith_ofExcept_bind_eq_ok.mpr ⟨c, hsign, rfl⟩

/-- The DNS name of the service of settings that say nothing. -/
def serviceName : String := "webhook-service.default.svc"

/-- What the certificate states that the authority issues for a server. -/
def serverStatement : Statement :=
  statementOf (.ofCommonName serviceName defaultOrganization) shortName
    Rsa.PrivateKey.large.publicKey 1 .march .august (serverExtensions serviceName)

/-- An authority issues a pair for a server in steady surroundings if the statement about it can be
signed. -/
theorem runWith_issue_steady (hbits : a.leafBits = 2048) {leaf : Certificate}
    {now notAfter start stop : Moment} (hends : notAfter.le? now = .ok false)
    (hstart : universalStart now = .ok start) (hstop : universalEnd start notAfter = .ok stop)
    (hsign : (statementOf (.ofCommonName serviceName a.organization)
      a.certificate.statement.subject Rsa.PrivateKey.large.publicKey 1 start stop
        (serverExtensions serviceName)).sign a.key = .ok leaf) :
    runWith Signing.steady (a.issue ⟨notAfter, serviceName⟩ (some now)) () =
      (.ok (leaf.text, PrivateKey.writeRsa .large), ()) := by
  have hcommonName : checkCommonName serviceName = .ok () := by decide
  have hdnsName : checkDnsName serviceName = .ok () := by decide
  have hdraw : runWith Signing.steady (Signing.drawKey publicExponent a.leafBits) () =
      (.ok .large, ()) := by
    rw [hbits]
    exact Signing.runWith_drawKey_steady 2048
  have hdrawSerial : runWith Signing.steady Signing.drawSerial () = (.ok (1 : Int), ()) := rfl
  exact runWith_issue_eq hends hdraw hcommonName hdrawSerial (by decide) hstart hstop hdnsName hsign

/-- An authority like the new one of the fewest years issues a pair for a server at a moment of the
first second of March 2025, for 180 days. -/
theorem Short.exists_issue_at (ha : a.Short) {now notAfter start stop : Moment}
    (hends : notAfter.le? now = .ok false) (hstart : universalStart now = .ok start)
    (hstop : universalEnd start notAfter = .ok stop)
    (hfirst : Stamp.ofMoment start = .ofMoment .march)
    (hlast : Stamp.ofMoment stop = .ofMoment .august) :
    ∃ pair, runWith Signing.steady (a.issue ⟨notAfter, serviceName⟩ (some now)) () =
      (.ok pair, ()) := by
  have hname := fun h => @Name.ofElement?_ofCommonName "tls-reconciler CA" defaultOrganization h
  have hserver := fun h => @Name.ofElement?_ofCommonName serviceName defaultOrganization h
  have hlegible : serverStatement.Legible :=
    legible_statementOf hserver hname (by decide) (by decide) (by decide)
      (oid?_serverExtensions _)
  obtain ⟨leaf, hsign, _⟩ := exists_sign_large hlegible (by decide +kernel)
  have hstatement : statementOf (.ofCommonName serviceName a.organization)
      a.certificate.statement.subject Rsa.PrivateKey.large.publicKey 1 start stop
        (serverExtensions serviceName) = serverStatement := by
    rw [ha.statement, ha.organization, serverStatement, statementOf, statementOf, hfirst, hlast]
    rfl
  refine ⟨(leaf.text, PrivateKey.writeRsa .large),
    runWith_issue_steady ha.leafBits hends hstart hstop ?_⟩
  rw [hstatement, ha.key]
  exact hsign

/-- An authority like the new one of the fewest years issues a pair for a server at the start of
March 2025, for 180 days. -/
theorem Short.exists_issue (ha : a.Short) :
    ∃ pair, runWith Signing.steady (a.issue ⟨.august, serviceName⟩ (some .march)) () =
      (.ok pair, ()) := by
  have hstart : universalStart .march = .ok .march := by decide
  have hstop : universalEnd .march .august = .ok .august := by decide
  exact ha.exists_issue_at (by decide) hstart hstop rfl rfl

end SelfSigned

end CertKeeper
