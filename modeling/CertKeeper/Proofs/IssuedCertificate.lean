import CertKeeper.Proofs.IssuedPair

/-!
# What a certificate that is issued says

Making a certificate and judging it meet at what the certificate states: a pair that an authority
made here issues bears the name, the time and the key that it was asked for, and the authority
accepts it from its start until before its end, without a name or for its own one
(`SelfSigned.issued_as_requested`). A pair that would end before it starts is refused before a key
is drawn, and no other one is (`SelfSigned.refused_iff`).
-/

namespace CertKeeper

open CertKeeper.Action Crypto Encoding Der X509

namespace X509

/-! ## What the extensions of a certificate say about its subject -/

/-- Whether the subject of a certificate with some extensions may issue certificates, if that is
said once and legibly. The flag is left out where it is not set. -/
def mayIssue? (xs : List Extension) : Option Bool := do
  match xs.filter (·.kind = oidBasicConstraints) with
  | [x] =>
    match ← (← readOnly? x.value).sequence? with
    | [] => some false
    | flag :: _ => flag.boolean?
  | _ => none

/-- A server may not. -/
private theorem mayIssue?_serverExtensions (d : String) :
    mayIssue? (serverExtensions d) = some false := by
  have hone : (serverExtensions d).filter (·.kind = oidBasicConstraints) =
      [.basicConstraints false] := rfl
  rw [mayIssue?, hone]
  decide

/-- An authority may. -/
example (key : KeyInfo) : mayIssue? (authorityExtensions key) = some true := by
  have hone : (authorityExtensions key).filter (·.kind = oidBasicConstraints) =
      [.basicConstraints true] := rfl
  rw [mayIssue?, hone]
  decide

/-- The ends of a validity that was made from two moments of universal time are these without their
fractions of a second. -/
theorem Stamp.exists_moment?_ofMoment {m : Moment} {instant : Int} (hm : (m.wall : Int) = instant) :
    ∃ m' : Moment, (ofMoment m).moment? = .ok m' ∧ m'.offset = some 0 ∧
      m'.instant = instant / 1000000 * 1000000 := by
  obtain ⟨m', hread, hoffset, hwall⟩ := moment?_ofMoment m
  refine ⟨m', hread, hoffset, ?_⟩
  rw [Moment.instant, hoffset, hwall]
  simp only [Option.getD_some]
  omega

end X509

namespace SelfSigned

/-- What an authority says about a certificate at a moment, for a DNS name if one is given, where
the certificate is valid from one moment until another and bears one name. -/
structure JudgedWithin (first last : Moment) (own : String) (dnsName : Option String) (t : Moment)
    (verdict : Verdict) : Prop where
  accepted : verdict = .accepted ↔
    (first.instant ≤ t.instant ∧ t.instant < last.instant) ∧ (dnsName = none ∨ dnsName = some own)
  expired : (∃ rejection, verdict = .rejected rejection ∧ rejection.kind = .expired) ↔
    last.instant ≤ t.instant
  other : ∀ rejection, verdict = .rejected rejection → t.instant < last.instant →
    rejection.kind = .other
  chain : ∀ rejection, verdict = .rejected rejection → rejection.kind ≠ .chainMismatch

variable {ca : SelfSigned} {c : Certificate} {own : String} {dnsName : Option String}
  {first last t : Moment}

namespace JudgedWithin

/-- Acceptance is right between the two ends of a certificate, for no name or for its own. -/
theorem of_accepted (hstarted : first.instant ≤ t.instant) (hlt : t.instant < last.instant)
    (hname : dnsName = none ∨ dnsName = some own) :
    JudgedWithin first last own dnsName t .accepted where
  accepted := iff_of_true rfl ⟨⟨hstarted, hlt⟩, hname⟩
  expired := iff_of_false nofun (by omega)
  other := nofun
  chain := nofun

/-- A rejection as expired is right from the end of a certificate on. -/
private theorem of_expired (hlate : last.instant ≤ t.instant) :
    JudgedWithin first last own dnsName t (.rejected (.expired last)) where
  accepted := iff_of_false nofun fun h => absurd h.1.2 (by omega)
  expired := iff_of_true ⟨_, rfl, rfl⟩ hlate
  other _ _ _ := by omega
  chain := by
    rintro _ ⟨⟩
    exact nofun

/-- A rejection of another kind is right before the end of a certificate that has not started or
does not bear the name. -/
theorem of_other {rejection : Rejection} (hkind : rejection.kind = .other)
    (hlt : t.instant < last.instant)
    (hnot : ¬ (first.instant ≤ t.instant ∧ (dnsName = none ∨ dnsName = some own))) :
    JudgedWithin first last own dnsName t (.rejected rejection) where
  accepted := iff_of_false nofun fun h => hnot ⟨h.1.1, h.2⟩
  expired := by
    refine iff_of_false ?_ (by omega)
    rintro ⟨_, ⟨⟩, hexpired⟩
    rw [hkind] at hexpired
    cases hexpired
  other := by
    rintro _ ⟨⟩ _
    exact hkind
  chain := by
    rintro _ ⟨⟩
    rw [hkind]
    exact nofun

end JudgedWithin

/-- The verdict about a certificate with one name is right by its ends and that name. -/
private theorem exists_validateAt (dnsName : Option String) (ht : t.isAware)
    (hnames : c.dnsNames? = .ok [own]) (hstarts : c.notBefore? = .ok first)
    (hends : c.notAfter? = .ok last) :
    ∃ verdict, validateAt c dnsName t = .ok verdict ∧
      JudgedWithin first last own dnsName t verdict := by
  rw [validateAt_eq ht, hends, hstarts]
  dsimp only
  by_cases hlate : last.instant ≤ t.instant
  · rw [if_pos hlate]
    exact ⟨_, rfl, .of_expired hlate⟩
  rw [if_neg hlate]
  by_cases hearly : t.instant < first.instant
  · rw [if_pos hearly]
    exact ⟨_, rfl, .of_other rfl (by omega) (by omega)⟩
  rw [if_neg hearly]
  cases dnsName with
  | none => exact ⟨_, rfl, .of_accepted (by omega) (by omega) (.inl rfl)⟩
  | some name =>
    dsimp only [validateName]
    rw [hnames]
    dsimp only
    by_cases hname : name = own
    · subst hname
      rw [if_pos (by simp)]
      exact ⟨_, rfl, .of_accepted (by omega) (by omega) (.inr rfl)⟩
    · rw [if_neg (by simpa using hname)]
      exact ⟨_, rfl, .of_other rfl (by omega) (by simp [hname])⟩

/-! ## What is issued -/

/-- A pair is what an authority was asked for at a moment: a certificate and its key, for a name and
until an end. -/
structure IssuedFor (ca : SelfSigned) (o : IssueOptions) (now : Moment) (pair : Bytes × Bytes)
    (c : Certificate) (k : Rsa.PrivateKey) (first last : Moment) : Prop where
  text : Certificate.ofText pair.1 = .ok c
  key : PrivateKey.ofText pair.2 = .ok (.rsa k)
  certified : c.publicKey? = .ok (.rsa k.publicKey)
  /-- The subject is the name and then the authority's organization. -/
  subject : c.statement.subject.texts? =
    .ok [[(.ofText oidCommonName o.dnsName, o.dnsName)],
      [(.ofText oidOrganization ca.organization, ca.organization)]]
  issuer : c.statement.issuer = ca.certificate.statement.subject
  names : c.dnsNames? = .ok [o.dnsName]
  leaf : mayIssue? c.statement.extensions = some false
  /-- The ends are in universal time and have no fractions of a second. -/
  starts : c.notBefore? = .ok first ∧ first.offset = some 0 ∧
    first.instant = now.instant / 1000000 * 1000000
  ends : c.notAfter? = .ok last ∧ last.offset = some 0 ∧
    last.instant = o.notAfter.instant / 1000000 * 1000000
  /-- The authority judges the certificate by its ends and its name, and asks nothing for that. -/
  judged : ∀ (dnsName : Option String) (t : Moment), t.isAware → ∃ verdict,
    (∀ {τ : Type} (g : Handler Signing τ) (w : τ),
      runWith g (ca.validate c dnsName (some t)) w = (.ok verdict, w)) ∧
    JudgedWithin first last o.dnsName dnsName t verdict

/-- The pair that a genuine authority has signed is what the authority was asked for. -/
private theorem Stated.exists_issuedFor {o : IssueOptions} {k : Rsa.PrivateKey}
    {now start stop : Moment}
    (h : ca.Stated o now k c start stop) (hca : ca.Genuine) :
    ∃ first last, ca.IssuedFor o now (c.text, PrivateKey.writeRsa k) c k first last := by
  obtain ⟨serial, hsigned⟩ := h.signed
  obtain ⟨first, hfirst, hfirstOffset, hfirstInstant⟩ := Stamp.exists_moment?_ofMoment h.starts
  obtain ⟨last, hlast, hlastOffset, hlastInstant⟩ := Stamp.exists_moment?_ofMoment h.ends
  have hstarts : c.notBefore? = .ok first := by rw [Certificate.notBefore?, h.validity, hfirst]
  have hends : c.notAfter? = .ok last := by rw [Certificate.notAfter?, h.validity, hlast]
  refine ⟨first, last,
    { text := h.ofText_text
      key := PrivateKey.ofText_writeRsa h.key
      certified := h.publicKey?
      subject := ?_
      issuer := ?_
      names := h.dnsNames?
      leaf := ?_
      starts := ⟨hstarts, hfirstOffset, hfirstInstant⟩
      ends := ⟨hends, hlastOffset, hlastInstant⟩
      judged := fun dnsName t ht => ?_ }⟩
  · rw [hsigned.statement]
    exact Name.texts?_ofCommonName _ _
  · rw [hsigned.statement]
    rfl
  · rw [hsigned.statement]
    exact mayIssue?_serverExtensions _
  · have hissued := Certificate.checkIssuedBy_of_signed hsigned rfl rfl hca.certified
    obtain ⟨verdict, hverdict, hjudged⟩ :=
      exists_validateAt dnsName ht h.dnsNames? hstarts hends
    refine ⟨verdict, fun g w => ?_, hjudged⟩
    rw [validate_given, runWith_ofExcept, judgeAt, hissued]
    dsimp only
    rw [hverdict]
    rfl

/-! ## What is refused before a key is drawn -/

section Refusal

variable {τ : Type} {g : Handler Signing τ} {w : τ} {o : IssueOptions} {now : Moment}

/-- A pair that would not end after its start is refused, and nothing is asked. -/
theorem runWith_issue_of_le (h : o.notAfter.le? now = .ok true) :
    runWith g (ca.issue o (some now)) w =
      (.error (.issue (.endNotAfterStart o.notAfter now)), w) := by
  rw [issue, Signing.momentOr, runWith_bind, runWith_pure]
  dsimp only
  rw [runWith_bind, runWith_ofExcept, h]
  rfl

/-- For any other pair a key is drawn before anything else is asked. -/
private theorem exists_log_of_not_le (ca : SelfSigned) (g : Handler Signing τ) (w : τ)
    (h : o.notAfter.le? now = .ok false) :
    ∃ asked, (runWith (Handler.logged g) (ca.issue o (some now)) (w, [])).2.2 =
      .drawKey publicExponent ca.leafBits :: asked := by
  rw [issue, Signing.momentOr, runWith_bind, runWith_pure]
  dsimp only
  rw [runWith_bind, runWith_ofExcept, h]
  have hlog : (runWith (Handler.logged g) (Signing.drawKey publicExponent ca.leafBits)
      (w, [])).2.2 = [.drawKey publicExponent ca.leafBits] := by
    rw [Signing.runWith_drawKey]
    rfl
  obtain ⟨asked, hasked⟩ := exists_log_bind (Signing.drawKey publicExponent ca.leafBits) _ (w, [])
  rw [hlog] at hasked
  exact ⟨asked, hasked⟩

/-- A pair is refused before a key is drawn if and only if it would not end after its start. -/
theorem refused_iff (hnow : now.isAware) (hends : o.notAfter.isAware) :
    (∃ e w' log, runWith (Handler.logged g) (ca.issue o (some now)) (w, []) =
        (.error e, w', log) ∧ ∀ exponent bits, .drawKey exponent bits ∉ log) ↔
      o.notAfter.instant ≤ now.instant := by
  have hle := Moment.le?_eq_ok hends hnow
  constructor
  · rintro ⟨e, w', log, hrun, hlog⟩
    by_contra hlate
    rw [decide_eq_false hlate] at hle
    obtain ⟨asked, hasked⟩ := exists_log_of_not_le ca g w hle
    rw [hrun] at hasked
    dsimp only at hasked
    exact hlog _ _ (hasked ▸ List.mem_cons_self)
  · intro hlate
    rw [decide_eq_true hlate] at hle
    exact ⟨_, _, _, runWith_issue_of_le hle, fun _ _ => List.not_mem_nil⟩

end Refusal

/-- What an authority that was made here issues is what it was asked for, and the authority itself
accepts it from its start until before its end, without a name or for its own one; it rejects it as
expired from the end on, and in all other cases for another reason than its signature. A request is
refused before a key is drawn if and only if the end would not lie after the start. -/
theorem issued_as_requested {o : Options} {ρ : Type} {g₀ : Handler Signing ρ} {u u' : ρ}
    (hg₀ : Signing.DrawsSoundFor g₀ o.keyBits) (hca : runWith g₀ (generate o) u = (.ok ca, u'))
    {τ : Type} {g : Handler Signing τ} (hg : Signing.DrawsSoundFor g ca.leafBits) (w : τ)
    (dnsName : String) {now notAfter : Moment} (hnow : now.isAware) (hends : notAfter.isAware) :
    ca.organization = o.organization ∧
    (∀ pair w', runWith g (ca.issue ⟨notAfter, dnsName⟩ (some now)) w = (.ok pair, w') →
      ∃ c k first last, ca.IssuedFor ⟨notAfter, dnsName⟩ now pair c k first last) ∧
    ((∃ e w' log, runWith (Handler.logged g) (ca.issue ⟨notAfter, dnsName⟩ (some now)) (w, []) =
        (.error e, w', log) ∧ ∀ exponent bits, .drawKey exponent bits ∉ log) ↔
      notAfter.instant ≤ now.instant) ∧
    (notAfter.instant ≤ now.instant →
      runWith (Handler.logged g) (ca.issue ⟨notAfter, dnsName⟩ (some now)) (w, []) =
        (.error (.issue (.endNotAfterStart notAfter now)), w, [])) := by
  obtain ⟨hmade, _⟩ := generated_of_generate hca
  have hgenuine := genuine_of_generate hg₀ hca
  refine ⟨hmade.organization, fun pair w' hrun => ?_, refused_iff hnow hends, fun hlate => ?_⟩
  · obtain ⟨k, c, start, stop, rfl, hstated⟩ := exists_stated_of_issue hgenuine.subject
      (hgenuine.key.signs _) hg hrun
    obtain ⟨first, last, hissued⟩ := hstated.exists_issuedFor hgenuine
    exact ⟨c, k, first, last, hissued⟩
  · have hle := Moment.le?_eq_ok hends hnow
    rw [decide_eq_true hlate] at hle
    exact runWith_issue_of_le hle

/-- The pair that a new authority issues at the start of March 2025 for a server is accepted until
before the end of the 180 days and rejected as expired then, and a pair that would end at its start
is refused. -/
theorem issued_as_requested_march :
    ∃ ca pair c k first last, runWith Signing.steady (generate .short) () = (.ok ca, ()) ∧
      runWith Signing.steady (ca.issue ⟨.august, serviceName⟩ (some .march)) () = (.ok pair, ()) ∧
      ca.IssuedFor ⟨.august, serviceName⟩ .march pair c k first last ∧
      first.instant = Moment.march.instant ∧ last.instant = Moment.august.instant ∧
      runWith Signing.steady (ca.validate c (some serviceName) (some .march)) () =
        (.ok .accepted, ()) ∧
      (∃ rejection, runWith Signing.steady (ca.validate c none (some .august)) () =
        (.ok (.rejected rejection), ()) ∧ rejection.kind = .expired) ∧
      (∃ rejection, runWith Signing.steady (ca.validate c (some "other") (some .march)) () =
        (.ok (.rejected rejection), ()) ∧ rejection.kind = .other) ∧
      runWith (Handler.logged Signing.steady) (ca.issue ⟨.march, serviceName⟩ (some .march))
        ((), []) = (.error (.issue (.endNotAfterStart .march .march)), (), []) := by
  obtain ⟨ca, hca, hshort⟩ := exists_generate_short
  obtain ⟨pair, hissue⟩ := hshort.exists_issue
  obtain ⟨_, hissued, _⟩ := issued_as_requested (Signing.drawsSoundFor_steady _) hca
    (Signing.drawsSoundFor_steady _) () serviceName (rfl : Moment.march.isAware)
      (rfl : Moment.august.isAware)
  obtain ⟨_, _, _, hrefused⟩ := issued_as_requested (Signing.drawsSoundFor_steady _) hca
    (Signing.drawsSoundFor_steady _) () serviceName (rfl : Moment.march.isAware)
      (rfl : Moment.march.isAware)
  obtain ⟨c, k, first, last, hpair⟩ := hissued pair () hissue
  have hfirst : first.instant = Moment.march.instant := hpair.starts.2.2.trans (by decide)
  have hlast : last.instant = Moment.august.instant := hpair.ends.2.2.trans (by decide)
  have hwithin : first.instant ≤ Moment.march.instant ∧ Moment.march.instant < last.instant := by
    rw [hfirst, hlast]
    decide
  obtain ⟨verdict, hrun, hjudged⟩ := hpair.judged (some serviceName) .march rfl
  obtain rfl := hjudged.accepted.mpr ⟨hwithin, .inr rfl⟩
  obtain ⟨_, hlate, hexpired⟩ := hpair.judged none .august rfl
  obtain ⟨rejection, rfl, hkind⟩ := hexpired.expired.mpr hlast.le
  obtain ⟨stranger, hstranger, hother⟩ := hpair.judged (some "other") .march rfl
  cases stranger with
  | accepted => exact absurd (hother.accepted.mp rfl).2 (by decide)
  | rejected reason =>
    exact ⟨ca, pair, c, k, first, last, hca, hissue, hpair, hfirst, hlast,
      hrun Signing.steady (), ⟨rejection, hlate Signing.steady (), hkind⟩,
      ⟨reason, hstranger Signing.steady (), hother.other reason rfl hwithin.2⟩,
      hrefused (Int.le_refl _)⟩

end SelfSigned

end CertKeeper
