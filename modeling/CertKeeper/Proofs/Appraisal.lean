import CertKeeper.Authority.SelfSigned
import CertKeeper.Evaluation
import CertKeeper.Proofs.MemoryUpsert
import CertKeeper.Proofs.Running

/-!
# What a pair is worth to an authority with a certificate of its own

Given the moment, such an authority asks nothing: the evaluation of a record is a function of its
fields (`SelfSigned.evaluate_given`). When the pair is valid says
`SelfSigned.appraise_eq_valid_iff`, and when there is a failure instead of an evaluation says
`SelfSigned.appraise_eq_error_iff`.
-/

namespace CertKeeper

open X509

namespace Moment

variable {a b : Moment}

/-- Readings with an offset are ordered by the instants they denote. -/
theorem le?_eq_ok (ha : a.isAware) (hb : b.isAware) :
    a.le? b = .ok (decide (a.instant ≤ b.instant)) := by
  rw [le?, compare?_eq_ok a b ha hb, Except.map]
  apply congrArg Except.ok
  rw [Bool.eq_iff_iff]
  rw [bne_iff_ne, Ne, Int.compare_eq_gt, decide_eq_true_eq]
  omega

private theorem lt?_eq_ok (ha : a.isAware) (hb : b.isAware) :
    a.lt? b = .ok (decide (a.instant < b.instant)) := by
  rw [lt?, compare?_eq_ok a b ha hb, Except.map]
  apply congrArg Except.ok
  rw [Bool.eq_iff_iff]
  rw [beq_iff_eq, Int.compare_eq_lt, decide_eq_true_eq]

/-- The span between readings with an offset is that between the instants they denote. -/
theorem sub?_eq_ok (ha : a.isAware) (hb : b.isAware) :
    a.sub? b = .ok ⟨a.instant - b.instant⟩ := by
  simp [sub?, ha, hb]

/-- A dial position that a clock has is the one that it was asked for. -/
theorem ofWall?_eq_ok {wall : Int} {offset : Option Int} {m : Moment}
    (h : ofWall? wall offset = .ok m) : m.wall = wall ∧ m.offset = offset := by
  unfold ofWall? at h
  split at h
  · next hw =>
    cases h
    exact ⟨Int.toNat_of_nonneg hw.1, rfl⟩
  · cases h

/-- A reading in universal time denotes the same instant, which is its dial position. -/
theorem toUniversal?_eq_ok {m : Moment} (h : a.toUniversal? = .ok m) :
    (m.wall : Int) = a.instant ∧ m.instant = a.instant := by
  obtain ⟨hwall, hoffset⟩ := ofWall?_eq_ok h
  constructor
  · exact hwall
  · rw [instant, hoffset, hwall]
    exact Int.sub_zero _

/-- The instant that a clock shows after a span. -/
theorem instant_of_add? {m : Moment} {s : Span} (h : a.add? s = .ok m) :
    m.instant = a.instant + s.micros := by
  obtain ⟨hwall, hoffset⟩ := ofWall?_eq_ok h
  rw [instant, instant, hwall, hoffset]
  omega

end Moment

/-- A valid pair is kept for the time until it expires. -/
theorem Evaluation.decide_valid {notAfter now : Moment} (lifetime : Span)
    (hends : notAfter.isAware) (hnow : now.isAware) :
    (valid notAfter).decide lifetime now = .ok (.keep ⟨notAfter.instant - now.instant⟩) := by
  rw [Evaluation.decide, Moment.sub?_eq_ok hends hnow]
  rfl

/-- The moment of a stamp is one of universal time. -/
theorem X509.Stamp.offset_of_moment? {s : Stamp} {m : Moment} (h : s.moment? = .ok m) :
    m.offset = some 0 := by
  unfold Stamp.moment? at h
  split at h
  · cases h
  · exact (Moment.ofWall?_eq_ok h).2

/-- The end of a certificate's validity is a moment of universal time. -/
theorem X509.Certificate.isAware_notAfter {c : Certificate} {m : Moment}
    (h : c.notAfter? = .ok m) : m.isAware := by
  rw [Moment.isAware, Stamp.offset_of_moment? h]
  rfl

private theorem X509.Certificate.isAware_notBefore {c : Certificate} {m : Moment}
    (h : c.notBefore? = .ok m) : m.isAware := by
  rw [Moment.isAware, Stamp.offset_of_moment? h]
  rfl

/-- A record holds a certificate together with the certificate's own key. -/
def Record.Holds (r : Record) (c : Certificate) : Prop :=
  ∃ certificate key, r.certificate? = some certificate ∧ r.key? = some key ∧
    Certificate.ofText certificate = .ok c ∧ checkKey c key = .ok ()

/-- A record whose two fields hold the texts of a certificate and of its own key holds the
certificate. -/
theorem Record.holds_of_get? {r : Record} {c : Certificate} {certificate key : Bytes}
    (hcertificate : r.data.get? certificateField = some certificate)
    (hkey : r.data.get? keyField = some key) (htext : Certificate.ofText certificate = .ok c)
    (hown : checkKey c key = .ok ()) : r.Holds c := by
  have hcertificateNe : certificate ≠ [] := by
    rintro rfl
    cases htext
  have hkeyNe : key ≠ [] := by
    rintro rfl
    cases hown
  exact ⟨certificate, key, Fields.filled?_eq_some_iff.mpr ⟨hcertificate, hcertificateNe⟩,
    Fields.filled?_eq_some_iff.mpr ⟨hkey, hkeyNe⟩, htext, hown⟩

/-- A certificate is valid at a moment and expires at another one. -/
structure X509.Certificate.ValidAt (c : Certificate) (now notAfter : Moment) : Prop where
  lt : now.instant < notAfter.instant
  ends : c.notAfter? = .ok notAfter
  starts : ∃ notBefore, c.notBefore? = .ok notBefore ∧ notBefore.instant ≤ now.instant

namespace SelfSigned

variable {a : SelfSigned} {c : Certificate} {r : Record} {dnsName : Option String}
  {now notAfter : Moment} {e : Failure}

/-! ## Nothing is asked -/

/-- What an authority says about a certificate at a moment. -/
def judgeAt (a : SelfSigned) (c : Certificate) (dnsName : Option String) (now : Moment) :
    Except Failure Verdict :=
  match c.checkIssuedBy a.certificate with
  | .ok () => validateAt c dnsName now
  | .error defect =>
    if defect.isUnknown then .error (.chain defect) else .ok (.rejected (.chain defect))

/-- What the pair in a record is worth at a moment. -/
def appraise (a : SelfSigned) (r : Record) (dnsName : Option String) (now : Moment) :
    Except Failure Evaluation :=
  match r.certificate?, r.key? with
  | some certificate, some key =>
    match Certificate.ofText certificate with
    | .error (.version number) => .error (.certificate (.version number))
    | .error defect => .ok (.invalid (.certificate defect))
    | .ok c =>
      match checkKey c key with
      | .error defect => .ok (.invalid defect)
      | .ok () =>
        match a.judgeAt c dnsName now with
        | .error e => .error e
        | .ok (.rejected rejection) => .ok (.invalid (.rejected rejection))
        | .ok .accepted => (c.notAfter?.mapError .time).map .valid
  | _, _ => .ok .absent

/-- The number of bits of issued keys has no part in it. -/
theorem appraise_withBits (a : SelfSigned) (bits : Int) (r : Record) (dnsName : Option String)
    (now : Moment) :
    { a with leafBits := bits }.appraise r dnsName now = a.appraise r dnsName now := rfl

/-- Given the moment, nothing is asked to judge a certificate. -/
theorem validate_given (a : SelfSigned) (c : Certificate) (dnsName : Option String)
    (now : Moment) :
    a.validate c dnsName (some now) = Action.ofExcept id (a.judgeAt c dnsName now) := by
  unfold validate judgeAt
  rcases c.checkIssuedBy a.certificate with defect | ⟨⟩
  · dsimp only
    split <;> rfl
  · rfl

/-- Given the moment, nothing is asked to evaluate a record. -/
theorem evaluate_given (a : SelfSigned) (r : Record) (dnsName : Option String) (now : Moment) :
    evaluate r a.toAuthority dnsName (some now) =
      Action.ofExcept id (a.appraise r dnsName now) := by
  unfold evaluate appraise
  cases r.certificate? with
  | none => rfl
  | some certificate =>
    cases r.key? with
    | none => rfl
    | some key =>
      dsimp only
      rcases Certificate.ofText certificate with defect | c
      · cases defect <;> rfl
      dsimp only
      rcases checkKey c key with defect | ⟨⟩
      · rfl
      dsimp only [toAuthority]
      rw [validate_given]
      rcases a.judgeAt c dnsName now with e | verdict
      · rfl
      cases verdict with
      | accepted => cases c.notAfter? <;> rfl
      | rejected rejection => rfl

/-- An evaluation for an authority that signs itself ends with what the pair is worth to it,
whatever the surroundings answer. -/
theorem runWith_evaluate {τ : Type} (g : Handler Signing τ) (a : SelfSigned) (r : Record)
    (dnsName : Option String) (now : Moment) (t : τ) :
    Action.runWith g (evaluate r a.toAuthority dnsName (some now)) t =
      (a.appraise r dnsName now, t) := by
  rw [evaluate_given, Action.runWith_ofExcept]
  cases a.appraise r dnsName now <;> rfl

/-! ## What is found -/

/-- What is said about a certificate at a moment with an offset, by the instants alone. -/
theorem validateAt_eq (hnow : now.isAware) :
    validateAt c dnsName now =
      match c.notAfter? with
      | .error e => .error (.time e)
      | .ok notAfter =>
        if notAfter.instant ≤ now.instant then .ok (.rejected (.expired notAfter))
        else
          match c.notBefore? with
          | .error e => .error (.time e)
          | .ok notBefore =>
            if now.instant < notBefore.instant then .ok (.rejected (.notYetValid notBefore))
            else
              match dnsName with
              | none => .ok .accepted
              | some name => validateName c name := by
  unfold validateAt
  cases hafter : c.notAfter? with
  | error e => rfl
  | ok notAfter =>
    dsimp only [mapError_ok, bind, Except.bind]
    rw [Moment.le?_eq_ok (Certificate.isAware_notAfter hafter) hnow]
    by_cases hexpired : notAfter.instant ≤ now.instant
    · simp only [hexpired, decide_true, if_true]
      rfl
    simp only [hexpired, decide_false, if_false]
    cases hbefore : c.notBefore? with
    | error e => rfl
    | ok notBefore =>
      dsimp only [mapError_ok]
      rw [Moment.lt?_eq_ok hnow (Certificate.isAware_notBefore hbefore)]
      by_cases hearly : now.instant < notBefore.instant
      · simp only [hearly, decide_true, if_true]
        rfl
      · simp only [hearly, decide_false, if_false]
        cases dnsName <;> rfl

/-- A certificate is judged by its names if and only if it is valid at the moment. -/
theorem validateAt_of_validAt (hnow : now.isAware) (hvalid : c.ValidAt now notAfter) :
    validateAt c dnsName now =
      match dnsName with
      | none => .ok .accepted
      | some name => validateName c name := by
  obtain ⟨hlt, hends, notBefore, hstarts, hle⟩ := hvalid
  rw [validateAt_eq hnow, hends, hstarts]
  dsimp only
  rw [if_neg (by omega), if_neg (by omega)]

/-- Only a certificate that is valid at the moment is accepted. -/
theorem exists_validAt_of_accepted (hnow : now.isAware)
    (h : validateAt c dnsName now = .ok .accepted) : ∃ notAfter, c.ValidAt now notAfter := by
  rw [validateAt_eq hnow] at h
  cases hends : c.notAfter? with
  | error e =>
    rw [hends] at h
    cases h
  | ok notAfter =>
    rw [hends] at h
    dsimp only at h
    split at h
    · cases h
    next hexpired =>
    cases hstarts : c.notBefore? with
    | error e =>
      rw [hstarts] at h
      cases h
    | ok notBefore =>
      rw [hstarts] at h
      dsimp only at h
      split at h
      · cases h
      next hearly => exact ⟨notAfter, by omega, hends, notBefore, hstarts, by omega⟩

/-- The names of a certificate are accepted if and only if the given one is among them. -/
theorem validateName_eq_accepted_iff {name : String} :
    validateName c name = .ok .accepted ↔ ∃ names, c.dnsNames? = .ok names ∧ name ∈ names := by
  unfold validateName
  constructor
  · intro h
    split at h
    · split at h <;> cases h
    · next names hnames =>
      split at h
      · next hname => exact ⟨names, hnames, List.contains_iff_mem.mp hname⟩
      · cases h
  · rintro ⟨names, hnames, hname⟩
    rw [hnames]
    exact if_pos (List.contains_iff_mem.mpr hname)

/-- A certificate is accepted if and only if it is valid at the moment and bears the name, if one is
given. -/
theorem validateAt_eq_accepted_iff (hnow : now.isAware) :
    validateAt c dnsName now = .ok .accepted ↔
      (∃ notAfter, c.ValidAt now notAfter) ∧
        ∀ name, dnsName = some name → ∃ names, c.dnsNames? = .ok names ∧ name ∈ names := by
  constructor
  · intro h
    obtain ⟨notAfter, hvalid⟩ := exists_validAt_of_accepted hnow h
    refine ⟨⟨notAfter, hvalid⟩, ?_⟩
    rintro name rfl
    rw [validateAt_of_validAt hnow hvalid] at h
    exact validateName_eq_accepted_iff.mp h
  · rintro ⟨⟨notAfter, hvalid⟩, hnames⟩
    rw [validateAt_of_validAt hnow hvalid]
    cases dnsName with
    | none => rfl
    | some name => exact validateName_eq_accepted_iff.mpr (hnames name rfl)

/-- What a certificate with its own key is worth is what the authority says about it. -/
theorem appraise_of_holds (holds : r.Holds c) :
    a.appraise r dnsName now =
      match a.judgeAt c dnsName now with
      | .error e => .error e
      | .ok (.rejected rejection) => .ok (.invalid (.rejected rejection))
      | .ok .accepted => (c.notAfter?.mapError .time).map .valid := by
  obtain ⟨certificate, key, hcertificate, hkey, htext, hown⟩ := holds
  simp only [appraise, hcertificate, hkey, htext, hown]

/-- Where a record holds no certificate with its own key nothing is found valid, and only a version
that does not exist is a failure. -/
theorem appraise_cases (a : SelfSigned) (r : Record) (dnsName : Option String) (now : Moment) :
    (∃ c, r.Holds c) ∨
      (∃ certificate number, (r.certificate? = some certificate ∧ r.key?.isSome) ∧
        Certificate.ofText certificate = .error (.version number) ∧
        a.appraise r dnsName now = .error (.certificate (.version number))) ∨
      a.appraise r dnsName now = .ok .absent ∨
      ∃ defect, a.appraise r dnsName now = .ok (.invalid defect) := by
  unfold appraise
  cases hcertificate : r.certificate? with
  | none => exact .inr (.inr (.inl rfl))
  | some certificate =>
  cases hkey : r.key? with
  | none => exact .inr (.inr (.inl rfl))
  | some key =>
  dsimp only
  cases htext : Certificate.ofText certificate with
  | error defect =>
    cases defect with
    | version number => exact .inr (.inl ⟨certificate, number, ⟨rfl, rfl⟩, htext, rfl⟩)
    | framing | noCertificate | malformed => exact .inr (.inr (.inr ⟨_, rfl⟩))
  | ok c =>
  dsimp only
  rcases hown : checkKey c key with defect | ⟨⟩
  · exact .inr (.inr (.inr ⟨_, rfl⟩))
  · exact .inl ⟨c, certificate, key, hcertificate, hkey, htext, hown⟩

/-- A pair is valid if and only if it is a certificate with its own key that the authority has
signed, that is valid at the moment and that bears the name, if one is given. -/
theorem appraise_eq_valid_iff (hnow : now.isAware) :
    a.appraise r dnsName now = .ok (.valid notAfter) ↔
      ∃ c, r.Holds c ∧ c.checkIssuedBy a.certificate = .ok () ∧ c.ValidAt now notAfter ∧
        ∀ name, dnsName = some name → ∃ names, c.dnsNames? = .ok names ∧ name ∈ names := by
  constructor
  · intro h
    obtain ⟨c, holds⟩ | ⟨_, _, _, _, h'⟩ | h' | ⟨_, h'⟩ := appraise_cases a r dnsName now
    · rw [appraise_of_holds holds] at h
      rcases hjudge : a.judgeAt c dnsName now with e | verdict
      · rw [hjudge] at h
        cases h
      rw [hjudge] at h
      cases verdict with
      | rejected rejection => cases h
      | accepted =>
        dsimp only at h
        unfold judgeAt at hjudge
        split at hjudge
        case h_2 => split at hjudge <;> cases hjudge
        next hissued =>
        obtain ⟨⟨notAfter', hvalid⟩, hnames⟩ := (validateAt_eq_accepted_iff hnow).mp hjudge
        rw [hvalid.ends] at h
        cases h
        exact ⟨c, holds, hissued, hvalid, hnames⟩
    all_goals
      rw [h'] at h
      cases h
  · rintro ⟨c, holds, hissued, hvalid, hnames⟩
    have haccepted := (validateAt_eq_accepted_iff hnow).mpr ⟨⟨notAfter, hvalid⟩, hnames⟩
    rw [appraise_of_holds holds, judgeAt, hissued]
    dsimp only
    rw [haccepted, hvalid.ends]
    rfl

/-- A pair that is valid stays valid until it expires. -/
theorem appraise_later {later : Moment} (hnow : now.isAware) (hlater : later.isAware)
    (hle : now.instant ≤ later.instant) (hlt : later.instant < notAfter.instant)
    (h : a.appraise r dnsName now = .ok (.valid notAfter)) :
    a.appraise r dnsName later = .ok (.valid notAfter) := by
  obtain ⟨c, holds, issued, hvalid, hnames⟩ := (appraise_eq_valid_iff hnow).mp h
  obtain ⟨_, hends, notBefore, hstarts, hstarted⟩ := hvalid
  refine (appraise_eq_valid_iff hlater).mpr ⟨c, holds, issued, ?_, hnames⟩
  exact ⟨hlt, hends, notBefore, hstarts, Int.le_trans hstarted hle⟩

/-- A pair that was valid is rejected as expired from its end on. -/
theorem appraise_expired {later : Moment} (hnow : now.isAware) (hlater : later.isAware)
    (hle : notAfter.instant ≤ later.instant)
    (h : a.appraise r dnsName now = .ok (.valid notAfter)) :
    a.appraise r dnsName later = .ok (.invalid (.rejected (.expired notAfter))) := by
  obtain ⟨c, holds, issued, hvalid, _⟩ := (appraise_eq_valid_iff hnow).mp h
  rw [appraise_of_holds holds, judgeAt, issued]
  dsimp only
  rw [validateAt_eq hlater, hvalid.ends]
  dsimp only
  rw [if_pos hle]

/-- What a pair is worth does not depend on the record that holds it. -/
theorem appraise_congr {r' : Record} (hcertificate : r'.certificate? = r.certificate?)
    (hkey : r'.key? = r.key?) : a.appraise r' dnsName now = a.appraise r dnsName now := by
  rw [appraise, hcertificate, hkey]
  rfl

/-- What an evaluation does not foresee, with the failure that it ends with instead: the text of a
certificate of a version that does not exist, a signature that cannot be judged, times that no
moment has, and names of a form that is not handled. -/
inductive Unforeseen (a : SelfSigned) (r : Record) (now : Moment) : Failure → Prop
  | version {certificate : Bytes} {number : Nat}
      (stored : r.certificate? = some certificate ∧ r.key?.isSome)
      (text : Certificate.ofText certificate = .error (.version number)) :
      Unforeseen a r now (.certificate (.version number))
  | signature {c : Certificate} {defect : ChainDefect} (holds : r.Holds c)
      (issued : c.checkIssuedBy a.certificate = .error defect) (unknown : defect.isUnknown) :
      Unforeseen a r now (.chain defect)
  | ending {c : Certificate} {e : TimeError} (holds : r.Holds c)
      (issued : c.checkIssuedBy a.certificate = .ok ()) (ends : c.notAfter? = .error e) :
      Unforeseen a r now (.time e)
  | start {c : Certificate} {notAfter : Moment} {e : TimeError} (holds : r.Holds c)
      (issued : c.checkIssuedBy a.certificate = .ok ()) (ends : c.notAfter? = .ok notAfter)
      (lt : now.instant < notAfter.instant) (starts : c.notBefore? = .error e) :
      Unforeseen a r now (.time e)
  | names {c : Certificate} {notAfter : Moment} {defect : ExtensionDefect} (holds : r.Holds c)
      (issued : c.checkIssuedBy a.certificate = .ok ()) (valid : c.ValidAt now notAfter)
      (names : c.dnsNames? = .error defect) (unhandled : ¬ isNameRejection defect) :
      Unforeseen a r now (.extension defect)

/-- Judging a certificate at a moment fails in the last three cases, and in the very last one only
if a name is given. -/
private theorem unforeseen_of_validateAt (hnow : now.isAware) (holds : r.Holds c)
    (issued : c.checkIssuedBy a.certificate = .ok ()) (h : validateAt c dnsName now = .error e) :
    a.Unforeseen r now e ∧ (dnsName = none → ∀ defect, e ≠ .extension defect) := by
  rw [validateAt_eq hnow] at h
  cases hends : c.notAfter? with
  | error e =>
    rw [hends] at h
    cases h
    exact ⟨.ending holds issued hends, fun _ _ => nofun⟩
  | ok notAfter =>
  rw [hends] at h
  dsimp only at h
  split at h
  · cases h
  next hexpired =>
  cases hstarts : c.notBefore? with
  | error e =>
    rw [hstarts] at h
    cases h
    exact ⟨.start holds issued hends (by omega) hstarts, fun _ _ => nofun⟩
  | ok notBefore =>
  rw [hstarts] at h
  dsimp only at h
  split at h
  · cases h
  next hearly =>
  cases dnsName with
  | none => cases h
  | some name =>
  dsimp only [validateName] at h
  split at h
  · next defect hnames =>
    split at h
    · cases h
    next hrejection =>
    cases h
    refine ⟨?_, nofun⟩
    exact .names holds issued ⟨by omega, hends, notBefore, hstarts, by omega⟩ hnames hrejection
  · split at h <;> cases h

/-- The evaluation of a record fails only with what it does not foresee, and with the names of a
certificate only if a name is given. -/
private theorem unforeseen_of_appraise (hnow : now.isAware)
    (h : a.appraise r dnsName now = .error e) :
    a.Unforeseen r now e ∧ (dnsName = none → ∀ defect, e ≠ .extension defect) := by
  obtain ⟨c, holds⟩ | ⟨_, _, hstored, htext, h'⟩ | h' | ⟨_, h'⟩ := appraise_cases a r dnsName now
  · rw [appraise_of_holds holds] at h
    split at h
    · next e' hjudge =>
      cases h
      unfold judgeAt at hjudge
      split at hjudge
      · next hissued => exact unforeseen_of_validateAt hnow holds hissued hjudge
      next defect hissued =>
      split at hjudge
      · next hunknown =>
        cases hjudge
        exact ⟨.signature holds hissued hunknown, fun _ _ => nofun⟩
      · cases hjudge
    · cases h
    next hjudge =>
    unfold judgeAt at hjudge
    split at hjudge
    case h_2 => split at hjudge <;> cases hjudge
    obtain ⟨notAfter, hvalid⟩ := exists_validAt_of_accepted hnow hjudge
    rw [hvalid.ends] at h
    cases h
  · rw [h'] at h
    cases h
    exact ⟨.version hstored htext, fun _ _ => nofun⟩
  all_goals
    rw [h'] at h
    cases h

/-- The evaluation of a record fails with what it does not foresee, and with the names of a
certificate if a name is given. -/
private theorem Unforeseen.appraise_eq (hnow : now.isAware) (h : a.Unforeseen r now e)
    (hname : dnsName = none → ∀ defect, e ≠ .extension defect) :
    a.appraise r dnsName now = .error e := by
  cases h with
  | version stored text =>
    obtain ⟨key, hkey⟩ := Option.isSome_iff_exists.mp stored.2
    simp only [appraise, stored.1, hkey, text]
  | signature holds issued unknown =>
    rw [appraise_of_holds holds, judgeAt, issued]
    dsimp only
    rw [if_pos unknown]
  | ending holds issued ends =>
    rw [appraise_of_holds holds, judgeAt, issued]
    dsimp only
    rw [validateAt_eq hnow, ends]
  | start holds issued ends lt starts =>
    rw [appraise_of_holds holds, judgeAt, issued]
    dsimp only
    rw [validateAt_eq hnow, ends]
    dsimp only
    rw [if_neg (by omega), starts]
  | @names c notAfter defect holds issued valid names unhandled =>
    rw [appraise_of_holds holds, judgeAt, issued]
    dsimp only
    rw [validateAt_of_validAt hnow valid]
    cases dnsName with
    | none => exact absurd rfl (hname rfl defect)
    | some name =>
      dsimp only [validateName]
      rw [names]
      dsimp only
      rw [if_neg unhandled]

/-- The evaluation of a record fails with what it does not foresee and with nothing else; names are
looked at only if one is given. -/
theorem appraise_eq_error_iff_of_name (hnow : now.isAware) :
    a.appraise r dnsName now = .error e ↔
      a.Unforeseen r now e ∧ (dnsName = none → ∀ defect, e ≠ .extension defect) := by
  constructor
  · exact unforeseen_of_appraise hnow
  · rintro ⟨h, hname⟩
    exact h.appraise_eq hnow hname

/-- The evaluation of a record for a DNS name fails with what it does not foresee and with nothing
else. -/
theorem appraise_eq_error_iff {dnsName : String} (hnow : now.isAware) :
    a.appraise r (some dnsName) now = .error e ↔ a.Unforeseen r now e := by
  rw [appraise_eq_error_iff_of_name hnow]
  exact and_iff_left nofun

/-- Nothing is found in a record if and only if one half of the pair or both are missing. -/
theorem appraise_eq_absent_iff :
    a.appraise r dnsName now = .ok .absent ↔ r.certificate? = none ∨ r.key? = none := by
  cases hcertificate : r.certificate? with
  | none => simp only [appraise, hcertificate, true_or]
  | some certificate =>
  cases hkey : r.key? with
  | none => simp only [appraise, hcertificate, hkey, or_true]
  | some key =>
  refine iff_of_false ?_ (by simp only [reduceCtorEq, or_self, not_false_eq_true])
  intro h
  simp only [appraise, hcertificate, hkey] at h
  split at h
  · cases h
  · cases h
  split at h
  · cases h
  split at h
  · cases h
  · cases h
  next c _ _ _ _ _ =>
  cases hends : c.notAfter? with
  | error e =>
    rw [hends] at h
    cases h
  | ok notAfter =>
    rw [hends] at h
    cases h

/-- Only a whole pair is valid. -/
theorem exists_pair_of_appraise (h : a.appraise r dnsName now = .ok (.valid notAfter)) :
    ∃ certificate key, r.data.get? certificateField = some certificate ∧
      r.data.get? keyField = some key := by
  have hpresent : ¬ (r.certificate? = none ∨ r.key? = none) := by
    intro hmissing
    rw [appraise_eq_absent_iff.mpr hmissing] at h
    cases h
  rw [not_or, ← Ne, ← Ne, Option.ne_none_iff_exists', Option.ne_none_iff_exists'] at hpresent
  obtain ⟨⟨certificate, hcertificate⟩, key, hkey⟩ := hpresent
  exact ⟨certificate, key, (Fields.filled?_eq_some_iff.mp hcertificate).1,
    (Fields.filled?_eq_some_iff.mp hkey).1⟩

end SelfSigned

end CertKeeper
