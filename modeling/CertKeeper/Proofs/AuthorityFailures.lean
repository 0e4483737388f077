import CertKeeper.Proofs.EvaluationFailures
import CertKeeper.Proofs.Inspection

/-!
# When no authority is found

Every way in which looking for the authority ends, by what the store answers: the authority whose
certificate and key the two fields of its record hold, a failure of the authority, or one of three
causes that are not foreseen when an authority is loaded (`SelfSigned.LoadEscapes`), which end an
inspection without a report (`resolveAuthority_settles`).
-/

namespace CertKeeper

open CertKeeper.Action Crypto X509

namespace SelfSigned

variable {certificate key : Bytes} {bits : Int} {e : Failure}

/-! ## Loading an authority -/

/-- Why two texts are not those of an authority, in the order in which they are read. -/
inductive LoadFails (certificate key : Bytes) : Failure → Prop
  | certificate {defect : CertificateDefect}
      (unreadable : Certificate.ofText certificate = .error defect) :
      LoadFails certificate key (.certificate defect)
  | key {c : Certificate} {defect : KeyDefect} (readable : Certificate.ofText certificate = .ok c)
      (unreadable : PrivateKey.ofText key = .error defect) : LoadFails certificate key (.key defect)
  | otherKey {c : Certificate} {k : PrivateKey} (readable : Certificate.ofText certificate = .ok c)
      (readableKey : PrivateKey.ofText key = .ok k) (other : ∀ r, k ≠ .rsa r) :
      LoadFails certificate key .keyNotRsa
  | subject {c : Certificate} {k : Rsa.PrivateKey} {defect : NameDefect}
      (readable : Certificate.ofText certificate = .ok c)
      (readableKey : PrivateKey.ofText key = .ok (.rsa k))
      (unreadable : c.statement.subject.organization? = .error defect) :
      LoadFails certificate key (.distinguishedName defect)

private theorem ofTexts_eq_error_iff :
    ofTexts certificate key bits = .error e ↔ LoadFails certificate key e := by
  constructor
  · intro h
    unfold ofTexts at h
    cases hcertificate : Certificate.ofText certificate with
    | error defect =>
      rw [hcertificate] at h
      cases h
      exact .certificate hcertificate
    | ok c =>
    cases hkey : PrivateKey.ofText key with
    | error defect =>
      rw [hcertificate, hkey] at h
      cases h
      exact .key hcertificate hkey
    | ok k =>
    rw [hcertificate, hkey] at h
    cases k with
    | rsa k =>
      cases horganization : c.statement.subject.organization? with
      | error defect =>
        simp only [horganization, bind, Except.bind, mapError_ok, mapError_error] at h
        cases h
        exact .subject hcertificate hkey horganization
      | ok organization =>
        simp only [horganization, bind, Except.bind, mapError_ok, pure, Except.pure] at h
        cases h
    | dsa | weierstrass | ed25519 | x25519 =>
      cases h
      exact .otherKey hcertificate hkey nofun
  · intro h
    unfold ofTexts
    cases h with
    | certificate unreadable =>
      rw [unreadable]
      rfl
    | key readable unreadable =>
      rw [readable, unreadable]
      rfl
    | @otherKey c k readable readableKey other =>
      rw [readable, readableKey]
      cases k with
      | rsa r => exact absurd rfl (other r)
      | dsa | weierstrass | ed25519 | x25519 => rfl
    | subject readable readableKey unreadable =>
      rw [readable, readableKey]
      simp only [unreadable, bind, Except.bind, mapError_ok, mapError_error]

/-- Causes that are not foreseen when an authority is loaded: a certificate of a version that does
not exist, a key of a kind or on a curve that is not known, and an organization whose text is of a
type that does not exist. -/
inductive LoadEscapes : Failure → Prop
  | version (version : Nat) : LoadEscapes (.certificate (.version version))
  | unknownKey {defect : KeyDefect} (unknown : defect.isUnknown = true) : LoadEscapes (.key defect)
  | unknownType (tag : Nat) : LoadEscapes (.distinguishedName (.unknownType tag))

private theorem isLoadFailure_eq_false_iff : ofFields.isLoadFailure e = false ↔ LoadEscapes e := by
  constructor
  · intro h
    unfold ofFields.isLoadFailure at h
    split at h
    · exact .version _
    · exact .unknownKey (by simpa using h)
    · exact .unknownType _
    · cases h
  · intro h
    cases h with
    | version => rfl
    | unknownKey unknown => simp [ofFields.isLoadFailure, unknown]
    | unknownType => rfl

/-- The causes that are not foreseen in loading an authority are no failures of the engine. -/
theorem LoadEscapes.engineKind? (h : LoadEscapes e) : e.engineKind? = none := by
  cases h <;> rfl

/-- A cause that is not foreseen in loading an authority comes out as it is where the two texts
stand in the fields of a record. -/
theorem LoadEscapes.ofFields {id : Identity} {data : Fields} (h : LoadEscapes e)
    (hfails : ofTexts certificate key bits = .error e)
    (hcertificate : data.filled? authorityCertificateField = some certificate)
    (hkey : data.filled? authorityKeyField = some key) : ofFields id data bits = .error e := by
  have hunforeseen := isLoadFailure_eq_false_iff.mpr h
  rw [SelfSigned.ofFields, hcertificate, hkey]
  dsimp only
  rw [hfails]
  dsimp only
  rw [hunforeseen, if_neg Bool.false_ne_true]

end SelfSigned

/-! ## Looking for the authority -/

/-- What looking for the authority in a record comes to, by what the store answers. -/
inductive Resolves (id : Identity) (bits : Int) :
    Except Failure Record → Except Failure SelfSigned → Prop
  | found {record : Record} {certificate key : Bytes} {a : SelfSigned}
      {organization : Option String}
      (certificateField : record.data.filled? authorityCertificateField = some certificate)
      (keyField : record.data.filled? authorityKeyField = some key)
      (readCertificate : Certificate.ofText certificate = .ok a.certificate)
      (readKey : PrivateKey.ofText key = .ok (.rsa a.key))
      (readOrganization : a.certificate.statement.subject.organization? = .ok organization)
      (organization : a.organization = organization.getD SelfSigned.defaultOrganization)
      (leafBits : a.leafBits = bits) : Resolves id bits (.ok record) (.ok a)
  | missing {cause : Failure} (unknown : cause.isRecordNotFound = true) :
      Resolves id bits (.error cause) (.error (.authorityMissing id))
  | unreadable {cause : Failure} (other : cause.isRecordNotFound = false) :
      Resolves id bits (.error cause) (.error (.authorityUnreadable id cause))
  | incomplete {record : Record}
      (empty : record.data.filled? authorityCertificateField = none ∨
        record.data.filled? authorityKeyField = none) :
      Resolves id bits (.ok record) (.error (.authorityIncomplete id))
  | unloadable {record : Record} {certificate key : Bytes} {cause : Failure}
      (certificateField : record.data.filled? authorityCertificateField = some certificate)
      (keyField : record.data.filled? authorityKeyField = some key)
      (fails : SelfSigned.LoadFails certificate key cause)
      (foreseen : ¬ SelfSigned.LoadEscapes cause) :
      Resolves id bits (.ok record) (.error (.authorityUnloadable id cause))
  | escapes {record : Record} {certificate key : Bytes} {cause : Failure}
      (certificateField : record.data.filled? authorityCertificateField = some certificate)
      (keyField : record.data.filled? authorityKeyField = some key)
      (fails : SelfSigned.LoadFails certificate key cause)
      (unforeseen : SelfSigned.LoadEscapes cause) : Resolves id bits (.ok record) (.error cause)

variable {id : Identity} {bits : Int}

/-- A record that is read holds an authority or it does not. -/
private theorem resolves_ofFields (id : Identity) (bits : Int) (record : Record) :
    Resolves id bits (.ok record) (SelfSigned.ofFields id record.data bits) := by
  unfold SelfSigned.ofFields
  split
  · next certificate key hc hk =>
    cases htexts : SelfSigned.ofTexts certificate key bits with
    | ok a =>
      obtain ⟨hcertificate, hkey, hbits, organization, hread, horganization⟩ :=
        SelfSigned.ofTexts_eq_ok_iff.mp htexts
      exact .found hc hk hcertificate hkey hread horganization hbits
    | error cause =>
      have hfails := SelfSigned.ofTexts_eq_error_iff.mp htexts
      dsimp only
      split
      · next hforeseen =>
        refine .unloadable hc hk hfails fun hescapes => ?_
        rw [SelfSigned.isLoadFailure_eq_false_iff.mpr hescapes] at hforeseen
        cases hforeseen
      · next hunforeseen =>
        refine .escapes hc hk hfails (SelfSigned.isLoadFailure_eq_false_iff.mp ?_)
        simpa using hunforeseen
  · next hnot =>
    refine .incomplete ?_
    cases hc : record.data.filled? authorityCertificateField with
    | none => exact .inl rfl
    | some certificate =>
      cases hk : record.data.filled? authorityKeyField with
      | none => exact .inr rfl
      | some key => exact absurd hk (hnot certificate key hc)

/-- The record is asked for once, and nothing else is. -/
theorem runWith_resolveAuthority {σ : Type} (h : Handler Store σ) (id : Identity) (bits : Int)
    (w : σ) : ∃ res, runWith h (resolveAuthority id bits) w = (res, (h (.getRecord id) w).2) ∧
      Resolves id bits (h (.getRecord id) w).1 res := by
  have hquestion : runWith h (Store.getRecord id) w = h (.getRecord id) w := rfl
  rw [resolveAuthority, runWith_bind, runWith_outcome, hquestion]
  rcases h (.getRecord id) w with ⟨cause | record, w'⟩
  · dsimp only
    cases hcause : cause.isRecordNotFound with
    | true => exact ⟨_, rfl, .missing hcause⟩
    | false => exact ⟨_, rfl, .unreadable hcause⟩
  · exact ⟨_, rfl, resolves_ofFields id bits record⟩

/-- A failure is one of the authority unless its cause is not foreseen. -/
theorem Resolves.engineKind?_eq {answer : Except Failure Record} {e : Failure}
    (h : Resolves id bits answer (.error e)) :
    e.engineKind? = some .authority ∧ ¬ SelfSigned.LoadEscapes e ∨
      e.engineKind? = none ∧ SelfSigned.LoadEscapes e := by
  cases h with
  | escapes _ _ _ unforeseen => exact .inr ⟨unforeseen.engineKind?, unforeseen⟩
  | missing | unreadable | incomplete | unloadable => exact .inl ⟨rfl, nofun⟩

namespace CommandLine.Session

open Shell

variable {τ : Type} {g : Handler Signing τ} {w : Surroundings τ} {s : Session} {d : Disk}
  {settings : Settings} {e : Failure}

/-- An inspection that finds no authority says why if that is a failure of the engine, as far as the
console can show the report; any other failure is its own. -/
private theorem runWith_inspect_of_unresolved (record : Option String)
    (hprepare : runWith Disk.handler s.store.prepare w.disk = (.ok (), d))
    (hsettings : Settings.resolve s.sources = .ok settings)
    (hresolve : (runWith s.store.handler
      (resolveAuthority settings.authorityId SelfSigned.defaultLeafBits) d).1 = .error e) :
    runWith (handler g) (s.inspect record) w =
      if e.engineKind?.isSome then
        match Console.linesOfMarkup s.console ("[red]Error:[/red] " ++ e.message) with
        | .ok lines => (.ok 1, (w.withDisk d).print [Console.textOfLines lines])
        | .error defect => (.error (.markup defect), w.withDisk d)
      else (.error e, w.withDisk d) := by
  have hfails : runWith (handler g) (onStore s.store
      (resolveAuthority settings.authorityId SelfSigned.defaultLeafBits)) (w.withDisk d) =
        (.error e, w.withDisk d) := by
    rw [runWith_onStore, Surroundings.disk_withDisk, hresolve,
      DirectoryStore.runWith_handler_of_reads (Reconciler.asks_resolveAuthority _ _)]
    rfl
  rw [inspect, runWith_withSettings_of_prepare hprepare hsettings]
  dsimp only
  rw [runWith_bind, runWith_outcome, hfails]
  dsimp only
  split
  · exact runWith_say_then g s.console _ 1 _
  · rfl

end CommandLine.Session

/-- Looking for the authority asks for its record once and ends with the authority whose certificate
and key the two fields hold, or with a failure of the authority, unless a cause is met that is not
foreseen when it is loaded. An inspection without an authority ends with status one and the report
of a failure of the authority, if the console can show it; a cause that is not foreseen ends it
without a status. -/
theorem resolveAuthority_settles {σ : Type} (h : Handler Store σ) (id : Identity) (bits : Int)
    (w : σ) :
    (∃ res, runWith h (resolveAuthority id bits) w = (res, (h (.getRecord id) w).2) ∧
      Resolves id bits (h (.getRecord id) w).1 res ∧
      ∀ e, res = .error e → (e.engineKind? = some .authority ↔ ¬ SelfSigned.LoadEscapes e)) ∧
    ∀ (τ : Type) (g : Handler Signing τ) (s : CommandLine.Session) (record : Option String)
      (w : Shell.Surroundings τ) (d : Disk) (settings : Settings) (e : Failure),
      runWith Disk.handler s.store.prepare w.disk = (.ok (), d) →
      Settings.resolve s.sources = .ok settings →
      (runWith s.store.handler
        (resolveAuthority settings.authorityId SelfSigned.defaultLeafBits) d).1 = .error e →
      runWith (Shell.handler g) (s.inspect record) w =
        if e.engineKind? = some .authority then
          match Console.linesOfMarkup s.console ("[red]Error:[/red] " ++ e.message) with
          | .ok lines => (.ok 1, (w.withDisk d).print [Console.textOfLines lines])
          | .error defect => (.error (.markup defect), w.withDisk d)
        else (.error e, w.withDisk d) := by
  constructor
  · obtain ⟨res, hrun, hresolves⟩ := runWith_resolveAuthority h id bits w
    refine ⟨res, hrun, hresolves, ?_⟩
    rintro e rfl
    obtain ⟨hkind, hforeseen⟩ | ⟨hkind, hescapes⟩ := hresolves.engineKind?_eq
    · exact iff_of_true hkind hforeseen
    · rw [hkind]
      exact iff_of_false nofun fun hforeseen => hforeseen hescapes
  · intro τ g s record w d settings e hprepare hsettings hresolve
    rw [CommandLine.Session.runWith_inspect_of_unresolved record hprepare hsettings hresolve]
    obtain ⟨res, hrun, hresolves⟩ := runWith_resolveAuthority s.store.handler settings.authorityId
      SelfSigned.defaultLeafBits d
    obtain rfl : res = .error e := by rw [← hresolve, hrun]
    obtain ⟨hkind, -⟩ | ⟨hkind, -⟩ := hresolves.engineKind?_eq
    · rw [if_pos hkind, hkind]
      rfl
    · rw [if_neg (by rw [hkind]; nofun), hkind]
      rfl

/-- A certificate of the fourth version, beside some key, is a cause that is not foreseen. -/
private theorem ofFields_fourth {key : Bytes} (hne : key ≠ []) (data : Fields) :
    SelfSigned.ofFields id ((data.set authorityCertificateField Certificate.fourth.text).set
      authorityKeyField key) bits = .error (.certificate (.version 3)) := by
  have hother : authorityKeyField ≠ authorityCertificateField := by decide
  have hcertificate : Fields.filled? ((data.set authorityCertificateField
      Certificate.fourth.text).set authorityKeyField key) authorityCertificateField =
        some Certificate.fourth.text :=
    Fields.filled?_eq_some_iff.mpr ⟨by simp [hother], Encoding.Pem.write_ne_nil _ _⟩
  have hkey : Fields.filled? ((data.set authorityCertificateField Certificate.fourth.text).set
      authorityKeyField key) authorityKeyField = some key :=
    Fields.filled?_eq_some_iff.mpr ⟨by simp, hne⟩
  have hfails : SelfSigned.ofTexts Certificate.fourth.text key bits =
      .error (.certificate (.version 3)) :=
    SelfSigned.ofTexts_eq_error_iff.mpr (.certificate Certificate.ofText_fourth)
  exact (SelfSigned.LoadEscapes.version 3).ofFields hfails hcertificate hkey

/-- With a certificate of the fourth version in the record of the authority, looking for the
authority ends with a failure that is none of the engine, and so does an inspection. -/
theorem resolveAuthority_settles_fourth :
    ∃ d, runWith Disk.handler (CommandLine.Session.plain.store.upsert ⟨"default", "ca"⟩
          fun data => .ok ((data.set authorityCertificateField Certificate.fourth.text).set
            authorityKeyField [0])) (.withWorking ["var"]) = (.ok .created, d) ∧
      (∃ e, (runWith CommandLine.Session.plain.store.handler
          (resolveAuthority ⟨"default", "ca"⟩ SelfSigned.defaultLeafBits) d).1 = .error e ∧
        e.engineKind? ≠ some .authority) ∧
      (runWith (Shell.handler Signing.steady) (CommandLine.Session.plain.inspect none)
        ⟨d, [], ()⟩).1 = .error (.certificate (.version 3)) := by
  obtain ⟨m, d, hupsert, hold, hrecord, -⟩ :=
    CommandLine.Session.exists_holds_texts Certificate.fourth.text [0]
  have hresolve : (runWith CommandLine.Session.plain.store.handler
      (resolveAuthority Settings.plain.authorityId SelfSigned.defaultLeafBits) d).1 =
        .error (.certificate (.version 3)) := by
    rw [Reconciler.runWith_resolveAuthority_of_held hold (by decide) hrecord]
    dsimp only
    rw [ofFields_fourth (List.cons_ne_nil _ _)]
  obtain ⟨⟨res, hrun, -, hkind⟩, hinspects⟩ :=
    resolveAuthority_settles CommandLine.Session.plain.store.handler Settings.plain.authorityId
      SelfSigned.defaultLeafBits d
  obtain rfl : res = .error (.certificate (.version 3)) := by rw [← hresolve, hrun]
  refine ⟨d, hupsert, ⟨_, hresolve, fun hengine => ?_⟩, ?_⟩
  · exact (hkind _ rfl).mp hengine (.version 3)
  · rw [hinspects Unit Signing.steady CommandLine.Session.plain none ⟨d, [], ()⟩ d .plain _
      hold.toStands.runWith_prepare rfl hresolve]
    rfl

end CertKeeper
