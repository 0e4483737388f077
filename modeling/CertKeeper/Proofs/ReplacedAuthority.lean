import CertKeeper.Proofs.ExitStatus
import CertKeeper.Proofs.NewAuthority

/-!
# Replacing the authority

Making an authority looks whether its record exists, makes the authority, stores its two texts
beside the other fields and says so. Each of these steps can end it, and until the texts are stored
nothing has changed (`CommandLine.Session.InitEnds`). Then the former authority is gone: the new one
is found, and no reported pass keeps a pair that it has not signed
(`CommandLine.Session.initAuthority_replaces`).
-/

namespace CertKeeper

open CertKeeper.Action Console.Markup X509

namespace CommandLine.Session

open Shell

variable {τ : Type} {g : Handler Signing τ} {w w' : Surroundings τ} {s : Session}
  {settings : Settings} {options : SelfSigned.Options} {force : Bool} {t : τ} {e : Failure}
  {B : List String} {m : MemoryStore} {d' : Disk} {id : Identity} {ca : SelfSigned}

/-- What is said of an authority that is there. -/
def presentLine (id : Identity) : String :=
  "[yellow]CA record " ++ id.text ++ " already exists.[/yellow] " ++ "Use --force to replace it."

/-- What is said of an authority that has been stored. -/
def storedLines (o : Outcome) (id : Identity) (subject : String) (notAfter : Moment) :
    List String :=
  ["[green]CA " ++ o.text ++ "[/green] in record [bold]" ++ id.text ++ "[/bold]",
    "  Subject:   " ++ subject, "  Not after: " ++ notAfter.text]

/-- The notice that an authority is already there can be shown if the identity has no tags. -/
private theorem exists_shows_presentLine (console : Nat) (hid : Tagless id.text.toList) :
    ∃ line, Shows console (presentLine id) line := by
  have hword : Tagless ("CA record " ++ id.text ++ " already exists.").toList := by
    rw [String.toList_append, String.toList_append]
    have hstart : Tagless ("CA record ".toList ++ id.text.toList) :=
      (Tagless.of_not_mem (by decide)).append hid fun hlast => absurd hlast (by decide)
    exact hstart.append (.of_not_mem (by decide)) fun _ => rfl
  have hlast : ("CA record " ++ id.text ++ " already exists.").toList.getLast? ≠ some '\\' := by
    rw [String.toList_append, List.getLast?_append_of_ne_nil _ (by decide)]
    decide
  have hadvice : Tagless "Use --force to replace it.".toList := .of_not_mem (by decide)
  have hshow := canShow_notice "" "yellow" ("CA record " ++ id.text ++ " already exists.") " "
    (by decide) (by decide) (by decide) hword hlast (by decide) hadvice
  refine exists_shows (exists_shown_of_canShow ?_)
  change CanShow [] ("[yellow]CA record " ++ id.text ++ " already exists.[/yellow] " ++
    "Use --force to replace it.").toList
  simpa [styled] using hshow

private theorem exists_shows_storedLines (console : Nat) (o : Outcome) {subject : String}
    (notAfter : Moment) (hid : Tagless id.text.toList) (hsubject : '[' ∉ subject.toList) :
    ∃ lines, List.Forall₂ (Shows console) (storedLines o id subject notAfter) lines := by
  refine exists_forall₂_shows fun text htext => exists_shown_of_canShow ?_
  simp only [storedLines, List.mem_cons, List.not_mem_nil, or_false] at htext
  rcases htext with rfl | rfl | rfl
  · have hword : Tagless ("CA " ++ o.text).toList ∧
        ("CA " ++ o.text).toList.getLast? ≠ some '\\' := by
      cases o <;> exact ⟨.of_not_mem (by decide), by decide⟩
    have hshow := canShow_heading ("CA " ++ o.text) " in record " hword.1 hword.2
      (by decide) (by decide) hid
    simpa [styled] using hshow
  · exact canShow_label (by decide) (.of_not_mem hsubject)
  · exact canShow_label (by decide) (.of_not_mem (bracket_not_mem_of_all notAfter.all_text))

/-! ## The steps of the command -/

/-- Looking whether a record exists finds what is held and changes nothing; only a name that no file
can have keeps it from finding that there is nothing. -/
private theorem recordExists_cases {d : Disk} (hold : Holds s.store.base B m d)
    (hid : id.IsRegular) :
    runWith s.store.handler (recordExists id) d = (.ok (m.records.get? id.safe).isSome, d) ∨
      (∃ e, runWith s.store.handler (recordExists id) d = (.error e, d)) ∧
        m.records.get? id.safe = none ∧ ¬ id.IsNamed := by
  rw [recordExists, runWith_bind, runWith_outcome, DirectoryStore.runWith_handler_getRecord]
  cases hrecord : m.records.get? id.safe with
  | some record =>
    rw [hold.runWith_getRecord_of_held hid hrecord]
    exact .inl rfl
  | none =>
    obtain ⟨e, hrun, hwhy⟩ := hold.runWith_getRecord_of_none hid hrecord
    rw [hrun]
    dsimp only
    cases hfound : e.isRecordNotFound with
    | true => exact .inl rfl
    | false =>
      refine .inr ⟨⟨e, rfl⟩, rfl, hwhy.resolve_left ?_⟩
      rintro rfl
      cases hfound

/-- No authority is stored if none can be made. -/
private theorem runWith_replaceAuthority_of_generate_error
    (hmade : runWith g (SelfSigned.generate options) w.signer = (.error e, t)) :
    runWith (handler g) (s.replaceAuthority id options) w = (.error e, w.withSigner t) := by
  rw [replaceAuthority, runWith_bind, runWith_onSigning, hmade]

/-- Nothing is said of an authority that the store refuses. -/
private theorem runWith_replaceAuthority_of_upsert_error
    (hmade : runWith g (SelfSigned.generate options) w.signer = (.ok ca, t))
    (hrefused : runWith Disk.handler (s.store.upsert id fun data => .ok (ca.store data)) w.disk =
      (.error e, d')) :
    runWith (handler g) (s.replaceAuthority id options) w =
      (.error e, (w.withSigner t).withDisk d') := by
  rw [replaceAuthority, runWith_bind, runWith_onSigning, hmade]
  dsimp only
  rw [runWith_bind, runWith_onStore, DirectoryStore.runWith_handler_upsert,
    Surroundings.disk_withSigner, hrefused]

/-- An authority that has been stored is reported. -/
private theorem runWith_replaceAuthority_of_stored {o : Outcome} {subject : String}
    {notAfter : Moment}
    {lines : List String}
    (hmade : runWith g (SelfSigned.generate options) w.signer = (.ok ca, t))
    (hstored : runWith Disk.handler (s.store.upsert id fun data => .ok (ca.store data)) w.disk =
      (.ok o, d'))
    (hsubject : ca.certificate.statement.subject.text? = .ok subject)
    (hends : ca.certificate.notAfter? = .ok notAfter)
    (hlines : List.Forall₂ (Shows s.console) (storedLines o id subject notAfter) lines) :
    runWith (handler g) (s.replaceAuthority id options) w =
      (.ok 0, ((w.withSigner t).withDisk d').print lines) := by
  obtain _ | ⟨hfirst, _ | ⟨hsecond, _ | ⟨hthird, _ | _⟩⟩⟩ := hlines
  refine runWith_bind_eq_ok.mpr ⟨ca, w.withSigner t, ?_, ?_⟩
  · rw [runWith_onSigning, hmade]
  refine runWith_bind_eq_ok.mpr ⟨o, (w.withSigner t).withDisk d', ?_, ?_⟩
  · rw [runWith_onStore, DirectoryStore.runWith_handler_upsert, Surroundings.disk_withSigner,
      hstored]
  refine runWith_bind_eq_ok.mpr ⟨(), _, runWith_say_eq_ok_iff.mpr ⟨_, hfirst, rfl⟩, ?_⟩
  refine runWith_ofExcept_bind_eq_ok.mpr ⟨subject, hsubject, ?_⟩
  refine runWith_bind_eq_ok.mpr ⟨(), _, runWith_say_eq_ok_iff.mpr ⟨_, hsecond, rfl⟩, ?_⟩
  refine runWith_ofExcept_bind_eq_ok.mpr ⟨notAfter, hends, ?_⟩
  refine runWith_bind_eq_ok.mpr ⟨(), _, runWith_say_eq_ok_iff.mpr ⟨_, hthird, rfl⟩, ?_⟩
  simp [Surroundings.print]

/-- Without force an authority that is there is left, and otherwise it is made. -/
private theorem runWith_initAuthority {there : Bool}
    (hprepare : runWith Disk.handler s.store.prepare w.disk = (.ok (), w.disk))
    (hsettings : Settings.resolve s.sources = .ok settings)
    (hthere : runWith s.store.handler (recordExists settings.authorityId) w.disk =
      (.ok there, w.disk)) :
    runWith (handler g) (s.initAuthority options force) w =
      if there && !force then
        runWith (handler g) (s.say (presentLine settings.authorityId) >>= fun _ => pure 1) w
      else runWith (handler g) (s.replaceAuthority settings.authorityId options) w := by
  rw [initAuthority, runWith_withSettings hprepare hsettings, runWith_bind, runWith_onStore, hthere]
  dsimp only [Surroundings.withDisk]
  split <;> rfl

/-! ## The pass after it -/

/-- A reported pass for a held record without a signature by the key of the authority that is found
has not kept what the record holds. -/
private theorem exists_renewed_of_reconcile {record : Record} {key : PublicKey}
    {name : Option String}
    (hold : Holds s.store.base B m w.disk) (hsettings : Settings.resolve s.sources = .ok settings)
    (hfound : ∀ bits, runWith s.store.handler (resolveAuthority settings.authorityId bits) w.disk =
      (.ok { ca with leafBits := bits }, w.disk))
    (hkey : ca.certificate.publicKey? = .ok key)
    (hrecord : m.records.get? (target settings name).safe = some record)
    (hunsigned : record.UnsignedBy key)
    (hrun : runWith (handler g) (s.reconcile name) w = (.ok 0, w')) :
    ∃ result lines, List.Forall₂ (Shows s.console) (resultLines result) lines ∧
      w'.printed = w.printed ++ lines ∧ result.id = target settings name ∧
      ∃ reason lifetime, result.decision =
        if record.hasPair then .invalidate reason lifetime else .issue reason lifetime := by
  obtain ⟨settings', r, result, u, lines, hsettings', hr, hpass, hlines, hprinted⟩ :=
    exists_result_of_reconcile hold.toStands.runWith_prepare hrun
  rw [hsettings] at hsettings'
  cases hsettings'
  obtain ⟨now, found, a, evaluation, w₁, w₂, -, hfetch, hresolve, happraise, hdecide, -, -, hid,
      -⟩ := Reconciler.exists_judged_of_reconcile hr hpass
  rw [hfound] at hresolve
  cases hresolve
  obtain ⟨hspace, hname⟩ := hold.isName_of_held hrecord
  have hregular : (target settings name).IsRegular :=
    ⟨isRegularName_of_isName hspace, isRegularName_of_isName hname⟩
  rw [Reconciler.runWith_fetch_of_held hold hregular hrecord] at hfetch
  cases hfetch
  refine ⟨result, lines, hlines, hprinted, hid, ?_⟩
  have happraise : ca.appraise record (some settings.dnsName) now = .ok evaluation := happraise
  have hworth := SelfSigned.appraise_of_unsigned hkey hunsigned happraise
  by_cases hpair : record.hasPair
  · rw [if_pos hpair] at hworth
    obtain ⟨defect, rfl⟩ := hworth
    refine ⟨defect.reason, r.lifetime, ?_⟩
    rw [if_pos hpair]
    exact (Except.ok.inj hdecide).symm
  · rw [if_neg hpair] at hworth
    subst hworth
    refine ⟨"missing", r.lifetime, ?_⟩
    rw [if_neg hpair]
    exact (Except.ok.inj hdecide).symm

/-- Every reported pass over a disk for a record that is held there without a signature by a key has
renewed it, whoever carries it out, if the authority of its settings is in the record with an
identity. -/
def Renews (store : DirectoryStore) (id : Identity) (key : PublicKey) (m : MemoryStore)
    (d : Disk) : Prop :=
  ∀ (τ : Type) (g : Handler Signing τ) (s : Session) (settings : Settings) (name : Option String)
    (leaf : Record) (w w' : Surroundings τ), s.store = store →
    Settings.resolve s.sources = .ok settings → settings.authorityId = id → w.disk = d →
    m.records.get? (target settings name).safe = some leaf → leaf.UnsignedBy key →
    runWith (handler g) (s.reconcile name) w = (.ok 0, w') →
    ∃ result lines, List.Forall₂ (Shows s.console) (resultLines result) lines ∧
      w'.printed = w.printed ++ lines ∧ result.id = target settings name ∧
      ∃ reason lifetime, result.decision =
        if leaf.hasPair then .invalidate reason lifetime else .issue reason lifetime

/-- A store on disk renews an authority where the authority with that key is found. -/
private theorem renews_of_found {store : DirectoryStore} {key : PublicKey} {d : Disk}
    (hold : Holds store.base B m d)
    (hfound : ∀ bits, runWith store.handler (resolveAuthority id bits) d =
      (.ok { ca with leafBits := bits }, d))
    (hkey : ca.certificate.publicKey? = .ok key) : Renews store id key m d := by
  rintro τ g s settings name leaf w w' rfl hsettings rfl rfl hleaf hunsigned hrun
  exact exists_renewed_of_reconcile hold hsettings hfound hkey hleaf hunsigned hrun

/-! ## Making an authority -/

/-- What there is when an authority has been stored in a record and this has been reported: the
record has been created if there was none, it holds the texts of the authority beside what it held
before, no other record has changed, the authority is found there, and a reported pass for a record
without a signature by its key renews that one. -/
structure Replaced (s : Session) (B : List String) (id : Identity) (ca : SelfSigned)
    (m : MemoryStore) (w w' : Surroundings τ) : Prop where
  reported : ∃ o subject notAfter lines, (o = .created ↔ m.records.get? id.safe = none) ∧
    ca.certificate.statement.subject.text? = .ok subject ∧
    ca.certificate.notAfter? = .ok notAfter ∧
    List.Forall₂ (Shows s.console) (storedLines o id subject notAfter) lines ∧
    w'.printed = w.printed ++ lines
  found : ∀ bits, runWith s.store.handler (resolveAuthority id bits) w'.disk =
    (.ok { ca with leafBits := bits }, w'.disk)
  held : ∃ m', Holds s.store.base B m' w'.disk ∧ ca.StoredBetween id.safe m m' ∧
    Renews s.store id (.rsa ca.key.publicKey) m' w'.disk

/-- An authority that has been made and stored takes the place of what was held before. -/
private theorem exists_replaced (hold : Holds s.store.base B m w.disk) (hid : id.IsRegular)
    (htext : Tagless id.text.toList) (hname : '[' ∉ options.commonName.toList)
    (horganization : '[' ∉ options.organization.toList)
    (hdraws : Signing.DrawsSoundFor g options.keyBits)
    (hmade : runWith g (SelfSigned.generate options) w.signer = (.ok ca, t)) {o : Outcome}
    (hstored : runWith Disk.handler (s.store.upsert id fun data => .ok (ca.store data)) w.disk =
      (.ok o, d')) :
    ∃ w', runWith (handler g) (s.replaceAuthority id options) w = (.ok 0, w') ∧
      Replaced s B id ca m w w' := by
  have hkey := SelfSigned.sound_of_generate hdraws hmade
  have hgenerated := (SelfSigned.generated_of_generate hmade).1
  obtain ⟨subject, hsubject, hplain⟩ := hgenerated.exists_subject hkey hname horganization
  obtain ⟨notAfter, hends⟩ := hgenerated.exists_notAfter hkey
  obtain ⟨lines, hlines⟩ := exists_shows_storedLines s.console o notAfter htext hplain
  obtain ⟨m', hupsert, hold'⟩ := hold.of_runWith_upsert hid hstored
  have hreloads := (SelfSigned.Obtained.generated hdraws hmade).reloads
  have hfound (bits : Int) : runWith s.store.handler (resolveAuthority id bits) d' =
      (.ok { ca with leafBits := bits }, d') :=
    hreloads.runWith_resolveAuthority_disk hold hid hstored
  refine ⟨_, runWith_replaceAuthority_of_stored hmade hstored hsubject hends hlines, ?_⟩
  refine ⟨⟨o, subject, notAfter, lines, ?_, hsubject, hends, hlines, rfl⟩, hfound, m', hold',
    SelfSigned.storedBetween_of_upsert hupsert, ?_⟩
  · exact MemoryStore.upsert_created_iff hupsert
  · exact renews_of_found hold' hfound (hgenerated.genuine hkey).certified

/-- How making an authority ends, by what is held before. -/
inductive InitEnds (s : Session) (B : List String) (id : Identity) (options : SelfSigned.Options)
    (force : Bool) (g : Handler Signing τ) (m : MemoryStore) (w : Surroundings τ) :
    Except Failure Nat → Surroundings τ → Prop
  /-- The name of the record is none of a file. -/
  | unread {e : Failure} (missing : m.records.get? id.safe = none) (unnamed : ¬ id.IsNamed) :
      InitEnds s B id options force g m w (.error e) w
  /-- The record exists and is left. -/
  | left {line : String} (held : m.records.get? id.safe ≠ none) (unforced : force = false)
      (shows : Shows s.console (presentLine id) line) :
      InitEnds s B id options force g m w (.ok 1) (w.print [line])
  /-- There is no authority to store. -/
  | unmade {e : Failure} {t : τ} (free : force = true ∨ m.records.get? id.safe = none)
      (made : runWith g (SelfSigned.generate options) w.signer = (.error e, t)) :
      InitEnds s B id options force g m w (.error e) (w.withSigner t)
  /-- The name of the record, or that of its next version, is none of a file. -/
  | refused {ca : SelfSigned} {e : Failure} {t : τ} {d' : Disk}
      (free : force = true ∨ m.records.get? id.safe = none)
      (made : runWith g (SelfSigned.generate options) w.signer = (.ok ca, t))
      (kept : Holds s.store.base B m d')
      (unfit : ¬ id.IsNamed ∨
        ∃ record, m.records.get? id.safe = some record ∧ 10 ^ 254 ≤ record.version + 1) :
      InitEnds s B id options force g m w (.error e) ((w.withSigner t).withDisk d')
  /-- An authority has been made and stored. -/
  | replaced {ca : SelfSigned} {t : τ} {w' : Surroundings τ}
      (free : force = true ∨ m.records.get? id.safe = none)
      (made : runWith g (SelfSigned.generate options) w.signer = (.ok ca, t))
      (stored : Replaced s B id ca m w w') : InitEnds s B id options force g m w (.ok 0) w'

/-- Making an authority where one may be stored ends in one of the ways of an initialization. -/
private theorem initEnds_of_replaceAuthority (hold : Holds s.store.base B m w.disk)
    (hid : id.IsRegular)
    (htext : Tagless id.text.toList) (hname : '[' ∉ options.commonName.toList)
    (horganization : '[' ∉ options.organization.toList)
    (hdraws : Signing.DrawsSoundFor g options.keyBits)
    (hfree : force = true ∨ m.records.get? id.safe = none) :
    ∃ status w', runWith (handler g) (s.replaceAuthority id options) w = (status, w') ∧
      InitEnds s B id options force g m w status w' := by
  rcases hmade : runWith g (SelfSigned.generate options) w.signer with ⟨e | ca, t⟩
  · exact ⟨_, _, runWith_replaceAuthority_of_generate_error hmade, .unmade hfree hmade⟩
  rcases hstored : runWith Disk.handler (s.store.upsert id fun data => .ok (ca.store data)) w.disk
    with ⟨e | o, d'⟩
  · refine ⟨_, _, runWith_replaceAuthority_of_upsert_error hmade hstored, ?_⟩
    obtain ⟨hkept, hwhy⟩ := hold.of_runWith_upsert_error hid hstored
    refine .refused hfree hmade hkept ?_
    rcases hwhy with hmutation | hunnamed | hunfit
    · obtain ⟨_, _, hupsert⟩ := m.exists_upsert_eq_ok id.safe ca.store
      rw [hupsert] at hmutation
      cases hmutation
    · exact .inl hunnamed
    · refine .inr ?_
      by_contra hshort
      push Not at hshort
      exact hold.not_unfit_store ca hshort hunfit
  · obtain ⟨w', hrun, hreplaced⟩ :=
      exists_replaced hold hid htext hname horganization hdraws hmade hstored
    exact ⟨_, w', hrun, .replaced hfree hmade hreplaced⟩

/-- The command that initializes an authority has a status and has done what the status says. -/
private theorem exists_initEnds_of_initAuthority (hold : Holds s.store.base B m w.disk)
    (hsettings : Settings.resolve s.sources = .ok settings) (hid : settings.authorityId.IsRegular)
    (htext : Tagless settings.authorityId.text.toList) (hname : '[' ∉ options.commonName.toList)
    (horganization : '[' ∉ options.organization.toList)
    (hdraws : Signing.DrawsSoundFor g options.keyBits) (force : Bool) :
    ∃ status w', runWith (handler g) (s.initAuthority options force) w = (status, w') ∧
      InitEnds s B settings.authorityId options force g m w status w' := by
  have hprepare := hold.toStands.runWith_prepare
  rcases recordExists_cases hold hid with hthere | ⟨⟨e, hfails⟩, hnone, hunnamed⟩
  · rw [runWith_initAuthority hprepare hsettings hthere]
    by_cases hleft : m.records.get? settings.authorityId.safe ≠ none ∧ force = false
    · obtain ⟨hheld, rfl⟩ := hleft
      rw [if_pos (by simpa [Option.isSome_iff_ne_none] using hheld)]
      obtain ⟨line, hline⟩ := exists_shows_presentLine s.console htext
      refine ⟨.ok 1, w.print [line], ?_, .left hheld rfl hline⟩
      exact runWith_bind_eq_ok.mpr ⟨(), _, runWith_say_eq_ok_iff.mpr ⟨line, hline, rfl⟩, rfl⟩
    · rw [if_neg (by simpa [Option.isSome_iff_ne_none] using hleft)]
      refine initEnds_of_replaceAuthority hold hid htext hname horganization hdraws ?_
      by_contra hno
      exact hleft (by simpa [and_comm] using hno)
  · refine ⟨.error e, w, ?_, .unread hnone hunnamed⟩
    rw [initAuthority, runWith_withSettings hprepare hsettings, runWith_bind, runWith_onStore,
      hfails]
    rfl

namespace InitEnds

variable {status : Except Failure Nat}

/-- Status one is a record that exists and may not be replaced. -/
theorem eq_one_iff (h : InitEnds s B id options force g m w status w') :
    status = .ok 1 ↔ m.records.get? id.safe ≠ none ∧ force = false := by
  cases h with
  | unread missing unnamed => exact iff_of_false nofun fun h => h.1 missing
  | left held unforced shows => exact iff_of_true rfl ⟨held, unforced⟩
  | unmade free | refused free | replaced free =>
    refine iff_of_false nofun ?_
    rintro ⟨hheld, rfl⟩
    exact hheld (free.resolve_left nofun)

/-- Status one of the initialization comes with a notice that an authority is already there and
nothing else. -/
private theorem exists_print_of_one (h : InitEnds s B id options force g m w (.ok 1) w') :
    ∃ line, Shows s.console (presentLine id) line ∧ w' = w.print [line] := by
  cases h with
  | left held unforced shows => exact ⟨_, shows, rfl⟩

/-- Where none can be made, nothing has been done. -/
private theorem eq_error_of_unmade (h : InitEnds s B id options force g m w status w')
    (hnamed : id.IsNamed) (hfree : force = true ∨ m.records.get? id.safe = none)
    (hmade : runWith g (SelfSigned.generate options) w.signer = (.error e, t)) :
    status = .error e ∧ w' = w.withSigner t := by
  cases h with
  | unread missing unnamed => exact absurd hnamed unnamed
  | left held unforced shows => exact absurd (hfree.resolve_left (by simp [unforced])) held
  | unmade free made =>
    cases made.symm.trans hmade
    exact ⟨rfl, rfl⟩
  | refused free made | replaced free made => cases made.symm.trans hmade

/-- Where one can be made and stored, status zero says that it has been. -/
private theorem eq_zero_of_made (h : InitEnds s B id options force g m w status w')
    (hnamed : id.IsNamed) (hfree : force = true ∨ m.records.get? id.safe = none)
    (hversion : ∀ record, m.records.get? id.safe = some record → record.version + 1 < 10 ^ 254)
    (hmade : runWith g (SelfSigned.generate options) w.signer = (.ok ca, t)) :
    status = .ok 0 ∧ Replaced s B id ca m w w' := by
  cases h with
  | unread missing unnamed => exact absurd hnamed unnamed
  | left held unforced shows => exact absurd (hfree.resolve_left (by simp [unforced])) held
  | unmade free made => cases made.symm.trans hmade
  | refused free made kept unfit =>
    rcases unfit with unnamed | ⟨record, hrecord, hlong⟩
    · exact absurd hnamed unnamed
    · have := hversion record hrecord
      omega
  | replaced free made stored =>
    cases made.symm.trans hmade
    exact ⟨rfl, stored⟩

/-- Status zero of an initialization says that the authority has been made and stored, and that this
was allowed. -/
private theorem exists_of_zero (h : InitEnds s B id options force g m w (.ok 0) w') :
    (force = true ∨ m.records.get? id.safe = none) ∧
      ∃ ca t, runWith g (SelfSigned.generate options) w.signer = (.ok ca, t) ∧
        Replaced s B id ca m w w' := by
  cases h with
  | replaced free made stored => exact ⟨free, _, _, made, stored⟩

/-- A failure leaves what is held. -/
private theorem holds_of_error (hold : Holds s.store.base B m w.disk)
    (h : InitEnds s B id options force g m w (.error e) w') : Holds s.store.base B m w'.disk := by
  cases h with
  | unread | unmade => exact hold
  | refused free made kept unfit => exact kept

end InitEnds

/-- On a disk that a store in a directory has been used on under regular names, making an authority
replaces the one of the settings only when told to, completely, and otherwise changes nothing.
Without force a record that exists is left, with status one. If none can be made, that failure is
all there is. Otherwise, if the names and the next version can be names of files, the authority is
stored, with status zero, in place of the former one and beside all else, and is found there. A
reported pass after that renews every record without a signature by its key. -/
theorem initAuthority_replaces {d : Disk} (hfresh : s.store.Fresh B d)
    (calls : List DirectoryStore.Call) (hcalls : ∀ c ∈ calls, c.IsRegular)
    (hdisk : ((s.store.session calls).run Disk.handler d).2 = w.disk)
    (hsettings : Settings.resolve s.sources = .ok settings)
    (hid : settings.authorityId.IsRegular) (htext : Tagless settings.authorityId.text.toList)
    (options : SelfSigned.Options) (hname : '[' ∉ options.commonName.toList)
    (horganization : '[' ∉ options.organization.toList)
    (hdraws : Signing.DrawsSoundFor g options.keyBits) (force : Bool) :
    ∃ m status w', Holds s.store.base B m w.disk ∧
      runWith (handler g) (s.initAuthority options force) w = (status, w') ∧
      InitEnds s B settings.authorityId options force g m w status w' ∧
      (status = .ok 1 ↔ m.records.get? settings.authorityId.safe ≠ none ∧ force = false) ∧
      (status = .ok 1 →
        ∃ line, Shows s.console (presentLine settings.authorityId) line ∧ w' = w.print [line]) ∧
      (settings.authorityId.IsNamed →
        force = true ∨ m.records.get? settings.authorityId.safe = none →
        (∀ e t, runWith g (SelfSigned.generate options) w.signer = (.error e, t) →
          status = .error e ∧ w' = w.withSigner t) ∧
        ∀ ca t, runWith g (SelfSigned.generate options) w.signer = (.ok ca, t) →
          (∀ record, m.records.get? settings.authorityId.safe = some record →
            record.version + 1 < 10 ^ 254) →
          status = .ok 0 ∧ Replaced s B settings.authorityId ca m w w') ∧
      (status = .ok 0 → (force = true ∨ m.records.get? settings.authorityId.safe = none) ∧
        ∃ ca t, runWith g (SelfSigned.generate options) w.signer = (.ok ca, t) ∧
          Replaced s B settings.authorityId ca m w w') ∧
      ∀ e, status = .error e → Holds s.store.base B m w'.disk := by
  obtain ⟨m, hold, -⟩ := DirectoryStore.exists_holds_session hfresh.holds calls hcalls
  rw [hdisk] at hold
  obtain ⟨status, w', hrun, hends⟩ :=
    exists_initEnds_of_initAuthority hold hsettings hid htext hname horganization hdraws force
  refine ⟨m, status, w', hold, hrun, hends, hends.eq_one_iff, ?_, fun hnamed hfree =>
    ⟨fun e t => hends.eq_error_of_unmade hnamed hfree, fun ca t hmade hversion =>
      hends.eq_zero_of_made hnamed hfree hversion hmade⟩, ?_, ?_⟩
  · rintro rfl
    exact hends.exists_print_of_one
  · rintro rfl
    exact hends.exists_of_zero
  · rintro e rfl
    exact hends.holds_of_error hold

/-- Where the record of the authority holds no texts of one, an initialization with force stores a
new one, which is found there. -/
theorem initAuthority_replaces_forced :
    ∃ (ca : SelfSigned) (w w' : Surroundings Unit),
      ((plain.store.session [.request (.upsert ⟨"default", "ca"⟩ fun data =>
        .ok ((data.set authorityCertificateField [1]).set authorityKeyField [2]))]).run Disk.handler
          (.withWorking ["var"])).2 = w.disk ∧
      runWith (handler Signing.steady) (plain.initAuthority .short true) w = (.ok 0, w') ∧
      ∀ bits, runWith plain.store.handler (resolveAuthority ⟨"default", "ca"⟩ bits) w'.disk =
        (.ok { ca with leafBits := bits }, w'.disk) := by
  obtain ⟨ca, hca, -⟩ := SelfSigned.exists_generate_short
  obtain ⟨m, d, hupsert, hold, hrecord, -⟩ := exists_holds_texts [1] [2]
  have hcalls := DirectoryStore.isRegular_of_mem_upsert
    (by decide : Identity.IsRegular ⟨"default", "ca"⟩)
    fun data => .ok ((data.set authorityCertificateField [1]).set authorityKeyField [2])
  have hdisk : ((plain.store.session [.request (.upsert ⟨"default", "ca"⟩ fun data =>
      .ok ((data.set authorityCertificateField [1]).set authorityKeyField [2]))]).run Disk.handler
        (.withWorking ["var"])).2 = d := by
    rw [DirectoryStore.run_session_singleton]
    exact congrArg Prod.snd hupsert
  have hregular : Settings.plain.authorityId.IsRegular := by decide
  obtain ⟨m', status, w', hold', hrun, -, -, -, hmakes, -⟩ :=
    initAuthority_replaces (w := ⟨d, [], ()⟩) fresh_plain _ hcalls hdisk
      (rfl : Settings.resolve plain.sources = .ok .plain) hregular (.of_not_mem (by decide))
      .short (by decide) (by decide) (Signing.drawsSoundFor_steady _)
      true
  obtain ⟨rfl, hreplaced⟩ := (hmakes (by decide) (.inl rfl)).2 ca () hca (by
    intro record hrecord'
    have hread := hold.runWith_getRecord_of_held hregular hrecord
    rw [hold'.runWith_getRecord_of_held hregular hrecord'] at hread
    obtain ⟨-, hversion⟩ : record.data = _ ∧ record.version = 1 := by simpa using hread
    rw [hversion]
    decide)
  exact ⟨ca, _, w', hdisk, hrun, hreplaced.found⟩

end CommandLine.Session

end CertKeeper