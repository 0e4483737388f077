import CertKeeper.Proofs.AuthorityFields
import CertKeeper.Proofs.PrintedRows
import CertKeeper.Proofs.SettledPass

/-!
# Inspecting before a pass

An inspection goes the way of a pass with steps of its own, and changes nothing. What it shows of a
record is what a pass at the same time reports, row by row and line by line as they are printed
(`CommandLine.Session.inspect_foretells`).
-/

namespace CertKeeper

open CertKeeper.Action

/-! ## The steps of an inspection -/

/-- An authority is found with whatever number of bits is asked for. -/
private theorem resolveAuthority_withBits {σ : Type} {h : Handler Store σ} {w : σ} {id : Identity}
    {bits : Int} {a : SelfSigned} (hrun : (runWith h (resolveAuthority id bits) w).1 = .ok a)
    (bits' : Int) :
    (runWith h (resolveAuthority id bits') w).1 = .ok { a with leafBits := bits' } := by
  obtain ⟨record, hfound, hfields⟩ := Reconciler.exists_record_of_resolveAuthority
    (Prod.ext hrun rfl : runWith h (resolveAuthority id bits) w = (.ok a, _))
  rw [Reconciler.runWith_resolveAuthority_of_found hfound]
  exact SelfSigned.ofFields_withBits hfields bits'

namespace SelfSigned

variable {τ : Type} {g : Handler Signing τ} {a : SelfSigned} {now : Moment}

/-- A certificate is judged at the time that the clock shows. -/
private theorem validate_by_clock (hclock : ∀ t, (g .clock t).1 = now) (c : X509.Certificate)
    (dnsName : Option String) (t : τ) :
    (runWith g (a.validate c dnsName none) t).1 = a.judgeAt c dnsName now := by
  unfold validate judgeAt
  rcases c.checkIssuedBy a.certificate with defect | ⟨⟩
  · dsimp only
    split <;> rfl
  · dsimp only
    have hshown : runWith g (Signing.momentOr none) t = (.ok (g .clock t).1, (g .clock t).2) := rfl
    rw [runWith_bind, hshown, hclock]
    dsimp only
    rw [runWith_ofExcept]
    cases validateAt c dnsName now <;> rfl

/-- A record is evaluated at the time that the clock shows. -/
private theorem evaluate_by_clock (hclock : ∀ t, (g .clock t).1 = now) (r : Record)
    (dnsName : Option String) (t : τ) :
    (runWith g (evaluate r a.toAuthority dnsName none) t).1 = a.appraise r dnsName now := by
  unfold evaluate appraise
  cases r.certificate? with
  | none => rfl
  | some certificate =>
    cases r.key? with
    | none => rfl
    | some key =>
      dsimp only
      rcases X509.Certificate.ofText certificate with defect | c
      · cases defect <;> rfl
      dsimp only
      rcases checkKey c key with defect | ⟨⟩
      · rfl
      dsimp only [toAuthority]
      rw [runWith_bind, ← validate_by_clock (a := a) hclock c dnsName t]
      rcases runWith g (a.validate c dnsName none) t with ⟨e | verdict, t'⟩
      · rfl
      cases verdict with
      | accepted => cases c.notAfter? <;> rfl
      | rejected rejection => rfl

end SelfSigned

namespace CommandLine.Session

open Shell

variable {τ : Type} {g : Handler Signing τ} {w w' : Surroundings τ} {s : Session}
  {record : Option String} {now : Moment}

/-- An inspection looks a record up as a pass does. -/
theorem recordOrMissing_eq_ok_iff {σ : Type} {h : Handler Store σ} {id : Identity} {u : σ}
    {found : Record} :
    (runWith h (recordOrMissing id) u).1 = .ok found ↔
      (runWith h (Reconciler.fetch id) u).1 = .ok found := by
  rw [recordOrMissing, runWith_bind, runWith_outcome, Reconciler.fetch, runWith_bind,
    runWith_outcome]
  rcases runWith h (Store.getRecord id) u with ⟨e | r, u₁⟩
  · dsimp only
    split
    · exact Iff.rfl
    · simp
  · exact Iff.rfl

private theorem asks_recordOrMissing (id : Identity) : ReadsOnly (recordOrMissing id) := by
  refine Asks.bind (Asks.outcome ⟨trivial, fun _ => trivial⟩) fun res => ?_
  cases res with
  | ok record => exact asks_pure record
  | error cause =>
    dsimp only
    split
    · exact asks_pure _
    · exact asks_throw _

/-- An inspection only looks. -/
private theorem disk_inspect
    (hprepare : runWith Disk.handler s.store.prepare w.disk = (.ok (), w.disk)) :
    (runWith (handler g) (s.inspect record) w).2.disk = w.disk := by
  refine disk_withSettings hprepare fun settings => ?_
  refine (looks_onStore _ (Reconciler.asks_resolveAuthority _ _)).outcome.bind fun res => ?_
  rcases res with e | authority
  · dsimp only
    split
    · exact (s.looks_say _).bind fun _ => asks_pure 1
    · exact asks_throw _
  · refine (looks_onStore _ (asks_recordOrMissing _)).bind fun found => ?_
    refine (looks_onSigning _).bind fun evaluation => ?_
    refine (asks_ofExcept _ _).bind fun lifetime => ?_
    refine (looks_onSigning _).bind fun now => ?_
    refine (asks_ofExcept _ _).bind fun decision => ?_
    exact (looks_sayTable _ _).bind fun _ => asks_pure 0

/-- What an inspection that ends well has found and what it has printed. -/
private theorem exists_found_of_inspect
    (hprepare : runWith Disk.handler s.store.prepare w.disk = (.ok (), w.disk))
    (hclock : ∀ t, (g .clock t).1 = now)
    (hrun : runWith (handler g) (s.inspect record) w = (.ok 0, w')) :
    ∃ settings a found evaluation lifetime decision shown,
      Settings.resolve s.sources = .ok settings ∧
      (runWith s.store.handler
        (resolveAuthority settings.authorityId SelfSigned.defaultLeafBits) w.disk).1 = .ok a ∧
      (runWith s.store.handler
        (Reconciler.fetch (target settings record)) w.disk).1 = .ok found ∧
      a.appraise found (some settings.dnsName) now = .ok evaluation ∧
      settings.lifetime? = .ok lifetime ∧ evaluation.decide lifetime now = .ok decision ∧
      ShowsTable s.console (inspectionTable found evaluation decision) shown ∧
      w'.printed = w.printed ++ [shown] := by
  obtain ⟨settings, hsettings, hrun⟩ := exists_settings_of_withSettings hprepare hrun
  rw [runWith_bind, runWith_outcome, runWith_onStore] at hrun
  dsimp only at hrun
  cases hresolve : (runWith s.store.handler
      (resolveAuthority settings.authorityId SelfSigned.defaultLeafBits) w.disk).1 with
  | error e =>
    rw [hresolve] at hrun
    dsimp only at hrun
    split at hrun
    · obtain ⟨_, _, _, hrun⟩ := runWith_bind_eq_ok.mp hrun
      cases hrun
    · cases hrun
  | ok a =>
  rw [hresolve,
    DirectoryStore.runWith_handler_of_reads (Reconciler.asks_resolveAuthority _ _)] at hrun
  dsimp only at hrun
  obtain ⟨found, w₁, hfound, hrun⟩ := runWith_bind_eq_ok.mp hrun
  obtain ⟨evaluation, w₂, hevaluate, hrun⟩ := runWith_bind_eq_ok.mp hrun
  obtain ⟨lifetime, hlifetime, hrun⟩ := runWith_ofExcept_bind_eq_ok.mp hrun
  obtain ⟨moment, w₃, hmoment, hrun⟩ := runWith_bind_eq_ok.mp hrun
  obtain ⟨decision, hdecide, hrun⟩ := runWith_ofExcept_bind_eq_ok.mp hrun
  obtain ⟨_, w₄, hsay, hrun⟩ := runWith_bind_eq_ok.mp hrun
  cases hrun
  rw [runWith_onStore, Prod.mk.injEq] at hfound
  obtain ⟨hfound, rfl⟩ := hfound
  rw [runWith_onSigning, Prod.mk.injEq, SelfSigned.evaluate_by_clock hclock] at hevaluate
  obtain ⟨happraise, rfl⟩ := hevaluate
  rw [runWith_onSigning, Prod.mk.injEq] at hmoment
  obtain ⟨hmoment, rfl⟩ := hmoment
  obtain rfl := Signing.moment_of_clock hclock hmoment
  obtain ⟨shown, hshows, rfl⟩ := runWith_sayTable_eq_ok_iff.mp hsay
  exact ⟨settings, a, found, evaluation, lifetime, decision, shown, hsettings, hresolve,
    recordOrMissing_eq_ok_iff.mp hfound, happraise, hlifetime, hdecide, hshows, by simp⟩

/-- An inspection shows what it finds of a record that does not exist. -/
private theorem runWith_inspect_of_missing {settings : Settings} {a : SelfSigned} {lifetime : Span}
    {shown : String} {t : τ}
    (hprepare : runWith Disk.handler s.store.prepare w.disk = (.ok (), w.disk))
    (hsettings : Settings.resolve s.sources = .ok settings)
    (hresolve : (runWith s.store.handler
      (resolveAuthority settings.authorityId SelfSigned.defaultLeafBits) w.disk).1 = .ok a)
    (hfetch : (runWith s.store.handler (Reconciler.fetch (target settings record)) w.disk).1 =
      .ok (.missing (target settings record)))
    (hlifetime : settings.lifetime? = .ok lifetime)
    (hclock : runWith g Signing.clock w.signer = (.ok now, t))
    (hshown : ShowsTable s.console (inspectionTable (.missing (target settings record)) .absent
      (.issue "missing" lifetime)) shown) :
    runWith (handler g) (s.inspect record) w = (.ok 0, (w.withSigner t).print [shown]) := by
  have hauthority : runWith (handler g) (onStore s.store
      (resolveAuthority settings.authorityId SelfSigned.defaultLeafBits)) w = (.ok a, w) := by
    rw [runWith_onStore, hresolve,
      DirectoryStore.runWith_handler_of_reads (Reconciler.asks_resolveAuthority _ _)]
    rfl
  have hfound : runWith (handler g) (onStore s.store (recordOrMissing (target settings record))) w =
      (.ok (.missing (target settings record)), w) := by
    rw [runWith_onStore, recordOrMissing_eq_ok_iff.mpr hfetch,
      DirectoryStore.runWith_handler_of_reads (asks_recordOrMissing _)]
    rfl
  rw [inspect, runWith_withSettings hprepare hsettings]
  dsimp only
  rw [runWith_bind, runWith_outcome, hauthority]
  refine runWith_bind_eq_ok.mpr ⟨.missing (target settings record), w, hfound, ?_⟩
  refine runWith_bind_eq_ok.mpr ⟨.absent, w, rfl, ?_⟩
  refine runWith_ofExcept_bind_eq_ok.mpr ⟨lifetime, hlifetime, ?_⟩
  refine runWith_bind_eq_ok.mpr ⟨now, w.withSigner t, ?_, ?_⟩
  · rw [runWith_onSigning, hclock]
  refine runWith_ofExcept_bind_eq_ok.mpr ⟨.issue "missing" lifetime, rfl, ?_⟩
  exact runWith_bind_eq_ok.mpr
    ⟨(), _, runWith_sayTable_eq_ok_iff.mpr ⟨shown, hshown, rfl⟩, rfl⟩

/-! ## The report of a pass -/

/-- What is printed about the servers after a pass. -/
def restartLines (report : RestartReport) : List String :=
  if report.skipped.isEmpty then
    let names := String.intercalate ", " report.terminated
    ("  Restarted:    " ++ if names.isEmpty then "(none)" else names) ::
      report.failures.map fun f => "  [red]FAIL[/red]  " ++ f.message
  else ["  Restart:      [yellow]skipped[/yellow] (" ++ report.skipped ++ ")"]

/-- What is printed after a pass. -/
def resultLines (r : PassResult) : List String :=
  ["[green]Reconciled[/green] [bold]" ++ r.id.text ++ "[/bold]",
    "  Decision:     " ++ r.decision.name,
    "  Write:        " ++ r.outcome.text,
    "  Re-check in:  " ++ r.requeueAfter.text] ++
  match r.restart with
  | none => []
  | some report => restartLines report

/-- The report on the servers is printed text by text. -/
private theorem sayRestart_eq (report : RestartReport) :
    s.sayRestart report = (restartLines report).forM s.say := by
  rw [sayRestart, restartLines]
  split
  · simp [List.forM]
  · simp [List.forM]

/-- The report of a pass is said line by line. -/
theorem sayResult_eq (r : PassResult) : s.sayResult r = (resultLines r).forM s.say := by
  rw [sayResult, resultLines]
  cases r.restart with
  | none => simp
  | some report => simp [sayRestart_eq]

/-- What a pass that is reported to have ended well has come to and what has been printed of it. -/
theorem exists_result_of_reconcile
    (hprepare : runWith Disk.handler s.store.prepare w.disk = (.ok (), w.disk))
    (hrun : runWith (handler g) (s.reconcile record) w = (.ok 0, w')) :
    ∃ settings r result u lines,
      Settings.resolve s.sources = .ok settings ∧ Reconciler.ofSettings settings = .ok r ∧
      runWith (World.onDisk s.store g) (r.reconcile (target settings record) none)
        (w.disk, w.signer) = (.ok result, u) ∧
      List.Forall₂ (Shows s.console) (resultLines result) lines ∧
      w'.printed = w.printed ++ lines := by
  obtain ⟨settings, hsettings, hrun⟩ := exists_settings_of_withSettings hprepare hrun
  rw [runWith_bind, runWith_outcome] at hrun
  rcases hpass : runWith (handler g) (s.pass settings (target settings record)) w with
    ⟨e | result, w₁⟩
  · rw [hpass] at hrun
    dsimp only at hrun
    split at hrun
    · obtain ⟨_, _, _, hrun⟩ := runWith_bind_eq_ok.mp hrun
      cases hrun
    · cases hrun
  rw [hpass] at hrun
  dsimp only at hrun
  obtain ⟨_, w₂, hsay, hrun⟩ := runWith_bind_eq_ok.mp hrun
  cases hrun
  obtain ⟨r, hr, hpass⟩ := runWith_ofExcept_bind_eq_ok.mp hpass
  rw [runWith_onWorld] at hpass
  rcases hworld : runWith (World.onDisk s.store g) (r.reconcile (target settings record) none)
    (w.disk, w.signer) with ⟨res, u⟩
  rw [hworld, Prod.mk.injEq] at hpass
  obtain ⟨rfl, rfl⟩ := hpass
  rw [sayResult_eq] at hsay
  obtain ⟨lines, hlines, rfl⟩ := runWith_forM_say_eq_ok_iff.mp hsay
  exact ⟨settings, r, result, u, lines, hsettings, hr, hworld, hlines, by simp⟩

/-- A pass that returns is reported, if its report can be shown. -/
private theorem runWith_reconcile_of_result {settings : Settings} {r : Reconciler}
    {result : PassResult}
    {u : Disk × τ} {lines : List String}
    (hprepare : runWith Disk.handler s.store.prepare w.disk = (.ok (), w.disk))
    (hsettings : Settings.resolve s.sources = .ok settings)
    (hr : Reconciler.ofSettings settings = .ok r)
    (hpass : runWith (World.onDisk s.store g) (r.reconcile (target settings record) none)
      (w.disk, w.signer) = (.ok result, u))
    (hlines : List.Forall₂ (Shows s.console) (resultLines result) lines) :
    runWith (handler g) (s.reconcile record) w =
      (.ok 0, ((w.withDisk u.1).withSigner u.2).print lines) := by
  have hreturns : runWith (handler g) (s.pass settings (target settings record)) w =
      (.ok result, (w.withDisk u.1).withSigner u.2) := by
    refine runWith_ofExcept_bind_eq_ok.mpr ⟨r, hr, ?_⟩
    rw [runWith_onWorld, hpass]
  rw [reconcile, runWith_withSettings hprepare hsettings]
  rw [runWith_bind, runWith_outcome, hreturns]
  refine runWith_bind_eq_ok.mpr ⟨(), _, ?_, rfl⟩
  rw [sayResult_eq]
  exact runWith_forM_say_eq_ok_iff.mpr ⟨lines, hlines, rfl⟩

/-! ## A session to try -/

/-- A session of settings that say nothing, with its store below the root of the disk. -/
def plain : Session := ⟨80, ⟨.empty, .empty, [], "server"⟩, ⟨⟨true, ["var"]⟩⟩⟩

/-- On an empty disk that store is empty. -/
theorem fresh_plain : plain.store.Fresh ["var"] (.withWorking ["var"]) :=
  .of_entries (by decide) (by decide) (by decide) (by decide)

/-- A call that stores the texts of an authority, in a store that is empty: no other record is held
afterwards. -/
theorem exists_holds_texts (certificate key : Bytes) :
    let change : Fields → Fields := fun data =>
      (data.set authorityCertificateField certificate).set authorityKeyField key
    ∃ m d, runWith Disk.handler (plain.store.upsert ⟨"default", "ca"⟩ fun data => .ok (change data))
        (.withWorking ["var"]) = (.ok .created, d) ∧
      Holds plain.store.base ["var"] m d ∧
      m.records.get? Settings.plain.authorityId.safe =
        some ⟨⟨"default", "ca"⟩, change .empty, 1⟩ ∧
      ∀ id, id ≠ Settings.plain.authorityId.safe → m.records.get? id = none := by
  intro change
  have hsafe : (⟨"default", "ca"⟩ : Identity).safe = ⟨"default", "ca"⟩ := by decide
  have hkeys : (change .empty).keys = [authorityCertificateField, authorityKeyField] := rfl
  have hfit : ¬ Unfit .empty (⟨"default", "ca"⟩ : Identity).safe fun data => .ok (change data) :=
    not_unfit_of_none rfl rfl hkeys (by decide) (by decide)
  obtain ⟨d, hupsert, hold⟩ :=
    fresh_plain.holds.exists_runWith_upsert (by decide) (by decide) hfit
  have hstored : MemoryStore.upsert .empty (⟨"default", "ca"⟩ : Identity).safe
      (fun data => .ok (change data)) =
        (.ok .created, MemoryStore.empty.setRecord ⟨⟨"default", "ca"⟩, change .empty, 1⟩) := by
    rw [hsafe]
    rfl
  rw [hstored] at hupsert hold
  have hsame : (⟨"default", "ca"⟩ : Identity) = Settings.plain.authorityId.safe := by decide
  refine ⟨_, d, hupsert, hold, ?_, fun id hne => ?_⟩
  · rw [MemoryStore.get?_setRecord, if_pos hsame]
  · rw [MemoryStore.get?_setRecord, if_neg fun h => hne (h.symm.trans hsame)]
    rfl

/-- A call stores a new authority in an empty directory. -/
private theorem exists_holds_authority (ca : SelfSigned) :
    ∃ m d, ((plain.store.session [.request (.upsert ⟨"default", "ca"⟩ fun data =>
        .ok (ca.store data))]).run Disk.handler (.withWorking ["var"])).2 = d ∧
      Holds plain.store.base ["var"] m d ∧
      m.records.get? Settings.plain.authorityId.safe =
        some ⟨⟨"default", "ca"⟩, ca.store .empty, 1⟩ ∧
      ∀ id, id ≠ Settings.plain.authorityId.safe → m.records.get? id = none := by
  obtain ⟨m, d, hupsert, hold, hauthority, hothers⟩ :=
    exists_holds_texts ca.certificateText ca.keyText
  refine ⟨m, d, ?_, hold, hauthority, hothers⟩
  rw [DirectoryStore.run_session_singleton]
  exact congrArg Prod.snd hupsert

/-- The report of a pass that creates the serving record. -/
def createdLines : List String :=
  resultLines ⟨⟨"default", "tls"⟩, .issue "missing" ⟨180 * 86400000000⟩, .created,
    ⟨180 * 86400000000⟩, none⟩

/-- The console of a plain session shows the report of a pass that creates the serving record. -/
private theorem exists_shows_created :
    ∃ lines, List.Forall₂ (Shows plain.console) createdLines lines := by
  have hpieces : Console.Markup.pieces
      "[green]Reconciled[/green] [bold]default/tls[/bold]".toList =
      [.tag "green".toList 0, .plain "Reconciled".toList, .tag ('/' :: "green".toList) 17,
        .plain " ".toList, .tag "bold".toList 26, .plain "default/tls".toList,
        .tag ('/' :: "bold".toList) 43] := rfl
  have hfirst : ∃ cs, Console.Markup.shown "[green]Reconciled[/green] [bold]default/tls[/bold]" =
      .ok cs := by
    open Console.Markup in
    rw [shown, hpieces, shownFrom_opening (by decide) (by decide), shownFrom,
      shownFrom_closing (by decide) (by decide) (by decide), shownFrom,
      shownFrom_opening (by decide) (by decide), shownFrom,
      shownFrom_closing (by decide) (by decide) (by decide), shownFrom]
    exact ⟨_, rfl⟩
  have hrest : ∀ text ∈ createdLines.tail, (Console.Markup.shown text).isOk = true := by
    decide
  have hcons : createdLines =
      "[green]Reconciled[/green] [bold]default/tls[/bold]" :: createdLines.tail := rfl
  refine exists_forall₂_shows ?_
  rw [hcons]
  exact List.forall_mem_cons.mpr ⟨hfirst, fun text htext => exists_of_isOk (hrest text htext)⟩

/-- The console of a plain session shows what an inspection finds of a serving record that does not
exist. -/
private theorem exists_showsTable_missing : ∃ shown, ShowsTable plain.console
    (inspectionTable (.missing ⟨"default", "tls"⟩) .absent
      (.issue "missing" ⟨180 * 86400000000⟩)) shown := by
  have hok : ((inspectionTable (.missing ⟨"default", "tls"⟩) .absent
      (.issue "missing" ⟨180 * 86400000000⟩)).lines plain.console).isOk = true := by
    decide
  obtain ⟨lines, hlines⟩ := exists_of_isOk hok
  exact ⟨_, lines, hlines, rfl⟩

/-- Where a new authority is stored and nothing else, a pass creates any other record. -/
theorem exists_reconcile_created :
    ∃ (ca : SelfSigned) (d : Disk) (r : Reconciler),
      ((plain.store.session [.request (.upsert ⟨"default", "ca"⟩ fun data =>
        .ok (ca.store data))]).run Disk.handler (.withWorking ["var"])).2 = d ∧
      runWith Disk.handler plain.store.prepare d = (.ok (), d) ∧
      Reconciler.ofSettings .plain = .ok r ∧
      runWith plain.store.handler
        (resolveAuthority Settings.plain.authorityId SelfSigned.defaultLeafBits) d = (.ok ca, d) ∧
      ∀ id : Identity, id.IsRegular → id.IsNamed → id.safe ≠ Settings.plain.authorityId.safe →
        (runWith plain.store.handler (Reconciler.fetch id) d).1 = .ok (.missing id) ∧
        ∃ d', runWith (World.onDisk plain.store Signing.steady) (r.reconcile id none) (d, ()) =
          (.ok ⟨id, .issue "missing" ⟨180 * 86400000000⟩, .created, ⟨180 * 86400000000⟩, none⟩,
            (d', ())) := by
  obtain ⟨ca, hca, hshort⟩ := SelfSigned.exists_generate_short
  obtain ⟨pair, hissue⟩ := hshort.exists_issue
  have hgenuine := SelfSigned.genuine_of_generate (Signing.drawsSoundFor_steady _) hca
  obtain ⟨m, d, hdisk, hold, hauthority, hothers⟩ := exists_holds_authority ca
  obtain ⟨r, hr⟩ : ∃ r, Reconciler.ofSettings .plain = .ok r := ⟨_, rfl⟩
  have hresolve : runWith plain.store.handler
      (resolveAuthority Settings.plain.authorityId SelfSigned.defaultLeafBits) d = (.ok ca, d) := by
    rw [Reconciler.runWith_resolveAuthority_of_held hold (by decide) hauthority,
      hshort.ofFields_store hgenuine]
  refine ⟨ca, d, r, hdisk, hold.toStands.runWith_prepare, hr, hresolve,
    fun id hid hnamed hne => ⟨?_, ?_⟩⟩
  · rw [Reconciler.runWith_fetch_of_none hold hid hnamed (hothers _ hne)]
  have hclock : runWith (World.onDisk plain.store Signing.steady)
      (Reconciler.onSigning Signing.clock) (d, ()) = (.ok .march, (d, ())) := rfl
  have hlifetime : r.lifetime = ⟨180 * 86400000000⟩ := by
    rw [Reconciler.ofSettings_eq_ok hr]
    rfl
  have hadd : Moment.march.add? r.lifetime = .ok .august := by
    rw [hlifetime]
    decide
  obtain ⟨d', hpass⟩ := Reconciler.exists_reconcile_of_none (w := (d, ())) (g := Signing.steady)
    hold hr hid hnamed (hothers _ hne) hresolve hadd hissue
  rw [← Reconciler.runWith_reconcile_by_clock hclock, hlifetime] at hpass
  exact ⟨d', hpass⟩

/-- Where a new authority is stored and nothing else, an inspection and a pass after it both end
well. -/
private theorem exists_inspect_reconcile :
    ∃ (ca : SelfSigned) (d : Disk) (w₁ w₂ : Surroundings Unit),
      ((plain.store.session [.request (.upsert ⟨"default", "ca"⟩ fun data =>
        .ok (ca.store data))]).run Disk.handler (.withWorking ["var"])).2 = d ∧
      runWith (handler Signing.steady) (plain.inspect none) ⟨d, [], ()⟩ = (.ok 0, w₁) ∧
      runWith (handler Signing.steady) (plain.reconcile none) w₁ = (.ok 0, w₂) := by
  obtain ⟨ca, d, r, hdisk, hprepare, hr, hresolve, hcreates⟩ := exists_reconcile_created
  obtain ⟨hmissing, d', hpass⟩ := hcreates Settings.plain.servingId (by decide)
    (by decide) (by decide)
  have hsettings : Settings.resolve plain.sources = .ok .plain := rfl
  have hlifetime : Settings.plain.lifetime? = .ok ⟨180 * 86400000000⟩ := by decide
  obtain ⟨shown, hshown⟩ := exists_showsTable_missing
  let w : Surroundings Unit := ⟨d, [], ()⟩
  have htime : runWith Signing.steady Signing.clock w.signer = (.ok .march, ()) := rfl
  have hinspect : runWith (handler Signing.steady) (plain.inspect none) w =
      (.ok 0, (w.withSigner ()).print [shown]) :=
    runWith_inspect_of_missing hprepare hsettings (congrArg Prod.fst hresolve) hmissing hlifetime
      htime hshown
  obtain ⟨lines, hlines⟩ := exists_shows_created
  obtain ⟨w₂, hreconcile⟩ : ∃ w₂, runWith (handler Signing.steady) (plain.reconcile none)
      ((w.withSigner ()).print [shown]) = (.ok 0, w₂) :=
    ⟨_, runWith_reconcile_of_result hprepare hsettings hr hpass hlines⟩
  exact ⟨ca, d, _, w₂, hdisk, hinspect, hreconcile⟩

/-! ## Inspections and passes -/

/-- What an inspection shows: whether the record exists, what its pair is worth, perhaps with a
reason or an end, what is decided, and when the record is due again. -/
private theorem exists_rows_of_inspectionTable (found : Record) (evaluation : Evaluation)
    (decision : Decision) :
    ∃ details : List (List String),
      (∀ row ∈ details, row.head? = some "Reason" ∨ row.head? = some "Not after") ∧
      inspectionTable found evaluation decision =
        { title := "TLS record — " ++ found.id.text
          columns := [⟨"Field", .left⟩, ⟨"Value", .left⟩]
          showHeader := false
          rows := [["Exists", if found.version = 0 then "no" else "yes"],
            ["Evaluation", evaluation.name]] ++ details ++
              [["Decision", decision.name], ["Re-check in", decision.requeueAfter.text]] } := by
  cases evaluation with
  | absent => exact ⟨[], by simp, rfl⟩
  | invalid defect => exact ⟨[["Reason", defect.reason]], by simp, rfl⟩
  | valid notAfter => exact ⟨[["Not after", notAfter.text]], by simp, rfl⟩

/-- The report of a pass starts with four lines: its record, its decision, what has become of the
record, and when it is due again. -/
private theorem exists_resultLines_eq (r : PassResult) :
    ∃ servers : List String, resultLines r =
      ["[green]Reconciled[/green] [bold]" ++ r.id.text ++ "[/bold]",
        "  Decision:     " ++ r.decision.name,
        "  Write:        " ++ r.outcome.text,
        "  Re-check in:  " ++ r.requeueAfter.text] ++ servers :=
  ⟨_, rfl⟩

/-- Of the three decisions only the one to keep a pair is called so. -/
private theorem name_eq_keep_iff {decision : Decision} :
    decision.name = "Keep" ↔ ∃ remaining, decision = .keep remaining := by
  cases decision <;> simp [Decision.name]

/-- The console prints the labels in the table of an inspection as they are. -/
private theorem isVerbatim_label {existing evaluation decision delay : String}
    {details : List (List String)}
    (hdetails : ∀ row ∈ details, row.head? = some "Reason" ∨ row.head? = some "Not after") :
    ∀ row ∈ [["Exists", existing], ["Evaluation", evaluation]] ++ details ++
        [["Decision", decision], ["Re-check in", delay]],
      Console.Markup.IsVerbatim (row.getD 0 "").toList ∧
        (row.getD 0 "").toList.length + 2 ≤ 13 := by
  have hall : ∀ label ∈ ["Exists", "Evaluation", "Reason", "Not after", "Decision", "Re-check in"],
      Console.Markup.IsVerbatim label.toList ∧ label.toList.length + 2 ≤ 13 := by decide
  intro row hrow
  refine hall _ ?_
  simp only [List.mem_append, List.mem_cons, List.not_mem_nil, or_false] at hrow
  rcases hrow with ((rfl | rfl) | hmem) | rfl | rfl
  · simp
  · simp
  · rcases hdetails row hmem with h | h
    · obtain ⟨_, rfl⟩ := List.head?_eq_some_iff.mp h
      simp
    · obtain ⟨_, rfl⟩ := List.head?_eq_some_iff.mp h
      simp
  · simp
  · simp

/-- A row of the table of an inspection is printed as it is, if the console has room for it. -/
private theorem printsRow_of_mem {console : Nat} {title existing evaluation decision delay : String}
    {details : List (List String)} {shown : String}
    (hdetails : ∀ row ∈ details, row.head? = some "Reason" ∨ row.head? = some "Not after")
    (hshows : ShowsTable console
      { title
        columns := [⟨"Field", .left⟩, ⟨"Value", .left⟩]
        showHeader := false
        rows := [["Exists", existing], ["Evaluation", evaluation]] ++ details ++
          [["Decision", decision], ["Re-check in", delay]] } shown)
    (hwide : 29 ≤ console) {label value : String}
    (hmem : [label, value] ∈ [["Exists", existing], ["Evaluation", evaluation]] ++ details ++
      [["Decision", decision], ["Re-check in", delay]])
    (hvalue : Console.Markup.ShowsItself value) (hfits : value.length + 18 ≤ console) :
    PrintsRow label value shown :=
  hshows.printsRow rfl rfl (isVerbatim_label hdetails) hwide hmem hvalue hfits

/-- The console shows the answer whether a record exists as it is. -/
private theorem showsItself_answer (c : Prop) [Decidable c] :
    Console.Markup.ShowsItself (if c then "no" else "yes") ∧
      (if c then "no" else "yes").length ≤ 3 := by
  refine ⟨Console.Markup.IsVerbatim.showsItself ?_, ?_⟩ <;> split <;> decide

/-- The console shows the word for a decision as it is. -/
private theorem showsItself_decision (decision : Decision) :
    Console.Markup.ShowsItself decision.name ∧ decision.name.length ≤ 10 := by
  refine ⟨Console.Markup.IsVerbatim.showsItself ?_, ?_⟩ <;>
    cases decision <;> (simp only [Decision.name]; decide)

/-- The console shows the word for an outcome as it is. -/
private theorem showsItself_outcome (outcome : Outcome) :
    Console.Markup.ShowsItself outcome.text ∧ outcome.text.length ≤ 9 := by
  refine ⟨Console.Markup.IsVerbatim.showsItself ?_, ?_⟩ <;> cases outcome <;> decide

/-- The labels in the report of a pass are followed by a colon. -/
private theorem isLabel_report : Console.Markup.IsLabel "  Decision:     " ∧
    Console.Markup.IsLabel "  Write:        " ∧ Console.Markup.IsLabel "  Re-check in:  " :=
  ⟨⟨"  Decision", "    ", by decide, by decide, by decide⟩,
    ⟨"  Write", "       ", by decide, by decide, by decide⟩,
    ⟨"  Re-check in", " ", by decide, by decide, by decide⟩⟩

/-- On a disk that a store in a directory has been used on under regular names, from an empty
directory without an index beside it on: an inspection leaves everything as it is, however it ends.
If it ends well, and so does a pass with the same settings for the same record after it while the
clock stands still, then the inspection has printed a table, and the pass a report, and both state
what the pass has come to: its record, its decision, and the time after which the record is due
again. The table says that the record does not exist just if the pass has created it, and that the
pair is kept just if the pass has kept it, which then has changed nothing. On a console of 29 cells
or more the rows and the lines of the decision are printed as they are, and so are those of the
time, if there is room for it and the console finds the name of no emoji in it. -/
theorem inspect_foretells {B : List String} {d : Disk} (hfresh : s.store.Fresh B d)
    (calls : List DirectoryStore.Call) (hcalls : ∀ c ∈ calls, c.IsRegular)
    (hdisk : ((s.store.session calls).run Disk.handler d).2 = w.disk)
    (hbeside : NoIndexBeside B d) (hclock : ∀ t, (g .clock t).1 = now) (record : Option String) :
    (runWith (handler g) (s.inspect record) w).2.disk = w.disk ∧
    ∀ w₁ w₂, runWith (handler g) (s.inspect record) w = (.ok 0, w₁) →
      runWith (handler g) (s.reconcile record) w₁ = (.ok 0, w₂) →
      ∃ (settings : Settings) (r : Reconciler) (result : PassResult) (u : Disk × τ)
        (evaluation : String) (details : List (List String)) (servers : List String)
        (shown : String) (lines : List String),
        Settings.resolve s.sources = .ok settings ∧ Reconciler.ofSettings settings = .ok r ∧
        runWith (World.onDisk s.store g) (r.reconcile (target settings record) none)
          (w₁.disk, w₁.signer) = (.ok result, u) ∧
        ShowsTable s.console
          { title := "TLS record — " ++ result.id.text
            columns := [⟨"Field", .left⟩, ⟨"Value", .left⟩]
            showHeader := false
            rows := [["Exists", if result.outcome = .created then "no" else "yes"],
              ["Evaluation", evaluation]] ++ details ++
                [["Decision", result.decision.name],
                  ["Re-check in", result.requeueAfter.text]] } shown ∧
        (∀ row ∈ details, row.head? = some "Reason" ∨ row.head? = some "Not after") ∧
        w₁.printed = w.printed ++ [shown] ∧
        List.Forall₂ (Shows s.console)
          (["[green]Reconciled[/green] [bold]" ++ result.id.text ++ "[/bold]",
            "  Decision:     " ++ result.decision.name,
            "  Write:        " ++ result.outcome.text,
            "  Re-check in:  " ++ result.requeueAfter.text] ++ servers) lines ∧
        w₂.printed = w₁.printed ++ lines ∧
        (result.decision.name = "Keep" ↔ ∃ remaining, result.decision = .keep remaining) ∧
        (result.decision.name = "Keep" → result.outcome = .unchanged) ∧
        (29 ≤ s.console →
          PrintsRow "Exists" (if result.outcome = .created then "no" else "yes") shown ∧
          PrintsRow "Decision" result.decision.name shown ∧
          "  Decision:     " ++ result.decision.name ++ "\n" ∈ lines ∧
          "  Write:        " ++ result.outcome.text ++ "\n" ∈ lines) ∧
        (result.requeueAfter.text.length + 18 ≤ s.console → 29 ≤ s.console →
          Console.Markup.shown result.requeueAfter.text = .ok result.requeueAfter.text.toList →
          PrintsRow "Re-check in" result.requeueAfter.text shown ∧
          "  Re-check in:  " ++ result.requeueAfter.text ++ "\n" ∈ lines) := by
  obtain ⟨m, hold, -⟩ := DirectoryStore.exists_holds_session hfresh.holds calls hcalls
  have hbeside := DirectoryStore.noIndexBeside_session hfresh.holds.toStands calls hcalls hbeside
  rw [hdisk] at hold hbeside
  have hprepare : runWith Disk.handler s.store.prepare w.disk = (.ok (), w.disk) :=
    hold.toStands.runWith_prepare
  have hsame : (runWith (handler g) (s.inspect record) w).2.disk = w.disk := disk_inspect hprepare
  refine ⟨hsame, fun w₁ w₂ hinspect hreconcile => ?_⟩
  rw [hinspect] at hsame
  obtain ⟨settings, a, found, evaluation, lifetime, decision, shown, hsettings, hresolve, hfetch,
    happraise, hlifetime, hdecide, hshows, hprinted⟩ :=
    exists_found_of_inspect hprepare hclock hinspect
  obtain ⟨settings', r, result, u, lines, hsettings', hr, hpass, hlines, hprinted'⟩ :=
    exists_result_of_reconcile (by rw [hsame, hprepare]) hreconcile
  rw [hsettings] at hsettings'
  cases hsettings'
  obtain ⟨found', a', evaluation', u₁, u₂, hfetch', hresolve', happraise', hdecide', hu₁, hcarry,
    hid, hrequeue⟩ := Reconciler.exists_found_of_reconcile hr hclock hpass
  dsimp only at hfetch' hresolve' hu₁
  rw [hsame] at hfetch' hresolve' hu₁
  -- both have read the same disk, so that they have found the same
  rw [hfetch] at hfetch'
  cases hfetch'
  rw [resolveAuthority_withBits hresolve settings.keyBits] at hresolve'
  cases hresolve'
  rw [SelfSigned.appraise_withBits, happraise] at happraise'
  cases happraise'
  rw [Reconciler.lifetime_of_ofSettings hr] at hlifetime
  cases hlifetime
  rw [hdecide] at hdecide'
  cases hdecide'
  rw [← hu₁] at hold hbeside hfetch
  obtain ⟨hfound, hexists, hkeep⟩ :=
    Reconciler.outcome_of_carryOut hold hbeside hfetch happraise hdecide hcarry
  -- what has been printed of it, row by row and line by line
  obtain ⟨details, hdetails, htable⟩ :=
    exists_rows_of_inspectionTable found evaluation result.decision
  obtain ⟨servers, hreport⟩ := exists_resultLines_eq result
  rw [htable, hfound.trans hid.symm, ← hrequeue] at hshows
  simp only [hexists] at hshows
  rw [hreport] at hlines
  refine ⟨settings, r, result, u, evaluation.name, details, servers, shown, lines, hsettings, hr,
    hpass, hshows, hdetails, hprinted, hlines, hprinted', name_eq_keep_iff, fun hname => ?_,
    fun hwide => ?_, fun hroom hwide hdelay => ?_⟩
  · obtain ⟨remaining, hdecision⟩ := name_eq_keep_iff.mp hname
    exact hkeep remaining hdecision
  · obtain ⟨hdecisionLabel, hwriteLabel, -⟩ := isLabel_report
    obtain ⟨hname, hnameLength⟩ := showsItself_decision result.decision
    obtain ⟨hword, hwordLength⟩ := showsItself_outcome result.outcome
    obtain ⟨hanswer, hanswerLength⟩ := showsItself_answer (result.outcome = .created)
    refine ⟨?_, ?_, ?_, ?_⟩
    · exact printsRow_of_mem hdetails hshows hwide (by simp) hanswer (by omega)
    · exact printsRow_of_mem hdetails hshows hwide (by simp) hname (by omega)
    · refine mem_of_forall₂_shows hlines (by simp) hdecisionLabel hname ?_
      change 16 + _ ≤ _
      omega
    · refine mem_of_forall₂_shows hlines (by simp) hwriteLabel hword ?_
      change 16 + _ ≤ _
      omega
  · obtain ⟨-, -, hdelayLabel⟩ := isLabel_report
    have hshowsDelay := Console.Markup.showsItself_of_all result.requeueAfter.all_text hdelay
    refine ⟨printsRow_of_mem hdetails hshows hwide (by simp) hshowsDelay hroom, ?_⟩
    refine mem_of_forall₂_shows hlines (by simp) hdelayLabel hshowsDelay ?_
    change 16 + _ ≤ _
    omega

/-- The first inspection where a new authority is stored and nothing else, and a pass after it, both
end well and print the same decision and the same time. -/
theorem inspect_foretells_first :
    ∃ (ca : SelfSigned) (w w₁ w₂ : Surroundings Unit),
      ((plain.store.session [.request (.upsert ⟨"default", "ca"⟩ fun data =>
        .ok (ca.store data))]).run Disk.handler (.withWorking ["var"])).2 = w.disk ∧
      runWith (handler Signing.steady) (plain.inspect none) w = (.ok 0, w₁) ∧
      w₁.disk = w.disk ∧
      runWith (handler Signing.steady) (plain.reconcile none) w₁ = (.ok 0, w₂) ∧
      ∃ (settings : Settings) (result : PassResult) (evaluation : String)
        (details : List (List String)) (servers : List String) (shown : String)
        (lines : List String),
        Settings.resolve plain.sources = .ok settings ∧
        ShowsTable plain.console
          { title := "TLS record — " ++ result.id.text
            columns := [⟨"Field", .left⟩, ⟨"Value", .left⟩]
            showHeader := false
            rows := [["Exists", if result.outcome = .created then "no" else "yes"],
              ["Evaluation", evaluation]] ++ details ++
                [["Decision", result.decision.name],
                  ["Re-check in", result.requeueAfter.text]] } shown ∧
        w₁.printed = w.printed ++ [shown] ∧
        List.Forall₂ (Shows plain.console)
          (["[green]Reconciled[/green] [bold]" ++ result.id.text ++ "[/bold]",
            "  Decision:     " ++ result.decision.name,
            "  Write:        " ++ result.outcome.text,
            "  Re-check in:  " ++ result.requeueAfter.text] ++ servers) lines ∧
        w₂.printed = w₁.printed ++ lines ∧
        PrintsRow "Exists" (if result.outcome = .created then "no" else "yes") shown ∧
        PrintsRow "Decision" result.decision.name shown ∧
        "  Decision:     " ++ result.decision.name ++ "\n" ∈ lines := by
  obtain ⟨ca, d, w₁, w₂, hdisk, hinspect, hreconcile⟩ := exists_inspect_reconcile
  have hcalls := DirectoryStore.isRegular_of_mem_upsert
    (by decide : Identity.IsRegular ⟨"default", "ca"⟩) fun data => .ok (ca.store data)
  have hbeside : NoIndexBeside ["var"] (.withWorking ["var"]) := by
    have hnothing : (Disk.withWorking ["var"]).at? ["meta.json"] = none := by decide
    intro content hcontent
    cases hnothing.symm.trans hcontent
  have hsteady : ∀ t, (Signing.steady .clock t).1 = Moment.march := fun _ => rfl
  obtain ⟨hkept, hforetells⟩ :=
    inspect_foretells (w := ⟨d, [], ()⟩) fresh_plain _ hcalls hdisk hbeside hsteady none
  rw [hinspect] at hkept
  obtain ⟨settings, _, result, _, evaluation, details, servers, shown, lines, hsettings, -, -,
    hshows, -, hprinted, hlines, hprinted', -, -, hprints, -⟩ :=
    hforetells w₁ w₂ hinspect hreconcile
  obtain ⟨hexists, hdecision, hline, -⟩ := hprints (by decide)
  exact ⟨ca, ⟨d, [], ()⟩, w₁, w₂, hdisk, hinspect, hkept, hreconcile, settings, result, evaluation,
    details, servers, shown, lines, hsettings, hshows, hprinted, hlines, hprinted', hexists,
    hdecision, hline⟩

end CommandLine.Session

end CertKeeper
