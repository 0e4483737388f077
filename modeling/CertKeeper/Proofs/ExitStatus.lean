import CertKeeper.Proofs.Inspection
import CertKeeper.Proofs.ShownText

/-!
# The status of a pass

A pass is over before anything is said about it. How carrying it out ends depends on what the pass
came to and on whether the console can show what there is to say: status zero is a pass that has
returned and has been reported, status one a failure of the engine that has been reported
(`CommandLine.Session.reconcile_status`). A text that looks like a tag can spoil either report, and
what the pass has done stays done.
-/

namespace CertKeeper

open CertKeeper.Action Console.Markup

/-! ## The texts of a report -/

/-- The texts that a report on the servers has from elsewhere. -/
def RestartReport.texts (report : RestartReport) : List String :=
  report.skipped :: (report.terminated ++ report.failures.map RestartFailure.message)

/-- The texts that the report of a pass has from elsewhere. -/
def PassResult.texts (r : PassResult) : List String :=
  r.id.text :: match r.restart with
  | none => []
  | some report => report.texts

/-- Names joined by commas have no tags if none of them has. -/
private theorem tagless_intercalate {names : List String}
    (h : ∀ name ∈ names, Tagless name.toList) :
    Tagless (String.intercalate ", " names).toList := by
  rw [String.toList_intercalate]
  induction names with
  | nil => exact .of_not_mem nofun
  | cons name names ih =>
    have hname := h name List.mem_cons_self
    have hrest := ih fun name hmem => h name (List.mem_cons_of_mem _ hmem)
    cases names with
    | nil => simpa using hname
    | cons next names =>
      rw [List.map_cons, List.map_cons, List.intercalate_cons_cons, List.append_assoc]
      rw [List.map_cons] at hrest
      have hcomma : Tagless ", ".toList := .of_not_mem (by decide)
      exact hname.append (hcomma.append hrest fun h => absurd h (by decide)) fun _ => rfl

namespace CommandLine.Session

/-- The lines about the servers can be shown if their texts have no tags. -/
private theorem canShow_of_mem_restartLines {report : RestartReport}
    (h : ∀ text ∈ report.texts, Tagless text.toList) {line : String}
    (hline : line ∈ restartLines report) : CanShow [] line.toList := by
  unfold restartLines at hline
  split at hline
  · dsimp only at hline
    rcases List.mem_cons.mp hline with rfl | hline
    · refine canShow_label (by decide) ?_
      split
      · exact .of_not_mem (by decide)
      · refine tagless_intercalate fun name hname => h name ?_
        exact List.mem_cons_of_mem _ (List.mem_append_left _ hname)
    · obtain ⟨f, hf, rfl⟩ := List.mem_map.mp hline
      have htext : Tagless f.message.toList := h _
        (List.mem_cons_of_mem _ (List.mem_append_right _ (List.mem_map_of_mem hf)))
      have hshow := canShow_notice "  " "red" "FAIL" "  " (by decide) (by decide)
        (by decide) (.of_not_mem (by decide)) (by decide) (by decide) htext
      simpa [styled] using hshow
  · obtain rfl := List.mem_singleton.mp hline
    have htext : Tagless (report.skipped ++ ")").toList := by
      rw [String.toList_append]
      exact (h _ List.mem_cons_self).append (.of_not_mem (by decide)) fun _ => rfl
    have hshow := canShow_notice "  Restart:      " "yellow" "skipped" " (" (by decide)
      (by decide) (by decide) (.of_not_mem (by decide)) (by decide) (by decide) htext
    simpa [styled] using hshow

/-- The report of a pass can be shown if its texts have no tags. -/
private theorem canShow_of_mem_resultLines {r : PassResult}
    (h : ∀ text ∈ r.texts, Tagless text.toList)
    {line : String} (hline : line ∈ resultLines r) : CanShow [] line.toList := by
  rw [resultLines, List.mem_append] at hline
  rcases hline with hline | hline
  · simp only [List.mem_cons, List.not_mem_nil, or_false] at hline
    rcases hline with rfl | rfl | rfl | rfl
    · have hshow := canShow_heading "Reconciled" " " (.of_not_mem (by decide)) (by decide)
        (by decide) (by decide) (h _ List.mem_cons_self)
      simpa [styled] using hshow
    · refine canShow_label (by decide) (.of_not_mem ?_)
      cases r.decision with
      | issue => exact (by decide : '[' ∉ "Issue".toList)
      | invalidate => exact (by decide : '[' ∉ "Invalidate".toList)
      | keep => exact (by decide : '[' ∉ "Keep".toList)
    · refine canShow_label (by decide) (.of_not_mem ?_)
      cases r.outcome <;> exact by decide
    · exact canShow_label (by decide) (.of_not_mem (bracket_not_mem_of_all r.requeueAfter.all_text))
  · cases hrestart : r.restart with
    | none =>
      rw [hrestart] at hline
      cases hline
    | some report =>
      rw [hrestart] at hline
      refine canShow_of_mem_restartLines (fun text htext => h text ?_) hline
      rw [PassResult.texts, hrestart]
      exact List.mem_cons_of_mem _ htext

/-! ## Carrying a pass out -/

open Shell

variable {τ : Type} {g : Handler Signing τ} {w : Surroundings τ} {s : Session} {d : Disk}
  {settings : Settings}

/-- What is said of a failure of the engine. -/
def failureLine (e : Failure) : String := "[red]Reconciliation failed:[/red] " ++ e.message

/-- The report of a failure can be shown if the message of the failure has no tags. -/
private theorem canShow_failureLine {e : Failure} (h : Tagless e.message.toList) :
    CanShow [] (failureLine e).toList := by
  have hshow := canShow_notice "" "red" "Reconciliation failed:" " " (by decide) (by decide)
    (by decide) (.of_not_mem (by decide)) (by decide) (by decide) h
  change CanShow [] ("[red]Reconciliation failed:[/red] " ++ e.message).toList
  rw [String.toList_append]
  simpa [styled] using hshow

/-- Texts are printed one after another up to the first that cannot be shown. -/
private theorem runWith_forM_say_cases (g : Handler Signing τ) (console : Nat) (texts : List String)
    (w : Surroundings τ) :
    (∃ lines, List.Forall₂ (Shows console) texts lines ∧
      runWith (handler g) (texts.forM (Shell.say console)) w = (.ok (), w.print lines)) ∨
    ∃ before text after lines defect, texts = before ++ text :: after ∧
      List.Forall₂ (Shows console) before lines ∧
      Console.linesOfMarkup console text = .error defect ∧
      runWith (handler g) (texts.forM (Shell.say console)) w =
        (.error (.markup defect), w.print lines) := by
  induction texts generalizing w with
  | nil => exact .inl ⟨[], .nil, runWith_forM_say_eq_ok_iff.mpr ⟨[], .nil, rfl⟩⟩
  | cons text texts ih =>
    change (∃ _, _ ∧ runWith (handler g) (Shell.say console text >>= fun _ =>
      texts.forM (Shell.say console)) w = _) ∨ ∃ _ _ _ _ _, _ ∧ _ ∧ _ ∧
      runWith (handler g) (Shell.say console text >>= fun _ => texts.forM (Shell.say console)) w = _
    rw [runWith_bind, runWith_say]
    cases htext : Console.linesOfMarkup console text with
    | error defect =>
      refine .inr ⟨[], text, texts, [], defect, rfl, .nil, htext, ?_⟩
      rw [Surroundings.print, List.append_nil]
    | ok cells =>
      have hshows : Shows console text (Console.textOfLines cells) := ⟨cells, htext, rfl⟩
      dsimp only
      rcases ih (w.print [Console.textOfLines cells]) with ⟨lines, hlines, hrun⟩ |
        ⟨before, bad, after, lines, defect, rfl, hlines, hbad, hrun⟩
      · refine .inl ⟨_ :: lines, .cons hshows hlines, ?_⟩
        rw [hrun]
        simp [Surroundings.print]
      · refine .inr ⟨text :: before, bad, after, _ :: lines, defect, rfl, .cons hshows hlines,
          hbad, ?_⟩
        rw [hrun]
        simp [Surroundings.print]

/-- How carrying out a pass ends, by what the pass comes to: with a status or a failure, and with
lines that have been printed. -/
inductive Ends (console : Nat) :
    Except Failure PassResult → Except Failure Nat → List String → Prop
  | reported {r : PassResult} {lines : List String}
      (shows : List.Forall₂ (Shows console) (resultLines r) lines) :
      Ends console (.ok r) (.ok 0) lines
  | cutShort {r : PassResult} {before after lines : List String} {text : String}
      {defect : Console.MarkupDefect} (texts : resultLines r = before ++ text :: after)
      (shows : List.Forall₂ (Shows console) before lines)
      (fails : Console.linesOfMarkup console text = .error defect) :
      Ends console (.ok r) (.error (.markup defect)) lines
  | failed {e : Failure} {line : String} (engine : e.engineKind?.isSome = true)
      (shows : Shows console (failureLine e) line) : Ends console (.error e) (.ok 1) [line]
  | unsaid {e : Failure} {defect : Console.MarkupDefect} (engine : e.engineKind?.isSome = true)
      (fails : Console.linesOfMarkup console (failureLine e) = .error defect) :
      Ends console (.error e) (.error (.markup defect)) []
  | escapes {e : Failure} (other : e.engineKind? = none) : Ends console (.error e) (.error e) []

/-- A pass itself prints nothing. -/
private theorem printed_pass (settings : Settings) (id : Identity) (w : Surroundings τ) :
    (runWith (handler g) (s.pass settings id) w).2.printed = w.printed := by
  rw [pass, runWith_bind, runWith_ofExcept]
  cases Reconciler.ofSettings settings with
  | error e => rfl
  | ok r =>
    rw [mapError_ok]
    dsimp only
    rw [runWith_onWorld]
    simp

/-- How carrying out a pass ends, and that printing is all that is done after the pass. -/
private theorem exists_ends_of_reconcile (record : Option String)
    (hprepare : runWith Disk.handler s.store.prepare w.disk = (.ok (), d))
    (hsettings : Settings.resolve s.sources = .ok settings) :
    ∃ res w' status lines,
      runWith (handler g) (s.pass settings (target settings record)) (w.withDisk d) = (res, w') ∧
      runWith (handler g) (s.reconcile record) w = (status, w'.print lines) ∧
      Ends s.console res status lines := by
  rw [reconcile, runWith_withSettings_of_prepare hprepare hsettings, runWith_bind, runWith_outcome]
  rcases runWith (handler g) (s.pass settings (target settings record)) (w.withDisk d) with
    ⟨e | r, w'⟩ <;> dsimp only
  · cases hkind : e.engineKind? with
    | none =>
      refine ⟨_, w', .error e, [], rfl, ?_, .escapes hkind⟩
      rw [Surroundings.print, List.append_nil]
      rfl
    | some kind =>
      have hengine : e.engineKind?.isSome = true := hkind ▸ rfl
      have hsay := runWith_say_then g s.console (failureLine e) 1 w'
      cases hline : Console.linesOfMarkup s.console (failureLine e) with
      | error defect =>
        rw [hline] at hsay
        refine ⟨_, w', .error (.markup defect), [], rfl, ?_, .unsaid hengine hline⟩
        rw [Surroundings.print, List.append_nil]
        exact hsay
      | ok cells =>
        rw [hline] at hsay
        exact ⟨_, w', .ok 1, _, rfl, hsay, .failed hengine ⟨cells, hline, rfl⟩⟩
  · rw [runWith_bind, sayResult_eq]
    rcases runWith_forM_say_cases g s.console (resultLines r) w' with ⟨lines, hlines, hrun⟩ |
      ⟨before, text, after, lines, defect, htexts, hlines, hfails, hrun⟩
    · refine ⟨_, w', .ok 0, lines, rfl, ?_, .reported hlines⟩
      rw [show s.say = Shell.say s.console from rfl, hrun]
      rfl
    · refine ⟨_, w', .error (.markup defect), lines, rfl, ?_, .cutShort htexts hlines hfails⟩
      rw [show s.say = Shell.say s.console from rfl, hrun]

namespace Ends

variable {console : Nat} {res : Except Failure PassResult} {status : Except Failure Nat}
  {lines : List String}

/-- Status zero is a pass that has returned, each line of whose report can be shown. -/
theorem eq_zero_iff (h : Ends console res status lines) :
    status = .ok 0 ↔
      ∃ r, res = .ok r ∧ ∀ text ∈ resultLines r, ∃ line, Shows console text line := by
  cases h with
  | @reported r lines shows =>
    refine iff_of_true rfl ⟨r, rfl, fun text htext => ?_⟩
    obtain ⟨i, hi, rfl⟩ := List.getElem_of_mem htext
    exact ⟨_, List.Forall₂.get shows hi (shows.length_eq ▸ hi)⟩
  | @cutShort r before after lines text defect texts shows fails =>
    refine iff_of_false nofun ?_
    rintro ⟨_, ⟨⟩, hall⟩
    obtain ⟨line, cells, hcells, -⟩ := hall text (by simp [texts])
    rw [fails] at hcells
    cases hcells
  | failed | unsaid | escapes => exact iff_of_false nofun nofun

/-- Status one is a failure of the engine whose report can be shown. -/
theorem eq_one_iff (h : Ends console res status lines) :
    status = .ok 1 ↔ ∃ e, res = .error e ∧ e.engineKind?.isSome = true ∧
      ∃ line, Shows console (failureLine e) line := by
  cases h with
  | @failed e line engine shows => exact iff_of_true rfl ⟨e, rfl, engine, line, shows⟩
  | @unsaid e defect engine fails =>
    refine iff_of_false nofun ?_
    rintro ⟨_, ⟨⟩, -, line, cells, hcells, -⟩
    rw [fails] at hcells
    cases hcells
  | @escapes e other =>
    refine iff_of_false nofun ?_
    rintro ⟨_, ⟨⟩, engine, -⟩
    rw [other] at engine
    cases engine
  | reported | cutShort => exact iff_of_false nofun nofun

end Ends

/-- Carrying out a pass ends as the pass has ended and as the console allows: status zero if it has
returned and each line of its report can be shown, status one if it has failed with a failure of the
engine and that report can be shown. Without tags in the texts that a report has from elsewhere the
console can show it. Whatever happens then, what the pass has done stays done. -/
theorem reconcile_status (record : Option String)
    (hprepare : runWith Disk.handler s.store.prepare w.disk = (.ok (), d))
    (hsettings : Settings.resolve s.sources = .ok settings) :
    ∃ res w' status lines,
      runWith (handler g) (s.pass settings (target settings record)) (w.withDisk d) = (res, w') ∧
      runWith (handler g) (s.reconcile record) w = (status, w'.print lines) ∧
      w'.printed = w.printed ∧ Ends s.console res status lines ∧
      (status = .ok 0 ↔
        ∃ r, res = .ok r ∧ ∀ text ∈ resultLines r, ∃ line, Shows s.console text line) ∧
      (status = .ok 1 ↔ ∃ e, res = .error e ∧ e.engineKind?.isSome = true ∧
        ∃ line, Shows s.console (failureLine e) line) ∧
      (∀ r, res = .ok r → (∀ text ∈ r.texts, Tagless text.toList) → status = .ok 0) ∧
      ∀ e, res = .error e → e.engineKind?.isSome = true → Tagless e.message.toList →
        status = .ok 1 := by
  obtain ⟨res, w', status, lines, hpass, hrun, hends⟩ :=
    exists_ends_of_reconcile (g := g) record hprepare hsettings
  refine ⟨res, w', status, lines, hpass, hrun, ?_, hends, hends.eq_zero_iff, hends.eq_one_iff,
    fun r hr htexts => ?_, fun e he hengine htext => ?_⟩
  · have hprinted := printed_pass (g := g) (s := s) settings (target settings record) (w.withDisk d)
    rwa [hpass] at hprinted
  · refine hends.eq_zero_iff.mpr ⟨r, hr, fun text htext => ?_⟩
    exact exists_shows (exists_shown_of_canShow (canShow_of_mem_resultLines htexts htext))
  · refine hends.eq_one_iff.mpr ⟨e, he, hengine, ?_⟩
    exact exists_shows (exists_shown_of_canShow (canShow_failureLine htext))

/-- The first line of the report of a pass for a record whose name closes the style of the line
before its end. -/
theorem linesOfMarkup_unmatched : Console.linesOfMarkup plain.console
    "[green]Reconciled[/green] [bold]default/[/][/bold]" = .error (.unmatched "/bold" 43) := by
  have hpieces : pieces "[green]Reconciled[/green] [bold]default/[/][/bold]".toList =
      [.tag "green".toList 0, .plain "Reconciled".toList, .tag ('/' :: "green".toList) 17,
        .plain " ".toList, .tag "bold".toList 26, .plain "default/".toList, .tag ['/'] 40,
        .tag ('/' :: "bold".toList) 43] := rfl
  have hshown : shown "[green]Reconciled[/green] [bold]default/[/][/bold]" =
      .error (.unmatched "/bold" 43) := by
    rw [shown, hpieces, shownFrom_opening (by decide) (by decide), shownFrom,
      shownFrom_closing (by decide) (by decide) (by decide), shownFrom,
      shownFrom_opening (by decide) (by decide), shownFrom, shownFrom_last,
      shownFrom_slash (by decide) (by decide) (by decide), if_neg (by simp)]
    rfl
  rw [Console.linesOfMarkup, hshown]
  rfl

/-- A pass for the record `[/]`, where a new authority is stored and nothing else, creates the
record, but the command that carries it out has no status: its report fails at the first line. -/
theorem reconcile_status_unmatched :
    ∃ (d : Disk) (result : PassResult) (w' : Surroundings Unit),
      runWith (handler Signing.steady) (plain.pass .plain ⟨"default", "[/]"⟩) ⟨d, [], ()⟩ =
        (.ok result, w') ∧ result.outcome = .created ∧
      runWith (handler Signing.steady) (plain.reconcile (some "[/]")) ⟨d, [], ()⟩ =
        (.error (.markup (.unmatched "/bold" 43)), w') := by
  obtain ⟨-, d, r, -, hprepare, hr, -, hcreates⟩ := exists_reconcile_created
  obtain ⟨-, d', hworld⟩ := hcreates ⟨"default", "[/]"⟩ (by decide) (by decide)
    (by decide)
  obtain ⟨result, hworld, hid, hcreated⟩ : ∃ result : PassResult,
      runWith (World.onDisk plain.store Signing.steady) (r.reconcile ⟨"default", "[/]"⟩ none)
        (d, ()) = (.ok result, (d', ())) ∧
      result.id = ⟨"default", "[/]"⟩ ∧ result.outcome = .created := ⟨_, hworld, rfl, rfl⟩
  have hpass : runWith (handler Signing.steady) (plain.pass .plain ⟨"default", "[/]"⟩)
      ⟨d, [], ()⟩ = (.ok result, ⟨d', [], ()⟩) := by
    refine runWith_ofExcept_bind_eq_ok.mpr ⟨r, hr, ?_⟩
    rw [runWith_onWorld, hworld]
    rfl
  obtain ⟨rest, hfirst⟩ : ∃ rest, resultLines result =
      "[green]Reconciled[/green] [bold]default/[/][/bold]" :: rest := by
    rw [resultLines, hid]
    exact ⟨_, rfl⟩
  obtain ⟨res, w', status, lines, hpass', hrun, -, hends, -⟩ :=
    reconcile_status (w := ⟨d, [], ()⟩) (g := Signing.steady) (some "[/]") hprepare
      (rfl : Settings.resolve plain.sources = .ok .plain)
  obtain ⟨rfl, rfl⟩ := Prod.mk.inj (hpass'.symm.trans hpass)
  refine ⟨d, result, _, hpass, hcreated, ?_⟩
  rw [hrun]
  have hnever {line : String} : ¬ Shows plain.console
      "[green]Reconciled[/green] [bold]default/[/][/bold]" line := by
    rintro ⟨cells, hcells, -⟩
    rw [linesOfMarkup_unmatched] at hcells
    cases hcells
  cases hends with
  | reported shows =>
    rw [hfirst] at shows
    cases shows with
    | cons hline _ => exact absurd hline hnever
  | cutShort texts shows fails =>
    rw [hfirst] at texts
    cases shows with
    | nil =>
      obtain ⟨rfl, -⟩ := List.cons.inj texts
      rw [linesOfMarkup_unmatched] at fails
      cases fails
      rfl
    | cons hline _ =>
      obtain ⟨rfl, -⟩ := List.cons.inj texts
      exact absurd hline hnever

end CommandLine.Session

end CertKeeper
