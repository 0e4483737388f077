import Mathlib.Data.List.TakeWhile
import CertKeeper.CommandLine.Perform
import CertKeeper.Proofs.StoreOnDisk

/-!
# Running commands

A command runs on a disk that works, beside whoever answers the requests of authorities, and adds to
what has been printed. The lemmas say how each thing that a command may do is run, and
`Shell.disk_of_looks` that a command which only looks leaves the disk as it is.
-/

namespace CertKeeper

open CertKeeper.Action

/-- What has not failed has given a result. -/
theorem exists_of_isOk {ε α : Type} {e : Except ε α} (h : e.isOk = true) : ∃ a, e = .ok a := by
  cases e with
  | ok a => exact ⟨a, rfl⟩
  | error cause => cases h

/-! ## Marked-up texts -/

namespace Console.Markup

open Text

variable {opened : List String} {name : List Char} {rest : List Piece}

/-- A tag whose name has neither a slash nor an equals sign opens the style of that name. -/
theorem shownFrom_opening (hopens : name.head? ≠ some '/') (hname : '=' ∉ name) (p : Nat) :
    shownFrom opened (.tag name p :: rest) = shownFrom (canonicalName name :: opened) rest := by
  have hall : name.takeWhile (· ≠ '=') = name :=
    List.takeWhile_eq_self_iff.mpr fun c hc => decide_eq_true fun h => hname (h ▸ hc)
  rw [shownFrom.eq_def]
  dsimp only
  rw [hall]
  split
  · exact absurd rfl hopens
  · rfl

/-- A tag with a slash closes the style of its name, if that is open. -/
theorem shownFrom_slash (hne : name ≠ []) (hname : '=' ∉ name) (htrim : trim isBlank name = name)
    (p : Nat) :
    shownFrom opened (.tag ('/' :: name) p :: rest) =
      if opened.contains (canonicalName name) then
        shownFrom (opened.erase (canonicalName name)) rest
      else .error (.unmatched (String.ofList ('/' :: name)) p) := by
  have hall : ('/' :: name).takeWhile (· ≠ '=') = '/' :: name := by
    refine List.takeWhile_eq_self_iff.mpr fun c hc => decide_eq_true ?_
    rintro rfl
    exact hname ((List.mem_cons.mp hc).resolve_left (by decide))
  rw [shownFrom.eq_def]
  dsimp only
  rw [hall]
  split
  · next heq =>
    obtain ⟨-, rfl⟩ := List.cons.inj heq
    rw [htrim, if_neg hne]
  · next hother => exact absurd rfl (hother name)

/-- A tag that closes the style opened last shows nothing and closes that style. -/
theorem shownFrom_closing (hne : name ≠ []) (hname : '=' ∉ name)
    (htrim : trim isBlank name = name) (p : Nat) :
    shownFrom (canonicalName name :: opened) (.tag ('/' :: name) p :: rest) =
      shownFrom opened rest := by
  rw [shownFrom_slash hne hname htrim, if_pos (by simp), List.erase_cons_head]

/-- A tag that is a slash closes the style that has been opened last, whatever its name. -/
theorem shownFrom_last (style : String) (p : Nat) :
    shownFrom (style :: opened) (.tag ['/'] p :: rest) = shownFrom opened rest := by
  rw [shownFrom.eq_def]
  rfl

end Console.Markup

namespace Shell

/-- What a command runs among. -/
structure Surroundings (τ : Type) where
  disk : Disk
  /-- The texts that have been printed, in their order. -/
  printed : List String
  /-- What whoever answers the requests of authorities has in mind. -/
  signer : τ

variable {τ α : Type} {g : Handler Signing τ} {w w' : Surroundings τ}

namespace Surroundings

def withDisk (w : Surroundings τ) (d : Disk) : Surroundings τ := { w with disk := d }

def withSigner (w : Surroundings τ) (t : τ) : Surroundings τ := { w with signer := t }

/-- With further texts printed. -/
def print (w : Surroundings τ) (texts : List String) : Surroundings τ :=
  { w with printed := w.printed ++ texts }

@[simp] theorem disk_withDisk (w : Surroundings τ) (d : Disk) : (w.withDisk d).disk = d := rfl

@[simp] theorem printed_withDisk (w : Surroundings τ) (d : Disk) :
    (w.withDisk d).printed = w.printed := rfl

@[simp] theorem signer_withDisk (w : Surroundings τ) (d : Disk) :
    (w.withDisk d).signer = w.signer := rfl

@[simp] theorem disk_withSigner (w : Surroundings τ) (t : τ) :
    (w.withSigner t).disk = w.disk := rfl

@[simp] theorem printed_withSigner (w : Surroundings τ) (t : τ) :
    (w.withSigner t).printed = w.printed := rfl

@[simp] theorem signer_withSigner (w : Surroundings τ) (t : τ) : (w.withSigner t).signer = t := rfl

@[simp] theorem disk_print (w : Surroundings τ) (texts : List String) :
    (w.print texts).disk = w.disk := rfl

@[simp] theorem printed_print (w : Surroundings τ) (texts : List String) :
    (w.print texts).printed = w.printed ++ texts := rfl

@[simp] theorem signer_print (w : Surroundings τ) (texts : List String) :
    (w.print texts).signer = w.signer := rfl

end Surroundings

/-- The answers to the questions of commands. -/
def handler (g : Handler Signing τ) : Handler Shell (Surroundings τ)
  | .print text, w => ((), w.print [text])
  | .disk q, w => ((Disk.handler q w.disk).1, w.withDisk (Disk.handler q w.disk).2)
  | .store s q, w => ((s.handler q w.disk).1, w.withDisk (s.handler q w.disk).2)
  | .signing q, w => ((g q w.signer).1, w.withSigner (g q w.signer).2)

/-! ## What a command does -/

/-- An expanded action runs like the action itself with the replacements run as answers. -/
theorem runWith_expand {I J : Interface} {σ : Type} (h : Handler J σ)
    (t : (q : I.Question) → Program J (I.Answer q)) (a : Action I α) (w : σ) :
    runWith h (a.expand t) w = runWith (fun q w => (t q).run h w) a w :=
  Program.run_expand t h a.run w

private theorem runWith_onDisk (g : Handler Signing τ) (a : DirectoryStore.DiskAction α)
    (w : Surroundings τ) : runWith (handler g) (onDisk a) w =
      ((runWith Disk.handler a w.disk).1, w.withDisk (runWith Disk.handler a w.disk).2) :=
  (runWith_expand _ _ a w).trans (Program.run_part Surroundings.disk Surroundings.withDisk
    (fun _ _ => rfl) (fun _ _ _ => rfl) (fun _ => rfl) Disk.handler a.run w)

/-- An action on the store runs over the disk of the command. -/
theorem runWith_onStore (g : Handler Signing τ) (s : DirectoryStore) (a : Action Store α)
    (w : Surroundings τ) : runWith (handler g) (onStore s a) w =
      ((runWith s.handler a w.disk).1, w.withDisk (runWith s.handler a w.disk).2) :=
  (runWith_expand _ _ a w).trans (Program.run_part Surroundings.disk Surroundings.withDisk
    (fun _ _ => rfl) (fun _ _ _ => rfl) (fun _ => rfl) s.handler a.run w)

/-- An action of the signer runs over the signer of the command. -/
theorem runWith_onSigning (g : Handler Signing τ) (a : Action Signing α) (w : Surroundings τ) :
    runWith (handler g) (onSigning a) w =
      ((runWith g a w.signer).1, w.withSigner (runWith g a w.signer).2) :=
  (runWith_expand _ _ a w).trans (Program.run_part Surroundings.signer Surroundings.withSigner
    (fun _ _ => rfl) (fun _ _ _ => rfl) (fun _ => rfl) g a.run w)

/-- A pass uses the disk and whoever answers the requests of authorities. -/
theorem runWith_onWorld (g : Handler Signing τ) (s : DirectoryStore) (a : Action World α)
    (w : Surroundings τ) : runWith (handler g) (onWorld s a) w =
      ((runWith (World.onDisk s g) a (w.disk, w.signer)).1,
        (w.withDisk (runWith (World.onDisk s g) a (w.disk, w.signer)).2.1).withSigner
          (runWith (World.onDisk s g) a (w.disk, w.signer)).2.2) := by
  have hanswers : (fun q w => (askWorld s q).run (handler g) w) =
      fun (q : World.Question) (w : Surroundings τ) =>
        ((World.onDisk s g q (w.disk, w.signer)).1,
          (w.withDisk (World.onDisk s g q (w.disk, w.signer)).2.1).withSigner
            (World.onDisk s g q (w.disk, w.signer)).2.2) := by
    funext q w
    cases q <;> rfl
  rw [onWorld, runWith_expand, hanswers]
  exact Program.run_part (fun w : Surroundings τ => (w.disk, w.signer))
    (fun w x => (w.withDisk x.1).withSigner x.2) (fun _ _ => rfl) (fun _ _ _ => rfl)
    (fun _ => rfl) (World.onDisk s g) a.run w

/-! ## What is printed -/

/-- A marked-up text is printed as the console shows it. -/
theorem runWith_say (g : Handler Signing τ) (console : Nat) (text : String) (w : Surroundings τ) :
    runWith (handler g) (say console text) w =
      match Console.linesOfMarkup console text with
      | .ok lines => (.ok (), w.print [Console.textOfLines lines])
      | .error defect => (.error (.markup defect), w) := by
  rw [say, runWith_bind, runWith_ofExcept]
  cases Console.linesOfMarkup console text <;> rfl

/-- A result that a text is printed before is had only if the text is shown. -/
theorem runWith_say_then (g : Handler Signing τ) (console : Nat) (text : String) (a : α)
    (w : Surroundings τ) :
    runWith (handler g) (say console text >>= fun _ => pure a) w =
      match Console.linesOfMarkup console text with
      | .ok lines => (.ok a, w.print [Console.textOfLines lines])
      | .error defect => (.error (.markup defect), w) := by
  rw [runWith_bind, runWith_say]
  cases Console.linesOfMarkup console text <;> rfl

private theorem runWith_sayTable (g : Handler Signing τ) (console : Nat) (table : Console.Table)
    (w : Surroundings τ) :
    runWith (handler g) (sayTable console table) w =
      match table.lines console with
      | .ok lines => (.ok (), w.print [Console.textOfLines lines])
      | .error defect => (.error (.markup defect), w) := by
  rw [sayTable, runWith_bind, runWith_ofExcept]
  cases table.lines console <;> rfl

/-- What a console of a number of cells shows of a marked-up text. -/
def Shows (console : Nat) (text shown : String) : Prop :=
  ∃ lines, Console.linesOfMarkup console text = .ok lines ∧ shown = Console.textOfLines lines

/-- What a console of a number of cells shows of a table. -/
def ShowsTable (console : Nat) (table : Console.Table) (shown : String) : Prop :=
  ∃ lines, table.lines console = .ok lines ∧ shown = Console.textOfLines lines

/-- A text is shown if its markup has no defect. -/
theorem exists_shows {console : Nat} {text : String}
    (h : ∃ cs, Console.Markup.shown text = .ok cs) : ∃ line, Shows console text line := by
  obtain ⟨cs, hcs⟩ := h
  have hlines : Console.linesOfMarkup console text =
      .ok ((⟨console, .natural, true⟩ : Console.Flow).lines cs) := by
    rw [Console.linesOfMarkup, hcs]
    rfl
  exact ⟨_, _, hlines, rfl⟩

/-- Several texts are all shown if the markup of none has a defect. -/
theorem exists_forall₂_shows {console : Nat} {texts : List String}
    (h : ∀ text ∈ texts, ∃ cs, Console.Markup.shown text = .ok cs) :
    ∃ shown, List.Forall₂ (Shows console) texts shown := by
  induction texts with
  | nil => exact ⟨[], .nil⟩
  | cons text texts ih =>
    obtain ⟨line, hline⟩ := exists_shows (h text List.mem_cons_self)
    obtain ⟨shown, hshown⟩ := ih fun text htext => h text (List.mem_cons_of_mem _ htext)
    exact ⟨line :: shown, .cons hline hshown⟩

/-- A text is printed as the console shows it, if the console can. -/
theorem runWith_say_eq_ok_iff {console : Nat} {text : String} {x : Unit} :
    runWith (handler g) (say console text) w = (.ok x, w') ↔
      ∃ shown, Shows console text shown ∧ w' = w.print [shown] := by
  rw [runWith_say]
  cases hlines : Console.linesOfMarkup console text with
  | error defect => simp [Shows, hlines]
  | ok lines => simp [Shows, hlines, eq_comm]

/-- A table is printed as the console shows it, if the console can. -/
theorem runWith_sayTable_eq_ok_iff {console : Nat} {table : Console.Table} {x : Unit} :
    runWith (handler g) (sayTable console table) w = (.ok x, w') ↔
      ∃ shown, ShowsTable console table shown ∧ w' = w.print [shown] := by
  rw [runWith_sayTable]
  cases hlines : table.lines console with
  | error defect => simp [ShowsTable, hlines]
  | ok lines => simp [ShowsTable, hlines, eq_comm]

/-- Texts are printed one after another, if all of them can be shown. -/
theorem runWith_forM_say_eq_ok_iff {console : Nat} {texts : List String} {x : Unit} :
    runWith (handler g) (texts.forM (say console)) w = (.ok x, w') ↔
      ∃ shown, List.Forall₂ (Shows console) texts shown ∧ w' = w.print shown := by
  induction texts generalizing w with
  | nil =>
    constructor
    · rintro ⟨⟩
      exact ⟨[], .nil, by rw [Surroundings.print, List.append_nil]⟩
    · rintro ⟨_, ⟨⟩, rfl⟩
      rw [Surroundings.print, List.append_nil]
      rfl
  | cons text texts ih =>
    change runWith (handler g) (say console text >>= fun _ => texts.forM (say console)) w = _ ↔ _
    rw [runWith_bind_eq_ok]
    constructor
    · rintro ⟨_, w₁, hsay, hrest⟩
      obtain ⟨shown, hshows, rfl⟩ := runWith_say_eq_ok_iff.mp hsay
      obtain ⟨more, hmore, rfl⟩ := ih.mp hrest
      exact ⟨shown :: more, .cons hshows hmore, by simp [Surroundings.print]⟩
    · rintro ⟨_, hall, rfl⟩
      cases hall with
      | @cons _ shown _ more hshows hmore =>
      refine ⟨(), _, runWith_say_eq_ok_iff.mpr ⟨shown, hshows, rfl⟩, ?_⟩
      exact ih.mpr ⟨more, hmore, by simp [Surroundings.print]⟩

/-! ## Looking -/

/-- A question after which the disk is as before. -/
def Looks : Shell.Question → Prop
  | .print _ | .signing _ => True
  | .disk q => q.Looks
  | .store _ q => q.IsRead

/-- A command that only looks leaves the disk as it is. -/
theorem disk_of_looks {a : Action Shell α} (ha : Asks Looks a) (w : Surroundings τ) :
    (runWith (handler g) a w).2.disk = w.disk := by
  refine Program.run_induction (R := fun w w' : Surroundings τ => w'.disk = w.disk) (fun _ => rfl)
    (fun _ _ _ h h' => h'.trans h) (fun q w hq => ?_) ha w
  cases q with
  | print text => rfl
  | signing q => rfl
  | disk q => exact Disk.handler_look hq w.disk
  | store s q => exact DirectoryStore.handler_of_isRead hq w.disk

/-- Printing a text changes nothing on the disk. -/
theorem looks_say (console : Nat) (text : String) : Asks Looks (say console text) :=
  (asks_ofExcept _ _).bind fun _ => ⟨trivial, fun _ => trivial⟩

/-- Printing a table changes nothing on the disk. -/
theorem looks_sayTable (console : Nat) (table : Console.Table) :
    Asks Looks (sayTable console table) :=
  (asks_ofExcept _ _).bind fun _ => ⟨trivial, fun _ => trivial⟩

/-- An action of the signer changes nothing on the disk. -/
theorem looks_onSigning (a : Action Signing α) : Asks Looks (onSigning a) :=
  Program.Asks.expand (Program.asks_of_forall (fun _ => trivial) a.run)
    fun _ _ => ⟨trivial, fun _ => trivial⟩

/-- An action that only reads the store changes nothing on the disk. -/
theorem looks_onStore (s : DirectoryStore) {a : Action Store α} (ha : ReadsOnly a) :
    Asks Looks (onStore s a) :=
  Program.Asks.expand ha fun _ hq => ⟨hq, fun _ => trivial⟩

end Shell

namespace CommandLine.Session

open Shell

variable {τ : Type} {g : Handler Signing τ} {w w' : Surroundings τ} {s : Session}

/-! ## Commands of a session -/

/-- Printing a text in a session changes nothing on the disk. -/
theorem looks_say (s : Session) (text : String) : Asks Looks (s.say text) :=
  Shell.looks_say s.console text

/-- A command with settings finds the base directory of the store made. -/
theorem runWith_withSettings_of_prepare {command : Settings → Action Shell Nat}
    {settings : Settings} {d : Disk}
    (hprepare : runWith Disk.handler s.store.prepare w.disk = (.ok (), d))
    (hsettings : Settings.resolve s.sources = .ok settings) :
    runWith (handler g) (s.withSettings command) w =
      runWith (handler g) (command settings) (w.withDisk d) := by
  rw [withSettings, hsettings]
  dsimp only
  rw [runWith_bind, runWith_onDisk, hprepare]

/-- A command finds the disk as it is where the base directory is there before. -/
theorem runWith_withSettings {command : Settings → Action Shell Nat} {settings : Settings}
    (hprepare : runWith Disk.handler s.store.prepare w.disk = (.ok (), w.disk))
    (hsettings : Settings.resolve s.sources = .ok settings) :
    runWith (handler g) (s.withSettings command) w =
      runWith (handler g) (command settings) w :=
  runWith_withSettings_of_prepare hprepare hsettings

/-- A command without settings reports that and does nothing else. -/
theorem withSettings_cases {command : Settings → Action Shell Nat}
    (hprepare : runWith Disk.handler s.store.prepare w.disk = (.ok (), w.disk)) :
    (∃ defect, runWith (handler g) (s.withSettings command) w = (.error (.text defect), w)) ∨
    (∃ report, runWith (handler g) (s.withSettings command) w =
      runWith (handler g) (s.say report >>= fun _ => pure 1) w) ∨
    ∃ settings, Settings.resolve s.sources = .ok settings ∧
      runWith (handler g) (s.withSettings command) w =
        runWith (handler g) (command settings) w := by
  rcases hsettings : Settings.resolve s.sources with e | settings
  · rw [withSettings, hsettings]
    cases e with
    | unreadableFile defect => exact .inl ⟨defect, rfl⟩
    | complaints list => exact .inr (.inl ⟨_, rfl⟩)
  · exact .inr (.inr ⟨settings, rfl, runWith_withSettings hprepare hsettings⟩)

/-- A command ends well only if it has settings and ends well with them. -/
theorem exists_settings_of_withSettings {command : Settings → Action Shell Nat}
    (hprepare : runWith Disk.handler s.store.prepare w.disk = (.ok (), w.disk))
    (hrun : runWith (handler g) (s.withSettings command) w = (.ok 0, w')) :
    ∃ settings, Settings.resolve s.sources = .ok settings ∧
      runWith (handler g) (command settings) w = (.ok 0, w') := by
  obtain ⟨defect, hfails⟩ | ⟨report, hreports⟩ | ⟨settings, hsettings, hsame⟩ :=
    withSettings_cases hprepare
  · rw [hfails] at hrun
    cases hrun
  · rw [hreports] at hrun
    obtain ⟨_, _, _, hrun⟩ := runWith_bind_eq_ok.mp hrun
    cases hrun
  · exact ⟨settings, hsettings, hsame ▸ hrun⟩

/-- A command that only looks leaves the disk as it is, whatever its settings are. -/
theorem disk_withSettings {command : Settings → Action Shell Nat}
    (hprepare : runWith Disk.handler s.store.prepare w.disk = (.ok (), w.disk))
    (hcommand : ∀ settings, Asks Looks (command settings)) :
    (runWith (handler g) (s.withSettings command) w).2.disk = w.disk := by
  obtain ⟨defect, hfails⟩ | ⟨report, hreports⟩ | ⟨settings, -, hsame⟩ :=
    withSettings_cases hprepare
  · rw [hfails]
  · rw [hreports]
    exact disk_of_looks ((s.looks_say report).bind fun _ => asks_pure 1) w
  · rw [hsame]
    exact disk_of_looks (hcommand settings) w

end CommandLine.Session

end CertKeeper
