import CertKeeper.CommandLine.Command
import CertKeeper.CommandLine.Shell

/-!
# What commands do

Each command is a program that ends with an exit status: zero if it did what it was asked for, one
if it says why it did not. Failures that no command expects end it without a status.
-/

namespace CertKeeper.CommandLine

open Console Shell

/-- The version of this program. -/
def versionNumber : String := "0.1.0"

/-- What a command is carried out with. -/
structure Session where
  /-- The cells of a line of the console. -/
  console : Nat
  /-- Where settings come from. -/
  sources : Settings.Sources
  store : DirectoryStore

namespace Session

variable (s : Session)

/-- Prints a marked-up text. -/
def say (text : String) : Action Shell Unit := Shell.say s.console text

/-- A command that needs settings and an open store. Complaints about the settings end it, and so
does an environment file that is no text. -/
def withSettings (command : Settings → Action Shell Nat) : Action Shell Nat := do
  match Settings.resolve s.sources with
  | .error (.unreadableFile defect) => throw (.text defect)
  | .error (.complaints _) =>
    s.say ("[red]Invalid configuration:[/red] " ++ complaintsText)
    return 1
  | .ok settings =>
    onDisk s.store.prepare
    command settings

/-- Prints the version. -/
def version : Action Shell Nat := do
  s.say ("[bold]tls-reconciler[/bold] v" ++ versionNumber)
  return 0

/-! ## The authority -/

/-- Whether a record exists. -/
def recordExists (id : Identity) : Action Store Bool := do
  match ← (Store.getRecord id).outcome with
  | .ok _ => return true
  | .error e => if e.isRecordNotFound then return false else throw e

/-- Makes an authority and stores it. -/
def replaceAuthority (id : Identity) (options : SelfSigned.Options) : Action Shell Nat := do
  let authority ← onSigning (SelfSigned.generate options)
  let outcome ← onStore s.store (Store.upsert id fun data => .ok (authority.store data))
  s.say ("[green]CA " ++ outcome.text ++ "[/green] in record [bold]" ++ id.text ++ "[/bold]")
  let statement := authority.certificate.statement
  let subject ← Action.ofExcept .distinguishedName statement.subject.text?
  s.say ("  Subject:   " ++ subject)
  let notAfter ← Action.ofExcept .time authority.certificate.notAfter?
  s.say ("  Not after: " ++ notAfter.text)
  return 0

/-- Makes an authority; without `force`, only if there is none. -/
def initAuthority (options : SelfSigned.Options) (force : Bool) : Action Shell Nat :=
  s.withSettings fun settings => do
    let id := settings.authorityId
    let there ← onStore s.store (recordExists id)
    if there && !force then
      s.say ("[yellow]CA record " ++ id.text ++ " already exists.[/yellow] " ++
        "Use --force to replace it.")
      return 1
    else s.replaceAuthority id options

/-! ## Instances -/

/-- A label, written as a key, an equals sign and a value. -/
def readLabel? (word : String) : Option (String × String) :=
  match word.toList.takeWhile (· ≠ '='), word.toList.dropWhile (· ≠ '=') with
  | [], _ | _, [] => none
  | key, _ :: value => some (String.ofList key, String.ofList value)

/-- Labels, or the first word that is none. -/
def readLabels : Labels → List String → Except String Labels
  | labels, [] => .ok labels
  | labels, word :: rest =>
    match readLabel? word with
    | none => .error word
    | some (key, value) => readLabels (labels.set key value) rest

/-- Registers an instance. -/
def addInstance (name : String) (words : List String) : Action Shell Nat := do
  match readLabels .empty words with
  | .error word =>
    s.say ("[red]Error:[/red] label " ++ Text.quote word ++ " is not KEY=VALUE")
    return 1
  | .ok labels =>
    s.withSettings fun settings => do
      let id : Identity := ⟨settings.space, name⟩
      onDisk (s.store.addInstance ⟨id, labels⟩)
      s.say ("[green]Added[/green] instance [bold]" ++ id.text ++ "[/bold]")
      return 0

/-- The labels of an instance in the order of their keys. -/
def labelsText (labels : Labels) : String :=
  let sorted := labels.toList.mergeSort fun a b => a.1 ≤ b.1
  if sorted.isEmpty then "(none)"
  else String.intercalate ", " (sorted.map fun p => p.1 ++ "=" ++ p.2)

/-- The table of instances; the executing one is marked. -/
def instanceTable (settings : Settings) (instances : List Instance) : Table where
  title := "Instances — " ++ settings.space
  columns := [⟨"Name", .left⟩, ⟨"Labels", .left⟩, ⟨"Self", .center⟩]
  showHeader := true
  rows := instances.map fun i =>
    [i.id.name, labelsText i.labels,
      if i.id.name = settings.hostname then "[green]Yes[/green]" else ""]

/-- Lists the instances of the namespace. -/
def listInstances : Action Shell Nat :=
  s.withSettings fun settings => do
    let instances ← onStore s.store (Store.listInstances settings.space .empty)
    if instances.isEmpty then s.say "[yellow]No instances registered.[/yellow]"
    else sayTable s.console (instanceTable settings instances)
    return 0

/-! ## Records -/

/-- The record that a command is about: the named one, or the serving record. -/
def target (settings : Settings) (record : Option String) : Identity :=
  match record with
  | some name => ⟨settings.space, if name.isEmpty then settings.servingRecord else name⟩
  | none => settings.servingId

/-- A record as it is, or a missing one. -/
def recordOrMissing (id : Identity) : Action Store Record := do
  match ← (Store.getRecord id).outcome with
  | .ok r => return r
  | .error e => if e.isRecordNotFound then return .missing id else throw e

/-- The table of what was found in a record. -/
def inspectionTable (r : Record) (evaluation : Evaluation) (decision : Decision) : Table where
  title := "TLS record — " ++ r.id.text
  columns := [⟨"Field", .left⟩, ⟨"Value", .left⟩]
  showHeader := false
  rows :=
    [["Exists", if r.version = 0 then "no" else "yes"], ["Evaluation", evaluation.name]] ++
      (match evaluation with
        | .absent => []
        | .invalid defect => [["Reason", defect.reason]]
        | .valid notAfter => [["Not after", notAfter.text]]) ++
      [["Decision", decision.name], ["Re-check in", decision.requeueAfter.text]]

/-- Shows what a pass would find in a record, changing nothing. -/
def inspect (record : Option String) : Action Shell Nat :=
  s.withSettings fun settings => do
    let id := target settings record
    let resolve := resolveAuthority settings.authorityId SelfSigned.defaultLeafBits
    match ← (onStore s.store resolve).outcome with
    | .error e =>
      if e.engineKind?.isSome then
        s.say ("[red]Error:[/red] " ++ e.message)
        return 1
      else throw e
    | .ok authority =>
      let found ← onStore s.store (recordOrMissing id)
      let evaluation ← onSigning
        (evaluate found authority.toAuthority (some settings.dnsName) none)
      let lifetime ← Action.ofExcept .time settings.lifetime?
      let now ← onSigning Signing.clock
      let decision ← Action.ofExcept .time (evaluation.decide lifetime now)
      sayTable s.console (inspectionTable found evaluation decision)
      return 0

/-- Prints what a pass did about the servers. -/
def sayRestart (report : RestartReport) : Action Shell Unit := do
  if report.skipped.isEmpty then
    let names := String.intercalate ", " report.terminated
    s.say ("  Restarted:    " ++ if names.isEmpty then "(none)" else names)
    report.failures.forM fun f => s.say ("  [red]FAIL[/red]  " ++ f.message)
  else s.say ("  Restart:      [yellow]skipped[/yellow] (" ++ report.skipped ++ ")")

/-- Prints what a pass did. -/
def sayResult (r : PassResult) : Action Shell Unit := do
  s.say ("[green]Reconciled[/green] [bold]" ++ r.id.text ++ "[/bold]")
  s.say ("  Decision:     " ++ r.decision.name)
  s.say ("  Write:        " ++ r.outcome.text)
  s.say ("  Re-check in:  " ++ r.requeueAfter.text)
  match r.restart with
  | none => return
  | some report => s.sayRestart report

/-- The pass for a record. -/
def pass (settings : Settings) (id : Identity) : Action Shell PassResult := do
  let reconciler ← Action.ofExcept .time (Reconciler.ofSettings settings)
  onWorld s.store (reconciler.reconcile id none)

/-- Carries out a pass for a record. -/
def reconcile (record : Option String) : Action Shell Nat :=
  s.withSettings fun settings => do
    match ← (s.pass settings (target settings record)).outcome with
    | .ok r =>
      s.sayResult r
      return 0
    | .error e =>
      if e.engineKind?.isSome then
        s.say ("[red]Reconciliation failed:[/red] " ++ e.message)
        return 1
      else throw e

/-- Carries out a command. -/
def perform : Command → Action Shell Nat
  | .version => s.version
  | .initAuthority options force => s.initAuthority options force
  | .addInstance name labels => s.addInstance name labels
  | .listInstances => s.listInstances
  | .inspect record => s.inspect record
  | .reconcile record => s.reconcile record

end Session

end CertKeeper.CommandLine
