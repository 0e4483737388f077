import CertKeeper.CommandLine.Perform

/-!
# Calls

A call of the program: options for all commands, then a command. The options are checked in the
order in which they are given, before the command is looked at.
-/

namespace CertKeeper.CommandLine

open Shell

/-- Where and how the program is called. -/
structure Context where
  /-- The name that the program is called by. -/
  programName : String
  /-- The cells of a line of the console. -/
  console : Nat
  /-- The variables of the environment. -/
  environment : Entries String String
  /-- The octets of the environment file; none if there is no such file. -/
  file : Bytes
  /-- The name of the machine. -/
  host : String

/-- How a call ends. -/
inductive Ending where
  /-- A command was carried out. -/
  | finished (status : Nat)
  /-- Help is asked for. -/
  | help
  /-- The words are refused, with a report. -/
  | refused (error : UsageError)
  /-- Nothing is asked for. -/
  | bare

/-- The exit status of a call. -/
def Ending.status : Ending → Nat
  | .finished status => status
  | .help => 0
  | .refused _ | .bare => 2

/-- The ending of a call whose words are no command to carry out. -/
def Stop.ending : Stop → Ending
  | .usage e => .refused e
  | .help => .help
  | .bareGroup => .bare

/-- What the program can be asked for. -/
def helpText : String :=
"Usage: tls-reconciler [OPTIONS] COMMAND [ARGS]...

  Keep a TLS certificate record valid and restart its servers on rotation

Options:
  --version             Show the version and exit.
  --state-dir DIRECTORY Root directory of the filesystem store.
  --namespace TEXT      Namespace of the records and instances.
  --hostname TEXT       Name of the executing instance.
  --log-level LEVEL     One of debug, info, warning and error.
  --help                Show this message and exit.

Commands:
  ca init               Generate a self-signed CA and store it in the CA record.
                        [--common-name TEXT] [--organization TEXT]
                        [--validity-days INTEGER] [--force]
  instance add NAME     Register the serving instance NAME. [--label KEY=VALUE]...
  instance list         List serving instances in the namespace.
  inspect [RECORD]      Evaluate RECORD without changing it.
  reconcile [RECORD]    Run one reconciliation pass for RECORD.
  version               Show detailed version information.
"

/-! ## The options for all commands -/

/-- The option that asks for the version. -/
def versionOption : String := "--version"

/-- The option for the directory of the store. -/
def directoryOption : String := "--state-dir"

/-- The option for the namespace. -/
def namespaceOption : String := "--namespace"

/-- The option for the name of the executing instance. -/
def hostnameOption : String := "--hostname"

/-- The option for how much is logged. -/
def levelOption : String := "--log-level"

/-- The options for all commands. -/
def globalOptions : List OptionSpec :=
  [⟨versionOption, none, false⟩, ⟨directoryOption, none, true⟩, ⟨namespaceOption, none, true⟩,
    ⟨hostnameOption, none, true⟩, ⟨levelOption, none, true⟩, helpOption]

/-- How much can be logged. -/
def levels : List String := ["debug", "info", "warning", "error"]

/-- The variable for the directory of the store. -/
def directoryVariable : String := "TLS_RECONCILER_STATE_DIR"

/-- The directory of the store where nothing else is said. -/
def defaultDirectory : String := "./state"

/-- Whether a file stands at a path. -/
def isFile (path : String) : DirectoryStore.DiskAction Bool := do
  match ← (Disk.ask (.probe (.ofText path))).outcome with
  | .ok .file => return true
  | .ok .directory => return false
  | .error (.disk e) => if e.kind = .embeddedNull then throw (.disk e) else return false
  | .error e => throw e

/-- Checks an option. -/
def checkOption (o : GivenOption) : Action Shell (Option UsageError) := do
  if o.name = levelOption ∧ !(levels.contains o.value.toLower) then
    return some (.noChoice o.name o.value levels)
  else if o.name = directoryOption then
    if ← onDisk (isFile o.value) then return some (.isFile o.name o.value) else return none
  else return none

/-- Checks options in their order. -/
def checkOptions : List GivenOption → Action Shell (Option UsageError)
  | [] => return none
  | o :: rest => do
    match ← checkOption o with
    | some e => return some e
    | none => checkOptions rest

/-- The options before the command, and whether help or the version is asked for instead of one. -/
inductive Opening where
  | command (w : Words)
  | version
  | stop (s : Stop)

/-- Reads the options before the command. -/
def openCall (words : List String) : Action Shell Opening := do
  match sortWords globalOptions false words with
  | .error e => return .stop (.usage e)
  | .ok w =>
    match w.names.find? fun n => n = versionOption ∨ n = helpOption.name with
    | some name => return if name = versionOption then .version else .stop .help
    | none =>
      match ← checkOptions (w.names.map fun n => ⟨n, (w.value? n).getD ""⟩) with
      | some e => return .stop (.usage e)
      | none => return .command w

/-! ## Calls -/

namespace Context

variable (c : Context)

/-- The values that options give to settings. -/
def given (w : Words) : Entries String Json :=
  let value (key option : String) : List (String × Json) :=
    ((w.value? option).map fun v => (key, Json.text v)).toList
  Entries.ofList (value "namespace" namespaceOption ++ value "hostname" hostnameOption)

/-- The directory of the store. -/
def directory (w : Words) : String :=
  match w.value? directoryOption with
  | some d => d
  | none =>
    match c.environment.get? directoryVariable with
    | some d => if d.isEmpty then defaultDirectory else d
    | none => defaultDirectory

/-- What the options of a call mean for its command. -/
def session (w : Words) : Session where
  console := c.console
  sources := ⟨given w, c.environment, c.file, c.host⟩
  store := ⟨.ofText (c.directory w)⟩

/-- Prints the version. -/
def sayVersion : Action Shell Ending := do
  print (c.programName ++ ", version " ++ versionNumber ++ "\n")
  return .finished 0

/-- Ends a call whose command is not known. A word like an option is looked at as one first. -/
def refuse (name : String) (words : List String) : Action Shell Ending := do
  let unknown := UsageError.unknownCommand name (Text.suggestions name (commands.map Prod.fst))
  if name.toList.head? = some '-' then
    match ← openCall words with
    | .version => c.sayVersion
    | .stop s => return s.ending
    | .command _ => return .refused unknown
  else return .refused unknown

/-- Carries out a call. -/
def call (words : List String) : Action Shell Ending := do
  if words.isEmpty then return .bare
  match ← openCall words with
  | .version => c.sayVersion
  | .stop s => return s.ending
  | .command w =>
    match w.arguments with
    | [] => return .refused .missingCommand
    | name :: rest =>
      match commands.lookup name with
      | none => c.refuse name w.arguments
      | some read =>
        match read rest with
        | .error s => return s.ending
        | .ok command => return .finished (← (c.session w).perform command)

end Context

end CertKeeper.CommandLine
