import CertKeeper.Authority.SelfSigned
import CertKeeper.CommandLine.Words

/-!
# Commands

The commands of this program and how the words of a call name them.
-/

namespace CertKeeper.CommandLine

open Text

/-- A command with what it needs. -/
inductive Command where
  | version
  /-- Makes an authority; with `force`, one that is there is replaced. -/
  | initAuthority (options : SelfSigned.Options) (force : Bool)
  | addInstance (name : String) (labels : List String)
  | listInstances
  /-- Shows what a pass would find in a record. -/
  | inspect (record : Option String)
  /-- Carries out a pass for a record. -/
  | reconcile (record : Option String)

/-- Why words are no command to carry out. -/
inductive Stop where
  | usage (error : UsageError)
  /-- Help is asked for. -/
  | help
  /-- A group of commands is named and nothing else. -/
  | bareGroup

/-- The option that asks for help. -/
def helpOption : OptionSpec := ⟨"--help", none, false⟩

/-- How the words after the name of a command are read. -/
structure Grammar where
  options : List OptionSpec
  /-- The name of the argument, if the command takes one. -/
  argument : Option String
  /-- Whether the argument must be there. -/
  required : Bool
  /-- What is wrong with a value of an option. -/
  check : GivenOption → Option UsageError

namespace Grammar

/-- The grammar of a command with neither options nor arguments. -/
def bare : Grammar := ⟨[], none, false, fun _ => none⟩

/-- The grammar of a command with an argument that may be missing. -/
def optional (argument : String) : Grammar := { bare with argument := some argument }

variable (g : Grammar)

/-- What is wrong with the value of one of the options that are there. -/
def badValue? (w : Words) : Option UsageError :=
  w.names.findSome? fun name => g.check ⟨name, (w.value? name).getD ""⟩

/-- The words after the name of a command. -/
def read (words : List String) : Except Stop Words := do
  let w ← (sortWords (helpOption :: g.options) true words).mapError .usage
  if w.has helpOption.name then throw .help
  match g.badValue? w with
  | some e => throw (.usage e)
  | none =>
    let taken := if g.argument.isSome then 1 else 0
    match g.argument with
    | some name => if g.required ∧ w.arguments.isEmpty then throw (.usage (.missingArgument name))
    | none => pure ()
    let extra := w.arguments.drop taken
    if extra.isEmpty then return w else throw (.usage (.extraArguments extra))

end Grammar

/-! ## The commands -/

/-- The most digits of a whole number in a call. -/
def maxDigits : Nat := 4300

/-- A whole number in a call. -/
def readNumber? (s : String) : Option Int :=
  if maxDigits < (s.toList.filter fun c => (digitValue? c).isSome).length then none
  else readInteger? s

/-- The names of the options. -/
def commonNameOption : String := "--common-name"

/-- The option for the organization of a new authority. -/
def organizationOption : String := "--organization"

/-- The option for the days that a new authority is valid for. -/
def validityOption : String := "--validity-days"

/-- The option that lets an authority be replaced. -/
def forceOption : String := "--force"

/-- The option for a label. -/
def labelOption : String := "--label"

/-- The command that makes an authority. -/
def initGrammar : Grammar where
  options :=
    [⟨commonNameOption, none, true⟩, ⟨organizationOption, none, true⟩,
      ⟨validityOption, none, true⟩, ⟨forceOption, none, false⟩]
  argument := none
  required := false
  check o :=
    if o.name = validityOption ∧ (readNumber? o.value).isNone then
      some (.noInteger o.name o.value)
    else none

/-- The command that registers an instance. -/
def addGrammar : Grammar where
  options := [⟨labelOption, some 'l', true⟩]
  argument := some "NAME"
  required := true
  check _ := none

/-- The options of a new authority that words give. -/
def initOptions (w : Words) : SelfSigned.Options :=
  let d := SelfSigned.Options.default
  { d with
    commonName := (w.value? commonNameOption).getD d.commonName
    organization := (w.value? organizationOption).getD d.organization
    validityDays := ((w.value? validityOption).bind readNumber?).getD d.validityDays }

/-- A way to read the words after a name. -/
abbrev Reader := List String → Except Stop Command

/-- The reading of the words after the name of a group, whose commands are given. -/
def readGroup (commands : List (String × Reader)) (words : List String) : Except Stop Command := do
  if words.isEmpty then throw .bareGroup
  let w ← (sortWords [helpOption] false words).mapError .usage
  if w.has helpOption.name then throw .help
  match w.arguments with
  | [] => throw (.usage .missingCommand)
  | name :: rest =>
    match commands.lookup name with
    | some read => read rest
    | none =>
      let again ← (sortWords [helpOption] false w.arguments).mapError .usage
      if again.has helpOption.name then throw .help
      throw (.usage (.unknownCommand name (suggestions name (commands.map Prod.fst))))

/-- The commands of the group for the authority. -/
def authorityCommands : List (String × Reader) :=
  [("init", fun words => do
    let w ← initGrammar.read words
    return .initAuthority (initOptions w) (w.has forceOption))]

/-- The commands of the group for instances. -/
def instanceCommands : List (String × Reader) :=
  [("add", fun words => do
    let w ← addGrammar.read words
    return .addInstance (w.arguments.headD "") (w.values labelOption)),
   ("list", fun words => do
    let _ ← Grammar.bare.read words
    return .listInstances)]

/-- All commands and groups. -/
def commands : List (String × Reader) :=
  [("ca", readGroup authorityCommands),
   ("inspect", fun words => do
    let w ← (Grammar.optional "RECORD").read words
    return .inspect w.arguments.head?),
   ("instance", readGroup instanceCommands),
   ("reconcile", fun words => do
    let w ← (Grammar.optional "RECORD").read words
    return .reconcile w.arguments.head?),
   ("version", fun words => do
    let _ ← Grammar.bare.read words
    return .version)]

end CertKeeper.CommandLine
