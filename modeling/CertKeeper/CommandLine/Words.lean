import CertKeeper.Text.Quoted
import CertKeeper.Text.Similar

/-!
# The words of a call

A word that starts with a hyphen is an option, or several one-letter options in one; the value of an
option is the rest of its word or the word after it. After two hyphens there are no more options.
-/

namespace CertKeeper.CommandLine

open Text

/-- Why the words of a call are refused. -/
inductive UsageError where
  | unknownOption (name : String) (similar : List String)
  | missingValue (option : String)
  | unwantedValue (option : String)
  | noInteger (option value : String)
  | noChoice (option value : String) (choices : List String)
  /-- A file stands where a directory is expected. -/
  | isFile (option path : String)
  | missingArgument (name : String)
  | extraArguments (words : List String)
  | unknownCommand (name : String) (similar : List String)
  | missingCommand
  deriving DecidableEq, Repr

/-- A suggestion after a report, if there is something to suggest. -/
def suggestionText : List String → String
  | [] => ""
  | [name] => " Did you mean '" ++ name ++ "'?"
  | names =>
    let quoted := names.map fun name => "'" ++ name ++ "'"
    " (Did you mean one of: " ++ String.intercalate ", " quoted ++ "?)"

/-- The report of a refusal. -/
def UsageError.message : UsageError → String
  | unknownOption name similar => "No such option " ++ quote name ++ "." ++ suggestionText similar
  | missingValue option => "Option " ++ quote option ++ " requires an argument."
  | unwantedValue option => "Option " ++ quote option ++ " does not take a value."
  | noInteger option value =>
    "Invalid value for '" ++ option ++ "': " ++ quote value ++ " is not a valid integer."
  | noChoice option value choices =>
    "Invalid value for '" ++ option ++ "': " ++ quote value ++ " is not one of " ++
      String.intercalate ", " (choices.map fun c => "'" ++ c ++ "'") ++ "."
  | isFile option path =>
    "Invalid value for '" ++ option ++ "': Directory " ++ quote path ++ " is a file."
  | missingArgument name => "Missing argument '" ++ name ++ "'."
  | extraArguments words =>
    "Got unexpected extra argument" ++ (if words.length = 1 then "" else "s") ++ " (" ++
      String.intercalate " " words ++ ")"
  | unknownCommand name similar => "No such command " ++ quote name ++ "." ++ suggestionText similar
  | missingCommand => "Missing command."

/-- An option that a command knows. -/
structure OptionSpec where
  /-- The name, with two hyphens. -/
  name : String
  /-- The letter that stands for it too, if there is one. -/
  letter : Option Char
  takesValue : Bool

/-- An option in a call, under its name, with its value; one without a value has an empty one. -/
structure GivenOption where
  name : String
  value : String
  deriving DecidableEq, Repr

/-- The words of a call, sorted. -/
structure Words where
  options : List GivenOption
  arguments : List String
  deriving DecidableEq, Repr

namespace Words

/-- The words with an argument before them. -/
def withArgument (w : Words) (a : String) : Words := { w with arguments := a :: w.arguments }

/-- The values of an option. -/
def values (w : Words) (name : String) : List String :=
  (w.options.filter fun o => o.name = name).map GivenOption.value

/-- The value of an option, the last one if it is there several times. -/
def value? (w : Words) (name : String) : Option String := (w.values name).getLast?

/-- Whether an option is there. -/
def has (w : Words) (name : String) : Bool := (w.value? name).isSome

/-- The names of the options that are there, in the order of their first occurrence. -/
def names (w : Words) : List String := (w.options.map GivenOption.name).eraseDups

end Words

/-- What one word says: options, and perhaps one whose value is the next word, with its name as it
was written. -/
structure OptionWord where
  options : List GivenOption
  open? : Option (OptionSpec × String)

variable (specs : List OptionSpec)

/-- What a word of letters after a hyphen says. -/
def readLetters : List Char → Except UsageError OptionWord
  | [] => .ok ⟨[], none⟩
  | c :: rest =>
    let written := String.ofList ['-', c]
    match specs.find? fun s => s.letter = some c with
    | none => .error (.unknownOption written [])
    | some s =>
      if s.takesValue then
        if rest.isEmpty then .ok ⟨[], some (s, written)⟩
        else .ok ⟨[⟨s.name, String.ofList rest⟩], none⟩
      else do
        let more ← readLetters rest
        return ⟨⟨s.name, ""⟩ :: more.options, more.open?⟩

/-- What a word that starts with a hyphen says. -/
def readOption (word : List Char) : Except UsageError OptionWord :=
  let written := String.ofList (word.takeWhile (· ≠ '='))
  let attached :=
    match word.dropWhile (· ≠ '=') with
    | [] => none
    | _ :: value => some (String.ofList value)
  match specs.find? fun s => s.name = written, attached with
  | some s, some value =>
    if s.takesValue then .ok ⟨[⟨s.name, value⟩], none⟩ else .error (.unwantedValue written)
  | some s, none => .ok (if s.takesValue then ⟨[], some (s, written)⟩ else ⟨[⟨s.name, ""⟩], none⟩)
  | none, _ =>
    match word with
    | '-' :: '-' :: _ =>
      .error (.unknownOption written (suggestions written (specs.map OptionSpec.name)))
    | _ => readLetters specs word.tail

/-- The words of a call, sorted. With `mixed`, options may follow arguments; otherwise everything
from the first argument on is an argument. -/
def sortWords (mixed : Bool) : List String → Except UsageError Words
  | [] => .ok ⟨[], []⟩
  | word :: rest =>
    if word = "--" then .ok ⟨[], rest⟩
    else if word.toList.head? = some '-' ∧ word ≠ "-" then do
      let said ← readOption specs word.toList
      match said.open?, rest with
      | none, rest =>
        let w ← sortWords mixed rest
        return ⟨said.options ++ w.options, w.arguments⟩
      | some (_, written), [] => throw (.missingValue written)
      | some (s, _), value :: rest =>
        let w ← sortWords mixed rest
        return ⟨said.options ++ ⟨s.name, value⟩ :: w.options, w.arguments⟩
    else if mixed then do
      let w ← sortWords mixed rest
      return w.withArgument word
    else .ok ⟨[], word :: rest⟩

end CertKeeper.CommandLine
