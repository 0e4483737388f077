import CertKeeper.Entries
import CertKeeper.Text.Blank

/-!
# Environment files

Lines `NAME=value` with comments, an optional `export`, and values that are quoted or not. A line
that cannot be read is skipped. In a value, `${NAME}` and `${NAME:-default}` stand for the value of
a variable that was set before, in the file or in the environment.
-/

namespace CertKeeper.Settings.Dotenv

open Text

/-- Whether a character ends a line. -/
def isLineEnd (c : Char) : Bool := c = '\n' || c = '\r'

/-- Whether a character is blank and does not end a line. -/
def isInlineBlank (c : Char) : Bool := isBlank c && !(isLineEnd c)

/-- The characters of a value in quotation marks and what follows the closing mark. A mark after a
backslash closes the value only if no other mark does. -/
def readQuoted (mark : Char) : List Char → Option (List Char × List Char)
  | [] => none
  | ['\\'] => none
  | '\\' :: c :: rest =>
    if c = mark then
      match readQuoted mark rest with
      | some (value, after) => some ('\\' :: c :: value, after)
      | none => some (['\\'], rest)
    else (readQuoted mark (c :: rest)).map fun r => ('\\' :: r.1, r.2)
  | c :: rest =>
    if c = mark then some ([], rest) else (readQuoted mark rest).map fun r => (c :: r.1, r.2)

/-- The characters that stand for something else after a backslash between double marks. -/
def doubleEscapes : List (Char × Char) :=
  [('\\', '\\'), ('\'', '\''), ('"', '"'), ('a', '\x07'), ('b', '\x08'), ('f', '\x0c'),
    ('n', '\n'), ('r', '\r'), ('t', '\t'), ('v', '\x0b')]

/-- The characters that stand for something else after a backslash between single marks. -/
def singleEscapes : List (Char × Char) := [('\\', '\\'), ('\'', '\'')]

/-- The characters of a value with those after a backslash replaced. -/
def unescape (escapes : List (Char × Char)) : List Char → List Char
  | '\\' :: c :: rest =>
    match escapes.lookup c with
    | some e => e :: unescape escapes rest
    | none => '\\' :: unescape escapes (c :: rest)
  | c :: rest => c :: unescape escapes rest
  | [] => []

/-- The characters before a comment, which blanks and a number sign begin. -/
def beforeComment : List Char → List Char
  | [] => []
  | c :: rest =>
    if isBlank c ∧ (rest.dropWhile isBlank).head? = some '#' then [] else c :: beforeComment rest

/-- A value and what follows it. -/
def readValue (cs : List Char) : Option (List Char × List Char) :=
  match cs with
  | '\'' :: rest => (readQuoted '\'' rest).map fun r => (unescape singleEscapes r.1, r.2)
  | '"' :: rest => (readQuoted '"' rest).map fun r => (unescape doubleEscapes r.1, r.2)
  | cs =>
    let line := cs.takeWhile fun c => !(isLineEnd c)
    let value := ((beforeComment line).reverse.dropWhile isBlank).reverse
    some (value, cs.drop line.length)

/-- A name and what follows it; a line that begins with a comment has none. -/
def readName (cs : List Char) : Option (Option (List Char) × List Char) :=
  match cs with
  | '#' :: _ => some (none, cs)
  | '\'' :: rest =>
    let name := rest.takeWhile (· ≠ '\'')
    match name, rest.drop name.length with
    | [], _ => none
    | name, '\'' :: rest => some (some name, rest)
    | _, _ => none
  | cs =>
    let name := cs.takeWhile fun c => c ≠ '=' && c ≠ '#' && !(isBlank c)
    if name.isEmpty then none else some (some name, cs.drop name.length)

/-- What follows the word `export` and blanks, if a text begins with them. -/
def dropExport (cs : List Char) : List Char :=
  let word := "export".toList
  if word.isPrefixOf cs ∧ ((cs.drop word.length).head?.any isInlineBlank) then
    (cs.drop word.length).dropWhile isInlineBlank
  else cs

/-- What follows the end of a line that may have a comment. -/
def endLine (cs : List Char) : Option (List Char) :=
  let afterBlank := cs.dropWhile isInlineBlank
  let rest :=
    if afterBlank.head? = some '#' then afterBlank.dropWhile fun c => !(isLineEnd c) else afterBlank
  match rest with
  | [] => some []
  | '\r' :: '\n' :: rest => some rest
  | c :: rest => if isLineEnd c then some rest else none

/-- What follows the end of the current line, whatever stands in it. -/
def skipLine (cs : List Char) : List Char :=
  match cs.dropWhile fun c => !(isLineEnd c) with
  | [] => []
  | _ :: rest => rest

/-- A line: a name, if it has one, and a value, if it has one. -/
abbrev Binding := Option (List Char) × Option (List Char)

/-- The line at the start of a text and what follows it. A line that cannot be read is skipped from
where the reading fails. -/
def readBinding (cs : List Char) : Binding × List Char :=
  match readName (dropExport cs) with
  | none => ((none, none), skipLine (dropExport cs))
  | some (name, rest) =>
    let rest := rest.dropWhile isInlineBlank
    match rest with
    | '=' :: afterSign =>
      let start := afterSign.dropWhile isInlineBlank
      match readValue start with
      | none => ((none, none), skipLine start)
      | some (value, rest) =>
        match endLine rest with
        | some rest => ((name, some value), rest)
        | none => ((none, none), skipLine (rest.dropWhile isInlineBlank))
    | rest =>
      match endLine rest with
      | some rest => ((name, none), rest)
      | none => ((none, none), skipLine rest)

/-- The lines of a text, at most the given number of them. -/
def readBindings : Nat → List Char → List Binding
  | 0, _ => []
  | n + 1, cs =>
    let cs := cs.dropWhile isBlank
    if cs.isEmpty then []
    else
      let (binding, rest) := readBinding cs
      binding :: readBindings n rest

/-- A variable that was set before, with its value if it has one. -/
abbrev Lookup := String → Option (Option String)

/-- What stands between the braces of a variable: its name, then perhaps a default. -/
def resolveVariable (lookup : Lookup) (inner : List Char) : Option (List Char) :=
  let name := inner.takeWhile (· ≠ ':')
  let value (fallback : List Char) : List Char :=
    match lookup (String.ofList name) with
    | some v => (v.getD "").toList
    | none => fallback
  match inner.drop name.length with
  | [] => some (value [])
  | ':' :: '-' :: fallback => some (value fallback)
  | _ => none

/-- A value with its variables replaced. The number bounds the length of the value. -/
def expand (lookup : Lookup) : Nat → List Char → List Char
  | 0, cs => cs
  | _ + 1, [] => []
  | n + 1, '$' :: '\x7b' :: rest =>
    let inner := rest.takeWhile (· ≠ '\x7d')
    match rest.drop inner.length, resolveVariable lookup inner with
    | _ :: after, some value => value ++ expand lookup n after
    | _, _ => '$' :: expand lookup n ('\x7b' :: rest)
  | n + 1, c :: rest => c :: expand lookup n rest

/-- The variables set so far and one more line. -/
def assign (environment : Entries String String) (values : Entries String (Option String))
    (b : Binding) : Entries String (Option String) :=
  let lookup : Lookup := fun name =>
    match values.get? name with
    | some v => some v
    | none => (environment.get? name).map some
  match b with
  | (none, _) => values
  | (some name, none) => values.set (String.ofList name) none
  | (some name, some value) =>
    values.set (String.ofList name) (some (String.ofList (expand lookup value.length value)))

/-- The text with every line end written as one line feed. -/
def unifyLineEnds : List Char → List Char
  | '\r' :: '\n' :: rest => '\n' :: unifyLineEnds rest
  | '\r' :: rest => '\n' :: unifyLineEnds rest
  | c :: rest => c :: unifyLineEnds rest
  | [] => []

/-- The variables of a file, in the order of their first lines; a name without an equals sign has no
value. -/
def read (environment : Entries String String) (s : String) : Entries String (Option String) :=
  let cs := unifyLineEnds s.toList
  (readBindings (cs.length + 1) cs).foldl (assign environment) .empty

end CertKeeper.Settings.Dotenv
