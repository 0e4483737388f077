import CertKeeper.Bytes
import CertKeeper.Json.Basic
import CertKeeper.Text.Number

/-!
# Reading structured documents

A text is cut into tokens and the tokens are fed one by one to a machine whose state is the stack of
the containers that are still open, so that the reading needs no bound besides the text itself.
-/

namespace CertKeeper.Json

open Text

/-- The parts that the text of a document consists of. -/
inductive Token where
  /-- White space. -/
  | blank
  | openArray
  | closeArray
  | openObject
  | closeObject
  | comma
  | colon
  /-- A value that is no container. -/
  | scalar (v : Json)

/-- Whether a character is white space between tokens. -/
def isGap (c : Char) : Bool := c = ' ' || c = '\t' || c = '\n' || c = '\r'

/-- The value of a hexadecimal digit. -/
def hexValue? (c : Char) : Option Nat :=
  if c.isDigit then some (c.toNat - 0x30)
  else if 'a' ≤ c ∧ c ≤ 'f' then some (c.toNat - 0x61 + 10)
  else if 'A' ≤ c ∧ c ≤ 'F' then some (c.toNat - 0x41 + 10)
  else none

/-- The value of four hexadecimal digits. -/
def unit? (a b c d : Char) : Option Nat := do
  let a ← hexValue? a
  let b ← hexValue? b
  let c ← hexValue? c
  let d ← hexValue? d
  some (((a * 16 + b) * 16 + c) * 16 + d)

/-- The character that a letter stands for after a backslash. -/
def escaped? : Char → Option Char
  | '"' => some '"'
  | '\\' => some '\\'
  | '/' => some '/'
  | 'b' => some '\x08'
  | 'f' => some '\x0c'
  | 'n' => some '\n'
  | 'r' => some '\r'
  | 't' => some '\t'
  | _ => none

/-- The character of a high and a low surrogate. -/
def joinSurrogates (high low : Nat) : Char :=
  Char.ofNat (0x10000 + (high - 0xD800) * 0x400 + (low - 0xDC00))

/-- The characters of a text after its opening mark, and what follows its closing mark. Half a
surrogate pair is no character, and control characters must be escaped. -/
def readText : List Char → Option (List Char × List Char)
  | '"' :: rest => some ([], rest)
  | '\\' :: 'u' :: a :: b :: c :: d :: '\\' :: 'u' :: e :: f :: g :: h :: rest =>
    match unit? a b c d with
    | none => none
    | some n =>
      if 0xD800 ≤ n ∧ n < 0xDC00 then
        match unit? e f g h with
        | some m =>
          if 0xDC00 ≤ m ∧ m < 0xE000 then
            (readText rest).map fun r => (joinSurrogates n m :: r.1, r.2)
          else none
        | none => none
      else if 0xDC00 ≤ n ∧ n < 0xE000 then none
      else
        (readText ('\\' :: 'u' :: e :: f :: g :: h :: rest)).map fun r => (Char.ofNat n :: r.1, r.2)
  | '\\' :: 'u' :: a :: b :: c :: d :: rest =>
    match unit? a b c d with
    | none => none
    | some n =>
      if 0xD800 ≤ n ∧ n < 0xE000 then none
      else (readText rest).map fun r => (Char.ofNat n :: r.1, r.2)
  | '\\' :: c :: rest =>
    match escaped? c with
    | none => none
    | some e => (readText rest).map fun r => (e :: r.1, r.2)
  | c :: rest =>
    if c.toNat < 0x20 then none else (readText rest).map fun r => (c :: r.1, r.2)
  | [] => none

/-- The fraction that may follow the whole part of a number, and the rest of the text. -/
def readFraction (cs : List Char) : List Char × List Char :=
  match cs with
  | '.' :: rest =>
    let digits := rest.takeWhile Char.isDigit
    if digits.isEmpty then ([], cs) else (digits, rest.drop digits.length)
  | _ => ([], cs)

/-- The exponent that may follow, and the rest of the text. -/
def readExponent (cs : List Char) : Option Int × List Char :=
  let signed (negative : Bool) (rest : List Char) : Option Int × List Char :=
    let digits := rest.takeWhile Char.isDigit
    if digits.isEmpty then (none, cs)
    else
      let n : Int := digitsValue digits
      (some (if negative then -n else n), rest.drop digits.length)
  match cs with
  | e :: rest =>
    if e = 'e' ∨ e = 'E' then
      match rest with
      | '-' :: rest => signed true rest
      | '+' :: rest => signed false rest
      | _ => signed false rest
    else (none, cs)
  | [] => (none, cs)

/-- A number after its sign: no leading zeros, then perhaps a fraction and an exponent. -/
def readMagnitude (negative : Bool) (cs : List Char) : Option (Number × List Char) :=
  let whole := if cs.head? = some '0' then ['0'] else cs.takeWhile Char.isDigit
  if whole.isEmpty then none
  else
    let (fraction, rest) := readFraction (cs.drop whole.length)
    let (exponent, rest) := readExponent rest
    let digits := digitsValue (whole ++ fraction)
    if fraction.isEmpty ∧ exponent.isNone then
      some (.integer (if negative then -(digits : Int) else digits), rest)
    else
      some (.decimal ⟨negative, digits, exponent.getD 0 - fraction.length⟩, rest)

/-- The words that stand for values. -/
def words : List (List Char × Json) :=
  [("null".toList, .null), ("true".toList, .bool true), ("false".toList, .bool false),
    ("NaN".toList, .number .undefined), ("Infinity".toList, .number (.infinity false)),
    ("-Infinity".toList, .number (.infinity true))]

/-- The next token and the rest of the text. -/
def readToken : List Char → Option (Token × List Char)
  | [] => none
  | c :: rest =>
    if isGap c then some (.blank, rest)
    else if c = '[' then some (.openArray, rest)
    else if c = ']' then some (.closeArray, rest)
    else if c = '\x7b' then some (.openObject, rest)
    else if c = '\x7d' then some (.closeObject, rest)
    else if c = ',' then some (.comma, rest)
    else if c = ':' then some (.colon, rest)
    else if c = '"' then
      (readText rest).map fun r => (.scalar (.text (String.ofList r.1)), r.2)
    else
      match words.find? fun w => w.1.isPrefixOf (c :: rest) with
      | some w => some (.scalar w.2, (c :: rest).drop w.1.length)
      | none =>
        let number :=
          if c = '-' then readMagnitude true rest else readMagnitude false (c :: rest)
        number.map fun r => (.scalar (.number r.1), r.2)

/-- A container that is still open while one of its values is read. -/
inductive Frame where
  /-- An array with the items read so far, the last one first. -/
  | items (done : List Json)
  /-- An object with the members read so far, the last one first, and the name of the next. -/
  | members (done : List (String × Json)) (name : String)

/-- What the reading waits for. -/
inductive State where
  /-- A value; in a container that was just opened also its end. -/
  | value (fresh : Bool) (stack : List Frame)
  /-- A member's name; in an object that was just opened also its end. -/
  | memberName (fresh : Bool) (done : List (String × Json)) (stack : List Frame)
  /-- The colon after a member's name. -/
  | colon (name : String) (done : List (String × Json)) (stack : List Frame)
  /-- A comma between items or the end of the array. -/
  | afterItem (done : List Json) (stack : List Frame)
  /-- A comma between members or the end of the object. -/
  | afterMember (done : List (String × Json)) (stack : List Frame)
  /-- Nothing more. -/
  | finished (v : Json)

/-- A complete value takes its place in the innermost open container. -/
def State.complete (v : Json) : List Frame → State
  | [] => .finished v
  | .items done :: stack => .afterItem (v :: done) stack
  | .members done name :: stack => .afterMember ((name, v) :: done) stack

/-- The effect of one token. -/
def State.step : State → Token → Option State
  | s, .blank => some s
  | .value _ stack, .scalar v => some (complete v stack)
  | .value _ stack, .openArray => some (.value true (.items [] :: stack))
  | .value _ stack, .openObject => some (.memberName true [] stack)
  | .value true (.items [] :: stack), .closeArray => some (complete (.array []) stack)
  | .memberName _ done stack, .scalar (.text s) => some (.colon s done stack)
  | .memberName true _ stack, .closeObject => some (complete (.object []) stack)
  | .colon s done stack, .colon => some (.value false (.members done s :: stack))
  | .afterItem done stack, .comma => some (.value false (.items done :: stack))
  | .afterItem done stack, .closeArray => some (complete (.array done.reverse) stack)
  | .afterMember done stack, .comma => some (.memberName false done stack)
  | .afterMember done stack, .closeObject => some (complete (.object done.reverse) stack)
  | _, _ => none

/-- The effect of several tokens. -/
def State.run (s : State) : List Token → Option State
  | [] => some s
  | t :: rest => (s.step t).bind fun s => s.run rest

/-- The document that a text denotes. -/
def ofText? (s : String) : Option Json :=
  match (readAll readToken s.toList).bind (State.value false []).run with
  | some (.finished v) => some v
  | _ => none

end CertKeeper.Json
