import CertKeeper.Json.Basic
import CertKeeper.Json.Decimal
import CertKeeper.Text.Quoted

/-!
# Writing structured documents

A document is written on one line or with one member to a line, and with characters outside ASCII
either as they are or as escaped UTF-16 units.
-/

namespace CertKeeper.Json

open Text

/-- How a document is written. -/
structure Style where
  /-- Whether characters outside the printable part of ASCII are escaped. -/
  ascii : Bool
  /-- The number of spaces of one level, or none for a single line. -/
  indent : Option Nat

/-- An escaped UTF-16 unit. -/
def unitChars (n : Nat) : List Char := '\\' :: 'u' :: hex 4 n

/-- One character of a text. -/
def escape (ascii : Bool) (c : Char) : List Char :=
  if c = '"' then ['\\', '"']
  else if c = '\\' then ['\\', '\\']
  else if c = '\n' then ['\\', 'n']
  else if c = '\r' then ['\\', 'r']
  else if c = '\t' then ['\\', 't']
  else if c = '\x08' then ['\\', 'b']
  else if c = '\x0c' then ['\\', 'f']
  else if c.toNat < 0x20 then unitChars c.toNat
  else if !ascii || c.toNat < 0x7f then [c]
  else if c.toNat < 0x10000 then unitChars c.toNat
  else
    unitChars (0xD800 + (c.toNat - 0x10000) / 0x400) ++
      unitChars (0xDC00 + (c.toNat - 0x10000) % 0x400)

/-- A text between quotation marks. -/
def textChars (ascii : Bool) (s : String) : List Char :=
  '"' :: s.toList.flatMap (escape ascii) ++ ['"']

/-- A number. -/
def Number.chars : Number → List Char
  | .integer n => (toString n).toList
  | .decimal d => d.chars
  | .infinity negative => (if negative then "-Infinity" else "Infinity").toList
  | .undefined => "NaN".toList

/-- The start of a line at a level of nesting, or nothing in a document on one line. -/
def lineStart (style : Style) (level : Nat) : List Char :=
  match style.indent with
  | none => []
  | some width => '\n' :: List.replicate (level * width) ' '

/-- What stands between a member's name and its value. -/
def nameEnd (style : Style) : List Char :=
  match style.indent with
  | none => [':']
  | some _ => [':', ' ']

mutual

/-- A document at a level of nesting. -/
def chars (style : Style) (level : Nat) : Json → List Char
  | .null => "null".toList
  | .bool b => (if b then "true" else "false").toList
  | .number n => n.chars
  | .text s => textChars style.ascii s
  | .array [] => ['[', ']']
  | .array (v :: rest) =>
    '[' :: lineStart style (level + 1) ++ chars style (level + 1) v
      ++ itemChars style (level + 1) rest ++ lineStart style level ++ [']']
  | .object [] => ['\x7b', '\x7d']
  | .object ((name, v) :: rest) =>
    '\x7b' :: lineStart style (level + 1) ++ textChars style.ascii name ++ nameEnd style
      ++ chars style (level + 1) v ++ memberChars style (level + 1) rest
      ++ lineStart style level ++ ['\x7d']

/-- The items after the first one. -/
def itemChars (style : Style) (level : Nat) : List Json → List Char
  | [] => []
  | v :: rest =>
    ',' :: lineStart style level ++ chars style level v ++ itemChars style level rest

/-- The members after the first one. -/
def memberChars (style : Style) (level : Nat) : List (String × Json) → List Char
  | [] => []
  | (name, v) :: rest =>
    ',' :: lineStart style level ++ textChars style.ascii name ++ nameEnd style
      ++ chars style level v ++ memberChars style level rest

end

/-- The text of a document. -/
def render (style : Style) (j : Json) : String := String.ofList (chars style 0 j)

end CertKeeper.Json
