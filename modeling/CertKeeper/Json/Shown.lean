import CertKeeper.Json.Basic
import CertKeeper.Json.Decimal
import CertKeeper.Text.Quoted

/-!
# Documents in messages

The form in which a message shows a value that was not expected.
-/

namespace CertKeeper.Json

open Text

/-- A number as it is shown. -/
def Number.shown : Number → List Char
  | .integer n => (toString n).toList
  | .decimal d => d.chars
  | .infinity negative => (if negative then "-inf" else "inf").toList
  | .undefined => "nan".toList

mutual

/-- A document as it is shown. -/
def shownChars : Json → List Char
  | .null => "None".toList
  | .bool b => (if b then "True" else "False").toList
  | .number n => n.shown
  | .text s => (quote s).toList
  | .array [] => ['[', ']']
  | .array (v :: rest) => '[' :: shownChars v ++ shownItems rest ++ [']']
  | .object [] => ['\x7b', '\x7d']
  | .object ((name, v) :: rest) =>
    '\x7b' :: (quote name).toList ++ [':', ' '] ++ shownChars v ++ shownMembers rest ++ ['\x7d']

/-- The items after the first one. -/
def shownItems : List Json → List Char
  | [] => []
  | v :: rest => [',', ' '] ++ shownChars v ++ shownItems rest

/-- The members after the first one. -/
def shownMembers : List (String × Json) → List Char
  | [] => []
  | (name, v) :: rest =>
    [',', ' '] ++ (quote name).toList ++ [':', ' '] ++ shownChars v ++ shownMembers rest

end

/-- The form in which a message shows a document. -/
def shown (j : Json) : String := String.ofList (shownChars j)

end CertKeeper.Json
