import CertKeeper.Text.Printable

/-!
# Quoted text

A text between quotation marks, as messages show it: single marks, or double ones around a text
that holds single marks only; the mark in use, backslashes and unprintable characters are escaped.
-/

namespace CertKeeper.Text

/-- The hexadecimal digits of a number, lower case, with at least the given width. -/
def hex (width n : Nat) : List Char :=
  let digits := Nat.toDigits 16 n
  List.replicate (width - digits.length) '0' ++ digits

/-- One character of a text quoted with the given mark. -/
def quoteChar (mark c : Char) : List Char :=
  if c = mark || c = '\\' then ['\\', c]
  else if c = '\n' then ['\\', 'n']
  else if c = '\r' then ['\\', 'r']
  else if c = '\t' then ['\\', 't']
  else if isPrintable c then [c]
  else if c.toNat < 0x100 then '\\' :: 'x' :: hex 2 c.toNat
  else if c.toNat < 0x10000 then '\\' :: 'u' :: hex 4 c.toNat
  else '\\' :: 'U' :: hex 8 c.toNat

/-- The mark that a text is quoted with. -/
def quoteMark (s : String) : Char :=
  if s.toList.contains '\'' && !(s.toList.contains '"') then '"' else '\''

/-- A text in quotation marks. -/
def quote (s : String) : String :=
  let mark := quoteMark s
  String.ofList (mark :: s.toList.flatMap (quoteChar mark) ++ [mark])

end CertKeeper.Text
