import CertKeeper.Console.Emoji
import CertKeeper.Console.Style

/-!
# Console markup

A text in square brackets that starts with a lower case letter, `#`, `/` or `@` is a tag. A tag
opens a style, one with a slash closes a style that is open; the console shows the text without its
tags. An odd number of backslashes before a bracket makes it an ordinary character, and each pair of
them is one backslash.

What stands behind the equals sign of a tag is not looked at here. A console that knows actions
reads it as the parameters of the action when a tag that starts with `@` is closed, and fails if it
cannot (`[@x=(][/]`); texts with such tags are shown here.
-/

namespace CertKeeper.Console

open Text

/-- Why a marked-up text cannot be shown. Parameters of actions that cannot be read are no reason
here. -/
inductive MarkupDefect where
  /-- A tag closes a style that is not open. -/
  | unmatched (tag : String) (position : Nat)
  /-- A tag closes the last open style where none is open. -/
  | nothingToClose (position : Nat)
  deriving DecidableEq, Repr

/-- The wording of a defect. -/
def MarkupDefect.message : MarkupDefect → String
  | .unmatched tag position =>
    "closing tag '[" ++ tag ++ "]' at position " ++ toString position ++
      " doesn't match any open tag"
  | .nothingToClose position =>
    "closing tag '[/]' at position " ++ toString position ++ " has nothing to close"

namespace Markup

/-- A text in brackets with backslashes before it. -/
structure Bracket where
  backslashes : Nat
  content : List Char

/-- The characters that a bracketed text takes. -/
def Bracket.length (b : Bracket) : Nat := b.backslashes + b.content.length + 2

/-- Whether a tag may start with a character. -/
def startsTag (c : Char) : Bool := ('a' ≤ c && c ≤ 'z') || c = '#' || c = '/' || c = '@'

/-- The bracketed text that a text starts with. -/
def bracket? (cs : List Char) : Option Bracket :=
  let inside (c : Char) : Bool := c ≠ '[' && c ≠ ']'
  match cs.dropWhile (· = '\\') with
  | '[' :: c :: rest =>
    match rest.dropWhile inside with
    | ']' :: _ =>
      if startsTag c then
        some ⟨(cs.takeWhile (· = '\\')).length, c :: rest.takeWhile inside⟩
      else none
    | _ => none
  | _ => none

/-- A piece of a marked-up text. -/
inductive Piece where
  | plain (cs : List Char)
  | tag (content : List Char) (position : Nat)

/-- The pieces of a bracketed text at a position. -/
def Bracket.pieces (b : Bracket) (position : Nat) : List Piece :=
  let pairs := b.backslashes / 2
  let literal := if pairs = 0 then [] else [Piece.plain (List.replicate pairs '\\')]
  if b.backslashes % 2 = 1 then literal ++ [.plain ('[' :: b.content ++ [']'])]
  else literal ++ [.tag b.content (position + 2 * pairs)]

/-- Characters without tags, given in reverse, as a piece. -/
def plainPieces (reversed : List Char) : List Piece :=
  if reversed.isEmpty then [] else [.plain reversed.reverse]

/-- The pieces of a text from a position on. Characters of the tag before are skipped; those since
the last tag are given in reverse. -/
def piecesFrom : (position skip : Nat) → (reversed : List Char) → List Char → List Piece
  | _, _, reversed, [] => plainPieces reversed
  | position, skip + 1, reversed, _ :: cs => piecesFrom (position + 1) skip reversed cs
  | position, 0, reversed, c :: cs =>
    match bracket? (c :: cs) with
    | none => piecesFrom (position + 1) 0 (c :: reversed) cs
    | some b =>
      plainPieces reversed ++ b.pieces position ++ piecesFrom (position + 1) (b.length - 1) [] cs

/-- The pieces of a marked-up text. -/
def pieces (cs : List Char) : List Piece := piecesFrom 0 0 [] cs

/-- A text without the backslashes before opening brackets. -/
def unescape : List Char → List Char
  | '\\' :: '[' :: cs => '[' :: unescape cs
  | c :: cs => c :: unescape cs
  | [] => []

/-- The control characters that a console does not show. -/
def hiddenControls : List Char := ['\x07', '\x08', '\x0b', '\x0c', '\r']

/-- What the console shows of a piece without tags. -/
def shownPlain (cs : List Char) : List Char :=
  (replaceEmoji (unescape cs)).filter fun c => !(hiddenControls.contains c)

/-- What the console shows of pieces while styles are open, the last one first. Of a tag only the
name counts, which ends before an equals sign. -/
def shownFrom : (opened : List String) → List Piece → Except MarkupDefect (List Char)
  | _, [] => .ok []
  | opened, .plain cs :: rest => (shownPlain cs ++ ·) <$> shownFrom opened rest
  | opened, .tag content position :: rest =>
    match content.takeWhile (· ≠ '=') with
    | '/' :: name =>
      let name := trim isBlank name
      if name = [] then
        match opened with
        | [] => .error (.nothingToClose position)
        | _ :: opened => shownFrom opened rest
      else if opened.contains (canonicalName name) then
        shownFrom (opened.erase (canonicalName name)) rest
      else .error (.unmatched (String.ofList content) position)
    | name => shownFrom (canonicalName name :: opened) rest

/-- What the console shows of a marked-up text. -/
def shown (s : String) : Except MarkupDefect (List Char) := shownFrom [] (pieces s.toList)

end Markup

end CertKeeper.Console
