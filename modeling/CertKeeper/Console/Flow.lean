import CertKeeper.Text.Blank
import CertKeeper.Text.Width

/-!
# Lines of a width

A text flows into lines of a given width: tabs become blanks, lines end between words, and a word
that is longer than a line is either folded or cut. An aligned line is filled up with blanks.
-/

namespace CertKeeper.Console

open Text

/-- Where a text stands in its lines. -/
inductive Alignment where
  /-- At the start, without blanks behind it. -/
  | natural
  /-- At the start of lines that are filled up with blanks. -/
  | left
  /-- In the middle of lines that are filled up with blanks. -/
  | center
  deriving DecidableEq, Repr

/-- How a text flows into lines. -/
structure Flow where
  /-- The cells of a line. -/
  width : Nat
  alignment : Alignment
  /-- Whether long words are folded into several lines; they are cut otherwise. -/
  folds : Bool

/-- The distance of tab stops in cells. -/
def tabSize : Nat := 8

/-- A text with blanks up to the next stop for every tab. The first argument is the cell that it
starts in. -/
def expandTabs : Nat → List Char → List Char
  | _, [] => []
  | cell, c :: cs =>
    if c = '\t' then
      let n := tabSize - cell % tabSize
      List.replicate n ' ' ++ expandTabs (cell + n) cs
    else c :: expandTabs (cell + cells c) cs

/-- A text without the blanks at its end. -/
def trimEnd (cs : List Char) : List Char := (cs.reverse.dropWhile isBlank).reverse

/-- Puts a character before groups that consist of a word with blanks behind it. -/
def addToGroups (c : Char) : List (List Char) → List (List Char)
  | [] => [[c]]
  | group :: rest =>
    if isBlank c && group.head?.any (!isBlank ·) then [c] :: group :: rest
    else (c :: group) :: rest

/-- The words of a text with the blanks behind them; blanks before the first word belong to it. -/
def groups (cs : List Char) : List (List Char) :=
  match cs.foldr addToGroups [] with
  | [] => []
  | [only] => if only.all isBlank then [] else [only]
  | first :: second :: rest =>
    if first.all isBlank then (first ++ second) :: rest else first :: second :: rest

namespace Flow

variable (f : Flow)

/-- The parts of a word that fit into lines, where some cells of the first line are taken. -/
def chop : (used : Nat) → List Char → List (List Char)
  | _, [] => [[]]
  | used, c :: cs =>
    let fits := used + cells c ≤ f.width
    match chop (if fits then used + cells c else cells c) cs with
    | [] => [[c]]
    | part :: rest => if fits then (c :: part) :: rest else [] :: (c :: part) :: rest

/-- The positions at which the given parts start. -/
def starts : Nat → List (List Char) → List Nat
  | _, [] => []
  | start, part :: rest => start :: starts (start + part.length) rest

/-- The positions of a text at which a line ends, for the groups from a position on where some cells
of the line are taken. -/
def breaks : (start used : Nat) → List (List Char) → List Nat
  | _, _, [] => []
  | start, used, group :: rest =>
    let next := start + group.length
    let needed := Text.width (trimEnd group)
    if used + needed ≤ f.width then breaks next (used + Text.width group) rest
    else if f.width < needed && f.folds then
      let parts := f.chop 0 group
      (starts start parts).filter (· ≠ 0) ++ breaks next (Text.width (parts.getLastD [])) rest
    else [start].filter (· ≠ 0) ++ breaks next (Text.width group) rest

/-- A text, whose first character has a position, divided at positions. -/
def divide : (start : Nat) → List Nat → List Char → List (List Char)
  | _, [], cs => [cs]
  | start, stop :: rest, cs => cs.take (stop - start) :: divide stop rest (cs.drop (stop - start))

/-- A line without those blanks at its end that stand beyond the width. -/
def trimExcess (cs : List Char) : List Char :=
  let blanks := cs.length - (trimEnd cs).length
  cs.take (cs.length - min blanks (cs.length - f.width))

/-- A line that is not wider than it may be. -/
def cut (cs : List Char) : List Char :=
  if Text.width cs ≤ f.width then cs
  else if f.folds || f.width = 0 then fitCells f.width cs
  else fitCells (f.width - 1) cs ++ ['…']

/-- A line in its place. -/
def place (cs : List Char) : List Char :=
  match f.alignment with
  | .natural => f.cut cs
  | .left => padCells f.width (f.cut cs)
  | .center =>
    let text := f.cut (trimEnd cs)
    padCells f.width (List.replicate ((f.width - Text.width text) / 2) ' ' ++ text)

/-- The lines of a text. -/
def lines (cs : List Char) : List (List Char) :=
  (cs.splitOn '\n').flatMap fun line =>
    let line := expandTabs 0 line
    (divide 0 (f.breaks 0 0 (groups line)) line).map fun part => f.place (f.trimExcess part)

end Flow

end CertKeeper.Console
