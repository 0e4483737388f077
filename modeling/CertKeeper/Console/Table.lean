import CertKeeper.Console.Flow
import CertKeeper.Console.Markup

/-!
# Tables on a console

A table has a title in the middle above it, perhaps a row of headers, and rows of cells in a frame.
A column is as wide as its widest cell needs; where the table would be wider than the console, the
widest columns give way.
-/

namespace CertKeeper.Console

open Text

/-- A column of a table. -/
structure Column where
  header : String
  alignment : Alignment

/-- A table of marked-up texts. -/
structure Table where
  title : String
  columns : List Column
  /-- Whether the headers of the columns are shown. -/
  showHeader : Bool
  rows : List (List String)

/-- The characters of a line across a table, or of the borders of a row. -/
structure Border where
  left : Char
  fill : Char
  divider : Char
  right : Char

/-- The frame of a table. -/
structure Frame where
  top : Border
  header : Border
  headerRule : Border
  row : Border
  bottom : Border

/-- The frame of a table with headers. -/
def Frame.headed : Frame where
  top := ⟨'┏', '━', '┳', '┓'⟩
  header := ⟨'┃', ' ', '┃', '┃'⟩
  headerRule := ⟨'┡', '━', '╇', '┩'⟩
  row := ⟨'│', ' ', '│', '│'⟩
  bottom := ⟨'└', '─', '┴', '┘'⟩

/-- The frame of a table without headers. -/
def Frame.simple : Frame :=
  { Frame.headed with
    top := ⟨'┌', '─', '┬', '┐'⟩
    header := ⟨'│', ' ', '│', '│'⟩
    headerRule := ⟨'├', '─', '┼', '┤'⟩ }

namespace Border

variable (b : Border)

/-- A row of contents between borders. -/
def row (contents : List (List Char)) : List Char :=
  b.left :: List.intercalate [b.divider] contents ++ [b.right]

/-- A line across columns of the given widths. -/
def rule (widths : List Nat) : List Char := b.row (widths.map fun n => List.replicate n b.fill)

end Border

/-- A quotient, rounded to the nearest whole number, to the even one of two. -/
def roundedQuotient (n d : Nat) : Nat :=
  let q := n / d
  let r := n % d
  if 2 * r < d then q else if d < 2 * r then q + 1 else q + q % 2

/-- The widths with an excess taken from those that are equal to the greatest one, which are counted
by the third argument, and no more than a limit from each. -/
def reduceWidest (greatest limit : Nat) : (excess count : Nat) → List Nat → List Nat
  | _, _, [] => []
  | excess, count, w :: rest =>
    if w = greatest then
      let taken := min limit (roundedQuotient excess count)
      (w - taken) :: reduceWidest greatest limit (excess - taken) (count - 1) rest
    else w :: reduceWidest greatest limit excess count rest

/-- The sum of widths. -/
def totalWidth (widths : List Nat) : Nat := widths.foldl (· + ·) 0

/-- The widths reduced until their sum is at most a limit: the widest columns give way first, down
to the next narrower ones. The first argument bounds the number of steps. -/
def collapseWidths (limit : Nat) : Nat → List Nat → List Nat
  | 0, widths => widths
  | steps + 1, widths =>
    let excess := totalWidth widths - limit
    if excess = 0 then widths
    else
      let greatest := widths.foldl max 0
      let next := (widths.filter (· ≠ greatest)).foldl max 0
      let reduced := reduceWidest greatest (min excess (greatest - next)) excess
        (widths.count greatest) widths
      collapseWidths limit steps reduced

/-- The characters that end a line where the width of a text is measured. -/
def isLineEnd (c : Char) : Bool :=
  let n := c.toNat
  (0x0a ≤ n && n ≤ 0x0d) || (0x1c ≤ n && n ≤ 0x1e) || n = 0x85 || n = 0x2028 || n = 0x2029

/-- The cells that a text needs: those of its widest line. -/
def neededWidth (cs : List Char) : Nat := ((cs.splitOnP isLineEnd).map width).foldl max 0

namespace Table

variable (t : Table)

/-- The marked-up texts of a column from the top, its header included if it is shown. -/
def columnTexts (column : Column × Nat) : List String :=
  (if t.showHeader then [column.1.header] else []) ++
    t.rows.map fun row => row.getD column.2 ""

/-- What the console shows of the columns. -/
def shownColumns : Except MarkupDefect (List (List (List Char))) :=
  t.columns.zipIdx.mapM fun column => (t.columnTexts column).mapM Markup.shown

/-- The cells between the outer borders and the contents, and between contents. -/
def frameWidth : Nat := t.columns.length + 1

/-- The widths of columns with their blanks, on a console of a number of cells. -/
def widths (console : Nat) (columns : List (List (List Char))) : List Nat :=
  let available := console - t.frameWidth
  let natural := columns.map fun column =>
    max 1 (min available ((column.map fun cs => neededWidth cs + 2).foldl max 0))
  collapseWidths available (totalWidth natural) natural

/-- The lines of a cell in a column of a width, with a blank on either side. -/
def cellLines (width : Nat) (alignment : Alignment) (cs : List Char) : List (List Char) :=
  ((⟨width - 2, alignment, false⟩ : Flow).lines cs).map fun line => ' ' :: line ++ [' ']

/-- The lines of a row. -/
def rowLines (border : Border) (widths : List Nat) (contents : List (List Char)) :
    List (List Char) :=
  let cells := (t.columns.zip (widths.zip contents)).map fun c =>
    (c.2.1, cellLines c.2.1 c.1.alignment c.2.2)
  let height := (cells.map fun c => c.2.length).foldl max 1
  (List.range height).map fun n =>
    border.row (cells.map fun c => c.2.getD n (List.replicate c.1 ' '))

/-- The rows of columns. -/
def transposed (columns : List (List (List Char))) : List (List (List Char)) :=
  let height := (columns.map List.length).foldl max 0
  (List.range height).map fun n => columns.map fun column => column.getD n []

/-- The lines of a table on a console of a number of cells. -/
def lines (console : Nat) : Except MarkupDefect (List (List Char)) := do
  let columns ← t.shownColumns
  let title ← Markup.shown t.title
  let widths := t.widths console columns
  let titleLines := (⟨totalWidth widths + t.frameWidth, .center, true⟩ : Flow).lines title
  let frame := if t.showHeader then Frame.headed else Frame.simple
  let rows := transposed columns
  let headers := if t.showHeader then rows.take 1 else []
  let headerLines := headers.flatMap (t.rowLines frame.header widths)
  let headerRule := headers.map fun _ => frame.headerRule.rule widths
  let bodyLines := (rows.drop headers.length).flatMap (t.rowLines frame.row widths)
  return titleLines ++ [frame.top.rule widths] ++ headerLines ++ headerRule ++ bodyLines ++
    [frame.bottom.rule widths]

end Table

/-- The text of lines. -/
def textOfLines (lines : List (List Char)) : String :=
  String.ofList (lines.flatMap fun line => line ++ ['\n'])

/-- The lines of a marked-up text on a console of a number of cells. -/
def linesOfMarkup (console : Nat) (s : String) : Except MarkupDefect (List (List Char)) := do
  return (⟨console, .natural, true⟩ : Flow).lines (← Markup.shown s)

end CertKeeper.Console
