import CertKeeper.Encoding.Base64
import CertKeeper.Text.Blank
import CertKeeper.Text.Utf8

/-!
# Labelled text blocks

Octets in base 64 between a line that begins and a line that ends a block with the same label, as
certificates and keys are stored. Any text may stand around the blocks; a block may open with
headers, which an empty line ends.
-/

namespace CertKeeper.Encoding.Pem

open Text

/-- A block: its label, its headers and the octets it holds. -/
structure Block where
  label : String
  headers : List (String × String)
  content : Bytes
  deriving DecidableEq, Repr

/-- The parts of a block as they stand in the text. -/
structure Frame where
  label : Bytes
  body : Bytes
  endLabel : Bytes

/-- Whether an octet is a gap between the first line of a block and its body. -/
def isGap (b : UInt8) : Bool := b == 0x20 || b == 0x09 || b == 0x0a || b == 0x0d

/-- The text with which the first line of a block starts. -/
def opening : Bytes := Bytes.ascii "-----BEGIN "

/-- The text with which the last line of a block starts. -/
def closing : Bytes := Bytes.ascii "-----END "

/-- The text after a label. -/
def labelEnd : Bytes := Bytes.ascii "-----"

/-- The next block of a text and what follows it. -/
def readFrame? (b : Bytes) : Option (Frame × Bytes) := do
  let (_, b) ← Bytes.cut? opening b
  let (label, b) ← Bytes.cut? labelEnd b
  let (body, b) ← Bytes.cut? closing (b.dropWhile isGap)
  let (endLabel, b) ← Bytes.cut? labelEnd b
  some (⟨label, body, endLabel⟩, b)

/-- The blocks of a text, at most the given number of them. -/
def frames : Nat → Bytes → List Frame
  | 0, _ => []
  | n + 1, b =>
    match readFrame? b with
    | none => []
    | some (f, rest) => f :: frames n rest

/-- The lines of a text without their ends. -/
def lines (cs : List Char) : List (List Char) :=
  let step (c : Char) (ls : List (List Char)) : List (List Char) :=
    match c, ls with
    | '\n', ls => [] :: ls
    | c, [] => [[c]]
    | c, l :: rest => (c :: l) :: rest
  (cs.foldr step []).map fun l => if l.getLast? = some '\r' then l.dropLast else l

/-- A header: a name, a colon and a value. -/
def readHeader? (line : List Char) : Option (String × String) :=
  match line.dropWhile (· ≠ ':') with
  | ':' :: value =>
    some (String.ofList (trim isSpace (line.takeWhile (· ≠ ':'))),
      String.ofList (trim isSpace value))
  | _ => none

/-- The headers of a block's body and what stands after them. -/
def splitHeaders (body : Bytes) : Bytes × Bytes :=
  match Bytes.cut? [0x0a, 0x0a] body with
  | some p => p
  | none =>
    match Bytes.cut? [0x0d, 0x0a, 0x0d, 0x0a] body with
    | some p => p
    | none => ([], body)

/-- The octets that a text in base 64 stands for, white space aside. -/
def readData? (data : Bytes) : Option Bytes := do
  let text ← Utf8.decode? data
  Base64.decode? (Utf8.encode (String.ofList (text.toList.filter fun c => !(isSpace c))))

/-- The block that a frame holds, if it is well formed. -/
def Frame.block? (f : Frame) : Option Block := do
  let label ← Utf8.decode? f.label
  if f.label.isEmpty ∨ f.label ≠ f.endLabel then none
  else
    let (headers, data) := splitHeaders f.body
    let content ← readData? data
    let text ← Utf8.decode? headers
    let headers ← ((lines text.toList).filter (· ≠ [])).mapM readHeader?
    some ⟨label, headers, content⟩

/-- All blocks of a text; one broken block spoils the whole text, and so does a text without any. -/
def blocks? (b : Bytes) : Option (List Block) :=
  match frames b.length b with
  | [] => none
  | fs => fs.mapM Frame.block?

/-- The value of a header; the last one of that name counts. -/
def Block.header? (b : Block) (name : String) : Option String := b.headers.reverse.lookup name

/-- Characters in lines of the given width, each with a line end; the counter says how much of the
current line is used. -/
def wrapFrom (width : Nat) : Nat → Bytes → Bytes
  | 0, [] => []
  | _ + 1, [] => [0x0a]
  | used, c :: rest =>
    if used + 1 = width then c :: 0x0a :: wrapFrom width 0 rest
    else c :: wrapFrom width (used + 1) rest

/-- The text of a block without headers. -/
def write (label : String) (content : Bytes) : Bytes :=
  opening ++ Utf8.encode label ++ labelEnd ++ 0x0a :: wrapFrom 64 0 (Base64.encode content)
    ++ closing ++ Utf8.encode label ++ labelEnd ++ [0x0a]

end CertKeeper.Encoding.Pem
