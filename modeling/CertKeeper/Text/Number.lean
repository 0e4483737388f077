import CertKeeper.Text.Blank

/-!
# Whole numbers as people type them

Two grammars for a whole number: the lenient one of a command line argument or a stored version
label (`readInteger?`), which knows the digits of every script, and the one of a settings value
(`readSetting`), which knows ASCII digits only but allows a fraction of zeros.
-/

namespace CertKeeper.Text

/-- The characters with the value zero; the nine after each have the values one to nine. -/
def zeroDigits : List Nat :=
  [0x30, 0x660, 0x6f0, 0x7c0, 0x966, 0x9e6, 0xa66, 0xae6, 0xb66, 0xbe6, 0xc66, 0xce6, 0xd66,
   0xde6, 0xe50, 0xed0, 0xf20, 0x1040, 0x1090, 0x17e0, 0x1810, 0x1946, 0x19d0, 0x1a80, 0x1a90,
   0x1b50, 0x1bb0, 0x1c40, 0x1c50, 0xa620, 0xa8d0, 0xa900, 0xa9d0, 0xa9f0, 0xaa50, 0xabf0,
   0xff10, 0x104a0, 0x10d30, 0x11066, 0x110f0, 0x11136, 0x111d0, 0x112f0, 0x11450, 0x114d0,
   0x11650, 0x116c0, 0x11730, 0x118e0, 0x11950, 0x11c50, 0x11d50, 0x11da0, 0x11f50, 0x16a60,
   0x16ac0, 0x16b50, 0x1d7ce, 0x1d7d8, 0x1d7e2, 0x1d7ec, 0x1d7f6, 0x1e140, 0x1e2f0, 0x1e4f0,
   0x1e950, 0x1fbf0]

/-- The number that ASCII digits denote. -/
def digitsValue (digits : List Char) : Nat := digits.foldl (fun n c => 10 * n + (c.toNat - 0x30)) 0

/-- The value of a decimal digit of any script. -/
def digitValue? (c : Char) : Option Nat :=
  (zeroDigits.find? fun z => z ≤ c.toNat && c.toNat < z + 10).map fun z => c.toNat - z

/-- The number that digits of any script denote; a single underscore may stand between two digits.
The first argument is the number read so far. -/
def readDigits? : Nat → List Char → Option Nat
  | n, [] => some n
  | n, '_' :: c :: rest =>
    match digitValue? c with
    | some d => readDigits? (10 * n + d) rest
    | none => none
  | n, c :: rest =>
    match digitValue? c with
    | some d => readDigits? (10 * n + d) rest
    | none => none

/-- A number without a sign: at least one digit, and a digit first. -/
def readNatural? : List Char → Option Nat
  | [] => none
  | c :: rest => (digitValue? c).bind fun d => readDigits? d rest

/-- A whole number as typed by a person: blanks around it, a sign, digits of any script. -/
def readInteger? (s : String) : Option Int :=
  match trim isBlank s.toList with
  | '-' :: rest => (readNatural? rest).map fun n => -(n : Int)
  | '+' :: rest => (readNatural? rest).map Int.ofNat
  | cs => (readNatural? cs).map Int.ofNat

/-- Why a settings value is no whole number. -/
inductive IntegerDefect where
  /-- The text is no number. -/
  | noNumber
  /-- The text has more digits than are read. -/
  | tooLong
  deriving DecidableEq, Repr

/-- The longest text that is read as a number of a settings value. -/
def maxNumberLength : Nat := 4300

/-- A number without its leading zeros, among which any number of underscores may stand. A zero that
is the whole number stays; a number must start with a digit or a minus sign. -/
def dropLeadingZeros? (cs : List Char) : Option (List Char) :=
  match cs with
  | '0' :: _ =>
    let filler (c : Char) : Bool := c = '0' || c = '_'
    match cs.dropWhile filler with
    | [] => if cs.getLast? = some '0' then some ['0'] else none
    | '.' :: rest =>
      if (cs.takeWhile filler).getLast? = some '0' then some ('0' :: '.' :: rest) else none
    | c :: rest => if c.isDigit then some (c :: rest) else none
  | c :: _ => if c.isDigit ∨ c = '-' then some cs else none
  | [] => none

/-- A number without a fraction that consists of zeros. -/
def dropZeroFraction (cs : List Char) : List Char :=
  match cs.dropWhile (· ≠ '.') with
  | '.' :: zeros => if zeros.all (· = '0') then cs.takeWhile (· ≠ '.') else cs
  | _ => cs

/-- A number without its underscores, which stand alone and neither first nor last. -/
def dropUnderscores? (cs : List Char) : Option (List Char) :=
  let lone (a b : Char) : Bool := !(a = '_' && b = '_')
  if cs.head? ≠ some '_' ∧ cs.getLast? ≠ some '_' ∧ (cs.zip (cs.drop 1)).all fun p => lone p.1 p.2
  then some (cs.filter (· ≠ '_')) else none

/-- A whole number in its plain form: perhaps a minus sign, then digits, of which the first one is
not zero unless it is the only one. -/
def readPlain? (cs : List Char) : Option Int :=
  match cs with
  | '-' :: '0' :: _ :: _ => none
  | '-' :: digits => (readAscii? digits).map fun n : Nat => -(n : Int)
  | digits => (readAscii? digits).map Int.ofNat
where
  /-- The number that one or more ASCII digits denote. -/
  readAscii? (digits : List Char) : Option Nat :=
    if !digits.isEmpty ∧ digits.all Char.isDigit then
      some (digitsValue digits)
    else none

/-- A number without its plus sign; no minus sign may follow it. -/
def dropPlus? : List Char → Option (List Char)
  | '+' :: '-' :: _ => none
  | '+' :: rest => some rest
  | cs => some cs

/-- The plain form of a number with white space around it. -/
def plainForm? (cs : List Char) : Option (List Char) := do
  let cs ← dropLeadingZeros? (← dropPlus? (trim isSpace cs))
  dropUnderscores? (dropZeroFraction cs)

/-- A whole number as a settings value: white space around it, a sign, ASCII digits and perhaps a
fraction of zeros. Leading zeros are for positive numbers only. -/
def readSetting (s : String) : Except IntegerDefect Int :=
  match plainForm? s.toList with
  | none => .error .noNumber
  | some cs =>
    if maxNumberLength < cs.length then .error .tooLong
    else
      match readPlain? cs with
      | some n => .ok n
      | none => .error .noNumber

end CertKeeper.Text
