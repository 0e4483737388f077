import CertKeeper.Bytes

/-!
# UTF-8

Writing and strict reading of text as octets. A reading that fails names the octets at fault and
what is wrong with them.
-/

namespace CertKeeper.Text.Utf8

/-- The octet with the given value. -/
private def octet (n : Nat) : UInt8 := UInt8.ofNat n

/-- The octets of one character. -/
def encodeChar (c : Char) : Bytes :=
  let n := c.toNat
  if n < 0x80 then [octet n]
  else if n < 0x800 then [octet (0xC0 + n / 0x40), octet (0x80 + n % 0x40)]
  else if n < 0x10000 then
    [octet (0xE0 + n / 0x1000), octet (0x80 + n / 0x40 % 0x40), octet (0x80 + n % 0x40)]
  else
    [octet (0xF0 + n / 0x40000), octet (0x80 + n / 0x1000 % 0x40),
      octet (0x80 + n / 0x40 % 0x40), octet (0x80 + n % 0x40)]

/-- The octets of a text. -/
def encode (s : String) : Bytes := s.toList.flatMap encodeChar

/-- What is wrong with octets that are no text. -/
inductive DefectKind where
  /-- An octet that begins no character. -/
  | invalidStart
  /-- A character that is broken off by an octet that cannot continue it. -/
  | invalidContinuation
  /-- A character that is broken off by the end. -/
  | unexpectedEnd
  deriving DecidableEq, Repr

/-- Octets that cannot be read as text. -/
structure Defect where
  /-- The place of the first octet at fault. -/
  start : Nat
  /-- How many octets belong to the broken character. -/
  length : Nat
  /-- The first octet at fault. -/
  first : UInt8
  /-- What is wrong with them. -/
  kind : DefectKind
  deriving DecidableEq, Repr

/-- Whether an octet can stand in a character after its first octet. -/
def isContinuation (b : UInt8) : Bool := 0x80 ≤ b && b ≤ 0xBF

/-- Whether the second octet of a character of three or four octets fits to the first one: neither
an overlong form, nor a surrogate, nor a number above the last character. -/
def fitsAfter (a b : UInt8) : Bool :=
  isContinuation b &&
    !((a == 0xE0 && b < 0xA0) || (a == 0xED && 0xA0 ≤ b) ||
      (a == 0xF0 && b < 0x90) || (a == 0xF4 && 0x90 ≤ b))

/-- The six low bits of an octet. -/
def low6 (b : UInt8) : Nat := b.toNat % 0x40

/-- The characters of octets that stand at a given place of the whole sequence. -/
def decodeFrom (pos : Nat) : Bytes → Except Defect (List Char)
  | [] => .ok []
  | a :: r1 =>
    let broken (length : Nat) (kind : DefectKind) : Except Defect (List Char) :=
      .error ⟨pos, length, a, kind⟩
    if a < 0x80 then
      (decodeFrom (pos + 1) r1).map (Char.ofNat a.toNat :: ·)
    else if a < 0xC2 || 0xF5 ≤ a then
      broken 1 .invalidStart
    else
      match r1 with
      | [] => broken 1 .unexpectedEnd
      | b :: r2 =>
        if !(fitsAfter a b) then
          broken 1 .invalidContinuation
        else if a < 0xE0 then
          (decodeFrom (pos + 2) r2).map (Char.ofNat (a.toNat % 0x20 * 0x40 + low6 b) :: ·)
        else
          match r2 with
          | [] => broken 2 .unexpectedEnd
          | c :: r3 =>
            if !(isContinuation c) then
              broken 2 .invalidContinuation
            else if a < 0xF0 then
              (decodeFrom (pos + 3) r3).map
                (Char.ofNat (a.toNat % 0x10 * 0x1000 + low6 b * 0x40 + low6 c) :: ·)
            else
              match r3 with
              | [] => broken 3 .unexpectedEnd
              | d :: r4 =>
                if !(isContinuation d) then
                  broken 3 .invalidContinuation
                else
                  (decodeFrom (pos + 4) r4).map
                    (Char.ofNat (a.toNat % 0x08 * 0x40000 + low6 b * 0x1000 + low6 c * 0x40
                      + low6 d) :: ·)

/-- The text of octets. -/
def decode (b : Bytes) : Except Defect String := (decodeFrom 0 b).map String.ofList

/-- The text of octets, if they are one. -/
def decode? (b : Bytes) : Option String := (decode b).toOption

/-- A hexadecimal digit in lower case. -/
private def hexDigit (n : Nat) : Char := Nat.digitChar (n % 16)

/-- What a broken character is reported as. -/
def DefectKind.message : DefectKind → String
  | .invalidStart => "invalid start byte"
  | .invalidContinuation => "invalid continuation byte"
  | .unexpectedEnd => "unexpected end of data"

/-- The report names a single octet by its value and several by their places. -/
def Defect.message (d : Defect) : String :=
  let what :=
    if d.length = 1 then
      "byte 0x" ++ String.ofList [hexDigit (d.first.toNat / 16), hexDigit d.first.toNat] ++
        " in position " ++ toString d.start
    else "bytes in position " ++ toString d.start ++ "-" ++ toString (d.start + d.length - 1)
  "'utf-8' codec can't decode " ++ what ++ ": " ++ d.kind.message

end CertKeeper.Text.Utf8
