import CertKeeper.Encoding.Der
import CertKeeper.Text.Quoted
import CertKeeper.Text.Utf8

/-!
# Distinguished names

Who a certificate is for and who issued it: a path of attributes. Two names are the same if they
are encoded the same. The written form starts with the last part of the path.
-/

namespace CertKeeper.X509

open Encoding Der Text

/-- A kind of attribute and its value. -/
structure Attribute where
  kind : Oid
  value : Element
  deriving DecidableEq, Repr

/-- The parts of a name; a part has one attribute or several. -/
structure Name where
  parts : List (List Attribute)
  deriving DecidableEq, Repr

/-- The common name. -/
def oidCommonName : Oid := ⟨[2, 5, 4, 3]⟩

/-- The organization. -/
def oidOrganization : Oid := ⟨[2, 5, 4, 10]⟩

/-- A string of bits that tells bearers of one name apart. -/
def oidUniqueIdentifier : Oid := ⟨[2, 5, 4, 45]⟩

/-- The short names of common kinds of attributes. -/
def shortNames : List (Oid × String) :=
  [(oidCommonName, "CN"), (⟨[2, 5, 4, 7]⟩, "L"), (⟨[2, 5, 4, 8]⟩, "ST"), (oidOrganization, "O"),
    (⟨[2, 5, 4, 11]⟩, "OU"), (⟨[2, 5, 4, 6]⟩, "C"), (⟨[2, 5, 4, 9]⟩, "STREET"),
    (⟨[0, 9, 2342, 19200300, 100, 1, 25]⟩, "DC"), (⟨[0, 9, 2342, 19200300, 100, 1, 1]⟩, "UID")]

/-- Why a name has no text. -/
inductive NameDefect where
  /-- A part without attributes. -/
  | emptyPart
  /-- A part with the same attribute twice. -/
  | duplicate
  /-- Octets that are no text. -/
  | noText
  /-- A string of bits in another attribute than the unique identifier. -/
  | misplacedBits
  /-- A type that no attribute has. -/
  | unknownType (number : Nat)
  deriving DecidableEq, Repr

/-- The wording of a defect. -/
def NameDefect.message : NameDefect → String
  | .emptyPart => "a relative distinguished name cannot be empty"
  | .duplicate => "duplicate attributes are not allowed"
  | .noText => "<asn1>"
  | .misplacedBits => "oid must be X500_UNIQUE_IDENTIFIER for BitString type."
  | .unknownType number => toString number

/-- The text of octets, two for each unit of UTF-16; units of surrogates are refused. -/
def textOfPairs? : Bytes → Option (List Char)
  | [] => some []
  | a :: b :: rest =>
    let n := a.toNat * 256 + b.toNat
    if 0xD800 ≤ n ∧ n < 0xE000 then none else (textOfPairs? rest).map (Char.ofNat n :: ·)
  | _ => none

/-- The text of octets, four for each character. -/
def textOfQuadruples? : Bytes → Option (List Char)
  | [] => some []
  | a :: b :: c :: d :: rest =>
    let n := ((a.toNat * 256 + b.toNat) * 256 + c.toNat) * 256 + d.toNat
    if n.isValidChar then (textOfQuadruples? rest).map (Char.ofNat n :: ·) else none
  | _ => none

/-- Whether an octet is a printable character: a letter, a digit, a blank or one of a few marks. -/
def isPrintable (b : UInt8) : Bool :=
  (0x41 ≤ b && b ≤ 0x5a) || (0x61 ≤ b && b ≤ 0x7a) || (0x30 ≤ b && b ≤ 0x39) ||
    (Bytes.ascii " '()+,-./:=?").contains b

/-- The number that a type has as the first octet of an encoding. -/
def typeNumber (t : Tag) : Nat := t.leading + min t.number 31

/-- The types that an attribute's value may have. -/
def valueTypes : List Nat := [3, 4, 12, 18, 19, 20, 22, 23, 24, 26, 28, 30]

namespace Attribute

/-- An attribute whose value is text in UTF-8. -/
def ofText (kind : Oid) (s : String) : Attribute := ⟨kind, ⟨.utf8String, Utf8.encode s⟩⟩

/-- The text of an attribute's value; a string of bits has its octets in hexadecimal digits. -/
def text? (a : Attribute) : Except NameDefect String :=
  let chars? : Option (List Char) :=
    if a.value.tag = .bmpString then textOfPairs? a.value.content
    else if a.value.tag = .universalString then textOfQuadruples? a.value.content
    else (Utf8.decode? a.value.content).map String.toList
  if !(valueTypes.contains (typeNumber a.value.tag)) then
    .error (.unknownType (typeNumber a.value.tag))
  else if a.value.tag = .bitString then
    if a.kind = oidUniqueIdentifier then
      .ok (String.ofList ('#' :: a.value.content.flatMap fun b => hex 2 b.toNat))
    else .error .misplacedBits
  else
    match chars? with
    | some cs => .ok (String.ofList cs)
    | none => .error .noText

/-- The attribute that an element is. -/
def ofElement? (e : Element) : Option Attribute := do
  match ← e.sequence? with
  | [kind, value] =>
    let kind ← kind.oid?
    let readable :=
      if value.tag = .bmpString then (textOfPairs? value.content).isSome
      else if value.tag = .universalString then (textOfQuadruples? value.content).isSome
      else value.tag ≠ .printableString || value.content.all isPrintable
    if readable then some ⟨kind, value⟩ else none
  | _ => none

/-- The element of an attribute. -/
def element (a : Attribute) : Element := Element.sequence [Element.oid a.kind, a.value]

end Attribute

/-- Whether encodings are in ascending order. -/
def isAscending : List Bytes → Bool
  | a :: b :: rest => Bytes.le a b && isAscending (b :: rest)
  | _ => true

/-- Characters that are written after a backslash anywhere in a value. -/
def escapedCharacters : List Char := ['\\', '"', '+', ',', ';', '<', '>']

/-- A value with its special characters escaped: some everywhere, a blank at the end, a blank or a
number sign at the start. -/
def escapeValue (cs : List Char) : List Char :=
  let one (c : Char) : List Char :=
    if escapedCharacters.contains c then ['\\', c]
    else if c = '\x00' then ['\\', '0', '0']
    else [c]
  let body := cs.flatMap one
  let body := if body.getLast? = some ' ' then body.dropLast ++ ['\\', ' '] else body
  match body with
  | c :: _ => if c = '#' ∨ c = ' ' then '\\' :: body else body
  | [] => body

namespace Name

/-- The name that an element is: each part is a set, in the order of its encodings. -/
def ofElement? (e : Element) : Option Name := do
  let parts ← e.sequence?
  let read (p : Element) : Option (List Attribute) := do
    let items ← p.items? .set
    if isAscending (items.map Element.encode) then items.mapM Attribute.ofElement? else none
  some ⟨← parts.mapM read⟩

/-- The element of a name. -/
def element (n : Name) : Element :=
  Element.sequence (n.parts.map fun p => Element.group .set (p.map Attribute.element))

/-- A name that consists of a common name and an organization. -/
def ofCommonName (commonName organization : String) : Name :=
  ⟨[[.ofText oidCommonName commonName], [.ofText oidOrganization organization]]⟩

/-- The kinds and texts of all attributes, part by part. -/
def texts? (n : Name) : Except NameDefect (List (List (Attribute × String))) :=
  n.parts.mapM fun part => do
    let texts ← part.mapM fun a => do return (a, ← a.text?)
    if part.isEmpty then throw .emptyPart
    if !(decide part.Nodup) then throw .duplicate
    return texts

/-- The first organization in a name. -/
def organization? (n : Name) : Except NameDefect (Option String) := do
  let parts ← n.texts?
  return (parts.flatten.find? fun p => p.1.kind = oidOrganization).map Prod.snd

/-- An attribute as its kind, an equals sign and its value. -/
def attributeText (a : Attribute) (s : String) : String :=
  let kind := (shortNames.lookup a.kind).getD a.kind.text
  let value := if a.value.tag = .bitString then s else String.ofList (escapeValue s.toList)
  kind ++ "=" ++ value

/-- The written form of a name: its parts with the last one first. -/
def text? (n : Name) : Except NameDefect String := do
  let parts ← n.texts?
  let written := parts.map fun p => String.intercalate "+" (p.map fun q => attributeText q.1 q.2)
  return String.intercalate "," written.reverse

end Name

end CertKeeper.X509
