import CertKeeper.Encoding.Oid

/-!
# Distinguished encoding

Tagged elements with definite lengths in the one encoding that each of them has. An element keeps
its content as octets; what the content consists of is read when it is asked for. Readers are
strict: a length in more octets than it needs, a padded number or trailing octets are refused.
-/

namespace CertKeeper.Encoding.Der

/-- The four classes of tags. -/
inductive TagClass where
  | universal
  | application
  | context
  | privateUse
  deriving DecidableEq, Repr

/-- The number of a class in the two highest bits of a tag. -/
def TagClass.number : TagClass → Nat
  | .universal => 0
  | .application => 1
  | .context => 2
  | .privateUse => 3

/-- The class with a number. -/
def TagClass.ofNumber : Nat → TagClass
  | 0 => .universal
  | 1 => .application
  | 2 => .context
  | _ => .privateUse

/-- What an element is: the class of its tag, whether it consists of elements, and a number. -/
structure Tag where
  tagClass : TagClass
  constructed : Bool
  number : Nat
  deriving DecidableEq, Repr

/-- A tag and the octets under it. -/
structure Element where
  tag : Tag
  content : Bytes
  deriving DecidableEq, Repr

namespace Tag

/-- A tag of the basic types. -/
def universal (number : Nat) : Tag := ⟨.universal, false, number⟩

/-- A context tag of a basic value. -/
def context (number : Nat) : Tag := ⟨.context, false, number⟩

/-- A context tag around elements. -/
def wrapper (number : Nat) : Tag := ⟨.context, true, number⟩

/-- A truth value. -/
def boolean : Tag := universal 1

/-- A signed number. -/
def integer : Tag := universal 2

/-- A string of bits. -/
def bitString : Tag := universal 3

/-- A string of octets. -/
def octetString : Tag := universal 4

/-- The absence of a value. -/
def null : Tag := universal 5

/-- An object identifier. -/
def oid : Tag := universal 6

/-- Text in UTF-8. -/
def utf8String : Tag := universal 12

/-- Text of letters, digits and a few marks. -/
def printableString : Tag := universal 19

/-- A time whose year has two digits. -/
def utcTime : Tag := universal 23

/-- A time whose year has four digits. -/
def generalizedTime : Tag := universal 24

/-- Text of characters in four octets each. -/
def universalString : Tag := universal 28

/-- Text of characters in two octets each. -/
def bmpString : Tag := universal 30

/-- Elements in an order that matters. -/
def sequence : Tag := ⟨.universal, true, 16⟩

/-- Elements in an order that does not matter. -/
def set : Tag := ⟨.universal, true, 17⟩

/-- The bits of class and form in the first octet. -/
def leading (t : Tag) : Nat := t.tagClass.number * 64 + if t.constructed then 32 else 0

/-- The octets of a tag. -/
def octets (t : Tag) : Bytes :=
  if t.number < 31 then [UInt8.ofNat (t.leading + t.number)]
  else UInt8.ofNat (t.leading + 31) :: Oid.numberOctets t.number

end Tag

/-- The octets of a length: itself if it is short, else the number of its octets and they. -/
def lengthOctets (n : Nat) : Bytes :=
  if n < 128 then [UInt8.ofNat n]
  else UInt8.ofNat (128 + Bytes.octetCount n) :: Bytes.ofNat n

/-- The octets of an element. -/
def Element.encode (e : Element) : Bytes :=
  e.tag.octets ++ lengthOctets e.content.length ++ e.content

/-- A number in octets in which the high bit says that it goes on, and the rest. -/
def readNumber? (n : Nat) : Bytes → Option (Nat × Bytes)
  | [] => none
  | b :: rest =>
    if n = 0 ∧ b = 0x80 then none
    else if b < 0x80 then some (n * 128 + b.toNat, rest)
    else readNumber? (n * 128 + (b.toNat - 128)) rest

/-- The tag at the start of octets, and the rest. -/
def readTag? : Bytes → Option (Tag × Bytes)
  | [] => none
  | b :: rest =>
    let tagClass := TagClass.ofNumber (b.toNat / 64)
    let constructed := b.toNat / 32 % 2 == 1
    let low := b.toNat % 32
    if low < 31 then some (⟨tagClass, constructed, low⟩, rest)
    else
      match readNumber? 0 rest with
      | some (n, rest) => if n < 31 then none else some (⟨tagClass, constructed, n⟩, rest)
      | none => none

/-- The length at the start of octets, and the rest. A length takes at most four octets and no more
than it needs. -/
def readLength? : Bytes → Option (Nat × Bytes)
  | [] => none
  | b :: rest =>
    if b < 0x80 then some (b.toNat, rest)
    else
      let count := b.toNat - 128
      let digits := rest.take count
      let n := Bytes.toNat digits
      if 1 ≤ count ∧ count ≤ 4 ∧ digits.length = count ∧ 128 ≤ n ∧ Bytes.octetCount n = count then
        some (n, rest.drop count)
      else none

/-- The element at the start of octets, and the rest. -/
def readElement? (b : Bytes) : Option (Element × Bytes) := do
  let (tag, b) ← readTag? b
  let (length, b) ← readLength? b
  if length ≤ b.length then some (⟨tag, b.take length⟩, b.drop length) else none

/-- The elements that octets consist of. -/
def readElements? (b : Bytes) : Option (List Element) := readAll readElement? b

/-- The only element that octets consist of. -/
def readOnly? (b : Bytes) : Option Element :=
  match readElement? b with
  | some (e, []) => some e
  | _ => none

namespace Element

/-- An element that consists of elements. -/
def group (tag : Tag) (items : List Element) : Element := ⟨tag, items.flatMap encode⟩

/-- A sequence. -/
def sequence (items : List Element) : Element := group .sequence items

/-- The absence of a value. -/
def null : Element := ⟨.null, []⟩

/-- A truth value. -/
def boolean (b : Bool) : Element := ⟨.boolean, [if b then 0xff else 0x00]⟩

/-- The octets of a number that is not negative: its high bit is clear. -/
def naturalOctets (n : Nat) : Bytes :=
  let b := Bytes.ofNat n
  match b with
  | [] => [0]
  | x :: _ => if x < 0x80 then b else 0 :: b

/-- A number that is not negative. -/
def natural (n : Nat) : Element := ⟨.integer, naturalOctets n⟩

/-- An object identifier. -/
def oid (o : Oid) : Element := ⟨.oid, o.octets⟩

/-- Octets. -/
def octetString (b : Bytes) : Element := ⟨.octetString, b⟩

/-- Whole octets as a string of bits. -/
def bitString (b : Bytes) : Element := ⟨.bitString, 0 :: b⟩

/-- The content of an element with the given tag. -/
def content? (tag : Tag) (e : Element) : Option Bytes :=
  if e.tag = tag then some e.content else none

/-- The elements inside an element with the given tag. -/
def items? (tag : Tag) (e : Element) : Option (List Element) :=
  (e.content? tag).bind readElements?

/-- The elements of a sequence. -/
def sequence? (e : Element) : Option (List Element) := e.items? .sequence

/-- The only element inside an element with the given tag. -/
def only? (tag : Tag) (e : Element) : Option Element := (e.content? tag).bind readOnly?

/-- Whether octets are a signed number without needless leading octets. -/
def isMinimal : Bytes → Bool
  | [] => false
  | [_] => true
  | a :: b :: _ => !((a == 0x00 && b < 0x80) || (a == 0xff && 0x80 ≤ b))

/-- The signed number that octets denote in two's complement. -/
def signedValue (b : Bytes) : Int :=
  let n : Int := Bytes.toNat b
  if 0x80 ≤ b.headD 0 then n - Nat.pow 256 b.length else n

/-- The number that an element denotes. -/
def integer? (e : Element) : Option Int := do
  let b ← e.content? .integer
  if isMinimal b then some (signedValue b) else none

/-- The number that an element denotes, if it is not negative. -/
def natural? (e : Element) : Option Nat := do
  let n ← e.integer?
  if 0 ≤ n then some n.toNat else none

/-- The truth value that an element denotes. -/
def boolean? (e : Element) : Option Bool := do
  let b ← e.content? .boolean
  if b = [0xff] then some true else if b = [0x00] then some false else none

/-- The object identifier that an element denotes. -/
def oid? (e : Element) : Option Oid := (e.content? .oid).bind Oid.ofOctets?

/-- Whether the last octet of a string of bits has zeros in the bits that do not count. -/
def hasZeroPadding (unused : Nat) (b : Bytes) : Bool :=
  match b.getLast? with
  | none => unused == 0
  | some last => unused ≤ 7 && last.toNat % Nat.pow 2 unused == 0

/-- The octets of a string of bits; the bits that do not count are zero. -/
def bitsUnder? (tag : Tag) (e : Element) : Option Bytes := do
  match ← e.content? tag with
  | [] => none
  | unused :: b => if hasZeroPadding unused.toNat b then some b else none

/-- The octets of a string of bits. -/
def bitString? (e : Element) : Option Bytes := e.bitsUnder? .bitString

/-- Whether an element is the absence of a value. -/
def isNull (e : Element) : Bool := e == null

end Element

/-- What the first element of a list reads as, if that has the given tag, and the elements that are
left. -/
def takeTagged {α : Type} (tag : Tag) (read : Element → Option α) :
    List Element → Option (Option α × List Element)
  | [] => some (none, [])
  | e :: rest =>
    if e.tag = tag then (read e).map fun a => (some a, rest) else some (none, e :: rest)

end CertKeeper.Encoding.Der
