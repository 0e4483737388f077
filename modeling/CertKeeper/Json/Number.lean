/-!
# Numbers of structured documents

A number is kept as it was written: a whole number, a decimal with a fraction or an exponent, or
one of the three words for what is no number. A decimal denotes the nearest binary number of 53
significant digits (`Decimal.nearest`), an even last digit deciding between two equally near ones.
-/

namespace CertKeeper

/-- A decimal: a sign, the digits as one number, and the power of ten they are multiplied with. -/
structure Decimal where
  negative : Bool
  digits : Nat
  exponent : Int
  deriving DecidableEq, Repr

/-- A number of a document. -/
inductive Json.Number where
  /-- A whole number. -/
  | integer (n : Int)
  /-- A number with a fraction or an exponent. -/
  | decimal (d : Decimal)
  /-- The word for infinity, perhaps with a sign. -/
  | infinity (negative : Bool)
  /-- The word for an undefined number. -/
  | undefined
  deriving DecidableEq, Repr

/-- A finite binary number, or a value above all of them. -/
inductive Binary where
  /-- The magnitude `significand * 2 ^ exponent`. -/
  | finite (negative : Bool) (significand : Nat) (exponent : Int)
  /-- A magnitude too large for a binary number. -/
  | infinite (negative : Bool)
  deriving DecidableEq, Repr

/-- The nearest whole number to a quotient, an even one if two are equally near. -/
def roundQuotient (num den : Nat) : Nat :=
  let q := num / den
  let r := num % den
  if 2 * r < den then q
  else if den < 2 * r then q + 1
  else if q % 2 = 0 then q else q + 1

/-- The binary number nearest to a quotient of positive numbers. -/
def nearestBinary (negative : Bool) (num den : Nat) : Binary :=
  let guess : Int := (num.log2 : Int) - (den.log2 : Int) - 52
  let scaled (e : Int) : Nat :=
    if 0 ≤ e then roundQuotient num (den * Nat.pow 2 e.toNat)
    else roundQuotient (num * Nat.pow 2 (-e).toNat) den
  let fits (e : Int) : Bool :=
    if 0 ≤ e then num < den * Nat.pow 2 (e.toNat + 53)
    else num * Nat.pow 2 (-e).toNat < den * Nat.pow 2 53
  let low := guess - 1
  let exponent := max (-1074) (if fits low then low else if fits guess then guess else guess + 1)
  let significand := scaled exponent
  if Nat.pow 2 1024 ≤ significand * Nat.pow 2 exponent.toNat then .infinite negative
  else .finite negative significand exponent

/-- The binary number nearest to a decimal. -/
def Decimal.nearest (d : Decimal) : Binary :=
  let size := (Nat.toDigits 10 d.digits).length + d.exponent
  if d.digits = 0 ∨ size < -330 then .finite d.negative 0 0
  else if 310 < size then .infinite d.negative
  else if 0 ≤ d.exponent then nearestBinary d.negative (d.digits * Nat.pow 10 d.exponent.toNat) 1
  else nearestBinary d.negative d.digits (Nat.pow 10 (-d.exponent).toNat)

namespace Binary

/-- The magnitude without its fraction. -/
def wholePart (significand : Nat) (exponent : Int) : Nat :=
  if 0 ≤ exponent then significand * Nat.pow 2 exponent.toNat
  else significand / Nat.pow 2 (-exponent).toNat

/-- Whether a magnitude has no fraction. -/
def isWhole (significand : Nat) (exponent : Int) : Bool :=
  0 ≤ exponent || significand % Nat.pow 2 (-exponent).toNat == 0

/-- The whole number of a sign and a magnitude. -/
def signed (negative : Bool) (n : Nat) : Int := if negative then -(n : Int) else n

end Binary

end CertKeeper
