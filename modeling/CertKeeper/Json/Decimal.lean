import CertKeeper.Json.Number

/-!
# Decimals as text

A decimal is written with its own digits, in positional notation or with a power of ten, depending
on its magnitude. Zeros at the end of the digits do not change the text.
-/

namespace CertKeeper.Decimal

/-- A decimal without up to the given number of zeros at the end of its digits. -/
def dropZeros : Nat → Decimal → Decimal
  | 0, d => d
  | n + 1, d =>
    if d.digits ≠ 0 ∧ d.digits % 10 = 0 then
      dropZeros n { d with digits := d.digits / 10, exponent := d.exponent + 1 }
    else d

/-- Digits with a point after the given number of them; zeros fill the gap between the two. -/
def positional (digits : List Char) (point : Int) : List Char :=
  let before := digits.take point.toNat ++ List.replicate (point.toNat - digits.length) '0'
  let after := List.replicate (-point).toNat '0' ++ digits.drop point.toNat
  (if before.isEmpty then ['0'] else before) ++ '.' :: if after.isEmpty then ['0'] else after

/-- Digits with a point after the first one and a power of ten, whose exponent has a sign and at
least two digits. -/
def scientific (digits : List Char) (exponent : Int) : List Char :=
  let fraction := if digits.length ≤ 1 then [] else '.' :: digits.drop 1
  let power := Nat.toDigits 10 exponent.natAbs
  digits.take 1 ++ fraction ++ 'e' :: (if exponent < 0 then '-' else '+') ::
    (List.replicate (2 - power.length) '0' ++ power)

/-- A decimal as text: with a power of ten below 0.0001 and from ten to the sixteenth on. -/
def chars (d : Decimal) : List Char :=
  let d := dropZeros (Nat.toDigits 10 d.digits).length d
  let digits := Nat.toDigits 10 d.digits
  let point : Int := digits.length + d.exponent
  let sign := if d.negative then ['-'] else []
  sign ++
    if d.digits = 0 then ['0', '.', '0']
    else if -4 < point ∧ point ≤ 16 then positional digits point
    else scientific digits (point - 1)

end CertKeeper.Decimal
