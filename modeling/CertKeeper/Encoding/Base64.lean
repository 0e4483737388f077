import CertKeeper.Bytes

/-!
# Base 64

Octets as printable characters, four for three, with padding at the end. What was written is read
again (`decode?_encode`); missing padding and bits that are left over are refused.
-/

namespace CertKeeper.Encoding.Base64

/-- The character for six bits. -/
def digit (n : Nat) : UInt8 :=
  if n < 26 then UInt8.ofNat (0x41 + n)
  else if n < 52 then UInt8.ofNat (0x61 + (n - 26))
  else if n < 62 then UInt8.ofNat (0x30 + (n - 52))
  else if n = 62 then 0x2b
  else 0x2f

/-- The six bits that a character stands for. -/
def value? (c : UInt8) : Option Nat :=
  if 0x41 ≤ c ∧ c ≤ 0x5a then some (c.toNat - 0x41)
  else if 0x61 ≤ c ∧ c ≤ 0x7a then some (c.toNat - 0x61 + 26)
  else if 0x30 ≤ c ∧ c ≤ 0x39 then some (c.toNat - 0x30 + 52)
  else if c = 0x2b then some 62
  else if c = 0x2f then some 63
  else none

/-- The character that fills up the last group. -/
def pad : UInt8 := 0x3d

/-- The characters of octets. -/
def encode : Bytes → Bytes
  | [] => []
  | [a] =>
    let n := a.toNat * 16
    [digit (n / 64), digit (n % 64), pad, pad]
  | [a, b] =>
    let n := (a.toNat * 256 + b.toNat) * 4
    [digit (n / 4096), digit (n / 64 % 64), digit (n % 64), pad]
  | a :: b :: c :: rest =>
    let n := (a.toNat * 256 + b.toNat) * 256 + c.toNat
    digit (n / 262144) :: digit (n / 4096 % 64) :: digit (n / 64 % 64) :: digit (n % 64) ::
      encode rest

/-- The octets of a full group. -/
def groupOctets (w x y z : Nat) : Bytes :=
  let n := ((w * 64 + x) * 64 + y) * 64 + z
  [UInt8.ofNat (n / 65536), UInt8.ofNat (n / 256 % 256), UInt8.ofNat (n % 256)]

/-- The octets that characters stand for. Only the last group may be padded, and the bits that its
octets leave over must be zero. -/
def decode? : Bytes → Option Bytes
  | [] => some []
  | [a, b, c, d] => do
    let w ← value? a
    let x ← value? b
    if c = pad ∧ d = pad then
      if x % 16 = 0 then some [UInt8.ofNat ((w * 64 + x) / 16)] else none
    else
      let y ← value? c
      if d = pad then
        let n := (w * 64 + x) * 64 + y
        if n % 4 = 0 then some [UInt8.ofNat (n / 1024), UInt8.ofNat (n / 4 % 256)] else none
      else
        let z ← value? d
        some (groupOctets w x y z)
  | a :: b :: c :: d :: rest => do
    let w ← value? a
    let x ← value? b
    let y ← value? c
    let z ← value? d
    let tail ← decode? rest
    some (groupOctets w x y z ++ tail)
  | _ => none

/-- Each character stands for the six bits that it was chosen for, and none of them is the
filler. -/
theorem value?_digit : ∀ n < 64, value? (digit n) = some n ∧ digit n ≠ pad := by decide

/-- A full group denotes the octets that it was made of. -/
theorem groupOctets_eq (a b c : UInt8) :
    let n := (a.toNat * 256 + b.toNat) * 256 + c.toNat
    groupOctets (n / 262144) (n / 4096 % 64) (n / 64 % 64) (n % 64) = [a, b, c] := by
  have ha := a.toNat_lt
  have hb := b.toNat_lt
  have hc := c.toNat_lt
  intro n
  have hn : n = (a.toNat * 256 + b.toNat) * 256 + c.toNat := rfl
  have h : ((n / 262144 * 64 + n / 4096 % 64) * 64 + n / 64 % 64) * 64 + n % 64 = n := by omega
  have h1 : n / 65536 = a.toNat := by omega
  have h2 : n / 256 % 256 = b.toNat := by omega
  have h3 : n % 256 = c.toNat := by omega
  simp only [groupOctets, h, h1, h2, h3, UInt8.ofNat_toNat]

/-- What was written is read again. -/
theorem decode?_encode (b : Bytes) : decode? (encode b) = some b := by
  fun_induction encode b with
  | case1 => rfl
  | case2 a n =>
    have ha := a.toNat_lt
    have hn : n = a.toNat * 16 := rfl
    have hw := (value?_digit (n / 64) (by omega)).1
    have hx := (value?_digit (n % 64) (by omega)).1
    have h : (n / 64 * 64 + n % 64) / 16 = a.toNat := by omega
    have h0 : n % 64 % 16 = 0 := by omega
    simp [decode?, hw, hx, h, h0]
  | case3 a b n =>
    have ha := a.toNat_lt
    have hb := b.toNat_lt
    have hn : n = (a.toNat * 256 + b.toNat) * 4 := rfl
    have hw := (value?_digit (n / 4096) (by omega)).1
    have hx := (value?_digit (n / 64 % 64) (by omega)).1
    have hy := value?_digit (n % 64) (by omega)
    have h : ((n / 4096 * 64 + n / 64 % 64) * 64 + n % 64) = n := by omega
    have h0 : n % 4 = 0 := by omega
    have h1 : n / 1024 = a.toNat := by omega
    have h2 : n / 4 % 256 = b.toNat := by omega
    simp [decode?, hw, hx, hy.1, hy.2, h, h0, h1, h2]
  | case4 a b c rest n ih =>
    have ha := a.toNat_lt
    have hb := b.toNat_lt
    have hc := c.toNat_lt
    have hn : n = (a.toNat * 256 + b.toNat) * 256 + c.toNat := rfl
    have hw := (value?_digit (n / 262144) (by omega)).1
    have hx := (value?_digit (n / 4096 % 64) (by omega)).1
    have hy := value?_digit (n / 64 % 64) (by omega)
    have hz := value?_digit (n % 64) (by omega)
    have hg := groupOctets_eq a b c
    cases hr : encode rest with
    | nil =>
      have : rest = [] := by
        rw [hr] at ih
        exact (Option.some.inj ih).symm
      simp [decode?, hw, hx, hy.1, hy.2, hz.1, hz.2, this]
      exact hg
    | cons e es =>
      rw [hr] at ih
      simp only [decode?, hw, hx, hy.1, hz.1, ih, Option.bind_eq_bind, Option.bind_some]
      rw [hg]
      rfl
end CertKeeper.Encoding.Base64
