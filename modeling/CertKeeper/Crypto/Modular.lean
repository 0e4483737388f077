/-!
# Arithmetic modulo a number

Powers by repeated squaring, inverses modulo a prime, and a test for primes.
-/

namespace CertKeeper.Crypto

/-- The number of binary digits of a number. -/
def bitLength (n : Nat) : Nat := if n = 0 then 0 else n.log2 + 1

/-- Squares and multiplies for the lowest `i` binary digits of the exponent, the highest of them
first. -/
def powModFrom (b e m : Nat) : Nat → Nat → Nat
  | 0, acc => acc
  | i + 1, acc =>
    let square := acc * acc % m
    powModFrom b e m i (if e.testBit i then square * b % m else square)

/-- A power modulo a number. -/
def powMod (b e m : Nat) : Nat := powModFrom (b % m) e m (bitLength e) (1 % m)

/-- The inverse of a number modulo a prime. -/
def inverseMod (x p : Nat) : Nat := powMod x (p - 2) p

/-- The difference of two numbers modulo a number that is above the second one. -/
def subMod (x y p : Nat) : Nat := (x + (p - y % p)) % p

/-- The exponent of two in a number and the odd factor that is left, with at most the given number
of divisions. -/
def splitTwos : Nat → Nat → Nat × Nat
  | 0, n => (0, n)
  | k + 1, n =>
    if n % 2 = 0 ∧ n ≠ 0 then
      let r := splitTwos k (n / 2)
      (r.1 + 1, r.2)
    else (0, n)

/-- Whether one of a number and its next squares modulo `n`, the given count of them, is `n - 1`. -/
def reachesMinusOne (n : Nat) : Nat → Nat → Bool
  | 0, _ => false
  | k + 1, x => x == n - 1 || reachesMinusOne n k (x * x % n)

/-- Whether an odd number is a strong probable prime to a base. -/
def passesBase (n base : Nat) : Bool :=
  let (twos, odd) := splitTwos (bitLength n) (n - 1)
  let x := powMod base odd n
  base % n == 0 || x == 1 || reachesMinusOne n twos x

/-- The bases that a prime is tested with. -/
def primeBases : List Nat := [2, 3, 5, 7]

/-- Whether a number is taken for a prime: it is a base or a strong probable prime to every base. A
prime is always taken for one, a composite number only if it was chosen for that. -/
def isPrime (n : Nat) : Bool :=
  primeBases.contains n || (n % 2 == 1 && 8 < n && primeBases.all (passesBase n))

end CertKeeper.Crypto
