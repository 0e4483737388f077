import CertKeeper.Crypto.Modular
import Mathlib.Algebra.Ring.Nat

/-!
# Powers modulo a number

Repeated squaring computes the power of numbers: `powMod_eq`.
-/

namespace CertKeeper.Crypto

/-- The value of the digits up to the given one is the digit's power of two and the lower digits. -/
private theorem mod_two_pow_succ (e i : Nat) :
    e % 2 ^ (i + 1) = 2 ^ i * (e.testBit i).toNat + e % 2 ^ i := by
  rw [Nat.mod_pow_succ, Nat.add_comm, Nat.testBit_eq_decide_div_mod_eq]
  rcases Nat.mod_two_eq_zero_or_one (e / 2 ^ i) with h | h <;> simp [h]

/-- A product of powers depends on the bases modulo the number only. -/
theorem pow_mul_mod_congr {x y m : Nat} (h : x % m = y % m) (k z : Nat) :
    x ^ k * z % m = y ^ k * z % m := by
  rw [Nat.mul_mod, Nat.pow_mod, h, ← Nat.pow_mod, ← Nat.mul_mod]

/-- Each step squares what has been collected and multiplies by the base where the digit is one. -/
private theorem powModFrom_eq (b e m i acc : Nat) :
    powModFrom b e m i acc % m = acc ^ 2 ^ i * b ^ (e % 2 ^ i) % m := by
  induction i generalizing acc with
  | zero => simp [powModFrom, Nat.mod_one]
  | succ i ih =>
    have hsquare : acc ^ 2 ^ (i + 1) = (acc * acc) ^ 2 ^ i := by
      rw [Nat.pow_succ 2, Nat.mul_comm, Nat.pow_mul, Nat.pow_two]
    rw [powModFrom, ih, hsquare, mod_two_pow_succ, Nat.pow_add]
    cases e.testBit i with
    | false =>
      simp only [Bool.false_eq_true, if_false, Bool.toNat_false, Nat.mul_zero, Nat.pow_zero,
        Nat.one_mul]
      exact pow_mul_mod_congr (Nat.mod_mod _ _) _ _
    | true =>
      simp only [if_true, Bool.toNat_true, Nat.mul_one]
      rw [← Nat.mul_assoc, ← Nat.mul_pow]
      refine pow_mul_mod_congr ?_ _ _
      rw [Nat.mod_mod, Nat.mod_mul_mod]

/-- Repeated squaring computes the power. -/
theorem powMod_eq (b e m : Nat) : powMod b e m % m = b ^ e % m := by
  unfold powMod
  rw [powModFrom_eq]
  have h : e % 2 ^ bitLength e = e := by
    apply Nat.mod_eq_of_lt
    unfold bitLength
    split
    · next he => subst he; decide
    · exact Nat.lt_log2_self
  rw [h, pow_mul_mod_congr (Nat.mod_mod 1 m), Nat.one_pow, Nat.one_mul, Nat.pow_mod, Nat.mod_mod,
    ← Nat.pow_mod]

/-- What is collected stays below the modulus. -/
private theorem powModFrom_lt {b e m i acc : Nat} (hm : 0 < m) (hacc : acc < m) :
    powModFrom b e m i acc < m := by
  induction i generalizing acc with
  | zero => exact hacc
  | succ i ih =>
    rw [powModFrom]
    apply ih
    split <;> exact Nat.mod_lt _ hm

/-- Repeated squaring computes the power modulo a positive number. -/
theorem powMod_of_pos {m : Nat} (hm : 0 < m) (b e : Nat) : powMod b e m = b ^ e % m := by
  have hlt : powMod b e m < m := powModFrom_lt hm (Nat.mod_lt _ hm)
  rw [← powMod_eq, Nat.mod_eq_of_lt hlt]

end CertKeeper.Crypto
