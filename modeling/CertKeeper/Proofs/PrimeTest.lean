import CertKeeper.Proofs.ModularPower
import Mathlib.FieldTheory.Finite.Basic
import Mathlib.NumberTheory.LucasPrimality

/-!
# Primes

Every prime is taken for one (`isPrime_of_prime`): modulo a prime only one and minus one are their
own inverses, so that the squares of a power that end in one pass through minus one or start at one.
-/

namespace CertKeeper.Crypto

/-- The power of two that was split off and the factor that is left make up the number. -/
private theorem two_pow_mul_splitTwos (k n : Nat) :
    2 ^ (splitTwos k n).1 * (splitTwos k n).2 = n := by
  induction k generalizing n with
  | zero => simp [splitTwos]
  | succ k ih =>
    rw [splitTwos]
    split
    · next h =>
      have hhalf := ih (n / 2)
      dsimp only
      rw [Nat.pow_succ, Nat.mul_comm (2 ^ _) 2, Nat.mul_assoc, hhalf]
      omega
    · simp

/-- A number below a prime whose square leaves one is one or the prime less one. -/
private theorem eq_of_square_mod {p x : Nat} (hp : p.Prime) (hx : x < p) (h : x * x % p = 1) :
    x = 1 ∨ x = p - 1 := by
  have := Fact.mk hp
  have hone : ((x : ZMod p)) * x = 1 := by
    have hcast : ((x * x : Nat) : ZMod p) = ((1 : Nat) : ZMod p) := by
      rw [ZMod.natCast_eq_natCast_iff', h, Nat.mod_eq_of_lt hp.one_lt]
    simpa using hcast
  rcases mul_self_eq_one_iff.mp hone with h1 | h1
  · left
    have hcast : (x : ZMod p) = ((1 : Nat) : ZMod p) := by simpa using h1
    rw [ZMod.natCast_eq_natCast_iff', Nat.mod_eq_of_lt hx, Nat.mod_eq_of_lt hp.one_lt] at hcast
    exact hcast
  · right
    have hpos := hp.one_lt
    have hcast : (x : ZMod p) = ((p - 1 : Nat) : ZMod p) := by
      rw [h1, Nat.cast_sub hp.one_le]
      simp
    rw [ZMod.natCast_eq_natCast_iff', Nat.mod_eq_of_lt hx, Nat.mod_eq_of_lt (by omega)] at hcast
    exact hcast

/-- Squares that end in one start at one or pass through minus one. -/
private theorem eq_one_or_reachesMinusOne {p : Nat} (hp : p.Prime) (twos x : Nat) (hx : x < p)
    (h : x ^ 2 ^ twos % p = 1) : x = 1 ∨ reachesMinusOne p twos x := by
  induction twos generalizing x with
  | zero =>
    left
    rwa [Nat.pow_zero, Nat.pow_one, Nat.mod_eq_of_lt hx] at h
  | succ twos ih =>
    have hsquare : (x * x % p) ^ 2 ^ twos % p = 1 := by
      rw [← Nat.pow_mod, ← Nat.pow_two, ← Nat.pow_mul, Nat.mul_comm, ← Nat.pow_succ, h]
    rw [reachesMinusOne]
    rcases ih (x * x % p) (Nat.mod_lt _ hp.pos) hsquare with hone | hreaches
    · rcases eq_of_square_mod hp hx hone with rfl | rfl
      · exact .inl rfl
      · exact .inr (by simp)
    · exact .inr (by simp [hreaches])

/-- A prime is a strong probable prime to every base. -/
private theorem passesBase_of_prime {p : Nat} (hp : p.Prime) (base : Nat) : passesBase p base := by
  unfold passesBase
  dsimp only
  by_cases hbase : base % p = 0
  · simp [hbase]
  have hcoprime : ¬ p ∣ base := fun hd => hbase (Nat.mod_eq_zero_of_dvd hd)
  have hfermat : base ^ (p - 1) % p = 1 := by
    have := Fact.mk hp
    have hne : (base : ZMod p) ≠ 0 := by
      rwa [Ne, ZMod.natCast_eq_zero_iff]
    have hcast : ((base ^ (p - 1) : Nat) : ZMod p) = ((1 : Nat) : ZMod p) := by
      simpa using ZMod.pow_card_sub_one_eq_one hne
    rwa [ZMod.natCast_eq_natCast_iff', Nat.mod_eq_of_lt hp.one_lt] at hcast
  let twos := (splitTwos (bitLength p) (p - 1)).1
  let odd := (splitTwos (bitLength p) (p - 1)).2
  have hpower : powMod base odd p ^ 2 ^ twos % p = 1 := by
    rw [powMod_of_pos hp.pos, ← Nat.pow_mod, ← Nat.pow_mul, Nat.mul_comm,
      two_pow_mul_splitTwos, hfermat]
  have hlt : powMod base odd p < p := by
    rw [powMod_of_pos hp.pos]
    exact Nat.mod_lt _ hp.pos
  rcases eq_one_or_reachesMinusOne hp twos _ hlt hpower with hone | hreaches
  · simp [odd] at hone
    simp [hone]
  · simp [twos, odd] at hreaches
    simp [hreaches]

/-- An odd prime is taken for one. -/
theorem isPrime_of_prime {p : Nat} (hp : p.Prime) (hodd : 2 < p) : isPrime p := by
  unfold isPrime
  by_cases hbase : primeBases.contains p
  · rw [hbase, Bool.true_or]
  have hmod : p % 2 = 1 := (hp.eq_two_or_odd).resolve_left (by omega)
  have hlarge : 8 < p := by
    by_contra hsmall
    have hcases : p = 3 ∨ p = 5 ∨ p = 7 := by omega
    rcases hcases with rfl | rfl | rfl <;> exact hbase (by decide)
  have hall : primeBases.all (passesBase p) := by
    rw [List.all_eq_true]
    exact fun base _ => passesBase_of_prime hp base
  simp [hmod, hlarge, hall]

/-! ## Inverses modulo a prime -/

/-- The inverse modulo a prime is one. -/
theorem mul_inverseMod {p x : Nat} (hp : p.Prime) (hx : ¬ p ∣ x) : x * inverseMod x p % p = 1 := by
  have hcoprime : Nat.Coprime x p := ((hp.coprime_iff_not_dvd).mpr hx).symm
  have hfermat : x ^ (p - 1) % p = 1 := by
    have h := Nat.ModEq.pow_totient hcoprime
    rw [Nat.totient_prime hp] at h
    exact Eq.trans h (Nat.mod_eq_of_lt hp.one_lt)
  have hexponent : p - 2 + 1 = p - 1 := by
    have := hp.two_le
    omega
  rw [inverseMod, powMod_of_pos hp.pos, Nat.mul_mod_mod, Nat.mul_comm, ← Nat.pow_succ,
    Nat.succ_eq_add_one, hexponent, hfermat]

/-- An inverse for a modulus is less than the modulus. -/
theorem inverseMod_lt {p : Nat} (hp : 0 < p) (x : Nat) : inverseMod x p < p := by
  rw [inverseMod, powMod_of_pos hp]
  exact Nat.mod_lt _ hp

/-! ## Proofs that a number is a prime -/

/-- A number that is one more than a power of two times a prime is a prime if some base has the
order that it would have modulo a prime. -/
theorem prime_of_powMod {k n b : Nat} (hk : k.Prime)
    (hone : powMod b (k * 2 ^ n) (k * 2 ^ n + 1) = 1)
    (htwo : powMod b (k * 2 ^ n / 2) (k * 2 ^ n + 1) ≠ 1)
    (hother : powMod b (k * 2 ^ n / k) (k * 2 ^ n + 1) ≠ 1) : (k * 2 ^ n + 1).Prime := by
  have hpos : 0 < k * 2 ^ n := Nat.mul_pos hk.pos (Nat.two_pow_pos n)
  have hpow (e : Nat) : ((b : ZMod (k * 2 ^ n + 1)) ^ e = 1) ↔
      powMod b e (k * 2 ^ n + 1) = 1 := by
    have hcast : (b : ZMod (k * 2 ^ n + 1)) ^ e = 1 ↔
        ((b ^ e : Nat) : ZMod (k * 2 ^ n + 1)) = ((1 : Nat) : ZMod (k * 2 ^ n + 1)) := by
      rw [Nat.cast_pow, Nat.cast_one]
    have hlt : 1 < k * 2 ^ n + 1 := by omega
    rw [hcast, ZMod.natCast_eq_natCast_iff', powMod_of_pos (Nat.succ_pos _), Nat.mod_eq_of_lt hlt]
  apply lucas_primality _ (b : ZMod (k * 2 ^ n + 1)) ((hpow _).mpr hone)
  intro q hq hdvd
  rw [Nat.add_sub_cancel] at hdvd ⊢
  rw [ne_eq, hpow]
  rcases (hq.dvd_mul).mp hdvd with hfactor | hpower
  · rw [(Nat.prime_dvd_prime_iff_eq hq hk).mp hfactor]
    exact hother
  · rw [(Nat.prime_dvd_prime_iff_eq hq Nat.prime_two).mp (hq.dvd_of_dvd_pow hpower)]
    exact htwo

end CertKeeper.Crypto
