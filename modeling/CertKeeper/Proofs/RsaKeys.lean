import CertKeeper.Crypto.Rsa
import CertKeeper.Proofs.NumberOctets
import CertKeeper.Proofs.PrimeTest
import Mathlib.Data.Nat.GCD.Prime
import Mathlib.Tactic.NormNum.Prime

/-!
# RSA keys

A key of two primes is one that was made as RSA keys are made (`PrivateKey.sound_ofPrimes`). The
numbers of such a key belong together (`Sound.isConsistent`), and a signature that it makes is right
(`Sound.verify_of_sign?`).
-/

namespace CertKeeper.Crypto.Rsa

/-- A key that was made as RSA keys are made: two different odd primes, an exponent and its inverse,
and the numbers that speed up its use. The number of bits fits a signed machine word of 32 bits. -/
structure PrivateKey.Sound (k : PrivateKey) : Prop where
  prime1 : k.prime1.Prime
  prime2 : k.prime2.Prime
  odd1 : 2 < k.prime1
  odd2 : 2 < k.prime2
  ne : k.prime1 ≠ k.prime2
  modulus : k.modulus = k.prime1 * k.prime2
  bits : bitLength k.modulus < 2147483648
  exponent_odd : k.publicExponent % 2 = 1
  exponent_gt : 1 < k.publicExponent
  exponent_lt : k.publicExponent < k.modulus
  inverse : k.privateExponent * k.publicExponent % Nat.lcm (k.prime1 - 1) (k.prime2 - 1) = 1
  inverse_lt : k.privateExponent < k.modulus
  exponent1 : k.exponent1 = k.privateExponent % (k.prime1 - 1)
  exponent2 : k.exponent2 = k.privateExponent % (k.prime2 - 1)
  coefficient : k.coefficient * k.prime2 % k.prime1 = 1
  coefficient_lt : k.coefficient < k.prime1

/-- A power by one more than a multiple of a prime less one changes nothing modulo the prime. -/
theorem pow_modEq_self {p : Nat} (hp : p.Prime) {e : Nat} (he : e % (p - 1) = 1) (m : Nat) :
    m ^ e ≡ m [MOD p] := by
  have hsplit : e = (p - 1) * (e / (p - 1)) + 1 := by
    have h := Nat.div_add_mod e (p - 1)
    rw [he] at h
    exact h.symm
  by_cases hd : p ∣ m
  · have hzero : m ≡ 0 [MOD p] := (Nat.modEq_zero_iff_dvd).mpr hd
    have hpos : 0 < e := by
      rw [hsplit]
      exact Nat.succ_pos _
    calc
      m ^ e ≡ 0 ^ e [MOD p] := hzero.pow e
      _ = 0 := Nat.zero_pow hpos
      _ ≡ m [MOD p] := hzero.symm
  · have hcoprime : Nat.Coprime m p := ((hp.coprime_iff_not_dvd).mpr hd).symm
    have hfermat : m ^ (p - 1) ≡ 1 [MOD p] := by
      have h := Nat.ModEq.pow_totient hcoprime
      rwa [Nat.totient_prime hp] at h
    calc
      m ^ e = (m ^ (p - 1)) ^ (e / (p - 1)) * m := by
        rw [← Nat.pow_mul, ← Nat.pow_succ, Nat.succ_eq_add_one, ← hsplit]
      _ ≡ 1 ^ (e / (p - 1)) * m [MOD p] := (hfermat.pow _).mul_right m
      _ = m := by rw [Nat.one_pow, Nat.one_mul]

section PrivateExponent

variable {order exponent : Nat}

/-- What the private exponent is computed from is an inverse of the order. -/
theorem order_mul_inverseMod (hexponent : exponent.Prime) (horder : ¬ exponent ∣ order) :
    order * inverseMod (order % exponent) exponent % exponent = 1 := by
  rw [← Nat.mod_mul_mod]
  refine mul_inverseMod hexponent fun hdvd => horder ?_
  exact (Nat.dvd_mod_iff dvd_rfl).mp hdvd

/-- The product of both exponents is one more than a multiple of the order. -/
private theorem div_mul_exponent (hexponent : exponent.Prime) (horder : ¬ exponent ∣ order) :
    (1 + order * (exponent - inverseMod (order % exponent) exponent)) / exponent * exponent =
      1 + order * (exponent - inverseMod (order % exponent) exponent) := by
  have hsplit := Nat.div_add_mod (order * inverseMod (order % exponent) exponent) exponent
  rw [order_mul_inverseMod hexponent horder] at hsplit
  have hle : order * inverseMod (order % exponent) exponent ≤ order * exponent :=
    Nat.mul_le_mul_left _ (inverseMod_lt hexponent.pos _).le
  apply Nat.div_mul_cancel
  refine ⟨order - order * inverseMod (order % exponent) exponent / exponent, ?_⟩
  rw [Nat.mul_sub, Nat.mul_sub, Nat.mul_comm exponent order]
  omega

/-- The private exponent lies below the order. -/
private theorem div_exponent_lt (hexponent : exponent.Prime) (horder : ¬ exponent ∣ order)
    (hlt : 1 < order) :
    (1 + order * (exponent - inverseMod (order % exponent) exponent)) / exponent < order := by
  have hnonzero : inverseMod (order % exponent) exponent ≠ 0 := by
    intro hzero
    have hinverse := order_mul_inverseMod hexponent horder
    rw [hzero, Nat.mul_zero, Nat.zero_mod] at hinverse
    cases hinverse
  have hone : order * 1 ≤ order * inverseMod (order % exponent) exponent :=
    Nat.mul_le_mul_left _ (Nat.one_le_iff_ne_zero.mpr hnonzero)
  have hle : order * inverseMod (order % exponent) exponent ≤ order * exponent :=
    Nat.mul_le_mul_left _ (inverseMod_lt hexponent.pos _).le
  apply Nat.div_lt_of_lt_mul
  rw [Nat.mul_sub, Nat.mul_comm exponent order]
  omega

end PrivateExponent

/-- The key of two different odd primes is sound, if its exponent is an odd prime that divides
neither of them less one. -/
theorem PrivateKey.sound_ofPrimes {p q exponent : Nat} (hp : p.Prime) (hq : q.Prime) (hne : p ≠ q)
    (hodd1 : 2 < p) (hodd2 : 2 < q) (hbits : bitLength (p * q) < 2147483648)
    (hexponent : exponent.Prime) (hodd : 2 < exponent) (hlt : exponent < p * q)
    (hfree1 : ¬ exponent ∣ p - 1) (hfree2 : ¬ exponent ∣ q - 1) :
    (ofPrimes p q exponent).Sound := by
  have horder : ¬ exponent ∣ Nat.lcm (p - 1) (q - 1) := by
    rw [hexponent.dvd_lcm]
    exact not_or.mpr ⟨hfree1, hfree2⟩
  have horderGt : 1 < Nat.lcm (p - 1) (q - 1) := by
    have hpos : 0 < Nat.lcm (p - 1) (q - 1) := Nat.lcm_pos (by omega) (by omega)
    have hle := Nat.le_of_dvd hpos (Nat.dvd_lcm_left (p - 1) (q - 1))
    omega
  have horderLe : Nat.lcm (p - 1) (q - 1) ≤ p * q :=
    calc
      Nat.lcm (p - 1) (q - 1) ≤ (p - 1) * (q - 1) :=
        Nat.le_of_dvd (Nat.mul_pos (by omega) (by omega)) (Nat.lcm_dvd_mul _ _)
      _ ≤ p * q := Nat.mul_le_mul (Nat.sub_le _ _) (Nat.sub_le _ _)
  have hcoprime : ¬ p ∣ q := fun h => hne ((Nat.prime_dvd_prime_iff_eq hp hq).mp h)
  exact
    { prime1 := hp
      prime2 := hq
      odd1 := hodd1
      odd2 := hodd2
      ne := hne
      modulus := rfl
      bits := hbits
      exponent_odd := hexponent.mod_two_eq_one_iff_ne_two.mpr (by omega)
      exponent_gt := hexponent.one_lt
      exponent_lt := hlt
      inverse := by
        dsimp only [ofPrimes]
        rw [div_mul_exponent hexponent horder, Nat.add_mul_mod_self_left,
          Nat.mod_eq_of_lt horderGt]
      inverse_lt := (div_exponent_lt hexponent horder horderGt).trans_le horderLe
      exponent1 := rfl
      exponent2 := rfl
      coefficient := by
        change inverseMod q p * q % p = 1
        rw [Nat.mul_comm, mul_inverseMod hp hcoprime]
      coefficient_lt := inverseMod_lt hp.pos q }

/-- The key of the two smallest primes that three can be an exponent for. -/
def PrivateKey.small : PrivateKey := .ofPrimes 5 11 3

/-- The small key is sound. -/
theorem PrivateKey.sound_small : small.Sound := by
  apply sound_ofPrimes <;> decide

/-- A key of 2048 bits. Each of its primes is one more than a power of two times a small prime. -/
def PrivateKey.large : PrivateKey :=
  .ofPrimes (3931 * 2 ^ 1012 + 1) (7547 * 2 ^ 1011 + 1) 65537

/-- The large key is sound. -/
theorem PrivateKey.sound_large : large.Sound := by
  have hp : (3931 * 2 ^ 1012 + 1).Prime :=
    prime_of_powMod (b := 3) (by norm_num) (by decide +kernel) (by decide +kernel)
      (by decide +kernel)
  have hq : (7547 * 2 ^ 1011 + 1).Prime :=
    prime_of_powMod (b := 3) (by norm_num) (by decide +kernel) (by decide +kernel)
      (by decide +kernel)
  have hexponent : Nat.Prime 65537 := by norm_num
  apply sound_ofPrimes hp hq _ _ _ _ hexponent <;> decide +kernel

/-- What is signed has as many octets as the modulus, and the first one of them is zero. -/
private theorem exists_of_paddedHash? {d : Digest} {length : Nat} {message padded : Bytes}
    (h : paddedHash? d length message = some padded) :
    ∃ rest, padded = 0 :: rest ∧ rest.length + 1 = length := by
  unfold paddedHash? at h
  dsimp only at h
  split at h
  · cases h
  · cases h
    refine ⟨0x01 :: List.replicate (length - (digestInfo d (d.hash message)).length - 3) 0xff ++
      0x00 :: digestInfo d (d.hash message), rfl, ?_⟩
    simp only [List.length_cons, List.length_append, List.length_replicate]
    omega

namespace PrivateKey.Sound

variable {k : PrivateKey}

/-- The numbers of the key belong together. -/
theorem isConsistent (hk : k.Sound) : k.isConsistent := by
  unfold PrivateKey.isConsistent
  simp only [Bool.and_eq_true, beq_iff_eq, decide_eq_true_eq]
  exact ⟨⟨⟨⟨⟨⟨⟨⟨⟨⟨⟨hk.exponent_odd, hk.exponent_gt⟩, hk.odd1⟩, hk.odd2⟩, hk.modulus⟩, hk.inverse⟩,
    hk.exponent1⟩, hk.exponent2⟩, hk.coefficient_lt⟩, hk.coefficient⟩,
    isPrime_of_prime hk.prime1 hk.odd1⟩, isPrime_of_prime hk.prime2 hk.odd2⟩

/-- The modulus of a sound key is positive. -/
theorem modulus_pos (hk : k.Sound) : 0 < k.modulus := by
  rw [hk.modulus]
  exact Nat.mul_pos hk.prime1.pos hk.prime2.pos

/-- Raising to both exponents in turn gives back every number below the modulus. -/
private theorem powMod_powMod (hk : k.Sound) {m : Nat} (hm : m < k.modulus) :
    powMod (powMod m k.privateExponent k.modulus) k.publicExponent k.modulus = m := by
  have hlcm {p : Nat} (hodd : 2 < p) (hd : p - 1 ∣ Nat.lcm (k.prime1 - 1) (k.prime2 - 1)) :
      k.privateExponent * k.publicExponent % (p - 1) = 1 := by
    rw [← Nat.mod_mod_of_dvd _ hd, hk.inverse]
    exact Nat.mod_eq_of_lt (by omega)
  have h1 := pow_modEq_self hk.prime1 (hlcm hk.odd1 (Nat.dvd_lcm_left _ _)) m
  have h2 := pow_modEq_self hk.prime2 (hlcm hk.odd2 (Nat.dvd_lcm_right _ _)) m
  have hcoprime : Nat.Coprime k.prime1 k.prime2 :=
    (Nat.coprime_primes hk.prime1 hk.prime2).mpr hk.ne
  have hboth : m ^ (k.privateExponent * k.publicExponent) ≡ m [MOD k.modulus] := by
    rw [hk.modulus]
    exact (Nat.modEq_and_modEq_iff_modEq_mul hcoprime).mp ⟨h1, h2⟩
  rw [powMod_of_pos hk.modulus_pos, powMod_of_pos hk.modulus_pos, ← Nat.pow_mod, ← Nat.pow_mul]
  exact Eq.trans hboth (Nat.mod_eq_of_lt hm)

/-- The public half opens what the private one has closed. -/
private theorem open?_powMod (hk : k.Sound) {rest : Bytes}
    (hrest : rest.length + 1 = k.publicKey.length) :
    k.publicKey.open? (Bytes.ofNatWidth k.publicKey.length
      (powMod (Bytes.toNat (0 :: rest)) k.privateExponent k.modulus)) = some (0 :: rest) := by
  have hsmall : Bytes.toNat (0 :: rest) < k.modulus := by
    have hnot : ¬ k.publicKey.length ≤ rest.length := by omega
    rw [PublicKey.length, Bytes.octetCount_le_iff] at hnot
    rw [Bytes.toNat_cons, UInt8.toNat_zero, Nat.zero_mul, Nat.zero_add]
    exact Nat.lt_of_lt_of_le (Bytes.toNat_lt rest) (Nat.le_of_not_lt hnot)
  have hpow : powMod (Bytes.toNat (0 :: rest)) k.privateExponent k.modulus < k.modulus := by
    rw [powMod_of_pos hk.modulus_pos]
    exact Nat.mod_lt _ hk.modulus_pos
  have hread : Bytes.toNat (Bytes.ofNatWidth k.publicKey.length
      (powMod (Bytes.toNat (0 :: rest)) k.privateExponent k.modulus)) =
        powMod (Bytes.toNat (0 :: rest)) k.privateExponent k.modulus := by
    rw [Bytes.toNat_ofNatWidth]
    exact Nat.mod_eq_of_lt (hpow.trans (Bytes.lt_pow_octetCount _))
  unfold PublicKey.open?
  dsimp only
  rw [hread, if_pos ⟨Bytes.length_ofNatWidth _ _, hpow⟩]
  change some (Bytes.ofNatWidth k.publicKey.length
    (powMod (powMod (Bytes.toNat (0 :: rest)) k.privateExponent k.modulus) k.publicExponent
      k.modulus)) = _
  rw [hk.powMod_powMod hsmall, ← hrest, ← List.length_cons, Bytes.ofNatWidth_toNat]

/-- A signature that the key makes is right. -/
theorem verify_of_sign? (hk : k.Sound) {d : Digest} {message signature : Bytes}
    (h : k.sign? d message = some signature) : k.publicKey.verify d message signature := by
  unfold sign? at h
  dsimp only at h
  cases hpadded : paddedHash? d k.publicKey.length message with
  | none =>
    rw [hpadded] at h
    cases h
  | some padded =>
    rw [hpadded] at h
    cases h
    obtain ⟨rest, rfl, hrest⟩ := exists_of_paddedHash? hpadded
    rw [PublicKey.verify, hk.open?_powMod hrest, hpadded]
    exact beq_self_eq_true (0 :: rest)

end PrivateKey.Sound

/-- Every signature that a key makes over a hash is right. -/
def PrivateKey.Signs (k : PrivateKey) (d : Digest) : Prop :=
  ∀ message signature, k.sign? d message = some signature →
    k.publicKey.verify d message signature

/-- A sound key verifies what it has signed. -/
theorem PrivateKey.Sound.signs {k : PrivateKey} (hk : k.Sound) (d : Digest) : k.Signs d :=
  fun _ _ h => hk.verify_of_sign? h

end CertKeeper.Crypto.Rsa
