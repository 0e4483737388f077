import CertKeeper.Bytes
import Mathlib.Data.List.Induction
import Mathlib.Data.Nat.Log
import Mathlib.Tactic.Ring

/-!
# Numbers as octets

Writing a number to the base 256 and reading it again are inverse to each other: in a fixed width
modulo a power of 256 (`Bytes.toNat_ofNatWidth`, `Bytes.ofNatWidth_toNat`), and without leading
zeros for every number (`Bytes.toNat_ofNat`).
-/

namespace CertKeeper.Bytes

@[simp] theorem toNat_nil : toNat [] = 0 := rfl

/-- The first octet counts for as many powers of 256 as octets follow it. -/
theorem toNat_cons (x : UInt8) (b : Bytes) :
    toNat (x :: b) = x.toNat * 256 ^ b.length + toNat b := by
  induction b using List.reverseRecOn with
  | nil => simp [toNat]
  | append_singleton b y ih =>
    rw [← List.cons_append, toNat_snoc, toNat_snoc, ih, List.length_append, List.length_singleton,
      pow_succ]
    ring

/-- Octets denote a number below the power of 256 that their count gives. -/
theorem toNat_lt (b : Bytes) : toNat b < 256 ^ b.length := by
  induction b using List.reverseRecOn with
  | nil => simp
  | append_singleton b x ih =>
    have hx := x.toNat_lt
    rw [toNat_snoc, List.length_append, List.length_singleton, pow_succ]
    omega

/-- The last octet is the lowest digit, and the ones before it write what is left. -/
theorem ofNatWidth_succ (width n : Nat) :
    ofNatWidth (width + 1) n = ofNatWidth width (n / 256) ++ [UInt8.ofNat n] := by
  unfold ofNatWidth
  rw [List.range_succ_eq_map, List.reverse_cons, ← List.map_reverse, List.map_append, List.map_map,
    List.map_singleton, Nat.mul_zero, Nat.shiftRight_zero]
  congr 1
  apply List.map_congr_left
  intro i _
  rw [Function.comp_apply, Nat.succ_eq_add_one, Nat.mul_add, Nat.mul_one, Nat.add_comm,
    Nat.shiftRight_add, Nat.shiftRight_eq_div_pow n 8]

/-- A writing of a fixed width denotes the number modulo a power of 256. -/
theorem toNat_ofNatWidth (width n : Nat) : toNat (ofNatWidth width n) = n % 256 ^ width := by
  induction width generalizing n with
  | zero => rw [pow_zero, Nat.mod_one]; rfl
  | succ width ih =>
    rw [ofNatWidth_succ, toNat_snoc, ih, UInt8.toNat_ofNat', pow_succ 256 width,
      Nat.mul_comm (256 ^ width), Nat.mod_mul, Nat.add_comm]

/-- Octets are the writing of the number that they denote. -/
theorem ofNatWidth_toNat (b : Bytes) : ofNatWidth b.length (toNat b) = b := by
  induction b using List.reverseRecOn with
  | nil => rfl
  | append_singleton b x ih =>
    have hx := x.toNat_lt
    have hdiv : (256 * toNat b + x.toNat) / 256 = toNat b := by omega
    have hlast : UInt8.ofNat (256 * toNat b + x.toNat) = x := by
      apply UInt8.toNat_inj.mp
      rw [UInt8.toNat_ofNat']
      omega
    rw [List.length_append, List.length_singleton, ofNatWidth_succ, toNat_snoc, hdiv, ih, hlast]

/-- A number needs no more octets than a given count if and only if it is below that power of
256. -/
theorem octetCount_le_iff {n count : Nat} : octetCount n ≤ count ↔ n < 256 ^ count := by
  have hbase : 256 ^ count = 2 ^ (8 * count) := by rw [pow_mul]; rfl
  unfold octetCount
  by_cases hn : n = 0
  · rw [if_pos hn, hn]
    exact iff_of_true (Nat.zero_le _) (Nat.pow_pos (by omega))
  rw [if_neg hn, hbase, ← Nat.log2_lt hn]
  omega

/-- A number is below the power of 256 for its octets. -/
theorem lt_pow_octetCount (n : Nat) : n < 256 ^ octetCount n := octetCount_le_iff.mp le_rfl

/-- A number needs no more octets than a greater one. -/
theorem octetCount_mono {n m : Nat} (h : n ≤ m) : octetCount n ≤ octetCount m :=
  octetCount_le_iff.mpr (h.trans_lt (lt_pow_octetCount m))

/-- A number is written with as many octets as it takes. -/
theorem length_ofNat (n : Nat) : (ofNat n).length = octetCount n := length_ofNatWidth _ _

/-- A number is read again. -/
theorem toNat_ofNat (n : Nat) : toNat (ofNat n) = n := by
  rw [ofNat, toNat_ofNatWidth, Nat.mod_eq_of_lt (lt_pow_octetCount n)]

/-- The first octet of a number is not zero. -/
theorem ne_zero_of_ofNat_eq_cons {n : Nat} {x : UInt8} {b : Bytes} (h : ofNat n = x :: b) :
    x ≠ 0 := by
  rintro rfl
  have hlength : octetCount n = b.length + 1 := by rw [← length_ofNat, h, List.length_cons]
  have hn : n = toNat b := by
    rw [← toNat_ofNat n, h, toNat_cons, UInt8.toNat_zero, Nat.zero_mul, Nat.zero_add]
  have hle : octetCount n ≤ b.length := octetCount_le_iff.mpr (hn ▸ toNat_lt b)
  omega

/-- Octets without a leading zero are the writing of the number that they denote. -/
theorem ofNat_toNat_cons {x : UInt8} (hx : x ≠ 0) (b : Bytes) :
    ofNat (toNat (x :: b)) = x :: b := by
  have hpos : 0 < x.toNat := Nat.pos_of_ne_zero fun h => hx (UInt8.toNat_inj.mp h)
  have hcount : octetCount (toNat (x :: b)) = (x :: b).length := by
    refine Nat.le_antisymm (octetCount_le_iff.mpr (toNat_lt _)) ?_
    rw [List.length_cons, Nat.succ_le_iff, ← Nat.not_le, octetCount_le_iff, toNat_cons]
    have hle := Nat.mul_le_mul_right (256 ^ b.length) hpos
    omega
  rw [ofNat, hcount, ofNatWidth_toNat]

end CertKeeper.Bytes
