import CertKeeper.Crypto.Rsa
import CertKeeper.Proofs.NumberOctets

/-!
# Lengths of signatures

A hash has the length that its function states (`Digest.length_hash`). Hence a key that is long
enough for the signature of one message is so for that of every message
(`Rsa.PrivateKey.exists_sign?`).
-/

namespace CertKeeper.Crypto

/-! ## Hashes -/

/-- Words of the same number of octets each are written in as many octets together. -/
theorem length_flatMap_ofNatWidth {α : Type} (width : Nat) (value : α → Nat) (l : List α) :
    (l.flatMap fun x => Bytes.ofNatWidth width (value x)).length = l.length * width := by
  simp [List.length_flatMap, Bytes.length_ofNatWidth, List.map_const']

namespace Sha2

variable {w : Nat} {v : Variant w}

/-- A block does not change the number of words of a hash value. -/
private theorem length_compress {value block : List (BitVec w)} (h : value.length = 8) :
    (compress v value block).length = 8 := by
  simp [compress, State.toList, h]

/-- Compressing several blocks leaves eight words. -/
private theorem length_foldl_compress {value : List (BitVec w)} (blocks : List (List (BitVec w)))
    (h : value.length = 8) : (blocks.foldl (compress v) value).length = 8 := by
  induction blocks generalizing value with
  | nil => exact h
  | cons block blocks ih => exact ih (length_compress h)

/-- A hash that is no longer than the eight words it is taken from has the length of its variant. -/
theorem length_hash (m : Bytes) (hinitial : v.initial.length = 8)
    (hlength : v.length ≤ 8 * (w / 8)) : (hash v m).length = v.length := by
  rw [hash, List.length_take, length_flatMap_ofNatWidth, length_foldl_compress _ hinitial,
    Nat.min_eq_left hlength]

end Sha2

/-- A hash has the length that its function states. -/
theorem Digest.length_hash (d : Digest) (m : Bytes) : (d.hash m).length = d.length := by
  cases d with
  | sha1 => rw [hash, Sha1.hash, length_flatMap_ofNatWidth]; rfl
  | sha224 => exact Sha2.length_hash m rfl (by decide)
  | sha256 => exact Sha2.length_hash m rfl (by decide)
  | sha384 => exact Sha2.length_hash m rfl (by decide)
  | sha512 => exact Sha2.length_hash m rfl (by decide)

/-! ## Signatures -/

namespace Rsa

/-- What names the hash function and holds the hash is as long for every message. -/
private theorem length_digestInfo (d : Digest) (m : Bytes) :
    (digestInfo d (d.hash m)).length = (digestName d).length + d.length + 10 := by
  simp [digestInfo, Digest.length_hash]
  omega

/-- Whether a modulus is long enough for a message is said by its length alone. -/
theorem paddedHash?_isSome (d : Digest) (length : Nat) (m : Bytes) :
    (paddedHash? d length m).isSome =
      decide ((digestName d).length + d.length + 21 ≤ length) := by
  rw [paddedHash?, length_digestInfo]
  split <;> simp <;> omega

variable {k : PrivateKey} {d : Digest} {m signature : Bytes}

/-- A key that has signed one message signs every message. -/
theorem PrivateKey.exists_sign? (h : k.sign? d m = some signature) (m' : Bytes) :
    ∃ signature', k.sign? d m' = some signature' := by
  rw [← Option.isSome_iff_exists, sign?, Option.isSome_map, paddedHash?_isSome]
  have hm := congrArg Option.isSome h
  rwa [sign?, Option.isSome_map, paddedHash?_isSome] at hm

/-- A signature is as long as the modulus. -/
theorem PrivateKey.length_sign? (h : k.sign? d m = some signature) :
    signature.length = k.publicKey.length := by
  rw [sign?, Option.map_eq_some_iff] at h
  obtain ⟨padded, _, rfl⟩ := h
  exact Bytes.length_ofNatWidth _ _

end Rsa

end CertKeeper.Crypto
