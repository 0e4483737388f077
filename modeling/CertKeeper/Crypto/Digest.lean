import CertKeeper.Crypto.Sha1

/-!
# Hash functions by name
-/

namespace CertKeeper.Crypto

/-- The hash functions that signatures use. -/
inductive Digest where
  | sha1
  | sha224
  | sha256
  | sha384
  | sha512
  deriving DecidableEq, Repr

namespace Digest

/-- The hash of a message. -/
def hash : Digest → Bytes → Bytes
  | .sha1 => Sha1.hash
  | .sha224 => Sha2.hash Sha2.sha224
  | .sha256 => Sha2.hash Sha2.sha256
  | .sha384 => Sha2.hash Sha2.sha384
  | .sha512 => Sha2.hash Sha2.sha512

/-- The length of a hash in octets. -/
def length : Digest → Nat
  | .sha1 => 20
  | .sha224 => 28
  | .sha256 => 32
  | .sha384 => 48
  | .sha512 => 64

end Digest

end CertKeeper.Crypto
