import CertKeeper.Bytes
import CertKeeper.Entries
import CertKeeper.Identity

/-!
# Records

Named octets under an identity. Two of the fields are managed here: they hold a certificate and its
private key. An empty field counts as a missing one.
-/

namespace CertKeeper

/-- Octets by name. -/
abbrev Fields := Entries String Bytes

/-- The name of the field that holds the certificate. -/
def certificateField : String := "tls.crt"

/-- The name of the field that holds the private key. -/
def keyField : String := "tls.key"

/-- A stored record. Its version grows with every change that is stored; a record that does not
exist has version zero. -/
structure Record where
  id : Identity
  data : Fields
  version : Int
  deriving Inhabited

/-- The octets of a field that is there and not empty. -/
def Fields.filled? (data : Fields) (name : String) : Option Bytes :=
  match data.get? name with
  | some [] => none
  | r => r

namespace Record

/-- A record that does not exist. -/
def missing (id : Identity) : Record := ⟨id, .empty, 0⟩

/-- The certificate. -/
def certificate? (r : Record) : Option Bytes := Fields.filled? r.data certificateField

/-- The private key. -/
def key? (r : Record) : Option Bytes := Fields.filled? r.data keyField

/-- Whether there are both a certificate and a private key. -/
def hasPair (r : Record) : Bool := r.certificate?.isSome && r.key?.isSome

end Record

/-- What an upsert did. -/
inductive Outcome where
  | created
  | updated
  | unchanged
  deriving DecidableEq, Repr

namespace Outcome

/-- The word for an outcome. -/
def text : Outcome → String
  | .created => "created"
  | .updated => "updated"
  | .unchanged => "unchanged"

/-- The outcome that a word stands for. -/
def ofText? : String → Option Outcome
  | "created" => some .created
  | "updated" => some .updated
  | "unchanged" => some .unchanged
  | _ => none

/-- What two upserts of one record did together. -/
def merge : Outcome → Outcome → Outcome
  | .created, _ => .created
  | _, .created => .created
  | .unchanged, second => second
  | .updated, _ => .updated

end Outcome

end CertKeeper
