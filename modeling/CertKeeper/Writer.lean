import CertKeeper.Store

/-!
# Writing the pair

The two managed fields of a record are set together or removed together; its other fields stay.
-/

namespace CertKeeper.Writer

/-- The fields with a certificate and its key. -/
def setPair (certificate key : Bytes) (data : Fields) : Fields :=
  (data.set certificateField certificate).set keyField key

/-- The fields without a certificate and its key. -/
def removePair (data : Fields) : Fields := (data.erase certificateField).erase keyField

/-- Changes a record; a failure of the store is one of writing. -/
def apply (id : Identity) (change : Fields → Fields) : Action Store Outcome :=
  (Store.upsert id fun data => .ok (change data)).mapFailure (.write id)

/-- Stores a certificate and its key. -/
def write (id : Identity) (certificate key : Bytes) : Action Store Outcome :=
  apply id (setPair certificate key)

/-- Removes a certificate and its key. -/
def clear (id : Identity) : Action Store Outcome := apply id removePair

end CertKeeper.Writer
