import CertKeeper.Entries
import CertKeeper.Json.Number

/-!
# Structured documents

The values of JSON. The members of an object keep their order, repeated names included; as a map
(`Json.fields`) the last value under a name counts, at the place of the first.
-/

namespace CertKeeper

/-- A document. -/
inductive Json where
  | null
  | bool (b : Bool)
  | number (n : Json.Number)
  | text (s : String)
  | array (items : List Json)
  | object (members : List (String × Json))
  deriving Inhabited, Repr

namespace Json

/-- A whole number as a document. -/
def integer (n : Int) : Json := .number (.integer n)

/-- The members of an object as a map. -/
def fields (members : List (String × Json)) : Entries String Json := Entries.ofList members

/-- The value under a name, if the document is an object that has it. -/
def get? (j : Json) (name : String) : Option Json :=
  match j with
  | .object members => (fields members).get? name
  | _ => none

end Json

end CertKeeper
