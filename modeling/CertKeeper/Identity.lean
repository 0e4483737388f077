/-!
# Identities
-/

namespace CertKeeper

/-- The name of a record or an instance inside a namespace. -/
structure Identity where
  /-- The namespace. -/
  space : String
  name : String
  deriving DecidableEq, Repr, Inhabited

/-- An identity is determined by its namespace and its name. -/
theorem Identity.ext {a b : Identity} (hspace : a.space = b.space) (hname : a.name = b.name) :
    a = b := by
  cases a
  cases b
  cases hspace
  cases hname
  rfl

/-- The written form of an identity: namespace, slash, name. -/
def Identity.text (i : Identity) : String := i.space ++ "/" ++ i.name

/-- The DNS name of a service inside the cluster. -/
def serviceDnsName (service space : String) : String := service ++ "." ++ space ++ ".svc"

end CertKeeper
