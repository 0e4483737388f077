import CertKeeper.Entries
import CertKeeper.Identity

/-!
# Instances

The running servers that load the certificate when they start.
-/

namespace CertKeeper

/-- Texts by name. -/
abbrev Labels := Entries String String

/-- A running server: its identity and the labels that tell which group it belongs to. -/
structure Instance where
  id : Identity
  labels : Labels
  deriving Inhabited

/-- Whether an instance carries every label of a selector with the same value. -/
def Instance.matches (i : Instance) (selector : Labels) : Bool := i.labels.includes selector

end CertKeeper
