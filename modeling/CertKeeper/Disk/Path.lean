/-!
# Paths

Paths as sequences of names. Empty names and single dots vanish; a pair of dots stays and is looked
up like a name. A path that starts with a slash replaces the one it is joined to.
-/

namespace CertKeeper.Disk

/-- A path from the root of the disk or from the working directory. -/
structure Path where
  absolute : Bool
  parts : List String
  deriving DecidableEq, Repr, Inhabited

namespace Path

/-- The names between the slashes of a text, without empty ones and single dots. -/
def splitNames (s : String) : List String :=
  ((s.toList.splitOn '/').map String.ofList).filter fun n => n ≠ "" ∧ n ≠ "."

/-- The path that a text denotes. -/
def ofText (s : String) : Path := ⟨s.toList.head? = some '/', splitNames s⟩

/-- The text of a path; the working directory itself is a dot. -/
def text (p : Path) : String :=
  let names := String.intercalate "/" p.parts
  if p.absolute then "/" ++ names else if p.parts.isEmpty then "." else names

/-- A path below another one; an absolute one replaces it. -/
def join (p : Path) (s : String) : Path :=
  let q := ofText s
  if q.absolute then q else ⟨p.absolute, p.parts ++ q.parts⟩

instance : HDiv Path String Path := ⟨join⟩

/-- The path without its last name. -/
def parent (p : Path) : Path := ⟨p.absolute, p.parts.dropLast⟩

/-- The last name of a path. -/
def name (p : Path) : String := p.parts.getLastD ""

/-- The path below another one with the given names. -/
def append (p : Path) (names : List String) : Path := ⟨p.absolute, p.parts ++ names⟩

end Path

end CertKeeper.Disk
