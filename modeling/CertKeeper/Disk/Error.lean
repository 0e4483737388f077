import CertKeeper.Disk.Path
import CertKeeper.Text.Quoted

/-!
# Failures of the disk
-/

namespace CertKeeper.Disk

open Text

/-- Why the disk refuses a request. -/
inductive ErrorKind where
  | noEntry
  | exists
  | notDirectory
  | isDirectory
  | nameTooLong
  | notEmpty
  /-- A name with a character that no name can have. -/
  | embeddedNull
  deriving DecidableEq, Repr

/-- A refused request with the path that it was about and perhaps a second one. -/
structure Error where
  kind : ErrorKind
  path : Path
  target : Option Path
  deriving DecidableEq, Repr

/-- The number and the wording of a kind. -/
def ErrorKind.wording : ErrorKind → Nat × String
  | .noEntry => (2, "No such file or directory")
  | .exists => (17, "File exists")
  | .notDirectory => (20, "Not a directory")
  | .isDirectory => (21, "Is a directory")
  | .nameTooLong => (36, "File name too long")
  | .notEmpty => (39, "Directory not empty")
  | .embeddedNull => (22, "embedded null byte")

/-- The report of a refused request. -/
def Error.message (e : Error) : String :=
  match e.kind with
  | .embeddedNull => e.kind.wording.2
  | kind =>
    let (number, text) := kind.wording
    let target :=
      match e.target with
      | none => ""
      | some p => " -> " ++ quote p.text
    "[Errno " ++ toString number ++ "] " ++ text ++ ": " ++ quote e.path.text ++ target

end CertKeeper.Disk
