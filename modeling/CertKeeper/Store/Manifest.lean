import CertKeeper.Instance
import CertKeeper.Json.Reader
import CertKeeper.Json.Writer
import CertKeeper.Validation

/-!
# Instance manifests

The document that registers an instance. Members that a manifest does not have are ignored.
-/

namespace CertKeeper.Store.Manifest

/-- The document of an instance. -/
def toJson (i : Instance) : Json :=
  .object
    [("namespace", .text i.id.space), ("name", .text i.id.name),
      ("labels", .object (i.labels.toList.map fun p => (p.1, .text p.2)))]

/-- The text of a manifest. -/
def text (i : Instance) : String := (toJson i).render ⟨false, some 2⟩

/-- A member that must be a text, or the complaint about it. -/
def readText (members : Entries String Json) (name : String) : String × List Complaint :=
  match members.get? name with
  | some (.text s) => (s, [])
  | some _ => ("", [⟨[name], .noText⟩])
  | none => ("", [⟨[name], .missing⟩])

/-- One label, or the complaint about it. -/
def readLabel (p : String × Json) : (String × String) × List Complaint :=
  match p.2 with
  | .text s => ((p.1, s), [])
  | _ => ((p.1, ""), [⟨["labels", p.1], .noText⟩])

/-- The labels, which may be missing, and the complaints about them. -/
def readLabels (members : Entries String Json) : Labels × List Complaint :=
  match members.get? "labels" with
  | none => (.empty, [])
  | some (.object labels) =>
    let read := (Json.fields labels).toList.map readLabel
    (Entries.ofList (read.map Prod.fst), read.flatMap Prod.snd)
  | some _ => (.empty, [⟨["labels"], .noMap⟩])

/-- The instance that a document registers, or all complaints about it. -/
def ofJson : Json → Except (List Complaint) Instance
  | .object members =>
    let fields := Json.fields members
    let (space, c1) := readText fields "namespace"
    let (name, c2) := readText fields "name"
    let (labels, c3) := readLabels fields
    let complaints := c1 ++ c2 ++ c3
    if complaints.isEmpty then .ok ⟨⟨space, name⟩, labels⟩ else .error complaints
  | _ => .error [⟨[], .noDocument⟩]

/-- The instance that a text registers, or all complaints about it. -/
def ofText (s : String) : Except (List Complaint) Instance :=
  match Json.ofText? s with
  | some j => ofJson j
  | none => .error [⟨[], .invalidDocument⟩]

end CertKeeper.Store.Manifest
