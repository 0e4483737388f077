import CertKeeper.Failure
import CertKeeper.Json.Reader
import CertKeeper.Json.Writer

/-!
# Indexes of stored records

The document that says which version of a record counts and which file holds which field. It is
written by this library and may have been edited by others, so the reading is lenient about numbers
and labels.
-/

namespace CertKeeper.Store

open Text

/-- The index of a stored record. -/
structure Index where
  version : Int
  /-- The files, each with the name of its field or a label that is no text. -/
  fields : List (String × Json)

namespace Index

/-- The version of a document: a number without its fraction, or the text of a whole number. -/
def readVersion : Json → Except IndexDefect Int
  | .number (.integer n) => .ok n
  | .number (.decimal d) =>
    match d.nearest with
    | .finite negative s e => .ok (Binary.signed negative (Binary.wholePart s e))
    | .infinite _ => .error .versionInfinite
  | .number (.infinity _) => .error .versionInfinite
  | .number .undefined => .error .versionUndefined
  | .bool b => .ok (if b then 1 else 0)
  | .text s =>
    match readInteger? s with
    | some n => .ok n
    | none => .error (.versionText s)
  | _ => .error .versionType

/-- The index that a document is. -/
def ofJson : Json → Except IndexDefect Index
  | .object members => do
    let fields := Json.fields members
    let version ←
      match fields.get? "resource_version" with
      | some v => readVersion v
      | none => throw (.missing "resource_version")
    match fields.get? "fields" with
    | some (.object files) => return ⟨version, (Json.fields files).toList⟩
    | some _ => throw .fieldsType
    | none => throw (.missing "fields")
  | _ => .error .noObject

/-- The index that a text is. -/
def ofText (s : String) : Except IndexDefect Index :=
  match Json.ofText? s with
  | some j => ofJson j
  | none => .error .malformed

/-- The document of an index. -/
def toJson (i : Index) : Json :=
  .object [("resource_version", .integer i.version), ("fields", .object i.fields)]

/-- The text of an index. -/
def text (i : Index) : String := i.toJson.render ⟨true, some 2⟩

end Index

end CertKeeper.Store
