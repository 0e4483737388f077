import CertKeeper.Disk.Basic
import CertKeeper.Store
import CertKeeper.Store.Index
import CertKeeper.Store.Manifest

/-!
# Stores in directories

Records stand under `records/NAMESPACE/NAME`, each version in a directory of its own with one file
to a field, and an index that is replaced in one step says which version counts. Instances are
manifests `instances/NAMESPACE/NAME.json`. Every operation is a sequence of single requests to a
disk, so that it can be looked at after each of them.
-/

namespace CertKeeper

open Disk (Path)

/-- A store below a base directory. -/
structure DirectoryStore where
  base : Path

namespace DirectoryStore

/-- An action on a disk. -/
abbrev DiskAction := Action Disk.interface

/-- A name with the characters that separate names in paths replaced. -/
def safeName (s : String) : String :=
  String.ofList (s.toList.map fun c => if c = '/' ∨ c = '\\' then '_' else c)

/-! ## Requests that belong together -/

/-- What stands at a path, if something does; a path that cannot lead anywhere leads to nothing. -/
def probe? (p : Path) : DiskAction (Option Disk.Kind) := do
  match ← (Disk.ask (.probe p)).outcome with
  | .ok kind => return some kind
  | .error (.disk e) =>
    match e.kind with
    | .noEntry | .notDirectory | .embeddedNull => return none
    | _ => throw (.disk e)
  | .error e => throw e

/-- Whether something stands at a path. -/
def isThere (p : Path) : DiskAction Bool := do return (← probe? p).isSome

/-- Whether a directory stands at a path. -/
def isDirectory (p : Path) : DiskAction Bool := do return (← probe? p) == some .directory

/-- Makes a directory; with `tolerant`, one that is there already will do. -/
def makeOne (p : Path) (tolerant : Bool) : DiskAction Unit := do
  match ← (Disk.ask (.makeDirectory p)).outcome with
  | .ok () => return
  | .error (.disk e) =>
    let fine ← if tolerant ∧ e.kind ≠ .embeddedNull ∧ e.kind ≠ .noEntry then isDirectory p
      else pure false
    if fine then return else throw (.disk e)
  | .error e => throw e

/-- Makes a directory, and first those above it where they are not there. The names are given with
the last one first. -/
def makeFrom (absolute : Bool) : List String → Bool → DiskAction Unit
  | [], tolerant => makeOne ⟨absolute, []⟩ tolerant
  | name :: rest, tolerant => do
    let p : Path := ⟨absolute, (name :: rest).reverse⟩
    match ← (makeOne p tolerant).outcome with
    | .ok () => return
    | .error (.disk e) =>
      if e.kind = .noEntry then
        makeFrom absolute rest true
        makeOne p tolerant
      else throw (.disk e)
    | .error e => throw e

/-- Makes a directory and those above it. -/
def makeDirectories (p : Path) (tolerant : Bool) : DiskAction Unit :=
  makeFrom p.absolute p.parts.reverse tolerant

/-- Removes what stands below a directory. -/
def removeContent (p : Path) (item : List String × Disk.Kind) : DiskAction Unit :=
  match item.2 with
  | .file => Disk.ask (.removeFile (p.append item.1))
  | .directory => Disk.ask (.removeDirectory (p.append item.1))

/-- Removes a directory with everything in it. -/
def removeTree (p : Path) : DiskAction Unit := do
  let items ← Disk.ask (.contents p)
  items.forM (removeContent p)
  Disk.ask (.removeDirectory p)

/-- An action whose failure is of no interest. -/
def quietly (a : DiskAction Unit) : DiskAction Unit := do
  let _ ← a.outcome
  return

/-- Removes a directory with everything in it as far as possible. -/
def removeTreeQuietly (p : Path) : DiskAction Unit := do
  match ← (Disk.ask (.contents p)).outcome with
  | .ok items =>
    items.forM fun item => quietly (removeContent p item)
    quietly (Disk.ask (.removeDirectory p))
  | .error _ => return

/-- The text in a file. -/
def readText (p : Path) : DiskAction String := do
  Action.ofExcept .text (Text.Utf8.decode (← Disk.ask (.read p)))

/-- Writes a text into a file. -/
def writeText (p : Path) (s : String) : DiskAction Unit :=
  Disk.ask (.write .document p (Text.Utf8.encode s))

variable (s : DirectoryStore)

/-! ## Records -/

/-- The directory of a record. -/
def recordDirectory (id : Identity) : Path :=
  s.base / "records" / safeName id.space / safeName id.name

/-- The index of a record. -/
def indexPath (id : Identity) : Path := s.recordDirectory id / "meta.json"

/-- The directory of a version of a record. -/
def versionDirectory (id : Identity) (version : Int) : Path :=
  s.recordDirectory id / ("v" ++ toString version)

/-- A label as the name of a field, and whether it is a text. -/
def readLabel : Json → Except IndexDefect (String × Bool)
  | .text name => .ok (name, true)
  | .null => .ok ("null", false)
  | .bool b => .ok (if b then "true" else "false", false)
  | .number n => .ok (String.ofList n.chars, false)
  | _ => .error .labelType

/-- A field of a record: its name, whether its label is a text, and its octets. -/
def readField (directory : Path) (file : String × Json) : DiskAction (String × Bool × Bytes) := do
  let content ← Disk.ask (.read (directory / file.1))
  let (name, isText) ← Action.ofExcept .index (readLabel file.2)
  return (name, isText, content)

/-- The record with an identity, and the names of its fields whose labels are no texts. -/
def readRecord (id : Identity) : DiskAction (Record × List String) := do
  if !(← isThere (s.indexPath id)) then throw (.recordNotFound id)
  let index ← Action.ofExcept .index (Store.Index.ofText (← readText (s.indexPath id)))
  let fields ← index.fields.mapM (readField (s.versionDirectory id index.version))
  let data := Entries.ofList (fields.map fun f => (f.1, f.2.2))
  let alien := (fields.filter fun f => !f.2.1).map Prod.fst
  return (⟨id, data, index.version⟩, alien)

/-- The files of a record's fields. -/
def files (data : Fields) : Entries String String :=
  Entries.ofList (data.keys.map fun name => (safeName name, name))

/-- Writes the fields of a record and then the index that makes them count. -/
def publish (r : Record) : DiskAction Unit := do
  let directory := s.versionDirectory r.id r.version
  (files r.data).toList.forM fun f =>
    Disk.ask (.write .field (directory / f.1) ((r.data.get? f.2).getD []))
  let index : Store.Index := ⟨r.version, (files r.data).toList.map fun f => (f.1, .text f.2)⟩
  let staged := s.recordDirectory r.id / "meta.json.tmp"
  writeText staged index.text
  Disk.ask (.rename staged (s.indexPath r.id))

/-- Removes the directories of all versions but one. -/
def removeOthers (id : Identity) (version : Int) : DiskAction Unit := do
  let directory := s.recordDirectory id
  let names ← Disk.ask (.list directory)
  (names.filter fun n => n.toList.head? = some 'v').forM fun n => do
    let old := directory / n
    if (← isDirectory old) && old ≠ s.versionDirectory id version then removeTreeQuietly old

/-- Stores a record as a new version. If the version cannot be published its directory is removed
and the former version still counts. -/
def writeRecord (r : Record) : DiskAction Unit := do
  if (files r.data).size ≠ r.data.size then throw (.fieldCollision r.id)
  let directory := s.versionDirectory r.id r.version
  if ← isThere directory then removeTree directory
  makeDirectories directory false
  match ← (s.publish r).outcome with
  | .ok () => s.removeOthers r.id r.version
  | .error e =>
    removeTreeQuietly directory
    throw e

/-- The record with an identity. -/
def getRecord (id : Identity) : DiskAction Record := do return (← s.readRecord id).1

/-- The record with an identity, if there is one. -/
def readRecord? (id : Identity) : DiskAction (Option (Record × List String)) := do
  match ← (s.readRecord id).outcome with
  | .ok r => return some r
  | .error e => if e.isRecordNotFound then return none else throw e

/-- Creates a record or changes it. -/
def upsert (id : Identity) (change : Mutation) : DiskAction Outcome := do
  match ← s.readRecord? id with
  | none =>
    let data ← ExceptT.mk (pure (change .empty))
    s.writeRecord ⟨id, data, 1⟩
    return .created
  | some (r, alien) =>
    let data ← ExceptT.mk (pure (change r.data))
    if data.same r.data then return .unchanged
    if alien.any data.contains then throw (.index .alienLabel)
    s.writeRecord ⟨id, data, r.version + 1⟩
    return .updated

/-! ## Instances -/

/-- The directory of the instances of a namespace. -/
def instanceDirectory (space : String) : Path := s.base / "instances" / safeName space

/-- The manifest of an instance. -/
def instancePath (id : Identity) : Path :=
  s.instanceDirectory id.space / (safeName id.name ++ ".json")

/-- Registers an instance. -/
def addInstance (i : Instance) : DiskAction Unit := do
  let path := s.instancePath i.id
  makeDirectories path.parent true
  writeText path (Store.Manifest.text i)

/-- The instance that a text registers. -/
def readManifest (text : String) : DiskAction Instance :=
  Action.ofExcept .manifest (Store.Manifest.ofText text)

/-- The instance with an identity. -/
def getInstance (id : Identity) : DiskAction Instance := do
  let path := s.instancePath id
  if !(← isThere path) then throw (.instanceNotFound id)
  readManifest (← readText path)

/-- The instances of a namespace that carry the given labels, in the order of their files. -/
def listInstances (space : String) (labels : Labels) : DiskAction (List Instance) := do
  let directory := s.instanceDirectory space
  if !(← isDirectory directory) then return []
  let names ← Disk.ask (.list directory)
  let manifests := (names.filter fun n => n.endsWith ".json").mergeSort fun a b => a ≤ b
  let texts ← manifests.mapM fun n => readText (directory / n)
  let instances ← texts.mapM readManifest
  return instances.filter fun i => i.matches labels

/-- Removes an instance. -/
def deleteInstance (id : Identity) : DiskAction Unit := do
  let path := s.instancePath id
  if !(← isThere path) then throw (.instanceNotFound id)
  Disk.ask (.removeFile path)

/-! ## Answers -/

/-- Makes the base directory. -/
def prepare : DiskAction Unit := makeDirectories s.base true

/-- The answers of a store in a directory, as programs that use the disk. -/
def answer : (q : Store.Request) → Program Disk.interface (Store.Answer q)
  | .getRecord id => s.getRecord id
  | .upsert id change => s.upsert id change
  | .getInstance id => s.getInstance id
  | .listInstances space labels => s.listInstances space labels
  | .deleteInstance id => s.deleteInstance id

end DirectoryStore

end CertKeeper
