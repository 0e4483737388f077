import CertKeeper.Entries
import CertKeeper.Failure

/-!
# Disks

What a program may ask of a disk, one step at a time, and a disk as a map from the places of files
and directories. A place is the sequence of names from the root. Paths are followed name by name,
each of them in a directory that exists.
-/

namespace CertKeeper

namespace Disk

/-- What stands at a place. -/
inductive Kind where
  | file
  | directory
  deriving DecidableEq, Repr

/-- What a file is written for. -/
inductive Role where
  /-- The file holds a field of a record. -/
  | field
  /-- The file is an index or a manifest. -/
  | document
  deriving DecidableEq, Repr

/-- The requests to a disk. -/
inductive Request where
  /-- What stands at a path. -/
  | probe (p : Path)
  /-- The names in a directory. -/
  | list (p : Path)
  | read (p : Path)
  /-- Writes a whole file. -/
  | write (role : Role) (p : Path) (content : Bytes)
  | makeDirectory (p : Path)
  | removeFile (p : Path)
  /-- Removes an empty directory. -/
  | removeDirectory (p : Path)
  /-- Moves a file, replacing what is there, in one step. -/
  | rename (source target : Path)
  /-- The names from a directory to everything below it, contents before directories. -/
  | contents (p : Path)

/-- What a disk answers. -/
def Request.Result : Request → Type
  | .probe _ => Kind
  | .list _ => List String
  | .read _ => Bytes
  | .contents _ => List (List String × Kind)
  | .write _ _ _ | .makeDirectory _ | .removeFile _ | .removeDirectory _ | .rename _ _ => Unit

/-- The requests to a disk and their answers. -/
def interface : Interface where
  Question := Request
  Answer q := Except Failure q.Result

/-- A request as an action. -/
def ask (q : Request) : Action interface q.Result := Program.question (I := interface) q

/-- A file with its content, or a directory. -/
inductive Entry where
  | file (content : Bytes)
  | directory
  deriving DecidableEq

/-- What an entry is. -/
def Entry.kind : Entry → Kind
  | .file _ => .file
  | .directory => .directory

end Disk

/-- A disk: the working directory and what stands at which place. The root is always there. -/
structure Disk where
  working : List String
  entries : Entries (List String) Disk.Entry

namespace Disk

/-- The longest name of a file in octets. -/
def maxNameLength : Nat := 255

/-- A disk with an empty working directory. -/
def withWorking (working : List String) : Disk :=
  let places := (List.range working.length).map fun n => working.take (n + 1)
  ⟨working, Entries.ofList (places.map fun p => (p, Entry.directory))⟩

instance : Inhabited Disk := ⟨withWorking []⟩

/-- What stands at a place. -/
def at? (d : Disk) (place : List String) : Option Entry :=
  if place = [] then some .directory else d.entries.get? place

/-- The place that names lead to from another one, each looked up in a directory that is there. -/
def follow (d : Disk) : List String → List String → Except ErrorKind (List String)
  | place, [] => .ok place
  | place, name :: rest =>
    match d.at? place with
    | none => .error .noEntry
    | some (.file _) => .error .notDirectory
    | some .directory =>
      if maxNameLength < (Text.Utf8.encode name).length then .error .nameTooLong
      else if name = ".." then d.follow place.dropLast rest
      else d.follow (place ++ [name]) rest

/-- The place of a path. -/
def locate (d : Disk) (p : Path) : Except ErrorKind (List String) :=
  if p.text.toList.contains '\x00' then .error .embeddedNull
  else d.follow (if p.absolute then [] else d.working) p.parts

/-- The names of what stands directly in a directory. -/
def childNames (d : Disk) (place : List String) : List String :=
  d.entries.keys.filterMap fun k =>
    if k.length = place.length + 1 ∧ place.isPrefixOf k then k.getLast? else none

/-- The names from a directory to everything below it, longer ones first. -/
def below (d : Disk) (place : List String) : List (List String × Kind) :=
  let inner := d.entries.toList.filterMap fun e =>
    if place.isPrefixOf e.1 ∧ e.1 ≠ place then some (e.1.drop place.length, e.2.kind) else none
  inner.mergeSort fun a b => b.1.length ≤ a.1.length

/-- The disk with something at a place. -/
def put (d : Disk) (place : List String) (e : Entry) : Disk :=
  { d with entries := d.entries.set place e }

/-- The disk with nothing at a place. -/
def clear (d : Disk) (place : List String) : Disk := { d with entries := d.entries.erase place }

/-- The effect of a request. -/
def perform (d : Disk) : (q : Request) → Except ErrorKind (q.Result × Disk)
  | .probe p => do
    match d.at? (← d.locate p) with
    | none => throw .noEntry
    | some e => return (e.kind, d)
  | .list p => do
    let place ← d.locate p
    match d.at? place with
    | none => throw .noEntry
    | some (.file _) => throw .notDirectory
    | some .directory => return (d.childNames place, d)
  | .read p => do
    match d.at? (← d.locate p) with
    | none => throw .noEntry
    | some (.file content) => return (content, d)
    | some .directory => throw .isDirectory
  | .write _ p content => do
    let place ← d.locate p
    match d.at? place with
    | some .directory => throw .isDirectory
    | _ => return ((), d.put place (.file content))
  | .makeDirectory p => do
    let place ← d.locate p
    match d.at? place with
    | some _ => throw .exists
    | none => return ((), d.put place .directory)
  | .removeFile p => do
    let place ← d.locate p
    match d.at? place with
    | none => throw .noEntry
    | some (.file _) => return ((), d.clear place)
    | some .directory => throw .isDirectory
  | .removeDirectory p => do
    let place ← d.locate p
    match d.at? place with
    | none => throw .noEntry
    | some (.file _) => throw .notDirectory
    | some .directory =>
      if (d.childNames place).isEmpty then return ((), d.clear place) else throw .notEmpty
  | .rename source target => do
    let src ← d.locate source
    match d.at? src with
    | none => throw .noEntry
    | some .directory => throw .isDirectory
    | some (.file content) =>
      let dst ← d.locate target
      match d.at? dst with
      | some .directory => throw .isDirectory
      | _ => return ((), (d.clear src).put dst (.file content))
  | .contents p => do
    let place ← d.locate p
    match d.at? place with
    | none => throw .noEntry
    | some (.file _) => throw .notDirectory
    | some .directory => return (d.below place, d)

/-- The paths that a report on a refused request names. -/
def Request.paths : Request → Path × Option Path
  | .probe p | .list p | .read p | .write _ p _ | .makeDirectory p | .removeFile p
  | .removeDirectory p | .contents p => (p, none)
  | .rename source target => (source, some target)

/-- The answers of a disk; a refused request changes nothing. -/
def handler : Handler interface Disk := fun q d =>
  match d.perform q with
  | .ok (r, d) => (.ok r, d)
  | .error kind => (.error (.disk ⟨kind, q.paths.1, q.paths.2⟩), d)

end Disk

end CertKeeper
