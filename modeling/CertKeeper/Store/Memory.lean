import CertKeeper.Store

/-!
# Stores in memory

A store as two maps. An upsert gives a new record version 1, raises the version of a record that it
changes, and stores nothing when the fields stay the same in whatever order.
-/

namespace CertKeeper

/-- The records and the instances by identity. -/
structure MemoryStore where
  records : Entries Identity Record
  instances : Entries Identity Instance

namespace MemoryStore

/-- A store without anything in it. -/
def empty : MemoryStore := ⟨.empty, .empty⟩

instance : Inhabited MemoryStore := ⟨empty⟩

/-- The record with an identity. -/
def getRecord (s : MemoryStore) (id : Identity) : Except Failure Record :=
  match s.records.get? id with
  | some r => .ok r
  | none => .error (.recordNotFound id)

/-- Stores a record. -/
def setRecord (s : MemoryStore) (r : Record) : MemoryStore :=
  { s with records := s.records.set r.id r }

/-- Creates a record or changes it. -/
def upsert (s : MemoryStore) (id : Identity) (change : Mutation) :
    Except Failure Outcome × MemoryStore :=
  match s.records.get? id with
  | none =>
    match change .empty with
    | .error e => (.error e, s)
    | .ok data => (.ok .created, s.setRecord ⟨id, data, 1⟩)
  | some r =>
    match change r.data with
    | .error e => (.error e, s)
    | .ok data =>
      if data.same r.data then (.ok .unchanged, s)
      else (.ok .updated, s.setRecord ⟨id, data, r.version + 1⟩)

/-- Registers an instance. -/
def addInstance (s : MemoryStore) (i : Instance) : MemoryStore :=
  { s with instances := s.instances.set i.id i }

/-- The instance with an identity. -/
def getInstance (s : MemoryStore) (id : Identity) : Except Failure Instance :=
  match s.instances.get? id with
  | some i => .ok i
  | none => .error (.instanceNotFound id)

/-- The instances of a namespace that carry the given labels, by name. -/
def listInstances (s : MemoryStore) (space : String) (labels : Labels) : List Instance :=
  (s.instances.values.filter fun i => i.id.space = space && i.matches labels).mergeSort
    fun a b => a.id.name ≤ b.id.name

/-- Removes an instance. -/
def deleteInstance (s : MemoryStore) (id : Identity) : Except Failure Unit × MemoryStore :=
  if s.instances.contains id then (.ok (), { s with instances := s.instances.erase id })
  else (.error (.instanceNotFound id), s)

/-- The answers of a store in memory. -/
def handler : Handler Store MemoryStore
  | .getRecord id, s => (s.getRecord id, s)
  | .upsert id change, s => s.upsert id change
  | .getInstance id, s => (s.getInstance id, s)
  | .listInstances space labels, s => (.ok (s.listInstances space labels), s)
  | .deleteInstance id, s => s.deleteInstance id

end MemoryStore

end CertKeeper
