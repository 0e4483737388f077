import CertKeeper.Failure
import CertKeeper.Instance

/-!
# Stores

What a program may ask of a store of records and instances. A mutation gets a record's fields and
gives the ones that are to be stored; it may fail, and then nothing is stored.
-/

namespace CertKeeper

/-- A change of a record's fields. -/
abbrev Mutation := Fields → Except Failure Fields

/-- The requests to a store. -/
inductive Store.Request where
  | getRecord (id : Identity)
  /-- Creates a record or changes it. -/
  | upsert (id : Identity) (change : Mutation)
  | getInstance (id : Identity)
  /-- The instances of a namespace that carry the given labels. -/
  | listInstances (space : String) (labels : Labels)
  | deleteInstance (id : Identity)

/-- What a store answers. -/
def Store.Request.Result : Store.Request → Type
  | .getRecord _ => Record
  | .upsert _ _ => Outcome
  | .getInstance _ => Instance
  | .listInstances _ _ => List Instance
  | .deleteInstance _ => Unit

/-- The requests to a store and their answers. -/
def Store : Interface where
  Question := Store.Request
  Answer q := Except Failure q.Result

namespace Store

/-- The record with an identity. -/
def getRecord (id : Identity) : Action Store Record := Program.question (I := Store) (.getRecord id)

/-- Creates a record or changes it. -/
def upsert (id : Identity) (change : Mutation) : Action Store Outcome :=
  Program.question (I := Store) (.upsert id change)

/-- The instance with an identity. -/
def getInstance (id : Identity) : Action Store Instance :=
  Program.question (I := Store) (.getInstance id)

/-- The instances of a namespace that carry the given labels. -/
def listInstances (space : String) (labels : Labels) : Action Store (List Instance) :=
  Program.question (I := Store) (.listInstances space labels)

/-- Removes an instance. -/
def deleteInstance (id : Identity) : Action Store Unit :=
  Program.question (I := Store) (.deleteInstance id)

end Store

end CertKeeper
