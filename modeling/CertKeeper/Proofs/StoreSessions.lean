import CertKeeper.Proofs.HeldInstances
import CertKeeper.Proofs.HeldRecords

/-!
# Sessions with a store in a directory

What may be done with a store in a directory, what a store in memory does in its place, and any
number of calls one after another.
-/

namespace CertKeeper

namespace DirectoryStore

/-- What may be done with a store in a directory: it gets a request, an instance is registered, or
it is opened once more. -/
inductive Call where
  | request (q : Store.Request)
  | register (i : Instance)
  | reopen

namespace Call

/-- What a call gives. -/
def Result : Call → Type
  | .request q => q.Result
  | .register _ => Unit
  | .reopen => Unit

/-- A call as an action on the disk. -/
def action (s : DirectoryStore) : (c : Call) → DiskAction c.Result
  | .request q => ExceptT.mk (s.answer q)
  | .register i => s.addInstance i
  | .reopen => s.prepare

/-- What a store in memory does at a call. -/
def inMemory : (c : Call) → MemoryStore → Except Failure c.Result × MemoryStore
  | .request q, m => MemoryStore.handler q m
  | .register i, m => (.ok (), m.addInstance i)
  | .reopen, m => (.ok (), m)

/-- A call in which all identities are of one kind, and listed namespaces of another. -/
def Names (P : Identity → Prop) (Q : String → Prop) : Call → Prop
  | .request (.getRecord id) => P id
  | .request (.upsert id _) => P id
  | .request (.getInstance id) => P id
  | .request (.listInstances space _) => Q space
  | .request (.deleteInstance id) => P id
  | .register i => P i.id
  | .reopen => True

instance {P : Identity → Prop} {Q : String → Prop} [DecidablePred P] [DecidablePred Q] :
    DecidablePred (Names P Q)
  | .request (.getRecord id) => inferInstanceAs (Decidable (P id))
  | .request (.upsert id _) => inferInstanceAs (Decidable (P id))
  | .request (.getInstance id) => inferInstanceAs (Decidable (P id))
  | .request (.listInstances space _) => inferInstanceAs (Decidable (Q space))
  | .request (.deleteInstance id) => inferInstanceAs (Decidable (P id))
  | .register i => inferInstanceAs (Decidable (P i.id))
  | .reopen => inferInstanceAs (Decidable True)

end Call

/-- Calls one after another, whatever comes of each of them. -/
def session (s : DirectoryStore) : List Call → Program Disk.interface Unit
  | [] => .done ()
  | c :: calls => (c.action s).run.bind fun _ => s.session calls

/-- A call by itself leaves what it leaves as a session. -/
theorem run_session_singleton (s : DirectoryStore) (c : Call) (d : Disk) :
    ((s.session [c]).run Disk.handler d).2 = (Action.runWith Disk.handler (c.action s) d).2 := by
  rw [session, Program.run_bind]
  rfl

end DirectoryStore

end CertKeeper
