import CertKeeper.Proofs.HeldRecords

/-!
# Versions are published atomically

`DirectoryStore.Reached` relates a disk on which any number of upserts have been made, each of which
may have broken down anywhere or have been cut short, to the store in memory that has seen those of
them that came to move their index. Reading such a disk gives what that store has, and the next
upsert does what that store does and leaves nothing of former versions
(`DirectoryStore.publication_atomic`).
-/

namespace CertKeeper

open Disk (Watch)

namespace DirectoryStore

variable {s : DirectoryStore} {B : List String} {d d' : Disk} {m : MemoryStore} {id : Identity}

/-- What becomes of an empty base directory by upserts, any of which may break down at any of its
requests or stop before any of them, and what a store in memory has after those upserts that have
moved their index to its place. -/
inductive Reached (s : DirectoryStore) (B : List String) : MemoryStore → Disk → Prop where
  | fresh {d : Disk} (h : s.Fresh B d) : Reached s B .empty d
  | upsert {m : MemoryStore} {d d' : Disk} {id : Identity} {change : Mutation} {moved : Bool}
      {result : Option (Except Failure Outcome)} (before : Reached s B m d) (plain : id.IsPlain)
      (run : Program.Runs (Disk.service True) (s.upsert id change).run ⟨d, false⟩ result
        ⟨d', moved⟩) :
      Reached s B (if moved then (m.upsert id change).2 else m) d'

/-- An upsert on a disk that works may be stopped after any number of requests. -/
theorem Reached.runFor {change : Mutation} {n : Nat} {w : Watch} (before : s.Reached B m d)
    (plain : id.IsPlain)
    (hw : w = ((s.upsert id change).run.runFor Disk.watchHandler n ⟨d, false⟩).2) :
    s.Reached B (if w.moved then (m.upsert id change).2 else m) w.disk := by
  subst hw
  exact before.upsert plain (Program.runs_runFor Disk.service_watchHandler n _ _)

/-- However upserts break down, the disk holds what has been published. -/
theorem Reached.holds (h : s.Reached B m d) : Holds s.base B m d := by
  induction h with
  | fresh h => exact h.holds
  | upsert before plain run ih =>
    have hheld := ((ih.always_upsert plain.isRegular _).run.of_runs run).1
    rwa [plain.safe] at hheld

/-- A store that is opened on a disk after upserts that may have broken down or have been cut short
reads of each record what has been published last, and its next upsert does what a store in memory
does that has the same records and leaves nothing behind, unless the record has no files. -/
theorem publication_atomic (h : s.Reached B m d) (hid : id.IsPlain) :
    Action.runWith Disk.handler (do s.prepare; s.getRecord id) d = (m.getRecord id, d) ∧
    ∀ change : Mutation, ∃ d',
      (Action.runWith Disk.handler (do s.prepare; s.upsert id change) d =
          ((m.upsert id change).1, d') ∧
        s.Reached B (m.upsert id change).2 d' ∧
        ∀ o r, (m.upsert id change).1 = .ok o → o ≠ .unchanged →
          (m.upsert id change).2.records.get? id = some r → Tidy B (recordNames id) r d') ∨
      (∃ e, Action.runWith Disk.handler (do s.prepare; s.upsert id change) d = (.error e, d')) ∧
        s.Reached B m d' ∧ Unfit m id change := by
  have hold := h.holds
  constructor
  · rw [hold.toStands.runWith_prepare_bind, hold.runWith_getRecord hid.isRegular hid.isNamed,
      hid.safe, MemoryStore.getRecord]
    cases hget : m.records.get? id with
    | none => rfl
    | some r =>
      rw [← (hold.recordKey id r hget).1]
      rfl
  · intro change
    have hruns := Disk.runs_watchHandler (F := True) (s.upsert id change).run ⟨d, false⟩
    cases hrun : (s.upsert id change).run.run Disk.watchHandler ⟨d, false⟩ with
    | mk r w' =>
      rw [hrun] at hruns
      have hreached := h.upsert hid hruns
      have hwatch := Disk.runWith_of_watch hrun
      have hboth := (hold.toStands.runWith_prepare_bind (s.upsert id change)).trans hwatch
      have hdone := hold.upsert_done hid.isRegular hid.isNamed hrun
      rw [hid.safe] at hdone
      refine ⟨w'.disk, ?_⟩
      rcases hdone with ⟨rfl, hm, htidy⟩ | ⟨⟨e, rfl⟩, hunmoved, hunfit⟩
      · rw [hm] at hreached
        exact .inl ⟨hboth, hreached, htidy⟩
      · rw [hunmoved] at hreached
        exact .inr ⟨⟨e, hboth⟩, hreached, hunfit⟩

/-- A mutation that sets a field to one octet. -/
private def setField (octet : UInt8) : Mutation := fun data => .ok (data.set "f" [octet])

/-- A disk on which a first version of a record has been stored. -/
private def firstVersion (s : DirectoryStore) (id : Identity) : Watch :=
  ((s.upsert id (setField 1)).run.runFor Disk.watchHandler 100 ⟨.withWorking ["var"], false⟩).2

/-- A disk where a second upsert has written its only file and its index and has stopped before
moving the index to its place. -/
private def cutShort (s : DirectoryStore) (id : Identity) : Watch :=
  ((s.upsert id (setField 2)).run.runFor Disk.watchHandler 7 ⟨(firstVersion s id).disk, false⟩).2

/-- After an upsert that has been cut short the former version still counts. -/
theorem publication_atomic_cut :
    let s : DirectoryStore := ⟨⟨true, ["var"]⟩⟩
    let id : Identity := ⟨"n", "a"⟩
    (cutShort s id).disk.at? ["var", "records", "n", "a", "v2", "f"] = some (.file [2]) ∧
    (Action.runWith Disk.handler (do s.prepare; s.getRecord id) (cutShort s id).disk).1.toOption.map
      (fun r => (r.data.toList, r.version)) = some ([("f", [1])], 1) := by
  intro s id
  have hplain : id.IsPlain := by decide +kernel
  have hfresh : s.Fresh ["var"] (.withWorking ["var"]) :=
    .of_entries (by decide +kernel) (by decide +kernel) (by decide +kernel) (by decide +kernel)
  have hreached := ((Reached.fresh hfresh).runFor (w := firstVersion s id) hplain rfl).runFor
    (w := cutShort s id) hplain rfl
  have hreads := (publication_atomic hreached hplain).1
  refine ⟨by decide +kernel, ?_⟩
  rw [hreads]
  decide +kernel

end DirectoryStore

end CertKeeper
