import CertKeeper.Proofs.WatchedDisk

/-!
# Operations that only look

Reading a record, finding an instance and listing instances ask a disk for nothing that changes it,
so that they leave it as it is, whatever comes of them.
-/

namespace CertKeeper

open Disk (Path Request Watch service)
open CertKeeper.Action (Asks Always)

/-- Actions for each member of a list in turn ask what they ask. -/
theorem Action.Asks.mapM {I : Interface} {α β : Type} {P : I.Question → Prop} {f : α → Action I β}
    (hf : ∀ x, Asks P (f x)) (l : List α) : Asks P (l.mapM f) := by
  induction l with
  | nil => exact asks_pure []
  | cons x l ih =>
    rw [List.mapM_cons]
    exact (hf x).bind fun y => ih.bind fun ys => asks_pure (y :: ys)

private theorem Disk.asks_ask {q : Request} {P : Request → Prop} (hq : P q) :
    Asks (I := Disk.interface) P (Disk.ask q) := ⟨hq, fun _ => trivial⟩

/-- What only looks at a disk leaves it as it is. -/
theorem Disk.always_of_looks {α : Type} {a : Action Disk.interface α} {F : Prop}
    {C : Watch → Prop} {w : Watch} (ha : Asks (I := Disk.interface) Request.Looks a) (hC : C w) :
    Always (service F) C a (fun _ w' => w' = w) (fun _ w' => w' = w) w :=
  Action.always_of_asks ha (fun _ _ _ hq h => (Disk.service_look hq h).1) hC

namespace DirectoryStore

/-- An action that only looks at the disk. -/
abbrev Looks {α : Type} (a : DiskAction α) : Prop := Asks (I := Disk.interface) Request.Looks a

/-- What only looks at a disk leaves it as it is. -/
theorem runWith_of_looks {α : Type} {action : DiskAction α} (h : Looks action) (d : Disk) :
    (Action.runWith Disk.handler action d).2 = d := by
  obtain ⟨r, w', hrun, -, hends⟩ := Disk.exists_runWith_eq
    (Disk.always_of_looks (C := fun _ => True) (w := ⟨d, false⟩) h trivial)
  rw [hrun]
  cases r with
  | ok x => exact congrArg Watch.disk hends
  | error e => exact congrArg Watch.disk hends

private theorem looks_probe? (p : Path) : Looks (probe? p) := by
  refine (Disk.asks_ask trivial).outcome.bind fun r => ?_
  rcases r with e | kind
  · cases e with
    | disk e =>
      dsimp only
      split
      all_goals trivial
    | _ => trivial
  · trivial

/-- Looking whether something is there changes nothing. -/
theorem looks_isThere (p : Path) : Looks (isThere p) := (looks_probe? p).bind fun _ => trivial

/-- Looking whether a directory is there changes nothing. -/
theorem looks_isDirectory (p : Path) : Looks (isDirectory p) :=
  (looks_probe? p).bind fun _ => trivial

private theorem looks_readText (p : Path) : Looks (readText p) :=
  (Disk.asks_ask trivial).bind fun content => Action.asks_ofExcept .text (Text.Utf8.decode content)

private theorem looks_readField (p : Path) (file : String × Json) : Looks (readField p file) :=
  (Disk.asks_ask trivial).bind fun _ =>
    (Action.asks_ofExcept .index (readLabel file.2)).bind fun _ => trivial

variable (s : DirectoryStore) (id : Identity)

/-- Reading a record that must be there changes nothing. -/
theorem looks_readRecord : Looks (s.readRecord id) := by
  refine (looks_isThere _).bind fun there => ?_
  cases there with
  | false => exact trivial
  | true =>
    refine (looks_readText _).bind fun text => ?_
    refine (Action.asks_ofExcept .index (Store.Index.ofText text)).bind fun index => ?_
    exact (Asks.mapM (looks_readField _) index.fields).bind fun _ => trivial

/-- Reading a record only looks at the disk. -/
theorem looks_getRecord : Looks (s.getRecord id) := (s.looks_readRecord id).bind fun _ => trivial

/-- Reading a record changes nothing. -/
theorem looks_readRecord? : Looks (s.readRecord? id) := by
  refine (s.looks_readRecord id).outcome.bind fun r => ?_
  rcases r with e | x
  · dsimp only
    split
    · trivial
    · trivial
  · trivial

/-- Finding an instance only looks at the disk. -/
theorem looks_getInstance : Looks (s.getInstance id) := by
  refine (looks_isThere _).bind fun there => ?_
  cases there with
  | false => exact trivial
  | true =>
    exact (looks_readText _).bind fun text =>
      Action.asks_ofExcept .manifest (Store.Manifest.ofText text)

/-- Listing instances only looks at the disk. -/
theorem looks_listInstances (space : String) (labels : Labels) :
    Looks (s.listInstances space labels) := by
  refine (looks_isDirectory _).bind fun there => ?_
  cases there with
  | false => exact trivial
  | true =>
    refine (Disk.asks_ask trivial).bind fun names => ?_
    refine (Asks.mapM (fun n => looks_readText _) _).bind fun texts => ?_
    refine (Asks.mapM (fun text => ?_) texts).bind fun _ => trivial
    exact Action.asks_ofExcept .manifest (Store.Manifest.ofText text)

end DirectoryStore

end CertKeeper
