import CertKeeper.Proofs.RecordWrites

/-!
# Upserts in a directory

An upsert reads the record, lets the fields be changed and writes what has become of them. Whatever
breaks down on the way, what is stored is what a store in memory has before the upsert or after it,
and which of the two is told by whether the index has been moved (`DirectoryStore.always_upsert`).
-/

namespace CertKeeper

namespace DirectoryStore

open Disk (Path IsStep IsName Stands Keeps Watch service)
open CertKeeper.Action (Always)

variable {B P : List String} {F : Prop} {w w' : Watch} {s : DirectoryStore} {id k : Identity}
variable {m : MemoryStore} {change : Mutation} {r : Record}

/-- Writing a new version of a record stores the new one or leaves the former one, as a whole. -/
private theorem always_writeVersion {old : Option Record} (h : Stands s.base B w.disk)
    (hmoved : w.moved = false) (hsteps : ∀ n ∈ recordNames r.id, IsStep n)
    (hold : RecordAt B (recordNames r.id) old w.disk)
    (hnew : ∀ r₀, old = some r₀ → r₀.version ≠ r.version) :
    Always (service F)
      (fun w' =>
        Keeps s.base B (RecordRegion (recordNames r.id)) (recordNames r.id) w.disk w'.disk ∧
        RecordAt B (recordNames r.id) (if w'.moved then some r else old) w'.disk)
      (s.writeRecord r)
      (fun _ w' => w'.moved = true ∧ (¬ F → Tidy B (recordNames r.id) r w'.disk))
      (fun _ w' => (w'.moved = true → F) ∧ (Writable B (recordNames r.id) r w.disk → F)) w := by
  refine (always_writeRecord h hsteps).mono ?_ ?_ ?_
  · intro w' hprogress
    refine ⟨hprogress.keeps, ?_⟩
    rcases hprogress with hpending | ⟨hmoved', hpublished, -⟩
    · rw [hpending.moved, hmoved]
      exact hold.pending (head_versionName r.version)
        (fun r₀ hr₀ => versionName_inj.not.mpr (hnew r₀ hr₀)) hpending
    · rw [hmoved']
      exact hpublished
  · exact fun _ _ _ hQ => ⟨hQ.1, hQ.2.2⟩
  · exact fun _ _ _ hE => ⟨hE.1 hmoved, hE.2⟩

/-- What is stored of a record does not depend on its identity. -/
private theorem Published.of_id {data : Fields} {version : Int} {d : Disk} {a b : Identity}
    (h : Published B P ⟨a, data, version⟩ d) : Published B P ⟨b, data, version⟩ d :=
  ⟨h.distinct, h.index, h.field⟩

/-! ## Upserts -/

/-- At every moment of an upsert: the record is stored as before, or as after once the index has
been moved, and only places in the directory of the record are touched. -/
structure Midway (base : Path) (B P : List String) (m : MemoryStore) (k : Identity)
    (change : Mutation) (w w' : Watch) : Prop where
  keeps : Keeps base B (RecordRegion P) P w.disk w'.disk
  stored : RecordAt B P ((if w'.moved then (m.upsert k change).2 else m).records.get? k) w'.disk

/-- An upsert that has been done: its outcome is that of a store in memory, the index has been moved
unless there was nothing to write, and where it has been moved nothing of former versions is
left. -/
structure Upserted (F : Prop) (B P : List String) (m : MemoryStore) (k : Identity)
    (change : Mutation) (o : Outcome) (w' : Watch) : Prop where
  outcome : (m.upsert k change).1 = .ok o
  moves : w'.moved = true ↔ o ≠ .unchanged
  same : w'.moved = false → (m.upsert k change).2 = m
  tidy : ¬ F → w'.moved = true →
    ∃ r, (m.upsert k change).2.records.get? k = some r ∧ Tidy B P r w'.disk

/-- An upsert that has failed: the mutation fails, the disk breaks down, there can be no such
directory, or the record cannot be stored. -/
structure Refused (F : Prop) (B P : List String) (m : MemoryStore) (k : Identity)
    (change : Mutation) (e : Failure) (w w' : Watch) : Prop where
  unmoved : w'.moved = true → F
  why : (m.upsert k change).1 = .error e ∨ F ∨ (¬ ∀ n ∈ P, IsName n) ∨
    ∃ r, (m.upsert k change).2.records.get? k = some r ∧ ¬ Writable B P r w.disk

/-- An upsert that comes to writing a version. -/
theorem always_upsertVersion {data : Fields} {version : Int} {o : Outcome}
    (h : Stands s.base B w.disk) (hmoved : w.moved = false)
    (hsteps : ∀ n ∈ recordNames id, IsStep n)
    (hold : RecordAt B (recordNames id) (m.records.get? k) w.disk)
    (ho : o ≠ .unchanged) (hm : m.upsert k change = (.ok o, m.setRecord ⟨k, data, version⟩))
    (hnew : ∀ r₀, m.records.get? k = some r₀ → r₀.version ≠ version) :
    Always (service F) (Midway s.base B (recordNames id) m k change w)
      (do
        s.writeRecord ⟨id, data, version⟩
        return o)
      (Upserted F B (recordNames id) m k change)
      (fun e w' => Refused F B (recordNames id) m k change e w w') w := by
  have hstored : (m.upsert k change).2.records.get? k = some ⟨k, data, version⟩ := by
    simp [hm]
  have hmidway (w' : Watch) (hC : Keeps s.base B (RecordRegion (recordNames id)) (recordNames id)
        w.disk w'.disk ∧ RecordAt B (recordNames id)
          (if w'.moved then some (⟨id, data, version⟩ : Record) else m.records.get? k) w'.disk) :
      Midway s.base B (recordNames id) m k change w w' := by
    refine ⟨hC.1, ?_⟩
    have hat := hC.2
    cases hmoved' : w'.moved with
    | false => simpa [hmoved'] using hat
    | true =>
      rw [hmoved'] at hat
      simp only [if_true, hstored]
      exact Published.of_id hat
  refine Always.bind ((always_writeVersion (r := ⟨id, data, version⟩) h hmoved hsteps hold
    hnew).mono hmidway ?_ ?_)
  · rintro _ w' hC ⟨hmoved', htidy⟩
    refine Always.pure (hmidway w' hC) ⟨by rw [hm], by simp [hmoved', ho], by simp [hmoved'],
      fun hF _ => ⟨_, hstored, ?_⟩⟩
    exact ⟨(htidy hF).staged, (htidy hF).onlyFiles, (htidy hF).former⟩
  · rintro e w' - ⟨hmoved', hF⟩
    refine ⟨hmoved', .inr ?_⟩
    by_cases hw : Writable B (recordNames id) ⟨k, data, version⟩ w.disk
    · exact .inl (hF ⟨hw.distinct, hw.fileName, hw.isName, hw.noFile, hw.index, hw.staged⟩)
    · exact .inr (.inr ⟨_, hstored, hw⟩)

/-- What an upsert on a disk may come to. -/
theorem always_upsert (h : Stands s.base B w.disk) (hmoved : w.moved = false)
    (hsteps : ∀ n ∈ recordNames id, IsStep n)
    (hold : RecordAt B (recordNames id) (m.records.get? k) w.disk) :
    Always (service F) (Midway s.base B (recordNames id) m k change w) (s.upsert id change)
      (Upserted F B (recordNames id) m k change)
      (fun e w' => Refused F B (recordNames id) m k change e w w') w := by
  have hnow : Midway s.base B (recordNames id) m k change w w :=
    ⟨h.keeps, by rw [hmoved]; exact hold⟩
  unfold upsert
  refine Always.bind ((always_readRecord? h hnow hsteps hold).mono (fun _ h => h) ?_ ?_)
  · rintro _ w - ⟨rfl, rfl⟩
    cases hget : m.records.get? k with
    | none =>
      cases hchange : change .empty with
      | error e =>
        have hm : (m.upsert k change).1 = .error e := by simp [MemoryStore.upsert, hget, hchange]
        exact Always.bind (Always.throw hnow ⟨by simp [hmoved], .inl hm⟩)
      | ok data =>
        have hm : m.upsert k change = (.ok .created, m.setRecord ⟨k, data, 1⟩) := by
          simp [MemoryStore.upsert, hget, hchange]
        exact Always.bind (Always.pure hnow
          (always_upsertVersion h hmoved hsteps hold (by decide) hm (by simp [hget])))
    | some r =>
      cases hchange : change r.data with
      | error e =>
        have hm : (m.upsert k change).1 = .error e := by simp [MemoryStore.upsert, hget, hchange]
        refine Always.bind (?_ : Always _ _ (ExceptT.mk (Pure.pure (change r.data))) _ _ _)
        rw [hchange]
        exact Always.throw hnow ⟨by simp [hmoved], .inl hm⟩
      | ok data =>
        refine Always.bind (?_ : Always _ _ (ExceptT.mk (Pure.pure (change r.data))) _ _ _)
        rw [hchange]
        refine Always.pure hnow ?_
        dsimp only
        split
        · next hsame =>
          have hm : m.upsert k change = (.ok .unchanged, m) := by
            simp [MemoryStore.upsert, hget, hchange, hsame]
          exact Always.pure hnow
            ⟨by rw [hm], by simp [hmoved], fun _ => by rw [hm], by simp [hmoved]⟩
        · next hsame =>
          have hm : m.upsert k change =
              (.ok .updated, m.setRecord ⟨k, data, r.version + 1⟩) := by
            simp [MemoryStore.upsert, hget, hchange, hsame]
          refine always_upsertVersion h hmoved hsteps hold (by decide) hm ?_
          intro r₀ hr₀
          rw [hget] at hr₀
          cases hr₀
          omega
  · rintro e w - ⟨rfl, hF⟩
    refine ⟨by simp [hmoved], .inr ?_⟩
    by_cases hnames : ∀ n ∈ recordNames id, IsName n
    · exact .inl (hF hnames)
    · exact .inr (.inl hnames)

end DirectoryStore

end CertKeeper
