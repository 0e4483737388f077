import CertKeeper.Proofs.StoreSessions

/-!
# A directory as a store in memory

Under plain names a store in a directory goes along with a store in memory: every call does what
that store does, or it fails, and then that store has not been called
(`DirectoryStore.refines_memory`). When it may fail is told call by call
(`DirectoryStore.Call.Refusable`).
-/

namespace CertKeeper

namespace DirectoryStore

/-- A call of plain names. -/
abbrev Call.IsPlain (c : Call) : Prop := c.Names Identity.IsPlain IsPlainName

/-- Two results of a call are the same, but for the order in which instances are listed. -/
def Call.Alike : (c : Call) → Except Failure c.Result → Except Failure c.Result → Prop
  | .request (.listInstances _ _), x, y => ∃ l l', x = .ok l ∧ y = .ok l' ∧ l.Perm l'
  | _, x, y => x = y

/-- What a disk may refuse: a record that has no files, and an instance whose manifest would have
too long a name. -/
def Call.Refusable : Call → MemoryStore → Prop
  | .request (.upsert id change), m => Unfit m id change
  | .request (.getInstance id), _ => ¬ id.HasManifest
  | .request (.deleteInstance id), _ => ¬ id.HasManifest
  | .register i, _ => ¬ i.id.HasManifest
  | _, _ => False

/-- What a call comes to: a store in a directory does what a store in memory does, or it fails and
is left like a store in memory that has not been called. -/
inductive Call.Step (s : DirectoryStore) (c : Call) (m : MemoryStore) (d : Disk) :
    MemoryStore → Disk → Prop where
  | same {r : Except Failure c.Result} {d' : Disk}
      (run : Action.runWith Disk.handler (c.action s) d = (r, d'))
      (alike : c.Alike r (c.inMemory m).1) : Call.Step s c m d (c.inMemory m).2 d'
  | refused {e : Failure} {d' : Disk}
      (run : Action.runWith Disk.handler (c.action s) d = (.error e, d'))
      (why : c.Refusable m) : Call.Step s c m d m d'

/-- Call by call a store in a directory goes along with a store in memory. -/
def Refines (s : DirectoryStore) : List Call → MemoryStore → Disk → Prop
  | [], _, _ => True
  | c :: calls, m, d => ∃ m' d', c.Step s m d m' d' ∧ s.Refines calls m' d'

variable {s : DirectoryStore} {B : List String} {m : MemoryStore} {d : Disk}
variable {id : Identity} {i : Instance} {change : Mutation}

/-! ## Single calls -/

private theorem step_upsert (hold : Holds s.base B m d) (hid : id.IsPlain) :
    ∃ m' d', (Call.request (.upsert id change)).Step s m d m' d' ∧ Holds s.base B m' d' ∧
      m'.instances = m.instances := by
  have halways := hold.always_upsert (F := False) hid.isRegular change
  cases hrun : (s.upsert id change).run.run Disk.watchHandler ⟨d, false⟩ with
  | mk r w' =>
    have hwatch := Disk.runWith_of_watch hrun
    have hheld := (Disk.run_of_always halways.run hrun).1
    have hdone := hold.upsert_done hid.isRegular hid.isNamed hrun
    rw [hid.safe] at hheld hdone
    rcases hdone with ⟨rfl, hm, -⟩ | ⟨⟨e, rfl⟩, hunmoved, hunfit⟩
    · rw [hm] at hheld
      exact ⟨_, _, .same hwatch rfl, hheld, m.upsert_instances id change⟩
    · rw [hunmoved] at hheld
      exact ⟨_, _, .refused hwatch hunfit, hheld, rfl⟩

private theorem step_getRecord (hold : Holds s.base B m d) (hid : id.IsPlain) :
    (Call.request (.getRecord id)).Step s m d m d := by
  refine .same (c := .request (.getRecord id))
    (hold.runWith_getRecord hid.isRegular hid.isNamed) ?_
  change id.found (m.records.get? id.safe) = m.getRecord id
  rw [hid.safe, MemoryStore.getRecord]
  cases hget : m.records.get? id with
  | none => rfl
  | some r =>
    rw [← (hold.recordKey id r hget).1]
    rfl

private theorem step_getInstance (hold : Holds s.base B m d) (hid : id.IsPlain) :
    (Call.request (.getInstance id)).Step s m d m d := by
  obtain ⟨r, w', hrun, -, hends⟩ :=
    Disk.exists_runWith_eq (hold.always_getInstance hid.isRegular)
  cases r with
  | ok x =>
    obtain ⟨hsame, hget⟩ := hends
    rw [hid.safe] at hget
    rw [hsame] at hrun
    refine .same (c := .request (.getInstance id)) hrun ?_
    change Except.ok x = m.getInstance id
    rw [MemoryStore.getInstance, hget]
  | error e =>
    obtain ⟨hsame, ⟨rfl, hnone⟩ | hhas⟩ := hends
    · rw [hid.safe] at hnone
      rw [hsame] at hrun
      refine .same (c := .request (.getInstance id)) hrun ?_
      change Except.error _ = m.getInstance id
      rw [MemoryStore.getInstance, hnone]
    · rw [hsame] at hrun
      exact .refused (c := .request (.getInstance id)) hrun hhas

private theorem step_register (hold : Holds s.base B m d) (hid : i.id.IsPlain) :
    ∃ m' d', (Call.register i).Step s m d m' d' ∧ Holds s.base B m' d' ∧
      (m' = m ∨ m' = m.addInstance i) := by
  obtain ⟨r, w', hrun, -, hends⟩ :=
    Disk.exists_runWith_eq (hold.always_addInstance hid.isRegular)
  cases r with
  | ok x =>
    have hadd : m.register i = m.addInstance i := by
      rw [MemoryStore.register, hid.safe]
      rfl
    rw [Action.Ends, hadd] at hends
    exact ⟨_, _, .same (c := .register i) hrun rfl, hends, .inr rfl⟩
  | error e => exact ⟨_, _, .refused (c := .register i) hrun hends.2, hends.1, .inl rfl⟩

private theorem step_deleteInstance (hold : Holds s.base B m d) (hid : id.IsPlain) :
    ∃ m' d', (Call.request (.deleteInstance id)).Step s m d m' d' ∧ Holds s.base B m' d' ∧
      (m' = m ∨ m' = { m with instances := m.instances.erase id }) := by
  obtain ⟨r, w', hrun, -, hends⟩ :=
    Disk.exists_runWith_eq (hold.always_deleteInstance hid.isRegular)
  cases r with
  | ok x =>
    obtain ⟨hthere, hheld⟩ := hends
    rw [hid.safe] at hthere
    rw [MemoryStore.unregister, hid.safe] at hheld
    have hdelete : m.deleteInstance id =
        (.ok (), { m with instances := m.instances.erase id }) := if_pos hthere
    refine ⟨_, _, .same (c := .request (.deleteInstance id)) hrun ?_, ?_, .inr ?_⟩
    · exact (congrArg Prod.fst hdelete).symm
    · exact (congrArg Prod.snd hdelete).symm ▸ hheld
    · exact congrArg Prod.snd hdelete
  | error e =>
    obtain ⟨hsame, ⟨rfl, hnone⟩ | hhas⟩ := hends
    · rw [hid.safe] at hnone
      have hdelete : m.deleteInstance id = (.error (.instanceNotFound id), m) :=
        if_neg (by simp [hnone])
      rw [hsame] at hrun
      refine ⟨_, _, .same (c := .request (.deleteInstance id)) hrun ?_, ?_, .inl ?_⟩
      · exact (congrArg Prod.fst hdelete).symm
      · exact (congrArg Prod.snd hdelete).symm ▸ hold
      · exact congrArg Prod.snd hdelete
    · rw [hsame] at hrun
      exact ⟨_, _, .refused (c := .request (.deleteInstance id)) hrun hhas, hold, .inl rfl⟩

/-- Instances with plain identities only. -/
def AllPlain (m : MemoryStore) : Prop := ∀ k i, m.instances.get? k = some i → i.id.IsPlain

/-- The instances of a plain namespace are those that are stored under it. -/
theorem AllPlain.inSpace {space : String} (h : AllPlain m)
    (hspace : IsPlainName space) :
    m.inSpace space = m.instances.values.filter fun i => i.id.space = space := by
  apply List.filter_congr
  intro i hi
  obtain ⟨k, hget⟩ := Entries.mem_values.mp hi
  rw [(h k i hget).safe, hspace.safeName_eq]

private theorem step_listInstances {space : String} {labels : Labels} (hold : Holds s.base B m d)
    (hplain : AllPlain m) (hspace : IsPlainName space) :
    (Call.request (.listInstances space labels)).Step s m d m d := by
  obtain ⟨r, w', hrun, -, hends⟩ := Disk.exists_runWith_eq
    (hold.always_listInstances hspace.isRegularName labels)
  cases r with
  | ok x =>
    obtain ⟨hsame, hperm⟩ := hends
    rw [hsame] at hrun
    refine .same (c := .request (.listInstances space labels)) hrun ⟨x, _, rfl, rfl, ?_⟩
    rw [hplain.inSpace hspace, List.filter_filter] at hperm
    simp only [Bool.and_comm] at hperm
    exact hperm.trans (List.mergeSort_perm _ _).symm
  | error e =>
    refine absurd hspace.toIsName ?_
    rw [← hspace.safeName_eq]
    exact hends.2

/-- Every call of plain identities is one step of a store in memory, or of none. -/
private theorem exists_step {c : Call} (hold : Holds s.base B m d) (hplain : AllPlain m)
    (hc : c.IsPlain) :
    ∃ m' d', c.Step s m d m' d' ∧ Holds s.base B m' d' ∧ AllPlain m' := by
  match c, hc with
  | .request (.getRecord id), hid => exact ⟨m, d, step_getRecord hold hid, hold, hplain⟩
  | .request (.upsert id change), hid =>
    obtain ⟨m', d', hstep, hheld, hinstances⟩ := step_upsert hold hid
    refine ⟨m', d', hstep, hheld, ?_⟩
    rw [AllPlain, hinstances]
    exact hplain
  | .request (.getInstance id), hid => exact ⟨m, d, step_getInstance hold hid, hold, hplain⟩
  | .request (.listInstances space labels), hspace =>
    exact ⟨m, d, step_listInstances hold hplain hspace, hold, hplain⟩
  | .request (.deleteInstance id), hid =>
    obtain ⟨m', d', hstep, hheld, rfl | rfl⟩ := step_deleteInstance hold hid
    · exact ⟨m', d', hstep, hheld, hplain⟩
    · refine ⟨_, d', hstep, hheld, fun k i hi => ?_⟩
      rw [Entries.get?_erase] at hi
      split at hi
      · cases hi
      · exact hplain k i hi
  | .register i, hid =>
    obtain ⟨m', d', hstep, hheld, rfl | rfl⟩ := step_register hold hid
    · exact ⟨m', d', hstep, hheld, hplain⟩
    · refine ⟨_, d', hstep, hheld, fun k j hj => ?_⟩
      rw [MemoryStore.addInstance, Entries.get?_set] at hj
      split at hj
      · cases hj
        exact hid
      · exact hplain k j hj
  | .reopen, _ =>
    refine ⟨m, d, .same (c := .reopen) hold.toStands.runWith_prepare rfl, hold, hplain⟩

/-! ## Sequences of calls -/

private theorem refines_of_holds (hold : Holds s.base B m d) (hplain : AllPlain m)
    (calls : List Call)
    (hcalls : ∀ c ∈ calls, c.IsPlain) : s.Refines calls m d := by
  induction calls generalizing m d with
  | nil => trivial
  | cons c calls ih =>
    obtain ⟨m', d', hstep, hheld, hplain'⟩ :=
      exists_step hold hplain (hcalls c List.mem_cons_self)
    exact ⟨m', d', hstep, ih hheld hplain' fun c hc => hcalls c (List.mem_cons_of_mem _ hc)⟩

/-- A store in an empty directory goes along with an empty store in memory, whatever is done with it
under plain identities, and however often it is opened again. It fails where that store does not
only where a record has no files or the name of a manifest is too long, and then nothing changes. -/
theorem refines_memory (hfresh : s.Fresh B d) (calls : List Call)
    (hcalls : ∀ c ∈ calls, c.IsPlain) : s.Refines calls .empty d :=
  refines_of_holds hfresh.holds (fun k i hi => by cases hi) calls hcalls

/-- A record with two fields is stored and changed, and an instance comes and goes. -/
theorem refines_memory_session :
    let s : DirectoryStore := ⟨⟨true, ["var"]⟩⟩
    let calls : List Call := [
      .request (.upsert ⟨"n", "a"⟩ fun data => .ok ((data.set "f" [1]).set "g/h" [])), .reopen,
      .request (.upsert ⟨"n", "a"⟩ fun data => .ok (data.set "f" [2])),
      .request (.getRecord ⟨"n", "a"⟩), .register ⟨⟨"n", "b"⟩, .empty⟩,
      .request (.listInstances "n" .empty), .request (.deleteInstance ⟨"n", "b"⟩)]
    (∀ c ∈ calls, c.IsPlain) ∧ s.Refines calls .empty (.withWorking ["var"]) := by
  intro s calls
  have hplain : ∀ c ∈ calls, c.IsPlain := by decide +kernel
  have hfresh : s.Fresh ["var"] (.withWorking ["var"]) :=
    .of_entries (by decide +kernel) (by decide +kernel) (by decide +kernel) (by decide +kernel)
  exact ⟨hplain, refines_memory hfresh calls hplain⟩

/-- A record with a single field is refused whose name cannot be that of a file. -/
theorem upsert_refused_field :
    let s : DirectoryStore := ⟨⟨true, ["var"]⟩⟩
    let change : Mutation := fun data => .ok (data.set "a\x00b" [1])
    let stored := (MemoryStore.upsert .empty ⟨"n", "a"⟩ change)
    stored.1.isOk = true ∧
    (stored.2.records.get? ⟨"n", "a"⟩).map (fun r => r.data.keys) = some ["a\x00b"] ∧
    (Action.runWith Disk.handler (s.upsert ⟨"n", "a"⟩ change) (.withWorking ["var"])).1.isOk =
      false := by
  decide +kernel

end DirectoryStore

end CertKeeper
