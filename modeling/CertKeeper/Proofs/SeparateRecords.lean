import CertKeeper.Proofs.StoreSessions

/-!
# What identities share on a disk

Identities of regular names share what is stored under them if and only if they are the same once
the separators in their names are replaced. Calls keep what is held under all other identities
(`DirectoryStore.session_separates`).
-/

namespace CertKeeper

open Disk (Watch)

namespace DirectoryStore

variable {s : DirectoryStore} {B : List String} {m : MemoryStore} {d : Disk}
variable {a b : Identity} {i : Instance} {change : Mutation}

/-! ## Single calls -/

/-- After an upsert a disk holds what a store in memory has before it or after it. -/
theorem exists_holds_upsert (hold : Holds s.base B m d) (ha : a.IsRegular) (change : Mutation) :
    ∃ m', Holds s.base B m' (Action.runWith Disk.handler (s.upsert a change) d).2 ∧
      (m' = m ∨ m' = (m.upsert a.safe change).2) := by
  obtain ⟨r, w', hrun, hheld, -⟩ :=
    Disk.exists_runWith_eq (hold.always_upsert (F := False) ha change)
  rw [hrun]
  refine ⟨_, hheld, ?_⟩
  split
  · exact .inr rfl
  · exact .inl rfl

/-- A record that is held can be read after every upsert of it. -/
theorem exists_getRecord_after_upsert (hold : Holds s.base B m d) (ha : a.IsRegular) {r : Record}
    (hr : m.records.get? a.safe = some r) (change : Mutation) :
    ∃ r', (Action.runWith Disk.handler (s.getRecord a)
      (Action.runWith Disk.handler (s.upsert a change) d).2).1 = .ok r' := by
  obtain ⟨m', hheld, hm⟩ := exists_holds_upsert hold ha change
  obtain ⟨r', hr'⟩ : ∃ r', m'.records.get? a.safe = some r' := by
    rcases hm with rfl | rfl
    · exact ⟨r, hr⟩
    · rcases m.upsert_stores a.safe change with hsame | ⟨r', hset, hkey, -⟩
      · exact ⟨r, by rw [hsame, hr]⟩
      · exact ⟨r', by rw [hset, MemoryStore.get?_setRecord, if_pos hkey]⟩
  exact ⟨_, congrArg Prod.fst (hheld.runWith_getRecord_of_held ha hr')⟩

/-- After an instance has been registered a disk holds it in addition, or what it has held. -/
theorem exists_holds_register (hold : Holds s.base B m d) (hi : i.id.IsRegular) :
    ∃ m', Holds s.base B m' (Action.runWith Disk.handler (s.addInstance i) d).2 ∧
      (m' = m ∨ m' = m.register i) := by
  obtain ⟨r, w', hrun, -, hends⟩ := Disk.exists_runWith_eq (hold.always_addInstance hi)
  rw [hrun]
  cases r with
  | ok x => exact ⟨_, hends, .inr rfl⟩
  | error e => exact ⟨_, hends.1, .inl rfl⟩

/-- After an instance has been removed a disk holds the others, or what it has held. -/
theorem exists_holds_deleteInstance (hold : Holds s.base B m d) (ha : a.IsRegular) :
    ∃ m', Holds s.base B m' (Action.runWith Disk.handler (s.deleteInstance a) d).2 ∧
      (m' = m ∨ m' = m.unregister a) := by
  obtain ⟨r, w', hrun, -, hends⟩ := Disk.exists_runWith_eq (hold.always_deleteInstance ha)
  rw [hrun]
  cases r with
  | ok x => exact ⟨_, hends.2, .inr rfl⟩
  | error e =>
    refine ⟨m, ?_, .inl rfl⟩
    rw [hends.1]
    exact hold

/-- A call of regular names. -/
abbrev Call.IsRegular (c : Call) : Prop := c.Names Identity.IsRegular IsRegularName

/-- The calls of one upsert under a regular identity are regular. -/
theorem isRegular_of_mem_upsert {id : Identity} (hid : id.IsRegular) (change : Mutation) :
    ∀ c ∈ [Call.request (.upsert id change)], c.IsRegular := by
  intro c hc
  rw [List.mem_singleton.mp hc]
  exact hid

/-- A call of regular names leaves a disk that holds a store, with no instance but those it has held
and the one that is registered. -/
private theorem exists_holds_call {c : Call} (hold : Holds s.base B m d) (hc : c.IsRegular) :
    ∃ m', Holds s.base B m' (Action.runWith Disk.handler (c.action s) d).2 ∧
      ∀ k i, m'.instances.get? k = some i → m.instances.get? k = some i ∨ c = .register i := by
  have hlook {α : Type} {action : DiskAction α} (h : Looks action) :
      ∃ m', Holds s.base B m' (Action.runWith Disk.handler action d).2 ∧
        ∀ k i, m'.instances.get? k = some i → m.instances.get? k = some i ∨ c = .register i := by
    rw [runWith_of_looks h]
    exact ⟨m, hold, fun k i hi => .inl hi⟩
  match c, hc with
  | .request (.getRecord id), _ => exact hlook (s.looks_getRecord id)
  | .request (.getInstance id), _ => exact hlook (s.looks_getInstance id)
  | .request (.listInstances space labels), _ => exact hlook (s.looks_listInstances space labels)
  | .request (.upsert id change), hid =>
    obtain ⟨m', hheld, hm⟩ := exists_holds_upsert hold hid change
    refine ⟨m', hheld, fun k i hi => .inl ?_⟩
    rcases hm with rfl | rfl
    · exact hi
    · rwa [MemoryStore.upsert_instances] at hi
  | .request (.deleteInstance id), hid =>
    obtain ⟨m', hheld, hm⟩ := exists_holds_deleteInstance hold hid
    refine ⟨m', hheld, fun k i hi => .inl ?_⟩
    rcases hm with rfl | rfl
    · exact hi
    · rw [MemoryStore.unregister, Entries.get?_erase] at hi
      split at hi
      · cases hi
      · exact hi
  | .register j, hj =>
    obtain ⟨m', hheld, hm⟩ := exists_holds_register hold hj
    refine ⟨m', hheld, fun k i hi => ?_⟩
    rcases hm with rfl | rfl
    · exact .inl hi
    · rw [MemoryStore.register, Entries.get?_set] at hi
      split at hi
      · cases hi
        exact .inr rfl
      · exact .inl hi
  | .reopen, _ =>
    refine ⟨m, ?_, fun k i hi => .inl hi⟩
    rw [show Action.runWith Disk.handler (Call.action s .reopen) d = (.ok (), d) from
      hold.toStands.runWith_prepare]
    exact hold

/-! ## Sessions -/

/-- After any calls of regular names a disk holds a store, whose instances all have been registered
in one of the calls. -/
theorem exists_holds_session (hold : Holds s.base B m d) (calls : List Call)
    (hcalls : ∀ c ∈ calls, c.IsRegular) :
    ∃ m', Holds s.base B m' ((s.session calls).run Disk.handler d).2 ∧
      ∀ k i, m'.instances.get? k = some i → m.instances.get? k = some i ∨ .register i ∈ calls := by
  induction calls generalizing m d with
  | nil => exact ⟨m, hold, fun k i hi => .inl hi⟩
  | cons c calls ih =>
    obtain ⟨m₁, hheld₁, hfrom₁⟩ := exists_holds_call hold (hcalls c List.mem_cons_self)
    obtain ⟨m', hheld, hfrom⟩ := ih hheld₁ fun c hc => hcalls c (List.mem_cons_of_mem _ hc)
    refine ⟨m', ?_, fun k i hi => ?_⟩
    · rw [session, Program.run_bind]
      exact hheld
    · rcases hfrom k i hi with hi | hmem
      · rcases hfrom₁ k i hi with hi | rfl
        · exact .inl hi
        · exact .inr List.mem_cons_self
      · exact .inr (List.mem_cons_of_mem _ hmem)

/-! ## Separation -/

/-- An upsert of one record is not seen when another one is read. -/
private theorem getRecord_after_upsert (hold : Holds s.base B m d) (ha : a.IsRegular)
    (hb : b.IsRegular)
    (hnamed : b.IsNamed) (hne : a.safe ≠ b.safe) :
    (Action.runWith Disk.handler (s.getRecord b)
        (Action.runWith Disk.handler (s.upsert a change) d).2).1 =
      (Action.runWith Disk.handler (s.getRecord b) d).1 := by
  obtain ⟨m', hheld, hm⟩ := exists_holds_upsert hold ha change
  rw [hheld.runWith_getRecord hb hnamed, hold.runWith_getRecord hb hnamed]
  rcases hm with rfl | rfl
  · rfl
  · rw [m.get?_upsert_of_ne hne.symm]

/-- The registration of one instance is not seen when another one is looked for. -/
private theorem getInstance_after_addInstance (hold : Holds s.base B m d) (hi : i.id.IsRegular)
    (hb : b.IsRegular) (hhas : b.HasManifest) (hne : i.id.safe ≠ b.safe) :
    (Action.runWith Disk.handler (s.getInstance b)
        (Action.runWith Disk.handler (s.addInstance i) d).2).1 =
      (Action.runWith Disk.handler (s.getInstance b) d).1 := by
  obtain ⟨m', hheld, hm⟩ := exists_holds_register hold hi
  rw [hheld.runWith_getInstance hb hhas, hold.runWith_getInstance hb hhas]
  rcases hm with rfl | rfl
  · rfl
  · rw [MemoryStore.register, Entries.get?_set, if_neg hne]

/-- The removal of one instance is not seen when another one is looked for. -/
private theorem getInstance_after_deleteInstance (hold : Holds s.base B m d) (ha : a.IsRegular)
    (hb : b.IsRegular) (hhas : b.HasManifest) (hne : a.safe ≠ b.safe) :
    (Action.runWith Disk.handler (s.getInstance b)
        (Action.runWith Disk.handler (s.deleteInstance a) d).2).1 =
      (Action.runWith Disk.handler (s.getInstance b) d).1 := by
  obtain ⟨m', hheld, hm⟩ := exists_holds_deleteInstance hold ha
  rw [hheld.runWith_getInstance hb hhas, hold.runWith_getInstance hb hhas]
  rcases hm with rfl | rfl
  · rfl
  · rw [MemoryStore.unregister, Entries.get?_erase, if_neg hne]

/-- One record is read under all identities that are stored in the same place. -/
private theorem getRecord_shared (hold : Holds s.base B m d) (ha : a.IsRegular) (hb : b.IsRegular)
    (hnamed : b.IsNamed) (hsafe : a.safe = b.safe) {r : Record}
    (hr : (Action.runWith Disk.handler (s.getRecord a) d).1 = .ok r) :
    (Action.runWith Disk.handler (s.getRecord b) d).1 = .ok ⟨b, r.data, r.version⟩ := by
  have hnamed' : a.IsNamed := ⟨hsafe ▸ hnamed.space, hsafe ▸ hnamed.name⟩
  rw [hold.runWith_getRecord ha hnamed', hsafe] at hr
  rw [hold.runWith_getRecord hb hnamed]
  cases hget : m.records.get? b.safe with
  | none => simp [hget, Identity.found] at hr
  | some r₀ =>
    rw [hget] at hr
    cases hr
    rfl

/-- What is listed has been held under the stored namespace. -/
private theorem held_of_listed (hold : Holds s.base B m d) {space : String} {labels : Labels}
    (hspace : IsRegularName space) {l : List Instance}
    (hl : (Action.runWith Disk.handler (s.listInstances space labels) d).1 = .ok l) (hi : i ∈ l) :
    (∃ k, m.instances.get? k = some i) ∧ safeName i.id.space = safeName space := by
  obtain ⟨r, w', hrun, -, hends⟩ :=
    Disk.exists_runWith_eq (hold.always_listInstances hspace labels)
  rw [hrun] at hl
  obtain rfl : r = .ok l := hl
  have hmem := List.mem_filter.mp (hends.2.mem_iff.mp hi)
  rw [MemoryStore.inSpace, List.mem_filter, Entries.mem_values, decide_eq_true_eq] at hmem
  exact hmem.1

/-- After any calls of regular names on a store in an empty directory: two identities that differ
once their separators are replaced do not see the upserts, registrations and removals of each
other; two that do not differ share one record; and all instances that are listed have been
registered under a namespace that does not differ from the listed one. -/
theorem session_separates (hfresh : s.Fresh B d) (calls : List Call)
    (hcalls : ∀ c ∈ calls, c.IsRegular) :
    let d := ((s.session calls).run Disk.handler d).2
    (∀ a b : Identity, a.IsRegular → b.IsRegular → a.safe ≠ b.safe →
      (b.IsNamed → ∀ change : Mutation,
        (Action.runWith Disk.handler (s.getRecord b)
            (Action.runWith Disk.handler (s.upsert a change) d).2).1 =
          (Action.runWith Disk.handler (s.getRecord b) d).1) ∧
      (b.HasManifest → ∀ labels : Labels,
        (Action.runWith Disk.handler (s.getInstance b)
            (Action.runWith Disk.handler (s.addInstance ⟨a, labels⟩) d).2).1 =
          (Action.runWith Disk.handler (s.getInstance b) d).1) ∧
      (b.HasManifest →
        (Action.runWith Disk.handler (s.getInstance b)
            (Action.runWith Disk.handler (s.deleteInstance a) d).2).1 =
          (Action.runWith Disk.handler (s.getInstance b) d).1)) ∧
    (∀ a b : Identity, a.IsRegular → b.IsRegular → b.IsNamed → a.safe = b.safe → ∀ r,
      (Action.runWith Disk.handler (s.getRecord a) d).1 = .ok r →
        (Action.runWith Disk.handler (s.getRecord b) d).1 = .ok ⟨b, r.data, r.version⟩) ∧
    (∀ space labels l, IsRegularName space →
      (Action.runWith Disk.handler (s.listInstances space labels) d).1 = .ok l →
        ∀ i ∈ l, .register i ∈ calls ∧ safeName i.id.space = safeName space) := by
  intro d
  obtain ⟨m, hold, hfrom⟩ := exists_holds_session hfresh.holds calls hcalls
  refine ⟨fun a b ha hb hne => ⟨?_, ?_, ?_⟩, ?_, ?_⟩
  · intro hnamed change
    exact getRecord_after_upsert hold ha hb hnamed hne
  · intro hhas labels
    exact getInstance_after_addInstance (i := ⟨a, labels⟩) hold ha hb hhas hne
  · intro hhas
    exact getInstance_after_deleteInstance hold ha hb hhas hne
  · intro a b ha hb hnamed hsafe r hr
    exact getRecord_shared hold ha hb hnamed hsafe hr
  · intro space labels l hspace hl i hi
    obtain ⟨⟨k, hk⟩, hsame⟩ := held_of_listed hold hspace hl hi
    refine ⟨(hfrom k i hk).resolve_left fun hempty => ?_, hsame⟩
    cases hempty

/-- Of two records one has a separator in its name; changing it is not seen in the other one. -/
theorem session_separates_two :
    let s : DirectoryStore := ⟨⟨true, ["var"]⟩⟩
    let set (octet : UInt8) : Mutation := fun data => .ok (data.set "f" [octet])
    let calls : List Call :=
      [.request (.upsert ⟨"a/b", "c"⟩ (set 1)), .request (.upsert ⟨"a", "c"⟩ (set 2))]
    let d := ((s.session calls).run Disk.handler (.withWorking ["var"])).2
    (∀ c ∈ calls, c.IsRegular) ∧
    (Action.runWith Disk.handler (s.getRecord ⟨"a", "c"⟩)
        (Action.runWith Disk.handler (s.upsert ⟨"a/b", "c"⟩ (set 3)) d).2).1 =
      (Action.runWith Disk.handler (s.getRecord ⟨"a", "c"⟩) d).1 := by
  intro s set calls d
  have hfresh : s.Fresh ["var"] (.withWorking ["var"]) :=
    .of_entries (by decide) (by decide) (by decide) (by decide)
  have hcalls : ∀ c ∈ calls, c.IsRegular := by decide
  have hapart := (session_separates hfresh calls hcalls).1 ⟨"a/b", "c"⟩ ⟨"a", "c"⟩
    (by decide) (by decide) (by decide)
  exact ⟨hcalls, hapart.1 (by decide) (set 3)⟩

end DirectoryStore

end CertKeeper
