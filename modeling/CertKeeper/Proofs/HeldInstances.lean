import CertKeeper.Proofs.StoreContents

/-!
# Instances on a disk that holds a store

Registering and removing an instance changes what is held of it, or nothing
(`Holds.always_addInstance`, `Holds.always_deleteInstance`); finding and listing instances gives
what is held of them (`Holds.always_getInstance`, `Holds.always_listInstances`).
-/

namespace CertKeeper

open DirectoryStore (safeName spaceNames instanceNames)
open Disk (IsName service FileAt)
open CertKeeper.Action (Always)

variable {base : Disk.Path} {B : List String} {m : MemoryStore} {d : Disk} {id : Identity}
variable {s : DirectoryStore} {i : Instance}

/-! ## Instances -/

/-- A store in memory with an instance under the identity it is stored under. -/
def MemoryStore.register (m : MemoryStore) (i : Instance) : MemoryStore :=
  { m with instances := m.instances.set i.id.safe i }

/-- A store in memory without the instance that is stored under an identity. -/
def MemoryStore.unregister (m : MemoryStore) (id : Identity) : MemoryStore :=
  { m with instances := m.instances.erase id.safe }

/-- What a store holds is in the way of no directory of instances. -/
private theorem Holds.makeable_space {space : String} (hold : Holds base B m d)
    (hspace : IsRegularName space) (hname : IsName (safeName space)) :
    Disk.Makeable B (spaceNames space) true d := by
  rw [hspace.spaceNames]
  refine ⟨by simpa using ⟨(by decide : IsName "instances"), hname⟩, ?_, by simp⟩
  intro names content hnames hat
  cases names with
  | nil =>
    rw [List.append_nil, hold.directory] at hat
    cases hat
  | cons a names =>
    have hslot := hold.slot a names _ hat
    cases hslot.directory_of_space hnames

/-- Registering an instance changes what is held by that instance, or nothing if its manifest has
no proper name. -/
theorem Holds.always_addInstance (hold : Holds s.base B m d) (hid : i.id.IsRegular) :
    Always (service False) (fun _ => True) (s.addInstance i)
      (fun _ w' => Holds s.base B (m.register i) w'.disk)
      (fun _ w' => Holds s.base B m w'.disk ∧ ¬ i.id.HasManifest) ⟨d, false⟩ := by
  have hmanifest := hold.at?_instanceNames hid
  have hR : ∀ names v, FileAt (instanceNames i.id) names v → instanceNames i.id <+: names ∧
      ∀ e, v = some e → names = instanceNames i.id ∧ ∃ content, e = .file content := by
    rintro names v ⟨rfl, content, rfl⟩
    refine ⟨List.prefix_refl _, fun e he => ⟨rfl, content, ?_⟩⟩
    exact (Option.some.inj he).symm
  have hadd := DirectoryStore.always_addInstance (F := False) (w := ⟨d, false⟩) hold.toStands
    hid.space.ne_dots
  refine hadd.mono (fun _ _ => trivial) ?_ ?_
  · intro _ w' hkeeps hat
    refine hold.of_instance hid hkeeps.toKeeps (List.prefix_refl _) hR ?_ ?_ rfl ?_
    · rw [hat]
      simp [MemoryStore.register, manifestEntry]
    · intro k hk
      simp [MemoryStore.register, Ne.symm hk]
    · intro j hj
      simp only [MemoryStore.register, Entries.get?_set, if_true, Option.some.injEq] at hj
      rw [← hj]
  · rintro e w' hkeeps ⟨hsame, hF⟩
    refine ⟨hold.of_instance hid hkeeps.toKeeps (List.prefix_refl _) hR ?_ (fun _ _ => rfl) rfl
      (hold.instanceKey _), fun hhas => hF ?_ ?_ ?_⟩
    · rw [hsame not_false]
      exact hmanifest
    · exact hold.makeable_space hid.space hhas.space
    · exact hhas.name
    · rw [hmanifest]
      cases m.instances.get? i.id.safe <;> simp [manifestEntry]

/-- Removing an instance changes what is held by that instance, or nothing if there is none or its
manifest has no proper name. -/
theorem Holds.always_deleteInstance (hold : Holds s.base B m d) (hid : id.IsRegular) :
    Always (service False) (fun _ => True) (s.deleteInstance id)
      (fun _ w' => m.instances.contains id.safe = true ∧
        Holds s.base B (m.unregister id) w'.disk)
      (fun e w' => w'.disk = d ∧ (e = .instanceNotFound id ∧
        m.instances.contains id.safe = false ∨ ¬ id.HasManifest)) ⟨d, false⟩ := by
  have hmanifest := hold.at?_instanceNames hid
  refine (DirectoryStore.always_deleteInstance (F := False) (w := ⟨d, false⟩) hold.toStands
    hid.space.ne_dots).mono (fun _ _ => trivial) ?_ ?_
  · rintro _ w' hkeeps ⟨hthere, hgone⟩
    refine ⟨?_, hold.of_instance hid hkeeps.toKeeps List.nil_prefix ?_ ?_ ?_ rfl ?_⟩
    · rw [hmanifest] at hthere
      rw [Entries.contains]
      simpa [Option.isSome_iff_ne_none] using hthere
    · rintro names v ⟨habove, rfl⟩
      exact ⟨habove, by simp⟩
    · rw [hgone]
      simp [MemoryStore.unregister]
    · intro k hk
      simp [MemoryStore.unregister, Ne.symm hk]
    · intro j hj
      simp [MemoryStore.unregister] at hj
  · rintro e w' - ⟨rfl, ⟨rfl, hnone⟩ | hF⟩
    · refine ⟨rfl, .inl ⟨rfl, ?_⟩⟩
      rw [hmanifest] at hnone
      simpa [Entries.contains] using hnone
    · refine ⟨rfl, .inr fun hhas => hF (hhas.isName hid) ?_⟩
      rw [hmanifest]
      cases m.instances.get? id.safe <;> simp [manifestEntry]

/-- An instance is found as it is held. -/
theorem Holds.always_getInstance (hold : Holds s.base B m d) (hid : id.IsRegular) :
    Always (service False) (fun _ => True) (s.getInstance id)
      (fun x w' => w'.disk = d ∧ m.instances.get? id.safe = some x)
      (fun e w' => w'.disk = d ∧ (e = .instanceNotFound id ∧ m.instances.get? id.safe = none ∨
        ¬ id.HasManifest)) ⟨d, false⟩ := by
  have hmanifest := hold.at?_instanceNames hid
  cases hget : m.instances.get? id.safe with
  | none =>
    rw [hget] at hmanifest
    refine (DirectoryStore.always_getInstance_none (w := ⟨d, false⟩) hold.toStands trivial
      hid.space.ne_dots hmanifest).mono (fun _ h => h) (fun _ _ _ hno => hno.elim) ?_
    rintro e w' - ⟨rfl, rfl | hF⟩
    · exact ⟨rfl, .inl ⟨rfl, rfl⟩⟩
    · exact ⟨rfl, .inr fun hhas => hF (hhas.isName hid)⟩
  | some i =>
    rw [hget] at hmanifest
    refine (DirectoryStore.always_getInstance (w := ⟨d, false⟩) hold.toStands trivial
      hmanifest).mono (fun _ h => h) ?_ ?_
    · rintro x w' - ⟨rfl, rfl⟩
      exact ⟨rfl, rfl⟩
    · rintro e w' - ⟨-, hF⟩
      exact hF.elim

/-- What a look for an instance says of what is registered. -/
def Identity.registered (id : Identity) : Option Instance → Except Failure Instance
  | some i => .ok i
  | none => .error (.instanceNotFound id)

/-- An instance that can have a manifest is found on a disk as the held store has it, and nothing is
changed. -/
theorem Holds.runWith_getInstance (hold : Holds s.base B m d) (hid : id.IsRegular)
    (hhas : id.HasManifest) : Action.runWith Disk.handler (s.getInstance id) d =
      (id.registered (m.instances.get? id.safe), d) := by
  refine Disk.runWith_eq_of_always ((hold.always_getInstance hid).mono (fun _ h => h) ?_ ?_)
  · rintro x w' - ⟨hsame, hget⟩
    rw [hget]
    exact ⟨rfl, hsame⟩
  · rintro e w' - ⟨hsame, ⟨rfl, hnone⟩ | hnot⟩
    · rw [hnone]
      exact ⟨rfl, hsame⟩
    · exact absurd hhas hnot

/-! ## Listing -/

/-- The name of a manifest without its ending. -/
def DirectoryStore.stem (n : String) : String := String.ofList (n.toList.take (n.toList.length - 5))

/-- The name of a manifest is that of an instance with an ending. -/
theorem DirectoryStore.stem_append {n : String} (h : n.endsWith ".json" = true) :
    stem n ++ ".json" = n := by
  rw [String.endsWith_eq_endsWith_toSlice, String.Slice.endsWith_string_iff] at h
  obtain ⟨init, hinit⟩ := h
  have hn : n.toList = init ++ ".json".toList := by simpa using hinit.symm
  apply String.toList_inj.mp
  rw [stem, String.toList_append, String.toList_ofList, hn]
  simp

private theorem endsWith_append_json (s : String) : (s ++ ".json").endsWith ".json" = true := by
  rw [String.endsWith_eq_endsWith_toSlice, String.Slice.endsWith_string_iff]
  simp

/-- The instances under a stored namespace. -/
def MemoryStore.inSpace (m : MemoryStore) (space : String) : List Instance :=
  m.instances.values.filter fun i => i.id.safe.space = safeName space

/-- The instance under a stored namespace with a file of a given name. -/
def MemoryStore.atFile (m : MemoryStore) (space n : String) : Instance :=
  (m.instances.get? ⟨safeName space, DirectoryStore.stem n⟩).getD default

section Listing

variable {space : String} {labels : Labels}

/-- A manifest in the directory of a namespace is that of the instance with its name. -/
theorem Holds.atFile {n : String} (hold : Holds base B m d)
    (hspace : IsRegularName space) (hn : n.endsWith ".json" = true)
    (hat : d.at? (B ++ (spaceNames space ++ [n])) ≠ none) :
    m.instances.get? ⟨safeName space, DirectoryStore.stem n⟩ = some (m.atFile space n) ∧
      d.at? (B ++ (spaceNames space ++ [n])) = some (manifestEntry (m.atFile space n)) := by
  have hmanifest := hold.manifest ⟨safeName space, DirectoryStore.stem n⟩
  dsimp only at hmanifest
  rw [DirectoryStore.stem_append hn] at hmanifest
  rw [hspace.spaceNames] at hat ⊢
  simp only [List.cons_append, List.nil_append] at hat ⊢
  rw [hmanifest] at hat ⊢
  unfold MemoryStore.atFile
  cases hget : m.instances.get? ⟨safeName space, DirectoryStore.stem n⟩ with
  | none => simp [hget] at hat
  | some i => simp

/-- The manifests in the directory of a namespace are those of its instances, one each. -/
theorem Holds.manifests_perm (hold : Holds base B m d)
    (hspace : IsRegularName space) :
    ((DirectoryStore.manifestNames (d.childNames (B ++ spaceNames space))).map
      (m.atFile space)).Perm (m.inSpace space) := by
  have hmem (n : String) :
      n ∈ DirectoryStore.manifestNames (d.childNames (B ++ spaceNames space)) ↔
        n.endsWith ".json" = true ∧ d.at? (B ++ (spaceNames space ++ [n])) ≠ none := by
    rw [DirectoryStore.manifestNames, List.mem_mergeSort, List.mem_filter, Disk.mem_childNames,
      List.append_assoc, and_comm]
  have hfile (n : String)
      (hn : n ∈ DirectoryStore.manifestNames (d.childNames (B ++ spaceNames space))) :
      m.instances.get? ⟨safeName space, DirectoryStore.stem n⟩ = some (m.atFile space n) :=
    (hold.atFile hspace ((hmem n).mp hn).1 ((hmem n).mp hn).2).1
  rw [List.perm_ext_iff_of_nodup]
  · intro i
    rw [List.mem_map, MemoryStore.inSpace, List.mem_filter, Entries.mem_values, decide_eq_true_eq]
    constructor
    · rintro ⟨n, hn, rfl⟩
      refine ⟨⟨_, hfile n hn⟩, ?_⟩
      exact congrArg Identity.space (hold.instanceKey _ _ (hfile n hn))
    · rintro ⟨⟨key, hget⟩, hkey⟩
      obtain rfl := hold.instanceKey _ _ hget
      refine ⟨i.id.safe.name ++ ".json", (hmem _).mpr ⟨?_, ?_⟩, ?_⟩
      · exact endsWith_append_json _
      · rw [hspace.spaceNames]
        have hmanifest := hold.manifest i.id.safe
        rw [hget, hkey] at hmanifest
        simp [hmanifest]
      · have hstem : DirectoryStore.stem (i.id.safe.name ++ ".json") = i.id.safe.name :=
          eq_of_append_json (DirectoryStore.stem_append (endsWith_append_json _))
        rw [MemoryStore.atFile, hstem, ← hkey]
        exact congrArg (Option.getD · default) hget
  · refine List.Nodup.map_on ?_ ?_
    · intro n hn n' hn' heq
      have hkey := hold.instanceKey _ _ (hfile n hn)
      rw [heq, hold.instanceKey _ _ (hfile n' hn')] at hkey
      rw [← DirectoryStore.stem_append ((hmem n).mp hn).1,
        ← DirectoryStore.stem_append ((hmem n').mp hn').1]
      exact congrArg (· ++ ".json") (congrArg Identity.name hkey).symm
    · rw [DirectoryStore.manifestNames, (List.mergeSort_perm _ _).nodup_iff]
      exact Disk.childNames_nodup.filter _
  · exact (Entries.nodup_values hold.instanceKey).filter _

/-- The instances of a namespace are read in the order of their manifests. -/
theorem Holds.always_listInstances_in_order (hold : Holds s.base B m d)
    (hspace : IsRegularName space) (labels : Labels) :
    Always (service False) (fun _ => True) (s.listInstances space labels)
      (fun x w' => w'.disk = d ∧
        x = ((DirectoryStore.manifestNames (d.childNames (B ++ spaceNames space))).map
          (m.atFile space)).filter fun i => i.matches labels)
      (fun _ w' => w'.disk = d ∧ ¬ IsName (safeName space)) ⟨d, false⟩ := by
  refine (DirectoryStore.always_listInstances (g := m.atFile space) (w := ⟨d, false⟩)
    hold.toStands trivial hspace.ne_dots fun n hn hat => (hold.atFile hspace hn hat).2).mono
      (fun _ h => h) ?_ ?_
  · rintro x w' - ⟨rfl, rfl⟩
    exact ⟨rfl, rfl⟩
  · rintro e w' - ⟨rfl, hF⟩
    refine ⟨rfl, fun hname => hF ?_⟩
    rw [hspace.spaceNames]
    simpa using ⟨(by decide : IsName "instances"), hname⟩

/-- The instances of a namespace are listed as they are held, once each. -/
theorem Holds.always_listInstances (hold : Holds s.base B m d) (hspace : IsRegularName space)
    (labels : Labels) :
    Always (service False) (fun _ => True) (s.listInstances space labels)
      (fun x w' => w'.disk = d ∧ x.Perm ((m.inSpace space).filter fun i => i.matches labels))
      (fun _ w' => w'.disk = d ∧ ¬ IsName (safeName space)) ⟨d, false⟩ := by
  refine (hold.always_listInstances_in_order hspace labels).mono (fun _ h => h) ?_ fun _ _ _ h => h
  rintro x w' - ⟨hsame, rfl⟩
  exact ⟨hsame, (hold.manifests_perm hspace).filter _⟩

end Listing

end CertKeeper
