import CertKeeper.Proofs.RecordFiles

/-!
# Instances in files

Where the manifests of instances are, and what registering, removing, finding and listing instances
does to the places inside the base directory and says about them.
-/

namespace CertKeeper

namespace DirectoryStore

open Disk (Path IsStep IsName Stands Watch service Gone FileAt Makeable always_isThere
  always_isDirectory always_list always_write always_makeDirectories)
open Disk.Path (splitNames)
open CertKeeper.Action (Always)

variable {B names : List String} {F : Prop} {w w' : Watch} {s : DirectoryStore}
variable {C : Watch → Prop} {i : Instance} {id : Identity}

/-! ## Names and paths -/

/-- The name of the manifest of an instance. -/
def manifestName (name : String) : String := safeName name ++ ".json"

private theorem isStep_manifestName (name : String) : IsStep (manifestName name) := by
  have hlength : 5 ≤ (manifestName name).toList.length := by
    rw [manifestName, String.toList_append, List.length_append]
    exact Nat.le_add_left _ _
  have hne (t : String) (ht : t.toList.length < 5) : manifestName name ≠ t := by
    rintro rfl
    omega
  refine ⟨hne _ (by decide), hne _ (by decide), hne _ (by decide), ?_⟩
  rw [manifestName, String.toList_append, List.mem_append, not_or]
  exact ⟨no_slash_safeName name, by decide⟩

/-- The names from the base directory to that of the instances of a namespace. -/
def spaceNames (space : String) : List String := "instances" :: splitNames (safeName space)

/-- The names from the base directory to the manifest of an instance. -/
def instanceNames (id : Identity) : List String := spaceNames id.space ++ [manifestName id.name]

/-- The directory of a namespace with instances, by its names below the base directory. -/
theorem instanceDirectory_eq (s : DirectoryStore) (space : String) :
    s.instanceDirectory space = s.base.append (spaceNames space) := by
  rw [instanceDirectory, (by decide : IsStep "instances").div,
    Path.div_of_no_slash _ (no_slash_safeName _), Path.append_append]
  rfl

private theorem instancePath_eq (s : DirectoryStore) (id : Identity) :
    s.instancePath id = s.base.append (instanceNames id) := by
  change s.instanceDirectory id.space / manifestName id.name = _
  rw [instanceDirectory_eq, (isStep_manifestName _).div, Path.append_append]
  rfl

private theorem instancePath_parent (s : DirectoryStore) (id : Identity) :
    (s.instancePath id).parent = s.base.append (spaceNames id.space) := by
  rw [instancePath_eq]
  simp [Path.parent, Path.append, instanceNames, ← List.append_assoc]

private theorem isStep_of_mem_spaceNames {space : String} (h : space ≠ "..") :
    ∀ n ∈ spaceNames space, IsStep n := by
  intro n hn
  rcases List.mem_cons.mp hn with rfl | hn
  · decide
  · exact isStep_of_mem_splitNames h hn

private theorem isStep_of_mem_instanceNames (h : id.space ≠ "..") :
    ∀ n ∈ instanceNames id, IsStep n :=
  List.forall_mem_append.mpr
    ⟨isStep_of_mem_spaceNames h, by simpa using isStep_manifestName id.name⟩

/-! ## Registering -/

/-- Registering an instance changes its manifest and makes the directories above it. -/
theorem always_addInstance (h : Stands s.base B w.disk) (hspace : i.id.space ≠ "..") :
    Always (service F)
      (Watch.Keeps s.base B (FileAt (instanceNames i.id)) (spaceNames i.id.space) w)
      (s.addInstance i)
      (fun _ w' => w'.disk.at? (B ++ instanceNames i.id) =
        some (.file (Text.Utf8.encode (Store.Manifest.text i))))
      (fun _ w' => (¬ F → w'.disk.at? (B ++ instanceNames i.id) =
          w.disk.at? (B ++ instanceNames i.id)) ∧
        (Makeable B (spaceNames i.id.space) true w.disk → IsName (manifestName i.id.name) →
          w.disk.at? (B ++ instanceNames i.id) ≠ some .directory → F)) w := by
  have hsteps := isStep_of_mem_spaceNames hspace
  have hnotway : ¬ instanceNames i.id <+: spaceNames i.id.space := by
    intro habove
    have := habove.length_le
    simp only [instanceNames, List.length_append, List.length_singleton] at this
    omega
  have hapart : ∀ names, names <+: spaceNames i.id.space →
      ¬ FileAt (instanceNames i.id) names none := by
    rintro names - ⟨-, c, hc⟩
    cases hc
  unfold addInstance
  dsimp only
  rw [instancePath_parent, instancePath_eq]
  refine Always.bind ((always_makeDirectories h hsteps).mono ?_ ?_ ?_)
  · exact fun _ hkeeps => hkeeps.mono (fun _ _ hno => hno.elim) (List.prefix_refl _)
  · intro _ w₁ hkeeps₁ hmade
    have hsame := hkeeps₁.same (fun _ hno => hno) hnotway
    have hway : Watch.Keeps s.base B (FileAt (instanceNames i.id)) (spaceNames i.id.space) w w₁ :=
      hkeeps₁.mono (fun _ _ hno => hno.elim) (List.prefix_refl _)
    refine (always_write hkeeps₁.stands (isStep_of_mem_instanceNames hspace)).mono ?_
      (fun _ _ _ h => h) ?_
    · exact fun _ hkeeps => hway.trans hapart (hkeeps.mono (fun _ _ h => h) List.nil_prefix)
    · rintro e w₂ - ⟨hsame₂, hF⟩
      refine ⟨fun hno => by rw [hsame₂ hno, hsame], fun hm hname hother => hF ?_ ?_ ?_⟩
      · rw [instanceNames, List.dropLast_concat]
        exact hmade
      · exact List.forall_mem_append.mpr ⟨hm.isName, by simpa using hname⟩
      · rw [hsame]
        exact hother
  · intro e w₁ hkeeps₁ hF
    exact ⟨fun _ => hkeeps₁.same (fun _ hno => hno) hnotway, fun hm _ _ => hF hm⟩

/-! ## Removing -/

/-- Removing an instance removes its manifest, if there is one. -/
theorem always_deleteInstance (h : Stands s.base B w.disk) (hspace : id.space ≠ "..") :
    Always (service F) (Watch.Keeps s.base B (Gone (instanceNames id)) [] w) (s.deleteInstance id)
      (fun _ w' => w.disk.at? (B ++ instanceNames id) ≠ none ∧
        w'.disk.at? (B ++ instanceNames id) = none)
      (fun e w' => w' = w ∧
        (e = .instanceNotFound id ∧ w.disk.at? (B ++ instanceNames id) = none ∨
        ((∀ n ∈ instanceNames id, IsName n) →
          w.disk.at? (B ++ instanceNames id) ≠ some .directory → F))) w := by
  have hsteps := isStep_of_mem_instanceNames hspace
  unfold deleteInstance
  rw [instancePath_eq]
  refine Always.bind ((always_isThere h.watchKeeps _).mono (fun _ h => h) ?_ ?_)
  · rintro there w - ⟨rfl, hthere⟩
    rw [h.seen? hsteps, Option.isSome_map] at hthere
    cases there with
    | false =>
      refine Always.bind (Always.throw h.watchKeeps ⟨rfl, .inl ⟨rfl, ?_⟩⟩)
      simpa using hthere.symm
    | true =>
      have hne : instanceNames id ≠ [] := by simp [instanceNames]
      have hremove := Disk.always_removeContent (F := F) h hne ([], .file) (by simpa using hsteps)
      unfold removeContent at hremove
      rw [Path.append_nil, List.append_nil] at hremove
      refine hremove.mono (fun _ h => h) ?_ ?_
      · rintro _ w' - rfl
        refine ⟨fun hnone => by simp [hnone] at hthere, ?_⟩
        rw [Disk.at?_clear (by simp [instanceNames]), if_pos rfl]
      · rintro e w' - ⟨rfl, hF⟩
        refine ⟨rfl, .inr fun hnames hother => ?_⟩
        rcases hat : w'.disk.at? (B ++ instanceNames id) with _ | ⟨content⟩ | _
        · simp [hat] at hthere
        · exact hF ⟨_, hat, rfl⟩ fun n => h.sound.none_below (by simp [hat])
        · exact absurd hat hother
  · rintro e w - ⟨rfl, he⟩
    exact ⟨rfl, .inr fun hnames _ => he.broken h hnames⟩

/-! ## Finding -/

/-- An instance is read from its manifest. -/
theorem always_getInstance (h : Stands s.base B w.disk) (hC : C w)
    (hat : w.disk.at? (B ++ instanceNames id) =
      some (.file (Text.Utf8.encode (Store.Manifest.text i)))) :
    Always (service F) C (s.getInstance id) (fun x w' => w' = w ∧ x = i) (fun _ w' => w' = w ∧ F)
      w := by
  have hnames := h.sound.isName_of_mem hat
  unfold getInstance
  rw [instancePath_eq]
  refine Always.bind ((always_isThere hC _).mono (fun _ h => h) ?_ ?_)
  · rintro there w - ⟨rfl, hthere⟩
    rw [h.seen? fun n hn => (hnames n hn).toIsStep, hat] at hthere
    subst hthere
    refine Always.bind ((always_readText h hC hat).mono (fun _ h => h) ?_ ?_)
    · rintro _ w - ⟨rfl, rfl⟩
      refine Always.ofExcept hC ?_
      rw [Store.Manifest.ofText_text]
      exact ⟨rfl, rfl⟩
    · rintro e w - ⟨rfl, -, hF⟩
      exact ⟨rfl, hF⟩
  · rintro e w - ⟨rfl, he⟩
    exact ⟨rfl, he.broken h hnames⟩

/-- An instance without a manifest is not found. -/
theorem always_getInstance_none (h : Stands s.base B w.disk) (hC : C w) (hspace : id.space ≠ "..")
    (hnone : w.disk.at? (B ++ instanceNames id) = none) :
    Always (service F) C (s.getInstance id) (fun _ _ => False)
      (fun e w' => w' = w ∧
        (e = .instanceNotFound id ∨ ((∀ n ∈ instanceNames id, IsName n) → F))) w := by
  unfold getInstance
  rw [instancePath_eq]
  refine Always.bind ((always_isThere hC _).mono (fun _ h => h) ?_ ?_)
  · rintro there w - ⟨rfl, hthere⟩
    rw [h.seen? (isStep_of_mem_instanceNames hspace), hnone] at hthere
    subst hthere
    exact Always.bind (Always.throw hC ⟨rfl, .inl rfl⟩)
  · rintro e w - ⟨rfl, he⟩
    exact ⟨rfl, .inr fun hnames => he.broken h hnames⟩

/-! ## Listing -/

/-- The names of the manifests among those in a directory, in their order. -/
def manifestNames (names : List String) : List String :=
  (names.filter fun n => n.endsWith ".json").mergeSort fun a b => a ≤ b

/-- The instances of a namespace are read from the manifests in its directory. -/
theorem always_listInstances {space : String} {labels : Labels} {g : String → Instance}
    (h : Stands s.base B w.disk) (hC : C w) (hspace : space ≠ "..")
    (hmanifests : ∀ n, n.endsWith ".json" = true →
      w.disk.at? (B ++ (spaceNames space ++ [n])) ≠ none →
      w.disk.at? (B ++ (spaceNames space ++ [n])) =
        some (.file (Text.Utf8.encode (Store.Manifest.text (g n))))) :
    Always (service F) C (s.listInstances space labels)
      (fun x w' => w' = w ∧ x = ((manifestNames (w.disk.childNames (B ++ spaceNames space))).map
        g).filter fun i => i.matches labels)
      (fun _ w' => w' = w ∧ ((∀ n ∈ spaceNames space, IsName n) → F)) w := by
  have hsteps := isStep_of_mem_spaceNames hspace
  unfold listInstances
  rw [instanceDirectory_eq]
  refine Always.bind ((always_isDirectory hC _).mono (fun _ h => h) ?_ ?_)
  · rintro there w - ⟨rfl, hthere⟩
    have hdirectory : there = true ↔ w.disk.at? (B ++ spaceNames space) = some .directory := by
      rw [← h.seen?_eq_directory hsteps, hthere, beq_iff_eq]
    cases there with
    | false =>
      have hnames : w.disk.childNames (B ++ spaceNames space) = [] := by
        rw [List.eq_nil_iff_forall_not_mem]
        intro n hn
        refine Disk.mem_childNames.mp hn (h.sound.none_below fun hat => ?_)
        simpa using hdirectory.mpr hat
      exact Always.pure hC ⟨rfl, by simp [hnames, manifestNames]⟩
    | true =>
      have hat := hdirectory.mp rfl
      refine Always.bind ((always_list h hC hat).mono (fun _ h => h) ?_ fun _ _ _ h =>
        ⟨h.1, fun _ => h.2⟩)
      rintro _ w - ⟨rfl, rfl⟩
      refine Always.bind ((Always.mapM (g := fun n => Store.Manifest.text (g n))
        (l := manifestNames (w.disk.childNames (B ++ spaceNames space)))
        (E := fun _ w' => w' = w ∧ F) hC ?_).mono (fun _ h => h) ?_
          fun _ _ _ h => ⟨h.1, fun _ => h.2⟩)
      · intro n hn
        rw [manifestNames, List.mem_mergeSort, List.mem_filter, Disk.mem_childNames,
          List.append_assoc] at hn
        have hfile := hmanifests n hn.2 hn.1
        have hname : IsName n := h.sound.isName_of_mem hfile n (by simp)
        rw [hname.toIsStep.div, Path.append_append]
        refine (always_readText h hC hfile).mono (fun _ h => h) ?_ fun _ _ _ h => ⟨h.1, h.2.2⟩
        exact fun _ _ _ h => ⟨h.2, h.1⟩
      · rintro _ w - ⟨rfl, rfl⟩
        rw [List.mapM_map]
        refine Always.bind ((Always.mapM (g := g)
          (E := fun _ w' => w' = w ∧ F) hC ?_).mono (fun _ h => h) ?_
            fun _ _ _ h => ⟨h.1, fun _ => h.2⟩)
        · intro n _
          refine Always.ofExcept hC ?_
          rw [Store.Manifest.ofText_text]
          exact ⟨rfl, rfl⟩
        · rintro _ w - ⟨rfl, rfl⟩
          exact Always.pure hC ⟨rfl, rfl⟩
  · rintro e w - ⟨rfl, he⟩
    exact ⟨rfl, fun hnames => he.broken h hnames⟩

end DirectoryStore

end CertKeeper
