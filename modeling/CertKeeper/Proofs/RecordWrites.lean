import CertKeeper.Proofs.VersionFiles

/-!
# Writing records

A record is written by removing what an earlier attempt has left in the directory of the version,
publishing the version, and removing the directories of former ones. At every moment either the
former version counts, as it was, or the new one does (`DirectoryStore.Progress`), and only a disk
that breaks down or something that stands in the way keeps a record from being written
(`DirectoryStore.always_writeRecord`).
-/

namespace CertKeeper

namespace DirectoryStore

open Disk (Path IsStep IsName Entry Stands Keeps Watch service Gone Nothing Makeable always_isThere
  always_isDirectory always_list always_removeTree always_removeTreeQuietly always_makeDirectories)
open CertKeeper.Action (Always)

variable {base : Path} {B P names rest : List String} {n v : String} {F : Prop}
variable {w w' w₁ w₂ : Watch} {d d' : Disk}
variable {s : DirectoryStore} {r : Record} {C : Watch → Prop}

/-! ## Former versions -/

/-- The directories of other versions may go. -/
def Former (P : List String) (v : String) (names : List String) (val : Option Entry) : Prop :=
  ∃ n rest, names = P ++ n :: rest ∧ n.toList.head? = some 'v' ∧ n ≠ v ∧ val = none

private theorem former_apart : ∀ names, names <+: [] → ¬ Former P v names none := by
  rintro names hnil ⟨n, rest, rfl, -⟩
  simp at hnil

private theorem former_region (names : List String) (val : Option Entry)
    (h : Former P v names val) :
    RecordRegion P names val := by
  obtain ⟨n, rest, rfl, -, -, rfl⟩ := h
  exact ⟨n, rest, rfl, by simp⟩

private theorem keeps_former (hn : n.toList.head? = some 'v') (hne : n ≠ v)
    (h : Watch.Keeps base B (Gone (P ++ [n])) [] w w') :
    Watch.Keeps base B (Former P v) [] w w' := by
  refine h.mono ?_ (List.prefix_refl _)
  rintro names val ⟨⟨rest, rfl⟩, rfl⟩
  exact ⟨n, rest, by simp, hn, hne, rfl⟩

/-- Where there is no directory none comes when former versions go. -/
theorem not_directory_of_former (h : Keeps base B (Former P v) [] d d')
    (hno : d.at? (B ++ (P ++ [n])) ≠ some .directory) :
    d'.at? (B ++ (P ++ [n])) ≠ some .directory := by
  intro hat
  rcases h.inside (P ++ [n]) with hsame | ⟨m, rest, -, -, -, hnone⟩ | ⟨hnil, -⟩
  · exact hno (hsame ▸ hat)
  · simp [hat] at hnone
  · simp at hnil

/-- The directory of a version is removed if it is not the one to keep. -/
private theorem always_removeFormer {id : Identity} {version : Int} (h : Stands s.base B w.disk)
    (hnames : ∀ m ∈ recordNames id ++ [n], IsName m) (hn : n.toList.head? = some 'v') :
    Always (service F)
      (Watch.Keeps s.base B (Former (recordNames id) (versionName version)) [] w)
      (do
        let old := s.base.append (recordNames id ++ [n])
        if (← isDirectory old) && old ≠ s.base.append (recordNames id ++ [versionName version]) then
          removeTreeQuietly old)
      (fun _ w' => ¬ F → n ≠ versionName version →
        w'.disk.at? (B ++ (recordNames id ++ [n])) ≠ some .directory)
      (fun _ _ => F) w := by
  have hsteps : ∀ m ∈ recordNames id ++ [n], IsStep m := fun m hm => (hnames m hm).toIsStep
  refine Always.bind ((always_isDirectory h.watchKeeps _).mono (fun _ h => h) ?_ ?_)
  · rintro there w - ⟨rfl, hthere⟩
    have hseen : there = true ↔ w.disk.at? (B ++ (recordNames id ++ [n])) = some .directory := by
      rw [hthere, beq_iff_eq, h.seen?_eq_directory hsteps]
    split
    · next hremove =>
      rw [Bool.and_eq_true, decide_eq_true_eq] at hremove
      have hne : n ≠ versionName version := fun heq => hremove.2 (by rw [heq])
      refine (always_removeTreeQuietly h (by simp) hsteps).mono
        (fun _ hstep => keeps_former hn hne hstep) ?_ fun _ _ _ hno => hno.elim
      intro _ w' _ hnone hF _
      rw [hnone hF (hseen.mp hremove.1)]
      exact nofun
    · next hkeep =>
      refine Always.pure h.watchKeeps fun _ hne hat => hkeep ?_
      rw [hseen.mpr hat, Bool.true_and, decide_eq_true_eq]
      exact fun heq => hne (by simpa [Path.append] using heq)
  · rintro e w - ⟨rfl, hunseen⟩
    exact hunseen.broken h hnames

/-- The directories of all other versions are removed, unless the disk breaks down. -/
private theorem always_removeOthers {id : Identity} {version : Int} (h : Stands s.base B w.disk)
    (hdirectory : w.disk.at? (B ++ recordNames id) = some .directory) :
    Always (service F)
      (Watch.Keeps s.base B (Former (recordNames id) (versionName version)) [] w)
      (s.removeOthers id version)
      (fun _ w' => ¬ F → ∀ n, n.toList.head? = some 'v' → n ≠ versionName version →
        w'.disk.at? (B ++ (recordNames id ++ [n])) ≠ some .directory)
      (fun _ _ => F) w := by
  have hnames := h.sound.isName_of_mem hdirectory
  unfold removeOthers
  rw [recordDirectory_eq]
  refine Always.bind ((always_list h h.watchKeeps hdirectory).mono (fun _ h => h) ?_
    fun _ _ _ h => h.2)
  rintro _ w - ⟨rfl, rfl⟩
  refine (Always.forM (fun before _ w' =>
    Watch.Keeps s.base B (Former (recordNames id) (versionName version)) [] w w' ∧
    (¬ F → ∀ n ∈ before, n ≠ versionName version →
      w'.disk.at? (B ++ (recordNames id ++ [n])) ≠ some .directory)) (fun _ h => h.1) ?_
      ⟨h.watchKeeps, by simp⟩).mono (fun _ h => h) ?_ fun _ _ _ h => h
  · rintro before n after w₁ hlist ⟨hkeeps, hgone⟩
    have hn : n ∈ (w.disk.childNames (B ++ recordNames id)).filter
        fun n => n.toList.head? = some 'v' := by
      rw [hlist]
      simp
    rw [List.mem_filter, decide_eq_true_eq, Disk.mem_childNames] at hn
    obtain ⟨e, he⟩ := Option.ne_none_iff_exists'.mp hn.1
    have hname : IsName n := h.sound.name he
    have hall : ∀ m ∈ recordNames id ++ [n], IsName m :=
      List.forall_mem_append.mpr ⟨hnames, by simpa using hname⟩
    rw [hname.toIsStep.div, Path.append_append, versionDirectory_eq]
    refine (always_removeFormer hkeeps.stands hall hn.2).mono
      (fun _ hstep => hkeeps.trans former_apart hstep) ?_ fun _ _ _ hF => hF
    intro _ w₂ hstep hnow
    refine ⟨hkeeps.trans former_apart hstep, fun hF m hm hne => ?_⟩
    rcases List.mem_append.mp hm with hm | hm
    · exact not_directory_of_former hstep.toKeeps (hgone hF m hm hne)
    · rw [List.mem_singleton.mp hm] at hne ⊢
      exact hnow hF hne
  · rintro _ w₁ - ⟨hkeeps, hgone⟩ hF n hv hne
    by_cases hlisted : w.disk.at? (B ++ recordNames id ++ [n]) = none
    · refine not_directory_of_former hkeeps.toKeeps ?_
      rw [← List.append_assoc, hlisted]
      exact nofun
    · refine hgone hF n ?_ hne
      rw [List.mem_filter, decide_eq_true_eq, Disk.mem_childNames]
      exact ⟨hlisted, hv⟩

/-- Without former versions a published record stays as it is. -/
theorem Published.former (hr : Published B P r d)
    (h : Keeps base B (Former P (versionName r.version)) [] d d') : Published B P r d' where
  distinct := hr.distinct
  index := by
    refine h.stays ?_ hr.index
    rintro val ⟨n, rest, heq, hn, -⟩
    obtain ⟨rfl, -⟩ := List.cons.inj (List.append_cancel_left heq)
    exact absurd hn (by decide)
  field := by
    intro f hf
    refine h.stays ?_ (hr.field f hf)
    rintro val ⟨n, rest, heq, -, hne, -⟩
    exact hne (List.cons.inj (List.append_cancel_left heq)).1.symm

/-! ## Writing -/

/-- A record that can be stored: every field has a file of its own with a proper name, the
directories can be made, and the index finds its place. -/
structure Writable (B P : List String) (r : Record) (d : Disk) : Prop where
  distinct : (files r.data).size = r.data.size
  fileName : ∀ f ∈ (files r.data).toList, IsName f.1
  isName : ∀ n ∈ P ++ [versionName r.version], IsName n
  noFile : ∀ init content, init <+: P ++ [versionName r.version] →
    d.at? (B ++ init) ≠ some (.file content)
  index : d.at? (B ++ (P ++ ["meta.json"])) ≠ some .directory
  staged : d.at? (B ++ (P ++ ["meta.json.tmp"])) ≠ some .directory

/-- Nothing is left beside the version that counts: no staged index, no other file in its directory,
no directory of another version. -/
structure Tidy (B P : List String) (r : Record) (d : Disk) : Prop where
  staged : d.at? (B ++ (P ++ ["meta.json.tmp"])) = none
  onlyFiles : OnlyFiles B P (versionName r.version) (files r.data).toList d
  former : ∀ n, n.toList.head? = some 'v' → n ≠ versionName r.version →
    d.at? (B ++ (P ++ [n])) ≠ some .directory

private theorem Tidy.of_former (hstaged : d.at? (B ++ (P ++ ["meta.json.tmp"])) = none)
    (hfiles : OnlyFiles B P (versionName r.version) (files r.data).toList d)
    (h : Keeps base B (Former P (versionName r.version)) [] d d')
    (hformer : ∀ n, n.toList.head? = some 'v' → n ≠ versionName r.version →
      d'.at? (B ++ (P ++ [n])) ≠ some .directory) : Tidy B P r d' where
  staged := by
    rw [h.same ?_ (by simp)]
    · exact hstaged
    · rintro val ⟨n, rest, heq, hn, -⟩
      obtain ⟨rfl, -⟩ := List.cons.inj (List.append_cancel_left heq)
      exact absurd hn (by decide)
  onlyFiles := by
    intro m rest e he
    refine hfiles m rest e ?_
    rw [← h.same ?_ (by simp)]
    · exact he
    · rintro val ⟨n, rest, heq, -, hne, -⟩
      exact hne (List.cons.inj (List.append_cancel_left heq)).1.symm
  former := hformer

private theorem Pending.of_gone (h : Watch.Keeps base B (Gone (P ++ [v])) [] w w')
    (hv : v.toList.head? = some 'v') : Pending base B P v w w' := by
  refine pending_of_keeps hv ?_ List.nil_prefix h
  rintro names val ⟨⟨rest, rfl⟩, rfl⟩
  rw [List.append_assoc, List.singleton_append]
  exact ⟨.inl ⟨rest, rfl⟩, v, rest, rfl, by simp⟩

private theorem Pending.of_nothing (h : Watch.Keeps base B Nothing (P ++ [v]) w w')
    (hv : v.toList.head? = some 'v') : Pending base B P v w w' :=
  pending_of_keeps hv (fun _ _ hno => hno.elim) (List.prefix_refl _) h

/-- A directory that has just been made has nothing in it. -/
private theorem onlyFiles_of_made (h : Stands base B d)
    (hnone : d.at? (B ++ (P ++ [v])) = none) (hkeeps : Keeps base B Nothing (P ++ [v]) d d') :
    OnlyFiles B P v [] d' := by
  intro m rest e he
  have hbelow : d.at? (B ++ (P ++ v :: m :: rest)) = none := by
    have hno : d.at? (B ++ (P ++ [v]) ++ m :: rest) = none :=
      h.sound.none_below (by rw [hnone]; simp)
    simpa using hno
  rw [hkeeps.same (fun _ hno => hno) ?_, hbelow] at he
  · cases he
  · intro habove
    have := habove.length_le
    simp at this

private theorem Writable.makeable (hw : Writable B P r d)
    (hnone : d.at? (B ++ (P ++ [versionName r.version])) = none) :
    Makeable B (P ++ [versionName r.version]) false d where
  isName := hw.isName
  noFile := hw.noFile
  new := fun _ => hnone

/-- Without a directory that a version has left behind a record can be stored as before. -/
theorem Writable.gone (hw : Writable B P r d)
    (h : Keeps base B (Gone (P ++ [versionName r.version])) [] d d') : Writable B P r d' where
  distinct := hw.distinct
  fileName := hw.fileName
  isName := hw.isName
  noFile := by
    intro init content hinit hat
    rcases h.inside init with hsame | ⟨-, hnone⟩ | ⟨-, -, hmade⟩
    · exact hw.noFile init content hinit (hsame ▸ hat)
    · simp [hat] at hnone
    · simp [hat] at hmade
  index := by
    intro hat
    rcases h.inside (P ++ ["meta.json"]) with hsame | ⟨-, hnone⟩ | ⟨hnil, -⟩
    · exact hw.index (hsame ▸ hat)
    · simp [hat] at hnone
    · simp at hnil
  staged := by
    intro hat
    rcases h.inside (P ++ ["meta.json.tmp"]) with hsame | ⟨-, hnone⟩ | ⟨hnil, -⟩
    · exact hw.staged (hsame ▸ hat)
    · simp [hat] at hnone
    · simp at hnil

/-- Once a version is published the others go, and it stays published. -/
private theorem always_tidyUp
    (hkeeps : Keeps s.base B (RecordRegion (recordNames r.id)) (recordNames r.id) w.disk w₁.disk)
    (hmoved : w₁.moved = true) (hpublished : Published B (recordNames r.id) r w₁.disk)
    (hstaged : w₁.disk.at? (B ++ (recordNames r.id ++ ["meta.json.tmp"])) = none)
    (hfiles : OnlyFiles B (recordNames r.id) (versionName r.version) (files r.data).toList
      w₁.disk) :
    Always (service F) (Progress s.base B (recordNames r.id) r w) (s.removeOthers r.id r.version)
      (fun _ w' => w'.moved = true ∧ Published B (recordNames r.id) r w'.disk ∧
        (¬ F → Tidy B (recordNames r.id) r w'.disk))
      (fun _ _ => F) w₁ := by
  have hindex := hpublished.index
  rw [← List.append_assoc] at hindex
  refine (always_removeOthers hkeeps.stands (hkeeps.stands.sound.parent hindex)).mono ?_ ?_
    fun _ _ _ hF => hF
  · intro _ hformer
    exact .inr ⟨hformer.moved.trans hmoved, hpublished.former hformer.toKeeps,
      hkeeps.trans recordRegion_apart (hformer.toKeeps.mono former_region List.nil_prefix)⟩
  · intro _ _ hformer hgone
    refine ⟨hformer.moved.trans hmoved, hpublished.former hformer.toKeeps, fun hF => ?_⟩
    exact Tidy.of_former hstaged hfiles hformer.toKeeps (hgone hF)

/-- What has been written of a version that is not published is removed. -/
private theorem always_giveUp {e : Failure} (hsteps : ∀ n ∈ recordNames r.id, IsStep n)
    (hpending : Pending s.base B (recordNames r.id) (versionName r.version) w w₁) :
    Always (service F) (Progress s.base B (recordNames r.id) r w)
      (do
        removeTreeQuietly (s.base.append (recordNames r.id ++ [versionName r.version]))
        throw e : DiskAction Unit)
      (fun _ _ => False) (fun _ w' => w'.moved = w.moved) w₁ := by
  have hversion : ∀ n ∈ recordNames r.id ++ [versionName r.version], IsStep n :=
    List.forall_mem_append.mpr ⟨hsteps, by simpa using isStep_versionName r.version⟩
  have hgone (w₂ : Watch) (hkeeps : Watch.Keeps s.base B
      (Gone (recordNames r.id ++ [versionName r.version])) [] w₁ w₂) :
      Pending s.base B (recordNames r.id) (versionName r.version) w w₂ :=
    hpending.trans (.of_gone hkeeps (head_versionName r.version))
  refine Always.bind ((always_removeTreeQuietly hpending.keeps.stands (by simp)
    hversion).mono (fun w₂ hkeeps => .inl (hgone w₂ hkeeps)) ?_ fun _ _ _ hno => hno.elim)
  intro _ w₂ hkeeps _
  exact Always.throw (.inl (hgone w₂ hkeeps)) (hgone w₂ hkeeps).moved

/-- Writing a version into a new directory publishes it as a whole or not at all. -/
theorem always_writeNew (h : Stands s.base B w.disk) (hsteps : ∀ n ∈ recordNames r.id, IsStep n)
    (hdistinct : (files r.data).size = r.data.size)
    (hnone : w.disk.at? (B ++ (recordNames r.id ++ [versionName r.version])) = none) :
    Always (service F) (Progress s.base B (recordNames r.id) r w)
      (do
        makeDirectories (s.base.append (recordNames r.id ++ [versionName r.version])) false
        match ← (s.publish r).outcome with
        | .ok () => s.removeOthers r.id r.version
        | .error e =>
          removeTreeQuietly (s.base.append (recordNames r.id ++ [versionName r.version]))
          throw e)
      (fun _ w' => w'.moved = true ∧ Published B (recordNames r.id) r w'.disk ∧
        (¬ F → Tidy B (recordNames r.id) r w'.disk))
      (fun _ w' => (w.moved = false → w'.moved = true → F) ∧
        (Writable B (recordNames r.id) r w.disk → F)) w := by
  have hv := head_versionName r.version
  have hversion : ∀ n ∈ recordNames r.id ++ [versionName r.version], IsStep n :=
    List.forall_mem_append.mpr ⟨hsteps, by simpa using isStep_versionName r.version⟩
  refine Always.bind ((always_makeDirectories h hversion).mono ?_ ?_ ?_)
  · exact fun _ hkeeps => .inl (.of_nothing hkeeps hv)
  · intro _ w₁ hkeeps₁ hmade
    have hpending₁ := Pending.of_nothing hkeeps₁ hv
    have hempty := onlyFiles_of_made h hnone hkeeps₁.toKeeps
    have hparent : w₁.disk.at? (B ++ recordNames r.id) = some .directory := by
      rw [← List.append_assoc] at hmade
      exact hkeeps₁.stands.sound.parent hmade
    refine Always.bind (Always.outcome
      ((always_publish hkeeps₁.stands hsteps hdistinct hmade hempty).mono ?_ ?_ ?_))
    · exact fun _ hprogress => hprogress.after hpending₁
    · rintro _ w₂ hprogress₂ ⟨hmoved₂, hpublished₂, hstaged₂, honly₂⟩
      refine (always_tidyUp (hprogress₂.after hpending₁).keeps hmoved₂ hpublished₂ hstaged₂
        honly₂).mono (fun _ h => h) (fun _ _ _ h => h) fun _ _ _ hF => ?_
      exact ⟨fun _ _ => hF, fun _ => hF⟩
    · rintro e w₂ - ⟨hpending₂, hF⟩
      refine (always_giveUp hsteps (hpending₁.trans hpending₂)).mono (fun _ h => h)
        (fun _ _ _ hno => hno.elim) fun _ w₃ _ hunmoved => ⟨fun hmoved hmoved₃ => ?_, fun hw => ?_⟩
      · rw [hunmoved, hmoved] at hmoved₃
        cases hmoved₃
      · refine hF hw.fileName ?_ ?_
        · rw [hkeeps₁.same (fun _ hno => hno) ?_]
          · exact hw.staged
          · intro habove
            have hsame : "meta.json.tmp" = versionName r.version := by simpa using habove
            rw [← hsame] at hv
            exact absurd hv (by decide)
        · rw [hpending₁.same _ (elsewhere_index hv)]
          exact hw.index
  · intro e w₁ hkeeps₁ hF
    refine ⟨fun hmoved hmoved₁ => ?_, fun hw => hF (hw.makeable hnone)⟩
    rw [hkeeps₁.moved, hmoved] at hmoved₁
    cases hmoved₁

/-- Writing a record publishes it as a whole or not at all, and only a disk that breaks down keeps a
record from being written that can be stored. -/
theorem always_writeRecord (h : Stands s.base B w.disk)
    (hsteps : ∀ n ∈ recordNames r.id, IsStep n) :
    Always (service F) (Progress s.base B (recordNames r.id) r w) (s.writeRecord r)
      (fun _ w' => w'.moved = true ∧ Published B (recordNames r.id) r w'.disk ∧
        (¬ F → Tidy B (recordNames r.id) r w'.disk))
      (fun _ w' => (w.moved = false → w'.moved = true → F) ∧
        (Writable B (recordNames r.id) r w.disk → F)) w := by
  have hv := head_versionName r.version
  have hversion : ∀ n ∈ recordNames r.id ++ [versionName r.version], IsStep n :=
    List.forall_mem_append.mpr ⟨hsteps, by simpa using isStep_versionName r.version⟩
  have hnow : Progress s.base B (recordNames r.id) r w w := .inl (.refl h)
  unfold writeRecord
  simp only [versionDirectory_eq]
  split
  · next hcollision =>
    exact Always.bind (Always.throw hnow
      ⟨fun hmoved => by simp [hmoved], fun hw => absurd hw.distinct hcollision⟩)
  · next hdistinct =>
    rw [not_not] at hdistinct
    refine Always.bind ((always_isThere hnow _).mono (fun _ h => h) ?_ ?_)
    · rintro there w - ⟨rfl, hthere⟩
      rw [h.seen? hversion] at hthere
      split
      · next hsome =>
        subst hsome
        refine Always.bind ((always_removeTree h (by simp) hversion).mono ?_ ?_ ?_)
        · exact fun _ hkeeps => .inl (.of_gone hkeeps hv)
        · intro _ w₁ hkeeps₁ hnone
          have hpending₁ := Pending.of_gone hkeeps₁ hv
          refine (always_writeNew hkeeps₁.stands hsteps hdistinct hnone).mono
            (fun _ hprogress => hprogress.after hpending₁) (fun _ _ _ h => h) ?_
          exact fun _ _ _ hE => ⟨fun hmoved => hE.1 (hkeeps₁.moved.trans hmoved),
            fun hw => hE.2 (hw.gone hkeeps₁.toKeeps)⟩
        · intro e w₁ hkeeps₁ hF
          refine ⟨fun hmoved hmoved₁ => ?_, fun hw => hF ?_⟩
          · rw [hkeeps₁.moved, hmoved] at hmoved₁
            cases hmoved₁
          · rcases hat : w.disk.at? (B ++ (recordNames r.id ++ [versionName r.version])) with
              _ | ⟨content⟩ | _
            · simp [hat] at hthere
            · exact absurd hat (hw.noFile _ content (List.prefix_refl _))
            · rfl
      · next hnone =>
        refine always_writeNew h hsteps hdistinct ?_
        simpa [hthere] using hnone
    · rintro e w - ⟨rfl, he⟩
      exact ⟨fun hmoved => by simp [hmoved], fun hw => he.broken h hw.isName⟩

end DirectoryStore

end CertKeeper
