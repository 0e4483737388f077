import CertKeeper.Proofs.DirectoryTrees
import CertKeeper.Proofs.RecordFiles

/-!
# Publishing versions

A version is written into a directory of its own, next to what counts, and then the index is moved
to its place in one step. Before that only places are touched that nothing that counts depends on
(`DirectoryStore.Pending`), and afterwards the whole version is there
(`DirectoryStore.always_publish`).
-/

namespace CertKeeper

namespace DirectoryStore

open Disk (Path IsStep IsName Entry Stands Keeps Watch service FileAt always_write
  always_write_of_directory always_rename)
open CertKeeper.Action (Always)

variable {base : Path} {B P names rest : List String} {R : List String → Option Entry → Prop}
variable {way : List String} {n v : String} {F : Prop} {w w' w₁ w₂ : Watch} {d d' : Disk}
variable {s : DirectoryStore} {r : Record} {C : Watch → Prop}

/-! ## The directory of a record -/

/-- What may stand in the directory of a record: the index and the one that is to replace it, and
directories of versions with anything in them. -/
inductive RecordSlot : List String → Entry → Prop where
  | index (content : Bytes) : RecordSlot ["meta.json"] (.file content)
  | staged (content : Bytes) : RecordSlot ["meta.json.tmp"] (.file content)
  | version (n : String) : n.toList.head? = some 'v' → RecordSlot [n] .directory
  | inVersion (n m : String) (rest : List String) (e : Entry) : n.toList.head? = some 'v' →
      RecordSlot (n :: m :: rest) e

/-- The places in the directory of a record, with what may come there. -/
def RecordRegion (P names : List String) (v : Option Entry) : Prop :=
  ∃ n rest, names = P ++ n :: rest ∧ ∀ e, v = some e → RecordSlot (n :: rest) e

/-- Nothing on the way to the directory of a record may vanish. -/
theorem recordRegion_apart : ∀ names, names <+: P → ¬ RecordRegion P names none := by
  rintro names habove ⟨n, rest, rfl, -⟩
  have := habove.length_le
  simp only [List.length_append, List.length_cons] at this
  omega

/-- Places that a version leaves alone before it is published. -/
def Elsewhere (P : List String) (v : String) (names : List String) : Prop :=
  (∀ rest, names ≠ P ++ v :: rest) ∧ names ≠ P ++ ["meta.json.tmp"] ∧ ¬ names <+: P

/-- What has been done for a version that is not yet published. -/
structure Pending (base : Path) (B P : List String) (v : String) (w w' : Watch) : Prop where
  keeps : Keeps base B (RecordRegion P) P w.disk w'.disk
  moved : w'.moved = w.moved
  same : ∀ names, Elsewhere P v names → w'.disk.at? (B ++ names) = w.disk.at? (B ++ names)

/-- Two stretches of writing a version, neither of which publishes it, are one such stretch. -/
theorem Pending.trans (h₁ : Pending base B P v w w₁) (h₂ : Pending base B P v w₁ w₂) :
    Pending base B P v w w₂ where
  keeps := h₁.keeps.trans recordRegion_apart h₂.keeps
  moved := h₂.moved.trans h₁.moved
  same := fun names hnames => (h₂.same names hnames).trans (h₁.same names hnames)

/-- A stretch of writing a version where nothing happens publishes nothing. -/
theorem Pending.refl (h : Stands base B w.disk) : Pending base B P v w w where
  keeps := h.keeps
  moved := rfl
  same := fun _ _ => rfl

/-- A change of a version's own places. -/
theorem pending_of_keeps (hv : v.toList.head? = some 'v')
    (hR : ∀ names val, R names val →
      ((∃ rest, names = P ++ v :: rest) ∨ names = P ++ ["meta.json.tmp"]) ∧
        RecordRegion P names val)
    (hway : way <+: P ++ [v]) (h : Watch.Keeps base B R way w w') : Pending base B P v w w' where
  keeps := by
    refine ⟨h.stands, h.working, h.outside, fun names => ?_⟩
    rcases h.inside names with hsame | hallowed | ⟨hnames, hnone, hmade⟩
    · exact .inl hsame
    · exact .inr (.inl (hR _ _ hallowed).2)
    · rcases List.prefix_concat_iff.mp (hnames.trans hway) with rfl | habove
      · refine .inr (.inl ⟨v, [], rfl, fun e he => ?_⟩)
        rw [hmade] at he
        cases he
        exact .version v hv
      · exact .inr (.inr ⟨habove, hnone, hmade⟩)
  moved := h.moved
  same := by
    rintro names ⟨hversion, hstaged, habove⟩
    apply h.same
    · intro val hallowed
      rcases (hR names val hallowed).1 with ⟨rest, hrest⟩ | htmp
      · exact hversion rest hrest
      · exact hstaged htmp
    · intro hnames
      rcases List.prefix_concat_iff.mp (hnames.trans hway) with rfl | habove'
      · exact hversion [] rfl
      · exact habove habove'

private theorem not_append_prefix : ¬ P ++ n :: rest <+: P := by
  intro habove
  have := habove.length_le
  simp only [List.length_append, List.length_cons] at this
  omega

/-- The index of a record is outside the directories of its versions. -/
theorem elsewhere_index (hv : v.toList.head? = some 'v') : Elsewhere P v (P ++ ["meta.json"]) := by
  refine ⟨fun rest heq => ?_, by simp, not_append_prefix⟩
  obtain ⟨rfl, -⟩ := List.cons.inj (List.append_cancel_left heq)
  exact absurd hv (by decide)

/-- What is stored of another version stays there until the new one is published. -/
theorem RecordAt.pending {x : Option Record} (hx : RecordAt B P x w.disk)
    (hv : v.toList.head? = some 'v') (hother : ∀ r, x = some r → versionName r.version ≠ v)
    (hp : Pending base B P v w w') : RecordAt B P x w'.disk := by
  have hindex := elsewhere_index (P := P) hv
  cases x with
  | none => exact (hp.same _ hindex).trans hx
  | some r =>
    refine ⟨hx.distinct, (hp.same _ hindex).trans hx.index, fun f hf => ?_⟩
    refine (hp.same _ ⟨fun rest heq => ?_, by simp, not_append_prefix⟩).trans (hx.field f hf)
    exact hother r rfl (List.cons.inj (List.append_cancel_left heq)).1

/-! ## Publishing -/

/-- In the directory of a version there are only files, and only the given ones. -/
def OnlyFiles (B P : List String) (v : String) (files : List (String × String)) (d : Disk) :
    Prop :=
  ∀ m rest e, d.at? (B ++ (P ++ v :: m :: rest)) = some e →
    rest = [] ∧ (∃ f ∈ files, f.1 = m) ∧ ∃ c, e = .file c

/-- The files of a version get written. -/
def InVersion (P : List String) (v : String) (names : List String) (val : Option Entry) : Prop :=
  ∃ f, FileAt (P ++ [v, f]) names val

private theorem inVersion_apart : ∀ names, names <+: [] → ¬ InVersion P v names none := by
  rintro names - ⟨f, -, c, hc⟩
  cases hc

/-- The directory of a version stays when its files get written. -/
theorem directory_stays (h : Watch.Keeps base B (InVersion P v) [] w w')
    (hat : w.disk.at? (B ++ (P ++ [v])) = some .directory) :
    w'.disk.at? (B ++ (P ++ [v])) = some .directory := by
  refine h.stays ?_ hat
  rintro val ⟨f, hf, -⟩
  simp at hf

/-- A file that gets written is one more. -/
private theorem OnlyFiles.snoc {before : List (String × String)} {f : String × String}
    (honly : OnlyFiles B P v before d) (hat : Keeps base B (FileAt (P ++ [v, f.1])) [] d d') :
    OnlyFiles B P v (before ++ [f]) d' := by
  intro m rest e he
  rcases hat.inside (P ++ v :: m :: rest) with hsame | ⟨heq, c, hc⟩ | ⟨hnil, -, -⟩
  · obtain ⟨hrest, ⟨g, hg, hgm⟩, hfile⟩ := honly m rest e (hsame ▸ he)
    exact ⟨hrest, ⟨g, List.mem_append_left _ hg, hgm⟩, hfile⟩
  · have hparts := List.append_cancel_left heq
    simp only [List.cons.injEq, true_and] at hparts
    refine ⟨hparts.2, ⟨f, by simp, hparts.1.symm⟩, c, ?_⟩
    rw [he] at hc
    exact Option.some.inj hc
  · simp at hnil

/-- Writing a file of a version writes it, if it has a proper name. -/
private theorem always_writeField {f : String} {content : Bytes} (h : Stands s.base B w.disk)
    {id : Identity} {version : Int} (hsteps : ∀ n ∈ recordNames id, IsStep n)
    (hdirectory : w.disk.at? (B ++ (recordNames id ++ [versionName version])) = some .directory)
    (hf : '/' ∉ f.toList) :
    Always (service F)
      (Watch.Keeps s.base B (InVersion (recordNames id) (versionName version)) [] w)
      (Disk.ask (.write .field (s.versionDirectory id version / f) content))
      (fun _ w' => IsStep f ∧ Watch.Keeps s.base B
          (FileAt (recordNames id ++ [versionName version, f])) [] w w' ∧
        w'.disk.at? (B ++ (recordNames id ++ [versionName version, f])) = some (.file content))
      (fun _ _ => IsName f →
        w.disk.at? (B ++ (recordNames id ++ [versionName version, f])) ≠ some .directory → F)
      w := by
  by_cases hstep : IsStep f
  · have hall : ∀ n ∈ recordNames id ++ [versionName version, f], IsStep n := by
      refine List.forall_mem_append.mpr ⟨hsteps, ?_⟩
      simpa using ⟨isStep_versionName version, hstep⟩
    rw [s.versionDirectory_div_name id hstep]
    refine (always_write h hall).mono ?_ ?_ ?_
    · exact fun _ hkeeps => hkeeps.mono (fun _ _ hat => ⟨f, hat⟩) (List.prefix_refl _)
    · exact fun _ _ hkeeps hat => ⟨hstep, hkeeps, hat⟩
    · rintro _ _ _ ⟨-, hF⟩ hname hother
      refine hF ?_ ?_ hother
      · rw [List.append_cons, List.dropLast_concat]
        exact hdirectory
      · have hnames := List.forall_mem_append.mp (h.sound.isName_of_mem hdirectory)
        refine List.forall_mem_append.mpr ⟨hnames.1, ?_⟩
        simpa using ⟨hnames.2 _ (by simp), hname⟩
  · refine (always_write_of_directory h.watchKeeps ?_).mono (fun _ h => h) ?_ ?_
    · intro place hplace
      rw [s.versionDirectory_div id hf, Path.splitNames_of_no_slash hf] at hplace
      by_cases hdropped : f = "" ∨ f = "."
      · rw [if_pos hdropped, List.append_nil, h.locate_of_at? hdirectory] at hplace
        cases hplace
        exact hdirectory
      · rw [if_neg hdropped] at hplace
        have hdots : f = ".." := by
          by_contra hne
          rw [not_or] at hdropped
          exact hstep ⟨hdropped.1, hdropped.2, hne, hf⟩
        rw [hdots] at hplace
        exact h.at?_of_locate_dots hdirectory hplace
    · exact fun _ _ _ hno => hno.elim
    · intro _ _ _ _ hname
      exact absurd hname.toIsStep hstep

/-- The name of the directory of a version starts with a `v`. -/
theorem head_versionName (version : Int) : (versionName version).toList.head? = some 'v' := by
  rw [toList_versionName]
  rfl

private theorem Pending.of_inVersion {version : Int}
    (h : Watch.Keeps base B (InVersion P (versionName version)) [] w w') :
    Pending base B P (versionName version) w w' := by
  refine pending_of_keeps (head_versionName version) ?_ List.nil_prefix h
  rintro names val ⟨f, rfl, c, rfl⟩
  refine ⟨.inl ⟨[f], rfl⟩, versionName version, [f], rfl, ?_⟩
  intro e _
  exact .inVersion _ _ _ e (head_versionName version)

private theorem Pending.of_staged (hv : v.toList.head? = some 'v')
    (h : Watch.Keeps base B (FileAt (P ++ ["meta.json.tmp"])) [] w w') :
    Pending base B P v w w' := by
  refine pending_of_keeps hv ?_ List.nil_prefix h
  rintro names val ⟨rfl, c, rfl⟩
  refine ⟨.inr rfl, "meta.json.tmp", [], rfl, ?_⟩
  intro e he
  cases he
  exact .staged c

/-- How far the writing of a version has got: the index either is the former one, and nothing that
counts has been changed, or it is the new one, and all files are there. -/
def Progress (base : Path) (B P : List String) (r : Record) (w w' : Watch) : Prop :=
  Pending base B P (versionName r.version) w w' ∨
    w'.moved = true ∧ Published B P r w'.disk ∧ Keeps base B (RecordRegion P) P w.disk w'.disk

/-- What has happened before a version is written and publishes nothing may be counted to the
writing. -/
theorem Progress.after (h₁ : Pending base B P (versionName r.version) w w₁)
    (h₂ : Progress base B P r w₁ w₂) : Progress base B P r w w₂ := by
  rcases h₂ with hpending | ⟨hmoved, hpublished, hkeeps⟩
  · exact .inl (h₁.trans hpending)
  · exact .inr ⟨hmoved, hpublished, h₁.keeps.trans recordRegion_apart hkeeps⟩

/-- All that happens while a version is written happens in the directory of its record. -/
theorem Progress.keeps (h : Progress base B P r w w') :
    Keeps base B (RecordRegion P) P w.disk w'.disk := by
  rcases h with hpending | ⟨-, -, hkeeps⟩
  · exact hpending.keeps
  · exact hkeeps

/-- Writing all fields leaves a directory with one file to a field. -/
private theorem always_writeFields (h : Stands s.base B w.disk)
    (hsteps : ∀ n ∈ recordNames r.id, IsStep n)
    (hdirectory : w.disk.at? (B ++ (recordNames r.id ++ [versionName r.version])) =
      some .directory)
    (hempty : OnlyFiles B (recordNames r.id) (versionName r.version) [] w.disk) :
    Always (service F)
      (Watch.Keeps s.base B (InVersion (recordNames r.id) (versionName r.version)) [] w)
      ((files r.data).toList.forM fun f => Disk.ask (.write .field
        (s.versionDirectory r.id r.version / f.1) (fileContent r.data f)))
      (fun _ w' => (∀ f ∈ (files r.data).toList,
          w'.disk.at? (B ++ (recordNames r.id ++ [versionName r.version, f.1])) =
            some (.file (fileContent r.data f))) ∧
        OnlyFiles B (recordNames r.id) (versionName r.version) (files r.data).toList w'.disk)
      (fun _ _ => (∀ f ∈ (files r.data).toList, IsName f.1) → F) w := by
  refine (Always.forM (fun before _ w' =>
    Watch.Keeps s.base B (InVersion (recordNames r.id) (versionName r.version)) [] w w' ∧
    (∀ f ∈ before, w'.disk.at? (B ++ (recordNames r.id ++ [versionName r.version, f.1])) =
      some (.file (fileContent r.data f))) ∧
    OnlyFiles B (recordNames r.id) (versionName r.version) before w'.disk) (fun _ h => h.1) ?_
      ⟨h.watchKeeps, by simp, hempty⟩).mono (fun _ h => h) (fun _ _ _ h => h.2) fun _ _ _ h => h
  rintro before f after w₁ hfiles ⟨hkeeps, hwritten, honly⟩
  have hslash : '/' ∉ f.1.toList := by
    rw [eq_of_mem_files (by rw [hfiles]; simp)]
    exact no_slash_safeName f.2
  have hdirectory₁ := directory_stays hkeeps hdirectory
  refine (always_writeField hkeeps.stands hsteps hdirectory₁ hslash).mono
    (fun _ h => hkeeps.trans inVersion_apart h) ?_ ?_
  · rintro _ w₂ hstep ⟨-, hat, hnew⟩
    refine ⟨hkeeps.trans inVersion_apart hstep, fun g hg => ?_, honly.snoc hat.toKeeps⟩
    rcases List.mem_append.mp hg with hg | hg
    · refine hat.stays ?_ (hwritten g hg)
      rintro val ⟨heq, -⟩
      have hnodup := (files r.data).nodup
      rw [hfiles, List.map_append, List.nodup_append] at hnodup
      refine hnodup.2.2 g.1 (List.mem_map_of_mem hg) f.1 (by simp) ?_
      simpa using heq
    · rw [List.mem_singleton.mp hg]
      exact hnew
  · intro e w₂ _ hF hnames
    refine hF (hnames f (by rw [hfiles]; simp)) fun hat => ?_
    obtain ⟨-, -, c, hc⟩ := honly f.1 [] .directory hat
    cases hc

/-- The disk after the staged index has been moved to its place. -/
def afterMove (B P : List String) (content : Bytes) (d : Disk) : Disk :=
  (d.clear (B ++ (P ++ ["meta.json.tmp"]))).put (B ++ (P ++ ["meta.json"])) (.file content)

private theorem at?_afterMove {content : Bytes} (names : List String) :
    (afterMove B P content d).at? (B ++ names) =
      if names = P ++ ["meta.json"] then some (.file content)
      else if names = P ++ ["meta.json.tmp"] then none else d.at? (B ++ names) := by
  rw [afterMove, Disk.at?_put (by simp), Disk.at?_clear (by simp)]
  simp only [List.append_cancel_left_eq, eq_comm]

private theorem isStep_index (hsteps : ∀ n ∈ P, IsStep n) : ∀ n ∈ P ++ ["meta.json"], IsStep n :=
  List.forall_mem_append.mpr ⟨hsteps, by simpa using (by decide : IsStep "meta.json")⟩

private theorem isStep_staged (hsteps : ∀ n ∈ P, IsStep n) :
    ∀ n ∈ P ++ ["meta.json.tmp"], IsStep n :=
  List.forall_mem_append.mpr ⟨hsteps, by simpa using (by decide : IsStep "meta.json.tmp")⟩

private theorem isName_index (hnames : ∀ n ∈ P, IsName n) : ∀ n ∈ P ++ ["meta.json"], IsName n :=
  List.forall_mem_append.mpr ⟨hnames, by simpa using (by decide : IsName "meta.json")⟩

private theorem isName_staged (hnames : ∀ n ∈ P, IsName n) :
    ∀ n ∈ P ++ ["meta.json.tmp"], IsName n :=
  List.forall_mem_append.mpr ⟨hnames, by simpa using (by decide : IsName "meta.json.tmp")⟩

/-- Moving the staged index publishes the version. -/
private theorem published_afterMove (h : Stands base B d) (hsteps : ∀ n ∈ P, IsStep n)
    (hdistinct : (files r.data).size = r.data.size)
    (hfields : ∀ f ∈ (files r.data).toList,
      d.at? (B ++ (P ++ [versionName r.version, f.1])) = some (.file (fileContent r.data f)))
    (hstaged : d.at? (B ++ (P ++ ["meta.json.tmp"])) =
      some (.file (Text.Utf8.encode (indexOf r).text)))
    (hindex : d.at? (B ++ (P ++ ["meta.json"])) ≠ some .directory) :
    let d' := afterMove B P (Text.Utf8.encode (indexOf r).text) d
    Published B P r d' ∧ Keeps base B (RecordRegion P) P d d' := by
  intro d'
  refine ⟨⟨hdistinct, ?_, ?_⟩, ?_⟩
  · rw [at?_afterMove, if_pos rfl]
  · intro f hf
    rw [at?_afterMove, if_neg (by simp), if_neg (by simp), hfields f hf]
  · have hclear : Keeps base B (RecordRegion P) P d (d.clear (B ++ (P ++ ["meta.json.tmp"]))) :=
      h.clear (by simp) (fun n => h.sound.none_below (by simp [hstaged]))
        ⟨"meta.json.tmp", [], rfl, by simp⟩
    have hparent : d.at? (B ++ P) = some .directory := by
      rw [← List.append_assoc] at hstaged
      exact h.sound.parent hstaged
    have hat (names : List String) : (d.clear (B ++ (P ++ ["meta.json.tmp"]))).at? (B ++ names) =
        if names = P ++ ["meta.json.tmp"] then none else d.at? (B ++ names) := by
      rw [Disk.at?_clear (by simp)]
      simp only [List.append_cancel_left_eq, eq_comm]
    refine hclear.trans recordRegion_apart (hclear.stands.put (isStep_index hsteps) ?_ ?_ (.inl ?_))
    · refine hclear.stands.locate_child ?_ (by decide)
      rw [hat, if_neg (by simp), hparent]
    · rw [hat, if_neg (by simp)]
      exact hindex
    · exact ⟨"meta.json", [], rfl, fun e he => by cases he; exact .index _⟩

/-- The staged index is moved to its place in one step, which publishes the version. -/
private theorem always_moveIndex (h : Stands base B w.disk) (hsteps : ∀ n ∈ P, IsStep n)
    (hdistinct : (files r.data).size = r.data.size)
    (hfields : ∀ f ∈ (files r.data).toList,
      w.disk.at? (B ++ (P ++ [versionName r.version, f.1])) = some (.file (fileContent r.data f)))
    (honly : OnlyFiles B P (versionName r.version) (files r.data).toList w.disk)
    (hstaged : w.disk.at? (B ++ (P ++ ["meta.json.tmp"])) =
      some (.file (Text.Utf8.encode (indexOf r).text))) :
    Always (service F) (Progress base B P r w)
      (Disk.ask (.rename (base.append (P ++ ["meta.json.tmp"])) (base.append (P ++ ["meta.json"]))))
      (fun _ w' => w'.moved = true ∧ Published B P r w'.disk ∧
        w'.disk.at? (B ++ (P ++ ["meta.json.tmp"])) = none ∧
        OnlyFiles B P (versionName r.version) (files r.data).toList w'.disk)
      (fun _ w' => w' = w ∧
        (w.disk.at? (B ++ (P ++ ["meta.json"])) ≠ some .directory → F)) w := by
  have hpublished (hother : w.disk.at? (B ++ (P ++ ["meta.json"])) ≠ some .directory) :=
    published_afterMove h hsteps hdistinct hfields hstaged hother
  refine (always_rename (C := Progress base B P r w) h (.inl (.refl h)) (isStep_staged hsteps)
    (isStep_index hsteps) ?_).mono (fun _ h => h) ?_ ?_
  · intro content hat hother
    obtain rfl : Text.Utf8.encode (indexOf r).text = content := by
      simpa using hstaged.symm.trans hat
    exact .inr ⟨rfl, hpublished hother⟩
  · rintro _ w₁ - ⟨content, hat, hother, rfl⟩
    obtain rfl : Text.Utf8.encode (indexOf r).text = content := by
      simpa using hstaged.symm.trans hat
    refine ⟨rfl, (hpublished hother).1, ?_, ?_⟩
    · exact (at?_afterMove _).trans (by simp)
    · intro m rest e he
      refine honly m rest e ?_
      have hsame : (afterMove B P (Text.Utf8.encode (indexOf r).text) w.disk).at?
          (B ++ (P ++ versionName r.version :: m :: rest)) =
          w.disk.at? (B ++ (P ++ versionName r.version :: m :: rest)) := by
        rw [at?_afterMove, if_neg (by simp), if_neg (by simp)]
      exact hsame.symm.trans he
  · rintro e w₁ - ⟨rfl, hF⟩
    rw [← List.append_assoc] at hstaged
    have hdirectory := h.sound.parent hstaged
    refine ⟨rfl, hF _ (by rw [← List.append_assoc]; exact hstaged) ?_
      (isName_index (h.sound.isName_of_mem hdirectory))⟩
    rw [List.dropLast_concat]
    exact hdirectory

/-- Publishing a version writes its files and then moves its index to its place. Before that nothing
that counts is changed. -/
theorem always_publish (h : Stands s.base B w.disk) (hsteps : ∀ n ∈ recordNames r.id, IsStep n)
    (hdistinct : (files r.data).size = r.data.size)
    (hdirectory : w.disk.at? (B ++ (recordNames r.id ++ [versionName r.version])) =
      some .directory)
    (hempty : OnlyFiles B (recordNames r.id) (versionName r.version) [] w.disk) :
    Always (service F) (Progress s.base B (recordNames r.id) r w) (s.publish r)
      (fun _ w' => w'.moved = true ∧ Published B (recordNames r.id) r w'.disk ∧
        w'.disk.at? (B ++ (recordNames r.id ++ ["meta.json.tmp"])) = none ∧
        OnlyFiles B (recordNames r.id) (versionName r.version) (files r.data).toList w'.disk)
      (fun _ w' => Pending s.base B (recordNames r.id) (versionName r.version) w w' ∧
        ((∀ f ∈ (files r.data).toList, IsName f.1) →
          w.disk.at? (B ++ (recordNames r.id ++ ["meta.json.tmp"])) ≠ some .directory →
          w.disk.at? (B ++ (recordNames r.id ++ ["meta.json"])) ≠ some .directory → F)) w := by
  unfold publish
  refine Always.bind ((always_writeFields h hsteps hdirectory hempty).mono ?_ ?_ ?_)
  · exact fun _ hkeeps => .inl (.of_inVersion hkeeps)
  · rintro _ w₁ hkeeps₁ ⟨hfields, honly⟩
    have hstands₁ := hkeeps₁.stands
    have hpending₁ := Pending.of_inVersion hkeeps₁
    unfold writeText
    rw [s.recordDirectory_div r.id (by decide), indexPath_eq]
    have hdirectory₁ : w₁.disk.at? (B ++ recordNames r.id) = some .directory := by
      have hat := directory_stays hkeeps₁ hdirectory
      rw [← List.append_assoc] at hat
      exact hstands₁.sound.parent hat
    refine Always.bind ((always_write hstands₁ (isStep_staged hsteps)).mono ?_ ?_ ?_)
    · exact fun _ hkeeps => .inl (hpending₁.trans (.of_staged (head_versionName _) hkeeps))
    · intro _ w₂ hkeeps₂ hwritten
      have hpending₂ := hpending₁.trans (Pending.of_staged (head_versionName _) hkeeps₂)
      have hsame (m : String) (rest : List String) :
          w₂.disk.at? (B ++ (recordNames r.id ++ versionName r.version :: m :: rest)) =
            w₁.disk.at? (B ++ (recordNames r.id ++ versionName r.version :: m :: rest)) :=
        hkeeps₂.same (by rintro val ⟨heq, -⟩; simp at heq) (by simp)
      have hfields₂ : ∀ f ∈ (files r.data).toList,
          w₂.disk.at? (B ++ (recordNames r.id ++ [versionName r.version, f.1])) =
            some (.file (fileContent r.data f)) :=
        fun f hf => (hsame f.1 []).trans (hfields f hf)
      refine (always_moveIndex hkeeps₂.stands hsteps hdistinct hfields₂
        (fun m rest e he => honly m rest e ((hsame m rest).symm.trans he)) hwritten).mono ?_
          (fun _ _ _ h => h) ?_
      · exact fun _ hprogress => hprogress.after hpending₂
      · rintro e w₃ - ⟨rfl, hF⟩
        refine ⟨hpending₂, fun _ _ hother => hF ?_⟩
        rw [hpending₂.same _ (elsewhere_index (head_versionName _))]
        exact hother
    · rintro e w₂ hkeeps₂ ⟨-, hF⟩
      refine ⟨hpending₁.trans (.of_staged (head_versionName _) hkeeps₂), fun _ hother _ => ?_⟩
      refine hF ?_ (isName_staged (hstands₁.sound.isName_of_mem hdirectory₁)) ?_
      · rw [List.dropLast_concat]
        exact hdirectory₁
      · rw [hkeeps₁.same (by rintro val ⟨g, hg, -⟩; simp at hg) (by simp)]
        exact hother
  · intro e w₁ hkeeps₁ hF
    exact ⟨.of_inVersion hkeeps₁, fun hnames _ _ => hF hnames⟩

end DirectoryStore

end CertKeeper
