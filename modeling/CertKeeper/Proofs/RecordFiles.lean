import CertKeeper.Proofs.DirectoryTrees
import CertKeeper.Proofs.CharacterOctets
import CertKeeper.Proofs.StoredDocuments
import Mathlib.Data.List.Perm.Subperm

/-!
# Records in files

Where the files of a record are, and what they hold: the index says which version counts, and the
directory of that version has one file to a field (`DirectoryStore.Published`). A record that is
published is read as it is (`DirectoryStore.always_readRecord?`), on a disk that works and, as far
as there is an answer, on one that breaks down.
-/

namespace CertKeeper

namespace Entries

variable {κ α : Type} [DecidableEq κ]

/-- Setting a key brings no other pair. -/
private theorem mem_put {k : κ} {a : α} {p : κ × α} {l : List (κ × α)} (hp : p ∈ put k a l) :
    p = (k, a) ∨ p ∈ l := by
  induction l with
  | nil => exact .inl (List.mem_singleton.mp hp)
  | cons q l ih =>
    rw [put] at hp
    split at hp
    · next hq =>
      rcases List.mem_cons.mp hp with rfl | hp
      · exact .inl (by rw [hq])
      · exact .inr (List.mem_cons_of_mem q hp)
    · rcases List.mem_cons.mp hp with rfl | hp
      · exact .inr List.mem_cons_self
      · exact (ih hp).imp_right (List.mem_cons_of_mem q)

/-- The pairs of a map are among those that it is made from. -/
theorem mem_of_mem_ofList {p : κ × α} {l : List (κ × α)} (hp : p ∈ (ofList l).toList) : p ∈ l := by
  suffices h : ∀ m : Entries κ α, p ∈ (l.foldl (fun m p => m.set p.1 p.2) m).toList →
      p ∈ m.toList ∨ p ∈ l by simpa [empty] using h empty hp
  clear hp
  induction l with
  | nil => exact fun m hp => .inl hp
  | cons q l ih =>
    intro m hp
    rcases ih (m.set q.1 q.2) hp with hp | hp
    · rcases mem_put hp with rfl | hp
      · exact .inr List.mem_cons_self
      · exact .inl hp
    · exact .inr (List.mem_cons_of_mem q hp)

/-- As many entries as pairs come only from pairs with distinct keys. -/
private theorem size_ofList_iff (l : List (κ × α)) :
    (ofList l).size = l.length ↔ (l.map Prod.fst).Nodup := by
  constructor
  · intro hsize
    have hsub : (ofList l).keys ⊆ l.map Prod.fst := List.map_subset _ fun _ => mem_of_mem_ofList
    have hperm := (List.subperm_of_subset (ofList l).nodup hsub).perm_of_length_le
      (by simpa [keys, size] using hsize.ge)
    exact hperm.nodup_iff.mp (ofList l).nodup
  · intro hnodup
    rw [size, toList_ofList hnodup]

end Entries

namespace DirectoryStore

open Disk (Path IsStep IsName Stands Watch service always_isThere always_read)
open Disk.Path (splitNames)
open CertKeeper.Action (Always)

/-! ## Names and paths -/

/-- No slash is in a name as it is stored. -/
theorem no_slash_safeName (s : String) : '/' ∉ (safeName s).toList := by
  rw [safeName, String.toList_ofList, List.mem_map]
  rintro ⟨c, -, hc⟩
  split at hc
  · cases hc
  · next h => exact h (.inl hc)

/-- A name without separators is left as it is. -/
theorem safeName_of_free {s : String} (h : '/' ∉ s.toList) (h' : '\\' ∉ s.toList) :
    safeName s = s := by
  have hmap : (s.toList.map fun c => if c = '/' ∨ c = '\\' then '_' else c) = s.toList := by
    conv => rhs; rw [← List.map_id s.toList]
    apply List.map_congr_left
    intro c hc
    rw [if_neg, id]
    rintro (rfl | rfl)
    · exact h hc
    · exact h' hc
  rw [safeName, hmap, String.ofList_toList]

/-- Only a name itself becomes a text in which nothing may have been replaced. -/
theorem eq_of_safeName_eq {s t : String} (h : safeName s = t) (ht : '_' ∉ t.toList) : s = t := by
  subst h
  have hchars : ∀ c ∈ s.toList, ¬ (c = '/' ∨ c = '\\') := by
    intro c hc hsep
    apply ht
    rw [safeName, String.toList_ofList, List.mem_map]
    exact ⟨c, hc, if_pos hsep⟩
  exact (safeName_of_free (fun hmem => hchars _ hmem (.inl rfl))
    fun hmem => hchars _ hmem (.inr rfl)).symm

/-- The name of the directory of a version. -/
def versionName (version : Int) : String := "v" ++ toString version

/-- The name of the directory of a version is a `v` and the version in decimal. -/
theorem toList_versionName (version : Int) :
    (versionName version).toList = 'v' :: Json.Number.chars (.integer version) := by
  rw [versionName, String.toList_append]
  rfl

/-- Two versions have the same directory only if they are the same. -/
theorem versionName_inj {v v' : Int} : versionName v = versionName v' ↔ v = v' := by
  constructor
  · intro h
    have hlist := congrArg String.toList h
    rw [toList_versionName, toList_versionName, List.cons.injEq] at hlist
    have hv := Json.readToken_integer v Json.endsNumber_nil
    have hv' := Json.readToken_integer v' Json.endsNumber_nil
    rw [hlist.2] at hv
    rw [hv] at hv'
    simpa using hv'
  · rintro rfl
    rfl

/-- The name of the directory of a version leads to a directory below. -/
theorem isStep_versionName (version : Int) : IsStep (versionName version) := by
  have hchar : ∀ t : String, t.toList.head? ≠ some 'v' → versionName version ≠ t := by
    rintro t ht rfl
    rw [toList_versionName] at ht
    exact ht rfl
  refine ⟨hchar _ (by decide), hchar _ (by decide), hchar _ (by decide), ?_⟩
  rw [toList_versionName, Json.chars_integer, List.mem_cons, not_or]
  refine ⟨by decide, ?_⟩
  have hdigits : '/' ∉ Nat.toDigits 10 version.natAbs := fun hmem =>
    absurd (Nat.isDigit_of_mem_toDigits (by decide) (by decide) hmem) (by decide)
  split
  · simp [hdigits]
  · exact hdigits

/-- A name with its separators replaced is one step of a path, unless it is dropped or leads up. -/
theorem isStep_safeName {s : String} (h₁ : s ≠ "") (h₂ : s ≠ ".") (h₃ : s ≠ "..") :
    IsStep (safeName s) where
  nonempty := fun h => h₁ (eq_of_safeName_eq h (by decide))
  ne_dot := fun h => h₂ (eq_of_safeName_eq h (by decide))
  ne_dots := fun h => h₃ (eq_of_safeName_eq h (by decide))
  no_slash := no_slash_safeName s

/-- The names of a path that a name with its separators replaced stands for. -/
theorem isStep_of_mem_splitNames {s n : String} (h : s ≠ "..")
    (hn : n ∈ splitNames (safeName s)) : IsStep n := by
  rw [Path.splitNames_of_no_slash (no_slash_safeName s)] at hn
  split at hn
  · cases hn
  · next hkept =>
    rw [not_or] at hkept
    rw [List.mem_singleton.mp hn]
    exact ⟨hkept.1, hkept.2, fun hdots => h (eq_of_safeName_eq hdots (by decide)),
      no_slash_safeName s⟩

/-- The names from the base directory to the directory of a record. -/
def recordNames (id : Identity) : List String :=
  "records" :: (splitNames (safeName id.space) ++ splitNames (safeName id.name))

variable (s : DirectoryStore) (id : Identity)

/-- The directory of a record, by its names below the base directory. -/
theorem recordDirectory_eq : s.recordDirectory id = s.base.append (recordNames id) := by
  rw [recordDirectory, (by decide : IsStep "records").div,
    Path.div_of_no_slash _ (no_slash_safeName _), Path.div_of_no_slash _ (no_slash_safeName _),
    Path.append_append, Path.append_append]
  simp [recordNames]

/-- A path in the directory of a record, by its names below the base directory. -/
theorem recordDirectory_div {n : String} (hn : IsStep n) :
    s.recordDirectory id / n = s.base.append (recordNames id ++ [n]) := by
  rw [hn.div, recordDirectory_eq, Path.append_append]

/-- The path of the index of a record, by its names below the base directory. -/
theorem indexPath_eq : s.indexPath id = s.base.append (recordNames id ++ ["meta.json"]) :=
  s.recordDirectory_div id (by decide)

/-- The directory of a version of a record, by its names below the base directory. -/
theorem versionDirectory_eq (version : Int) :
    s.versionDirectory id version = s.base.append (recordNames id ++ [versionName version]) :=
  s.recordDirectory_div id (isStep_versionName version)

/-- The path of a file in the directory of a version, by its names below the base directory. -/
theorem versionDirectory_div_name {version : Int} {f : String} (hf : IsStep f) :
    s.versionDirectory id version / f =
      s.base.append (recordNames id ++ [versionName version, f]) := by
  rw [hf.div, versionDirectory_eq, Path.append_append, List.append_assoc, List.singleton_append]

/-- A path in the directory of a version, by its names below the base directory, whatever the file
is called. -/
theorem versionDirectory_div {version : Int} {f : String} (hf : '/' ∉ f.toList) :
    s.versionDirectory id version / f =
      s.base.append (recordNames id ++ [versionName version] ++ splitNames f) := by
  rw [Path.div_of_no_slash _ hf, versionDirectory_eq, Path.append_append]

variable {s id}

/-- The directory of a record is below the base directory unless one of its names leads up. -/
theorem isStep_of_mem_recordNames (hspace : id.space ≠ "..") (hname : id.name ≠ "..") :
    ∀ n ∈ recordNames id, IsStep n := by
  intro n hn
  rcases List.mem_cons.mp hn with rfl | hn
  · decide
  · rcases List.mem_append.mp hn with hn | hn
    · exact isStep_of_mem_splitNames hspace hn
    · exact isStep_of_mem_splitNames hname hn

/-! ## Files of fields -/

variable {data : Fields}

/-- Every field has a file of its own if and only if the names of the files are distinct. -/
theorem files_size_iff :
    (files data).size = data.size ↔ (data.keys.map safeName).Nodup := by
  have hlength : data.size = (data.keys.map fun name => (safeName name, name)).length := by
    rw [List.length_map, Entries.keys, List.length_map]
    rfl
  rw [files, hlength, Entries.size_ofList_iff, List.map_map]
  rfl

/-- Each field has its own file if there are as many files as fields. -/
theorem files_toList (h : (files data).size = data.size) :
    (files data).toList = data.toList.map fun p => (safeName p.1, p.1) := by
  have hnodup := files_size_iff.mp h
  rw [files, Entries.toList_ofList, Entries.keys, List.map_map]
  · rfl
  · rw [List.map_map]
    exact hnodup

/-- A file is the one of a field. -/
theorem eq_of_mem_files {f : String × String} (hf : f ∈ (files data).toList) :
    f.1 = safeName f.2 := by
  obtain ⟨name, -, rfl⟩ := List.mem_map.mp (Entries.mem_of_mem_ofList hf)
  rfl

/-- What is written into the file of a field. -/
def fileContent (data : Fields) (f : String × String) : Bytes := (data.get? f.2).getD []

/-- The index of a record. -/
def indexOf (r : Record) : Store.Index :=
  ⟨r.version, (files r.data).toList.map fun f => (f.1, .text f.2)⟩

private theorem indexOf_ofText (r : Record) :
    Store.Index.ofText (indexOf r).text = .ok (indexOf r) := by
  apply Store.Index.ofText_text
  · exact Store.Manifest.membersWhole_texts (files r.data).toList
  · rw [indexOf, List.map_map]
    exact (files r.data).nodup

/-! ## Published records -/

/-- A record as it is stored: its index, and a file to every field. -/
structure Published (B P : List String) (r : Record) (d : Disk) : Prop where
  distinct : (files r.data).size = r.data.size
  index : d.at? (B ++ (P ++ ["meta.json"])) =
    some (.file (Text.Utf8.encode (indexOf r).text))
  field : ∀ f ∈ (files r.data).toList,
    d.at? (B ++ (P ++ [versionName r.version, f.1])) = some (.file (fileContent r.data f))

/-- What is stored of a record that may not exist. -/
def RecordAt (B P : List String) : Option Record → Disk → Prop
  | none, d => d.at? (B ++ (P ++ ["meta.json"])) = none
  | some r, d => Published B P r d

variable {B : List String} {F : Prop} {C : Watch → Prop} {w w' : Watch} {r : Record}
variable {names : List String}

/-- A text that is written in a file is read. -/
theorem always_readText {text : String} (h : Stands s.base B w.disk) (hC : C w)
    (hat : w.disk.at? (B ++ names) = some (.file (Text.Utf8.encode text))) :
    Always (service F) C (readText (s.base.append names)) (fun x w' => w' = w ∧ x = text)
      (fun e w' => w' = w ∧ e.isRecordNotFound = false ∧ F) w := by
  unfold readText
  refine Always.bind ((always_read h hC hat).mono (fun _ h => h) ?_ fun _ _ _ h => h)
  rintro _ w - ⟨rfl, rfl⟩
  refine Always.ofExcept hC ?_
  rw [Text.Utf8.decode_encode]
  exact ⟨rfl, rfl⟩

/-- The fields that are read from the files of a record are those of the record. -/
private theorem ofList_files (h : (files data).size = data.size) :
    Entries.ofList ((files data).toList.map fun f => (f.2, fileContent data f)) = data := by
  have hpairs : ((files data).toList.map fun f => (f.2, fileContent data f)) = data.toList := by
    rw [files_toList h, List.map_map]
    conv => rhs; rw [← List.map_id data.toList]
    apply List.map_congr_left
    intro p hp
    have hget : data.get? p.1 = some p.2 := (Entries.mem_toList_iff data p.1 p.2).mp hp
    simp [fileContent, hget]
  rw [hpairs, Entries.ofList_toList]

/-- A published record is read as it is. -/
theorem always_readRecord (h : Stands s.base B w.disk) (hC : C w)
    (hr : Published B (recordNames id) r w.disk) :
    Always (service F) C (s.readRecord id)
      (fun x w' => w' = w ∧ x = (⟨id, r.data, r.version⟩, []))
      (fun e w' => w' = w ∧ e.isRecordNotFound = false ∧ F) w := by
  have hindex := h.locate_of_at? hr.index
  unfold readRecord
  rw [indexPath_eq]
  refine Always.bind ((always_isThere hC _).mono (fun _ h => h) ?_ ?_)
  · rintro there w - ⟨rfl, hthere⟩
    have hseen : there = true := by
      rw [hthere, Disk.seen?, hindex]
      simp [hr.index]
    subst hseen
    simp only [Bool.not_true, Bool.false_eq_true, if_false]
    refine Always.bind ((always_readText h hC hr.index).mono (fun _ h => h) ?_ fun _ _ _ h => h)
    rintro _ w - ⟨rfl, rfl⟩
    refine Always.bind (Always.ofExcept hC ?_)
    rw [indexOf_ofText]
    change Always _ _ (do
      let fields ← ((files r.data).toList.map fun f => (f.1, Json.text f.2)).mapM
        (readField (s.versionDirectory id r.version))
      _) _ _ _
    rw [List.mapM_map]
    refine Always.bind (Always.mono (Always.mapM (g := fun f =>
      (f.2, true, fileContent r.data f)) hC ?_) (fun _ h => h) ?_ fun _ _ _ h => h)
    · intro f hf
      have hat := hr.field f hf
      have hname : IsName f.1 := h.sound.isName_of_mem hat f.1 (by simp)
      unfold readField
      rw [Function.comp_apply, s.versionDirectory_div_name id hname.toIsStep]
      refine Always.bind ((always_read h hC hat).mono (fun _ h => h) ?_ fun _ _ _ h => h)
      rintro _ w - ⟨rfl, rfl⟩
      exact Always.bind (Always.ofExcept hC (Always.pure hC ⟨rfl, rfl⟩))
    · rintro _ w - ⟨rfl, rfl⟩
      refine Always.pure hC ⟨rfl, ?_⟩
      have halien : ((files r.data).toList.map fun f =>
          (f.2, true, fileContent r.data f)).filter (fun f => !f.2.1) = [] := by
        simp
      simp only [List.map_map, halien, List.map_nil, Prod.mk.injEq, and_true]
      exact congrArg (fun data => (⟨id, data, r.version⟩ : Record)) (ofList_files hr.distinct)
  · rintro e w - ⟨rfl, he⟩
    exact ⟨rfl, he.1, he.broken h (h.sound.isName_of_mem hr.index)⟩

/-- A record that is not stored is not found. -/
theorem always_readRecord_none (h : Stands s.base B w.disk) (hC : C w)
    (hsteps : ∀ n ∈ recordNames id, IsStep n)
    (hnone : w.disk.at? (B ++ (recordNames id ++ ["meta.json"])) = none) :
    Always (service F) C (s.readRecord id) (fun _ _ => False)
      (fun e w' => w' = w ∧ (e = .recordNotFound id ∨
        e.isRecordNotFound = false ∧ ((∀ n ∈ recordNames id, IsName n) → F))) w := by
  have hsteps' : ∀ n ∈ recordNames id ++ ["meta.json"], IsStep n :=
    List.forall_mem_append.mpr ⟨hsteps, by simpa using (by decide : IsStep "meta.json")⟩
  unfold readRecord
  rw [indexPath_eq]
  refine Always.bind ((always_isThere hC _).mono (fun _ h => h) ?_ ?_)
  · rintro there w - ⟨rfl, hthere⟩
    rw [h.seen? hsteps', hnone] at hthere
    subst hthere
    exact Always.bind (Always.throw hC ⟨rfl, .inl rfl⟩)
  · rintro e w - ⟨rfl, he⟩
    refine ⟨rfl, .inr ⟨he.1, fun hnames => he.broken h ?_⟩⟩
    exact List.forall_mem_append.mpr ⟨hnames, by simpa using (by decide : Disk.IsName "meta.json")⟩

/-- What is read is what is stored, unless the disk breaks down or nothing can be stored under such
a name. -/
theorem always_readRecord? {x : Option Record} (h : Stands s.base B w.disk) (hC : C w)
    (hsteps : ∀ n ∈ recordNames id, IsStep n) (hx : RecordAt B (recordNames id) x w.disk) :
    Always (service F) C (s.readRecord? id)
      (fun y w' => w' = w ∧ y = x.map fun r => (⟨id, r.data, r.version⟩, []))
      (fun _ w' => w' = w ∧ ((∀ n ∈ recordNames id, IsName n) → F)) w := by
  unfold readRecord?
  cases x with
  | none =>
    refine Always.bind (Always.outcome
      ((always_readRecord_none h hC hsteps hx).mono (fun _ h => h) ?_ ?_))
    · exact fun _ _ _ hno => hno.elim
    · rintro e w - ⟨rfl, rfl | ⟨hfound, hF⟩⟩
      · exact Always.pure hC ⟨rfl, rfl⟩
      · simp only [hfound, Bool.false_eq_true, if_false]
        exact Always.throw hC ⟨rfl, hF⟩
  | some r =>
    refine Always.bind (Always.outcome ((always_readRecord h hC hx).mono (fun _ h => h) ?_ ?_))
    · rintro y w - ⟨rfl, rfl⟩
      exact Always.pure hC ⟨rfl, rfl⟩
    · rintro e w - ⟨rfl, hfound, hF⟩
      simp only [hfound, Bool.false_eq_true, if_false]
      exact Always.throw hC ⟨rfl, fun _ => hF⟩

end DirectoryStore

end CertKeeper
