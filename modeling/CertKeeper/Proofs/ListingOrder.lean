import Mathlib.Data.List.Pairwise
import CertKeeper.Proofs.RestartGroup
import CertKeeper.Proofs.StoreOnDisk
import CertKeeper.Proofs.StoreRefinement

/-!
# In which order instances are listed

A store in memory lists instances by their names, a store in a directory by the names of their
manifests. The two orders differ where a name goes on after another one with characters that come
before the ending of a manifest (`DirectoryStore.Overtakes`), and only there
(`DirectoryStore.eq_iff_of_sorted`).
-/

namespace CertKeeper

open CertKeeper.Action
open DirectoryStore (safeName spaceNames)
open Disk (IsName)

/-! ## The order of manifests -/

namespace DirectoryStore

/-- The name of the manifest of an instance comes before that of another one. -/
def FiledBefore (a b : String) : Prop := a ++ ".json" < b ++ ".json"

/-- Among manifests a name comes before one that it goes on after. -/
def Overtakes (a b : String) : Prop := ∃ t, a = b ++ t ∧ t ++ ".json" < ".json"

/-- With an ending the order of two texts changes where the greater one goes on after the other one
with characters before that ending, and only there. -/
private theorem append_lt_append_iff {a b e : List Char} (h : a < b) :
    b ++ e < a ++ e ↔ ∃ t, b = a ++ t ∧ t ++ e < e := by
  induction a generalizing b with
  | nil => simp
  | cons x a ih =>
    cases b with
    | nil => simp at h
    | cons y b =>
      rw [List.cons_append, List.cons_append, List.cons_lt_cons_iff]
      simp only [List.cons_append, List.cons.injEq]
      rcases List.cons_lt_cons_iff.mp h with hxy | ⟨rfl, hab⟩
      · constructor
        · rintro (hyx | ⟨rfl, -⟩)
          · exact absurd hyx (Char.lt_asymm hxy)
          · exact absurd hxy (Char.lt_irrefl _)
        · rintro ⟨t, ⟨rfl, -⟩, -⟩
          exact absurd hxy (Char.lt_irrefl _)
      · simpa [Char.lt_irrefl] using ih hab

private theorem filedBefore_iff_overtakes {a b : String} (h : a < b) :
    FiledBefore b a ↔ Overtakes b a := by
  have hchars := append_lt_append_iff (e := ".json".toList) (String.lt_iff.mp h)
  rw [FiledBefore, Overtakes, String.lt_iff, String.toList_append, String.toList_append, hchars]
  constructor
  · rintro ⟨t, ht, hlt⟩
    refine ⟨String.ofList t, ?_, ?_⟩
    · rw [← String.toList_inj, ht, String.toList_append, String.toList_ofList]
    · rwa [String.lt_iff, String.toList_append, String.toList_ofList]
  · rintro ⟨t, rfl, hlt⟩
    refine ⟨t.toList, String.toList_append, ?_⟩
    rwa [String.lt_iff, String.toList_append] at hlt

/-- Of two texts the one that overtakes the other with the endings comes after it without them. -/
theorem Overtakes.lt {a b : String} (h : Overtakes a b) : b < a := by
  obtain ⟨t, rfl, ht⟩ := h
  rw [String.lt_iff, String.toList_append]
  by_contra hnot
  have hsame := List.le_antisymm List.le_append_left (List.not_lt.mp hnot)
  have hempty : t.toList = [] := List.self_eq_append_right.mp hsame
  rw [String.toList_eq_nil_iff.mp hempty] at ht
  exact String.lt_irrefl _ ht

/-- Two names that do not overtake each other are in the same order as their manifests. -/
private theorem filedBefore_of_lt {a b : String} (h : a < b) (hnot : ¬ Overtakes b a) :
    FiledBefore a b := by
  rw [← filedBefore_iff_overtakes h] at hnot
  refine String.not_le.mp fun hle => ?_
  have hsame := String.le_antisymm hle (String.not_lt.mp hnot)
  rw [eq_of_append_json hsame] at h
  exact String.lt_irrefl _ h

/-- What is sorted by manifests is sorted by names if and only if no name overtakes another one. -/
theorem eq_iff_of_sorted {α : Type} (name : α → String) {filed named : List α}
    (hfiled : filed.Pairwise fun i j => FiledBefore (name i) (name j))
    (hnamed : named.Pairwise fun i j => name i < name j) (hperm : filed.Perm named) :
    filed = named ↔ ∀ i ∈ named, ∀ j ∈ named, ¬ Overtakes (name i) (name j) := by
  constructor
  · rintro rfl
    let Apart : α → α → Prop := fun i j =>
      ¬ Overtakes (name i) (name j) ∧ ¬ Overtakes (name j) (name i)
    have : Std.Symm Apart := ⟨fun _ _ h => h.symm⟩
    have hapart : filed.Pairwise Apart := by
      refine hnamed.imp₂ ?_ hfiled
      intro i j hlt hfile
      refine ⟨fun hover => String.lt_asymm hlt hover.lt, fun hover => ?_⟩
      exact String.lt_asymm hfile ((filedBefore_iff_overtakes hlt).mpr hover)
    have hself (i : α) (_ : i ∈ filed) : Apart i i :=
      ⟨fun hover => String.lt_irrefl _ hover.lt, fun hover => String.lt_irrefl _ hover.lt⟩
    exact fun i hi j hj => (hapart.forall_of_forall hself hi hj).1
  · intro hnone
    refine hperm.eq_of_pairwise (fun i j _ _ hij hji => absurd hji (String.lt_asymm hij)) hfiled ?_
    exact hnamed.imp_of_mem fun hi hj hlt => filedBefore_of_lt hlt (hnone _ hj _ hi)

end DirectoryStore

/-! ## Clean names -/

/-- A name that can be that of a file as far as its characters go. -/
structure IsCleanName (n : String) : Prop extends IsRegularName n where
  no_slash : '/' ∉ n.toList
  no_backslash : '\\' ∉ n.toList
  no_nul : '\x00' ∉ n.toList

instance (n : String) : Decidable (IsCleanName n) :=
  decidable_of_iff
    (IsRegularName n ∧ '/' ∉ n.toList ∧ '\\' ∉ n.toList ∧ '\x00' ∉ n.toList)
    ⟨fun h => ⟨h.1, h.2.1, h.2.2.1, h.2.2.2⟩,
      fun h => ⟨h.toIsRegularName, h.no_slash, h.no_backslash, h.no_nul⟩⟩

namespace IsCleanName

variable {n : String}

/-- A clean name is stored as it is. -/
theorem safeName_eq (h : IsCleanName n) : safeName n = n :=
  DirectoryStore.safeName_of_free h.no_slash h.no_backslash

/-- A clean name is plain unless it is too long. -/
theorem isPlainName (h : IsCleanName n)
    (hshort : (Text.Utf8.encode n).length ≤ Disk.maxNameLength) : IsPlainName n where
  nonempty := h.nonempty
  ne_dot := h.ne_dot
  ne_dots := h.ne_dots
  no_slash := h.no_slash
  no_nul := h.no_nul
  short := hshort
  no_backslash := h.no_backslash

end IsCleanName

namespace Identity

/-- An identity of two clean names. -/
structure IsClean (id : Identity) : Prop where
  space : IsCleanName id.space
  name : IsCleanName id.name

variable {id : Identity}

instance : Decidable id.IsClean :=
  decidable_of_iff (IsCleanName id.space ∧ IsCleanName id.name)
    ⟨fun h => ⟨h.1, h.2⟩, fun h => ⟨h.space, h.name⟩⟩

namespace IsClean

/-- A clean identity is stored as it is. -/
theorem safe (h : id.IsClean) : id.safe = id := ext h.space.safeName_eq h.name.safeName_eq

/-- A clean identity is regular. -/
theorem isRegular (h : id.IsClean) : id.IsRegular :=
  ⟨h.space.toIsRegularName, h.name.toIsRegularName⟩

/-- A clean identity with a manifest is plain: its names are short enough. -/
private theorem isPlain (h : id.IsClean) (hhas : id.HasManifest) : id.IsPlain := by
  have hspace := hhas.space.short
  have hname := hhas.name.short
  rw [h.safe] at hspace hname
  refine ⟨h.space.isPlainName hspace, h.name.isPlainName ?_⟩
  rw [Text.Utf8.encode, String.toList_append, List.flatMap_append, List.length_append] at hname
  exact Nat.le_of_add_right_le hname

end IsClean

end Identity

/-! ## Registering instances -/

namespace MemoryStore

/-- A store with instances that have been registered one after another. -/
def ofInstances (l : List Instance) : MemoryStore := l.foldl addInstance empty

private theorem get?_foldl_addInstance {l : List Instance}
    (hdistinct : l.Pairwise fun i j => i.id ≠ j.id)
    (s : MemoryStore) (id : Identity) (i : Instance) :
    (l.foldl addInstance s).instances.get? id = some i ↔
      i ∈ l ∧ i.id = id ∨ (∀ j ∈ l, j.id ≠ id) ∧ s.instances.get? id = some i := by
  induction l generalizing s with
  | nil => simp
  | cons a rest ih =>
    obtain ⟨hfirst, hrest⟩ := List.pairwise_cons.mp hdistinct
    rw [List.foldl_cons, ih hrest, addInstance, Entries.get?_set]
    by_cases hid : a.id = id
    · subst hid
      have hothers : ∀ j ∈ rest, j.id ≠ a.id := fun j hj => (hfirst j hj).symm
      rw [if_pos rfl, List.mem_cons, Option.some.injEq]
      constructor
      · rintro (⟨hi, hname⟩ | ⟨-, rfl⟩)
        · exact absurd hname (hothers i hi)
        · exact .inl ⟨.inl rfl, rfl⟩
      · rintro (⟨rfl | hi, hname⟩ | ⟨hnone, -⟩)
        · exact .inr ⟨hothers, rfl⟩
        · exact absurd hname (hothers i hi)
        · exact absurd rfl (hnone a List.mem_cons_self)
    · rw [if_neg hid, List.mem_cons, List.forall_mem_cons]
      have hne (hi : i.id = id) : i ≠ a := fun heq => hid (heq ▸ hi)
      constructor
      · rintro (⟨hi, hname⟩ | ⟨hnone, hget⟩)
        · exact .inl ⟨.inr hi, hname⟩
        · exact .inr ⟨⟨hid, hnone⟩, hget⟩
      · rintro (⟨hi, hname⟩ | ⟨⟨-, hnone⟩, hget⟩)
        · exact .inl ⟨hi.resolve_left (hne hname), hname⟩
        · exact .inr ⟨hnone, hget⟩

/-- In whatever order different instances are registered, the same ones are there in the end. -/
theorem get?_ofInstances_of_perm {l l' : List Instance} (hperm : l'.Perm l)
    (hdistinct : l.Pairwise fun i j => i.id ≠ j.id) (id : Identity) :
    (ofInstances l').instances.get? id = (ofInstances l).instances.get? id := by
  have hdistinct' := (hperm.symm.pairwise_iff fun h => Ne.symm h).mp hdistinct
  refine Option.ext fun i => ?_
  rw [ofInstances, ofInstances, get?_foldl_addInstance hdistinct', get?_foldl_addInstance hdistinct]
  simp only [hperm.mem_iff]

end MemoryStore

namespace DirectoryStore

variable {s : DirectoryStore} {B : List String} {m : MemoryStore} {d d' : Disk} {i : Instance}
  {space : String} {labels : Labels}

/-- An instance that is stored has a manifest. -/
theorem hasManifest_of_stored (hold : Holds s.base B m d) {id : Identity} (hid : id.IsRegular)
    (hi : m.instances.get? id.safe = some i) : id.HasManifest := by
  have hat := hold.at?_instanceNames hid
  rw [hi] at hat
  have hnames := hold.sound.isName_of_mem hat
  rw [hid.instanceNames] at hnames
  exact ⟨hnames _ (by simp), hnames _ (by simp)⟩

/-- Registering an instance with clean names, if it succeeds, is registering it in memory. -/
private theorem holds_of_addInstance (hold : Holds s.base B m d) (hplain : AllPlain m)
    (hi : i.id.IsClean)
    (hrun : runWith Disk.handler (s.addInstance i) d = (.ok (), d')) :
    Holds s.base B (m.addInstance i) d' ∧ AllPlain (m.addInstance i) := by
  obtain ⟨r, w', hrun', -, hends⟩ :=
    Disk.exists_runWith_eq (hold.always_addInstance hi.isRegular)
  cases hrun'.symm.trans hrun
  have hadd : m.register i = m.addInstance i := by
    rw [MemoryStore.register, hi.safe]
    rfl
  rw [Action.Ends, hadd] at hends
  have hstored : (m.addInstance i).instances.get? i.id.safe = some i := by
    rw [hi.safe, MemoryStore.addInstance, Entries.get?_set, if_pos rfl]
  have hhas := hasManifest_of_stored hends hi.isRegular hstored
  refine ⟨hends, fun k j hj => ?_⟩
  rw [MemoryStore.addInstance, Entries.get?_set] at hj
  split at hj
  · cases hj
    exact hi.isPlain hhas
  · exact hplain k j hj

/-- Registering any number of instances, all with clean identities, keeps a store on disk in step
with one in memory. -/
theorem holds_of_addInstances {l : List Instance} (hold : Holds s.base B m d)
    (hplain : AllPlain m) (hclean : ∀ i ∈ l, i.id.IsClean)
    (hrun : runWith Disk.handler (l.forM s.addInstance) d = (.ok (), d')) :
    Holds s.base B (l.foldl MemoryStore.addInstance m) d' ∧
      AllPlain (l.foldl MemoryStore.addInstance m) := by
  induction l generalizing m d with
  | nil =>
    cases hrun
    exact ⟨hold, hplain⟩
  | cons i rest ih =>
    obtain ⟨_, d₁, hfirst, hrest⟩ := runWith_bind_eq_ok.mp hrun
    obtain ⟨hold₁, hplain₁⟩ :=
      holds_of_addInstance hold hplain (hclean i List.mem_cons_self) hfirst
    exact ih hold₁ hplain₁ (fun j hj => hclean j (List.mem_cons_of_mem _ hj)) hrest

/-! ## Listing -/

/-- What listing the instances of a namespace comes to: those of the namespace that it is stored as,
by the names of their manifests, or a failure if nothing can be stored under that name. -/
inductive Listed (m : MemoryStore) (space : String) (labels : Labels) :
    Except Failure (List Instance) → Prop
  | filed {l : List Instance} (perm : l.Perm (m.listInstances (safeName space) labels))
      (sorted : l.Pairwise fun i j => FiledBefore i.id.name j.id.name) :
      Listed m space labels (.ok l)
  | refused {e : Failure} (name : ¬ IsName (safeName space))
      (none : m.listInstances (safeName space) labels = []) : Listed m space labels (.error e)

/-- What is listed depends on what is listed in memory only. -/
theorem Listed.congr {m' : MemoryStore} {r : Except Failure (List Instance)}
    (h : Listed m space labels r)
    (hsame : ∀ space labels, m.listInstances space labels = m'.listInstances space labels) :
    Listed m' space labels r := by
  cases h with
  | filed perm sorted => exact .filed (hsame _ _ ▸ perm) sorted
  | refused name none => exact .refused name (hsame _ _ ▸ none)

/-- A list is the same as in memory if and only if no name in it overtakes another one. -/
theorem Listed.eq_iff {l : List Instance} (h : Listed m space labels (.ok l)) (hm : m.Keyed) :
    l = m.listInstances (safeName space) labels ↔
      ∀ i ∈ l, ∀ j ∈ l, ¬ Overtakes i.id.name j.id.name := by
  cases h with
  | filed perm sorted =>
    rw [eq_iff_of_sorted (fun i : Instance => i.id.name) sorted
      (MemoryStore.pairwise_listInstances hm _ _) perm]
    simp only [perm.mem_iff]

/-- Nothing is listed in a namespace that is none. -/
theorem AllPlain.listInstances_eq_nil (h : AllPlain m) (hspace : ¬ IsName space) :
    m.listInstances space labels = [] := by
  rw [List.eq_nil_iff_forall_not_mem]
  intro i hi
  obtain ⟨k, hk⟩ := Entries.mem_values.mp
    (List.mem_of_mem_filter ((List.mergeSort_perm _ _).subset hi))
  rw [← MemoryStore.space_of_mem_listInstances hi] at hspace
  exact hspace (h k i hk).space.toIsName

/-- The manifests of a namespace are read by their names. -/
private theorem filed_atFile (hold : Holds s.base B m d) (hplain : AllPlain m)
    (hspace : IsRegularName space) :
    ((manifestNames (d.childNames (B ++ spaceNames space))).map (m.atFile space)).Pairwise
      fun i j => FiledBefore i.id.name j.id.name := by
  have hname : ∀ n ∈ manifestNames (d.childNames (B ++ spaceNames space)),
      (m.atFile space n).id.name ++ ".json" = n := by
    intro n hn
    rw [manifestNames, List.mem_mergeSort, List.mem_filter, Disk.mem_childNames,
      List.append_assoc] at hn
    obtain ⟨hget, -⟩ := hold.atFile hspace hn.2 hn.1
    have hkey := hold.instanceKey _ _ hget
    rw [(hplain _ _ hget).safe] at hkey
    rw [hkey, stem_append hn.2]
  have hsorted : (manifestNames (d.childNames (B ++ spaceNames space))).Pairwise (· < ·) := by
    have hle : (manifestNames (d.childNames (B ++ spaceNames space))).Pairwise (· ≤ ·) := by
      simpa only [manifestNames, decide_eq_true_eq] using
        @List.pairwise_mergeSort String (fun a b => decide (a ≤ b))
          (fun a b c hab hbc => by
            simpa using String.le_trans (by simpa using hab) (by simpa using hbc))
          (fun a b => by simpa using String.le_total a b)
          ((d.childNames (B ++ spaceNames space)).filter fun n => n.endsWith ".json")
    have hnodup : (manifestNames (d.childNames (B ++ spaceNames space))).Nodup := by
      rw [manifestNames, (List.mergeSort_perm _ _).nodup_iff]
      exact Disk.childNames_nodup.filter _
    exact hle.imp₂ (fun _ _ h hne => String.not_le.mp fun hge => hne (String.le_antisymm h hge))
      hnodup
  refine List.pairwise_map.mpr (hsorted.imp_of_mem fun hi hj hlt => ?_)
  rwa [FiledBefore, hname _ hi, hname _ hj]

/-- Outside the namespaces there are no files with the names of manifests. -/
private theorem not_file_of_not_regular (hold : Holds s.base B m d) (hspace : ¬ IsRegularName space)
    {n : String} (hn : n ≠ "..") (content : Bytes) :
    d.at? ((spaceNames space ++ [n]).foldl Disk.next B) ≠ some (.file content) := by
  intro hat
  have hshape (names : List String) (hnames : names = ["instances", n] ∨ names = [n]) :
      d.at? (B ++ names) ≠ some (.file content) := by
    intro hfile
    obtain rfl | rfl := hnames <;>
      obtain ⟨_, _, _, _, heq⟩ | ⟨_, _, heq⟩ := (hold.slot _ _ _ hfile).exists_of_file <;>
      simp at heq
  rw [spaceNames] at hat
  rcases splitNames_safeName space with ⟨hregular, -⟩ | ⟨-, hdots⟩ | hnone
  · exact hspace hregular
  · rw [hdots] at hat
    refine hshape [n] (.inr rfl) ?_
    simpa [Disk.next, hn] using hat
  · rw [hnone] at hat
    refine hshape ["instances", n] (.inl rfl) ?_
    simpa [Disk.next, hn] using hat

/-- Under a name that is no name of a directory no instances are listed, if listing succeeds. -/
private theorem listInstances_of_not_regular (hold : Holds s.base B m d)
    (hspace : ¬ IsRegularName space)
    {l : List Instance}
    (hrun : runWith Disk.handler (s.listInstances space labels) d = (.ok l, d')) : l = [] := by
  unfold listInstances at hrun
  dsimp only at hrun
  obtain ⟨there, d₁, hthere, hrest⟩ := runWith_bind_eq_ok.mp hrun
  obtain rfl : d₁ = d := by
    rw [← runWith_of_looks (looks_isDirectory (s.instanceDirectory space)) d, hthere]
  cases there with
  | false =>
    cases hrest
    rfl
  | true =>
    obtain ⟨names, d₂, hlist, htexts⟩ := runWith_bind_eq_ok.mp hrest
    rw [Disk.runWith_ask] at hlist
    obtain rfl : d₂ = d₁ := by
      rw [← Disk.handler_look (q := .list (s.instanceDirectory space)) trivial d₁, hlist]
    obtain ⟨place, -, rfl⟩ := Disk.exists_place_of_handler_list (congrArg Prod.fst hlist)
    obtain ⟨texts, d₃, htexts, hinstances⟩ := runWith_bind_eq_ok.mp htexts
    cases hmanifests : manifestNames (d₂.childNames place) with
    | nil =>
      unfold manifestNames at hmanifests
      rw [hmanifests] at htexts
      cases htexts
      cases hinstances
      rfl
    | cons n rest =>
      -- the first of the manifests would have to be a file
      have hmem : n ∈ manifestNames (d₂.childNames place) := hmanifests ▸ List.mem_cons_self
      rw [manifestNames, List.mem_mergeSort, List.mem_filter, Disk.mem_childNames] at hmem
      have hname : IsName n := by
        obtain ⟨e, he⟩ := Option.ne_none_iff_exists'.mp hmem.1
        exact hold.sound.isName_of_mem he n (by simp)
      unfold manifestNames at hmanifests
      rw [hmanifests, List.mapM_cons] at htexts
      obtain ⟨text, d₄, hread, -⟩ := runWith_bind_eq_ok.mp htexts
      obtain ⟨content, d₅, hcontent, -⟩ := runWith_bind_eq_ok.mp hread
      rw [Disk.runWith_ask, instanceDirectory_eq, hname.toIsStep.div, Disk.Path.append_append]
        at hcontent
      obtain ⟨found, hfound, hfile⟩ :=
        Disk.exists_place_of_handler_read (congrArg Prod.fst hcontent)
      rw [hold.toStands.locate_eq_foldl hfound] at hfile
      exact absurd hfile (not_file_of_not_regular hold hspace hname.ne_dots content)

/-- Instances are listed on a disk that holds a store as the listing of the store says. -/
theorem exists_listed (hold : Holds s.base B m d) (hplain : AllPlain m) (space : String)
    (labels : Labels) :
    ∃ r, runWith Disk.handler (s.listInstances space labels) d = (r, d) ∧
      Listed m space labels r := by
  have hsame := runWith_of_looks (s.looks_listInstances space labels) d
  by_cases hspace : IsRegularName space
  · obtain ⟨r, w', hrun, -, hends⟩ :=
      Disk.exists_runWith_eq (hold.always_listInstances_in_order hspace labels)
    have hdisk : w'.disk = d := by rw [← hsame, hrun]
    rw [hdisk] at hrun
    refine ⟨r, hrun, ?_⟩
    cases r with
    | ok l =>
      obtain ⟨-, rfl⟩ := hends
      refine .filed ?_ ((filed_atFile hold hplain hspace).filter _)
      have hperm := (hold.manifests_perm hspace).filter fun i => i.matches labels
      have hstored : m.inSpace space =
          m.instances.values.filter fun i => i.id.space = safeName space := by
        refine List.filter_congr fun i hi => ?_
        obtain ⟨k, hk⟩ := Entries.mem_values.mp hi
        rw [(hplain k i hk).safe]
      rw [hstored, List.filter_filter] at hperm
      simp only [Bool.and_comm] at hperm
      exact hperm.trans (List.mergeSort_perm _ _).symm
    | error e => exact .refused hends.2 (hplain.listInstances_eq_nil hends.2)
  · have hname : ¬ IsName (safeName space) := fun h => hspace (isRegularName_of_isName h)
    have hnil : m.listInstances (safeName space) labels = [] := hplain.listInstances_eq_nil hname
    rcases hrun : runWith Disk.handler (s.listInstances space labels) d with ⟨r, d'⟩
    obtain rfl : d' = d := by rw [← hsame, hrun]
    refine ⟨r, rfl, ?_⟩
    cases r with
    | error e => exact .refused hname hnil
    | ok l =>
      obtain rfl := listInstances_of_not_regular hold hspace hrun
      exact .filed (hnil ▸ .nil) .nil

end DirectoryStore

end CertKeeper
