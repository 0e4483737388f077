import CertKeeper.Proofs.AsciiText
import CertKeeper.Proofs.RecordUpserts
import CertKeeper.Proofs.StoredIdentities

/-!
# What a store in a directory holds

A disk holds what a store in memory has (`Holds`) if each record and each
instance is in its files and nothing stands in their way. A change in the files of one record or of
one instance is a change of what is held of it, and of nothing else (`Holds.of_record`,
`Holds.of_instance`).
-/

namespace CertKeeper

open DirectoryStore (safeName recordNames spaceNames instanceNames RecordSlot RecordRegion RecordAt
  Writable versionName files)
open Disk (Path IsName Entry Stands Keeps)

/-! ## Layout -/

/-- What may stand where inside the base directory of a store. -/
inductive StoreSlot : List String → Entry → Prop where
  | records : StoreSlot ["records"] .directory
  | recordSpace (x : String) : StoreSlot ["records", x] .directory
  | record (x n : String) : StoreSlot ["records", x, n] .directory
  | inRecord (x n m : String) (rest : List String) (e : Entry) (slot : RecordSlot (m :: rest) e) :
      StoreSlot ("records" :: x :: n :: m :: rest) e
  | instances : StoreSlot ["instances"] .directory
  | instanceSpace (x : String) : StoreSlot ["instances", x] .directory
  | manifest (x name : String) (content : Bytes) :
      StoreSlot ["instances", x, name ++ ".json"] (.file content)

/-- The directories on the way to that of a record. -/
private theorem StoreSlot.of_prefix_record {x n a : String} {names : List String}
    (h : a :: names <+: ["records", x, n]) : StoreSlot (a :: names) .directory := by
  obtain ⟨rfl, hnames⟩ := List.cons_prefix_cons.mp h
  match names, hnames with
  | [], _ => exact .records
  | [b], _ => exact .recordSpace b
  | [b, c], _ => exact .record b c
  | b :: c :: m :: names, hnames =>
    have := hnames.length_le
    simp at this

/-- The directories on the way to the manifest of an instance. -/
private theorem StoreSlot.of_prefix_space {x a : String} {names : List String}
    (h : a :: names <+: ["instances", x]) : StoreSlot (a :: names) .directory := by
  obtain ⟨rfl, hnames⟩ := List.cons_prefix_cons.mp h
  match names, hnames with
  | [], _ => exact .instances
  | [b], _ => exact .instanceSpace b
  | b :: c :: names, hnames =>
    have := hnames.length_le
    simp at this

/-- The manifest of an instance. -/
def manifestEntry (i : Instance) : Entry := .file (Text.Utf8.encode (Store.Manifest.text i))

/-- Files stand in the directories of records and among the manifests. -/
theorem StoreSlot.exists_of_file {names : List String} {content : Bytes}
    (h : StoreSlot names (.file content)) :
    (∃ x n m rest, names = "records" :: x :: n :: m :: rest) ∨
      ∃ x name, names = ["instances", x, name] := by
  cases h with
  | inRecord x n m rest => exact .inl ⟨x, n, m, rest, rfl⟩
  | manifest x name => exact .inr ⟨x, _, rfl⟩

/-- A disk holds inside the base directory what a store in memory has, under the names that lead to
directories. -/
structure Holds (base : Path) (B : List String) (m : MemoryStore) (d : Disk) : Prop
    extends Stands base B d where
  slot : ∀ n names e, d.at? (B ++ n :: names) = some e → StoreSlot (n :: names) e
  record : ∀ k : Identity, RecordAt B ["records", k.space, k.name] (m.records.get? k) d
  manifest : ∀ k : Identity, d.at? (B ++ ["instances", k.space, k.name ++ ".json"]) =
    (m.instances.get? k).map manifestEntry
  recordKey : ∀ k r, m.records.get? k = some r → r.id = k ∧ 0 < r.version
  instanceKey : ∀ k i, m.instances.get? k = some i → i.id.safe = k

variable {base : Path} {B : List String} {m m' : MemoryStore} {d d' : Disk} {id k : Identity}
variable {x n : String}

/-- An empty base directory holds an empty store. -/
private theorem Disk.Stands.holds_empty (h : Stands base B d)
    (hempty : ∀ n, d.at? (B ++ [n]) = none) :
    Holds base B .empty d := by
  have hnone (n : String) (names : List String) : d.at? (B ++ n :: names) = none := by
    cases names with
    | nil => exact hempty n
    | cons m names =>
      rw [List.append_cons]
      exact h.sound.none_below (by simp [hempty n])
  refine ⟨h, ?_, fun k => hnone _ _, fun k => hnone _ _, ?_, ?_⟩
  · intro n names e he
    simp [hnone] at he
  · intro k r hr
    cases hr
  · intro k i hi
    cases hi

namespace DirectoryStore

variable {s : DirectoryStore}

/-- A sound disk on which the base directory of a store is there and empty. -/
structure Fresh (s : DirectoryStore) (B : List String) (d : Disk) : Prop where
  sound : d.Sound
  located : d.locate s.base = .ok B
  directory : d.at? B = some .directory
  empty : ∀ n, d.at? (B ++ [n]) = none

/-- A disk of which all entries are known to be fine and none is inside the base directory. -/
theorem Fresh.of_entries (hentries : ∀ p ∈ d.entries.toList,
      d.at? p.1.dropLast = some .directory ∧ Disk.IsName (p.1.getLastD ""))
    (hlocated : d.locate s.base = .ok B) (hdirectory : d.at? B = some .directory)
    (hempty : d.childNames B = []) : s.Fresh B d where
  sound := .of_entries hentries
  located := hlocated
  directory := hdirectory
  empty := by
    intro n
    by_contra hn
    have hmem := Disk.mem_childNames.mpr hn
    simp [hempty] at hmem

/-- An empty base directory holds the empty store. -/
theorem Fresh.holds (h : s.Fresh B d) : Holds s.base B .empty d :=
  (h.sound.stands_of_empty h.located h.directory h.empty).holds_empty h.empty

end DirectoryStore

/-! ## Changes -/

/-- What is stored of a record depends on the places in its directory only. -/
theorem DirectoryStore.RecordAt.congr {P : List String} {x : Option Record}
    (hx : RecordAt B P x d)
    (hsame : ∀ n rest, d'.at? (B ++ (P ++ n :: rest)) = d.at? (B ++ (P ++ n :: rest))) :
    RecordAt B P x d' := by
  cases x with
  | none => exact (hsame _ _).trans hx
  | some r =>
    exact ⟨hx.distinct, (hsame _ _).trans hx.index, fun f hf => (hsame _ _).trans (hx.field f hf)⟩

/-- What is held of a record is in the directory of the record. -/
theorem Holds.recordAt (hold : Holds base B m d) (hid : id.IsRegular) :
    RecordAt B (recordNames id) (m.records.get? id.safe) d := by
  rw [hid.recordNames]
  exact hold.record id.safe

/-- What is held of an instance is in the manifest of the instance. -/
theorem Holds.at?_instanceNames (hold : Holds base B m d) (hid : id.IsRegular) :
    d.at? (B ++ instanceNames id) = (m.instances.get? id.safe).map manifestEntry := by
  rw [hid.instanceNames]
  exact hold.manifest id.safe

/-- A change in the directory of a record is one of what is held of that record. -/
theorem Holds.of_record (hold : Holds base B m d) (hid : id.IsRegular)
    (hkeeps : Keeps base B (RecordRegion (recordNames id)) (recordNames id) d d')
    (hrecord : RecordAt B (recordNames id) (m'.records.get? id.safe) d')
    (hothers : ∀ k, k ≠ id.safe → m'.records.get? k = m.records.get? k)
    (hinstances : m'.instances = m.instances)
    (hkey : ∀ r, m'.records.get? id.safe = some r → r.id = id.safe ∧ 0 < r.version) :
    Holds base B m' d' where
  toStands := hkeeps.stands
  slot := by
    rw [hid.recordNames] at hkeeps
    intro a names e he
    rcases hkeeps.inside (a :: names) with hsame | ⟨b, rest, heq, hslot⟩ | ⟨hway, -, hmade⟩
    · exact hold.slot a names e (hsame ▸ he)
    · obtain ⟨rfl, rfl⟩ := List.cons.inj heq
      exact .inRecord _ _ b rest e (hslot e he)
    · rw [he] at hmade
      cases hmade
      exact .of_prefix_record hway
  record := by
    rw [hid.recordNames] at hkeeps hrecord
    intro k
    by_cases hk : k = id.safe
    · rw [hk]
      exact hrecord
    · rw [hothers k hk]
      have hne : ¬ (k.space = id.safe.space ∧ k.name = id.safe.name) :=
        fun heq => hk (Identity.ext heq.1 heq.2)
      refine (hold.record k).congr fun a rest => hkeeps.same ?_ ?_
      · rintro val ⟨b, more, heq, -⟩
        simp only [List.cons_append, List.nil_append, List.cons.injEq, true_and] at heq
        exact hne ⟨heq.1, heq.2.1⟩
      · intro hway
        have hlength := hway.length_le
        simp only [List.length_append, List.length_cons, List.length_nil] at hlength
        omega
  manifest := by
    rw [hid.recordNames] at hkeeps
    intro k
    rw [hinstances, ← hold.manifest]
    apply hkeeps.same
    · rintro val ⟨b, rest, heq, -⟩
      simp at heq
    · intro hway
      simp at hway
  recordKey := by
    intro k r hr
    by_cases hk : k = id.safe
    · rw [hk] at hr ⊢
      exact hkey r hr
    · rw [hothers k hk] at hr
      exact hold.recordKey k r hr
  instanceKey := by
    rw [hinstances]
    exact hold.instanceKey

/-- Manifests of instances with different names have different names. -/
theorem eq_of_append_json {s t : String} (h : s ++ ".json" = t ++ ".json") : s = t := by
  apply String.toList_inj.mp
  have hlist := congrArg String.toList h
  rw [String.toList_append, String.toList_append] at hlist
  exact List.append_cancel_right hlist

/-- A change of the manifest of an instance is one of what is held of that instance. -/
theorem Holds.of_instance (hold : Holds base B m d) (hid : id.IsRegular)
    {R : List String → Option Entry → Prop} {way : List String}
    (hkeeps : Keeps base B R way d d') (hway : way <+: spaceNames id.space)
    (hR : ∀ names v, R names v → instanceNames id <+: names ∧
      ∀ e, v = some e → names = instanceNames id ∧ ∃ content, e = .file content)
    (hmanifest : d'.at? (B ++ instanceNames id) = (m'.instances.get? id.safe).map manifestEntry)
    (hothers : ∀ k, k ≠ id.safe → m'.instances.get? k = m.instances.get? k)
    (hrecords : m'.records = m.records)
    (hkey : ∀ i, m'.instances.get? id.safe = some i → i.id.safe = id.safe) :
    Holds base B m' d' := by
  rw [hid.space.spaceNames] at hway
  rw [hid.instanceNames] at hR hmanifest
  refine ⟨hkeeps.stands, ?_, ?_, ?_, ?_, ?_⟩
  · intro a names e he
    rcases hkeeps.inside (a :: names) with hsame | hallowed | ⟨hnames, -, hmade⟩
    · exact hold.slot a names e (hsame ▸ he)
    · obtain ⟨heq, content, rfl⟩ := (hR _ _ hallowed).2 e he
      rw [heq]
      exact .manifest _ _ content
    · rw [he] at hmade
      cases hmade
      exact .of_prefix_space (hnames.trans hway)
  · intro k
    rw [hrecords]
    refine (hold.record k).congr fun a rest => hkeeps.same ?_ ?_
    · intro val hallowed
      have := (hR _ _ hallowed).1
      simp at this
    · intro hnames
      have := hnames.trans hway
      simp at this
  · intro k
    by_cases hk : k = id.safe
    · rw [hk]
      exact hmanifest
    · rw [hothers k hk, ← hold.manifest]
      apply hkeeps.same
      · intro val hallowed
        have hsame := (hR _ _ hallowed).1
        simp only [List.cons_prefix_cons, List.prefix_refl, true_and, and_true] at hsame
        exact hk (Identity.ext hsame.1.symm (eq_of_append_json hsame.2).symm)
      · intro hnames
        have := (hnames.trans hway).length_le
        simp at this
  · rw [hrecords]
    exact hold.recordKey
  · intro k i hi
    by_cases hk : k = id.safe
    · rw [hk] at hi ⊢
      exact hkey i hi
    · rw [hothers k hk] at hi
      exact hold.instanceKey k i hi

/-! ## Room for records -/

/-- A record that there can be files for: its fields have names of their own, which are names of
files, and its version is short enough for the name of a directory. -/
structure Record.Fits (r : Record) : Prop where
  distinct : (r.data.keys.map safeName).Nodup
  fileName : ∀ field ∈ r.data.keys, IsName (safeName field)
  version : r.version < 10 ^ 254

/-- The directory of a version has a proper name unless the version has 255 digits. -/
private theorem DirectoryStore.isName_versionName {version : Int} (hpos : 0 < version)
    (hshort : version < 10 ^ 254) : IsName (versionName version) := by
  have hchars : (versionName version).toList = 'v' :: Nat.toDigits 10 version.natAbs := by
    rw [toList_versionName, Json.chars_integer, if_neg (by omega)]
  have hdigit : ∀ c ∈ Nat.toDigits 10 version.natAbs, c.isDigit = true :=
    fun c hc => Nat.isDigit_of_mem_toDigits (by decide) (by decide) hc
  have hascii : ∀ c ∈ (versionName version).toList, c.toNat < 0x80 := by
    rw [hchars]
    rintro c (_ | ⟨_, hc⟩)
    · decide
    · have hrange := Char.isDigit_iff_toNat.mp (hdigit c hc)
      have hnine : '9'.toNat = 57 := rfl
      omega
  refine ⟨isStep_versionName version, ?_, ?_⟩
  · rw [hchars]
    rintro (_ | ⟨_, hc⟩)
    exact absurd (hdigit _ hc) (by decide)
  · have hlength : (Nat.toDigits 10 version.natAbs).length ≤ 254 := by
      rw [Nat.length_toDigits_le_iff (by decide) (by decide)]
      omega
    rw [← String.ofList_toList (s := versionName version), Text.Utf8.encode_ascii hascii,
      List.length_map, hchars, List.length_cons]
    exact Nat.succ_le_succ hlength

variable {r : Record}

/-- On the way to the directory of a version there are directories only. -/
private theorem StoreSlot.directory_of_prefix {v a : String} {names : List String} {e : Entry}
    (hslot : StoreSlot (a :: names) e) (hv : v.toList.head? = some 'v')
    (h : a :: names <+: ["records", x, n, v]) : e = .directory := by
  cases hslot with
  | inRecord y k m rest e slot =>
    simp only [List.cons_prefix_cons, true_and] at h
    obtain ⟨-, -, rfl, hrest⟩ := h
    obtain rfl := List.prefix_nil.mp hrest
    cases slot with
    | index | staged => exact absurd hv (by decide)
    | version => rfl
  | manifest => simp at h
  | _ => rfl

/-- On the way to the manifest of an instance there are directories only. -/
theorem StoreSlot.directory_of_space {a : String} {names : List String} {e : Entry}
    (hslot : StoreSlot (a :: names) e) (h : a :: names <+: ["instances", x]) : e = .directory := by
  cases hslot with
  | inRecord => simp at h
  | manifest => simp at h
  | _ => rfl

/-- What stands in the directory of a record belongs to the record. -/
private theorem StoreSlot.recordSlot {a : String} {names : List String} {e : Entry}
    (hslot : StoreSlot ("records" :: x :: n :: a :: names) e) : RecordSlot (a :: names) e := by
  generalize hplace : "records" :: x :: n :: a :: names = place at hslot
  cases hslot with
  | inRecord y k b rest e slot =>
    simp only [List.cons.injEq, true_and] at hplace
    obtain ⟨-, -, rfl, rfl⟩ := hplace
    exact slot
  | _ => simp at hplace

/-- What a store holds is in the way of no record. -/
theorem Holds.writable (hold : Holds base B m d) (hid : id.IsRegular) (hnamed : id.IsNamed)
    (hfits : r.Fits) (hpos : 0 < r.version) : Writable B (recordNames id) r d := by
  rw [hid.recordNames]
  have hstands := hold.toStands
  have hinRecord (a : String) (hat : d.at? (B ++ ["records", id.safe.space, id.safe.name, a]) =
      some .directory) : a.toList.head? = some 'v' := by
    cases (hold.slot _ _ _ hat).recordSlot with
    | version n hn => exact hn
  refine ⟨DirectoryStore.files_size_iff.mpr hfits.distinct, ?_, ?_, ?_, ?_, ?_⟩
  · intro f hf
    obtain ⟨field, hfield, rfl⟩ := List.mem_map.mp (Entries.mem_of_mem_ofList hf)
    exact hfits.fileName field hfield
  · intro a ha
    simp only [List.cons_append, List.nil_append, List.mem_cons, List.not_mem_nil, or_false] at ha
    rcases ha with rfl | rfl | rfl | rfl
    · decide
    · exact hnamed.space
    · exact hnamed.name
    · exact DirectoryStore.isName_versionName hpos hfits.version
  · intro names content hnames hat
    cases names with
    | nil =>
      rw [List.append_nil, hstands.directory] at hat
      cases hat
    | cons a names =>
      have hslot := hold.slot a names _ hat
      cases hslot.directory_of_prefix (DirectoryStore.head_versionName r.version) hnames
  · exact fun hat => absurd (hinRecord _ hat) (by decide)
  · exact fun hat => absurd (hinRecord _ hat) (by decide)

end CertKeeper
