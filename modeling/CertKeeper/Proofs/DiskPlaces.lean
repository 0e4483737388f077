import CertKeeper.Proofs.MemoryUpsert
import CertKeeper.Store.Directory
import Mathlib.Data.List.Induction
import Mathlib.Data.List.Nodup

/-!
# Places on a disk

Which texts lead one step down and which ones can be names, and what stands at the places of a disk
after something has been put at one of them or cleared away. On a sound disk everything stands in a
directory and under a proper name (`Disk.Sound`), and single changes keep it sound.
-/

namespace CertKeeper

namespace Disk

/-! ## Names -/

/-- A text that leads a path one step down: it is one name of the path, and no dots. -/
structure IsStep (n : String) : Prop where
  nonempty : n ≠ ""
  ne_dot : n ≠ "."
  ne_dots : n ≠ ".."
  no_slash : '/' ∉ n.toList

/-- A text under which something can stand in a directory. -/
structure IsName (n : String) : Prop extends IsStep n where
  no_nul : '\x00' ∉ n.toList
  short : (Text.Utf8.encode n).length ≤ maxNameLength

instance (n : String) : Decidable (IsStep n) :=
  decidable_of_iff (n ≠ "" ∧ n ≠ "." ∧ n ≠ ".." ∧ '/' ∉ n.toList)
    ⟨fun h => ⟨h.1, h.2.1, h.2.2.1, h.2.2.2⟩,
      fun h => ⟨h.nonempty, h.ne_dot, h.ne_dots, h.no_slash⟩⟩

instance (n : String) : Decidable (IsName n) :=
  decidable_of_iff
    (IsStep n ∧ '\x00' ∉ n.toList ∧ (Text.Utf8.encode n).length ≤ maxNameLength)
    ⟨fun h => ⟨h.1, h.2.1, h.2.2⟩, fun h => ⟨h.toIsStep, h.no_nul, h.short⟩⟩

namespace Path

/-- A text without separators is one name, unless it is dropped. -/
theorem splitNames_of_no_slash {n : String} (h : '/' ∉ n.toList) :
    splitNames n = if n = "" ∨ n = "." then [] else [n] := by
  rw [splitNames, List.splitOn_eq_singleton h, List.map_singleton, String.ofList_toList]
  by_cases h₁ : n = ""
  · simp [h₁]
  · by_cases h₂ : n = "." <;> simp [h₁, h₂]

/-- A path below another one, for a text without separators. -/
theorem div_of_no_slash (p : Path) {n : String} (h : '/' ∉ n.toList) :
    p / n = p.append (splitNames n) := by
  have hrelative : (ofText n).absolute = false := by
    rw [ofText, decide_eq_false_iff_not]
    exact fun hhead => h (List.mem_of_mem_head? hhead)
  change join p n = _
  rw [join, hrelative]
  rfl

@[simp] theorem append_append (p : Path) (names more : List String) :
    (p.append names).append more = p.append (names ++ more) := by
  simp [append]

@[simp] theorem append_nil (p : Path) : p.append [] = p := by
  simp [append]

/-- A character that is not in a separator is in a joined list if and only if it is in one of the
items. -/
theorem mem_intercalate {c : Char} {sep : List Char} {l : List (List Char)} (hc : c ∉ sep) :
    c ∈ sep.intercalate l ↔ ∃ x ∈ l, c ∈ x := by
  induction l with
  | nil => simp
  | cons x l ih =>
    cases l with
    | nil => simp
    | cons y l =>
      rw [List.intercalate_cons_cons, List.append_assoc, List.mem_append, List.mem_append, ih]
      simp [hc]

/-- The text of a path has a zero character if one of its names has. -/
theorem nul_mem_text (p : Path) :
    '\x00' ∈ p.text.toList ↔ ∃ n ∈ p.parts, '\x00' ∈ n.toList := by
  have hnames : '\x00' ∈ (String.intercalate "/" p.parts).toList ↔
      ∃ n ∈ p.parts, '\x00' ∈ n.toList := by
    rw [String.toList_intercalate, mem_intercalate (by decide)]
    simp
  rw [text]
  by_cases habsolute : p.absolute
  · simpa [habsolute] using hnames
  · by_cases hempty : p.parts.isEmpty
    · rw [List.isEmpty_iff] at hempty
      simp [habsolute, hempty]
    · simpa [habsolute, hempty] using hnames

end Path

/-- One step down is one more name. -/
theorem IsStep.div {n : String} (h : IsStep n) (p : Path) : p / n = p.append [n] := by
  rw [Path.div_of_no_slash p h.no_slash, Path.splitNames_of_no_slash h.no_slash,
    if_neg (not_or.mpr ⟨h.nonempty, h.ne_dot⟩)]

variable {d : Disk} {place other names : List String} {n : String} {e : Entry}

/-! ## Contents -/

/-- Putting something at a place changes that place only. -/
theorem at?_put (h : place ≠ []) :
    (d.put place e).at? other = if place = other then some e else d.at? other := by
  simp only [at?, put, Entries.get?_set]
  by_cases hother : other = []
  · subst hother
    simp [h]
  · simp [hother]

/-- Clearing a place changes that place only. -/
theorem at?_clear (h : place ≠ []) :
    (d.clear place).at? other = if place = other then none else d.at? other := by
  simp only [at?, clear, Entries.get?_erase]
  by_cases hother : other = []
  · subst hother
    simp [h]
  · simp [hother]

/-- What is no directory is not the root. -/
theorem ne_nil_of_at?_ne (h : d.at? place ≠ some .directory) : place ≠ [] := by
  rintro rfl
  exact h rfl

private theorem mem_keys {k : List String} (hk : k ≠ []) :
    k ∈ d.entries.keys ↔ d.at? k ≠ none := by
  rw [at?, if_neg hk, Entries.keys, List.mem_map, Option.ne_none_iff_exists']
  constructor
  · rintro ⟨⟨j, e⟩, hmem, rfl⟩
    exact ⟨e, (Entries.mem_toList_iff _ _ _).mp hmem⟩
  · rintro ⟨e, he⟩
    exact ⟨(k, e), (Entries.mem_toList_iff _ _ _).mpr he, rfl⟩

private theorem childName_eq_some {k : List String} :
    (if k.length = place.length + 1 ∧ place.isPrefixOf k then k.getLast? else none) = some n ↔
      k = place ++ [n] := by
  constructor
  · intro h
    split at h
    · next hk =>
      obtain ⟨rest, rfl⟩ := List.isPrefixOf_iff_prefix.mp hk.2
      obtain ⟨m, rfl⟩ := List.length_eq_one_iff.mp (by simpa using hk.1)
      simpa using h
    · cases h
  · rintro rfl
    simp

/-- The names in a directory are those of what stands directly in it. -/
theorem mem_childNames : n ∈ d.childNames place ↔ d.at? (place ++ [n]) ≠ none := by
  rw [childNames, List.mem_filterMap]
  simp only [childName_eq_some]
  rw [← mem_keys (by simp)]
  simp

/-- The names in a directory are distinct. -/
theorem childNames_nodup : (d.childNames place).Nodup := by
  refine List.Nodup.filterMap ?_ d.entries.nodup
  intro k k' n hk hk'
  rw [Option.mem_def, childName_eq_some] at hk hk'
  rw [hk, hk']

private theorem belowItem_eq_some {k names : List String} {e : Entry} {kind : Kind} :
    (if place.isPrefixOf k ∧ k ≠ place then some (k.drop place.length, e.kind) else none) =
        some (names, kind) ↔ k = place ++ names ∧ names ≠ [] ∧ e.kind = kind := by
  constructor
  · intro h
    split at h
    · next hk =>
      obtain ⟨rest, rfl⟩ := List.isPrefixOf_iff_prefix.mp hk.1
      rw [List.drop_left, Option.some_inj, Prod.mk.injEq] at h
      obtain ⟨rfl, rfl⟩ := h
      refine ⟨rfl, ?_, rfl⟩
      rintro rfl
      exact hk.2 (List.append_nil _)
    · cases h
  · rintro ⟨rfl, hnames, rfl⟩
    simp [hnames]

/-- Below a directory is what stands at longer places. -/
theorem mem_below {kind : Kind} :
    (names, kind) ∈ d.below place ↔
      names ≠ [] ∧ ∃ e, d.at? (place ++ names) = some e ∧ e.kind = kind := by
  rw [below, List.mem_mergeSort, List.mem_filterMap]
  simp only [belowItem_eq_some]
  constructor
  · rintro ⟨⟨k, e⟩, hmem, rfl, hnames, hkind⟩
    refine ⟨hnames, e, ?_, hkind⟩
    rw [at?, if_neg (by simp [hnames])]
    exact (Entries.mem_toList_iff _ _ _).mp hmem
  · rintro ⟨hnames, e, he, hkind⟩
    rw [at?, if_neg (by simp [hnames])] at he
    exact ⟨(place ++ names, e), (Entries.mem_toList_iff _ _ _).mpr he, rfl, hnames, hkind⟩

/-- Longer names come first. -/
theorem below_pairwise : (d.below place).Pairwise fun a b => b.1.length ≤ a.1.length := by
  have h := @List.pairwise_mergeSort (List String × Kind) (fun a b => b.1.length ≤ a.1.length)
    (by intro a b c hab hbc; simp only [decide_eq_true_eq] at *; omega)
    (by intro a b; simp only [Bool.or_eq_true, decide_eq_true_eq]; omega)
    (d.entries.toList.filterMap fun e =>
      if place.isPrefixOf e.1 ∧ e.1 ≠ place then some (e.1.drop place.length, e.2.kind) else none)
  exact h.imp fun hab => by simpa using hab

/-- Nothing below a directory is named twice. -/
theorem below_nodup : ((d.below place).map Prod.fst).Nodup := by
  rw [below, ((List.mergeSort_perm _ _).map Prod.fst).nodup_iff, List.Nodup, List.pairwise_map,
    List.pairwise_filterMap]
  have hkeys := d.entries.nodup
  rw [List.Nodup, List.pairwise_map] at hkeys
  refine hkeys.imp ?_
  rintro ⟨k, e⟩ ⟨k', e'⟩ hne ⟨names, kind⟩ hx ⟨names', kind'⟩ hx' rfl
  rw [belowItem_eq_some] at hx hx'
  exact hne (hx.1.trans hx'.1.symm)

/-! ## Sound disks -/

/-- Everything stands in a directory and under a proper name. -/
structure Sound (d : Disk) : Prop where
  parent : ∀ {place n e}, d.at? (place ++ [n]) = some e → d.at? place = some .directory
  name : ∀ {place n e}, d.at? (place ++ [n]) = some e → IsName n

namespace Sound

/-- A disk is sound if each of its entries stands in a directory and under a proper name. -/
theorem of_entries (h : ∀ p ∈ d.entries.toList,
    d.at? p.1.dropLast = some .directory ∧ IsName (p.1.getLastD "")) : d.Sound := by
  have hentry {place : List String} {n : String} {e : Entry} (he : d.at? (place ++ [n]) = some e) :
      (place ++ [n], e) ∈ d.entries.toList := by
    rw [at?, if_neg (by simp)] at he
    exact (Entries.mem_toList_iff _ _ _).mpr he
  refine ⟨fun he => ?_, fun he => ?_⟩
  · simpa using (h _ (hentry he)).1
  · simpa using (h _ (hentry he)).2

/-- Above what stands somewhere there are directories. -/
theorem ancestor (hd : d.Sound) (he : d.at? (place ++ n :: names) = some e) :
    d.at? place = some .directory := by
  induction names using List.reverseRecOn generalizing e with
  | nil => exact hd.parent he
  | append_singleton names m ih =>
    rw [← List.cons_append, ← List.append_assoc] at he
    exact ih (hd.parent he)

/-- Below something that is no directory there is nothing. -/
theorem none_below (hd : d.Sound) (hplace : d.at? place ≠ some .directory) :
    d.at? (place ++ n :: names) = none := by
  cases he : d.at? (place ++ n :: names) with
  | none => rfl
  | some e => exact absurd (hd.ancestor he) hplace

/-- Something stands under proper names only. -/
theorem isName_of_mem (hd : d.Sound) (he : d.at? (place ++ names) = some e) :
    ∀ n ∈ names, IsName n := by
  induction names using List.reverseRecOn generalizing e with
  | nil => simp
  | append_singleton names m ih =>
    rw [← List.append_assoc] at he
    intro n hn
    rcases List.mem_append.mp hn with hn | hn
    · exact ih (hd.parent he) n hn
    · rw [List.mem_singleton.mp hn]
      exact hd.name he

/-- The place above a directory is one. -/
theorem dropLast (hd : d.Sound) (hplace : d.at? place = some .directory) :
    d.at? place.dropLast = some .directory := by
  cases place using List.reverseRecOn with
  | nil => rfl
  | append_singleton place n =>
    rw [List.dropLast_concat]
    exact hd.parent hplace

/-- A disk stays sound with something at a place that is no directory, if that is right there. -/
theorem put (hd : d.Sound) (hdirectory : d.at? place = some .directory) (hname : IsName n)
    (hplace : d.at? (place ++ [n]) ≠ some .directory) : (d.put (place ++ [n]) e).Sound where
  parent := by
    intro q m e' he'
    rw [at?_put (by simp)] at he' ⊢
    by_cases hq : place ++ [n] = q
    · subst hq
      have hnone : d.at? (place ++ [n] ++ [m]) = none := hd.none_below hplace
      rw [if_neg (by simp), hnone] at he'
      cases he'
    · rw [if_neg hq]
      by_cases hchild : place ++ [n] = q ++ [m]
      · rw [← (List.append_inj' hchild rfl).1]
        exact hdirectory
      · rw [if_neg hchild] at he'
        exact hd.parent he'
  name := by
    intro q m e' he'
    rw [at?_put (by simp)] at he'
    by_cases hchild : place ++ [n] = q ++ [m]
    · rw [← List.singleton_inj.mp (List.append_inj' hchild rfl).2]
      exact hname
    · rw [if_neg hchild] at he'
      exact hd.name he'

/-- A disk stays sound without something that has nothing below it. -/
theorem clear (hd : d.Sound) (hplace : place ≠ []) (hempty : ∀ n, d.at? (place ++ [n]) = none) :
    (d.clear place).Sound where
  parent := by
    intro q m e' he'
    rw [at?_clear hplace] at he' ⊢
    by_cases hchild : place = q ++ [m]
    · rw [if_pos hchild] at he'
      cases he'
    · rw [if_neg hchild] at he'
      by_cases hq : place = q
      · rw [← hq, hempty] at he'
        cases he'
      · rw [if_neg hq]
        exact hd.parent he'
  name := by
    intro q m e' he'
    rw [at?_clear hplace] at he'
    by_cases hchild : place = q ++ [m]
    · rw [if_pos hchild] at he'
      cases he'
    · rw [if_neg hchild] at he'
      exact hd.name he'

end Sound

end Disk

end CertKeeper
