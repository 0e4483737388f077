import CertKeeper.Proofs.InstanceFiles

/-!
# Identities on a disk

A name is stored with its separators replaced. It leads one step down if it was a regular one, and
it is stored as it is if it was a plain one. Two identities are stored in the same place if they are
the same once their separators are replaced (`Identity.safe`).
-/

namespace CertKeeper

open DirectoryStore (safeName)
open Disk (Path IsStep IsName)

/-! ## Names -/

/-- A name that leads to a directory of its own once its separators are replaced. -/
structure IsRegularName (n : String) : Prop where
  nonempty : n ≠ ""
  ne_dot : n ≠ "."
  ne_dots : n ≠ ".."

/-- A name that is one of a directory as it is. -/
structure IsPlainName (n : String) : Prop extends IsName n where
  no_backslash : '\\' ∉ n.toList

instance (n : String) : Decidable (IsRegularName n) :=
  decidable_of_iff (n ≠ "" ∧ n ≠ "." ∧ n ≠ "..")
    ⟨fun h => ⟨h.1, h.2.1, h.2.2⟩, fun h => ⟨h.nonempty, h.ne_dot, h.ne_dots⟩⟩

instance (n : String) : Decidable (IsPlainName n) :=
  decidable_of_iff (IsName n ∧ '\\' ∉ n.toList)
    ⟨fun h => ⟨h.1, h.2⟩, fun h => ⟨h.toIsName, h.no_backslash⟩⟩

variable {n : String}

/-- What becomes the name of a file is regular. -/
theorem isRegularName_of_isName (h : IsName (safeName n)) : IsRegularName n := by
  refine ⟨?_, ?_, ?_⟩ <;> rintro rfl
  · exact h.nonempty (by decide)
  · exact h.ne_dot (by decide)
  · exact h.ne_dots (by decide)

/-- A regular name as it is stored leads to a directory below. -/
theorem IsRegularName.isStep (h : IsRegularName n) : IsStep (safeName n) :=
  DirectoryStore.isStep_safeName h.nonempty h.ne_dot h.ne_dots

/-- A regular name as it is stored is one name of a path. -/
theorem IsRegularName.splitNames (h : IsRegularName n) :
    Path.splitNames (safeName n) = [safeName n] := by
  rw [Path.splitNames_of_no_slash h.isStep.no_slash,
    if_neg (not_or.mpr ⟨h.isStep.nonempty, h.isStep.ne_dot⟩)]

/-- Names that are not regular are dropped or lead up. -/
theorem splitNames_safeName (n : String) :
    (IsRegularName n ∧ Path.splitNames (safeName n) = [safeName n]) ∨
      (n = ".." ∧ Path.splitNames (safeName n) = [".."]) ∨
      Path.splitNames (safeName n) = [] := by
  by_cases hempty : n = ""
  · rw [hempty]
    exact .inr (.inr (by decide))
  by_cases hdot : n = "."
  · rw [hdot]
    exact .inr (.inr (by decide))
  by_cases hdots : n = ".."
  · exact .inr (.inl ⟨hdots, by rw [hdots]; decide⟩)
  · have hregular : IsRegularName n := ⟨hempty, hdot, hdots⟩
    exact .inl ⟨hregular, hregular.splitNames⟩

/-- The names of the directory of a regular namespace with instances. -/
theorem IsRegularName.spaceNames (h : IsRegularName n) :
    DirectoryStore.spaceNames n = ["instances", safeName n] := by
  rw [DirectoryStore.spaceNames, h.splitNames]

/-- A plain name is regular. -/
theorem IsPlainName.isRegularName (h : IsPlainName n) : IsRegularName n :=
  ⟨h.nonempty, h.ne_dot, h.ne_dots⟩

/-- A plain name is stored as it is. -/
theorem IsPlainName.safeName_eq (h : IsPlainName n) : safeName n = n :=
  DirectoryStore.safeName_of_free h.no_slash h.no_backslash

/-! ## Identities -/

namespace Identity

/-- The identity under which something is stored. -/
def safe (id : Identity) : Identity := ⟨safeName id.space, safeName id.name⟩

/-- An identity of two regular names. -/
structure IsRegular (id : Identity) : Prop where
  space : IsRegularName id.space
  name : IsRegularName id.name

/-- An identity of two plain names. -/
structure IsPlain (id : Identity) : Prop where
  space : IsPlainName id.space
  name : IsPlainName id.name

/-- An identity whose record has a directory with a proper name, in one with a proper name. -/
structure IsNamed (id : Identity) : Prop where
  space : IsName id.safe.space
  name : IsName id.safe.name

/-- An identity whose manifest has a proper name, in a directory with a proper name. -/
structure HasManifest (id : Identity) : Prop where
  space : IsName id.safe.space
  name : IsName (id.safe.name ++ ".json")

variable {id : Identity}

instance : Decidable id.IsRegular :=
  decidable_of_iff (IsRegularName id.space ∧ IsRegularName id.name)
    ⟨fun h => ⟨h.1, h.2⟩, fun h => ⟨h.space, h.name⟩⟩

instance : Decidable id.IsPlain :=
  decidable_of_iff (IsPlainName id.space ∧ IsPlainName id.name)
    ⟨fun h => ⟨h.1, h.2⟩, fun h => ⟨h.space, h.name⟩⟩

instance : Decidable id.IsNamed :=
  decidable_of_iff (IsName id.safe.space ∧ IsName id.safe.name)
    ⟨fun h => ⟨h.1, h.2⟩, fun h => ⟨h.space, h.name⟩⟩

instance : Decidable id.HasManifest :=
  decidable_of_iff (IsName id.safe.space ∧ IsName (id.safe.name ++ ".json"))
    ⟨fun h => ⟨h.1, h.2⟩, fun h => ⟨h.space, h.name⟩⟩

/-- The names of the directory of a record under a regular identity. -/
theorem IsRegular.recordNames (h : id.IsRegular) :
    DirectoryStore.recordNames id = ["records", id.safe.space, id.safe.name] := by
  rw [DirectoryStore.recordNames, h.space.splitNames, h.name.splitNames]
  rfl

/-- The names of the manifest of an instance under a regular identity. -/
theorem IsRegular.instanceNames (h : id.IsRegular) :
    DirectoryStore.instanceNames id =
      ["instances", id.safe.space, id.safe.name ++ ".json"] := by
  rw [DirectoryStore.instanceNames, h.space.spaceNames]
  rfl

/-- The names of the directory of a record under a regular identity lead below. -/
theorem IsRegular.isStep_recordNames (h : id.IsRegular) :
    ∀ n ∈ DirectoryStore.recordNames id, IsStep n :=
  DirectoryStore.isStep_of_mem_recordNames h.space.ne_dots h.name.ne_dots

/-- The names of the directory of a named record are names that files can have. -/
theorem IsNamed.isName (h : id.IsNamed) (hid : id.IsRegular) :
    ∀ n ∈ DirectoryStore.recordNames id, IsName n := by
  rw [hid.recordNames]
  simpa using ⟨(by decide : IsName "records"), h.space, h.name⟩

/-- The names of the manifest of an instance that can have one are names that files can have. -/
theorem HasManifest.isName (h : id.HasManifest) (hid : id.IsRegular) :
    ∀ n ∈ DirectoryStore.instanceNames id, IsName n := by
  rw [hid.instanceNames]
  simpa using ⟨(by decide : IsName "instances"), h.space, h.name⟩

namespace IsPlain

/-- A plain identity is stored under itself. -/
theorem safe (h : id.IsPlain) : id.safe = id := ext h.space.safeName_eq h.name.safeName_eq

/-- A plain identity is regular. -/
theorem isRegular (h : id.IsPlain) : id.IsRegular :=
  ⟨h.space.isRegularName, h.name.isRegularName⟩

/-- A plain identity is one that records can have on disk. -/
theorem isNamed (h : id.IsPlain) : id.IsNamed := by
  refine ⟨?_, ?_⟩
  · rw [h.safe]
    exact h.space.toIsName
  · rw [h.safe]
    exact h.name.toIsName

end IsPlain

end Identity

end CertKeeper
