import CertKeeper.Proofs.DocumentText
import CertKeeper.Store.Index
import CertKeeper.Store.Manifest

/-!
# Stored documents

The index of a record and the manifest of an instance are read again as they were written
(`Store.Index.ofText_text`, `Store.Manifest.ofText_text`).
-/

namespace CertKeeper

namespace Entries

variable {κ α : Type} [DecidableEq κ]

/-- A new key is set behind the others. -/
private theorem put_of_not_mem {k : κ} {a : α} {l : List (κ × α)} (hk : k ∉ l.map Prod.fst) :
    put k a l = l ++ [(k, a)] := by
  induction l with
  | nil => rfl
  | cons p l ih =>
    simp only [List.map_cons, List.mem_cons, not_or] at hk
    rw [put, if_neg (Ne.symm hk.1), ih hk.2, List.cons_append]

private theorem toList_foldl_set (l : List (κ × α)) (m : Entries κ α)
    (h : ((m.toList ++ l).map Prod.fst).Nodup) :
    (l.foldl (fun m p => m.set p.1 p.2) m).toList = m.toList ++ l := by
  induction l generalizing m with
  | nil => rw [List.foldl_nil, List.append_nil]
  | cons p l ih =>
    have hset : (m.set p.1 p.2).toList = m.toList ++ [p] := by
      apply put_of_not_mem
      intro hmem
      rw [List.map_append, List.nodup_append] at h
      exact h.2.2 _ hmem _ List.mem_cons_self rfl
    rw [List.foldl_cons, ih _ (by rwa [hset, List.append_assoc]), hset, List.append_assoc,
      List.singleton_append]

/-- Pairs with distinct keys are the pairs of the map that they make. -/
theorem toList_ofList {l : List (κ × α)} (h : (l.map Prod.fst).Nodup) : (ofList l).toList = l :=
  toList_foldl_set l empty h

/-- A map is made from its pairs. -/
@[simp] theorem ofList_toList (m : Entries κ α) : ofList m.toList = m :=
  ext (toList_ofList m.nodup)

end Entries

namespace Store

open Json

/-! ## Indexes -/

/-- An index of files with different names is read again as it was written. -/
theorem Index.ofText_text {i : Index} (hwhole : MembersWhole i.fields)
    (hnodup : (i.fields.map Prod.fst).Nodup) : ofText i.text = .ok i := by
  have hdocument : i.toJson.IsWhole := ⟨trivial, hwhole, trivial⟩
  have hfields : (Json.fields i.fields).toList = i.fields := Entries.toList_ofList hnodup
  rw [ofText, text, ofText?_render _ hdocument]
  change (Except.ok (⟨i.version, (Json.fields i.fields).toList⟩ : Index) :
    Except IndexDefect Index) = .ok i
  rw [hfields]

/-! ## Manifests -/

namespace Manifest

/-- The members of an object whose values are texts. -/
theorem membersWhole_texts (l : List (String × String)) :
    MembersWhole (l.map fun p => (p.1, .text p.2)) := by
  induction l with
  | nil => trivial
  | cons p l ih => exact ⟨trivial, ih⟩

/-- Labels are read again as they were written. -/
private theorem readLabels_labels {members : Entries String Json} {labels : Labels}
    (h : members.get? "labels" = some (.object (labels.toList.map fun p => (p.1, .text p.2)))) :
    readLabels members = (labels, []) := by
  have hkeys : ((labels.toList.map fun p => (p.1, Json.text p.2)).map Prod.fst).Nodup := by
    rw [List.map_map]
    exact labels.nodup
  have hfields : (Json.fields (labels.toList.map fun p => (p.1, Json.text p.2))).toList =
      labels.toList.map fun p => (p.1, Json.text p.2) := Entries.toList_ofList hkeys
  have hread : ((labels.toList.map fun p => (p.1, Json.text p.2)).map readLabel) =
      labels.toList.map fun p => (p, []) := by
    rw [List.map_map]
    rfl
  simp only [readLabels, h, hfields, hread, List.map_map, List.flatMap_map]
  have hpairs : labels.toList.map (Prod.fst ∘ fun p => (p, ([] : List Complaint))) =
      labels.toList := List.map_id _
  have hcomplaints : (labels.toList.flatMap fun _ => ([] : List Complaint)) = [] := by
    rw [List.flatMap_eq_nil_iff]
    exact fun _ _ => rfl
  rw [hpairs, Entries.ofList_toList, hcomplaints]

/-- An instance is read again from its manifest. -/
@[simp] theorem ofText_text (i : Instance) : ofText (text i) = .ok i := by
  have hdocument : (toJson i).IsWhole :=
    ⟨trivial, trivial, membersWhole_texts i.labels.toList, trivial⟩
  rw [ofText, text, ofText?_render _ hdocument]
  have hlabels := @readLabels_labels
    (Json.fields [("namespace", .text i.id.space), ("name", .text i.id.name),
      ("labels", .object (i.labels.toList.map fun p => (p.1, .text p.2)))]) i.labels rfl
  simp only [toJson, ofJson, hlabels]
  rfl

end Manifest

end Store

end CertKeeper
