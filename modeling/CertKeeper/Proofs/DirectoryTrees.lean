import CertKeeper.Proofs.NewPlaces

/-!
# Removing trees

A tree is removed one thing at a time, longer names first, so that each directory is empty when its
turn comes: what is left to remove is the rest of the list, and everything below the tree is on it
(`Disk.Emptying`). Whatever breaks down, nothing outside the tree is touched.
-/

namespace CertKeeper

namespace Disk

open CertKeeper.Action (Always)
open DirectoryStore (removeContent removeTree removeTreeQuietly quietly)

variable {base : Path} {B names : List String} {n : String} {F : Prop} {w w' : Watch} {d : Disk}
variable {C : Watch → Prop}

/-! ## Removing trees -/

/-- What stands below a place, each thing before the directory that it is in. -/
structure Listing (place : List String) (items : List (List String × Kind)) (d : Disk) : Prop where
  mem_iff : ∀ names kind, (names, kind) ∈ items ↔
    names ≠ [] ∧ ∃ e, d.at? (place ++ names) = some e ∧ e.kind = kind
  longestFirst : items.Pairwise fun a b => b.1.length ≤ a.1.length
  nodup : (items.map Prod.fst).Nodup

variable {place : List String} {item : List String × Kind} {items : List (List String × Kind)}

private theorem listing_below (place : List String) (d : Disk) :
    Listing place (d.below place) d where
  mem_iff := fun _ _ => mem_below
  longestFirst := below_pairwise
  nodup := below_nodup

namespace Listing

private theorem standing (hl : Listing place items d) (hitem : item ∈ items) :
    item.1 ≠ [] ∧ ∃ e, d.at? (place ++ item.1) = some e ∧ e.kind = item.2 :=
  (hl.mem_iff item.1 item.2).mp hitem

/-- Nothing stands below the first item of a listing. -/
theorem none_in_head (hl : Listing place (item :: items) d) (n : String) :
    d.at? (place ++ item.1 ++ [n]) = none := by
  cases hat : d.at? (place ++ item.1 ++ [n]) with
  | none => rfl
  | some e =>
    have hmem : (item.1 ++ [n], e.kind) ∈ item :: items :=
      (hl.mem_iff _ _).mpr ⟨by simp, e, by rw [← List.append_assoc]; exact hat, rfl⟩
    rcases List.mem_cons.mp hmem with heq | hmem
    · have hlength := congrArg (fun i => i.1.length) heq
      simp at hlength
    · have hlength := List.rel_of_pairwise_cons hl.longestFirst hmem
      rw [List.length_append, List.length_singleton] at hlength
      omega

/-- A listing without its first item is one of the disk without that item. -/
theorem clear (hl : Listing place (item :: items) d) :
    Listing place items (d.clear (place ++ item.1)) where
  mem_iff := by
    obtain ⟨hne, -⟩ := hl.standing List.mem_cons_self
    have hnew : item.1 ∉ items.map Prod.fst := (List.nodup_cons.mp hl.nodup).1
    intro names kind
    rw [at?_clear (by simp [hne])]
    by_cases hnames : item.1 = names
    · subst hnames
      rw [if_pos rfl]
      constructor
      · intro hmem
        exact absurd (List.mem_map_of_mem hmem) hnew
      · rintro ⟨-, e, he, -⟩
        cases he
    · rw [if_neg fun heq => hnames (List.append_cancel_left heq), ← hl.mem_iff, List.mem_cons]
      constructor
      · exact .inr
      · rintro (rfl | hmem)
        · exact absurd rfl hnames
        · exact hmem
  longestFirst := (List.pairwise_cons.mp hl.longestFirst).2
  nodup := (List.nodup_cons.mp hl.nodup).2

/-- Nothing is left when nothing is listed. -/
private theorem none_of_nil (hl : Listing place [] d) (hnames : names ≠ []) :
    d.at? (place ++ names) = none := by
  cases hat : d.at? (place ++ names) with
  | none => rfl
  | some e => simpa using (hl.mem_iff names e.kind).mpr ⟨hnames, e, hat, rfl⟩

end Listing

/-- The whole tree at a place may go, and nothing may come. -/
def Gone (names more : List String) (v : Option Entry) : Prop :=
  names <+: more ∧ v = none

/-- Removing one thing of a tree removes it where there is nothing in it. -/
theorem always_removeContent (h : Stands base B w.disk) (hnames : names ≠ [])
    (item : List String × Kind) (hsteps : ∀ n ∈ names ++ item.1, IsStep n) :
    Always (service F) (Watch.Keeps base B (Gone names) [] w)
      (removeContent (base.append names) item)
      (fun _ w' => w' = ⟨w.disk.clear (B ++ names ++ item.1), w.moved⟩)
      (fun _ w' => w' = w ∧ ((∃ e, w.disk.at? (B ++ names ++ item.1) = some e ∧ e.kind = item.2) →
        (∀ n, w.disk.at? (B ++ names ++ item.1 ++ [n]) = none) → F)) w := by
  have hdots : ".." ∉ names ++ item.1 := fun hmem => (hsteps _ hmem).ne_dots rfl
  have hcleared (hempty : ∀ n, w.disk.at? (B ++ (names ++ item.1) ++ [n]) = none) :
      Watch.Keeps base B (Gone names) [] w ⟨w.disk.clear (B ++ (names ++ item.1)), w.moved⟩ :=
    ⟨h.clear (by simp [hnames]) hempty ⟨List.prefix_append _ _, rfl⟩, rfl⟩
  rw [List.append_assoc]
  unfold removeContent
  split
  · next hkind =>
    rw [Path.append_append]
    refine always_ask h.watchKeeps ?_
    intro r w' hr
    rcases service_removeFile hr with ⟨place, c, hplace, hfile, rfl, rfl⟩ | ⟨rfl, e, rfl, hwhy⟩
    · obtain rfl := h.locate_eq hdots hplace
      refine ⟨hcleared fun n => ?_, rfl⟩
      exact h.sound.none_below (by simp [hfile])
    · refine ⟨h.watchKeeps, rfl, ?_⟩
      rintro ⟨e, he, hkind'⟩ -
      cases e with
      | file c => exact hwhy.resolve_right fun hno => hno _ c (h.locate_of_at? he) he
      | directory => simp [hkind, Entry.kind] at hkind'
  · next hkind =>
    rw [Path.append_append]
    refine always_ask h.watchKeeps ?_
    intro r w' hr
    rcases service_removeDirectory hr with
      ⟨place, hplace, -, hempty, rfl, rfl⟩ | ⟨rfl, e, rfl, hwhy⟩
    · obtain rfl := h.locate_eq hdots hplace
      exact ⟨hcleared hempty, rfl⟩
    · refine ⟨h.watchKeeps, rfl, ?_⟩
      rintro ⟨e, he, hkind'⟩ hempty
      cases e with
      | file c => simp [hkind, Entry.kind] at hkind'
      | directory =>
        rcases hwhy with hF | hno
        · exact hF
        · obtain ⟨n, hn⟩ := hno _ (h.locate_of_at? he) he
          exact absurd (hempty n) hn

/-- Nothing on no way is removed with a tree. -/
private theorem gone_apart (hnames : names ≠ []) :
    ∀ more, more <+: [] → ¬ Gone names more none := by
  rintro more hmore ⟨habove, -⟩
  exact hnames (List.prefix_nil.mp (habove.trans hmore))

/-- A directory of which what is listed is left. -/
structure Emptying (place : List String) (items : List (List String × Kind)) (d : Disk) : Prop
    extends Listing place items d where
  directory : d.at? place = some .directory

/-- A tree that is being emptied still is after its next item is removed. -/
theorem Emptying.clear (he : Emptying place (item :: items) d) :
    Emptying place items (d.clear (place ++ item.1)) where
  toListing := he.toListing.clear
  directory := by
    obtain ⟨hne, -⟩ := he.standing List.mem_cons_self
    rw [at?_clear (by simp [hne]), if_neg (by simpa using hne), he.directory]

/-- Removing an empty directory removes it, or only a disk that breaks down complains. -/
theorem always_removeDirectory (h : Stands base B w.disk) (hnames : names ≠ [])
    (hsteps : ∀ n ∈ names, IsStep n) :
    Always (service F) (Watch.Keeps base B (Gone names) [] w)
      (ask (.removeDirectory (base.append names)))
      (fun _ w' => w'.disk.at? (B ++ names) = none)
      (fun _ _ => Emptying (B ++ names) [] w.disk → F) w := by
  have hitem := always_removeContent (F := F) h hnames ([], .directory)
    (by simpa using hsteps)
  unfold removeContent at hitem
  rw [Path.append_nil, List.append_nil] at hitem
  refine hitem.mono (fun _ h => h) ?_ ?_
  · rintro _ w' - rfl
    change (w.disk.clear (B ++ names)).at? (B ++ names) = none
    rw [at?_clear (by simp [hnames]), if_pos rfl]
  · rintro e w' - ⟨-, hF⟩ hempty
    exact hF ⟨_, hempty.directory, rfl⟩ fun n => hempty.none_of_nil (by simp)

/-- Removing a tree removes all of it, or only a disk that breaks down complains. -/
theorem always_removeTree (h : Stands base B w.disk) (hnames : names ≠ [])
    (hsteps : ∀ n ∈ names, IsStep n) :
    Always (service F) (Watch.Keeps base B (Gone names) [] w) (removeTree (base.append names))
      (fun _ w' => w'.disk.at? (B ++ names) = none)
      (fun _ _ => w.disk.at? (B ++ names) = some .directory → F) w := by
  have htrans := gone_apart hnames
  unfold removeTree
  refine Always.bind ((always_contents h h.watchKeeps hsteps).mono (fun _ h => h) ?_ ?_)
  · rintro items w - ⟨rfl, hdirectory, rfl⟩
    refine Always.bind (Always.mono (E := fun _ _ => F) (Always.forM (fun _ after w' =>
      Watch.Keeps base B (Gone names) [] w w' ∧ Emptying (B ++ names) after w'.disk)
        (fun _ h => h.1) ?_ ⟨h.watchKeeps, listing_below _ _, hdirectory⟩)
          (fun _ h => h) ?_ fun _ _ _ hF _ => hF)
    · rintro before item after w₁ - ⟨hkeeps, hemptying⟩
      obtain ⟨-, e, he, hkind⟩ := hemptying.standing List.mem_cons_self
      have hitem : ∀ n ∈ names ++ item.1, IsStep n := fun n hn =>
        (hkeeps.stands.sound.isName_of_mem (by rwa [← List.append_assoc]) n hn).toIsStep
      refine (always_removeContent hkeeps.stands hnames item hitem).mono
        (fun _ h => hkeeps.trans htrans h) ?_ ?_
      · rintro _ w₂ hstep rfl
        exact ⟨hkeeps.trans htrans hstep, hemptying.clear⟩
      · rintro _ w₂ - ⟨-, hF⟩
        exact hF ⟨e, he, hkind⟩ hemptying.none_in_head
    · rintro _ w₁ - ⟨hkeeps, hemptying⟩
      refine (always_removeDirectory hkeeps.stands hnames hsteps).mono
        (fun _ h => hkeeps.trans htrans h) (fun _ _ _ h => h) ?_
      intro e w₂ _ hF _
      exact hF hemptying
  · rintro e w' - ⟨rfl, hF⟩
    exact hF

/-- Whatever comes of an action, nobody hears of its failure. -/
theorem always_quietly {a : Action interface Unit} {Q : Watch → Prop} {E : Failure → Watch → Prop}
    (ha : Always (service F) C a (fun _ => Q) (fun _ => Q) w) :
    Always (service F) C (quietly a) (fun _ => Q) E w := by
  unfold quietly
  refine Always.bind (Always.outcome (ha.mono (fun _ h => h) ?_ ?_))
  · intro _ w' hC hQ
    exact Always.pure hC hQ
  · intro _ w' hC hQ
    exact Always.pure hC hQ

/-- Removing a tree as far as possible removes all of it unless the disk breaks down. -/
theorem always_removeTreeQuietly (h : Stands base B w.disk) (hnames : names ≠ [])
    (hsteps : ∀ n ∈ names, IsStep n) :
    Always (service F) (Watch.Keeps base B (Gone names) [] w)
      (removeTreeQuietly (base.append names))
      (fun _ w' => ¬ F → w.disk.at? (B ++ names) = some .directory →
        w'.disk.at? (B ++ names) = none)
      (fun _ _ => False) w := by
  have htrans := gone_apart hnames
  unfold removeTreeQuietly
  refine Always.bind (Always.outcome
    ((always_contents h h.watchKeeps hsteps).mono (fun _ h => h) ?_ ?_))
  · rintro items w - ⟨rfl, hdirectory, rfl⟩
    have hitems : ∀ item ∈ w.disk.below (B ++ names), ∀ n ∈ names ++ item.1, IsStep n := by
      intro item hitem n hn
      obtain ⟨-, e, he, -⟩ := (listing_below (B ++ names) w.disk).standing hitem
      rw [List.append_assoc] at he
      exact (h.sound.isName_of_mem he n hn).toIsStep
    refine Always.bind (Always.mono (Always.forM (fun _ after w' =>
      Watch.Keeps base B (Gone names) [] w w' ∧ (¬ F → Emptying (B ++ names) after w'.disk))
        (fun _ h => h.1) ?_ ⟨h.watchKeeps, fun _ => ⟨listing_below _ _, hdirectory⟩⟩)
          (fun _ h => h) ?_ fun _ _ _ h => h)
    · rintro before item after w₁ hbelow ⟨hkeeps, hemptying⟩
      refine always_quietly ((always_removeContent hkeeps.stands hnames item
        (hitems item (by simp [hbelow]))).mono (fun _ h => hkeeps.trans htrans h) ?_ ?_)
      · rintro _ w₂ hstep rfl
        exact ⟨hkeeps.trans htrans hstep, fun hF => (hemptying hF).clear⟩
      · rintro _ w₂ - ⟨rfl, hF⟩
        refine ⟨hkeeps, fun hno => absurd (hF ?_ (hemptying hno).none_in_head) hno⟩
        exact ((hemptying hno).standing List.mem_cons_self).2
    · rintro _ w₁ - ⟨hkeeps, hemptying⟩
      refine always_quietly ((always_removeDirectory hkeeps.stands hnames hsteps).mono
        (fun _ h => hkeeps.trans htrans h) (fun _ _ _ h _ _ => h) ?_)
      intro e w₂ _ hF hno _
      exact absurd (hF (hemptying hno)) hno
  · rintro e w' hC ⟨rfl, hF⟩
    exact Always.pure hC fun hno hdirectory => absurd (hF hdirectory) hno

end Disk

end CertKeeper
