import CertKeeper.Proofs.DiskPlaces

/-!
# Where paths lead

On a sound disk proper names below a directory lead to their place wherever something may be looked
up (`Disk.Sound.follow_cases`). A base directory whose path is left alone stays where it is
(`Disk.Stands`), and the paths below it lead to the places below it.
-/

namespace CertKeeper

namespace Disk

variable {d : Disk} {place other names more : List String} {n : String} {e : Entry}

/-! ## Following names -/

private theorem follow_append (d : Disk) (place names more : List String) :
    d.follow place (names ++ more) = (d.follow place names).bind fun q => d.follow q more := by
  induction names generalizing place with
  | nil => rfl
  | cons n names ih =>
    simp only [List.cons_append, follow]
    split
    · rfl
    · rfl
    · split
      · rfl
      · split <;> exact ih _

/-- Where a name leads from a place if it leads anywhere: a pair of dots leads up. -/
def next (place : List String) (n : String) : List String :=
  if n = ".." then place.dropLast else place ++ [n]

/-- Names lead one after another where each of them leads. -/
theorem follow_eq_foldl (h : d.follow place names = .ok other) :
    other = names.foldl next place := by
  induction names generalizing place with
  | nil =>
    cases h
    rfl
  | cons n names ih =>
    simp only [follow] at h
    split at h
    · cases h
    · cases h
    · split at h
      · cases h
      · rw [List.foldl_cons, next]
        split at h
        · next hdots =>
          rw [if_pos hdots]
          exact ih h
        · next hdots =>
          rw [if_neg hdots]
          exact ih h

/-- Without a pair of dots names lead straight down. -/
theorem follow_eq_append (hdots : ".." ∉ names) (h : d.follow place names = .ok other) :
    other = place ++ names := by
  rw [follow_eq_foldl h]
  clear h
  induction names generalizing place with
  | nil => rw [List.foldl_nil, List.append_nil]
  | cons n names ih =>
    rw [List.mem_cons, not_or] at hdots
    rw [List.foldl_cons, ih hdots.2, next, if_neg (Ne.symm hdots.1), List.append_assoc,
      List.singleton_append]

/-- Where names lead is told by what stands at the places that they pass. -/
private theorem follow_congr {d' : Disk}
    (hsame : ∀ q, d.at? q = some .directory → d'.at? q = d.at? q)
    (h : d.follow place names = .ok other) : d'.follow place names = .ok other := by
  induction names generalizing place with
  | nil => exact h
  | cons n names ih =>
    simp only [follow] at h ⊢
    split at h
    · cases h
    · cases h
    · next hdirectory =>
      rw [hsame place hdirectory, hdirectory]
      split at h
      · cases h
      · next hshort =>
        simp only [hshort, if_false]
        split at h
        · next hn => rw [if_pos hn]; exact ih h
        · next hn => rw [if_neg hn]; exact ih h

/-- Without a pair of dots, where names lead is told by what stands above that place. -/
private theorem follow_congr_above {d' : Disk} (hdots : ".." ∉ names)
    (hsame : ∀ init n rest, names = init ++ n :: rest →
      d'.at? (place ++ init) = d.at? (place ++ init))
    (h : d.follow place names = .ok other) : d'.follow place names = .ok other := by
  induction names generalizing place with
  | nil => exact h
  | cons n names ih =>
    rw [List.mem_cons, not_or] at hdots
    have hhere := hsame [] n names rfl
    rw [List.append_nil] at hhere
    simp only [follow] at h ⊢
    rw [hhere]
    split at h
    · cases h
    · cases h
    · split at h
      · cases h
      · next hshort =>
        simp only [hshort, if_false]
        rw [if_neg (Ne.symm hdots.1)] at h ⊢
        refine ih hdots.2 (fun init m rest heq => ?_) h
        rw [List.append_assoc, List.singleton_append]
        exact hsame (n :: init) m rest (by rw [heq, List.cons_append])

/-- Proper names lead to their place if something may be looked up there; otherwise they lead
nowhere, and if there is no directory it is because of nothing or because of a file on the way. -/
theorem Sound.follow_cases (hd : d.Sound) (hplace : d.at? place = some .directory)
    (hnames : ∀ n ∈ names, IsName n) :
    (d.at? (place ++ names.dropLast) = some .directory ∧
      d.follow place names = .ok (place ++ names)) ∨
    (d.at? (place ++ names.dropLast) ≠ some .directory ∧
      (d.follow place names = .error .noEntry ∨
        d.follow place names = .error .notDirectory ∧
          ∃ init content, init <+: names ∧ d.at? (place ++ init) = some (.file content))) := by
  induction names generalizing place with
  | nil => exact .inl ⟨by simpa using hplace, by simp [follow]⟩
  | cons n names ih =>
    have hname : IsName n := hnames n (by simp)
    have hstep : d.follow place (n :: names) = d.follow (place ++ [n]) names := by
      simp [follow, hplace, Nat.not_lt.mpr hname.short, hname.ne_dots]
    rw [hstep]
    cases names with
    | nil => exact .inl ⟨by simpa using hplace, by simp [follow]⟩
    | cons m names =>
      have hlost (hchild : d.at? (place ++ [n]) ≠ some .directory) :
          d.at? (place ++ (n :: m :: names).dropLast) ≠ some .directory := by
        rw [List.dropLast_cons_of_ne_nil (by simp), List.append_cons]
        cases hinit : (m :: names).dropLast with
        | nil => simpa using hchild
        | cons k init =>
          rw [hd.none_below hchild]
          simp
      rcases hchild : d.at? (place ++ [n]) with _ | ⟨content⟩ | _
      · exact .inr ⟨hlost (by simp [hchild]), .inl (by simp [follow, hchild])⟩
      · refine .inr ⟨hlost (by simp [hchild]), .inr ⟨by simp [follow, hchild], [n], content, ?_⟩⟩
        exact ⟨List.prefix_append [n] (m :: names), hchild⟩
      · rcases ih hchild fun n hn => hnames n (by simp [hn]) with
          ⟨hparent, hfound⟩ | ⟨hparent, hnone | ⟨hfile, init, content, hinit, hat⟩⟩
        · exact .inl ⟨by simpa using hparent, by simpa using hfound⟩
        · exact .inr ⟨by simpa using hparent, .inl hnone⟩
        · refine .inr ⟨by simpa using hparent, .inr ⟨hfile, n :: init, content, ?_, ?_⟩⟩
          · exact (List.prefix_cons_inj n).mpr hinit
          · simpa using hat

/-! ## Base directories -/

/-- A path leads to a directory of a sound disk, whatever becomes of the places inside it. -/
structure Stands (base : Path) (B : List String) (d : Disk) : Prop where
  sound : d.Sound
  directory : d.at? B = some .directory
  locate : ∀ d' : Disk, d'.working = d.working →
    (∀ place, (∀ n names, place ≠ B ++ n :: names) → d'.at? place = d.at? place) →
    d'.locate base = .ok B

/-- A path leads to an empty directory whatever becomes of the places inside it. -/
theorem Sound.stands_of_empty (hd : d.Sound) {base : Path} {B : List String}
    (hlocate : d.locate base = .ok B) (hdirectory : d.at? B = some .directory)
    (hempty : ∀ n, d.at? (B ++ [n]) = none) : Stands base B d where
  sound := hd
  directory := hdirectory
  locate := by
    intro d' hworking hsame
    rw [Disk.locate] at hlocate ⊢
    split at hlocate
    · cases hlocate
    · next hnul =>
      rw [if_neg hnul, hworking]
      refine follow_congr ?_ hlocate
      intro q hq
      apply hsame
      rintro n names rfl
      have hchild : d.at? (B ++ [n]) ≠ none := by
        cases names with
        | nil => simp [hq]
        | cons m names =>
          rw [List.append_cons] at hq
          simp [hd.ancestor hq]
      exact hchild (hempty n)

/-- A path without a pair of dots leads to a directory whatever becomes of the places inside it. -/
theorem Sound.stands_of_no_dots (hd : d.Sound) {base : Path} {B : List String}
    (hdots : ".." ∉ base.parts) (hlocate : d.locate base = .ok B)
    (hdirectory : d.at? B = some .directory) : Stands base B d where
  sound := hd
  directory := hdirectory
  locate := by
    intro d' hworking hsame
    rw [Disk.locate] at hlocate ⊢
    split at hlocate
    · cases hlocate
    · next hnul =>
      rw [if_neg hnul, hworking]
      refine follow_congr_above hdots (fun init n rest heq => hsame _ ?_) hlocate
      intro m names hinside
      have hB := follow_eq_append hdots hlocate
      have hlength := congrArg List.length hinside
      rw [hB, heq] at hlength
      simp only [List.length_append, List.length_cons] at hlength
      omega

namespace Stands

variable {base : Path} {B : List String}

/-- A change inside the base directory leaves it where it is. -/
theorem of_inside (h : Stands base B d) {d' : Disk} (hsound : d'.Sound)
    (hworking : d'.working = d.working)
    (hsame : ∀ place, (∀ n names, place ≠ B ++ n :: names) → d'.at? place = d.at? place) :
    Stands base B d' where
  sound := hsound
  directory := by rw [hsame B (by simp), h.directory]
  locate := by
    intro d'' hworking' hsame'
    refine h.locate d'' (hworking'.trans hworking) ?_
    intro place hplace
    rw [hsame' place hplace, hsame place hplace]

/-- A path below the base directory leads to where its names lead from there. -/
theorem locate_append (h : Stands base B d) (names : List String) :
    d.locate (base.append names) =
      if ∃ n ∈ names, '\x00' ∈ n.toList then .error .embeddedNull else d.follow B names := by
  have hbase := h.locate d rfl fun _ _ => rfl
  rw [Disk.locate] at hbase
  split at hbase
  · cases hbase
  · next hnul =>
    rw [List.contains_iff_mem, Path.nul_mem_text] at hnul
    have hparts : (base.append names).text.toList.contains '\x00' = true ↔
        ∃ n ∈ names, '\x00' ∈ n.toList := by
      rw [List.contains_iff_mem, Path.nul_mem_text]
      change (∃ n ∈ base.parts ++ names, _) ↔ _
      constructor
      · rintro ⟨n, hn, hnuln⟩
        rcases List.mem_append.mp hn with hn | hn
        · exact absurd ⟨n, hn, hnuln⟩ hnul
        · exact ⟨n, hn, hnuln⟩
      · rintro ⟨n, hn, hnuln⟩
        exact ⟨n, List.mem_append_right _ hn, hnuln⟩
    rw [Disk.locate]
    by_cases hany : ∃ n ∈ names, '\x00' ∈ n.toList
    · rw [if_pos hany, if_pos (hparts.mpr hany)]
    · rw [if_neg hany, if_neg (fun hmem => hany (hparts.mp hmem))]
      change d.follow (if base.absolute then [] else d.working) (base.parts ++ names) = _
      rw [follow_append, hbase]
      rfl

/-- A path below the base directory leads name by name from there. -/
theorem locate_eq_foldl (h : Stands base B d) (hplace : d.locate (base.append names) = .ok place) :
    place = names.foldl next B := by
  rw [h.locate_append] at hplace
  split at hplace
  · cases hplace
  · exact follow_eq_foldl hplace

/-- Without a pair of dots a path below the base directory leads straight to its place. -/
theorem locate_eq (h : Stands base B d) (hdots : ".." ∉ names)
    (hplace : d.locate (base.append names) = .ok place) : place = B ++ names := by
  rw [h.locate_append] at hplace
  split at hplace
  · cases hplace
  · exact follow_eq_append hdots hplace

/-- Proper names below the base directory lead to their place if something may be looked up there;
otherwise they lead nowhere. -/
theorem locate_cases (h : Stands base B d) (hnames : ∀ n ∈ names, IsName n) :
    (d.at? (B ++ names.dropLast) = some .directory ∧
      d.locate (base.append names) = .ok (B ++ names)) ∨
    (d.at? (B ++ names.dropLast) ≠ some .directory ∧
      (d.locate (base.append names) = .error .noEntry ∨
        d.locate (base.append names) = .error .notDirectory ∧
          ∃ init content, init <+: names ∧ d.at? (B ++ init) = some (.file content))) := by
  rw [h.locate_append, if_neg]
  · exact h.sound.follow_cases h.directory hnames
  · rintro ⟨n, hn, hnul⟩
    exact (hnames n hn).no_nul hnul

/-- Above the base directory there are directories, too. -/
theorem locate_above (h : Stands base B d) {init : List String} (hinit : init <+: base.parts) :
    ∃ place, d.locate ⟨base.absolute, init⟩ = .ok place ∧ d.at? place = some .directory := by
  obtain ⟨rest, hrest⟩ := hinit
  have hbase := h.locate d rfl fun _ _ => rfl
  rw [Disk.locate] at hbase ⊢
  split at hbase
  · cases hbase
  · next hnul =>
    rw [List.contains_iff_mem, Path.nul_mem_text] at hnul
    rw [if_neg]
    · rw [← hrest, follow_append] at hbase
      change ∃ place, d.follow (if base.absolute then [] else d.working) init = _ ∧ _
      cases hplace : d.follow (if base.absolute then [] else d.working) init with
      | error kind =>
        rw [hplace] at hbase
        cases hbase
      | ok place =>
        rw [hplace] at hbase
        change d.follow place rest = .ok B at hbase
        refine ⟨place, rfl, ?_⟩
        cases rest with
        | nil =>
          cases hbase
          exact h.directory
        | cons n rest =>
          simp only [follow] at hbase
          split at hbase
          · cases hbase
          · cases hbase
          · assumption
    · rw [List.contains_iff_mem, Path.nul_mem_text]
      rintro ⟨n, hn, hnuln⟩
      exact hnul ⟨n, by rw [← hrest]; exact List.mem_append_left _ hn, hnuln⟩

/-- The path of something that stands below the base directory leads there. -/
theorem locate_of_at? (h : Stands base B d) (he : d.at? (B ++ names) = some e) :
    d.locate (base.append names) = .ok (B ++ names) := by
  have hparent : d.at? (B ++ names.dropLast) = some .directory := by
    cases names using List.reverseRecOn with
    | nil => simpa using h.directory
    | append_singleton names n =>
      rw [List.dropLast_concat]
      rw [← List.append_assoc] at he
      exact h.sound.parent he
  rcases h.locate_cases (h.sound.isName_of_mem he) with hfound | hlost
  · exact hfound.2
  · exact absurd hparent hlost.1

/-- A pair of dots leads from a directory to the one above it. -/
theorem at?_of_locate_dots (h : Stands base B d)
    (hdirectory : d.at? (B ++ names) = some .directory)
    (hplace : d.locate (base.append (names ++ [".."])) = .ok place) :
    d.at? place = some .directory := by
  have hnames := h.locate_of_at? hdirectory
  rw [h.locate_append] at hplace hnames
  split at hplace
  · cases hplace
  · split at hnames
    · cases hnames
    · rw [follow_append, hnames] at hplace
      change d.follow (B ++ names) [".."] = _ at hplace
      simp only [follow, hdirectory, if_true] at hplace
      split at hplace
      · cases hplace
      · cases hplace
        exact h.sound.dropLast hdirectory

/-- A proper name leads from a directory to its place in it. -/
theorem locate_child (h : Stands base B d) (hdirectory : d.at? (B ++ names) = some .directory)
    (hname : IsName n) :
    d.locate (base.append (names ++ [n])) = .ok (B ++ (names ++ [n])) := by
  have hnames : ∀ m ∈ names ++ [n], IsName m := by
    intro m hm
    rcases List.mem_append.mp hm with hm | hm
    · exact h.sound.isName_of_mem hdirectory m hm
    · rw [List.mem_singleton.mp hm]
      exact hname
  rcases h.locate_cases hnames with hfound | hlost
  · exact hfound.2
  · rw [List.dropLast_concat] at hlost
    exact absurd hdirectory hlost.1

/-- Where a path below the base directory leads without finding a directory, its last name is a
proper one in a directory that is there. -/
private theorem exists_parent (h : Stands base B d) (hsteps : ∀ n ∈ names, IsStep n)
    (hplace : d.locate (base.append names) = .ok place) (hother : d.at? place ≠ some .directory) :
    ∃ init n, names = init ++ [n] ∧ place = B ++ init ++ [n] ∧
      d.at? (B ++ init) = some .directory ∧ IsName n := by
  have hdots : ".." ∉ names := fun hmem => (hsteps _ hmem).ne_dots rfl
  have hstraight := h.locate_eq hdots hplace
  cases names using List.reverseRecOn with
  | nil =>
    rw [hstraight, List.append_nil] at hother
    exact absurd h.directory hother
  | append_singleton init n =>
    rw [h.locate_append] at hplace
    split at hplace
    · cases hplace
    · next hnul =>
      rw [follow_append] at hplace
      cases hinit : d.follow B init with
      | error kind =>
        rw [hinit] at hplace
        cases hplace
      | ok q =>
        have hq : q = B ++ init := follow_eq_append (fun hmem => hdots (by simp [hmem])) hinit
        subst hq
        rw [hinit] at hplace
        change d.follow (B ++ init) [n] = _ at hplace
        have hstep : IsStep n := hsteps n (by simp)
        have hdirectory : d.at? (B ++ init) = some .directory := by
          simp only [follow] at hplace
          split at hplace
          · cases hplace
          · cases hplace
          · assumption
        refine ⟨init, n, rfl, by simp [hstraight], hdirectory, hstep, ?_, ?_⟩
        · intro hmem
          exact hnul ⟨n, by simp, hmem⟩
        · rw [← Nat.not_lt]
          intro hlong
          simp [follow, hdirectory, hlong] at hplace

/-- Something new at a place inside the base directory leaves a sound disk. -/
theorem sound_put (h : Stands base B d) (hsteps : ∀ n ∈ names, IsStep n)
    (hplace : d.locate (base.append names) = .ok place) (hother : d.at? place ≠ some .directory) :
    (d.put place e).Sound := by
  obtain ⟨init, n, -, rfl, hdirectory, hname⟩ := h.exists_parent hsteps hplace hother
  exact h.sound.put hdirectory hname hother

end Stands

end Disk

end CertKeeper
