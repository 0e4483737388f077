import CertKeeper.Proofs.FollowedPaths
import CertKeeper.Proofs.WatchedDisk

/-!
# Inside a base directory

What the store looks up and changes is inside its base directory. `Disk.Keeps` bounds what becomes
of the places there, by what each of them may hold; a single change keeps within the bound
(`Disk.Stands.put`, `Disk.Stands.clear`), and so does one after another (`Disk.Keeps.trans`). A look
tells what stands at a place, or the disk breaks down.
-/

namespace CertKeeper

namespace Disk

/-- All that happens to a disk happens inside the base directory: places either keep what they have,
get something that is allowed there, or are directories that have been made on the way to a
place. -/
structure Keeps (base : Path) (B : List String) (R : List String → Option Entry → Prop)
    (way : List String) (d₀ d : Disk) : Prop where
  stands : Stands base B d
  working : d.working = d₀.working
  outside : ∀ place, (∀ n names, place ≠ B ++ n :: names) → d.at? place = d₀.at? place
  inside : ∀ names, d.at? (B ++ names) = d₀.at? (B ++ names) ∨ R names (d.at? (B ++ names)) ∨
    (names <+: way ∧ d₀.at? (B ++ names) = none ∧ d.at? (B ++ names) = some .directory)

variable {base : Path} {B : List String} {R R' : List String → Option Entry → Prop}
variable {way way' names : List String} {n : String} {d d₀ d₁ d₂ : Disk} {e : Entry}

/-- A disk where nothing happens keeps to the base directory. -/
theorem Stands.keeps (h : Stands base B d) : Keeps base B R way d d where
  stands := h
  working := rfl
  outside := fun _ _ => rfl
  inside := fun _ => .inl rfl

/-- One after another: nothing on the way may be removed. -/
theorem Keeps.trans (hR : ∀ names, names <+: way → ¬ R names none)
    (h₁ : Keeps base B R way d₀ d₁) (h₂ : Keeps base B R way d₁ d₂) :
    Keeps base B R way d₀ d₂ where
  stands := h₂.stands
  working := h₂.working.trans h₁.working
  outside := fun place hplace => (h₂.outside place hplace).trans (h₁.outside place hplace)
  inside := by
    intro names
    rcases h₂.inside names with hsame | hallowed | ⟨hway, hnone, hmade⟩
    · rw [hsame]
      exact h₁.inside names
    · exact .inr (.inl hallowed)
    · rcases h₁.inside names with hsame | hallowed | ⟨-, -, hmade'⟩
      · exact .inr (.inr ⟨hway, hsame ▸ hnone, hmade⟩)
      · rw [hnone] at hallowed
        exact absurd hallowed (hR names hway)
      · simp [hmade'] at hnone

/-- What happens inside the base directory does so where more is allowed and the way is longer. -/
theorem Keeps.mono (hR : ∀ names v, R names v → R' names v) (hway : way <+: way')
    (h : Keeps base B R way d₀ d) : Keeps base B R' way' d₀ d where
  stands := h.stands
  working := h.working
  outside := h.outside
  inside := by
    intro names
    rcases h.inside names with hsame | hallowed | ⟨hnames, hnone, hmade⟩
    · exact .inl hsame
    · exact .inr (.inl (hR names _ hallowed))
    · exact .inr (.inr ⟨hnames.trans hway, hnone, hmade⟩)

/-- A place that is neither allowed to change nor on the way keeps what it has. -/
theorem Keeps.same (h : Keeps base B R way d₀ d) (hR : ∀ v, ¬ R names v)
    (hway : ¬ names <+: way) : d.at? (B ++ names) = d₀.at? (B ++ names) := by
  rcases h.inside names with hsame | hallowed | ⟨hnames, -, -⟩
  · exact hsame
  · exact absurd hallowed (hR _)
  · exact absurd hnames hway

/-- What stands at a place that is not allowed to change stays there. -/
theorem Keeps.stays (h : Keeps base B R way d₀ d) (hR : ∀ v, ¬ R names v)
    (he : d₀.at? (B ++ names) = some e) : d.at? (B ++ names) = some e := by
  rcases h.inside names with hsame | hallowed | ⟨-, hnone, -⟩
  · rw [hsame, he]
  · exact absurd hallowed (hR _)
  · simp [he] at hnone

/-! ## Single changes -/

/-- A place inside the base directory is no place outside of it. -/
private theorem ne_inside {place : List String}
    (hplace : ∀ n names, place ≠ B ++ n :: names) (hnames : names ≠ []) : B ++ names ≠ place := by
  cases names with
  | nil => exact absurd rfl hnames
  | cons n names => exact (hplace n names).symm

/-- A new thing at a place inside the base directory. -/
theorem Stands.put (h : Stands base B d) (hsteps : ∀ n ∈ names, IsStep n)
    (hfound : d.locate (base.append names) = .ok (B ++ names))
    (hother : d.at? (B ++ names) ≠ some .directory)
    (hallowed : R names (some e) ∨ names <+: way ∧ d.at? (B ++ names) = none ∧ e = .directory) :
    Keeps base B R way d (d.put (B ++ names) e) := by
  have hne : B ++ names ≠ [] := ne_nil_of_at?_ne hother
  have hnames : names ≠ [] := by
    rintro rfl
    rw [List.append_nil] at hother
    exact hother h.directory
  have houtside : ∀ place, (∀ n names, place ≠ B ++ n :: names) →
      (d.put (B ++ names) e).at? place = d.at? place := by
    intro place hplace
    rw [at?_put hne, if_neg (ne_inside hplace hnames)]
  refine ⟨h.of_inside (h.sound_put hsteps hfound hother) rfl houtside, rfl, houtside, ?_⟩
  intro more
  rw [at?_put hne]
  by_cases hmore : B ++ names = B ++ more
  · rw [if_pos hmore]
    obtain rfl := List.append_cancel_left hmore
    rcases hallowed with hR | ⟨hway, hnone, rfl⟩
    · exact .inr (.inl hR)
    · exact .inr (.inr ⟨hway, hnone, rfl⟩)
  · rw [if_neg hmore]
    exact .inl rfl

/-- Nothing any more at a place inside the base directory. -/
theorem Stands.clear (h : Stands base B d) (hnames : names ≠ [])
    (hempty : ∀ n, d.at? (B ++ names ++ [n]) = none) (hallowed : R names none) :
    Keeps base B R way d (d.clear (B ++ names)) := by
  have hne : B ++ names ≠ [] := by simp [hnames]
  have houtside : ∀ place, (∀ n names, place ≠ B ++ n :: names) →
      (d.clear (B ++ names)).at? place = d.at? place := by
    intro place hplace
    rw [at?_clear hne, if_neg (ne_inside hplace hnames)]
  refine ⟨h.of_inside (h.sound.clear hne hempty) rfl houtside, rfl, houtside, ?_⟩
  intro more
  rw [at?_clear hne]
  by_cases hmore : B ++ names = B ++ more
  · rw [if_pos hmore]
    obtain rfl := List.append_cancel_left hmore
    exact .inr (.inl hallowed)
  · rw [if_neg hmore]
    exact .inl rfl

/-! ## Watched disks -/

/-- All that happens to a watched disk happens inside the base directory, and no file is moved. -/
structure Watch.Keeps (base : Path) (B : List String) (R : List String → Option Entry → Prop)
    (way : List String) (w₀ w : Watch) : Prop extends
    Disk.Keeps base B R way w₀.disk w.disk where
  moved : w.moved = w₀.moved

variable {F : Prop} {w w' w₀ w₁ w₂ : Watch}

/-- A watched disk where nothing happens keeps to the base directory. -/
theorem Stands.watchKeeps (h : Stands base B w.disk) : Watch.Keeps base B R way w w :=
  ⟨h.keeps, rfl⟩

/-- What happens to a watched disk one after the other stays inside the base directory if nothing on
the way may vanish. -/
theorem Watch.Keeps.trans (hR : ∀ names, names <+: way → ¬ R names none)
    (h₁ : Watch.Keeps base B R way w₀ w₁) (h₂ : Watch.Keeps base B R way w₁ w₂) :
    Watch.Keeps base B R way w₀ w₂ :=
  ⟨h₁.toKeeps.trans hR h₂.toKeeps, h₂.moved.trans h₁.moved⟩

/-- What happens to a watched disk inside the base directory does so where more is allowed and the
way is longer. -/
theorem Watch.Keeps.mono (hR : ∀ names v, R names v → R' names v) (hway : way <+: way')
    (h : Watch.Keeps base B R way w₀ w) : Watch.Keeps base B R' way' w₀ w :=
  ⟨h.toKeeps.mono hR hway, h.moved⟩

open CertKeeper.Action (Always)

/-! ## Looks -/

/-- What is seen at a path. -/
def seen? (d : Disk) (p : Path) : Option Kind :=
  match d.locate p with
  | .ok place => (d.at? place).map Entry.kind
  | .error _ => none

variable {C : Watch → Prop} {content : Bytes} {p : Path}

/-- Probing tells what is seen; else it says why there is nothing to see. -/
private theorem handler_probe_cases (p : Path) (d : Disk) :
    (∃ kind, d.seen? p = some kind ∧ (handler (.probe p) d).1 = .ok kind) ∨
    (d.seen? p = none ∧ ∃ kind, (handler (.probe p) d).1 = .error (.disk ⟨kind, p, none⟩) ∧
      (kind = .noEntry ∨ d.locate p = .error kind)) := by
  unfold seen?
  cases hl : d.locate p with
  | error kind =>
    refine .inr ⟨rfl, kind, ?_, .inr rfl⟩
    simp only [handler, perform, hl]
    rfl
  | ok place =>
    cases hat : d.at? place with
    | some e => exact .inl ⟨e.kind, by simp [hat], handler_probe hl hat⟩
    | none =>
      refine .inr ⟨by simp [hat], .noEntry, ?_, .inl rfl⟩
      simp only [handler, perform, hl, bind, Except.bind, hat]
      rfl

/-- Below the base directory a path shows what stands at the place of its names. -/
theorem Stands.seen? (h : Stands base B d) (hsteps : ∀ n ∈ names, IsStep n) :
    d.seen? (base.append names) = (d.at? (B ++ names)).map Entry.kind := by
  unfold Disk.seen?
  cases hl : d.locate (base.append names) with
  | ok place =>
    obtain rfl := h.locate_eq (fun hmem => (hsteps _ hmem).ne_dots rfl) hl
    rfl
  | error kind =>
    cases hat : d.at? (B ++ names) with
    | none => rfl
    | some e => simp [h.locate_of_at? hat] at hl

/-- A directory is seen below the base directory where there is one. -/
theorem Stands.seen?_eq_directory (h : Stands base B d) (hsteps : ∀ n ∈ names, IsStep n) :
    d.seen? (base.append names) = some .directory ↔ d.at? (B ++ names) = some .directory := by
  rw [h.seen? hsteps]
  rcases d.at? (B ++ names) with _ | ⟨content⟩ | _ <;> simp [Entry.kind]

/-- Why a look at a path fails: the disk breaks down, or the path has a name that nothing can
have. -/
def Unseen (F : Prop) (d : Disk) (p : Path) (e : Failure) : Prop :=
  e.isRecordNotFound = false ∧ (F ∨ ∃ kind, e = .disk ⟨kind, p, none⟩ ∧
    d.locate p = .error kind ∧ kind ≠ .noEntry ∧ kind ≠ .notDirectory)

/-- A path of proper names below the base directory is seen unless the disk breaks down. -/
theorem Unseen.broken {e : Failure} (he : Unseen F d (base.append names) e)
    (h : Stands base B d) (hnames : ∀ n ∈ names, IsName n) : F := by
  rcases he.2 with hF | ⟨kind, -, hl, hno, hnot⟩
  · exact hF
  · rcases h.locate_cases hnames with ⟨-, hfound⟩ | ⟨-, hnone | ⟨hfile, -⟩⟩
    · simp [hfound] at hl
    · exact absurd (Except.error.inj (hl.symm.trans hnone)) hno
    · exact absurd (Except.error.inj (hl.symm.trans hfile)) hnot

private theorem always_probe? (hC : C w) (p : Path) :
    Always (service F) C (DirectoryStore.probe? p)
      (fun kind w' => w' = w ∧ kind = w.disk.seen? p)
      (fun e w' => w' = w ∧ Unseen F w.disk p e) w := by
  unfold DirectoryStore.probe?
  refine Always.bind (Always.outcome (always_look (q := .probe p) trivial hC ?_ ?_))
  · rcases handler_probe_cases p w.disk with ⟨kind, hseen, hserved⟩ | ⟨hnone, kind, hserved, hwhy⟩
    · rw [hserved, hseen]
      exact Always.pure hC ⟨rfl, rfl⟩
    · rw [hserved, hnone]
      simp only [Action.Ends]
      split
      · exact Always.pure hC ⟨rfl, rfl⟩
      · exact Always.pure hC ⟨rfl, rfl⟩
      · exact Always.pure hC ⟨rfl, rfl⟩
      · next hno hnot _ =>
        refine Always.throw hC ⟨rfl, rfl, .inr ⟨kind, rfl, ?_, hno, hnot⟩⟩
        exact hwhy.resolve_left hno
  · intro hF kind report
    exact Always.throw hC ⟨rfl, rfl, .inl hF⟩

/-- Looking whether something is there tells it and changes nothing. -/
theorem always_isThere (hC : C w) (p : Path) :
    Always (service F) C (DirectoryStore.isThere p)
      (fun there w' => w' = w ∧ there = (w.disk.seen? p).isSome)
      (fun e w' => w' = w ∧ Unseen F w.disk p e) w := by
  unfold DirectoryStore.isThere
  refine Always.bind ((always_probe? hC p).mono (fun _ h => h) ?_ fun _ _ _ h => h)
  rintro _ w - ⟨rfl, rfl⟩
  exact Always.pure hC ⟨rfl, rfl⟩

/-- Looking whether a directory is there tells it and changes nothing. -/
theorem always_isDirectory (hC : C w) (p : Path) :
    Always (service F) C (DirectoryStore.isDirectory p)
      (fun there w' => w' = w ∧ there = (w.disk.seen? p == some .directory))
      (fun e w' => w' = w ∧ Unseen F w.disk p e) w := by
  unfold DirectoryStore.isDirectory
  refine Always.bind ((always_probe? hC p).mono (fun _ h => h) ?_ fun _ _ _ h => h)
  rintro _ w - ⟨rfl, rfl⟩
  exact Always.pure hC ⟨rfl, rfl⟩

/-- A file is read where it stands. -/
theorem always_read (h : Stands base B w.disk) (hC : C w)
    (hat : w.disk.at? (B ++ names) = some (.file content)) :
    Always (service F) C (ask (.read (base.append names)))
      (fun x w' => w' = w ∧ x = content)
      (fun e w' => w' = w ∧ e.isRecordNotFound = false ∧ F) w := by
  refine always_look (q := .read (base.append names)) trivial hC ?_ ?_
  · rw [handler_read (h.locate_of_at? hat) hat]
    exact ⟨rfl, rfl⟩
  · intro hF kind report
    exact ⟨rfl, rfl, hF⟩

/-- The names in a directory are read where it stands. -/
theorem always_list (h : Stands base B w.disk) (hC : C w)
    (hat : w.disk.at? (B ++ names) = some .directory) :
    Always (service F) C (ask (.list (base.append names)))
      (fun x w' => w' = w ∧ x = w.disk.childNames (B ++ names)) (fun _ w' => w' = w ∧ F) w := by
  refine always_look (q := .list (base.append names)) trivial hC ?_ ?_
  · rw [handler_list (h.locate_of_at? hat) hat]
    exact ⟨rfl, rfl⟩
  · intro hF kind report
    exact ⟨rfl, hF⟩

/-- What is below a directory is read only where there is one. -/
theorem always_contents (h : Stands base B w.disk) (hC : C w)
    (hsteps : ∀ n ∈ names, IsStep n) :
    Always (service F) C (ask (.contents (base.append names)))
      (fun x w' => w' = w ∧ w.disk.at? (B ++ names) = some .directory ∧
        x = w.disk.below (B ++ names))
      (fun _ w' => w' = w ∧ (w.disk.at? (B ++ names) = some .directory → F)) w := by
  refine always_look (q := .contents (base.append names)) trivial hC ?_ ?_
  · by_cases hat : w.disk.at? (B ++ names) = some .directory
    · rw [handler_contents (h.locate_of_at? hat) hat]
      exact ⟨rfl, hat, rfl⟩
    · have hrefused : ∃ e, (handler (.contents (base.append names)) w.disk).1 = .error e := by
        cases hl : w.disk.locate (base.append names) with
        | error kind =>
          refine ⟨.disk ⟨kind, base.append names, none⟩, ?_⟩
          simp only [handler, perform, hl]
          rfl
        | ok place =>
          obtain rfl := h.locate_eq (fun hmem => (hsteps _ hmem).ne_dots rfl) hl
          rcases he : w.disk.at? (B ++ names) with _ | ⟨c⟩ | _
          · refine ⟨.disk ⟨.noEntry, base.append names, none⟩, ?_⟩
            simp only [handler, perform, hl, bind, Except.bind, he]
            rfl
          · refine ⟨.disk ⟨.notDirectory, base.append names, none⟩, ?_⟩
            simp only [handler, perform, hl, bind, Except.bind, he]
            rfl
          · exact absurd he hat
      obtain ⟨e, he⟩ := hrefused
      rw [he]
      exact ⟨rfl, fun hdirectory => absurd hdirectory hat⟩
  · intro hF kind report
    exact ⟨rfl, fun _ => hF⟩

end Disk

end CertKeeper
