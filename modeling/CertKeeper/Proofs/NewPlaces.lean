import CertKeeper.Proofs.BaseDirectory

/-!
# New directories and files

Making a directory makes those above it that are not there (`Disk.always_makeDirectories`), writing
a file puts it in its place (`Disk.always_write`), and moving one takes it from one place to another
(`Disk.always_rename`). If any of this fails the disk has broken down, or something that is named in
the lemma was in the way.
-/

namespace CertKeeper

namespace Disk

open CertKeeper.Action (Always)
open DirectoryStore (makeOne makeFrom makeDirectories)

variable {base : Path} {B way names init : List String} {n : String} {F : Prop} {w w' : Watch}
variable {d : Disk} {C : Watch → Prop} {tolerant : Bool} {p : Path}

/-! ## Making directories -/

/-- Why a directory is not made: the disk breaks down, or the path leads nowhere, or there is
something at its end already that will not do. -/
def Unmade (F : Prop) (d : Disk) (p : Path) (tolerant : Bool) (e : Failure) : Prop :=
  F ∨ ∃ kind, e = .disk ⟨kind, p, none⟩ ∧ (d.locate p = .error kind ∨
    kind = .exists ∧ d.seen? p ≠ none ∧ (tolerant = true → d.seen? p ≠ some .directory))

/-- Making one directory makes it, or finds one if that is fine, or changes nothing. -/
theorem always_makeOne (hC : C w) (hmade : ∀ place, w.disk.locate p = .ok place →
      w.disk.at? place = none → C ⟨w.disk.put place .directory, w.moved⟩) :
    Always (service F) C (makeOne p tolerant)
      (fun _ w' => w' = w ∧ w.disk.seen? p = some .directory ∨
        ∃ place, w.disk.locate p = .ok place ∧ w.disk.at? place = none ∧
          w' = ⟨w.disk.put place .directory, w.moved⟩)
      (fun e w' => w' = w ∧ Unmade F w.disk p tolerant e) w := by
  unfold makeOne
  refine Always.bind (Always.outcome (always_ask hC ?_))
  intro r w' h
  rcases service_makeDirectory h with ⟨place, hplace, hnone, rfl, rfl⟩ | ⟨rfl, e, rfl, hwhy⟩
  · have hnow := hmade place hplace hnone
    exact ⟨hnow, Always.pure hnow (.inr ⟨place, hplace, hnone, rfl⟩)⟩
  · refine ⟨hC, ?_⟩
    have hseen (hother : tolerant = true → w'.disk.seen? p ≠ some .directory) :
        Unmade F w'.disk p tolerant e := by
      rcases hwhy with hF | ⟨kind, rfl, hlost | ⟨rfl, place, hplace, hat⟩⟩
      · exact .inl hF
      · exact .inr ⟨kind, rfl, .inl hlost⟩
      · refine .inr ⟨.exists, rfl, .inr ⟨rfl, ?_, hother⟩⟩
        simpa [Disk.seen?, hplace] using hat
    cases e with
    | disk err =>
      dsimp only [Action.Ends]
      split
      · refine Always.bind ((always_isDirectory hC p).mono (fun _ h => h) ?_ ?_)
        · rintro there w₁ - ⟨rfl, hthere⟩
          cases there with
          | true => exact Always.pure hC (.inl ⟨rfl, by simpa using hthere.symm⟩)
          | false => exact Always.throw hC ⟨rfl, hseen fun _ => by simpa using hthere.symm⟩
        · rintro e w₁ - ⟨rfl, -, hF | ⟨kind, rfl, hlost, -⟩⟩
          · exact ⟨rfl, .inl hF⟩
          · exact ⟨rfl, .inr ⟨kind, rfl, .inl hlost⟩⟩
      · next hstrict =>
        refine Always.bind (Always.pure hC (Always.throw hC ⟨rfl, ?_⟩))
        rcases hwhy with hF | ⟨kind, he, hlost | ⟨rfl, place, hplace, hat⟩⟩
        · exact .inl hF
        · exact .inr ⟨kind, he, .inl hlost⟩
        · cases he
          refine hseen fun htolerant => ?_
          exact absurd ⟨htolerant, by simp, by simp⟩ hstrict
    | _ =>
      rcases hwhy with hF | ⟨kind, he, -⟩
      · exact Always.throw hC ⟨rfl, .inl hF⟩
      · cases he

/-- Names under which directories can be made: no file is on the way, and if the last directory has
to be a new one there is none. -/
structure Makeable (B names : List String) (tolerant : Bool) (d : Disk) : Prop where
  isName : ∀ n ∈ names, IsName n
  noFile : ∀ init content, init <+: names → d.at? (B ++ init) ≠ some (.file content)
  new : tolerant = false → d.at? (B ++ names) = none

/-- Directories on the way are all that is made. -/
def Nothing (_ : List String) (_ : Option Entry) : Prop := False

/-- A directory can still be made after the ones above it have been made. -/
theorem Makeable.keeps {d' : Disk} (hm : Makeable B (init ++ [n]) tolerant d)
    (hkeeps : Keeps base B Nothing init d d') : Makeable B (init ++ [n]) tolerant d' where
  isName := hm.isName
  noFile := by
    intro q content hq hat
    rcases hkeeps.inside q with hsame | hno | ⟨-, -, hmade⟩
    · exact hm.noFile q content hq (hsame ▸ hat)
    · exact hno
    · simp [hat] at hmade
  new := by
    intro htolerant
    rw [hkeeps.same (fun _ h => h) ?_]
    · exact hm.new htolerant
    · intro habove
      have := habove.length_le
      simp only [List.length_append, List.length_singleton] at this
      omega

/-- Where directories can be made only a disk that breaks down refuses to make one, unless the one
above it is missing. -/
theorem Unmade.broken {e : Failure} (he : Unmade F d (base.append names) tolerant e)
    (h : Stands base B d) (hm : Makeable B names tolerant d) :
    F ∨ ∃ err, e = .disk err ∧ err.kind = .noEntry ∧
      d.at? (B ++ names.dropLast) ≠ some .directory := by
  rcases he with hF | ⟨kind, rfl, hlost | ⟨-, hsome, hother⟩⟩
  · exact .inl hF
  · rcases h.locate_cases hm.isName with ⟨-, hfound⟩ | ⟨hparent, hnone | ⟨hfile, q, c, hq, hat⟩⟩
    · simp [hfound] at hlost
    · exact .inr ⟨_, rfl, Except.error.inj (hlost.symm.trans hnone), hparent⟩
    · exact absurd hat (hm.noFile q c hq)
  · rw [h.seen? fun n hn => (hm.isName n hn).toIsStep] at hsome hother
    cases tolerant with
    | false => simp [hm.new rfl] at hsome
    | true =>
      rcases hat : d.at? (B ++ names) with _ | ⟨content⟩ | _
      · simp [hat] at hsome
      · exact absurd hat (hm.noFile names content (List.prefix_refl names))
      · simp [hat, Entry.kind] at hother

/-- Where a directory stands already, making it changes nothing; if that is fine, only a disk that
breaks down complains. -/
theorem always_makeOne_of_directory {place : List String} (hC : C w)
    (hplace : w.disk.locate p = .ok place) (hat : w.disk.at? place = some .directory) :
    Always (service F) C (makeOne p tolerant) (fun _ w' => w' = w)
      (fun _ w' => w' = w ∧ (tolerant = true → F)) w := by
  refine (always_makeOne hC ?_).mono (fun _ h => h) ?_ ?_
  · intro place' hplace' hnone
    rw [hplace] at hplace'
    cases hplace'
    simp [hat] at hnone
  · rintro _ w' - (⟨rfl, -⟩ | ⟨place', hplace', hnone, -⟩)
    · rfl
    · rw [hplace] at hplace'
      cases hplace'
      simp [hat] at hnone
  · rintro e w' - ⟨rfl, hF | ⟨kind, -, hlost | ⟨-, -, hother⟩⟩⟩
    · exact ⟨rfl, fun _ => hF⟩
    · simp [hplace] at hlost
    · refine ⟨rfl, fun htolerant => absurd ?_ (hother htolerant)⟩
      simp [Disk.seen?, hplace, hat, Entry.kind]

private theorem always_makeFrom_above (h : Stands base B w.disk) (hC : C w)
    (hinit : init <+: base.parts) :
    Always (service F) C (makeFrom base.absolute init.reverse tolerant)
      (fun _ w' => w' = w) (fun _ w' => w' = w ∧ (tolerant = true → F)) w := by
  obtain ⟨place, hplace, hat⟩ := h.locate_above hinit
  induction init using List.reverseRecOn generalizing tolerant place with
  | nil => exact always_makeOne_of_directory hC hplace hat
  | append_singleton init n ih =>
    have hpath : (n :: init.reverse).reverse = init ++ [n] := by simp
    rw [List.reverse_append, List.reverse_singleton, List.singleton_append]
    simp only [makeFrom, hpath]
    refine Always.bind (Always.outcome
      ((always_makeOne_of_directory hC hplace hat).mono (fun _ h => h) ?_ ?_))
    · rintro _ w - rfl
      exact Always.pure hC rfl
    · rintro e w - ⟨rfl, hwhy⟩
      cases e with
      | disk err =>
        dsimp only
        split
        · have habove : init <+: base.parts := (List.prefix_append init [n]).trans hinit
          obtain ⟨above, habove', hat'⟩ := h.locate_above habove
          refine Always.bind ((ih habove above habove' hat').mono (fun _ h => h) ?_ ?_)
          · rintro _ w - rfl
            exact always_makeOne_of_directory hC hplace hat
          · rintro e w - ⟨rfl, hF⟩
            exact ⟨rfl, fun _ => hF rfl⟩
        · exact Always.throw hC ⟨rfl, hwhy⟩
      | _ => exact Always.throw hC ⟨rfl, hwhy⟩

/-- Making the base directory once more changes nothing. -/
theorem always_makeBase (h : Stands base B w.disk) (hC : C w) :
    Always (service F) C (makeDirectories base true) (fun _ w' => w' = w)
      (fun _ w' => w' = w ∧ F) w :=
  (always_makeFrom_above h hC (List.prefix_refl _)).mono (fun _ h => h) (fun _ _ _ h => h)
    fun _ _ _ hE => ⟨hE.1, hE.2 rfl⟩

/-- A store that is opened again leaves everything as it is. -/
theorem Stands.runWith_prepare {s : DirectoryStore} (h : Stands s.base B d) :
    Action.runWith handler s.prepare d = (.ok (), d) := by
  have hmade := @always_makeBase s.base B False ⟨d, false⟩ (fun _ => True) h trivial
  refine runWith_eq_of_always (C := fun _ => True) (hmade.mono (fun _ h => h) ?_ ?_)
  · rintro _ w' - rfl
    exact ⟨rfl, rfl⟩
  · rintro e w' - ⟨-, hF⟩
    exact hF.elim

/-- What follows the opening of a store that is there runs as without it. -/
theorem Stands.runWith_prepare_bind {s : DirectoryStore} {α : Type} (h : Stands s.base B d)
    (a : Action interface α) :
    Action.runWith handler (s.prepare >>= fun _ => a) d = Action.runWith handler a d := by
  rw [Action.runWith_bind, h.runWith_prepare]

/-- Making one directory below the base, after what has been made above it, makes it, or does
nothing more. -/
theorem always_makeNext (hsteps : ∀ m ∈ init ++ [n], IsStep m)
    (hkeeps : Watch.Keeps base B Nothing (init ++ [n]) w w') :
    Always (service F) (Watch.Keeps base B Nothing (init ++ [n]) w)
      (makeOne (base.append (init ++ [n])) tolerant)
      (fun _ w₁ => w₁.disk.at? (B ++ (init ++ [n])) = some .directory)
      (fun e w₁ => w₁ = w' ∧ Unmade F w'.disk (base.append (init ++ [n])) tolerant e) w' := by
  have hready := hkeeps.stands
  refine (always_makeOne hkeeps ?_).mono (fun _ h => h) ?_ fun _ _ _ h => h
  · intro place hplace hnone
    obtain rfl := hready.locate_eq (fun hmem => (hsteps _ hmem).ne_dots rfl) hplace
    refine hkeeps.trans (fun _ _ h => h) ⟨?_, rfl⟩
    exact hready.put hsteps hplace (by simp [hnone]) (.inr ⟨List.prefix_refl _, hnone, rfl⟩)
  · rintro _ w₁ - (⟨rfl, hseen⟩ | ⟨place, hplace, -, rfl⟩)
    · exact (hready.seen?_eq_directory hsteps).mp hseen
    · obtain rfl := hready.locate_eq (fun hmem => (hsteps _ hmem).ne_dots rfl) hplace
      rw [at?_put (by simp), if_pos rfl]

/-- Making a directory below the base makes it and those above it. -/
theorem always_makeDirectories (h : Stands base B w.disk) (hsteps : ∀ n ∈ names, IsStep n) :
    Always (service F) (Watch.Keeps base B Nothing names w)
      (makeDirectories (base.append names) tolerant)
      (fun _ w' => w'.disk.at? (B ++ names) = some .directory)
      (fun _ _ => Makeable B names tolerant w.disk → F) w := by
  change Always _ _ (makeFrom base.absolute (base.parts ++ names).reverse tolerant) _ _ _
  induction names using List.reverseRecOn generalizing tolerant with
  | nil =>
    rw [List.append_nil]
    refine (always_makeFrom_above h h.watchKeeps (List.prefix_refl _)).mono (fun _ h => h) ?_ ?_
    · rintro _ w - rfl
      simpa using h.directory
    · rintro e w - ⟨rfl, hwhy⟩ hm
      cases tolerant with
      | true => exact hwhy rfl
      | false =>
        have hnone := hm.new rfl
        simp [h.directory] at hnone
  | append_singleton init n ih =>
    have hinit : ∀ n ∈ init, IsStep n := fun m hm => hsteps m (by simp [hm])
    have hpath : (⟨base.absolute, (n :: (base.parts ++ init).reverse).reverse⟩ : Path) =
        base.append (init ++ [n]) := by simp [Path.append]
    rw [← List.append_assoc, List.reverse_append, List.reverse_singleton, List.singleton_append]
    simp only [makeFrom, hpath]
    refine Always.bind (Always.outcome
      ((always_makeNext hsteps h.watchKeeps).mono (fun _ h => h) ?_ ?_))
    · intro _ w' hC hmade
      exact Always.pure hC hmade
    · rintro e w hC ⟨rfl, hwhy⟩
      cases e with
      | disk err =>
        dsimp only
        split
        · refine Always.bind ((ih hinit).mono
            (fun _ h => h.mono (fun _ _ h => h) (List.prefix_append init [n])) ?_ ?_)
          · intro _ w₁ hkeeps hparent
            have hway := hkeeps.mono (fun _ _ h => h) (List.prefix_append init [n])
            refine (always_makeNext hsteps hway).mono (fun _ h => h) (fun _ _ _ h => h) ?_
            rintro e w₂ - ⟨-, hwhy⟩ hm
            rcases hwhy.broken hkeeps.stands (hm.keeps hkeeps.toKeeps) with hF | ⟨_, -, -, hlost⟩
            · exact hF
            · rw [List.dropLast_concat] at hlost
              exact absurd hparent hlost
          · intro e w₁ _ hF hm
            refine hF ⟨fun m hm' => hm.isName m (by simp [hm']), ?_, by simp⟩
            exact fun q content hq => hm.noFile q content (hq.trans (List.prefix_append init [n]))
        · next hother =>
          refine Always.throw hC fun hm => ?_
          rcases hwhy.broken h hm with hF | ⟨_, he, hnone, -⟩
          · exact hF
          · cases he
            exact absurd hnone hother
      | _ =>
        refine Always.throw hC fun hm => ?_
        rcases hwhy.broken h hm with hF | ⟨_, he, -⟩
        · exact hF
        · cases he

/-! ## Files -/

/-- One place gets a file. -/
def FileAt (names : List String) (more : List String) (v : Option Entry) : Prop :=
  more = names ∧ ∃ content, v = some (.file content)

variable {role : Role} {content : Bytes}

/-- Writing a file writes it, perhaps in part only, unless there is a directory in its place. -/
theorem always_write (h : Stands base B w.disk) (hsteps : ∀ n ∈ names, IsStep n) :
    Always (service F) (Watch.Keeps base B (FileAt names) [] w)
      (ask (.write role (base.append names) content))
      (fun _ w' => w'.disk.at? (B ++ names) = some (.file content))
      (fun _ w' => (¬ F → w' = w) ∧ (w.disk.at? (B ++ names.dropLast) = some .directory →
        (∀ n ∈ names, IsName n) → w.disk.at? (B ++ names) ≠ some .directory → F)) w := by
  refine always_ask h.watchKeeps ?_
  intro r w' hr
  rcases service_write hr with ⟨place, part, hplace, hother, rfl, hresult⟩ | ⟨rfl, e, rfl, hwhy⟩
  · obtain rfl := h.locate_eq (fun hmem => (hsteps _ hmem).ne_dots rfl) hplace
    refine ⟨⟨h.put hsteps hplace hother (.inl ⟨rfl, part, rfl⟩), rfl⟩, ?_⟩
    rcases hresult with ⟨rfl, rfl⟩ | ⟨hF, e, rfl⟩
    · change (w.disk.put (B ++ names) _).at? (B ++ names) = _
      rw [at?_put (ne_nil_of_at?_ne hother), if_pos rfl]
    · exact ⟨fun hno => absurd hF hno, fun _ _ _ => hF⟩
  · refine ⟨h.watchKeeps, fun _ => rfl, fun hparent hnames hother => ?_⟩
    rcases hwhy with hF | hdirectory
    · exact hF
    · rcases h.locate_cases hnames with ⟨-, hfound⟩ | ⟨hlost, -⟩
      · exact absurd (hdirectory _ hfound) hother
      · exact absurd hparent hlost

/-- Nothing is written over a directory. -/
theorem always_write_of_directory (hC : C w) (hdirectory : ∀ place, w.disk.locate p = .ok place →
      w.disk.at? place = some .directory) :
    Always (service F) C (ask (.write role p content)) (fun _ _ => False) (fun _ w' => w' = w)
      w := by
  refine always_ask hC ?_
  intro r w' hr
  rcases service_write hr with ⟨place, part, hplace, hother, -⟩ | ⟨rfl, e, rfl, -⟩
  · exact absurd (hdirectory place hplace) hother
  · exact ⟨hC, rfl⟩

/-- Moving a file moves it as a whole. -/
theorem always_rename {target : List String} (h : Stands base B w.disk) (hC : C w)
    (hsteps : ∀ n ∈ names, IsStep n) (hsteps' : ∀ n ∈ target, IsStep n)
    (hmoved : ∀ content, w.disk.at? (B ++ names) = some (.file content) →
      w.disk.at? (B ++ target) ≠ some .directory →
      C ⟨(w.disk.clear (B ++ names)).put (B ++ target) (.file content), true⟩) :
    Always (service F) C (ask (.rename (base.append names) (base.append target)))
      (fun _ w' => ∃ content, w.disk.at? (B ++ names) = some (.file content) ∧
        w.disk.at? (B ++ target) ≠ some .directory ∧
        w' = ⟨(w.disk.clear (B ++ names)).put (B ++ target) (.file content), true⟩)
      (fun _ w' => w' = w ∧ ∀ content, w.disk.at? (B ++ names) = some (.file content) →
        w.disk.at? (B ++ target.dropLast) = some .directory → (∀ n ∈ target, IsName n) →
        w.disk.at? (B ++ target) ≠ some .directory → F) w := by
  refine always_ask hC ?_
  intro r w' hr
  rcases service_rename hr with
    ⟨src, c, dst, hsrc, hfile, hdst, hother, rfl, rfl⟩ | ⟨rfl, e, rfl, hwhy⟩
  · obtain rfl := h.locate_eq (fun hmem => (hsteps _ hmem).ne_dots rfl) hsrc
    obtain rfl := h.locate_eq (fun hmem => (hsteps' _ hmem).ne_dots rfl) hdst
    exact ⟨hmoved c hfile hother, c, hfile, hother, rfl⟩
  · refine ⟨hC, rfl, fun c hfile hparent hnames hother => ?_⟩
    rcases hwhy with hF | hdirectory
    · exact hF
    · rcases h.locate_cases hnames with ⟨-, hfound⟩ | ⟨hlost, -⟩
      · exact absurd (hdirectory _ c _ (h.locate_of_at? hfile) hfile hfound) hother
      · exact absurd hparent hlost

end Disk

end CertKeeper
