import CertKeeper.Proofs.DiskPlaces
import CertKeeper.Proofs.InterruptedRuns

/-!
# Disks that may break down

A disk on which any request may fail: a change may be refused for whatever reason, a look may be
refused by the surroundings, and a file may be left half written. Moving a file is one step, and the
disk is watched for it. `Disk.service` is what such a disk does; one lemma for each kind of request
says what can come of it, and `Disk.Keeps` is what a change inside the base directory leaves alone.
-/

namespace CertKeeper

namespace Disk

/-- Requests that change nothing. -/
def Request.Looks : Request → Prop
  | .probe _ | .list _ | .read _ | .contents _ => True
  | _ => False

/-- Requests that move a file. -/
def Request.moves : Request → Bool
  | .rename _ _ => true
  | _ => false

/-- How a request fails where the disk breaks down, and what it leaves. -/
inductive Broken : Request → Failure → Disk → Disk → Prop where
  | look {q : Request} (kind : ExternalKind) (report : String) (d : Disk) :
      Broken q (.external kind report) d d
  | refused {q : Request} (change : ¬ q.Looks) (e : Failure) (d : Disk) : Broken q e d d
  /-- A file is left with a first part of what should have been written. -/
  | torn {role : Role} {p : Path} {content part : Bytes} {place : List String} {d : Disk}
      (first : part <+: content) (found : d.locate p = .ok place)
      (noDirectory : d.at? place ≠ some .directory) (e : Failure) :
      Broken (.write role p content) e d (d.put place (.file part))

/-- A disk and whether a file has been moved on it. -/
structure Watch where
  disk : Disk
  moved : Bool

/-- The answers of a disk and what becomes of it; with `faulty` it may break down. -/
def service (faulty : Prop) : Service interface Watch :=
  fun q w (r : Except Failure q.Result) w' =>
    (r = (handler q w.disk).1 ∧
      w' = ⟨(handler q w.disk).2, w.moved || (q.moves && r.isOk)⟩) ∨
    (faulty ∧ ∃ e d', Broken q e w.disk d' ∧ r = .error e ∧ w' = ⟨d', w.moved⟩)

variable {F : Prop} {w w' : Watch} {d : Disk}

/-- The answers of a disk that works, while it is watched. -/
def watchHandler : Handler interface Watch := fun q w =>
  ((handler q w.disk).1, ⟨(handler q w.disk).2, w.moved || (q.moves && (handler q w.disk).1.isOk)⟩)

/-- A disk that never breaks down answers as a disk that may. -/
theorem service_watchHandler (q : interface.Question) (w : Watch) :
    service F q w (watchHandler q w).1 (watchHandler q w).2 := .inl ⟨rfl, rfl⟩

/-! ## What a disk answers -/

/-- A request as an action gives its answer. -/
theorem runWith_ask {σ : Type} (h : Handler interface σ) (q : Request) (w : σ) :
    Action.runWith h (ask q) w = h q w := rfl

/-- A look changes nothing. -/
private theorem perform_look {q : Request} (hq : q.Looks) {x : q.Result} {d' : Disk}
    (h : d.perform q = .ok (x, d')) : d' = d := by
  cases q with
  | probe p | list p | read p | contents p =>
    simp only [perform, bind, Except.bind] at h
    split at h
    · cases h
    · split at h
      all_goals
        cases h
        try rfl
  | write | makeDirectory | removeFile | removeDirectory | rename => exact hq.elim

/-- A look leaves the disk as it is. -/
theorem handler_look {q : Request} (hq : q.Looks) (d : Disk) : (handler q d).2 = d := by
  simp only [handler]
  split
  · next h => exact perform_look hq h
  · rfl

/-- A look moves no file. -/
theorem Request.Looks.moves {q : Request} (hq : q.Looks) : q.moves = false := by
  cases q with
  | rename => exact hq.elim
  | _ => rfl

section Found

variable {p : Path} {place : List String} {e : Entry} {content : Bytes}

/-- Probing a path that leads to something tells its kind. -/
theorem handler_probe (hplace : d.locate p = .ok place) (he : d.at? place = some e) :
    (handler (.probe p) d).1 = .ok e.kind := by
  simp only [handler, perform, hplace, bind, Except.bind, he]
  rfl

/-- Reading a path that leads to a file gives its content. -/
theorem handler_read (hplace : d.locate p = .ok place)
    (he : d.at? place = some (.file content)) : (handler (.read p) d).1 = .ok content := by
  simp only [handler, perform, hplace, bind, Except.bind, he]
  rfl

/-- What is read stands in a file at the place of the path. -/
theorem exists_place_of_handler_read (h : (handler (.read p) d).1 = .ok content) :
    ∃ place, d.locate p = .ok place ∧ d.at? place = some (.file content) := by
  simp only [handler, perform, bind, Except.bind] at h
  cases hplace : d.locate p with
  | error kind =>
    rw [hplace] at h
    cases h
  | ok place =>
    refine ⟨place, rfl, ?_⟩
    rw [hplace] at h
    dsimp only at h
    cases he : d.at? place with
    | none =>
      rw [he] at h
      cases h
    | some e =>
      rw [he] at h
      cases e with
      | directory => cases h
      | file found =>
        cases h
        rfl

/-- Listing a path that leads to a directory gives the names in it. -/
theorem handler_list (hplace : d.locate p = .ok place) (he : d.at? place = some .directory) :
    (handler (.list p) d).1 = .ok (d.childNames place) := by
  simp only [handler, perform, hplace, bind, Except.bind, he]
  rfl

/-- What is listed stands in the directory at the place of the path. -/
theorem exists_place_of_handler_list {names : List String}
    (h : (handler (.list p) d).1 = .ok names) :
    ∃ place, d.locate p = .ok place ∧ names = d.childNames place := by
  simp only [handler, perform, bind, Except.bind] at h
  cases hplace : d.locate p with
  | error kind =>
    rw [hplace] at h
    cases h
  | ok place =>
    refine ⟨place, rfl, ?_⟩
    rw [hplace] at h
    dsimp only at h
    cases he : d.at? place with
    | none =>
      rw [he] at h
      cases h
    | some e =>
      rw [he] at h
      cases e with
      | directory =>
        cases h
        rfl
      | file found => cases h

/-- What is below a path that leads to a directory is found. -/
theorem handler_contents (hplace : d.locate p = .ok place)
    (he : d.at? place = some .directory) : (handler (.contents p) d).1 = .ok (d.below place) := by
  simp only [handler, perform, hplace, bind, Except.bind, he]
  rfl

end Found

/-- A file is written where there is no directory. -/
private theorem handler_write (role : Role) (p : Path) (content : Bytes) (d : Disk) :
    (∃ place, d.locate p = .ok place ∧ d.at? place ≠ some .directory ∧
      handler (.write role p content) d = (.ok (), d.put place (.file content))) ∨
    ((∀ place, d.locate p = .ok place → d.at? place = some .directory) ∧
      ∃ e, handler (.write role p content) d = (.error e, d)) := by
  cases hl : d.locate p with
  | error kind =>
    refine .inr ⟨by simp, .disk ⟨kind, p, none⟩, ?_⟩
    simp only [handler, perform, hl]
    rfl
  | ok place =>
    rcases hat : d.at? place with _ | ⟨c⟩ | _
    · refine .inl ⟨place, rfl, by simp [hat], ?_⟩
      simp only [handler, perform, hl, bind, Except.bind, hat]
      rfl
    · refine .inl ⟨place, rfl, by simp [hat], ?_⟩
      simp only [handler, perform, hl, bind, Except.bind, hat]
      rfl
    · refine .inr ⟨by simp [hat], .disk ⟨.isDirectory, p, none⟩, ?_⟩
      simp only [handler, perform, hl, bind, Except.bind, hat]
      rfl

/-- A directory is made where there is nothing. -/
private theorem handler_makeDirectory (p : Path) (d : Disk) :
    (∃ place, d.locate p = .ok place ∧ d.at? place = none ∧
      handler (.makeDirectory p) d = (.ok (), d.put place .directory)) ∨
    (∃ kind, handler (.makeDirectory p) d = (.error (.disk ⟨kind, p, none⟩), d) ∧
      (d.locate p = .error kind ∨
        kind = .exists ∧ ∃ place, d.locate p = .ok place ∧ d.at? place ≠ none)) := by
  cases hl : d.locate p with
  | error kind =>
    refine .inr ⟨kind, ?_, .inl rfl⟩
    simp only [handler, perform, hl]
    rfl
  | ok place =>
    cases hat : d.at? place with
    | none =>
      refine .inl ⟨place, rfl, hat, ?_⟩
      simp only [handler, perform, hl, bind, Except.bind, hat]
      rfl
    | some e =>
      refine .inr ⟨.exists, ?_, .inr ⟨rfl, place, rfl, by simp [hat]⟩⟩
      simp only [handler, perform, hl, bind, Except.bind, hat]
      rfl

/-- A file is removed where there is one. -/
private theorem handler_removeFile (p : Path) (d : Disk) :
    (∃ place content, d.locate p = .ok place ∧ d.at? place = some (.file content) ∧
      handler (.removeFile p) d = (.ok (), d.clear place)) ∨
    ((∀ place content, d.locate p = .ok place → d.at? place ≠ some (.file content)) ∧
      ∃ e, handler (.removeFile p) d = (.error e, d)) := by
  cases hl : d.locate p with
  | error kind =>
    refine .inr ⟨by simp, .disk ⟨kind, p, none⟩, ?_⟩
    simp only [handler, perform, hl]
    rfl
  | ok place =>
    rcases hat : d.at? place with _ | ⟨c⟩ | _
    · refine .inr ⟨by rintro _ _ ⟨⟩; simp [hat], .disk ⟨.noEntry, p, none⟩, ?_⟩
      simp only [handler, perform, hl, bind, Except.bind, hat]
      rfl
    · refine .inl ⟨place, c, rfl, hat, ?_⟩
      simp only [handler, perform, hl, bind, Except.bind, hat]
      rfl
    · refine .inr ⟨by rintro _ _ ⟨⟩; simp [hat], .disk ⟨.isDirectory, p, none⟩, ?_⟩
      simp only [handler, perform, hl, bind, Except.bind, hat]
      rfl

/-- A directory is removed where there is one with nothing in it. -/
private theorem handler_removeDirectory (p : Path) (d : Disk) :
    (∃ place, d.locate p = .ok place ∧ d.at? place = some .directory ∧
      (∀ n, d.at? (place ++ [n]) = none) ∧
      handler (.removeDirectory p) d = (.ok (), d.clear place)) ∨
    ((∀ place, d.locate p = .ok place → d.at? place = some .directory →
        ∃ n, d.at? (place ++ [n]) ≠ none) ∧
      ∃ e, handler (.removeDirectory p) d = (.error e, d)) := by
  cases hl : d.locate p with
  | error kind =>
    refine .inr ⟨by simp, .disk ⟨kind, p, none⟩, ?_⟩
    simp only [handler, perform, hl]
    rfl
  | ok place =>
    rcases hat : d.at? place with _ | ⟨c⟩ | _
    · refine .inr ⟨by simp [hat], .disk ⟨.noEntry, p, none⟩, ?_⟩
      simp only [handler, perform, hl, bind, Except.bind, hat]
      rfl
    · refine .inr ⟨by simp [hat], .disk ⟨.notDirectory, p, none⟩, ?_⟩
      simp only [handler, perform, hl, bind, Except.bind, hat]
      rfl
    · cases hnames : d.childNames place with
      | nil =>
        refine .inl ⟨place, rfl, hat, ?_, ?_⟩
        · intro n
          by_contra hne
          have hmem := mem_childNames.mpr hne
          simp [hnames] at hmem
        · simp only [handler, perform, hl, bind, Except.bind, hat, hnames]
          rfl
      | cons n names =>
        refine .inr ⟨?_, .disk ⟨.notEmpty, p, none⟩, ?_⟩
        · intro place' hplace' _
          cases hplace'
          exact ⟨n, mem_childNames.mp (by simp [hnames])⟩
        · simp only [handler, perform, hl, bind, Except.bind, hat, hnames]
          rfl

/-- A file is moved where there is no directory. -/
private theorem handler_rename (source target : Path) (d : Disk) :
    (∃ src content dst, d.locate source = .ok src ∧ d.at? src = some (.file content) ∧
      d.locate target = .ok dst ∧ d.at? dst ≠ some .directory ∧
      handler (.rename source target) d = (.ok (), (d.clear src).put dst (.file content))) ∨
    ((∀ src content dst, d.locate source = .ok src → d.at? src = some (.file content) →
        d.locate target = .ok dst → d.at? dst = some .directory) ∧
      ∃ e, handler (.rename source target) d = (.error e, d)) := by
  cases hs : d.locate source with
  | error kind =>
    refine .inr ⟨by simp, .disk ⟨kind, source, some target⟩, ?_⟩
    simp only [handler, perform, hs]
    rfl
  | ok src =>
    rcases hsrc : d.at? src with _ | ⟨c⟩ | _
    · refine .inr ⟨by rintro _ _ _ ⟨⟩; simp [hsrc], .disk ⟨.noEntry, source, some target⟩, ?_⟩
      simp only [handler, perform, hs, bind, Except.bind, hsrc]
      rfl
    · cases ht : d.locate target with
      | error kind =>
        refine .inr ⟨by simp, .disk ⟨kind, source, some target⟩, ?_⟩
        simp only [handler, perform, hs, ht, bind, Except.bind, hsrc]
        rfl
      | ok dst =>
        rcases hdst : d.at? dst with _ | ⟨c'⟩ | _
        · refine .inl ⟨src, c, dst, rfl, hsrc, rfl, by simp [hdst], ?_⟩
          simp only [handler, perform, hs, ht, bind, Except.bind, hsrc, hdst]
          rfl
        · refine .inl ⟨src, c, dst, rfl, hsrc, rfl, by simp [hdst], ?_⟩
          simp only [handler, perform, hs, ht, bind, Except.bind, hsrc, hdst]
          rfl
        · refine .inr ⟨?_, .disk ⟨.isDirectory, source, some target⟩, ?_⟩
          · intro src' content dst' _ _ hdst'
            cases hdst'
            exact hdst
          · simp only [handler, perform, hs, ht, bind, Except.bind, hsrc, hdst]
            rfl
    · refine .inr ⟨by rintro _ _ _ ⟨⟩; simp [hsrc], .disk ⟨.isDirectory, source, some target⟩, ?_⟩
      simp only [handler, perform, hs, bind, Except.bind, hsrc]
      rfl

/-! ## What can come of a request -/

/-- A look changes nothing, and if it does not tell what is there, the surroundings are to blame. -/
theorem service_look {q : Request} {r : Except Failure q.Result} (hq : q.Looks)
    (h : service F q w r w') :
    w' = w ∧ (r = (handler q w.disk).1 ∨
      F ∧ ∃ kind report, r = .error (.external kind report)) := by
  rcases h with ⟨hr, hw'⟩ | ⟨hF, e, d', hbroken, hr, hw'⟩
  · rw [handler_look hq, hq.moves, Bool.false_and, Bool.or_false] at hw'
    exact ⟨hw', .inl hr⟩
  · cases hbroken with
    | look kind report => exact ⟨hw', .inr ⟨hF, kind, report, hr⟩⟩
    | refused change => exact absurd hq change
    | torn => exact hq.elim

/-- A write replaces a file, perhaps in part only, or changes nothing. -/
theorem service_write {role : Role} {p : Path} {content : Bytes} {r : Except Failure Unit}
    (h : service F (.write role p content) w r w') :
    (∃ place part, w.disk.locate p = .ok place ∧ w.disk.at? place ≠ some .directory ∧
      w' = ⟨w.disk.put place (.file part), w.moved⟩ ∧
      (r = .ok () ∧ part = content ∨ F ∧ ∃ e, r = .error e)) ∨
    (w' = w ∧ ∃ e, r = .error e ∧
      (F ∨ ∀ place, w.disk.locate p = .ok place → w.disk.at? place = some .directory)) := by
  rcases h with ⟨hr, hw'⟩ | ⟨hF, e, d', hbroken, hr, hw'⟩
  · simp only [Request.moves, Bool.false_and, Bool.or_false] at hw'
    rcases handler_write role p content w.disk with
      ⟨place, hl, hat, hdone⟩ | ⟨hdirectory, e, hrefused⟩
    · rw [hdone] at hr hw'
      exact .inl ⟨place, content, hl, hat, hw', .inl ⟨hr, rfl⟩⟩
    · rw [hrefused] at hr hw'
      exact .inr ⟨hw', e, hr, .inr hdirectory⟩
  · cases hbroken with
    | look | refused => exact .inr ⟨hw', _, hr, .inl hF⟩
    | torn _ hl hat => exact .inl ⟨_, _, hl, hat, hw', .inr ⟨hF, _, hr⟩⟩

/-- A directory is made, or nothing is changed. -/
theorem service_makeDirectory {p : Path} {r : Except Failure Unit}
    (h : service F (.makeDirectory p) w r w') :
    (∃ place, w.disk.locate p = .ok place ∧ w.disk.at? place = none ∧ r = .ok () ∧
      w' = ⟨w.disk.put place .directory, w.moved⟩) ∨
    (w' = w ∧ ∃ e, r = .error e ∧
      (F ∨ ∃ kind, e = .disk ⟨kind, p, none⟩ ∧ (w.disk.locate p = .error kind ∨
        kind = .exists ∧ ∃ place, w.disk.locate p = .ok place ∧ w.disk.at? place ≠ none))) := by
  rcases h with ⟨hr, hw'⟩ | ⟨hF, e, d', hbroken, hr, hw'⟩
  · simp only [Request.moves, Bool.false_and, Bool.or_false] at hw'
    rcases handler_makeDirectory p w.disk with ⟨place, hl, hat, hdone⟩ | ⟨kind, hrefused, hwhy⟩
    · rw [hdone] at hr hw'
      exact .inl ⟨place, hl, hat, hr, hw'⟩
    · rw [hrefused] at hr hw'
      exact .inr ⟨hw', _, hr, .inr ⟨kind, rfl, hwhy⟩⟩
  · cases hbroken with
    | look | refused => exact .inr ⟨hw', _, hr, .inl hF⟩

/-- A file is removed, or nothing is changed. -/
theorem service_removeFile {p : Path} {r : Except Failure Unit}
    (h : service F (.removeFile p) w r w') :
    (∃ place content, w.disk.locate p = .ok place ∧ w.disk.at? place = some (.file content) ∧
      r = .ok () ∧ w' = ⟨w.disk.clear place, w.moved⟩) ∨
    (w' = w ∧ ∃ e, r = .error e ∧
      (F ∨ ∀ place content, w.disk.locate p = .ok place →
        w.disk.at? place ≠ some (.file content))) := by
  rcases h with ⟨hr, hw'⟩ | ⟨hF, e, d', hbroken, hr, hw'⟩
  · simp only [Request.moves, Bool.false_and, Bool.or_false] at hw'
    rcases handler_removeFile p w.disk with ⟨place, c, hl, hat, hdone⟩ | ⟨hno, e, hrefused⟩
    · rw [hdone] at hr hw'
      exact .inl ⟨place, c, hl, hat, hr, hw'⟩
    · rw [hrefused] at hr hw'
      exact .inr ⟨hw', e, hr, .inr hno⟩
  · cases hbroken with
    | look | refused => exact .inr ⟨hw', _, hr, .inl hF⟩

/-- An empty directory is removed, or nothing is changed. -/
theorem service_removeDirectory {p : Path} {r : Except Failure Unit}
    (h : service F (.removeDirectory p) w r w') :
    (∃ place, w.disk.locate p = .ok place ∧ w.disk.at? place = some .directory ∧
      (∀ n, w.disk.at? (place ++ [n]) = none) ∧ r = .ok () ∧
      w' = ⟨w.disk.clear place, w.moved⟩) ∨
    (w' = w ∧ ∃ e, r = .error e ∧
      (F ∨ ∀ place, w.disk.locate p = .ok place → w.disk.at? place = some .directory →
        ∃ n, w.disk.at? (place ++ [n]) ≠ none)) := by
  rcases h with ⟨hr, hw'⟩ | ⟨hF, e, d', hbroken, hr, hw'⟩
  · simp only [Request.moves, Bool.false_and, Bool.or_false] at hw'
    rcases handler_removeDirectory p w.disk with
      ⟨place, hl, hat, hempty, hdone⟩ | ⟨hno, e, hrefused⟩
    · rw [hdone] at hr hw'
      exact .inl ⟨place, hl, hat, hempty, hr, hw'⟩
    · rw [hrefused] at hr hw'
      exact .inr ⟨hw', e, hr, .inr hno⟩
  · cases hbroken with
    | look | refused => exact .inr ⟨hw', _, hr, .inl hF⟩

/-- A file is moved as a whole, or nothing is changed. -/
theorem service_rename {source target : Path} {r : Except Failure Unit}
    (h : service F (.rename source target) w r w') :
    (∃ src content dst, w.disk.locate source = .ok src ∧
      w.disk.at? src = some (.file content) ∧ w.disk.locate target = .ok dst ∧
      w.disk.at? dst ≠ some .directory ∧ r = .ok () ∧
      w' = ⟨(w.disk.clear src).put dst (.file content), true⟩) ∨
    (w' = w ∧ ∃ e, r = .error e ∧
      (F ∨ ∀ src content dst, w.disk.locate source = .ok src →
        w.disk.at? src = some (.file content) → w.disk.locate target = .ok dst →
        w.disk.at? dst = some .directory)) := by
  rcases h with ⟨hr, hw'⟩ | ⟨hF, e, d', hbroken, hr, hw'⟩
  · rcases handler_rename source target w.disk with
      ⟨src, c, dst, hs, hsrc, ht, hdst, hdone⟩ | ⟨hno, e, hrefused⟩
    · rw [hdone] at hr hw'
      subst hr
      simp only [Request.moves, Except.isOk, Except.toBool, Bool.and_self, Bool.or_true] at hw'
      exact .inl ⟨src, c, dst, hs, hsrc, ht, hdst, rfl, hw'⟩
    · rw [hrefused] at hr hw'
      subst hr
      simp only [Except.isOk, Except.toBool, Bool.and_false, Bool.or_false] at hw'
      exact .inr ⟨hw', e, rfl, .inr hno⟩
  · cases hbroken with
    | look | refused => exact .inr ⟨hw', _, hr, .inl hF⟩

/-! ## Actions -/

variable {α : Type} {C : Watch → Prop}

/-- Watching a disk changes nothing. -/
theorem run_watchHandler (p : Program interface α) (w : Watch) :
    (p.run watchHandler w).1 = (p.run handler w.disk).1 ∧
      (p.run watchHandler w).2.disk = (p.run handler w.disk).2 := by
  induction p generalizing w with
  | done a => exact ⟨rfl, rfl⟩
  | ask q resume ih => exact ih _ _

/-- A disk that never breaks down is among those that may. -/
theorem runs_watchHandler (p : Program interface α) (w : Watch) :
    p.Runs (service F) w (some (p.run watchHandler w).1) (p.run watchHandler w).2 := by
  induction p generalizing w with
  | done a => exact .done a w
  | ask q resume ih => exact .asked (service_watchHandler q w) (ih _ _)

/-- What always comes of a program comes of it on a disk that works. -/
theorem run_of_always {Q : α → Watch → Prop} {p : Program interface α} {a : α}
    (hp : p.Always (service F) C Q w) (hrun : p.run watchHandler w = (a, w')) : C w' ∧ Q a w' := by
  have hruns := runs_watchHandler (F := F) p w
  rw [hrun] at hruns
  obtain ⟨hC, hQ⟩ := hp.of_runs hruns
  exact ⟨hC, hQ a rfl⟩

/-- A watched run is a run. -/
theorem runWith_of_watch {a : Action interface α} {r : Except Failure α}
    (hrun : Program.run watchHandler a.run ⟨d, false⟩ = (r, w')) :
    Action.runWith handler a d = (r, w'.disk) := by
  obtain ⟨hresult, hdisk⟩ := run_watchHandler a.run ⟨d, false⟩
  rw [hrun] at hresult hdisk
  exact Prod.ext hresult.symm hdisk.symm

/-- What always comes of an action is what comes of it on a disk that works. -/
theorem exists_runWith_eq {a : Action interface α} {Q : α → Watch → Prop}
    {E : Failure → Watch → Prop} (ha : Action.Always (service False) C a Q E ⟨d, false⟩) :
    ∃ r w', Action.runWith handler a d = (r, w'.disk) ∧ C w' ∧ Action.Ends Q E r w' := by
  cases hrun : Program.run watchHandler a.run ⟨d, false⟩ with
  | mk r w' => exact ⟨r, w', runWith_of_watch hrun, run_of_always ha.run hrun⟩

/-- What always comes of an action comes of it on a disk that works. -/
theorem runWith_eq_of_always {a : Action interface α} {r : Except Failure α} {d' : Disk}
    (ha : Action.Always (service False) C a (fun x w' => .ok x = r ∧ w'.disk = d')
      (fun e w' => .error e = r ∧ w'.disk = d') ⟨d, false⟩) :
    Action.runWith handler a d = (r, d') := by
  obtain ⟨x, w', hrun, -, hends⟩ := exists_runWith_eq ha
  rw [hrun]
  cases x with
  | ok x => exact Prod.ext hends.1 hends.2
  | error e => exact Prod.ext hends.1 hends.2

/-- A request as an action does what the disk does. -/
theorem always_ask {q : Request} {Q : q.Result → Watch → Prop} {E : Failure → Watch → Prop}
    (hC : C w) (hanswer : ∀ (r : Except Failure q.Result) w', service F q w r w' →
      C w' ∧ Action.Ends Q E r w') : Action.Always (service F) C (ask q) Q E w :=
  ⟨hC, hanswer⟩

/-- A look as an action tells what is there. -/
theorem always_look {q : Request} (hq : q.Looks) {Q : q.Result → Watch → Prop}
    {E : Failure → Watch → Prop} (hC : C w) (hserved : Action.Ends Q E (handler q w.disk).1 w)
    (hbroken : F → ∀ kind report, E (.external kind report) w) :
    Action.Always (service F) C (ask q) Q E w := by
  refine always_ask hC ?_
  intro r w' h
  obtain ⟨rfl, rfl | ⟨hF, kind, report, rfl⟩⟩ := service_look hq h
  · exact ⟨hC, hserved⟩
  · exact ⟨hC, hbroken hF kind report⟩

end Disk

end CertKeeper
