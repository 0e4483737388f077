import CertKeeper.Proofs.StoreSessions

/-!
# The area of a store

What calls change on a disk lies below the directory of the records or that of the instances, as
long as no name in them leads up, and whatever is on the disk and however it breaks down
(`DirectoryStore.session_confined`).
-/

namespace CertKeeper

open Disk (Watch Stands Keeps Entry service)
open CertKeeper.Action (Always)

namespace DirectoryStore

variable {s : DirectoryStore} {base : Disk.Path} {B : List String} {d d' d₀ d₁ d₂ : Disk}
variable {w w' : Watch} {F : Prop} {id : Identity} {i : Instance} {change : Mutation}
variable {area : String} {A A' : String → Prop}

/-! ## Areas -/

/-- All changes lie strictly below certain directories in the base directory, but for these
directories themselves, which may have been made. -/
def Confined (B : List String) (A : String → Prop) (d d' : Disk) : Prop :=
  ∀ place, d'.at? place = d.at? place ∨
    (∃ area n names, A area ∧ place = B ++ area :: n :: names) ∨
    ∃ area, A area ∧ place = B ++ [area] ∧ d.at? place = none ∧ d'.at? place = some .directory

/-- No change is confined to any area. -/
theorem Confined.refl (B : List String) (A : String → Prop) (d : Disk) : Confined B A d d :=
  fun _ => .inl rfl

/-- Changes one after the other are confined to an area if both are. -/
theorem Confined.trans (h₁ : Confined B A d₀ d₁) (h₂ : Confined B A d₁ d₂) :
    Confined B A d₀ d₂ := by
  intro place
  rcases h₂ place with hsame | hbelow | ⟨area, harea, rfl, hnone, hmade⟩
  · rw [hsame]
    exact h₁ place
  · exact .inr (.inl hbelow)
  · rcases h₁ (B ++ [area]) with hsame | hbelow | ⟨_, -, -, -, hmade'⟩
    · exact .inr (.inr ⟨area, harea, rfl, hsame ▸ hnone, hmade⟩)
    · exact .inr (.inl hbelow)
    · rw [hnone] at hmade'
      cases hmade'

/-- Changes confined to an area are confined to every larger one. -/
theorem Confined.mono (hA : ∀ area, A area → A' area) (h : Confined B A d d') :
    Confined B A' d d' := by
  intro place
  rcases h place with hsame | ⟨area, n, names, harea, hplace⟩ | ⟨area, harea, hrest⟩
  · exact .inl hsame
  · exact .inr (.inl ⟨area, n, names, hA area harea, hplace⟩)
  · exact .inr (.inr ⟨area, hA area harea, hrest⟩)

/-- Changes inside a base directory that all lie in an area. -/
theorem confined_of_keeps {R : List String → Option Entry → Prop} {way : List String}
    (h : Keeps base B R (area :: way) d d')
    (hR : ∀ names v, R names v → ∃ n rest, names = area :: n :: rest) :
    Confined B (· = area) d d' := by
  intro place
  by_cases hplace : ∃ n names, place = B ++ n :: names
  · obtain ⟨n, names, rfl⟩ := hplace
    rcases h.inside (n :: names) with hsame | hallowed | ⟨hway, hnone, hmade⟩
    · exact .inl hsame
    · obtain ⟨m, rest, heq⟩ := hR _ _ hallowed
      rw [heq]
      exact .inr (.inl ⟨area, m, rest, rfl, rfl⟩)
    · obtain ⟨rfl, -⟩ := List.cons_prefix_cons.mp hway
      cases names with
      | nil => exact .inr (.inr ⟨n, rfl, rfl, hnone, hmade⟩)
      | cons m rest => exact .inr (.inl ⟨n, m, rest, rfl, rfl⟩)
  · exact .inl (h.outside place fun n names heq => hplace ⟨n, names, heq⟩)

/-! ## Single calls -/

/-- An upsert on any disk changes at most what is in the directory of the record. -/
private theorem always_upsert_keeps (h : Stands s.base B w.disk) (hspace : id.space ≠ "..")
    (hname : id.name ≠ "..") (change : Mutation) :
    Always (service F)
      (fun w' => Keeps s.base B (RecordRegion (recordNames id)) (recordNames id) w.disk w'.disk)
      (s.upsert id change) (fun _ _ => True) (fun _ _ => True) w := by
  have hsteps := isStep_of_mem_recordNames hspace hname
  have hwrite (data : Fields) (version : Int) (o : Outcome) :
      Always (service F)
        (fun w' => Keeps s.base B (RecordRegion (recordNames id)) (recordNames id) w.disk w'.disk)
        (do
          s.writeRecord ⟨id, data, version⟩
          return o)
        (fun _ _ => True) (fun _ _ => True) w := by
    refine Always.bind ((always_writeRecord (r := ⟨id, data, version⟩) h hsteps).mono
      (fun _ hprogress => hprogress.keeps) ?_ fun _ _ _ _ => trivial)
    exact fun _ _ hprogress _ => Always.pure hprogress.keeps trivial
  unfold upsert
  refine Always.bind ((Disk.always_of_looks (s.looks_readRecord? id) h.keeps).mono (fun _ h => h)
    ?_ fun _ _ _ _ => trivial)
  rintro x _ - rfl
  rcases x with _ | ⟨r, alien⟩
  · refine Always.bind (?_ : Always _ _ (ExceptT.mk (Pure.pure (change .empty))) _ _ _)
    cases change .empty with
    | error e => exact Always.throw h.keeps trivial
    | ok data => exact Always.pure h.keeps (hwrite data 1 .created)
  · refine Always.bind (?_ : Always _ _ (ExceptT.mk (Pure.pure (change r.data))) _ _ _)
    cases change r.data with
    | error e => exact Always.throw h.keeps trivial
    | ok data =>
      refine Always.pure h.keeps ?_
      dsimp only
      split
      · exact Always.pure h.keeps trivial
      · split
        · exact Always.bind (Always.throw h.keeps trivial)
        · exact hwrite data (r.version + 1) .updated

/-- A call in which no name that becomes a part of a path leads up. The last part of the path of a
manifest has an ending, so that it never does. -/
def Call.StaysInside : Call → Prop
  | .request (.upsert id _) => id.space ≠ ".." ∧ id.name ≠ ".."
  | .request (.deleteInstance id) => id.space ≠ ".."
  | .register i => i.id.space ≠ ".."
  | _ => True

/-- The directory below which a call makes its changes. -/
def Call.area? : Call → Option String
  | .request (.upsert _ _) => some "records"
  | .request (.deleteInstance _) => some "instances"
  | .register _ => some "instances"
  | _ => none

private theorem exists_cons_append {first : String} {names : List String} (n : String)
    (rest : List String) : ∃ m more, first :: names ++ n :: rest = first :: m :: more := by
  cases names with
  | nil => exact ⟨n, rest, rfl⟩
  | cons m names => exact ⟨m, names ++ n :: rest, rfl⟩

/-- At every moment of a call that stays inside all changes lie in its area. -/
private theorem always_call {c : Call} (h : Stands s.base B w.disk) (hc : c.StaysInside) :
    Always (service F)
      (fun w' => Stands s.base B w'.disk ∧
        Confined B (fun area => c.area? = some area) w.disk w'.disk)
      (c.action s) (fun _ _ => True) (fun _ _ => True) w := by
  have hlook {α : Type} {a : DiskAction α} (ha : Looks a) :
      Always (service F)
        (fun w' => Stands s.base B w'.disk ∧
          Confined B (fun area => c.area? = some area) w.disk w'.disk)
        a (fun _ _ => True) (fun _ _ => True) w :=
    (Disk.always_of_looks ha ⟨h, .refl _ _ _⟩).mono (fun _ h => h) (fun _ _ _ _ => trivial)
      fun _ _ _ _ => trivial
  match c, hc with
  | .request (.getRecord id), _ => exact hlook (s.looks_getRecord id)
  | .request (.getInstance id), _ => exact hlook (s.looks_getInstance id)
  | .request (.listInstances space labels), _ => exact hlook (s.looks_listInstances space labels)
  | .request (.upsert id change), hid =>
    refine (always_upsert_keeps h hid.1 hid.2 change).mono (fun w' hkeeps => ?_)
      (fun _ _ _ _ => trivial) fun _ _ _ _ => trivial
    refine ⟨hkeeps.stands, (confined_of_keeps hkeeps ?_).mono fun _ heq => congrArg some heq.symm⟩
    rintro names v ⟨n, rest, rfl, -⟩
    exact exists_cons_append n rest
  | .request (.deleteInstance id), hid =>
    refine (always_deleteInstance h hid).mono (fun w' hkeeps => ?_) (fun _ _ _ _ => trivial)
      fun _ _ _ _ => trivial
    have hway := hkeeps.toKeeps.mono (fun _ _ hR => hR) (List.nil_prefix (l := ["instances"]))
    refine ⟨hkeeps.stands, (confined_of_keeps hway ?_).mono fun _ heq => congrArg some heq.symm⟩
    rintro names v ⟨⟨rest, rfl⟩, -⟩
    rw [instanceNames, List.append_assoc]
    exact exists_cons_append (manifestName id.name) rest
  | .register i, hi =>
    refine (always_addInstance h hi).mono (fun w' hkeeps => ?_) (fun _ _ _ _ => trivial)
      fun _ _ _ _ => trivial
    refine ⟨hkeeps.stands, (confined_of_keeps hkeeps.toKeeps ?_).mono fun _ heq =>
      congrArg some heq.symm⟩
    rintro names v ⟨rfl, -⟩
    exact exists_cons_append (manifestName i.id.name) []
  | .reopen, _ =>
    refine (Disk.always_makeBase h ⟨h, .refl _ _ _⟩).mono (fun _ h => h) (fun _ _ _ _ => trivial)
      fun _ _ _ _ => trivial

/-! ## Sessions -/

/-- At every moment of any calls that stay inside, on a disk that may break down at any of them, all
changes lie in the areas of the calls. -/
theorem session_confined (h : Stands s.base B d) (calls : List Call)
    (hcalls : ∀ c ∈ calls, c.StaysInside) {x : Option Unit}
    (hrun : (s.session calls).Runs (service F) ⟨d, false⟩ x w') :
    Confined B (fun area => ∃ c ∈ calls, c.area? = some area) d w'.disk := by
  suffices halways : ∀ w : Watch, Stands s.base B w.disk → (s.session calls).Always (service F)
      (fun w' => Stands s.base B w'.disk ∧
        Confined B (fun area => ∃ c ∈ calls, c.area? = some area) w.disk w'.disk)
      (fun _ _ => True) w from ((halways _ h).of_runs hrun).1.2
  clear hrun h
  induction calls with
  | nil => exact fun w h => ⟨⟨h, .refl _ _ _⟩, trivial⟩
  | cons c calls ih =>
    intro w h
    have hcall := (always_call (F := F) h (hcalls c List.mem_cons_self)).run
    refine Program.Always.bind (hcall.mono (fun w₁ h₁ => ?_) fun _ w₁ h₁ _ => ?_)
    · exact ⟨h₁.1, h₁.2.mono fun _ harea => ⟨c, List.mem_cons_self, harea⟩⟩
    · refine (ih (fun c hc => hcalls c (List.mem_cons_of_mem _ hc)) w₁ h₁.1).mono (fun w₂ h₂ => ?_)
        fun _ _ _ _ => trivial
      refine ⟨h₂.1, (h₁.2.mono fun _ harea => ⟨c, List.mem_cons_self, harea⟩).trans
        (h₂.2.mono ?_)⟩
      rintro area ⟨c', hc', harea⟩
      exact ⟨c', List.mem_cons_of_mem _ hc', harea⟩

/-- On a disk that works, too, all changes of calls that stay inside lie in their areas. -/
theorem run_session_confined (h : Stands s.base B d) (calls : List Call)
    (hcalls : ∀ c ∈ calls, c.StaysInside) :
    Confined B (fun area => ∃ c ∈ calls, c.area? = some area) d
      ((s.session calls).run Disk.handler d).2 := by
  rw [← (Disk.run_watchHandler (s.session calls) ⟨d, false⟩).2]
  exact session_confined (F := False) h calls hcalls (Disk.runs_watchHandler _ _)

/-- A disk with a file beside the base directory. -/
private def besides : Disk :=
  ⟨[], .ofList [(["var"], .directory), (["etc"], .directory), (["etc", "motd"], .file [7])]⟩

/-- Calls under odd names leave a file beside the base directory alone, also when they are cut
short. -/
theorem session_confined_besides :
    let s : DirectoryStore := ⟨⟨true, ["var"]⟩⟩
    let calls : List Call := [
      .request (.upsert ⟨".", "../a"⟩ fun data => .ok (data.set "f" [1])),
      .register ⟨⟨"", ".."⟩, .empty⟩]
    let w := ((s.session calls).runFor Disk.watchHandler 12 ⟨besides, false⟩).2
    w.disk.at? ["var", "records", ".._a", "meta.json"] ≠ none ∧
      w.disk.at? ["etc", "motd"] = some (.file [7]) := by
  intro s calls w
  have hsound : besides.Sound := .of_entries (by decide +kernel)
  have hstands : Stands s.base ["var"] besides :=
    hsound.stands_of_no_dots (by decide +kernel) (by decide +kernel) (by decide +kernel)
  have hcalls : ∀ c ∈ calls, c.StaysInside := by
    simp [calls, Call.StaysInside]
  have hconfined := session_confined (F := False) hstands calls hcalls
    (Program.runs_runFor Disk.service_watchHandler 12 _ _)
  refine ⟨by decide +kernel, ?_⟩
  rcases hconfined ["etc", "motd"] with hsame | ⟨area, n, names, -, heq⟩ | ⟨area, -, heq, -⟩
  · rw [hsame]
    decide +kernel
  · simp at heq
  · simp at heq

end DirectoryStore

end CertKeeper
