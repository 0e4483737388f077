import Mathlib.Data.List.Basic
import CertKeeper.Proofs.SharedStore

/-!
# What a restart changes

Where nobody else uses the store, a restart removes the instances whose names its report lists, all
of them from the namespace of the executing instance, and changes nothing else
(`Serves.runWith_restart`).
-/

namespace CertKeeper

open CertKeeper.Action Reconciler

namespace MemoryStore

/-- A store without the instances that have some names in a namespace. -/
def without (s : MemoryStore) (space : String) (names : List String) : MemoryStore :=
  { s with instances := names.foldl (fun m name => m.erase ⟨space, name⟩) s.instances }

@[simp] theorem without_nil (s : MemoryStore) (space : String) : s.without space [] = s := rfl

/-- Removing instances of one namespace and then more removes all of them. -/
theorem without_without (s : MemoryStore) (space : String) (names names' : List String) :
    (s.without space names).without space names' = s.without space (names ++ names') := by
  simp [without]

@[simp] theorem records_without (s : MemoryStore) (space : String) (names : List String) :
    (s.without space names).records = s.records := rfl

/-- The namespace of the executing instance: the one that the instance is in, if there is one. -/
def groupSpace (s : MemoryStore) (self : Identity) : String :=
  ((s.instances.get? self).map fun i => i.id.space).getD self.space

/-- Every instance that is listed is in the namespace that is asked for. -/
theorem space_of_mem_listInstances {s : MemoryStore} {space : String} {labels : Labels}
    {i : Instance} (h : i ∈ s.listInstances space labels) : i.id.space = space := by
  rw [listInstances, List.mem_mergeSort, List.mem_filter] at h
  simp only [Bool.and_eq_true, decide_eq_true_eq] at h
  exact h.2.1

end MemoryStore

namespace Serves

variable {σ : Type} {h : Handler World σ} {view : σ → MemoryStore} {w w' : σ}

/-- A request that fails or does not write leaves the store as it is. -/
theorem view_of_error (hs : ServesAlone h view) (q : Store.Request) (w : σ) :
    ((∃ e, (h (.inl q) w).1 = .error e) ∧ view (h (.inl q) w).2 = view w) ∨
      (h (.inl q) w).1 = (MemoryStore.handler q (view w)).1 ∧
        view (h (.inl q) w).2 = (MemoryStore.handler q (view w)).2 := by
  obtain ⟨s, rfl, hr⟩ := hs.request q w
  exact hr

/-- Looking for an instance changes nothing, and what is found is there. -/
theorem getInstance_of_answer (hs : ServesAlone h view) {id : Identity}
    {res : Except Failure Instance} (hq : h (.inl (.getInstance id)) w = (res, w')) :
    view w' = view w ∧ ∀ i, res = .ok i → (view w).instances.get? id = some i := by
  have hanswer := view_of_error hs (.getInstance id) w
  rw [hq] at hanswer
  obtain ⟨⟨e, he⟩, hv⟩ | ⟨he, hv⟩ := hanswer
  · refine ⟨hv, ?_⟩
    rintro i rfl
    cases he
  · refine ⟨hv, ?_⟩
    rintro i rfl
    simp only [MemoryStore.handler, MemoryStore.getInstance] at he
    cases hget : (view w).instances.get? id with
    | none =>
      rw [hget] at he
      cases he
    | some i =>
      rw [hget] at he
      cases he
      rfl

/-- Listing instances changes nothing, and those that are there are listed. -/
theorem listInstances_of_answer (hs : ServesAlone h view) {space : String} {labels : Labels}
    {res : Except Failure (List Instance)}
    (hq : h (.inl (.listInstances space labels)) w = (res, w')) :
    view w' = view w ∧ ∀ l, res = .ok l → l = (view w).listInstances space labels := by
  have hanswer := view_of_error hs (.listInstances space labels) w
  rw [hq] at hanswer
  obtain ⟨⟨e, he⟩, hv⟩ | ⟨he, hv⟩ := hanswer
  · refine ⟨hv, ?_⟩
    rintro l rfl
    cases he
  · refine ⟨hv, ?_⟩
    rintro l rfl
    cases he
    rfl

/-- An attempt to remove an instance: it is gone if it was removed, or else nothing happened. -/
theorem view_deleteInstance (hs : ServesAlone h view) {i : Instance} {answer : Except Failure Unit}
    (hq : h (.inl (.deleteInstance i.id)) w = (answer, w')) :
    view w' = (view w).without i.id.space (Restart.Attempt.removed? ⟨i, answer⟩).toList := by
  have hanswer := view_of_error hs (.deleteInstance i.id) w
  rw [hq] at hanswer
  cases answer with
  | error cause =>
    obtain ⟨_, hv⟩ | ⟨he, hv⟩ := hanswer
    · exact hv
    · simp only [MemoryStore.handler, MemoryStore.deleteInstance] at he hv
      split at he
      · cases he
      · next hno =>
        rw [hv, if_neg hno]
        rfl
  | ok =>
    obtain ⟨⟨_, he⟩, _⟩ | ⟨he, hv⟩ := hanswer
    · cases he
    · simp only [MemoryStore.handler, MemoryStore.deleteInstance] at he hv
      split at he
      · next hyes =>
        rw [hv, if_pos hyes]
        rfl
      · cases he

/-- Attempts to remove instances of one namespace remove those whose removal is answered so. -/
private theorem view_attempts (hs : ServesAlone h view) {space : String} {l : List Instance}
    (hl : ∀ i ∈ l, i.id.space = space) {tried : List Restart.Attempt}
    (htried : Restart.attempts (World.storeOf h) l w = (tried, w')) :
    view w' = (view w).without space (tried.filterMap Restart.Attempt.removed?) := by
  induction l generalizing w tried with
  | nil =>
    cases htried
    rfl
  | cons i rest ih =>
    rcases hq : h (.inl (.deleteInstance i.id)) w with ⟨answer, w₁⟩
    rcases hrest : Restart.attempts (World.storeOf h) rest w₁ with ⟨later, w₂⟩
    have hstep : Restart.attempts (World.storeOf h) (i :: rest) w = (⟨i, answer⟩ :: later, w₂) := by
      have hq' : World.storeOf h (.deleteInstance i.id) w = (answer, w₁) := hq
      rw [Restart.attempts, hq']
      dsimp only
      rw [hrest]
    cases hstep.symm.trans htried
    rw [ih (fun j hj => hl j (List.mem_cons_of_mem _ hj)) hrest, view_deleteInstance hs hq,
      hl i List.mem_cons_self, MemoryStore.without_without, List.filterMap_eq_flatMap_toList,
      List.filterMap_eq_flatMap_toList, List.flatMap_cons]

/-- However a restart goes, it removes the instances that its report lists and changes nothing
else. -/
theorem view_of_course (hs : ServesAlone h view) {self : Identity} {report : RestartReport}
    (hcourse : Restart.Course (World.storeOf h) self w report w') :
    view w' = (view w).without ((view w).groupSpace self) report.terminated := by
  cases hcourse with
  | noLeader found => exact (getInstance_of_answer hs found).1
  | noGroup found listed =>
    exact (listInstances_of_answer hs listed).1.trans (getInstance_of_answer hs found).1
  | @attempted leader group tried answer w₁ w₂ w₃ _ found listed others last =>
    obtain ⟨hv₁, hfound⟩ := getInstance_of_answer hs found
    obtain ⟨hv₂, hgroup⟩ := listInstances_of_answer hs listed
    cases hgroup group rfl
    have hspace : (view w).groupSpace self = leader.id.space := by
      rw [MemoryStore.groupSpace, hfound leader rfl]
      rfl
    rw [hspace, view_deleteInstance hs last, view_attempts hs
      (fun i hi => MemoryStore.space_of_mem_listInstances (List.mem_filter.mp hi).1) others,
      hv₂, hv₁, MemoryStore.without_without]
    apply congrArg
    simp only [RestartReport.add, RestartReport.start, List.nil_append,
      List.filterMap_eq_flatMap_toList, List.flatMap_append, List.flatMap_singleton]

/-- A restart that returns a report has removed the instances that the report names from the group's
space and changed nothing else. -/
theorem runWith_restart (hs : ServesAlone h view) {self : Identity} {report : RestartReport}
    (hrun : runWith (World.storeOf h) (Restart.restart self) w = (.ok report, w')) :
    view w' = (view w).without ((view w).groupSpace self) report.terminated := by
  obtain ⟨_, _, hrun', hcourse⟩ := Restart.course_of_restart (World.storeOf h) self w
  cases hrun'.symm.trans hrun
  exact view_of_course hs hcourse

end Serves

end CertKeeper
