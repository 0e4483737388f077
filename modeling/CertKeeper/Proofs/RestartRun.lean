import CertKeeper.Proofs.Running

/-!
# The run of a restart

A restart reads the executing instance and lists its group, and then attempts to remove one instance
after another, the executing one last (`Restart.course_of_restart`). Its report is made up of what
the attempts came to.
-/

namespace CertKeeper

open CertKeeper.Action

namespace Restart

variable {σ : Type} {h : Handler Store σ} {w : σ}

/-- An attempt to remove an instance, and what the store answered. -/
structure Attempt where
  target : Instance
  answer : Except Failure Unit

namespace Attempt

/-- The name of the instance, if it was removed. -/
def removed? (a : Attempt) : Option String :=
  match a.answer with
  | .ok () => some a.target.id.name
  | .error _ => none

/-- What is reported of the instance, if it was not removed. -/
def failure? (a : Attempt) : Option RestartFailure :=
  match a.answer with
  | .ok () => none
  | .error cause => some ⟨a.target.id.name, cause⟩

end Attempt

/-- Attempts to remove instances, one after another. -/
def attempts (h : Handler Store σ) : List Instance → σ → List Attempt × σ
  | [], w => ([], w)
  | i :: rest, w =>
    let answered := h (.deleteInstance i.id) w
    let later := attempts h rest answered.2
    (⟨i, answered.1⟩ :: later.1, later.2)

/-- Every instance is attempted once and in its turn. -/
@[simp] theorem targets_attempts (h : Handler Store σ) (l : List Instance) (w : σ) :
    (attempts h l w).1.map Attempt.target = l := by
  induction l generalizing w with
  | nil => rfl
  | cons i rest ih => simp [attempts, ih]

end Restart

/-- A report to which attempts are added. -/
def RestartReport.add (report : RestartReport) (tried : List Restart.Attempt) : RestartReport :=
  { report with
    terminated := report.terminated ++ tried.filterMap Restart.Attempt.removed?
    failures := report.failures ++ tried.filterMap Restart.Attempt.failure? }

private theorem RestartReport.add_add (report : RestartReport)
    (tried later : List Restart.Attempt) :
    (report.add tried).add later = report.add (tried ++ later) := by
  simp [add]

/-- A removed instance is listed as such. -/
private theorem RestartReport.add_removed (report : RestartReport) (i : Instance) :
    report.add [⟨i, .ok ()⟩] =
      { report with terminated := report.terminated ++ [i.id.name] } := by
  simp [add, Restart.Attempt.removed?, Restart.Attempt.failure?]

/-- One that could not be removed is listed with the cause. -/
private theorem RestartReport.add_failed (report : RestartReport) (i : Instance) (cause : Failure) :
    report.add [⟨i, .error cause⟩] =
      { report with failures := report.failures ++ [⟨i.id.name, cause⟩] } := by
  simp [add, Restart.Attempt.removed?, Restart.Attempt.failure?]

namespace Restart

/-- Attempting to remove one instance. -/
theorem runWith_remove_eq (h : Handler Store σ) (report : RestartReport) (i : Instance) (w : σ) :
    runWith h (remove report i) w =
      match (h (.deleteInstance i.id) w : Except Failure Unit × σ) with
      | (answer, w') => (.ok (report.add [⟨i, answer⟩], answer.isOk), w') := by
  have hquestion : runWith h (Store.deleteInstance i.id) w = h (.deleteInstance i.id) w := rfl
  rw [remove, runWith_bind, runWith_outcome, hquestion]
  rcases h (.deleteInstance i.id) w with ⟨cause | _, w'⟩
  · exact congrArg (fun report => (Except.ok (report, false), w'))
      (RestartReport.add_failed report i cause).symm
  · exact congrArg (fun report => (Except.ok (report, true), w'))
      (RestartReport.add_removed report i).symm

/-- Attempting to remove several. -/
private theorem runWith_removeAll_eq (h : Handler Store σ) (report : RestartReport)
    (l : List Instance)
    (w : σ) :
    runWith h (removeAll report l) w =
      (.ok (report.add (attempts h l w).1), (attempts h l w).2) := by
  induction l generalizing report w with
  | nil => simp [removeAll, attempts, RestartReport.add]
  | cons i rest ih =>
    rw [removeAll, runWith_bind, runWith_remove_eq]
    dsimp only
    rw [ih, RestartReport.add_add]
    rfl

/-- The ways in which a restart goes: the executing instance is not found, its group is not listed,
or the instances of the group are attempted, the executing one last. -/
inductive Course (h : Handler Store σ) (self : Identity) (w : σ) : RestartReport → σ → Prop
  | noLeader {cause : Failure} {w' : σ} (found : h (.getInstance self) w = (.error cause, w')) :
      Course h self w (.skip ("leader instance " ++ Text.quote self.text ++ " not found")) w'
  | noGroup {leader : Instance} {cause : Failure} {w₁ w' : σ}
      (found : h (.getInstance self) w = (.ok leader, w₁))
      (listed : h (.listInstances leader.id.space leader.labels) w₁ = (.error cause, w')) :
      Course h self w (.skip ("cannot list instances: " ++ cause.message)) w'
  | attempted {leader : Instance} {group : List Instance} {tried : List Attempt}
      {answer : Except Failure Unit} {w₁ w₂ w₃ w' : σ}
      (found : h (.getInstance self) w = (.ok leader, w₁))
      (listed : h (.listInstances leader.id.space leader.labels) w₁ = (.ok group, w₂))
      (others : attempts h (group.filter fun i => i.id.name ≠ leader.id.name) w₂ = (tried, w₃))
      (last : h (.deleteInstance leader.id) w₃ = (answer, w')) :
      Course h self w
        { RestartReport.start.add (tried ++ [⟨leader, answer⟩]) with
          selfTerminated := answer.isOk } w'

/-- A restart that has found the executing instance and its group ends with a report of the
attempts. -/
theorem runWith_restart_of_group {self : Identity} {leader : Instance} {group : List Instance}
    {tried : List Attempt} {answer : Except Failure Unit} {w₁ w₂ w₃ w' : σ}
    (found : h (.getInstance self) w = (.ok leader, w₁))
    (listed : h (.listInstances leader.id.space leader.labels) w₁ = (.ok group, w₂))
    (others : attempts h (group.filter fun i => i.id.name ≠ leader.id.name) w₂ = (tried, w₃))
    (last : h (.deleteInstance leader.id) w₃ = (answer, w')) :
    runWith h (restart self) w =
      (.ok { RestartReport.start.add (tried ++ [⟨leader, answer⟩]) with
        selfTerminated := answer.isOk }, w') := by
  have hget : runWith h (Store.getInstance self) w = (.ok leader, w₁) := found
  have hlist : runWith h (Store.listInstances leader.id.space leader.labels) w₁ =
      (.ok group, w₂) := listed
  have hall := runWith_removeAll_eq h .start (group.filter fun i => i.id.name ≠ leader.id.name) w₂
  have hremove := runWith_remove_eq h (RestartReport.start.add tried) leader w₃
  rw [others] at hall
  rw [last] at hremove
  dsimp only at hremove
  rw [RestartReport.add_add] at hremove
  rw [restart, runWith_bind, runWith_outcome, hget]
  dsimp only
  rw [runWith_bind, runWith_outcome, hlist]
  exact runWith_bind_eq_ok.mpr ⟨_, _, hall, runWith_bind_eq_ok.mpr ⟨_, _, hremove, rfl⟩⟩

/-- Every restart ends with a report and takes one of the courses of a restart. -/
theorem course_of_restart (h : Handler Store σ) (self : Identity) (w : σ) :
    ∃ report w', runWith h (restart self) w = (.ok report, w') ∧ Course h self w report w' := by
  have hget : runWith h (Store.getInstance self) w = h (.getInstance self) w := rfl
  rcases hfound : h (.getInstance self) w with ⟨cause | leader, w₁⟩
  · rw [restart, runWith_bind, runWith_outcome, hget, hfound]
    exact ⟨_, _, rfl, .noLeader hfound⟩
  have hlist : runWith h (Store.listInstances leader.id.space leader.labels) w₁ =
      h (.listInstances leader.id.space leader.labels) w₁ := rfl
  rcases hlisted : h (.listInstances leader.id.space leader.labels) w₁ with ⟨cause | group, w₂⟩
  · rw [restart, runWith_bind, runWith_outcome, hget, hfound]
    dsimp only
    rw [runWith_bind, runWith_outcome, hlist, hlisted]
    exact ⟨_, _, rfl, .noGroup hfound hlisted⟩
  rcases hothers : attempts h (group.filter fun i => i.id.name ≠ leader.id.name) w₂ with ⟨tried, w₃⟩
  rcases hlast : h (.deleteInstance leader.id) w₃ with ⟨answer, w'⟩
  exact ⟨_, _, runWith_restart_of_group hfound hlisted hothers hlast,
    .attempted hfound hlisted hothers hlast⟩

end Restart

end CertKeeper
