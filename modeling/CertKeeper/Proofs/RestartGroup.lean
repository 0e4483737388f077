import CertKeeper.Proofs.Propagation
import CertKeeper.Proofs.RestartFrame

/-!
# Which instances a restart removes

Where nobody else uses the store and any request may fail without effect, a restart that finds the
executing instance and its group attempts every other member of the group once, in the order in
which they are listed, and then the executing instance, and nothing else; its report and what is
left in the store follow from the answers (`Serves.restart_group`).
-/

namespace CertKeeper

open CertKeeper.Action

/-! ## Groups -/

/-- An instance belongs to the group of another one: it is in the same namespace and carries all
labels of the other one with the same values. -/
def Instance.InGroupOf (i leader : Instance) : Prop :=
  i.id.space = leader.id.space ∧
    ∀ name value, leader.labels.get? name = some value → i.labels.get? name = some value

private theorem Instance.inGroupOf_self (i : Instance) : i.InGroupOf i := ⟨rfl, fun _ _ h => h⟩

namespace MemoryStore

variable {s : MemoryStore} {space : String} {labels : Labels} {leader i : Instance}

/-- Every instance is stored under its own identity. -/
def Keyed (s : MemoryStore) : Prop := ∀ id i, s.instances.get? id = some i → i.id = id

/-- The empty store holds no instance under another identity than its own. -/
theorem keyed_empty : Keyed empty := nofun

/-- Registering an instance keeps every instance under its own identity. -/
theorem Keyed.addInstance (hs : s.Keyed) (i : Instance) : (s.addInstance i).Keyed := by
  intro id j hj
  rw [MemoryStore.addInstance, Entries.get?_set] at hj
  split at hj
  · next hid =>
    cases hj
    exact hid
  · exact hs id j hj

/-- The instances of a namespace that carry the given labels are listed. -/
theorem mem_listInstances_iff (hs : s.Keyed) :
    i ∈ s.listInstances space labels ↔
      s.instances.get? i.id = some i ∧ i.id.space = space ∧ i.matches labels = true := by
  have hmem : i ∈ s.instances.values ↔ s.instances.get? i.id = some i := by
    rw [Entries.mem_values]
    constructor
    · rintro ⟨id, hid⟩
      exact hs id i hid ▸ hid
    · exact fun h => ⟨i.id, h⟩
  rw [listInstances, List.mem_mergeSort, List.mem_filter, hmem, Bool.and_eq_true, decide_eq_true_eq]

/-- The instances listed for a group are the stored ones that are in it. -/
private theorem mem_listInstances (hs : s.Keyed) :
    i ∈ s.listInstances leader.id.space leader.labels ↔
      s.instances.get? i.id = some i ∧ i.InGroupOf leader := by
  rw [mem_listInstances_iff hs, Instance.matches, Entries.includes_iff, Instance.InGroupOf]

/-- Instances are listed by their names, each once. -/
theorem pairwise_listInstances (hs : s.Keyed) (space : String) (labels : Labels) :
    (s.listInstances space labels).Pairwise fun i j => i.id.name < j.id.name := by
  have hsorted : (s.listInstances space labels).Pairwise fun i j => i.id.name ≤ j.id.name := by
    simpa only [listInstances, decide_eq_true_eq] using
      @List.pairwise_mergeSort Instance (fun a b => decide (a.id.name ≤ b.id.name))
        (fun a b c hab hbc => by
          simpa using String.le_trans (by simpa using hab) (by simpa using hbc))
        (fun a b => by simpa using String.le_total a.id.name b.id.name)
        (s.instances.values.filter fun i => i.id.space = space && i.matches labels)
  have hdistinct : (s.listInstances space labels).Pairwise fun i j => i.id ≠ j.id := by
    have hvalues : s.instances.values.Pairwise fun i j => i.id ≠ j.id :=
      List.pairwise_map.mp (Entries.nodup_map_values hs)
    rw [listInstances, (List.mergeSort_perm _ _).pairwise_iff fun h => Ne.symm h]
    exact hvalues.filter _
  refine (hsorted.and hdistinct).imp_of_mem fun {i j} hi hj h => ?_
  have hspace : i.id.space = j.id.space :=
    (space_of_mem_listInstances hi).trans (space_of_mem_listInstances hj).symm
  refine String.not_le.mp fun hle => h.2 ?_
  exact Identity.ext hspace (String.le_antisymm h.1 hle)

/-- A list is that of the group of a stored instance, by the names of its members. -/
structure ListsGroup (s : MemoryStore) (leader : Instance) (group : List Instance) : Prop where
  stored : s.instances.get? leader.id = some leader
  members : ∀ i, i ∈ group ↔ s.instances.get? i.id = some i ∧ i.InGroupOf leader
  sorted : group.Pairwise fun i j => i.id.name < j.id.name

private theorem listsGroup_listInstances (hs : s.Keyed)
    (hleader : s.instances.get? leader.id = some leader) :
    s.ListsGroup leader (s.listInstances leader.id.space leader.labels) :=
  ⟨hleader, fun _ => mem_listInstances hs, pairwise_listInstances hs _ _⟩

namespace ListsGroup

variable {group : List Instance}

/-- No name is in it twice. -/
private theorem nodup_names (h : s.ListsGroup leader group) :
    (group.map fun i => i.id.name).Nodup :=
  List.pairwise_map.mpr (h.sorted.imp String.ne_of_lt)

/-- In a group the name tells an instance from the executing one. -/
private theorem filter_name (h : s.ListsGroup leader group) :
    group.filter (fun i => i.id.name ≠ leader.id.name) =
      group.filter fun i => i.id ≠ leader.id := by
  refine List.filter_congr fun i hi => ?_
  have hspace := ((h.members i).mp hi).2.1
  rw [decide_eq_decide]
  exact ⟨fun hne hid => hne (congrArg _ hid), fun hne hname => hne (Identity.ext hspace hname)⟩

/-- The others and then the executing instance are the whole group. -/
private theorem perm_filter_concat (h : s.ListsGroup leader group) :
    (group.filter (fun i => i.id ≠ leader.id) ++ [leader]).Perm group := by
  have hmember : leader ∈ group := (h.members leader).mpr ⟨h.stored, leader.inGroupOf_self⟩
  have hnodup : group.Nodup := by
    refine h.sorted.imp ?_
    rintro i _ hlt rfl
    exact String.lt_irrefl _ hlt
  rw [List.perm_ext_iff_of_nodup _ hnodup]
  · intro i
    rw [List.mem_append, List.mem_filter, List.mem_singleton, decide_eq_true_eq]
    constructor
    · rintro (⟨hi, _⟩ | rfl)
      · exact hi
      · exact hmember
    · intro hi
      by_cases hid : i.id = leader.id
      · have hget := ((h.members i).mp hi).1
        rw [hid, h.stored] at hget
        exact .inr (Option.some.inj hget).symm
      · exact .inl ⟨hi, hid⟩
  · rw [List.nodup_append]
    refine ⟨hnodup.filter _, by simp, ?_⟩
    intro i hi j hj
    cases List.mem_singleton.mp hj
    rintro rfl
    simp at hi

end ListsGroup

/-- What is left after the removal of names in a namespace. -/
private theorem get?_without (s : MemoryStore) (space : String) (names : List String)
    (id : Identity) :
    (s.without space names).instances.get? id =
      if id.space = space ∧ id.name ∈ names then none else s.instances.get? id := by
  induction names generalizing s with
  | nil => simp
  | cons name rest ih =>
    have hfirst : s.without space (name :: rest) =
        (s.without space [name]).without space rest := by
      rw [without_without, List.singleton_append]
    have hone : (s.without space [name]).instances.get? id =
        if (⟨space, name⟩ : Identity) = id then none else s.instances.get? id :=
      Entries.get?_erase _ _ _
    rw [hfirst, ih, hone]
    by_cases hid : (⟨space, name⟩ : Identity) = id
    · subst hid
      simp
    · have hother : ¬ (id.space = space ∧ id.name = name) :=
        fun h => hid (Identity.ext h.1.symm h.2.symm)
      simp only [hid, if_false, List.mem_cons]
      congr 1
      rw [eq_iff_iff]
      constructor
      · exact fun h => ⟨h.1, .inr h.2⟩
      · rintro ⟨hspace, hname | hmem⟩
        · exact absurd ⟨hspace, hname⟩ hother
        · exact ⟨hspace, hmem⟩

end MemoryStore

/-! ## Attempts and answers -/

/-- A request to a store with its answer. -/
def Store.exchange (q : Store.Request) (answer : Except Failure q.Result) : Sigma Store.Answer :=
  ⟨q, answer⟩

namespace Restart

/-- An answer is written down after what was written down before. -/
theorem traced_eq {σ : Type} {h : Handler Store σ} {q : Store.Request}
    {w w' : σ × List (Sigma Store.Answer)} {answer : Except Failure q.Result}
    (hq : Handler.traced h q w = (answer, w')) :
    h q w.1 = (answer, w'.1) ∧ w'.2 = w.2 ++ [Store.exchange q answer] := by
  cases hq
  exact ⟨rfl, rfl⟩

/-- What was asked and answered at an attempt. -/
def Attempt.exchange (a : Attempt) : Sigma Store.Answer :=
  Store.exchange (.deleteInstance a.target.id) a.answer

/-- Attempts are written down as they are made. -/
private theorem attempts_traced_eq {σ : Type} {h : Handler Store σ} {l : List Instance}
    {tried : List Attempt} {w w' : σ × List (Sigma Store.Answer)}
    (hq : attempts (Handler.traced h) l w = (tried, w')) :
    attempts h l w.1 = (tried, w'.1) ∧ w'.2 = w.2 ++ tried.map Attempt.exchange := by
  induction l generalizing w tried with
  | nil =>
    cases hq
    exact ⟨rfl, (List.append_nil _).symm⟩
  | cons i rest ih =>
    rcases hfirst : Handler.traced h (.deleteInstance i.id) w with ⟨answer, w₁⟩
    rcases hlater : attempts (Handler.traced h) rest w₁ with ⟨later, w₂⟩
    rw [attempts, hfirst] at hq
    dsimp only at hq
    rw [hlater] at hq
    cases hq
    obtain ⟨hanswer, hwritten⟩ := traced_eq hfirst
    obtain ⟨hrest, hwritten'⟩ := ih hlater
    constructor
    · rw [attempts, hanswer]
      dsimp only
      rw [hrest]
    · rw [hwritten', hwritten, List.append_assoc]
      rfl

/-- Every attempted instance is listed either as removed or as one that could not be removed. -/
private theorem perm_names (tried : List Attempt) :
    (tried.filterMap Attempt.removed? ++
      (tried.filterMap Attempt.failure?).map RestartFailure.instanceName).Perm
        ((tried.map Attempt.target).map fun i => i.id.name) := by
  induction tried with
  | nil => exact .nil
  | cons a rest ih =>
    obtain ⟨i, cause | ⟨⟩⟩ := a
    · exact List.perm_middle.trans (ih.cons _)
    · exact ih.cons _

/-- A restart that attempts nothing, since the executing instance or its group cannot be read: it
says why and leaves the store as it is. -/
structure Skipped (executing : Identity) (report : RestartReport)
    (trace : List (Sigma Store.Answer))
    (before after : MemoryStore) : Prop where
  cause :
    (∃ cause, trace = [Store.exchange (.getInstance executing) (.error cause)] ∧
      report = .skip ("leader instance " ++ Text.quote executing.text ++ " not found")) ∨
    ∃ leader cause, trace = [Store.exchange (.getInstance executing) (.ok leader),
        Store.exchange (.listInstances leader.id.space leader.labels) (.error cause)] ∧
      report = .skip ("cannot list instances: " ++ cause.message)
  reason : report.skipped ≠ ""
  same : after = before

/-- A restart that has found the executing instance and its group: which instances it attempts, what
it reports of them, and what is left. -/
structure Attempted (executing : Identity) (leader : Instance) (group : List Instance)
    (tried : List Attempt) (report : RestartReport) (trace : List (Sigma Store.Answer))
    (before after : MemoryStore) : Prop where
  /-- The executing instance is the one that is stored. -/
  found : before.instances.get? executing = some leader ∧ leader.id = executing
  /-- The group are the stored instances of the same namespace with the same labels. -/
  members : ∀ i, i ∈ group ↔ before.instances.get? i.id = some i ∧ i.InGroupOf leader
  sorted : group.Pairwise fun i j => i.id.name < j.id.name
  /-- The others are attempted in the order of the list, and then the executing instance. -/
  targets : tried.map Attempt.target = group.filter (fun i => i.id ≠ executing) ++ [leader]
  /-- Apart from that the instance is read and its group is listed, and nothing else is asked. -/
  trace : trace = Store.exchange (.getInstance executing) (.ok leader) ::
    Store.exchange (.listInstances leader.id.space leader.labels) (.ok group) ::
      tried.map Attempt.exchange
  skipped : report.skipped = ""
  terminated : report.terminated = tried.filterMap Attempt.removed?
  failures : report.failures = tried.filterMap Attempt.failure?
  covered : (report.terminated ++ report.failures.map RestartFailure.instanceName).Perm
    (group.map fun i => i.id.name)
  nodup : (report.terminated ++ report.failures.map RestartFailure.instanceName).Nodup
  gone : report.selfTerminated = true ↔ (⟨leader, .ok ()⟩ : Attempt) ∈ tried
  last : report.selfTerminated = true → report.terminated.getLast? = some executing.name
  records : after.records = before.records
  instances : ∀ id, after.instances.get? id =
    if id.space = executing.space ∧ id.name ∈ report.terminated then none
    else before.instances.get? id

end Restart

namespace Serves

variable {σ : Type} {h : Handler World σ} {view : σ → MemoryStore} {w : σ}

/-- A restart that has found the executing instance and its group attempts the others and then the
executing one, and reports what it attempted. -/
private theorem attempted_of_course (hs : ServesAlone h view) (hkeyed : (view w).Keyed)
    {self : Identity}
    {leader : Instance} {group : List Instance} {tried all : List Restart.Attempt}
    {answer : Except Failure Unit} {w₁ w₂ w₃ w' : σ} {trace : List (Sigma Store.Answer)}
    (found : World.storeOf h (.getInstance self) w = (.ok leader, w₁))
    (listed : World.storeOf h (.listInstances leader.id.space leader.labels) w₁ = (.ok group, w₂))
    (others : Restart.attempts (World.storeOf h)
      (group.filter fun i => i.id.name ≠ leader.id.name) w₂ = (tried, w₃))
    (last : World.storeOf h (.deleteInstance leader.id) w₃ = (answer, w'))
    (hall : all = tried ++ [⟨leader, answer⟩])
    (htrace : trace = Store.exchange (.getInstance self) (.ok leader) ::
      Store.exchange (.listInstances leader.id.space leader.labels) (.ok group) ::
        all.map Restart.Attempt.exchange) :
    Restart.Attempted self leader group all
      { RestartReport.start.add all with selfTerminated := answer.isOk } trace (view w)
      (view w') := by
  have hview := view_of_course hs (.attempted found listed others last)
  rw [← hall] at hview
  obtain ⟨hv₁, hfound⟩ := getInstance_of_answer hs found
  obtain ⟨_, hgroup⟩ := listInstances_of_answer hs listed
  have hleader := hfound leader rfl
  obtain rfl : leader.id = self := hkeyed self leader hleader
  have hlists : (view w).ListsGroup leader group := by
    rw [hgroup group rfl, hv₁]
    exact MemoryStore.listsGroup_listInstances hkeyed hleader
  have hothers : tried.map Restart.Attempt.target = group.filter fun i => i.id ≠ leader.id := by
    have htargets := Restart.targets_attempts (World.storeOf h)
      (group.filter fun i => i.id.name ≠ leader.id.name) w₂
    rw [others] at htargets
    exact htargets.trans hlists.filter_name
  have htargets : all.map Restart.Attempt.target =
      group.filter (fun i => i.id ≠ leader.id) ++ [leader] := by
    rw [hall, List.map_append, hothers]
    rfl
  have hperm := Restart.perm_names all
  rw [htargets] at hperm
  replace hperm := hperm.trans (hlists.perm_filter_concat.map fun i => i.id.name)
  have hnotTried : (⟨leader, .ok ()⟩ : Restart.Attempt) ∉ tried := by
    intro hmem
    have hmem' := List.mem_map_of_mem (f := Restart.Attempt.target) hmem
    rw [hothers] at hmem'
    simp at hmem'
  constructor
  case found => exact ⟨hleader, rfl⟩
  case members => exact hlists.members
  case sorted => exact hlists.sorted
  case targets => exact htargets
  case trace => exact htrace
  case skipped => rfl
  case terminated => rfl
  case failures => rfl
  case covered => exact hperm
  case nodup => exact hperm.nodup_iff.mpr hlists.nodup_names
  case gone =>
    rw [hall, List.mem_append, or_iff_right hnotTried, List.mem_singleton]
    cases answer <;> simp [Except.isOk, Except.toBool]
  case last =>
    intro hgone
    cases answer with
    | error cause => cases hgone
    | ok =>
      have hterminated : all.filterMap Restart.Attempt.removed? =
          tried.filterMap Restart.Attempt.removed? ++ [leader.id.name] := by
        rw [hall, List.filterMap_append]
        rfl
      change (all.filterMap Restart.Attempt.removed?).getLast? = _
      rw [hterminated, List.getLast?_concat]
  case records =>
    rw [hview]
    rfl
  case instances =>
    intro id
    have hspace : (view w).groupSpace leader.id = leader.id.space := by
      rw [MemoryStore.groupSpace, hleader]
      rfl
    rw [hview, MemoryStore.get?_without, hspace]

/-- A restart attempts exactly the group of the executing instance, each member once and itself
last, reports what the attempts came to, and removes what it reports and nothing else; where the
instance or its group cannot be read, nothing is attempted. -/
theorem restart_group (hs : ServesAlone h view) (hkeyed : (view w).Keyed) (self : Identity) :
    ∃ report w' trace, runWith (Handler.traced (World.storeOf h)) (Restart.restart self) (w, []) =
        (.ok report, w', trace) ∧
      (Restart.Skipped self report trace (view w) (view w') ∨
        ∃ leader group tried,
          Restart.Attempted self leader group tried report trace (view w) (view w')) := by
  obtain ⟨report, ⟨w', trace⟩, hrun, hcourse⟩ :=
    Restart.course_of_restart (Handler.traced (World.storeOf h)) self (w, [])
  refine ⟨report, w', trace, hrun, ?_⟩
  cases hcourse with
  | @noLeader cause _ found =>
    obtain ⟨found, rfl⟩ := Restart.traced_eq found
    refine .inl ⟨.inl ⟨cause, rfl, rfl⟩, ?_, (getInstance_of_answer hs found).1⟩
    simp [RestartReport.skip]
  | @noGroup leader cause w₁ _ found listed =>
    obtain ⟨found, hfirst⟩ := Restart.traced_eq found
    obtain ⟨listed, rfl⟩ := Restart.traced_eq listed
    refine .inl ⟨.inr ⟨leader, cause, ?_, rfl⟩, ?_, ?_⟩
    · rw [hfirst]
      rfl
    · simp [RestartReport.skip]
    · exact (listInstances_of_answer hs listed).1.trans (getInstance_of_answer hs found).1
  | @attempted leader group tried answer w₁ w₂ w₃ _ found listed others last =>
    obtain ⟨found, hfirst⟩ := Restart.traced_eq found
    obtain ⟨listed, hsecond⟩ := Restart.traced_eq listed
    obtain ⟨others, hthird⟩ := Restart.attempts_traced_eq others
    obtain ⟨last, hfourth⟩ := Restart.traced_eq last
    refine .inr ⟨leader, group, _, attempted_of_course hs hkeyed found listed others last rfl ?_⟩
    change trace = _ at hfourth
    rw [hfourth, hthird, hsecond, hfirst]
    simp [Restart.Attempt.exchange]

end Serves

/-! ## A group with a member that stays -/

namespace MemoryStore

/-- A store in memory that refuses to remove the instances with given names. -/
def refusing (names : List String) : Handler Store MemoryStore
  | .deleteInstance id, s =>
    if id.name ∈ names then (.error (.external .runtime "refused"), s) else s.deleteInstance id
  | .getRecord id, s => (s.getRecord id, s)
  | .upsert id change, s => s.upsert id change
  | .getInstance id, s => (s.getInstance id, s)
  | .listInstances space labels, s => (.ok (s.listInstances space labels), s)

private theorem servesAlone_refusing (names : List String) {τ : Type} (g : Handler Signing τ) :
    ServesAlone (Handler.sum (refusing names) g) Prod.fst where
  request q w := by
    refine ⟨w.1, rfl, ?_⟩
    cases q with
    | deleteInstance id =>
      by_cases hname : id.name ∈ names
      · have hanswer : refusing names (.deleteInstance id) w.1 =
            (.error (.external .runtime "refused"), w.1) := if_pos hname
        refine .inl ⟨⟨.external .runtime "refused", ?_⟩, ?_⟩
        · exact congrArg Prod.fst hanswer
        · exact congrArg Prod.snd hanswer
      · have hanswer : refusing names (.deleteInstance id) w.1 = w.1.deleteInstance id :=
          if_neg hname
        exact .inr ⟨congrArg Prod.fst hanswer, congrArg Prod.snd hanswer⟩
    | _ => exact .inr ⟨rfl, rfl⟩
  signing _ _ := rfl

/-- A server of the group of three in a namespace. -/
def server (name : String) : Instance := ⟨⟨"system", name⟩, .ofList [("app", "server")]⟩

/-- Three servers, an instance beside them that is none, and a server of another namespace. -/
def threeServers : MemoryStore :=
  ((((empty.addInstance (server "server-b")).addInstance (server "server-c")).addInstance
    ⟨⟨"system", "metrics-0"⟩, .ofList [("app", "metrics")]⟩).addInstance
      ⟨⟨"other", "server-b"⟩, .ofList [("app", "server")]⟩).addInstance (server "server-a")

private theorem keyed_threeServers : threeServers.Keyed :=
  ((((keyed_empty.addInstance _).addInstance _).addInstance _).addInstance _).addInstance _

end MemoryStore

/-- The servers of the group are listed by their names. -/
private theorem MemoryStore.listInstances_threeServers :
    threeServers.listInstances "system" (.ofList [("app", "server")]) =
      [server "server-a", server "server-b", server "server-c"] := by
  have hgroup : (threeServers.instances.values.filter fun i =>
      i.id.space = "system" && i.matches (.ofList [("app", "server")])) =
        [server "server-b", server "server-c", server "server-a"] := rfl
  rw [listInstances, hgroup]
  simp [List.mergeSort, server, List.MergeSort.Internal.splitInTwo]

/-- The restart of three servers, where one refuses, removes the other two, the executing one
last. -/
theorem Serves.restart_group_refused :
    ∃ report w' trace leader group tried, MemoryStore.threeServers.Keyed ∧
      runWith (Handler.traced (World.storeOf
          (Handler.sum (MemoryStore.refusing ["server-b"]) scriptedSigner)))
        (Restart.restart ⟨"system", "server-a"⟩) ((MemoryStore.threeServers, []), []) =
          (.ok report, w', trace) ∧
      Restart.Attempted ⟨"system", "server-a"⟩ leader group tried report trace
        MemoryStore.threeServers w'.1 ∧
      report.terminated = ["server-c", "server-a"] ∧
      report.failures.map RestartFailure.instanceName = ["server-b"] ∧
      report.selfTerminated = true := by
  obtain ⟨report, w', trace, hrun, hcases⟩ :=
    Serves.restart_group (MemoryStore.servesAlone_refusing ["server-b"] scriptedSigner)
      (w := (MemoryStore.threeServers, [])) MemoryStore.keyed_threeServers ⟨"system", "server-a"⟩
  let h := Handler.traced (World.storeOf
    (Handler.sum (MemoryStore.refusing ["server-b"]) scriptedSigner))
  have hleader : h (.getInstance ⟨"system", "server-a"⟩) ((MemoryStore.threeServers, []), []) =
      (.ok (MemoryStore.server "server-a"), _) := rfl
  have hreport := Restart.runWith_restart_of_group hleader
    (congrArg (fun l => (Except.ok l, _)) MemoryStore.listInstances_threeServers) rfl rfl
  cases hrun.symm.trans hreport
  obtain hnothing | ⟨leader, group, tried, hattempted⟩ := hcases
  · exact absurd rfl hnothing.reason
  · exact ⟨_, _, _, leader, group, tried, MemoryStore.keyed_threeServers, hrun, hattempted,
      rfl, rfl, rfl⟩

end CertKeeper
