import CertKeeper.Proofs.ListingOrder

/-!
# In which order instances are removed

A restart removes the other servers of a group in the order in which the store lists them. A store
in memory and one in a directory with the same instances remove the same ones and report the same,
but for that order, and the order is the same as well unless a name overtakes another one
(`DirectoryStore.listing_order`).
-/

namespace CertKeeper

open CertKeeper.Action
open DirectoryStore (safeName AllPlain FiledBefore Overtakes Listed)

/-! ## Restarts without failures -/

namespace Restart

variable {σ : Type} {h : Handler Store σ} {R : σ → MemoryStore → Prop} {w : σ} {m : MemoryStore}

/-- A store removes whatever is stored in it. -/
def RemovesStored (h : Handler Store σ) (R : σ → MemoryStore → Prop) : Prop :=
  ∀ w m i, R w m → m.instances.get? i.id = some i → ∃ w',
    h (.deleteInstance i.id) w = (.ok (), w') ∧
      R w' { m with instances := m.instances.erase i.id }

/-- All attempts to remove different stored instances succeed, and the others stay. -/
private theorem attempts_of_stored (hremoves : RemovesStored h R) {l : List Instance} (hR : R w m)
    (hstored : ∀ i ∈ l, m.instances.get? i.id = some i)
    (hdistinct : l.Pairwise fun i j => i.id ≠ j.id) :
    ∃ w' m', attempts h l w = (l.map fun i => ⟨i, .ok ()⟩, w') ∧ R w' m' ∧
      ∀ id, (∀ i ∈ l, i.id ≠ id) → m'.instances.get? id = m.instances.get? id := by
  induction l generalizing w m with
  | nil => exact ⟨w, m, rfl, hR, fun _ _ => rfl⟩
  | cons i rest ih =>
    rw [List.pairwise_cons] at hdistinct
    obtain ⟨w₁, hfirst, hR₁⟩ := hremoves w m i hR (hstored i List.mem_cons_self)
    have hstays (id : Identity) (hid : i.id ≠ id) :
        (m.instances.erase i.id).get? id = m.instances.get? id := by
      rw [Entries.get?_erase, if_neg hid]
    have hrest : ∀ j ∈ rest, (m.instances.erase i.id).get? j.id = some j := by
      intro j hj
      rw [hstays _ (hdistinct.1 j hj)]
      exact hstored j (List.mem_cons_of_mem _ hj)
    obtain ⟨w₂, m₂, hlater, hR₂, hothers⟩ := ih hR₁ hrest hdistinct.2
    refine ⟨w₂, m₂, ?_, hR₂, fun id hid => ?_⟩
    · rw [attempts, hfirst]
      dsimp only
      rw [hlater]
      rfl
    · rw [List.forall_mem_cons] at hid
      exact (hothers id hid.2).trans (hstays id hid.1)

/-- The names of the others in a group. -/
def otherNames (leader : Instance) (group : List Instance) : List String :=
  (group.filter fun i => i.id.name ≠ leader.id.name).map fun i => i.id.name

/-- A restart without failures reports the others in the order of the list, and then the executing
instance. -/
theorem runWith_restart_of_stored (hremoves : RemovesStored h R) (hR : R w m) {leader : Instance}
    {group : List Instance} (hfound : h (.getInstance leader.id) w = (.ok leader, w))
    (hlisted : h (.listInstances leader.id.space leader.labels) w = (.ok group, w))
    (hleader : m.instances.get? leader.id = some leader)
    (hstored : ∀ i ∈ group, m.instances.get? i.id = some i)
    (hdistinct : group.Pairwise fun i j => i.id ≠ j.id) :
    (runWith h (restart leader.id) w).1 =
      .ok ⟨"", otherNames leader group ++ [leader.id.name], [], true⟩ := by
  have hothers : ∀ i ∈ group.filter fun i => i.id.name ≠ leader.id.name,
      m.instances.get? i.id = some i := fun i hi => hstored i (List.mem_of_mem_filter hi)
  obtain ⟨w₁, m₁, hattempts, hR₁, hstays⟩ :=
    attempts_of_stored hremoves hR hothers (hdistinct.filter _)
  have hleft : m₁.instances.get? leader.id = some leader := by
    rw [hstays, hleader]
    intro i hi hid
    have hname := (List.mem_filter.mp hi).2
    rw [decide_eq_true_eq, hid] at hname
    exact hname rfl
  obtain ⟨w₂, hlast, -⟩ := hremoves w₁ m₁ leader hR₁ hleft
  rw [runWith_restart_of_group hfound hlisted hattempts hlast]
  have hremoved (l : List Instance) :
      (l.map fun i => (⟨i, .ok ()⟩ : Attempt)).filterMap Attempt.removed? =
        l.map fun i => i.id.name := by
    rw [List.filterMap_map]
    exact congrFun (List.filterMap_eq_map (f := fun i : Instance => i.id.name)) l
  have hfailures (l : List Instance) :
      (l.map fun i => (⟨i, .ok ()⟩ : Attempt)).filterMap Attempt.failure? = [] := by
    rw [List.filterMap_map, List.filterMap_eq_nil_iff]
    exact fun _ _ => rfl
  simp only [RestartReport.add, RestartReport.start, List.filterMap_append, hremoved, hfailures,
    otherNames]
  rfl

/-- A restart that does not find the executing instance reports that. -/
theorem runWith_restart_of_missing {self : Identity} {cause : Failure} {w' : σ}
    (hmissing : h (.getInstance self) w = (.error cause, w')) :
    (runWith h (restart self) w).1 =
      .ok (.skip ("leader instance " ++ Text.quote self.text ++ " not found")) := by
  obtain ⟨report, w'', hrun, hcourse⟩ := course_of_restart h self w
  rw [hrun]
  cases hcourse with
  | noLeader => rfl
  | noGroup found => cases hmissing.symm.trans found
  | attempted found => cases hmissing.symm.trans found

end Restart

/-! ## The two stores -/

namespace MemoryStore

variable {s s' : MemoryStore} {l : List Instance}

private theorem keyed_ofInstances (l : List Instance) : (ofInstances l).Keyed := by
  have hfold (s : MemoryStore) (hs : s.Keyed) : (l.foldl addInstance s).Keyed := by
    induction l generalizing s with
    | nil => exact hs
    | cons i rest ih => exact ih _ (hs.addInstance i)
  exact hfold _ keyed_empty

/-- Stores with the same instances list the same ones, whatever has become of the stores before. -/
theorem listInstances_congr (hs : s.Keyed) (hs' : s'.Keyed)
    (hsame : ∀ id, s'.instances.get? id = s.instances.get? id) (space : String) (labels : Labels) :
    s'.listInstances space labels = s.listInstances space labels := by
  have hnodup {t : MemoryStore} (ht : t.Keyed) : (t.listInstances space labels).Nodup := by
    refine (pairwise_listInstances ht space labels).imp ?_
    rintro i _ hlt rfl
    exact String.lt_irrefl _ hlt
  refine List.Perm.eq_of_pairwise (fun i j _ _ hij hji => absurd hji (String.lt_asymm hij))
    (pairwise_listInstances hs' space labels) (pairwise_listInstances hs space labels) ?_
  rw [List.perm_ext_iff_of_nodup (hnodup hs') (hnodup hs)]
  intro i
  rw [mem_listInstances_iff hs', mem_listInstances_iff hs, hsame]

/-- In memory whatever is stored is removed. -/
theorem removesStored_handler : Restart.RemovesStored handler Eq := by
  rintro w m i rfl hi
  refine ⟨_, ?_, rfl⟩
  change w.deleteInstance i.id = _
  rw [deleteInstance, if_pos (by simp [Entries.contains, hi])]
  rfl

/-- A restart over a store in memory removes the others by their names. -/
private theorem runWith_restart_handler (hs : s.Keyed) (self : Identity) :
    (runWith handler (Restart.restart self) s).1 = .ok
      (match s.instances.get? self with
        | none => .skip ("leader instance " ++ Text.quote self.text ++ " not found")
        | some leader => ⟨"", Restart.otherNames leader
            (s.listInstances leader.id.space leader.labels) ++ [leader.id.name], [], true⟩) := by
  cases hself : s.instances.get? self with
  | none =>
    have hmissing : handler (.getInstance self) s = (.error (.instanceNotFound self), s) := by
      simp only [handler, getInstance, hself]
      rfl
    exact Restart.runWith_restart_of_missing hmissing
  | some leader =>
    obtain rfl := hs self leader hself
    have hfound : handler (.getInstance leader.id) s = (.ok leader, s) := by
      simp only [handler, getInstance, hself]
      rfl
    refine Restart.runWith_restart_of_stored removesStored_handler rfl hfound rfl hself ?_ ?_
    · exact fun i hi => ((mem_listInstances_iff hs).mp hi).1
    · refine (pairwise_listInstances hs _ _).imp fun hlt hid => ?_
      rw [hid] at hlt
      exact String.lt_irrefl _ hlt

end MemoryStore

namespace DirectoryStore

variable {s : DirectoryStore} {B : List String} {m : MemoryStore} {d d' : Disk}

/-- On disk whatever is stored is removed. -/
theorem removesStored_handler (s : DirectoryStore) (B : List String) :
    Restart.RemovesStored s.handler fun d m => Holds s.base B m d ∧ AllPlain m := by
  rintro d m i ⟨hold, hplain⟩ hi
  have hid := hplain _ _ hi
  obtain ⟨r, w', hrun, -, hends⟩ :=
    Disk.exists_runWith_eq (hold.always_deleteInstance hid.isRegular)
  cases r with
  | ok x =>
    obtain ⟨-, hheld⟩ := hends
    rw [MemoryStore.unregister, hid.safe] at hheld
    refine ⟨w'.disk, hrun, hheld, fun k j hj => ?_⟩
    rw [Entries.get?_erase] at hj
    split at hj
    · cases hj
    · exact hplain k j hj
  | error e =>
    obtain ⟨-, ⟨-, hnone⟩ | hnot⟩ := hends
    · rw [hid.safe] at hnone
      simp [Entries.contains, hi] at hnone
    · exact absurd (hasManifest_of_stored hold hid.isRegular (hid.safe.symm ▸ hi)) hnot

/-- Where the executing instance is not stored, a restart over a store in a directory reports
that. -/
theorem runWith_restart_of_missing (hold : Holds s.base B m d) {self : Identity}
    (hself : self.IsClean) (hmissing : m.instances.get? self = none) :
    (runWith s.handler (Restart.restart self) d).1 =
      .ok (.skip ("leader instance " ++ Text.quote self.text ++ " not found")) := by
  obtain ⟨r, w', hrun, -, hends⟩ :=
    Disk.exists_runWith_eq (hold.always_getInstance hself.isRegular)
  cases r with
  | ok x =>
    have hfound := hends.2
    rw [hself.safe, hmissing] at hfound
    cases hfound
  | error e => exact Restart.runWith_restart_of_missing hrun

/-- Where it is stored, the others are removed by the names of their manifests. -/
private theorem exists_runWith_restart (hold : Holds s.base B m d) (hplain : AllPlain m)
    (hm : m.Keyed)
    {leader : Instance} (hleader : m.instances.get? leader.id = some leader) :
    ∃ group, group.Perm (m.listInstances leader.id.space leader.labels) ∧
      group.Pairwise (fun i j => FiledBefore i.id.name j.id.name) ∧
      (runWith s.handler (Restart.restart leader.id) d).1 =
        .ok ⟨"", Restart.otherNames leader group ++ [leader.id.name], [], true⟩ := by
  have hid := hplain _ _ hleader
  have hfound : s.handler (.getInstance leader.id) d = (.ok leader, d) := by
    have hhas := hasManifest_of_stored hold hid.isRegular (hid.safe.symm ▸ hleader)
    have hrun := hold.runWith_getInstance hid.isRegular hhas
    rw [hid.safe, hleader] at hrun
    exact hrun
  obtain ⟨r, hrun, hlisted⟩ := exists_listed hold hplain leader.id.space leader.labels
  cases hlisted with
  | refused hname =>
    rw [hid.space.safeName_eq] at hname
    exact absurd hid.space.toIsName hname
  | @filed group hperm hsorted =>
    rw [hid.space.safeName_eq] at hperm
    refine ⟨group, hperm, hsorted, ?_⟩
    refine Restart.runWith_restart_of_stored (removesStored_handler s B) ⟨hold, hplain⟩ hfound
      hrun hleader ?_ ?_
    · exact fun i hi => ((MemoryStore.mem_listInstances_iff hm).mp (hperm.subset hi)).1
    · refine hsorted.imp fun hlt hid => ?_
      rw [hid] at hlt
      exact String.lt_irrefl _ hlt

/-- What restarts over a store in memory and over one in a directory report: that the executing
instance is missing, or that the others of its group were removed and it last, the others by their
names in memory and by the names of their manifests on disk. -/
inductive RestartsAlike (m : MemoryStore) (executing : Identity) :
    RestartReport → RestartReport → Prop
  | skipped {reason : String} (missing : m.instances.get? executing = none) :
      RestartsAlike m executing (.skip reason) (.skip reason)
  | removed {leader : Instance} {named filed : List String}
      (found : m.instances.get? executing = some leader)
      (others : named = Restart.otherNames leader
        (m.listInstances leader.id.space leader.labels))
      (perm : filed.Perm named) (sorted : filed.Pairwise FiledBefore) :
      RestartsAlike m executing ⟨"", named ++ [executing.name], [], true⟩
        ⟨"", filed ++ [executing.name], [], true⟩

/-- Reports are the same if and only if no name of a removed instance overtakes another one. -/
theorem RestartsAlike.eq_iff (hm : m.Keyed) {self : Identity} {report filed : RestartReport}
    (h : RestartsAlike m self report filed) :
    filed = report ↔ ∀ a ∈ report.terminated.dropLast, ∀ b ∈ report.terminated.dropLast,
      ¬ Overtakes a b := by
  cases h with
  | skipped => simp [RestartReport.skip]
  | @removed leader named filed found others perm sorted =>
    have hnamed : named.Pairwise (· < ·) := by
      rw [others, Restart.otherNames, List.pairwise_map]
      exact (MemoryStore.pairwise_listInstances hm _ _).filter _
    rw [List.dropLast_concat]
    refine Iff.trans ?_ (eq_iff_of_sorted (fun name => name) sorted hnamed perm)
    simp

/-- Restarts over a store on disk and over one in memory with the same instances report alike. -/
private theorem exists_restartsAlike {stored : MemoryStore} (hold : Holds s.base B stored d)
    (hplain : AllPlain stored) (hstored : stored.Keyed) (hm : m.Keyed)
    (hsame : ∀ id, stored.instances.get? id = m.instances.get? id) {self : Identity}
    (hself : self.IsClean) :
    ∃ report filed, (runWith MemoryStore.handler (Restart.restart self) m).1 = .ok report ∧
      (runWith s.handler (Restart.restart self) d).1 = .ok filed ∧
      RestartsAlike m self report filed := by
  have hmemory := MemoryStore.runWith_restart_handler hm self
  cases hget : m.instances.get? self with
  | none =>
    rw [hget] at hmemory
    have hdisk := runWith_restart_of_missing hold hself ((hsame self).trans hget)
    exact ⟨_, _, hmemory, hdisk, .skipped hget⟩
  | some leader =>
    rw [hget] at hmemory
    obtain rfl := hm self leader hget
    obtain ⟨group, hperm, hsorted, hdisk⟩ :=
      exists_runWith_restart hold hplain hstored ((hsame leader.id).trans hget)
    rw [MemoryStore.listInstances_congr hm hstored hsame] at hperm
    refine ⟨_, _, hmemory, hdisk, .removed hget rfl ((hperm.filter _).map _) ?_⟩
    exact List.pairwise_map.mpr (hsorted.filter _)

/-- Stores with the same instances, one in memory and one in a directory, whatever the order in
which these were registered: every namespace is listed with the same instances, in memory by their
names and on disk by the names of their manifests, and restarts remove the same instances in these
orders. The lists and the reports are the same if and only if no name among them overtakes another
one. -/
theorem listing_order (hfresh : s.Fresh B d) {first second : List Instance}
    (hclean : ∀ i ∈ second, i.id.IsClean)
    (hsame : ∀ id, (MemoryStore.ofInstances second).instances.get? id =
      (MemoryStore.ofInstances first).instances.get? id)
    (hrun : runWith Disk.handler (second.forM s.addInstance) d = (.ok (), d')) :
    let m := MemoryStore.ofInstances first
    (∀ space labels,
      (m.listInstances space labels).Pairwise (fun i j => i.id.name < j.id.name) ∧
      ∃ r, runWith Disk.handler (s.listInstances space labels) d' = (r, d') ∧
        Listed m space labels r ∧
        ∀ l, r = .ok l → (l = m.listInstances (safeName space) labels ↔
          ∀ i ∈ l, ∀ j ∈ l, ¬ Overtakes i.id.name j.id.name)) ∧
    ∀ self : Identity, self.IsClean → ∃ report filed,
      (runWith MemoryStore.handler (Restart.restart self) m).1 = .ok report ∧
      (runWith s.handler (Restart.restart self) d').1 = .ok filed ∧
      RestartsAlike m self report filed ∧
      (filed = report ↔ ∀ a ∈ report.terminated.dropLast, ∀ b ∈ report.terminated.dropLast,
        ¬ Overtakes a b) := by
  intro m
  have hm : m.Keyed := MemoryStore.keyed_ofInstances first
  have hstored := MemoryStore.keyed_ofInstances second
  obtain ⟨hold, hplain⟩ := holds_of_addInstances hfresh.holds (fun _ _ h => nomatch h) hclean hrun
  constructor
  · intro space labels
    refine ⟨MemoryStore.pairwise_listInstances hm space labels, ?_⟩
    obtain ⟨r, hlist, hlisted⟩ := exists_listed hold hplain space labels
    replace hlisted := hlisted.congr fun space labels =>
      MemoryStore.listInstances_congr hm hstored hsame space labels
    exact ⟨r, hlist, hlisted, fun l hl => (hl ▸ hlisted).eq_iff hm⟩
  · intro self hself
    obtain ⟨report, filed, hmemory, hdisk, halike⟩ :=
      exists_restartsAlike hold hplain hstored hm hsame hself
    exact ⟨report, filed, hmemory, hdisk, halike, halike.eq_iff hm⟩

/-- The servers `server` and `server-1` are listed in one order in memory and in the other order on
disk. -/
theorem listing_order_server :
    let s : DirectoryStore := ⟨⟨true, ["var"]⟩⟩
    let l : List Instance := [⟨⟨"n", "server"⟩, .empty⟩, ⟨⟨"n", "server-1"⟩, .empty⟩]
    let d := (runWith Disk.handler (l.reverse.forM s.addInstance) (.withWorking ["var"])).2
    ∃ filed, runWith Disk.handler (s.listInstances "n" .empty) d = (.ok filed, d) ∧
      filed.Perm ((MemoryStore.ofInstances l).listInstances "n" .empty) ∧
      filed ≠ (MemoryStore.ofInstances l).listInstances "n" .empty := by
  intro s l d
  have hfresh : s.Fresh ["var"] (.withWorking ["var"]) :=
    .of_entries (by decide +kernel) (by decide +kernel) (by decide +kernel) (by decide +kernel)
  have hok : (runWith Disk.handler (l.reverse.forM s.addInstance) (.withWorking ["var"])).1.isOk =
      true := by decide +kernel
  have hrun : runWith Disk.handler (l.reverse.forM s.addInstance) (.withWorking ["var"]) =
      (.ok (), d) := by
    refine Prod.ext ?_ rfl
    cases hres : (runWith Disk.handler (l.reverse.forM s.addInstance) (.withWorking ["var"])).1 with
    | ok => rfl
    | error e =>
      rw [hres] at hok
      cases hok
  have hdistinct : l.Pairwise fun i j => i.id ≠ j.id := by decide
  obtain ⟨hlists, -⟩ := listing_order hfresh (by decide)
    (MemoryStore.get?_ofInstances_of_perm l.reverse_perm hdistinct) hrun
  obtain ⟨-, r, hlist, hlisted, hiff⟩ := hlists "n" .empty
  cases hlisted with
  | refused hname => exact absurd (by decide) hname
  | @filed filed hperm =>
    refine ⟨filed, hlist, hperm, fun hsame => ?_⟩
    have hmem : ∀ i ∈ l, i ∈ filed := by
      intro i hi
      rw [hperm.mem_iff, MemoryStore.mem_listInstances_iff (MemoryStore.keyed_ofInstances l)]
      rcases List.mem_pair.mp hi with rfl | rfl
      · exact ⟨rfl, by decide, by decide⟩
      · exact ⟨rfl, by decide, by decide⟩
    have hovertakes : Overtakes "server-1" "server" := ⟨"-1", by decide, by decide⟩
    exact (hiff filed rfl).mp hsame _ (hmem ⟨⟨"n", "server-1"⟩, .empty⟩ (by simp [l])) _
      (hmem ⟨⟨"n", "server"⟩, .empty⟩ (by simp [l])) hovertakes

end DirectoryStore

end CertKeeper
