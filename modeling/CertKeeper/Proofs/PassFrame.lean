import CertKeeper.Proofs.PassPair
import CertKeeper.Proofs.RestartFrame

/-!
# What a pass changes

Whatever the authority does and whichever requests fail, a pass leaves the pair of its record alone,
removes it as a whole or replaces it as a whole, and changes nothing else but the instances that a
restart reports as removed (`Reconciler.reconcile_frame`).
-/

namespace CertKeeper

open CertKeeper.Action Reconciler

namespace Serves

variable {r : Reconciler} {σ : Type} {h : Handler World σ} {view : σ → MemoryStore}
  {w w' : σ} {id : Identity}

/-- What is fetched is the stored pair, unless nothing is found. -/
theorem runWith_fetch (hs : Serves h view (KeepsPair id)) {record : Record}
    (hrun : runWith h (onStore (fetch id)) w = (.ok record, w')) :
    record = .missing id ∨ (view w).managed? id =
      some (record.data.get? certificateField, record.data.get? keyField) := by
  rw [runWith_fetch_eq] at hrun
  obtain ⟨s, hc, hanswer⟩ := hs.request (.getRecord id) w
  rcases hq : h (.inl (.getRecord id)) w with ⟨e | found, w₁⟩
  · rw [hq] at hrun
    dsimp only at hrun
    split at hrun
    · cases hrun
      exact .inl rfl
    · cases hrun
  · rw [hq] at hrun hanswer
    cases hrun
    obtain ⟨⟨_, he⟩, _⟩ | ⟨he, _⟩ := hanswer
    · cases he
    · refine .inr ?_
      rw [← hc, MemoryStore.managed?, MemoryStore.getRecord_eq_ok_iff.mp he.symm]
      rfl

/-- Where looking does not end with an absent pair, the fetched pair is the stored one. -/
theorem managed?_of_evaluate (hs : Serves h view (KeepsPair id)) {record : Record} {w₁ : σ}
    {authority : Authority} {dnsName : Option String} {now : Option Moment} {u u' : σ}
    {evaluation : Evaluation} (hfetch : runWith h (onStore (fetch id)) w = (.ok record, w₁))
    (hevaluate : runWith h (onSigning (evaluate record authority dnsName now)) u =
      (.ok evaluation, u'))
    (hpresent : evaluation ≠ .absent) :
    ∃ certificate key, record.data.get? certificateField = some certificate ∧
      record.data.get? keyField = some key ∧
      (view w).managed? id = some (some certificate, some key) := by
  rw [runWith_onSigning] at hevaluate
  obtain ⟨certificate, key, hc, hk⟩ := exists_pair_of_evaluate_ne_absent hevaluate hpresent
  have hc' := (Fields.filled?_eq_some_iff.mp hc).1
  have hk' := (Fields.filled?_eq_some_iff.mp hk).1
  obtain rfl | hm := runWith_fetch hs hfetch
  · cases hc'
  · exact ⟨certificate, key, hc', hk', by rw [hm, hc', hk']⟩

/-- A pair that is to be kept is the stored one. -/
theorem managed?_of_keep (hs : Serves h view (KeepsPair id)) {m : Moment} {data : Fields}
    {authority : Authority} {remaining : Span}
    (hrun : runWith h (r.judge id m) w = (.ok (data, authority, .keep remaining), w')) :
    (view w).managed? id = some (some ((data.get? certificateField).getD []),
      some ((data.get? keyField).getD [])) := by
  obtain ⟨record, evaluation, w₁, w₂, rfl, hfetch, _, hevaluate, hdecide⟩ :=
    r.runWith_judge_eq_ok hrun
  obtain ⟨notAfter, rfl, _⟩ := decide_eq_keep hdecide
  obtain ⟨certificate, key, hc, hk, hm⟩ := managed?_of_evaluate hs hfetch hevaluate nofun
  rw [hm, hc, hk]
  rfl

/-- A record whose pair is to be replaced has a pair. -/
theorem exists_managed?_of_invalidate (hs : Serves h view (KeepsPair id)) {m : Moment}
    {data : Fields} {authority : Authority} {reason : String} {lifetime : Span}
    (hrun : runWith h (r.judge id m) w =
      (.ok (data, authority, .invalidate reason lifetime), w')) :
    ∃ certificate key, (view w).managed? id = some (some certificate, some key) := by
  obtain ⟨record, evaluation, w₁, w₂, rfl, hfetch, _, hevaluate, hdecide⟩ :=
    r.runWith_judge_eq_ok hrun
  obtain ⟨defect, rfl⟩ := decide_eq_invalidate hdecide
  obtain ⟨certificate, key, _, _, hm⟩ := managed?_of_evaluate hs hfetch hevaluate nofun
  exact ⟨certificate, key, hm⟩

/-- What a pass that keeps a pair stores is the stored pair. -/
private theorem managed?_of_stores_keep (hs : Serves h view (KeepsPair id)) {now : Option Moment}
    {remaining : Span} {pair : Bytes × Bytes}
    (hstores : r.StoresInPass h id now w (.keep remaining) pair) :
    (view w).managed? id = some (some pair.1, some pair.2) := by
  obtain ⟨m, w₀, data, authority, w₁, hclock, hjudge, rfl⟩ := hstores
  rw [← hs.keepsPair_clock hclock]
  exact managed?_of_keep hs hjudge

/-- Requests that read records or write the pair of one change nothing else. -/
private theorem agreeButPair_request (hs : ServesAlone h view) {q : Store.Request}
    (hq : q.IsRead ∨ q.WritesPair id) (w : σ) :
    MemoryStore.AgreeButPair id (view w) (view (h (.inl q) w).2) := by
  obtain ⟨_, hv⟩ | ⟨he, hv⟩ := view_of_error hs q w
  · rw [hv]
    exact .refl _ _
  rw [hv]
  cases q with
  | getRecord j => exact .refl _ _
  | upsert j change =>
    obtain hq | ⟨rfl, f, rfl, hf⟩ := hq
    · cases hq
    · obtain ⟨o, s', ho⟩ := MemoryStore.exists_upsert_eq_ok (view w) j f
      have hs' : (MemoryStore.handler (.upsert j fun data => .ok (f data)) (view w)).2 = s' :=
        congrArg Prod.snd ho
      rw [hs']
      exact MemoryStore.upsert_agreeButPair hf ho
  | getInstance j => exact .refl _ _
  | listInstances space labels => exact .refl _ _
  | deleteInstance j => obtain hq | hq := hq <;> cases hq

/-- What only reads records leaves the store as it is. -/
theorem view_of_reads (hs : ServesAlone h view) {α : Type} {a : Action World α}
    (ha : Asks (World.StoreOnly Store.Request.IsRead) a) (w : σ) :
    view (runWith h a w).2 = view w := by
  refine Program.run_induction (R := fun u v => view v = view u) (fun _ => rfl)
    (fun _ _ _ h₁ h₂ => h₂.trans h₁) ?_ ha w
  rintro (q | q) u hq
  · obtain ⟨_, hv⟩ | ⟨_, hv⟩ := view_of_error hs q u
    · exact hv
    · cases q with
      | getRecord j => exact hv
      | _ => cases hq
  · exact (hs.signing q u).symm

/-- Until the record is dealt with, a pass changes nothing but its pair. -/
theorem agreeButPair_settle (hs : ServesAlone h view) (hr : ReadsOnly r.resolve) (id : Identity)
    (now : Option Moment) (w : σ) :
    MemoryStore.AgreeButPair id (view w) (view (runWith h (r.settle id now) w).2) := by
  refine Program.run_induction (R := fun u v => MemoryStore.AgreeButPair id (view u) (view v))
    (fun _ => .refl _ _) (fun _ _ _ h₁ h₂ => h₁.trans h₂) ?_ (r.asks_settle hr id now) w
  rintro (q | q) u hq
  · exact agreeButPair_request hs hq u
  · rw [← hs.signing q u]
    exact .refl _ _

/-- What a pass does after it has dealt with its record changes no record. -/
theorem records_of_reconcile (hs : ServesAlone h view) {now : Option Moment} {decision : Decision}
    {outcome : Outcome} {w₁ : σ} {res : Except Failure PassResult}
    (hsettle : runWith h (r.settle id now) w = (.ok (decision, outcome), w₁))
    (hrun : runWith h (r.reconcile id now) w = (res, w')) :
    (view w').records = (view w₁).records := by
  rw [reconcile_eq, runWith_bind, hsettle] at hrun
  have hrecords : (view (runWith h (r.conclude id decision outcome) w₁).2).records =
      (view w₁).records := by
    refine Program.run_induction (R := fun u v => (view v).records = (view u).records)
      (fun _ => rfl) (fun _ _ _ h₁ h₂ => h₂.trans h₁) ?_ (r.asks_conclude id decision outcome) w₁
    rintro (q | q) u hq
    · obtain ⟨_, hv⟩ | ⟨_, hv⟩ := view_of_error hs q u
      · rw [hv]
      · rw [hv, MemoryStore.records_handler (Store.Request.ConcernsInstances.not_isUpsert hq)]
    · cases hq
  dsimp only at hrun
  rwa [hrun] at hrecords

end Serves

namespace Reconciler

variable (r : Reconciler) {σ : Type}

/-- What has become of the pair of a record. A pass that fails leaves it alone or removes it as a
whole; one that keeps it leaves it alone, and every other one replaces it as a whole by the pair
that its authority issued. -/
def PairAfter (h : Handler World σ) (id : Identity) (now : Option Moment) (w : σ)
    (res : Except Failure PassResult) (before after : MemoryStore) : Prop :=
  match res with
  | .error _ => after.managed? id = before.managed? id ∨ after.managed? id = some (none, none)
  | .ok ⟨_, .keep _, _, _, _⟩ => after.managed? id = before.managed? id
  | .ok ⟨_, decision, _, _, _⟩ => ∃ pair, r.StoresInPass h id now w decision pair ∧
      after.managed? id = some (some pair.1, some pair.2)

/-- The names of the instances that a pass reports as removed. -/
def removedNames : Except Failure PassResult → List String
  | .ok ⟨_, _, _, _, some report⟩ => report.terminated
  | _ => []

variable {r} {h : Handler World σ} {view : σ → MemoryStore} {w w' : σ} {id : Identity}
  {now : Option Moment}

/-- Dealing with a record leaves its pair as it is said of the whole pass. -/
theorem pairAfter_settle (hs : ServesAlone h view) (hr : ReadsOnly r.resolve)
    {res : Except Failure (Decision × Outcome)} (hrun : runWith h (r.settle id now) w = (res, w'))
    (restart : Option RestartReport) :
    r.PairAfter h id now w
      (res.map fun done => ⟨id, done.1, done.2, done.1.requeueAfter, restart⟩)
      (view w) (view w') := by
  obtain ⟨e, rfl, hpair⟩ | ⟨decision, o, pair, rfl, hstores, hleaves⟩ :=
    (Serves.keepsPair hs id).runWith_settle hr hrun
  · exact hpair
  cases decision with
  | issue reason lifetime => exact ⟨pair, hstores, hleaves.left⟩
  | invalidate reason lifetime => exact ⟨pair, hstores, hleaves.left⟩
  | keep remaining =>
    exact hleaves.left.trans (Serves.managed?_of_stores_keep (Serves.keepsPair hs id) hstores).symm

/-- A pass leaves the pair of its record alone, removes it or replaces it as a whole; every other
field of the record and every other record stay as they are, and no instance is removed but those
that the report of a restart lists. -/
theorem reconcile_frame (hs : ServesAlone h view) (hr : ReadsOnly r.resolve)
    {res : Except Failure PassResult} (hrun : runWith h (r.reconcile id now) w = (res, w')) :
    r.PairAfter h id now w res (view w) (view w') ∧
    (∀ name, ¬ Writer.IsManaged name → (view w').field? id name = (view w).field? id name) ∧
    (∀ j, j ≠ id → (view w').records.get? j = (view w).records.get? j) ∧
    (view w').instances =
      ((view w).without ((view w).groupSpace r.self) (removedNames res)).instances := by
  have hframe := Serves.agreeButPair_settle hs hr id now w
  cases r.course_of_runWith hrun with
  | fails hsettle =>
    rw [hsettle] at hframe
    exact ⟨pairAfter_settle hs hr hsettle none, hframe.fields, hframe.records, hframe.instances⟩
  | noRestart hsettle calm =>
    rw [hsettle] at hframe
    exact ⟨pairAfter_settle hs hr hsettle none, hframe.fields, hframe.records, hframe.instances⟩
  | @restart w₁ _ decision report hsettle reserved hrestart =>
    rw [hsettle] at hframe
    rw [runWith_onStore] at hrestart
    have hrest := Serves.runWith_restart hs hrestart
    have hrecords : (view w').records = (view w₁).records := by rw [hrest]; rfl
    have hpair := pairAfter_settle hs hr hsettle (some report)
    have hspace : (view w₁).groupSpace r.self = (view w).groupSpace r.self := by
      rw [MemoryStore.groupSpace, MemoryStore.groupSpace, hframe.instances]
    refine ⟨?_, ?_, ?_, ?_⟩
    · cases decision <;> simpa only [PairAfter, Except.map, MemoryStore.managed?, hrecords]
        using hpair
    · intro name hn
      rw [MemoryStore.field?, hrecords]
      exact hframe.fields name hn
    · intro j hj
      rw [hrecords]
      exact hframe.records j hj
    · rw [hrest, hspace, MemoryStore.without, MemoryStore.without, hframe.instances]
      rfl

/-- The pass that replaces a pair nobody can read by `([3], [4])` leaves the further field and the
other records as they are, and the server is the only instance removed. -/
theorem reconcile_frame_unreadable :
    let run := runWith (World.inMemory scriptedSigner)
      (Reconciler.outside.reconcile ⟨"system", "tls"⟩ (some .first)) (.unreadable, [.ok ([3], [4])])
    run.2.1.managed? ⟨"system", "tls"⟩ = some (some [3], some [4]) ∧
    run.2.1.field? ⟨"system", "tls"⟩ "note" = some [7] ∧
    (∀ j, j ≠ ⟨"system", "tls"⟩ → run.2.1.records.get? j = MemoryStore.unreadable.records.get? j) ∧
    removedNames run.1 = ["server"] ∧
    run.2.1.instances = (MemoryStore.unreadable.without "system" ["server"]).instances := by
  intro run
  have hremoved : removedNames run.1 = ["server"] := by decide +kernel
  obtain ⟨_, hfields, hrecords, hinstances⟩ :=
    reconcile_frame (r := Reconciler.outside) (servesAlone_inMemory scriptedSigner) (asks_pure _)
      (rfl : _ = (run.1, run.2))
  have hnote : ¬ Writer.IsManaged "note" := by
    unfold Writer.IsManaged
    decide
  refine ⟨by decide +kernel, (hfields "note" hnote).trans (by decide), hrecords, hremoved, ?_⟩
  rw [hinstances, hremoved]
  rfl

end Reconciler

end CertKeeper
