import CertKeeper.Proofs.PassPair

/-!
# Rotations reach the servers

In a run of passes for the reserved record any request may fail and others may use the store too, as
long as they leave the pair alone. A pass that succeeds and leaves another pair than the last
successful one did restarts the servers, once and after all its writes; every other pass removes no
instance (`Reconciler.rotation_restarts`).
-/

namespace CertKeeper

open CertKeeper.Action Reconciler

variable {σ : Type}

/-! ## What a pass asked -/

namespace Serves

variable {h : Handler World σ} {view : σ → MemoryStore}
  {Change : MemoryStore → MemoryStore → Prop}

/-- Writing down the questions does not change what is served. -/
theorem logged (hs : Serves h view Change) :
    Serves (Handler.logged h) (fun w => view w.1) Change where
  request q w := hs.request q w.1
  signing q w := hs.signing q w.1

end Serves

/-! ## Runs of passes -/

/-- A pass that is called: whose it is, and at which moment, if one is given. -/
structure PassCall where
  reconciler : Reconciler
  now : Option Moment

namespace PassCall

/-- What is seen of a pass for a record: what it ends with, the state in which it ends, and the
questions that it asked in their order. -/
def observe (h : Handler World σ) (id : Identity) (c : PassCall) (w : σ) :
    Except Failure PassResult × σ × List World.Question :=
  runWith (Handler.logged h) (c.reconciler.reconcile id c.now) (w, [])

end PassCall

/-- How far a run of passes has come: its state, and the state in which the last successful pass
ended; in the beginning that is the state at the start. -/
structure Progress (σ : Type) where
  current : σ
  settled : σ

namespace Progress

/-- The progress after a further pass. -/
def next (h : Handler World σ) (id : Identity) (g : Progress σ) (c : PassCall) : Progress σ :=
  match c.observe h id g.current with
  | (.ok _, w, _) => ⟨w, w⟩
  | (.error _, w, _) => ⟨w, g.settled⟩

/-- The progress after passes for a record that are called one after another. -/
def after (h : Handler World σ) (id : Identity) (w : σ) (calls : List PassCall) : Progress σ :=
  calls.foldl (next h id) ⟨w, w⟩

end Progress

/-- A pass restarted the servers exactly once and after all its writes: until it had dealt with the
record it asked nothing about instances, then came one restart, which its result reports, and from
there on it asked nothing about records. -/
def PassCall.RestartsOnceAtEnd (h : Handler World σ) (id : Identity) (c : PassCall) (w : σ)
    (result : PassResult) (w' : σ) (log : List World.Question) : Prop :=
  ∃ decision outcome middle before after report, log = before ++ after ∧
    runWith (Handler.logged h) (c.reconciler.settle id c.now) (w, []) =
      (.ok (decision, outcome), middle, before) ∧
    (∀ q ∈ before, World.StoreOnly (fun q => ¬ q.ConcernsInstances) q) ∧
    runWith (Handler.logged h) (onStore (Restart.restart c.reconciler.self)) (middle, []) =
      (.ok report, w', after) ∧
    (∀ q ∈ after, World.OfStore Store.Request.ConcernsInstances q) ∧
    result.restart = some report

namespace Serves

variable {r : Reconciler} {h : Handler World σ} {view : σ → MemoryStore} {w w' : σ}
  {id : Identity}

/-- A restart keeps the pair. -/
private theorem keepsPair_restart (hs : Serves h view (KeepsPair id)) {self : Identity}
    {res : Except Failure RestartReport}
    (hrun : runWith h (onStore (Restart.restart self)) w = (res, w')) :
    KeepsPair id (view w) (view w') := by
  have hasks : Asks (World.StoreOnly fun q => ¬ q.IsUpsert) (onStore (Restart.restart self)) := by
    refine storeOnly_onStore ((asks_restart self).mono fun q hq => ?_)
    cases q <;> first | exact fun hu => hu | cases hq
  have hk := hs.keepsPair_runWith hasks w
  rwa [hrun] at hk

/-- After a pass for a record with a pair: if it failed, the pair is as before or removed; else
there is a whole pair, and it is the same as before if no change is reported. -/
theorem runWith_reconcile (hs : Serves h view (KeepsPair id)) (hr : ReadsOnly r.resolve)
    {now : Option Moment} {res : Except Failure PassResult}
    (hrun : runWith h (r.reconcile id now) w = (res, w')) :
    (∃ e, res = .error e ∧
      (KeepsPair id (view w) (view w') ∨ (view w').managed? id = some (none, none))) ∨
      ∃ (result : PassResult) (pair : Bytes × Bytes), res = .ok result ∧
        Leaves view id (some pair.1, some pair.2) result.outcome w w' := by
  cases r.course_of_runWith hrun with
  | @fails _ e hsettle =>
    obtain ⟨_, _, hpair⟩ | ⟨_, _, _, ho, _⟩ := hs.runWith_settle hr hsettle
    · exact .inl ⟨e, rfl, hpair⟩
    · cases ho
  | noRestart hsettle calm =>
    obtain ⟨_, he, _⟩ | ⟨_, _, pair, ho, _, hleaves⟩ := hs.runWith_settle hr hsettle
    · cases he
    · cases ho
      exact .inr ⟨_, pair, rfl, hleaves⟩
  | restart hsettle reserved hrestart =>
    obtain ⟨_, he, _⟩ | ⟨_, _, pair, ho, _, hleaves⟩ := hs.runWith_settle hr hsettle
    · cases he
    · cases ho
      exact .inr ⟨_, pair, rfl,
        ⟨(hs.keepsPair_restart hrestart).trans hleaves.left, hleaves.unchanged, hleaves.created⟩⟩

end Serves

namespace Reconciler

variable {h : Handler World σ} {view : σ → MemoryStore} {w : σ} {id : Identity}

/-- Since the last successful pass the pair has stayed or been removed. -/
def PairStayedOrWent (view : σ → MemoryStore) (id : Identity) (g : Progress σ) : Prop :=
  ∃ pair, (view g.settled).managed? id = some pair ∧
    ((view g.current).managed? id = some pair ∨ (view g.current).managed? id = some (none, none))

/-- Every pass keeps up that since the last successful one the pair has stayed or been removed. -/
private theorem pairStayedOrWent_next (hs : Serves h view (KeepsPair id)) {g : Progress σ}
    {c : PassCall}
    (hr : ReadsOnly c.reconciler.resolve) (hg : PairStayedOrWent view id g) :
    PairStayedOrWent view id (g.next h id c) := by
  obtain ⟨pair, hsettled, hcurrent⟩ := hg
  rcases hobs : c.observe h id g.current with ⟨e | result, w', log⟩
  · have hnext : g.next h id c = ⟨w', g.settled⟩ := by rw [Progress.next, hobs]
    rw [hnext]
    refine ⟨pair, hsettled, ?_⟩
    obtain ⟨_, _, hkept | hremoved⟩ | ⟨_, _, ho, _⟩ := hs.logged.runWith_reconcile hr hobs
    · rcases hcurrent with hc | hc
      · exact .inl (hkept.trans hc)
      · exact .inr (hkept.trans hc)
    · exact .inr hremoved
    · cases ho
  · have hnext : g.next h id c = ⟨w', w'⟩ := by rw [Progress.next, hobs]
    rw [hnext]
    obtain ⟨_, he, _⟩ | ⟨_, pair', _, hleaves⟩ := hs.logged.runWith_reconcile hr hobs
    · cases he
    · exact ⟨_, hleaves.left, .inl hleaves.left⟩

/-- After every run of passes for a record that is there, its pair has stayed or the servers have
been restarted since. -/
private theorem pairStayedOrWent_after (hs : Serves h view (KeepsPair id))
    (hexists : (view w).managed? id ≠ none) {calls : List PassCall}
    (hcalls : ∀ c ∈ calls, ReadsOnly c.reconciler.resolve) :
    PairStayedOrWent view id (Progress.after h id w calls) := by
  obtain ⟨pair, hpair⟩ := Option.ne_none_iff_exists'.mp hexists
  exact List.foldlRecOn calls (Progress.next h id) ⟨pair, hpair, .inl hpair⟩
    fun g hg c hc => pairStayedOrWent_next hs (hcalls c hc) hg

/-- Dealing with a record asks nothing about instances. -/
theorem asks_settle_withoutInstances (r : Reconciler) (hr : ReadsOnly r.resolve) (id : Identity)
    (now : Option Moment) :
    Asks (World.StoreOnly fun q => ¬ q.ConcernsInstances) (r.settle id now) := by
  refine (r.asks_settle hr id now).mono (World.StoreOnly.mono fun q hq => ?_)
  cases q with
  | listInstances | getInstance | deleteInstance => rcases hq with hq | hq <;> cases hq
  | getRecord | upsert => exact fun hi => hi

/-- A pass that fails, reports no change or is for another record asks nothing about instances. -/
theorem not_concernsInstances {c : PassCall} (hr : ReadsOnly c.reconciler.resolve)
    {res : Except Failure PassResult} {w' : σ} {log : List World.Question}
    (hobs : c.observe h id w = (res, w', log))
    (hcalm : ∀ result, res = .ok result →
      ¬ (id = c.reconciler.reserved ∧ result.outcome = .updated)) :
    ∀ q ∈ log, World.StoreOnly (fun q => ¬ q.ConcernsInstances) q := by
  have hasks := c.reconciler.asks_settle_withoutInstances hr id c.now
  cases c.reconciler.course_of_runWith hobs with
  | fails hsettle =>
    obtain ⟨asked, rfl, hasked, _⟩ := Action.exists_log hasks hsettle
    exact hasked
  | noRestart hsettle calm =>
    obtain ⟨asked, rfl, hasked, _⟩ := Action.exists_log hasks hsettle
    exact hasked
  | restart hsettle reserved hrestart => exact absurd ⟨reserved, rfl⟩ (hcalm _ rfl)

/-- A pass that updates the reserved record restarts the servers once and at its end. -/
private theorem restartsOnceAtEnd {c : PassCall} (hr : ReadsOnly c.reconciler.resolve)
    (hid : c.reconciler.reserved = id) {result : PassResult} {w' : σ} {log : List World.Question}
    (hobs : c.observe h id w = (.ok result, w', log)) (hupdated : result.outcome = .updated) :
    c.RestartsOnceAtEnd h id w result w' log := by
  have hasks := c.reconciler.asks_settle_withoutInstances hr id c.now
  cases c.reconciler.course_of_runWith hobs with
  | noRestart hsettle calm => exact absurd ⟨hid.symm, hupdated⟩ calm
  | @restart w₁ _ decision report hsettle reserved hrestart =>
    obtain ⟨before, hbefore, hasked, _⟩ := Action.exists_log hasks hsettle
    obtain ⟨after, hafter, hasked', hrestart'⟩ :=
      Action.exists_log (asks_onStore (asks_restart c.reconciler.self)) hrestart
    have hw₁ : w₁ = (w₁.1, before) := Prod.ext rfl (by simpa using hbefore)
    refine ⟨decision, .updated, w₁.1, before, after, report, ?_, hw₁ ▸ hsettle, hasked,
      hrestart', hasked', rfl⟩
    change log = w₁.2 ++ after at hafter
    rw [hafter, hbefore, List.nil_append]

/-- In a run of passes for the reserved record, which is there from the start, a pass that succeeds
and leaves another pair than the last successful one did restarts the servers, once and after all
its writes. A pass that fails or reports no change asks nothing about instances, and neither does a
pass for another record. -/
theorem rotation_restarts (hs : Serves h view (KeepsPair id))
    (hexists : (view w).managed? id ≠ none) {calls : List PassCall}
    (hcalls : ∀ c ∈ calls, ReadsOnly c.reconciler.resolve) {c : PassCall}
    (hr : ReadsOnly c.reconciler.resolve) (hid : c.reconciler.reserved = id)
    {res : Except Failure PassResult} {w' : σ} {log : List World.Question}
    (hobs : c.observe h id (Progress.after h id w calls).current = (res, w', log)) :
    (∀ result, res = .ok result →
      (view w').managed? id ≠ (view (Progress.after h id w calls).settled).managed? id →
      c.RestartsOnceAtEnd h id (Progress.after h id w calls).current result w' log) ∧
    ((∀ result, res = .ok result → result.outcome = .unchanged) →
      ∀ q ∈ log, World.StoreOnly (fun q => ¬ q.ConcernsInstances) q) ∧
    ∀ j u res' u' log', j ≠ id → c.observe h j u = (res', u', log') →
      ∀ q ∈ log', World.StoreOnly (fun q => ¬ q.ConcernsInstances) q := by
  refine ⟨?_, ?_, ?_⟩
  · rintro result rfl hdiffers
    apply restartsOnceAtEnd hr hid hobs
    obtain ⟨pair, hsettled, hcurrent⟩ := pairStayedOrWent_after hs hexists hcalls
    obtain ⟨_, he, _⟩ | ⟨_, pair', ho, hleaves⟩ := hs.logged.runWith_reconcile hr hobs
    · cases he
    cases ho
    have hpresent : (view (Progress.after h id w calls).current).managed? id ≠ none := by
      rcases hcurrent with hc | hc <;> simp [hc]
    cases ho : result.outcome with
    | updated => rfl
    | created => exact absurd (hleaves.created.mp ho) hpresent
    | unchanged =>
      have hsame := hleaves.unchanged ho
      rcases hcurrent with hc | hc
      · rw [hsettled, ← hc, hsame] at hdiffers
        exact absurd hleaves.left hdiffers
      · rw [hc] at hsame
        simp at hsame
  · intro hcalm
    apply not_concernsInstances hr hobs
    rintro result rfl ⟨_, hupdated⟩
    rw [hcalm result rfl] at hupdated
    cases hupdated
  · intro j u res' u' log' hj hobs'
    apply not_concernsInstances hr hobs'
    rintro result _ ⟨hj', _⟩
    exact hj (hj'.trans hid)

/-- A pass removes a pair nobody can read and then fails; the pass after it stores `([3], [4])` and
restarts the server. -/
theorem rotation_restarts_after_failure :
    let h := World.inMemory scriptedSigner
    let c : PassCall := ⟨Reconciler.outside, some .first⟩
    let failure := .error (.external .runtime "no answer")
    let start := (MemoryStore.unreadable, [failure, .ok ([3], [4])])
    let g := Progress.after h ⟨"system", "tls"⟩ start [c]
    g.current.1.managed? ⟨"system", "tls"⟩ = some (none, none) ∧
    ∃ result w log, c.observe h ⟨"system", "tls"⟩ g.current = (.ok result, w, log) ∧
      w.1.managed? ⟨"system", "tls"⟩ = some (some [3], some [4]) ∧
      c.RestartsOnceAtEnd h ⟨"system", "tls"⟩ g.current result w log := by
  intro h c failure start g
  have hpair : (c.observe h ⟨"system", "tls"⟩ g.current).2.1.1.managed? ⟨"system", "tls"⟩ =
      some (some [3], some [4]) := by decide +kernel
  have hsettled : g.settled.1.managed? ⟨"system", "tls"⟩ = some (some [1], some [2]) := by
    decide +kernel
  have hok : (c.observe h ⟨"system", "tls"⟩ g.current).1.isOk = true := by decide +kernel
  rcases hobs : c.observe h ⟨"system", "tls"⟩ g.current with ⟨e | result, w, log⟩
  · rw [hobs] at hok
    cases hok
  rw [hobs] at hpair
  have hs : Serves h Prod.fst (KeepsPair ⟨"system", "tls"⟩) :=
    Serves.keepsPair (servesAlone_inMemory scriptedSigner) _
  have hcalls : ∀ c' ∈ [c], ReadsOnly c'.reconciler.resolve := by
    intro c' hc'
    cases List.mem_singleton.mp hc'
    exact asks_pure _
  obtain ⟨hrestarts, _, _⟩ :=
    rotation_restarts hs (w := start) (by decide +kernel) hcalls (c := c) (asks_pure _) rfl hobs
  refine ⟨by decide +kernel, result, w, log, rfl, hpair, hrestarts result rfl ?_⟩
  rw [hpair, hsettled]
  decide

end Reconciler

end CertKeeper
