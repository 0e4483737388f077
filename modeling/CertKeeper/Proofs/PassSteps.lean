import CertKeeper.Proofs.FromSettings
import CertKeeper.Proofs.RestartRun

/-!
# The steps of a pass

A pass first looks (`Reconciler.judge`), then deals with the record (`Reconciler.carryOut`), and
last restarts the servers if it has to (`Reconciler.conclude`). The three ask different things of
the store: the first one reads records, the second one writes the pair of its record, the third one
deals with instances. `Reconciler.Settles` and `Reconciler.Course` list the ways in which a pass
goes.
-/

namespace CertKeeper

/-! ## Kinds of requests -/

namespace Store.Request

/-- Whether a request is for a record. -/
def IsRead : Store.Request → Prop
  | getRecord _ => True
  | _ => False

/-- A request for the record with an identity. -/
def Reads (id : Identity) (q : Store.Request) : Prop := q = getRecord id

/-- Whether a request may change a record. -/
def IsUpsert : Store.Request → Prop
  | upsert _ _ => True
  | _ => False

/-- Whether a request is about instances. -/
def ConcernsInstances : Store.Request → Prop
  | getInstance _ | listInstances _ _ | deleteInstance _ => True
  | getRecord _ | upsert _ _ => False

/-- A request about instances that looks for no other one than the executing one. -/
def Restarts (self : Identity) : Store.Request → Prop
  | getInstance id => id = self
  | listInstances _ _ | deleteInstance _ => True
  | getRecord _ | upsert _ _ => False

private theorem Restarts.concernsInstances {self : Identity} {q : Store.Request}
    (h : q.Restarts self) :
    q.ConcernsInstances := by
  cases q with
  | getInstance | listInstances | deleteInstance => trivial
  | getRecord | upsert => cases h

private theorem Reads.isRead {id : Identity} {q : Store.Request} (h : q.Reads id) : q.IsRead := by
  rw [h]
  trivial

/-- A request for a record changes none. -/
theorem IsRead.not_isUpsert {q : Store.Request} (h : q.IsRead) : ¬ q.IsUpsert := by
  cases q <;> first | exact fun h' => h' | cases h

/-- A request about instances changes no record. -/
theorem ConcernsInstances.not_isUpsert {q : Store.Request} (h : q.ConcernsInstances) :
    ¬ q.IsUpsert := by
  cases q <;> first | exact fun h' => h' | cases h

end Store.Request

/-- A question of a pass is to the store and of a kind. -/
def World.OfStore (P : Store.Request → Prop) : World.Question → Prop
  | .inl q => P q
  | .inr _ => False

/-- A question of a pass is not to the store, or it is and of a kind. -/
def World.StoreOnly (P : Store.Request → Prop) : World.Question → Prop
  | .inl q => P q
  | .inr _ => True

/-- A question to the store of a kind is one. -/
theorem World.storeOnly_of_ofStore {P : Store.Request → Prop} (q : World.Question)
    (hq : World.OfStore P q) : World.StoreOnly P q :=
  match q with
  | .inl _ => hq
  | .inr _ => trivial

/-- A weaker condition on requests to the store holds of every question for which a stronger one
does. -/
theorem World.StoreOnly.mono {P Q : Store.Request → Prop} (hPQ : ∀ q, P q → Q q)
    (q : World.Question) (hq : World.StoreOnly P q) : World.StoreOnly Q q :=
  match q with
  | .inl q => hPQ q hq
  | .inr _ => trivial

namespace Action

/-- An action on a store that reads records and does nothing else there. -/
def ReadsOnly {α : Type} (a : Action Store α) : Prop := Asks Store.Request.IsRead a

end Action

/-- What a handler of passes answers to requests to the store. -/
def World.storeOf {σ : Type} (h : Handler World σ) : Handler Store σ := Handler.ofLeft h

/-- What a handler of passes answers to requests of authorities. -/
def World.signingOf {σ : Type} (h : Handler World σ) : Handler Signing σ := Handler.ofRight h

namespace Reconciler

open CertKeeper.Action

variable (r : Reconciler) {σ α : Type} {h : Handler World σ} {w w' : σ}

/-- What a pass does before it deals with the record. -/
def judge (id : Identity) (now : Moment) : Action World (Fields × Authority × Decision) := do
  let record ← onStore (fetch id)
  let authority ← onStore r.authority
  let evaluation ← onSigning (evaluate record authority (some r.dnsName) (some now))
  let decision ← Action.ofExcept .time (evaluation.decide r.lifetime now)
  return (record.data, authority, decision)

/-- What a pass does until it has dealt with the record. -/
def settle (id : Identity) (now : Option Moment) : Action World (Decision × Outcome) := do
  let now ← onSigning (Signing.momentOr now)
  let (data, authority, decision) ← r.judge id now
  let outcome ← r.carryOut id data authority now decision
  return (decision, outcome)

/-- What a pass does after it has dealt with the record. -/
def conclude (id : Identity) (decision : Decision) (outcome : Outcome) :
    Action World PassResult := do
  let restart ←
    if id = r.reserved ∧ outcome = .updated then some <$> onStore (Restart.restart r.self)
    else pure none
  return ⟨id, decision, outcome, decision.requeueAfter, restart⟩

/-- A pass deals with the record and then concludes. -/
theorem reconcile_eq (id : Identity) (now : Option Moment) :
    r.reconcile id now = (r.settle id now >>= fun done => r.conclude id done.1 done.2) := by
  simp [reconcile, settle, judge, conclude]

/-! ## What the parts ask -/

/-- An action on the store asks in a world what it asks there, and nothing of the signer. -/
theorem asks_onStore {P : Store.Request → Prop} {a : Action Store α} (ha : Asks P a) :
    Asks (World.OfStore P) (onStore a) :=
  Program.Asks.left (Program.Asks.mono (fun _ hq => hq) ha)

/-- An action of the signer asks nothing of the store. -/
theorem asks_onSigning {P : Store.Request → Prop} (a : Action Signing α) :
    Asks (World.StoreOnly P) (onSigning a) :=
  Program.Asks.right (Program.asks_of_forall (fun _ => trivial) _)

/-- An action on the store asks of it in a world what it asks there. -/
theorem storeOnly_onStore {P : Store.Request → Prop} {a : Action Store α} (ha : Asks P a) :
    Asks (World.StoreOnly P) (onStore a) :=
  (asks_onStore ha).mono World.storeOnly_of_ofStore

/-- Fetching a record asks for that record only. -/
theorem asks_fetch_reads (id : Identity) : Asks (Store.Request.Reads id) (fetch id) := by
  refine Asks.bind (Asks.outcome ⟨rfl, fun _ => trivial⟩) fun res => ?_
  cases res with
  | ok record => exact asks_pure _
  | error cause =>
    dsimp only
    split
    · exact asks_pure _
    · exact asks_throw _

/-- Fetching a record only reads. -/
theorem asks_fetch (id : Identity) : ReadsOnly (fetch id) :=
  (asks_fetch_reads id).mono fun _ hq => hq.isRead

/-- Looking reads records and does nothing else in the store, if finding the authority does. -/
theorem asks_judge (hr : ReadsOnly r.resolve) (id : Identity) (now : Moment) :
    Asks (World.StoreOnly Store.Request.IsRead) (r.judge id now) := by
  refine (storeOnly_onStore (asks_fetch id)).bind fun record => ?_
  refine (storeOnly_onStore (hr.mapFailure _)).bind fun authority => ?_
  refine (asks_onSigning _).bind fun evaluation => ?_
  exact (asks_ofExcept _ _).bind fun decision => asks_pure _

/-- A stored authority is found by reading its record. -/
theorem asks_resolveAuthority_reads (id : Identity) (bits : Int) :
    Asks (Store.Request.Reads id) (resolveAuthority id bits) := by
  refine Asks.bind (Asks.outcome ⟨rfl, fun _ => trivial⟩) fun res => ?_
  cases res with
  | ok record => exact trivial
  | error cause =>
    dsimp only
    split <;> exact asks_throw _

/-- Finding an authority only reads. -/
theorem asks_resolveAuthority (id : Identity) (bits : Int) :
    ReadsOnly (resolveAuthority id bits) :=
  (asks_resolveAuthority_reads id bits).mono fun _ hq => hq.isRead

/-- Finding the authority of settings asks for the authority's record only. -/
theorem asks_resolve_ofSettings {s : Settings} (hr : Reconciler.ofSettings s = .ok r) :
    Asks (Store.Request.Reads s.authorityId) r.resolve := by
  rw [ofSettings_eq_ok hr]
  exact Asks.map _ (asks_resolveAuthority_reads s.authorityId s.keyBits)

/-- Finding the authority of settings only reads. -/
theorem readsOnly_ofSettings {s : Settings} (hr : Reconciler.ofSettings s = .ok r) :
    ReadsOnly r.resolve :=
  (asks_resolve_ofSettings r hr).mono fun _ hq => hq.isRead

/-- A restart looks for the executing instance and then for its group, and deletes instances. -/
theorem asks_restart_self (self : Identity) :
    Asks (Store.Request.Restarts self) (Restart.restart self) := by
  have hremove (report : RestartReport) (i : Instance) :
      Asks (Store.Request.Restarts self) (Restart.remove report i) := by
    refine Asks.bind (Asks.outcome ⟨trivial, fun _ => trivial⟩) fun res => ?_
    cases res <;> exact asks_pure _
  have hall (l : List Instance) (report : RestartReport) :
      Asks (Store.Request.Restarts self) (Restart.removeAll report l) := by
    induction l generalizing report with
    | nil => exact asks_pure _
    | cons i rest ih => exact (hremove report i).bind fun res => ih _
  refine Asks.bind (Asks.outcome ⟨rfl, fun _ => trivial⟩) fun res => ?_
  cases res with
  | error _ => exact asks_pure _
  | ok leader =>
    refine Asks.bind (Asks.outcome ⟨trivial, fun _ => trivial⟩) fun res => ?_
    cases res with
    | error _ => exact asks_pure _
    | ok group =>
      exact (hall _ _).bind fun report => (hremove _ _).bind fun res => asks_pure _

/-- A restart asks about instances only. -/
theorem asks_restart (self : Identity) :
    Asks Store.Request.ConcernsInstances (Restart.restart self) :=
  (asks_restart_self self).mono fun _ hq => hq.concernsInstances

/-- What comes after the record has been dealt with concerns instances only. -/
theorem asks_conclude (id : Identity) (decision : Decision) (outcome : Outcome) :
    Asks (World.OfStore Store.Request.ConcernsInstances) (r.conclude id decision outcome) := by
  rw [conclude]
  split
  · exact (Asks.map _ (asks_onStore (asks_restart r.self))).bind fun restart => asks_pure _
  · exact (asks_pure _).bind fun restart => asks_pure _

/-! ## The ways in which a pass goes -/

/-- An action on the store is run with what the handler answers for the store. -/
@[simp] theorem runWith_onStore (h : Handler World σ) (a : Action Store α) (w : σ) :
    runWith h (onStore a) w = runWith (World.storeOf h) a w :=
  runWith_left (I := Store) (J := Signing) h a w

/-- An action of an authority is run with what the handler answers for authorities. -/
@[simp] theorem runWith_onSigning (h : Handler World σ) (a : Action Signing α) (w : σ) :
    runWith h (onSigning a) w = runWith (World.signingOf h) a w :=
  runWith_right (I := Store) (J := Signing) h a w

/-- Fetching asks for the record once; a record that is not found counts as one without fields, and
any other failure is one of fetching. -/
theorem runWith_fetch_eq (h : Handler World σ) (id : Identity) (w : σ) :
    runWith h (onStore (fetch id)) w =
      match (h (.inl (.getRecord id)) w : Except Failure Record × σ) with
      | (.ok record, w') => (.ok record, w')
      | (.error e, w') =>
        (if e.isRecordNotFound then .ok (.missing id) else .error (.fetch id e), w') := by
  rw [runWith_onStore, fetch, runWith_bind, runWith_outcome]
  have hquestion : runWith (World.storeOf h) (Store.getRecord id) w = h (.inl (.getRecord id)) w :=
    rfl
  rw [hquestion]
  rcases h (.inl (.getRecord id)) w with ⟨e | record, w'⟩
  · dsimp only
    split <;> rfl
  · rfl

/-- Changing a record asks for it once; a failure is one of writing. -/
theorem runWith_apply_eq (h : Handler World σ) (id : Identity) (change : Fields → Fields) (w : σ) :
    runWith h (onStore (Writer.apply id change)) w =
      match
        (h (.inl (.upsert id fun data => .ok (change data))) w : Except Failure Outcome × σ) with
      | (res, w') => (res.mapError (.write id), w') := by
  rw [runWith_onStore, Writer.apply, runWith_mapFailure]
  rfl

/-- Reading the clock always succeeds. -/
private theorem exists_runWith_momentOr (h : Handler World σ) (now : Option Moment) (w : σ) :
    ∃ m w₀, runWith h (onSigning (Signing.momentOr now)) w = (.ok m, w₀) := by
  cases now with
  | some m => exact ⟨m, w, rfl⟩
  | none => exact ⟨_, _, rfl⟩

/-- What has been found and decided when looking has come to an end. -/
theorem runWith_judge_eq_ok {id : Identity} {m : Moment} {data : Fields} {authority : Authority}
    {decision : Decision}
    (hrun : runWith h (r.judge id m) w = (.ok (data, authority, decision), w')) :
    ∃ record evaluation w₁ w₂, record.data = data ∧
      runWith h (onStore (fetch id)) w = (.ok record, w₁) ∧
      runWith h (onStore r.authority) w₁ = (.ok authority, w₂) ∧
      runWith h (onSigning (evaluate record authority (some r.dnsName) (some m))) w₂ =
        (.ok evaluation, w') ∧
      evaluation.decide r.lifetime m = .ok decision := by
  obtain ⟨record, w₁, hfetch, hrun⟩ := runWith_bind_eq_ok.mp hrun
  obtain ⟨authority', w₂, hauthority, hrun⟩ := runWith_bind_eq_ok.mp hrun
  obtain ⟨evaluation, w₃, hevaluate, hrun⟩ := runWith_bind_eq_ok.mp hrun
  obtain ⟨decision', hdecide, hrun⟩ := runWith_ofExcept_bind_eq_ok.mp hrun
  cases hrun
  exact ⟨record, evaluation, w₁, w₂, rfl, hfetch, hauthority, hevaluate, hdecide⟩

/-- A pair is only kept if it is valid. -/
theorem decide_eq_keep {evaluation : Evaluation} {lifetime : Span} {m : Moment} {remaining : Span}
    (hd : evaluation.decide lifetime m = .ok (.keep remaining)) :
    ∃ notAfter, evaluation = .valid notAfter ∧ notAfter.sub? m = .ok remaining := by
  cases evaluation with
  | absent => cases hd
  | invalid defect => cases hd
  | valid notAfter =>
    refine ⟨notAfter, rfl, ?_⟩
    rw [Evaluation.decide] at hd
    cases hsub : notAfter.sub? m with
    | error e =>
      rw [hsub] at hd
      cases hd
    | ok span =>
      rw [hsub] at hd
      cases hd
      rfl

/-- Where a pair is not kept, the record is due again after the lifetime that is asked for. -/
theorem requeueAfter_of_decide {evaluation : Evaluation} {lifetime : Span} {m : Moment}
    {decision : Decision} (hd : evaluation.decide lifetime m = .ok decision) :
    decision.requeueAfter = lifetime ∨ ∃ remaining, decision = .keep remaining := by
  cases evaluation with
  | absent =>
    cases hd
    exact .inl rfl
  | invalid defect =>
    cases hd
    exact .inl rfl
  | valid notAfter =>
    rw [Evaluation.decide] at hd
    cases hsub : notAfter.sub? m with
    | error e =>
      rw [hsub] at hd
      cases hd
    | ok span =>
      rw [hsub] at hd
      cases hd
      exact .inr ⟨span, rfl⟩

/-- A pair is only replaced if it is invalid. -/
theorem decide_eq_invalidate {evaluation : Evaluation} {lifetime lifetime' : Span} {m : Moment}
    {reason : String} (hd : evaluation.decide lifetime m = .ok (.invalidate reason lifetime')) :
    ∃ defect, evaluation = .invalid defect := by
  cases evaluation with
  | absent => cases hd
  | invalid defect => exact ⟨defect, rfl⟩
  | valid notAfter =>
    rw [Evaluation.decide] at hd
    cases hsub : notAfter.sub? m <;> rw [hsub] at hd <;> cases hd

/-- Only a whole pair is worth anything. -/
theorem exists_pair_of_evaluate_ne_absent {g : Handler Signing σ} {record : Record}
    {authority : Authority} {dnsName : Option String} {now : Option Moment}
    {evaluation : Evaluation}
    (hrun : runWith g (evaluate record authority dnsName now) w = (.ok evaluation, w'))
    (hpresent : evaluation ≠ .absent) :
    ∃ certificate key, record.certificate? = some certificate ∧ record.key? = some key := by
  unfold evaluate at hrun
  split at hrun
  · next certificate key hc hk => exact ⟨certificate, key, hc, hk⟩
  · cases hrun
    exact absurd rfl hpresent

/-- Only a whole pair is valid. -/
theorem exists_pair_of_evaluate {g : Handler Signing σ} {record : Record} {authority : Authority}
    {dnsName : Option String} {now : Option Moment} {notAfter : Moment}
    (hrun : runWith g (evaluate record authority dnsName now) w = (.ok (.valid notAfter), w')) :
    ∃ certificate key, record.certificate? = some certificate ∧ record.key? = some key :=
  exists_pair_of_evaluate_ne_absent hrun nofun

/-- The ways in which dealing with a record goes, up to the decision and from there on. -/
inductive Settles (h : Handler World σ) (id : Identity) (now : Option Moment) (w : σ) :
    Except Failure (Decision × Outcome) → σ → Prop
  | judgeFails {m : Moment} {w₀ w' : σ} {e : Failure}
      (clock : runWith h (onSigning (Signing.momentOr now)) w = (.ok m, w₀))
      (judge : runWith h (r.judge id m) w₀ = (.error e, w')) : Settles h id now w (.error e) w'
  | carryOutFails {m : Moment} {w₀ w₁ w' : σ} {data : Fields} {authority : Authority}
      {decision : Decision} {e : Failure}
      (clock : runWith h (onSigning (Signing.momentOr now)) w = (.ok m, w₀))
      (judge : runWith h (r.judge id m) w₀ = (.ok (data, authority, decision), w₁))
      (carryOut : runWith h (r.carryOut id data authority m decision) w₁ = (.error e, w')) :
      Settles h id now w (.error e) w'
  | done {m : Moment} {w₀ w₁ w' : σ} {data : Fields} {authority : Authority}
      {decision : Decision} {outcome : Outcome}
      (clock : runWith h (onSigning (Signing.momentOr now)) w = (.ok m, w₀))
      (judge : runWith h (r.judge id m) w₀ = (.ok (data, authority, decision), w₁))
      (carryOut : runWith h (r.carryOut id data authority m decision) w₁ = (.ok outcome, w')) :
      Settles h id now w (.ok (decision, outcome)) w'

/-- Every run of the part of a pass that deals with the record goes in one of the ways of dealing
with it. -/
theorem settles_of_runWith {id : Identity} {now : Option Moment}
    {res : Except Failure (Decision × Outcome)} (hrun : runWith h (r.settle id now) w = (res, w')) :
    r.Settles h id now w res w' := by
  obtain ⟨m, w₀, hclock⟩ := exists_runWith_momentOr h now w
  rw [settle, runWith_bind, hclock] at hrun
  dsimp only at hrun
  rw [runWith_bind] at hrun
  rcases hjudge : runWith h (r.judge id m) w₀ with ⟨e | ⟨data, authority, decision⟩, w₁⟩
  · rw [hjudge] at hrun
    cases hrun
    exact .judgeFails hclock hjudge
  rw [hjudge] at hrun
  dsimp only at hrun
  rw [runWith_bind] at hrun
  rcases hcarry : runWith h (r.carryOut id data authority m decision) w₁ with ⟨e | outcome, w₂⟩
  · rw [hcarry] at hrun
    cases hrun
    exact .carryOutFails hclock hjudge hcarry
  · rw [hcarry] at hrun
    cases hrun
    exact .done hclock hjudge hcarry

/-- The ways in which a pass goes: it fails until it has dealt with the record, or else it restarts
the servers if the reserved record was updated. -/
inductive Course (h : Handler World σ) (id : Identity) (now : Option Moment) (w : σ) :
    Except Failure PassResult → σ → Prop
  | fails {w' : σ} {e : Failure} (settle : runWith h (r.settle id now) w = (.error e, w')) :
      Course h id now w (.error e) w'
  | noRestart {w' : σ} {decision : Decision} {outcome : Outcome}
      (settle : runWith h (r.settle id now) w = (.ok (decision, outcome), w'))
      (calm : ¬ (id = r.reserved ∧ outcome = .updated)) :
      Course h id now w (.ok ⟨id, decision, outcome, decision.requeueAfter, none⟩) w'
  | restart {w₁ w' : σ} {decision : Decision} {report : RestartReport}
      (settle : runWith h (r.settle id now) w = (.ok (decision, .updated), w₁))
      (reserved : id = r.reserved)
      (restart : runWith h (onStore (Restart.restart r.self)) w₁ = (.ok report, w')) :
      Course h id now w (.ok ⟨id, decision, .updated, decision.requeueAfter, some report⟩) w'

/-- Every run of a pass takes one of the courses of a pass. -/
theorem course_of_runWith {id : Identity} {now : Option Moment} {res : Except Failure PassResult}
    (hrun : runWith h (r.reconcile id now) w = (res, w')) : r.Course h id now w res w' := by
  rw [reconcile_eq, runWith_bind] at hrun
  rcases hsettle : runWith h (r.settle id now) w with ⟨e | ⟨decision, outcome⟩, w₁⟩
  · rw [hsettle] at hrun
    cases hrun
    exact .fails hsettle
  rw [hsettle] at hrun
  dsimp only at hrun
  rw [conclude] at hrun
  by_cases hcalm : id = r.reserved ∧ outcome = .updated
  · obtain ⟨report, w₂, hrestart, _⟩ := Restart.course_of_restart (World.storeOf h) r.self w₁
    rw [← runWith_onStore] at hrestart
    rw [if_pos hcalm, runWith_bind, runWith_map, hrestart] at hrun
    cases hrun
    obtain ⟨hres, rfl⟩ := hcalm
    exact .restart hsettle hres hrestart
  · rw [if_neg hcalm] at hrun
    cases hrun
    exact .noRestart hsettle hcalm

/-- A pass that returns has dealt with its record, and then restarted the servers exactly where the
record is the reserved one and has been updated. -/
theorem exists_settle_of_reconcile {id : Identity} {now : Option Moment} {result : PassResult}
    (hrun : runWith h (r.reconcile id now) w = (.ok result, w')) :
    ∃ decision outcome restart w₁,
      result = ⟨id, decision, outcome, decision.requeueAfter, restart⟩ ∧
      runWith h (r.settle id now) w = (.ok (decision, outcome), w₁) ∧
      (restart.isSome ↔ id = r.reserved ∧ outcome = .updated) ∧ (restart = none → w' = w₁) := by
  cases r.course_of_runWith hrun with
  | noRestart hsettle hcalm =>
    exact ⟨_, _, none, _, rfl, hsettle, by simpa using hcalm, fun _ => rfl⟩
  | @restart _ _ _ report hsettle hreserved hrestart =>
    exact ⟨_, _, some report, _, rfl, hsettle, by simpa using hreserved, nofun⟩

/-- A pass that has dealt with its record returns, whatever comes of a restart. -/
theorem exists_runWith_reconcile {id : Identity} {now : Option Moment} {decision : Decision}
    {outcome : Outcome} (hsettle : runWith h (r.settle id now) w = (.ok (decision, outcome), w')) :
    ∃ restart w₂, runWith h (r.reconcile id now) w =
      (.ok ⟨id, decision, outcome, decision.requeueAfter, restart⟩, w₂) := by
  rcases hrun : runWith h (r.reconcile id now) w with ⟨res, w₂⟩
  cases r.course_of_runWith hrun with
  | fails hfails =>
    rw [hsettle] at hfails
    cases hfails
  | noRestart hdone hcalm =>
    rw [hsettle] at hdone
    cases hdone
    exact ⟨none, _, rfl⟩
  | @restart _ _ _ report hdone hreserved hrestart =>
    rw [hsettle] at hdone
    cases hdone
    exact ⟨some report, _, rfl⟩

end Reconciler

end CertKeeper
