import CertKeeper.Proofs.Appraisal
import CertKeeper.Proofs.PassFrame
import CertKeeper.Proofs.Propagation
import CertKeeper.Proofs.StoredAuthority

/-!
# Failures of collaborators

A pass fails when one of its calls fails: to the store for its record, to whoever finds the
authority, to the authority for a new pair, or to the store for a write. `Reconciler.Breaks` lists
these calls with the failures of the pass that result from them; a former pair that was of no use
has been removed before some of them. A pass fails in no other way, and a restart that goes wrong
does not change what it has come to (`Reconciler.reconcile_breaks`).
-/

namespace CertKeeper

open CertKeeper.Action Reconciler X509

/-- Two handlers answer everything alike but for requests about instances. -/
def World.AgreeButInstances {σ : Type} (h h' : Handler World σ) : Prop :=
  ∀ q, World.StoreOnly (fun q => ¬ q.ConcernsInstances) q → h q = h' q

/-- Nothing but the pair of a record is missing, in a new version of the record. -/
def MemoryStore.PairRemoved (id : Identity) (s s' : MemoryStore) : Prop :=
  ∃ record, s.records.get? id = some record ∧
    s' = s.setRecord ⟨id, Writer.removePair record.data, record.version + 1⟩

namespace Reconciler

variable (r : Reconciler) {σ : Type}

/-- The calls that issuing a pair breaks at, with the kind of failure that results: the authority
fails, or the write of the pair that it has issued does. -/
inductive IssueBreaks (h : Handler World σ) (id : Identity) (authority : Authority)
    (now notAfter : Moment) (w : σ) : EngineKind → Failure → σ → Prop
  | issue {e : Failure} {w' : σ}
      (raised : runWith h (onSigning (authority.issue ⟨notAfter, r.dnsName⟩ (some now))) w =
        (.error e, w')) :
      IssueBreaks h id authority now notAfter w .issuance (.issuance r.dnsName e) w'
  | write {pair : Bytes × Bytes} {w₁ w' : σ} {e : Failure}
      (issued : runWith h (onSigning (authority.issue ⟨notAfter, r.dnsName⟩ (some now))) w =
        (.ok pair, w₁))
      (raised : h (.inl (.upsert id fun data => .ok (Writer.setPair pair.1 pair.2 data))) w₁ =
        (.error e, w')) :
      IssueBreaks h id authority now notAfter w .write (.write id e) w'

/-- The calls that a pass breaks at, with the kind of failure that results and whether the former
pair has been removed before. -/
inductive Breaks (h : Handler World σ) (id : Identity) (now notAfter : Moment) (w : σ) :
    EngineKind → Bool → Failure → σ → Prop
  | fetch {e : Failure} {w' : σ} (raised : h (.inl (.getRecord id)) w = (.error e, w'))
      (other : ¬ e.isRecordNotFound) : Breaks h id now notAfter w .fetch false (.fetch id e) w'
  | resolve {record : Record} {w₁ w' : σ} {e : Failure}
      (fetched : runWith h (onStore (Reconciler.fetch id)) w = (.ok record, w₁))
      (raised : runWith h (onStore r.resolve) w₁ = (.error e, w')) :
      Breaks h id now notAfter w .authority false
        (if e.engineKind? = some .authority then e else .authorityUnresolved e) w'
  | issue {data : Fields} {authority : Authority} {reason : String} {lifetime : Span} {w₁ w' : σ}
      {kind : EngineKind} {e : Failure}
      (judged : runWith h (r.judge id now) w = (.ok (data, authority, .issue reason lifetime), w₁))
      (broken : r.IssueBreaks h id authority now notAfter w₁ kind e w') :
      Breaks h id now notAfter w kind false e w'
  | clear {data : Fields} {authority : Authority} {reason : String} {lifetime : Span} {w₁ w' : σ}
      {e : Failure}
      (judged : runWith h (r.judge id now) w =
        (.ok (data, authority, .invalidate reason lifetime), w₁))
      (raised : h (.inl (.upsert id fun data => .ok (Writer.removePair data))) w₁ =
        (.error e, w')) :
      Breaks h id now notAfter w .write false (.write id e) w'
  | reissue {data : Fields} {authority : Authority} {reason : String} {lifetime : Span}
      {outcome : Outcome} {w₁ w₂ w' : σ} {kind : EngineKind} {e : Failure}
      (judged : runWith h (r.judge id now) w =
        (.ok (data, authority, .invalidate reason lifetime), w₁))
      (cleared : runWith h (onStore (Writer.clear id)) w₁ = (.ok outcome, w₂))
      (broken : r.IssueBreaks h id authority now notAfter w₂ kind e w') :
      Breaks h id now notAfter w kind true e w'
  | keep {data : Fields} {authority : Authority} {remaining : Span} {w₁ w' : σ} {e : Failure}
      (judged : runWith h (r.judge id now) w = (.ok (data, authority, .keep remaining), w₁))
      (raised : h (.inl (.upsert id fun stored => .ok (Writer.setPair
        ((data.get? certificateField).getD []) ((data.get? keyField).getD []) stored))) w₁ =
          (.error e, w')) :
      Breaks h id now notAfter w .write false (.write id e) w'

/-- Wherever the record and the authority are had, evaluating the record gives an evaluation. -/
def Evaluates (h : Handler World σ) (id : Identity) (now : Moment) (w : σ) : Prop :=
  ∀ record authority w₁ w₂, runWith h (onStore (fetch id)) w = (.ok record, w₁) →
    runWith h (onStore r.authority) w₁ = (.ok authority, w₂) →
    ∃ evaluation w₃, runWith h (onSigning
      (evaluate record authority (some r.dnsName) (some now))) w₂ = (.ok evaluation, w₃)

variable {r} {h h' : Handler World σ} {view : σ → MemoryStore} {w w₁ w' : σ} {id : Identity}
  {authority : Authority} {now notAfter : Moment} {kind : EngineKind} {cleared : Bool} {e : Failure}

/-! ## Where a pass breaks -/

private theorem runWith_fetch_eq_error_iff :
    runWith h (onStore (fetch id)) w = (.error e, w') ↔
      ∃ e₀, h (.inl (.getRecord id)) w = (.error e₀, w') ∧ ¬ e₀.isRecordNotFound ∧
        .fetch id e₀ = e := by
  rw [runWith_fetch_eq]
  rcases h (.inl (.getRecord id)) w with ⟨e₀ | record, w₁⟩
  · dsimp only
    split
    · next hnone =>
      constructor
      · rintro ⟨⟩
      · rintro ⟨_, ⟨⟩, hother, _⟩
        exact absurd hnone hother
    · next hother =>
      constructor
      · rintro ⟨⟩
        exact ⟨e₀, rfl, hother, rfl⟩
      · rintro ⟨_, ⟨⟩, _, rfl⟩
        rfl
  · constructor
    · rintro ⟨⟩
    · rintro ⟨_, ⟨⟩, _⟩

private theorem runWith_apply_eq_error_iff {change : Fields → Fields} :
    runWith h (onStore (Writer.apply id change)) w = (.error e, w') ↔
      ∃ e₀, h (.inl (.upsert id fun data => .ok (change data))) w = (.error e₀, w') ∧
        .write id e₀ = e := by
  rw [runWith_onStore, Writer.apply, runWith_mapFailure_eq_error]
  rfl

/-- A valid pair expires at a moment with an offset, whoever judges it. -/
private theorem isAware_of_evaluate {g : Handler Signing σ} {record : Record}
    {dnsName : Option String}
    (hrun : runWith g (evaluate record authority dnsName (some now)) w =
      (.ok (.valid notAfter), w')) : notAfter.isAware := by
  unfold evaluate at hrun
  split at hrun
  case h_2 => cases hrun
  split at hrun
  case h_1 => cases hrun
  case h_2 => cases hrun
  next c _ =>
  split at hrun
  case h_1 => cases hrun
  obtain ⟨verdict, w₁, _, hrun⟩ := runWith_bind_eq_ok.mp hrun
  cases verdict with
  | rejected rejection => cases hrun
  | accepted =>
    obtain ⟨moment, hends, hrun⟩ := runWith_ofExcept_bind_eq_ok.mp hrun
    cases hrun
    exact Certificate.isAware_notAfter hends

/-- What is to be done about an evaluation is always found. -/
private theorem exists_decide {record : Record} {evaluation : Evaluation} (hnow : now.isAware)
    (hrun : runWith h (onSigning (evaluate record authority (some r.dnsName) (some now))) w =
      (.ok evaluation, w')) : ∃ decision, evaluation.decide r.lifetime now = .ok decision := by
  cases evaluation with
  | absent => exact ⟨_, rfl⟩
  | invalid defect => exact ⟨_, rfl⟩
  | valid notAfter =>
    rw [runWith_onSigning] at hrun
    exact ⟨_, Evaluation.decide_valid _ (isAware_of_evaluate hrun) hnow⟩

/-- Issuing a pair fails where it breaks. -/
theorem runWith_issue_eq_error_iff (hadd : now.add? r.lifetime = .ok notAfter) :
    runWith h (r.issue id authority now) w = (.error e, w') ↔
      ∃ kind, r.IssueBreaks h id authority now notAfter w kind e w' := by
  have hissue : runWith h (r.issue id authority now) w =
      runWith h (onSigning ((authority.issue ⟨notAfter, r.dnsName⟩ (some now)).mapFailure
        (.issuance r.dnsName)) >>= fun pair => onStore (Writer.write id pair.1 pair.2)) w := by
    rw [issue, hadd]
    rfl
  rw [hissue, runWith_bind_eq_error, runWith_onSigning, runWith_mapFailure_eq_error,
    ← runWith_onSigning]
  constructor
  · rintro (⟨e₀, hraised, rfl⟩ | ⟨pair, w₁, hissued, hwrite⟩)
    · exact ⟨_, .issue hraised⟩
    · rw [runWith_mapFailure_eq_ok, ← runWith_onSigning] at hissued
      obtain ⟨e₀, hraised, rfl⟩ := runWith_apply_eq_error_iff.mp hwrite
      exact ⟨_, .write hissued hraised⟩
  · rintro ⟨_, hbreaks⟩
    cases hbreaks with
    | @issue e₀ _ hraised => exact .inl ⟨e₀, hraised, rfl⟩
    | @write pair w₁ _ e₀ hissued hraised =>
      refine .inr ⟨pair, w₁, ?_, runWith_apply_eq_error_iff.mpr ⟨e₀, hraised, rfl⟩⟩
      rw [runWith_mapFailure_eq_ok, ← runWith_onSigning]
      exact hissued

/-- Until it has decided, a pass fails where it cannot fetch its record or find the authority. -/
private theorem breaks_of_judge (hnow : now.isAware) (hevaluates : r.Evaluates h id now w)
    (hrun : runWith h (r.judge id now) w = (.error e, w')) :
    ∃ kind, r.Breaks h id now notAfter w kind false e w' := by
  rcases runWith_bind_eq_error.mp hrun with hfetch | ⟨record, w₁, hfetched, hrun⟩
  · obtain ⟨e₀, hraised, hother, rfl⟩ := runWith_fetch_eq_error_iff.mp hfetch
    exact ⟨_, .fetch hraised hother⟩
  rcases runWith_bind_eq_error.mp hrun with hresolve | ⟨authority, w₂, hresolved, hrun⟩
  · rw [runWith_onStore, Reconciler.authority, runWith_mapFailure_eq_error, ← runWith_onStore]
      at hresolve
    obtain ⟨e₀, hraised, rfl⟩ := hresolve
    exact ⟨_, .resolve hfetched hraised⟩
  obtain ⟨evaluation, w₃, hevaluated⟩ := hevaluates record authority w₁ w₂ hfetched hresolved
  rw [runWith_bind, hevaluated] at hrun
  obtain ⟨decision, hdecide⟩ := exists_decide hnow hevaluated
  dsimp only at hrun
  rw [hdecide] at hrun
  cases hrun

/-- Carrying out a decision fails where a pass breaks after it. -/
private theorem breaks_of_carryOut (hadd : now.add? r.lifetime = .ok notAfter) {data : Fields}
    {decision : Decision}
    (hjudged : runWith h (r.judge id now) w = (.ok (data, authority, decision), w₁))
    (hrun : runWith h (r.carryOut id data authority now decision) w₁ = (.error e, w')) :
    ∃ kind cleared, r.Breaks h id now notAfter w kind cleared e w' := by
  cases decision with
  | issue reason lifetime =>
    obtain ⟨kind, hbroken⟩ := (runWith_issue_eq_error_iff hadd).mp hrun
    exact ⟨kind, false, .issue hjudged hbroken⟩
  | keep remaining =>
    obtain ⟨e₀, hraised, rfl⟩ := runWith_apply_eq_error_iff.mp hrun
    exact ⟨_, false, .keep hjudged hraised⟩
  | invalidate reason lifetime =>
    rcases runWith_bind_eq_error.mp hrun with hclear | ⟨outcome, w₂, hcleared, hrun⟩
    · obtain ⟨e₀, hraised, rfl⟩ := runWith_apply_eq_error_iff.mp hclear
      exact ⟨_, false, .clear hjudged hraised⟩
    rcases runWith_bind_eq_error.mp hrun with hissue | ⟨_, _, _, hrun⟩
    · obtain ⟨kind, hbroken⟩ := (runWith_issue_eq_error_iff hadd).mp hissue
      exact ⟨kind, true, .reissue hjudged hcleared hbroken⟩
    · cases hrun

/-- A pass that breaks fails with the failure that results. -/
private theorem runWith_reconcile_of_breaks (hadd : now.add? r.lifetime = .ok notAfter)
    (hbreaks : r.Breaks h id now notAfter w kind cleared e w') :
    runWith h (r.reconcile id (some now)) w = (.error e, w') := by
  cases hbreaks with
  | fetch hraised hother =>
    have hfetch := runWith_fetch_eq_error_iff.mpr ⟨_, hraised, hother, rfl⟩
    exact runWith_reconcile_of_judge (runWith_bind_eq_error.mpr (.inl hfetch))
  | @resolve record w₁ _ e₀ hfetched hraised =>
    refine runWith_reconcile_of_judge (runWith_bind_eq_error.mpr (.inr ⟨record, w₁, hfetched, ?_⟩))
    refine runWith_bind_eq_error.mpr (.inl ?_)
    rw [runWith_onStore, Reconciler.authority, runWith_mapFailure_eq_error, ← runWith_onStore]
    exact ⟨e₀, hraised, rfl⟩
  | issue hjudged hbroken =>
    exact runWith_reconcile_of_carryOut hjudged
      ((runWith_issue_eq_error_iff hadd).mpr ⟨kind, hbroken⟩)
  | clear hjudged hraised =>
    refine runWith_reconcile_of_carryOut hjudged (runWith_bind_eq_error.mpr (.inl ?_))
    exact runWith_apply_eq_error_iff.mpr ⟨_, hraised, rfl⟩
  | reissue hjudged hcleared hbroken =>
    have hissue := (runWith_issue_eq_error_iff hadd).mpr ⟨kind, hbroken⟩
    refine runWith_reconcile_of_carryOut hjudged (runWith_bind_eq_error.mpr (.inr ?_))
    exact ⟨_, _, hcleared, runWith_bind_eq_error.mpr (.inl hissue)⟩
  | keep hjudged hraised =>
    exact runWith_reconcile_of_carryOut hjudged
      (runWith_apply_eq_error_iff.mpr ⟨_, hraised, rfl⟩)

end Reconciler

/-! ## What is left of the store -/

namespace Serves

variable {r : Reconciler} {σ : Type} {h : Handler World σ} {view : σ → MemoryStore}
  {w w' : σ} {id : Identity} {authority : Authority} {now notAfter : Moment} {kind : EngineKind}
  {cleared : Bool} {e : Failure}

/-- A write that fails leaves the store as it is. -/
theorem view_of_upsert_error (hs : ServesAlone h view) {change : Fields → Fields}
    (hraised : h (.inl (.upsert id fun data => .ok (change data))) w = (.error e, w')) :
    view w' = view w := by
  obtain ⟨s, rfl, ⟨_, hv⟩ | ⟨_, ho, _⟩⟩ :=
    hs.runWith_apply (runWith_apply_eq_error_iff.mpr ⟨e, hraised, rfl⟩)
  · exact hv
  · cases ho

/-- Issuing a pair leaves the store as it is where it breaks. -/
theorem view_of_issueBreaks (hs : ServesAlone h view)
    (hbroken : r.IssueBreaks h id authority now notAfter w kind e w') : view w' = view w := by
  have hissue := view_of_reads hs
    (asks_onSigning (authority.issue ⟨notAfter, r.dnsName⟩ (some now))) w
  cases hbroken with
  | issue hraised => rwa [hraised] at hissue
  | write hissued hraised =>
    rw [hissued] at hissue
    exact (view_of_upsert_error hs hraised).trans hissue

/-- A record whose pair is to be replaced is there and has a certificate. -/
private theorem exists_record_of_invalidate (hs : ServesAlone h view) {data : Fields}
    {reason : String}
    {lifetime : Span}
    (hrun : runWith h (r.judge id now) w =
      (.ok (data, authority, .invalidate reason lifetime), w')) :
    ∃ record certificate, (view w).records.get? id = some record ∧
      record.data.get? certificateField = some certificate := by
  obtain ⟨fetched, evaluation, w₁, w₂, _, hfetch, _, hevaluate, hdecide⟩ :=
    r.runWith_judge_eq_ok hrun
  obtain ⟨defect, rfl⟩ := decide_eq_invalidate hdecide
  rw [runWith_onSigning] at hevaluate
  obtain ⟨certificate, key, hcertificate, _⟩ := exists_pair_of_evaluate_ne_absent hevaluate nofun
  have hfetched := (Fields.filled?_eq_some_iff.mp hcertificate).1
  obtain rfl | hpair := runWith_fetch (Serves.keepsPair hs id) hfetch
  · cases hfetched
  · rw [MemoryStore.managed?, Option.map_eq_some_iff] at hpair
    obtain ⟨record, hrecord, hsame⟩ := hpair
    rw [Prod.mk.injEq, hfetched] at hsame
    exact ⟨record, certificate, hrecord, hsame.1⟩

/-- Removing the pair of a record with a certificate makes a new version of the record without the
pair. -/
private theorem pairRemoved_of_clear (hs : ServesAlone h view) {record : Record}
    {certificate : Bytes}
    (hrecord : (view w).records.get? id = some record)
    (hcertificate : record.data.get? certificateField = some certificate) {outcome : Outcome}
    (hcleared : runWith h (onStore (Writer.clear id)) w = (.ok outcome, w')) :
    MemoryStore.PairRemoved id (view w) (view w') := by
  obtain ⟨s, rfl, ⟨⟨_, he⟩, _⟩ | ⟨o, _, hupsert⟩⟩ := hs.runWith_apply hcleared
  · cases he
  rcases MemoryStore.upsert_cases hupsert with ⟨hnone, _⟩ | ⟨stored, hstored, hsame, _⟩ |
    ⟨stored, hstored, _, _, hleft⟩
  · rw [hrecord] at hnone
    cases hnone
  · rw [hrecord] at hstored
    cases hstored
    have hgone := hsame certificateField
    rw [Writer.get?_removePair_certificate, hcertificate] at hgone
    cases hgone
  · exact ⟨stored, hstored, hleft⟩

end Serves

namespace Reconciler

variable {r : Reconciler} {σ : Type} {h h' : Handler World σ} {view : σ → MemoryStore}
  {w w' : σ} {id : Identity} {now notAfter : Moment} {kind : EngineKind} {cleared : Bool}
  {e : Failure}

/-- The failure that results is of the kind that is said. -/
private theorem Breaks.engineKind (hbreaks : r.Breaks h id now notAfter w kind cleared e w') :
    e.engineKind? = some kind := by
  have hissue {authority : Authority} {w₁ : σ}
      (hbroken : r.IssueBreaks h id authority now notAfter w₁ kind e w') :
      e.engineKind? = some kind := by
    cases hbroken <;> rfl
  cases hbreaks with
  | fetch | clear | keep => rfl
  | resolve =>
    split
    · assumption
    · rfl
  | issue _ hbroken => exact hissue hbroken
  | reissue _ _ hbroken => exact hissue hbroken

/-- Where a pass breaks the store is as it was, or the pair of the record has been removed. -/
theorem Breaks.left (hs : ServesAlone h view) (hr : ReadsOnly r.resolve)
    (hbreaks : r.Breaks h id now notAfter w kind cleared e w') :
    if cleared then MemoryStore.PairRemoved id (view w) (view w') else view w' = view w := by
  have hjudge := Serves.view_of_reads hs (r.asks_judge hr id now) w
  cases hbreaks with
  | fetch hraised hother =>
    have hfetch := Serves.view_of_reads hs (storeOnly_onStore (asks_fetch id)) w
    rwa [runWith_fetch_eq_error_iff.mpr ⟨_, hraised, hother, rfl⟩] at hfetch
  | @resolve _ w₁ _ _ hfetched hraised =>
    have hfetch := Serves.view_of_reads hs (storeOnly_onStore (asks_fetch id)) w
    have hresolve := Serves.view_of_reads hs (storeOnly_onStore hr) w₁
    rw [hfetched] at hfetch
    rw [hraised] at hresolve
    exact hresolve.trans hfetch
  | issue hjudged hbroken =>
    rw [hjudged] at hjudge
    exact (Serves.view_of_issueBreaks hs hbroken).trans hjudge
  | clear hjudged hraised =>
    rw [hjudged] at hjudge
    exact (Serves.view_of_upsert_error hs hraised).trans hjudge
  | reissue hjudged hcleared hbroken =>
    obtain ⟨record, certificate, hrecord, hcertificate⟩ :=
      Serves.exists_record_of_invalidate hs hjudged
    rw [hjudged] at hjudge
    rw [if_pos rfl, Serves.view_of_issueBreaks hs hbroken, ← hjudge]
    rw [← hjudge] at hrecord
    exact Serves.pairRemoved_of_clear hs hrecord hcertificate hcleared
  | keep hjudged hraised =>
    rw [hjudged] at hjudge
    exact (Serves.view_of_upsert_error hs hraised).trans hjudge

/-- A pass that fails has broken somewhere. -/
private theorem exists_breaks_of_reconcile (hnow : now.isAware)
    (hadd : now.add? r.lifetime = .ok notAfter)
    (hevaluates : r.Evaluates h id now w)
    (hrun : runWith h (r.reconcile id (some now)) w = (.error e, w')) :
    ∃ kind cleared, r.Breaks h id now notAfter w kind cleared e w' := by
  cases r.course_of_runWith hrun with
  | fails hsettle =>
  cases r.settles_of_runWith hsettle with
  | judgeFails hclock hjudge =>
    cases hclock
    obtain ⟨kind, hbreaks⟩ := breaks_of_judge hnow hevaluates hjudge
    exact ⟨kind, false, hbreaks⟩
  | carryOutFails hclock hjudge hcarry =>
    cases hclock
    exact breaks_of_carryOut hadd hjudge hcarry

/-- Whatever is answered to requests about instances, a pass comes to the same but for its report of
a restart. -/
private theorem reconcile_of_agreeButInstances (hagree : World.AgreeButInstances h h')
    (hs : ServesAlone h view) (hs' : ServesAlone h' view) (hr : ReadsOnly r.resolve)
    {m : Option Moment} {result : PassResult}
    (hrun : runWith h' (r.reconcile id m) w = (.ok result, w')) :
    ∃ restart w'', runWith h (r.reconcile id m) w = (.ok { result with restart := restart }, w'') ∧
      (view w'').records = (view w').records := by
  have hsame : runWith h (r.settle id m) w = runWith h' (r.settle id m) w :=
    Program.run_congr hagree (asks_settle_withoutInstances r hr id m) w
  obtain ⟨decision, outcome, restart', w₁, rfl, hsettle', _, _⟩ := r.exists_settle_of_reconcile hrun
  have hsettle := hsame.trans hsettle'
  obtain ⟨restart, w'', hrun'⟩ := r.exists_runWith_reconcile hsettle
  refine ⟨restart, w'', hrun', ?_⟩
  rw [Serves.records_of_reconcile hs hsettle hrun', Serves.records_of_reconcile hs' hsettle' hrun]

/-- A pass at a moment with an offset, whose new pairs end within the calendar and whose record can
be evaluated, fails exactly where it breaks, with a failure of the kind that is said of the call
that failed. The store is then as it was, except after the removal of a pair that was of no use:
then that pair is missing and nothing else. Requests about instances never fail a pass: whatever is
answered to them, a pass comes to the same result but for its report of the restart, and to the same
records. -/
theorem reconcile_breaks (hs : ServesAlone h view) (hr : ReadsOnly r.resolve)
    (hnow : now.isAware) (hadd : now.add? r.lifetime = .ok notAfter)
    (hevaluates : r.Evaluates h id now w) :
    (∀ kind cleared e w', r.Breaks h id now notAfter w kind cleared e w' →
      runWith h (r.reconcile id (some now)) w = (.error e, w') ∧ e.engineKind? = some kind ∧
        if cleared then MemoryStore.PairRemoved id (view w) (view w') else view w' = view w) ∧
    (∀ e w', runWith h (r.reconcile id (some now)) w = (.error e, w') →
      ∃ kind cleared, r.Breaks h id now notAfter w kind cleared e w') ∧
    ∀ h' result w', World.AgreeButInstances h h' → ServesAlone h' view →
      runWith h' (r.reconcile id (some now)) w = (.ok result, w') →
      ∃ restart w'', runWith h (r.reconcile id (some now)) w =
          (.ok { result with restart := restart }, w'') ∧
        (view w'').records = (view w').records := by
  refine ⟨?_, ?_, ?_⟩
  · intro kind cleared e w' hbreaks
    exact ⟨runWith_reconcile_of_breaks hadd hbreaks, hbreaks.engineKind, hbreaks.left hs hr⟩
  · intro e w' hrun
    exact exists_breaks_of_reconcile hnow hadd hevaluates hrun
  · intro h' result w' hagree hs' hrun
    exact reconcile_of_agreeButInstances hagree hs hs' hr hrun

/-- A pass that removes a pair nobody can read, and whose signer then gives no answer, fails for
want of a new pair and leaves the record without one. -/
theorem reconcile_breaks_unanswered :
    let refusal : Failure := .external .runtime "no answer"
    let w := (MemoryStore.unreadable, [.error refusal])
    ∃ w', runWith (World.inMemory scriptedSigner)
        (Reconciler.outside.reconcile ⟨"system", "tls"⟩ (some .first)) w =
          (.error (.issuance "server.system.svc" refusal), w') ∧
      (Failure.issuance "server.system.svc" refusal).engineKind? = some .issuance ∧
      MemoryStore.PairRemoved ⟨"system", "tls"⟩ MemoryStore.unreadable w'.1 := by
  intro refusal w
  have hevaluates : Reconciler.outside.Evaluates (World.inMemory scriptedSigner)
      ⟨"system", "tls"⟩ .first w := by
    intro record authority w₁ w₂ hfetch hresolve
    cases hfetch
    cases hresolve
    exact ⟨_, _, rfl⟩
  have hadd : Moment.first.add? Reconciler.outside.lifetime =
      .ok ⟨3600000000, some 0, by decide⟩ := rfl
  have hreads : ReadsOnly Reconciler.outside.resolve := asks_pure _
  obtain ⟨hbreaks, _, _⟩ := reconcile_breaks (servesAlone_inMemory scriptedSigner)
    hreads rfl hadd hevaluates
  obtain ⟨hrun, hkind, hleft⟩ := hbreaks .issuance true _ _
    (.reissue (by rfl) (by rfl) (.issue (by rfl)))
  exact ⟨_, hrun, hkind, hleft⟩

end Reconciler

end CertKeeper
