import CertKeeper.Proofs.PassFrame

/-!
# The reported outcome

What a pass reports of its record is what has become of the record since before the pass, whether it
was written once or twice: the outcome tells whether there was a record and whether it has another
version now, and the decision bounds how far its version was raised
(`Reconciler.reconcile_outcome`).
-/

namespace CertKeeper

open CertKeeper.Action Reconciler

/-- What has become of a record with an outcome, and by how much its version was raised. -/
inductive Outcome.Raises : Outcome → Option Record → Record → Int → Prop
  | created {after : Record} (first : after.version = 1) : Raises .created none after 1
  | unchanged (record : Record) : Raises .unchanged (some record) record 0
  | updated {record after : Record} {n : Int} (positive : 0 < n)
      (raised : after.version = record.version + n) : Raises .updated (some record) after n

/-- The outcome and the decision of a pass tell what has become of a record. -/
structure PassResult.Tells (result : PassResult) (before : Option Record) (after : Record) :
    Prop where
  created : result.outcome = .created ↔ before = none
  first : before = none → after.version = 1
  unchanged : result.outcome = .unchanged ↔ ∃ record, before = some record ∧
    (∀ name, after.data.get? name = record.data.get? name) ∧ after.version = record.version
  updated : result.outcome = .updated ↔
    ∃ record, before = some record ∧ record.version < after.version
  keep : ∀ remaining, result.decision = .keep remaining → result.outcome = .unchanged
  invalidate : ∀ reason lifetime, result.decision = .invalidate reason lifetime →
    result.outcome = .updated ∧
      ∃ record, before = some record ∧ after.version = record.version + 2
  issue : ∀ reason lifetime record, result.decision = .issue reason lifetime →
    before = some record → after.version ≤ record.version + 1

/-- How far a decision raises the version of a record. -/
def Decision.Bounds : Decision → Outcome → Int → Prop
  | .keep _, o, _ => o = .unchanged
  | .invalidate _ _, o, n => o = .updated ∧ n = 2
  | .issue _ _, _, n => n ≤ 1

/-- An outcome tells what has become of a record. -/
theorem Outcome.Raises.tells {result : PassResult} {before : Option Record} {after : Record}
    {n : Int} (hraises : result.outcome.Raises before after n)
    (hbounds : result.decision.Bounds result.outcome n) : result.Tells before after := by
  obtain ⟨id, decision, outcome, requeueAfter, restart⟩ := result
  dsimp only at hraises hbounds
  cases hraises with
  | created hfirst =>
    exact {
      created := by simp
      first := fun _ => hfirst
      unchanged := by simp
      updated := by simp
      keep := by
        rintro remaining rfl
        exact hbounds
      invalidate := by
        rintro reason lifetime rfl
        exact absurd hbounds.1 (by decide)
      issue := by simp }
  | unchanged =>
    exact {
      created := by simp
      first := by simp
      unchanged := by simp
      updated := by simp
      keep := fun _ _ => rfl
      invalidate := by
        rintro reason lifetime rfl
        exact absurd hbounds.1 (by decide)
      issue := by
        rintro reason lifetime record - ⟨⟩
        omega }
  | @updated record _ n hpositive hraised =>
    exact {
      created := by simp
      first := by simp
      unchanged := by
        simp only [reduceCtorEq, Option.some.injEq, exists_eq_left', false_iff, not_and]
        omega
      updated := by
        simp only [Option.some.injEq, exists_eq_left', true_iff]
        omega
      keep := by
        rintro remaining rfl
        exact hbounds
      invalidate := by
        rintro reason lifetime rfl
        exact ⟨rfl, record, rfl, hbounds.2 ▸ hraised⟩
      issue := by
        rintro reason lifetime record rfl ⟨⟩
        have hn : n ≤ 1 := hbounds
        omega }

namespace MemoryStore

variable {s s' : MemoryStore} {id : Identity} {certificate key : Bytes} {o : Outcome}

/-- An upsert raises the version of its record by one at most. -/
private theorem raises_of_upsert {change : Fields → Fields}
    (h : s.upsert id (fun data => .ok (change data)) = (.ok o, s')) :
    ∃ after n, s'.records.get? id = some after ∧ o.Raises (s.records.get? id) after n ∧ n ≤ 1 := by
  rcases upsert_cases h with ⟨hnone, rfl, rfl⟩ | ⟨record, hrecord, -, rfl, rfl⟩ |
    ⟨record, hrecord, -, rfl, rfl⟩
  · refine ⟨_, 1, (get?_setRecord _ _ _).trans (if_pos rfl), ?_, Int.le_refl 1⟩
    rw [hnone]
    exact .created rfl
  · refine ⟨record, 0, hrecord, ?_, by decide⟩
    rw [hrecord]
    exact .unchanged record
  · refine ⟨_, 1, (get?_setRecord _ _ _).trans (if_pos rfl), ?_, Int.le_refl 1⟩
    rw [hrecord]
    exact .updated Int.one_pos rfl

/-- Where a record holds a pair, removing the pair makes a new version. -/
private theorem upsert_removePair_of_pair
    (hpair : s.managed? id = some (some certificate, some key))
    (h : s.upsert id (fun data => .ok (Writer.removePair data)) = (.ok o, s')) :
    ∃ record, s.records.get? id = some record ∧ o = .updated ∧
      s' = s.setRecord ⟨id, Writer.removePair record.data, record.version + 1⟩ := by
  rcases upsert_cases h with ⟨hnone, -, -⟩ | ⟨record, hrecord, hsame, -, -⟩ |
    ⟨record, hrecord, -, ho, hs'⟩
  · rw [managed?, hnone] at hpair
    cases hpair
  · rw [managed?, hrecord, Option.map_some, ← hsame certificateField,
      Writer.get?_removePair_certificate] at hpair
    cases hpair
  · exact ⟨record, hrecord, ho, hs'⟩

/-- Removing a pair and then writing one raises the version of a record by two. -/
private theorem raises_of_removePair_setPair {s₁ : MemoryStore} {c k : Bytes} {o₁ o₂ : Outcome}
    (hpair : s.managed? id = some (some c, some k))
    (hclear : s.upsert id (fun data => .ok (Writer.removePair data)) = (.ok o₁, s₁))
    (hwrite : s₁.upsert id (fun data => .ok (Writer.setPair certificate key data)) = (.ok o₂, s')) :
    ∃ after, s'.records.get? id = some after ∧ o₁.merge o₂ = .updated ∧
      (o₁.merge o₂).Raises (s.records.get? id) after 2 := by
  have hnone := managed?_upsert_removePair hclear
  obtain ⟨record, hrecord, rfl, rfl⟩ := upsert_removePair_of_pair hpair hclear
  rw [upsert_setPair_other ((get?_setRecord _ _ _).trans (if_pos rfl))
    (by simp [hnone])] at hwrite
  cases hwrite
  refine ⟨_, (get?_setRecord _ _ _).trans (if_pos rfl), rfl, ?_⟩
  rw [hrecord]
  exact .updated (by decide) (Int.add_assoc _ 1 1)

end MemoryStore

namespace Serves

variable {r : Reconciler} {σ : Type} {h : Handler World σ} {view : σ → MemoryStore}
  {w w' : σ} {id : Identity}

/-- A change of a record that is made is made in memory. -/
theorem upsert_of_apply (hs : ServesAlone h view) {change : Fields → Fields} {o : Outcome}
    (hrun : runWith h (onStore (Writer.apply id change)) w = (.ok o, w')) :
    (view w).upsert id (fun data => .ok (change data)) = (.ok o, view w') := by
  obtain ⟨s, rfl, ⟨⟨_, he⟩, -⟩ | ⟨_, ho, hupsert⟩⟩ := Serves.runWith_apply hs hrun
  · cases he
  · cases ho
    exact hupsert

/-- Issuing a pair writes it once. -/
theorem exists_upsert_of_issue (hs : ServesAlone h view) {authority : Authority} {now : Moment}
    {o : Outcome} (hrun : runWith h (r.issue id authority now) w = (.ok o, w')) :
    ∃ certificate key, (view w).upsert id
      (fun data => .ok (Writer.setPair certificate key data)) = (.ok o, view w') := by
  obtain ⟨notAfter, -, hrun⟩ := runWith_ofExcept_bind_eq_ok.mp hrun
  obtain ⟨pair, w₁, hissue, hwrite⟩ := runWith_bind_eq_ok.mp hrun
  have hview : view w₁ = view w := by
    have hkept := view_of_reads hs (asks_onSigning
      ((authority.issue ⟨notAfter, r.dnsName⟩ (some now)).mapFailure (.issuance r.dnsName))) w
    rwa [hissue] at hkept
  exact ⟨pair.1, pair.2, hview ▸ upsert_of_apply hs hwrite⟩

/-- Carrying out a decision raises the version of the record as far as the decision says. -/
private theorem raises_of_carryOut (hs : ServesAlone h view) {w₀ : σ} {m : Moment} {data : Fields}
    {authority : Authority} {decision : Decision} {o : Outcome}
    (hjudge : runWith h (r.judge id m) w₀ = (.ok (data, authority, decision), w))
    (hview : view w = view w₀)
    (hrun : runWith h (r.carryOut id data authority m decision) w = (.ok o, w')) :
    ∃ after n, (view w').records.get? id = some after ∧
      o.Raises ((view w).records.get? id) after n ∧ decision.Bounds o n := by
  cases decision with
  | issue reason lifetime =>
    obtain ⟨certificate, key, hupsert⟩ := exists_upsert_of_issue hs hrun
    exact MemoryStore.raises_of_upsert hupsert
  | invalidate reason lifetime =>
    obtain ⟨certificate, key, hpair⟩ := exists_managed?_of_invalidate (keepsPair hs id) hjudge
    obtain ⟨first, w₁, hclear, hrun⟩ := runWith_bind_eq_ok.mp hrun
    obtain ⟨second, w₂, hissue, hrun⟩ := runWith_bind_eq_ok.mp hrun
    cases hrun
    obtain ⟨_, _, hwrite⟩ := exists_upsert_of_issue hs hissue
    obtain ⟨after, hafter, ho, hraises⟩ := MemoryStore.raises_of_removePair_setPair
      (hview ▸ hpair) (upsert_of_apply hs hclear) hwrite
    exact ⟨after, 2, hafter, hraises, ho, rfl⟩
  | keep remaining =>
    have hpair := managed?_of_keep (keepsPair hs id) hjudge
    have hupsert := upsert_of_apply hs hrun
    rw [← hview, MemoryStore.managed?, Option.map_eq_some_iff] at hpair
    obtain ⟨record, hrecord, hfields⟩ := hpair
    rw [MemoryStore.upsert_setPair_same hrecord (congrArg Prod.fst hfields)
      (congrArg Prod.snd hfields)] at hupsert
    obtain ⟨rfl, hsame⟩ : Outcome.unchanged = o ∧ view w = view w' := by
      simpa using hupsert
    rw [← hsame, hrecord]
    exact ⟨record, 0, rfl, .unchanged record, rfl⟩

end Serves

namespace Reconciler

variable {r : Reconciler} {σ : Type} {h : Handler World σ} {view : σ → MemoryStore} {w w' : σ}
  {id : Identity} {now : Option Moment} {result : PassResult}

/-- A pass that returns leaves a record, and its outcome tells what has become of that record: it is
new and has version one, or it is as before, or it has a greater version. A pair that is kept is not
written again; where it is replaced the version grows by two, and where one is issued it grows by
one at most. -/
theorem reconcile_outcome (hs : ServesAlone h view) (hr : ReadsOnly r.resolve)
    (hrun : runWith h (r.reconcile id now) w = (.ok result, w')) :
    ∃ after, (view w').records.get? id = some after ∧
      result.Tells ((view w).records.get? id) after := by
  obtain ⟨decision, outcome, restart, w₂, rfl, hsettle, -, -⟩ := r.exists_settle_of_reconcile hrun
  have hrecords := Serves.records_of_reconcile hs hsettle hrun
  cases r.settles_of_runWith hsettle with
  | @done m w₀ w₁ _ data authority decision outcome hclock hjudge hcarry =>
  have hview₀ : view w₀ = view w := by
    have hkept := Serves.view_of_reads hs (asks_onSigning (Signing.momentOr now)) w
    rwa [hclock] at hkept
  have hview₁ : view w₁ = view w₀ := by
    have hkept := Serves.view_of_reads hs (r.asks_judge hr id m) w₀
    rwa [hjudge] at hkept
  obtain ⟨after, n, hafter, hraises, hbounds⟩ :=
    Serves.raises_of_carryOut hs hjudge hview₁ hcarry
  rw [hview₁, hview₀] at hraises
  exact ⟨after, hrecords ▸ hafter, hraises.tells hbounds⟩

/-- The pass that replaces a pair nobody can read reports an update and takes the record from
version 1 to version 3. -/
theorem reconcile_outcome_unreadable :
    let run := runWith (World.inMemory scriptedSigner)
      (Reconciler.outside.reconcile ⟨"system", "tls"⟩ (some .first)) (.unreadable, [.ok ([3], [4])])
    ∃ result after, run.1 = .ok result ∧ run.2.1.records.get? ⟨"system", "tls"⟩ = some after ∧
      result.outcome = .updated ∧ after.version = 3 := by
  intro run
  have hdecision : run.1.toOption.map (fun result => result.decision.name) = some "Invalidate" := by
    decide +kernel
  rcases hrun : run with ⟨e | result, w⟩
  · rw [hrun] at hdecision
    cases hdecision
  obtain ⟨after, hafter, htells⟩ := reconcile_outcome (servesAlone_inMemory scriptedSigner)
    (r := Reconciler.outside) (asks_pure _) hrun
  rw [hrun] at hdecision
  have hinvalidate : ∃ reason lifetime, result.decision = .invalidate reason lifetime := by
    cases hd : result.decision with
    | invalidate reason lifetime => exact ⟨reason, lifetime, rfl⟩
    | issue => simp [Except.toOption, hd, Decision.name] at hdecision
    | keep => simp [Except.toOption, hd, Decision.name] at hdecision
  obtain ⟨reason, lifetime, hd⟩ := hinvalidate
  obtain ⟨hupdated, record, hrecord, hversion⟩ := htells.invalidate reason lifetime hd
  cases hrecord
  exact ⟨result, after, rfl, hafter, hupdated, hversion⟩

end Reconciler

end CertKeeper
