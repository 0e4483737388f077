import CertKeeper.Proofs.Appraisal
import CertKeeper.Proofs.SharedStore

/-!
# Passes whose authority is stored

What looking at a record comes to in a pass of settings: the record and the authority are read, and
the decision follows from what the pair is worth to the authority.
-/

namespace CertKeeper

open CertKeeper.Action

namespace Reconciler

variable {r : Reconciler} {σ : Type} {h : Handler World σ} {w w' w₁ w₂ : σ} {id : Identity}
  {s : Settings} {a : SelfSigned} {record : Record} {now : Moment} {e : Failure}

/-- In memory the record with an identity is fetched, or an empty one. -/
theorem runWith_fetch_inMemory {τ : Type} (g : Handler Signing τ) (id : Identity)
    (w : MemoryStore × τ) :
    runWith (World.inMemory g) (onStore (fetch id)) w =
      (.ok ((w.1.records.get? id).getD (.missing id)), w) := by
  rw [runWith_onStore, fetch, runWith_bind, runWith_outcome]
  have hget : runWith (World.storeOf (World.inMemory g)) (Store.getRecord id) w =
      (w.1.getRecord id, w) := rfl
  rw [hget, MemoryStore.getRecord]
  cases w.1.records.get? id <;> rfl

/-- The authority is the one in the fields of the record that the store answers with. -/
theorem runWith_resolveAuthority_of_found {h : Handler Store σ}
    (hfound : runWith h (Store.getRecord id) w = (.ok record, w')) (bits : Int) :
    runWith h (resolveAuthority id bits) w = (SelfSigned.ofFields id record.data bits, w') := by
  rw [resolveAuthority, runWith_bind, runWith_outcome, hfound]
  rfl

/-- An authority that is found is the one in the fields of a record that the store has answered
with. -/
theorem exists_record_of_resolveAuthority {h : Handler Store σ} {bits : Int}
    (hrun : runWith h (resolveAuthority id bits) w = (.ok a, w')) :
    ∃ record, runWith h (Store.getRecord id) w = (.ok record, w') ∧
      SelfSigned.ofFields id record.data bits = .ok a := by
  rcases hfound : runWith h (Store.getRecord id) w with ⟨e | record, w₁⟩
  · rw [resolveAuthority, runWith_bind, runWith_outcome, hfound] at hrun
    dsimp only at hrun
    split at hrun <;> cases hrun
  · rw [runWith_resolveAuthority_of_found hfound, Prod.mk.injEq] at hrun
    obtain ⟨hfields, rfl⟩ := hrun
    exact ⟨record, rfl, hfields⟩

/-- In memory the authority is the one in the fields of its record. -/
theorem runWith_resolveAuthority_inMemory {τ : Type} (g : Handler Signing τ) {id : Identity}
    {bits : Int} {w : MemoryStore × τ} {record : Record} (hw : w.1.records.get? id = some record) :
    runWith (World.inMemory g) (onStore (resolveAuthority id bits)) w =
      (SelfSigned.ofFields id record.data bits, w) := by
  have hget : runWith (World.storeOf (World.inMemory g)) (Store.getRecord id) w =
      (w.1.getRecord id, w) := rfl
  rw [MemoryStore.getRecord_eq_ok_iff.mpr hw] at hget
  rw [runWith_onStore]
  exact runWith_resolveAuthority_of_found hget bits

/-- An authority that is found is the one in the fields of its record. -/
theorem ofFields_of_resolveAuthority {view : σ → MemoryStore} (hs : ServesAlone h view)
    {bits : Int} (hrecord : (view w).records.get? id = some record)
    (hrun : runWith h (onStore (resolveAuthority id bits)) w = (.ok a, w')) :
    SelfSigned.ofFields id record.data bits = .ok a := by
  rw [runWith_onStore] at hrun
  obtain ⟨found, hfound, hfields⟩ := exists_record_of_resolveAuthority hrun
  have hquestion : h (.inl (.getRecord id)) w = (.ok found, w') := hfound
  obtain ⟨stored, rfl, hanswer⟩ := hs.request (.getRecord id) w
  rw [hquestion] at hanswer
  obtain ⟨⟨_, he⟩, _⟩ | ⟨he, _⟩ := hanswer
  · cases he
  rw [MemoryStore.getRecord_eq_ok_iff.mp he.symm] at hrecord
  cases hrecord
  exact hfields

/-- Beside a store in memory an authority's requests are answered as without it. -/
theorem runWith_onSigning_inMemory {τ α : Type} (g : Handler Signing τ) (action : Action Signing α)
    (w : MemoryStore × τ) :
    runWith (World.inMemory g) (onSigning action) w =
      ((runWith g action w.2).1, w.1, (runWith g action w.2).2) := by
  rw [runWith_onSigning]
  exact Program.run_ofRight_sum MemoryStore.handler g action.run w

/-- In memory a pair is written by an upsert. -/
theorem runWith_write_inMemory {τ : Type} (g : Handler Signing τ) {w : MemoryStore × τ}
    {certificate key : Bytes} {o : Outcome} {store : MemoryStore}
    (h : w.1.upsert id (fun data => .ok (Writer.setPair certificate key data)) = (.ok o, store)) :
    runWith (World.inMemory g) (onStore (Writer.write id certificate key)) w =
      (.ok o, (store, w.2)) := by
  have hupsert : runWith (World.storeOf (World.inMemory g))
      (Store.upsert id fun data => .ok (Writer.setPair certificate key data)) w =
        (.ok o, (store, w.2)) := by
    change ((w.1.upsert id _).1, (w.1.upsert id _).2, w.2) = _
    rw [h]
  rw [runWith_onStore, Writer.write, Writer.apply, runWith_mapFailure, hupsert]
  rfl

/-- The authority of a pass is the one in the authority's record. -/
theorem runWith_authority_eq_ok_iff (hr : ofSettings s = .ok r) {authority : Authority} :
    runWith h (onStore r.authority) w = (.ok authority, w') ↔
      ∃ a, runWith h (onStore (resolveAuthority s.authorityId s.keyBits)) w = (.ok a, w') ∧
        authority = a.toAuthority := by
  rw [ofSettings_eq_ok hr, runWith_onStore, runWith_onStore, Reconciler.authority,
    runWith_mapFailure_eq_ok]
  dsimp only
  rw [runWith_map_eq_ok]
  simp only [eq_comm]

/-- What looking at a record comes to once the record and the authority have been read. -/
theorem runWith_judge (hr : ofSettings s = .ok r)
    (hfetch : runWith h (onStore (fetch id)) w = (.ok record, w₁))
    (hresolve : runWith h (onStore (resolveAuthority s.authorityId s.keyBits)) w₁ = (.ok a, w₂)) :
    runWith h (r.judge id now) w =
      (a.appraise record (some s.dnsName) now >>= fun evaluation =>
        ((evaluation.decide r.lifetime now).mapError .time).map
          fun decision => (record.data, a.toAuthority, decision), w₂) := by
  have hauthority : runWith h (onStore r.authority) w₁ = (.ok a.toAuthority, w₂) :=
    (runWith_authority_eq_ok_iff hr).mpr ⟨a, hresolve, rfl⟩
  have hname : r.dnsName = s.dnsName := by rw [ofSettings_eq_ok hr]
  rw [judge, runWith_bind, hfetch]
  dsimp only
  rw [runWith_bind, hauthority]
  dsimp only
  rw [runWith_bind, runWith_onSigning, SelfSigned.runWith_evaluate, hname]
  cases a.appraise record (some s.dnsName) now with
  | error e => rfl
  | ok evaluation =>
    change runWith h (Action.ofExcept .time (evaluation.decide r.lifetime now) >>= fun decision =>
      pure (record.data, a.toAuthority, decision)) w₂ = _
    rw [runWith_bind, runWith_ofExcept]
    cases hdecide : evaluation.decide r.lifetime now with
    | error e => simp [hdecide, bind, Except.bind, Except.map]
    | ok decision => simp [hdecide, bind, Except.bind, Except.map]

/-- At a moment with an offset there is a decision about every evaluation of a record by an
authority that signs itself. -/
theorem exists_decide_of_appraise {evaluation : Evaluation} (lifetime : Span)
    (hnow : now.isAware) (happraise : a.appraise record (some s.dnsName) now = .ok evaluation) :
    ∃ decision, evaluation.decide lifetime now = .ok decision := by
  cases evaluation with
  | absent => exact ⟨_, rfl⟩
  | invalid defect => exact ⟨_, rfl⟩
  | valid notAfter =>
    obtain ⟨c, _, _, hvalid, _⟩ := (SelfSigned.appraise_eq_valid_iff hnow).mp happraise
    exact ⟨_, Evaluation.decide_valid _ (X509.Certificate.isAware_notAfter hvalid.ends) hnow⟩

/-- What has been read, found and decided when looking has come to an end. -/
theorem exists_appraise_of_judge (hr : ofSettings s = .ok r) {data : Fields}
    {authority : Authority} {decision : Decision}
    (hjudge : runWith h (r.judge id now) w = (.ok (data, authority, decision), w')) :
    ∃ record w₁ a evaluation, record.data = data ∧ authority = a.toAuthority ∧
      runWith h (onStore (fetch id)) w = (.ok record, w₁) ∧
      runWith h (onStore (resolveAuthority s.authorityId s.keyBits)) w₁ = (.ok a, w') ∧
      a.appraise record (some s.dnsName) now = .ok evaluation ∧
      evaluation.decide r.lifetime now = .ok decision := by
  obtain ⟨record, evaluation, w₁, w₂, rfl, hfetch, hauthority, hevaluate, hdecide⟩ :=
    r.runWith_judge_eq_ok hjudge
  obtain ⟨a, hresolve, rfl⟩ := (runWith_authority_eq_ok_iff hr).mp hauthority
  have hname : r.dnsName = s.dnsName := by rw [ofSettings_eq_ok hr]
  rw [runWith_onSigning, SelfSigned.runWith_evaluate, hname] at hevaluate
  obtain ⟨happraise, rfl⟩ := Prod.mk.inj hevaluate
  exact ⟨record, w₁, a, evaluation, rfl, rfl, hfetch, hresolve, happraise, hdecide⟩

/-- A pass fails where looking at the record does. -/
theorem runWith_reconcile_of_judge
    (hjudge : runWith h (r.judge id now) w = (.error e, w')) :
    runWith h (r.reconcile id (some now)) w = (.error e, w') := by
  have hclock : runWith h (onSigning (Signing.momentOr (some now))) w = (.ok now, w) := rfl
  rw [reconcile_eq, runWith_bind, settle, runWith_bind, hclock]
  dsimp only
  rw [runWith_bind, hjudge]

/-- At a given moment, what is left once a decision has been found is to carry it out. -/
theorem runWith_settle_of_judge {data : Fields} {authority : Authority} {decision : Decision}
    (hjudge : runWith h (r.judge id now) w = (.ok (data, authority, decision), w₁)) :
    runWith h (r.settle id (some now)) w =
      runWith h (r.carryOut id data authority now decision >>= fun outcome =>
        pure (decision, outcome)) w₁ := by
  have hclock : runWith h (onSigning (Signing.momentOr (some now))) w = (.ok now, w) := rfl
  rw [settle, runWith_bind, hclock]
  dsimp only
  rw [runWith_bind, hjudge]

/-- A pass concludes what carrying out its decision has come to. -/
theorem runWith_reconcile_eq {data : Fields} {authority : Authority} {decision : Decision}
    {outcome : Outcome}
    (hjudge : runWith h (r.judge id now) w = (.ok (data, authority, decision), w₁))
    (hcarry : runWith h (r.carryOut id data authority now decision) w₁ = (.ok outcome, w₂)) :
    runWith h (r.reconcile id (some now)) w = runWith h (r.conclude id decision outcome) w₂ := by
  rw [reconcile_eq, runWith_bind, runWith_settle_of_judge hjudge, runWith_bind, hcarry]
  rfl

/-- A pass that is given no moment is one at the moment that the clock shows. -/
theorem runWith_reconcile_by_clock
    (hclock : runWith h (onSigning Signing.clock) w = (.ok now, w₁)) :
    runWith h (r.reconcile id none) w = runWith h (r.reconcile id (some now)) w₁ := by
  have hnow : runWith h (onSigning (Signing.momentOr (some now))) w₁ = (.ok now, w₁) := rfl
  have hsettle : runWith h (r.settle id none) w = runWith h (r.settle id (some now)) w₁ := by
    rw [settle, settle, runWith_bind, runWith_bind, hnow, Signing.momentOr, hclock]
  rw [reconcile_eq, reconcile_eq, runWith_bind, runWith_bind, hsettle]

/-- Issuing comes to storing the pair that the authority issues. -/
theorem runWith_carryOut_of_issue (hr : ofSettings s = .ok r) {notAfter : Moment}
    (hadd : now.add? r.lifetime = .ok notAfter) {pair : Bytes × Bytes}
    (hissue : runWith h (onSigning (a.issue ⟨notAfter, s.dnsName⟩ (some now))) w = (.ok pair, w₁))
    {o : Outcome}
    (hwrite : runWith h (onStore (Writer.write id pair.1 pair.2)) w₁ = (.ok o, w₂))
    (data : Fields) (reason : String) (lifetime : Span) :
    runWith h (r.carryOut id data a.toAuthority now (.issue reason lifetime)) w = (.ok o, w₂) := by
  have hname : r.dnsName = s.dnsName := by rw [ofSettings_eq_ok hr]
  have hsigning : runWith h (onSigning ((a.toAuthority.issue ⟨notAfter, r.dnsName⟩
      (some now)).mapFailure (.issuance r.dnsName))) w = (.ok pair, w₁) := by
    rw [runWith_onSigning] at hissue ⊢
    exact runWith_mapFailure_eq_ok.mpr (hname ▸ hissue)
  exact runWith_ofExcept_bind_eq_ok.mpr ⟨notAfter, hadd,
    runWith_bind_eq_ok.mpr ⟨pair, w₁, hsigning, hwrite⟩⟩

/-- A pass for a record that does not exist creates it with the pair that the authority issues. -/
theorem runWith_reconcile_of_missing (hr : ofSettings s = .ok r)
    (hfetch : runWith h (onStore (fetch id)) w = (.ok (.missing id), w))
    (hresolve : runWith h (onStore (resolveAuthority s.authorityId s.keyBits)) w = (.ok a, w))
    {notAfter : Moment} (hadd : now.add? r.lifetime = .ok notAfter) {pair : Bytes × Bytes}
    (hissue : runWith h (onSigning (a.issue ⟨notAfter, s.dnsName⟩ (some now))) w = (.ok pair, w₁))
    (hwrite : runWith h (onStore (Writer.write id pair.1 pair.2)) w₁ = (.ok .created, w₂)) :
    runWith h (r.reconcile id (some now)) w =
      (.ok ⟨id, .issue "missing" r.lifetime, .created, r.lifetime, none⟩, w₂) := by
  have hjudge : runWith h (r.judge id now) w =
      (.ok (.empty, a.toAuthority, .issue "missing" r.lifetime), w) := by
    rw [runWith_judge hr hfetch hresolve]
    rfl
  have hcarry := runWith_carryOut_of_issue hr hadd hissue hwrite .empty "missing" r.lifetime
  rw [runWith_reconcile_eq hjudge hcarry, conclude, if_neg (by simp)]
  rfl

/-- A pass fails where carrying out its decision does. -/
theorem runWith_reconcile_of_carryOut {data : Fields} {authority : Authority} {decision : Decision}
    (hjudge : runWith h (r.judge id now) w = (.ok (data, authority, decision), w₁))
    (hcarry : runWith h (r.carryOut id data authority now decision) w₁ = (.error e, w')) :
    runWith h (r.reconcile id (some now)) w = (.error e, w') := by
  rw [reconcile_eq, runWith_bind, runWith_settle_of_judge hjudge, runWith_bind, hcarry]

end Reconciler

end CertKeeper
