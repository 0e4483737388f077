import CertKeeper.Proofs.AuthorityFields
import CertKeeper.Proofs.SharedStore
import CertKeeper.Proofs.StoredAuthority

/-!
# Failures that escape a pass

Whatever the store, the authority's record or the issuing reports leaves a pass as a failure of the
engine. Two kinds of failures escape beside these (`Reconciler.reconcile_escapes_iff`): those that
the evaluation of the record does not foresee, and that of an expiry beyond the last year.
-/

namespace CertKeeper

open CertKeeper.Action Crypto Reconciler X509

namespace Moment

/-- A clock cannot be moved by a span beyond the ends of its dial. -/
theorem add?_eq_error_iff {m : Moment} {s : Span} {e : TimeError} :
    m.add? s = .error e ↔ e = .dateOutOfRange ∧
      (m.wall + s.micros < 0 ∨ 3652059 * 86400000000 ≤ m.wall + s.micros) := by
  unfold add? ofWall?
  split
  · next hw =>
    constructor
    · intro h
      cases h
    · rintro ⟨_, hout⟩
      omega
  · next hw =>
    constructor
    · intro h
      cases h
      exact ⟨rfl, by omega⟩
    · rintro ⟨rfl, _⟩
      rfl

end Moment

/-! ## Settings and an authority to try -/

/-- Settings that ask for a lifetime of a hundred million hours. -/
def Settings.Values.endless : Settings.Values :=
  ⟨.ofList [("certificate_lifetime_hours", .number (.integer 100000000))], .empty, .empty⟩

/-- A certificate for the smallest of keys, which nobody has signed. -/
def X509.Certificate.small : Certificate :=
  let name := Name.ofCommonName "small" "small"
  let statement := statementOf name name Rsa.PrivateKey.small.publicKey 1 .first .first []
  ⟨statement.seal [], statement.element.encode, statement, .rsaSha256, []⟩

/-- The authority with that certificate. -/
def SelfSigned.small : SelfSigned := ⟨.small, .small, "small", 2048⟩

/-- The authority with the small key is found in the fields in which it is stored. -/
private theorem SelfSigned.exists_ofFields_small (id : Identity) :
    ∃ a, SelfSigned.ofFields id (small.store .empty) 2048 = .ok a := by
  have hread : ((Certificate.ofDer small.certificate.der).toOption.bind fun c =>
      c.statement.subject.organization?.toOption).isSome := by decide +kernel
  cases hc : Certificate.ofDer small.certificate.der with
  | error defect =>
    rw [hc] at hread
    cases hread
  | ok c =>
  cases horganization : c.statement.subject.organization? with
  | error defect =>
    rw [hc] at hread
    dsimp only [Except.toOption, Option.bind_some] at hread
    rw [horganization] at hread
    cases hread
  | ok organization =>
    refine ⟨⟨c, .small, organization.getD defaultOrganization, 2048⟩, ?_⟩
    exact (ofFields_eq_ok_iff (storedIn_store _ _) Rsa.PrivateKey.sound_small).mpr
      ⟨hc, rfl, rfl, organization, horganization, rfl⟩

namespace Reconciler

variable {r : Reconciler} {σ : Type} {h : Handler World σ} {w w' : σ} {id : Identity}
  {e : Failure}

/-! ## Failures of the engine -/

private theorem engineKind?_of_fetch (hrun : runWith h (onStore (fetch id)) w = (.error e, w')) :
    e.engineKind? = some .fetch := by
  rw [runWith_onStore, fetch, runWith_bind, runWith_outcome] at hrun
  dsimp only at hrun
  split at hrun
  · cases hrun
  split at hrun
  · cases hrun
  · cases hrun
    rfl

private theorem engineKind?_of_authority
    (hrun : runWith h (onStore r.authority) w = (.error e, w')) :
    e.engineKind? = some .authority := by
  rw [runWith_onStore, authority, runWith_mapFailure] at hrun
  cases hres : (runWith (World.storeOf h) r.resolve w).1 with
  | ok a =>
    rw [hres] at hrun
    cases hrun
  | error cause =>
    rw [hres] at hrun
    cases hrun
    dsimp only
    by_cases hkind : cause.engineKind? = some .authority
    · rw [if_pos hkind, hkind]
    · rw [if_neg hkind]
      rfl

private theorem engineKind?_of_apply {change : Fields → Fields}
    (hrun : runWith h (onStore (Writer.apply id change)) w = (.error e, w')) :
    e.engineKind? = some .write := by
  rw [runWith_onStore, Writer.apply, runWith_mapFailure] at hrun
  cases hres : (runWith (World.storeOf h)
    (Store.upsert id fun data => .ok (change data)) w).1 with
  | ok o =>
    rw [hres] at hrun
    cases hrun
  | error cause =>
    rw [hres] at hrun
    cases hrun
    rfl

/-- Issuing fails with a failure of the engine, or else the new expiry cannot be computed. -/
theorem engineKind?_of_issue {a : Authority} {now : Moment}
    (hrun : runWith h (r.issue id a now) w = (.error e, w')) :
    e.engineKind? ≠ none ∨ ∃ cause, e = .time cause ∧ now.add? r.lifetime = .error cause := by
  obtain hadd | ⟨notAfter, w₁, _, hrun⟩ := runWith_bind_eq_error.mp hrun
  · rw [runWith_ofExcept] at hadd
    cases hexpiry : now.add? r.lifetime with
    | ok m =>
      rw [hexpiry] at hadd
      cases hadd
    | error cause =>
      rw [hexpiry] at hadd
      cases hadd
      exact .inr ⟨cause, rfl, rfl⟩
  · left
    obtain hissue | ⟨pair, w₂, _, hwrite⟩ := runWith_bind_eq_error.mp hrun
    · rw [runWith_onSigning, runWith_mapFailure] at hissue
      cases hres :
        (runWith (World.signingOf h) (a.issue ⟨notAfter, r.dnsName⟩ (some now)) w₁).1 with
      | ok p =>
        rw [hres] at hissue
        cases hissue
      | error cause =>
        rw [hres] at hissue
        cases hissue
        exact Option.some_ne_none _
    · rw [engineKind?_of_apply hwrite]
      exact Option.some_ne_none _

/-! ## What escapes -/

variable {s : Settings} {a : SelfSigned} {record : Record} {now : Moment} {w₁ w₂ : σ}

/-- The failures that escape a pass for a record that was read beside the authority. -/
inductive Escapes (s : Settings) (a : SelfSigned) (record : Record) (now : Moment) :
    Failure → Prop
  /-- The evaluation of the record does not foresee what it finds. -/
  | evaluation {e : Failure} (unforeseen : a.Unforeseen record now e) : Escapes s a record now e
  /-- A pair is to be issued, and it would expire after the last year. -/
  | expiry {evaluation : Evaluation}
      (appraised : a.appraise record (some s.dnsName) now = .ok evaluation)
      (unusable : ∀ notAfter, evaluation ≠ .valid notAfter)
      (late : 3652059 * 86400000000 ≤ now.wall + s.lifetimeHours * Span.microsPerHour) :
      Escapes s a record now (.time .dateOutOfRange)

/-- What an evaluation does not foresee is no failure of the engine. -/
private theorem engineKind?_of_unforeseen (he : a.Unforeseen record now e) :
    e.engineKind? = none := by
  cases he <;> rfl

/-- What escapes while the record is looked at. -/
private theorem escapes_of_judge (hr : ofSettings s = .ok r) (hnow : now.isAware)
    (hrun : runWith h (r.judge id now) w = (.error e, w')) (hkind : e.engineKind? = none) :
    ∃ record w₁ a w₂, runWith h (onStore (fetch id)) w = (.ok record, w₁) ∧
      runWith h (onStore (resolveAuthority s.authorityId s.keyBits)) w₁ = (.ok a, w₂) ∧
      Escapes s a record now e := by
  rcases hfetch : runWith h (onStore (fetch id)) w with ⟨cause | record, w₁⟩
  · rw [judge, runWith_bind, hfetch] at hrun
    cases hrun
    rw [engineKind?_of_fetch hfetch] at hkind
    cases hkind
  rcases hauthority : runWith h (onStore r.authority) w₁ with ⟨cause | authority, w₂⟩
  · rw [judge, runWith_bind, hfetch] at hrun
    dsimp only at hrun
    rw [runWith_bind, hauthority] at hrun
    cases hrun
    rw [engineKind?_of_authority hauthority] at hkind
    cases hkind
  obtain ⟨a, hresolve, rfl⟩ := (runWith_authority_eq_ok_iff hr).mp hauthority
  refine ⟨record, w₁, a, w₂, rfl, hresolve, ?_⟩
  rw [runWith_judge hr hfetch hresolve] at hrun
  cases happraise : a.appraise record (some s.dnsName) now with
  | error cause =>
    rw [happraise] at hrun
    cases hrun
    exact .evaluation ((SelfSigned.appraise_eq_error_iff hnow).mp happraise)
  | ok evaluation =>
    obtain ⟨decision, hdecide⟩ := exists_decide_of_appraise r.lifetime hnow happraise
    rw [happraise] at hrun
    simp only [bind, Except.bind, hdecide] at hrun
    cases hrun

/-- What escapes while a decision is carried out. -/
private theorem add?_of_carryOut {data : Fields} {authority : Authority} {decision : Decision}
    (hrun : runWith h (r.carryOut id data authority now decision) w = (.error e, w'))
    (hkind : e.engineKind? = none) :
    (∀ remaining, decision ≠ .keep remaining) ∧
      ∃ cause, e = .time cause ∧ now.add? r.lifetime = .error cause := by
  cases decision with
  | keep remaining =>
    rw [engineKind?_of_apply hrun] at hkind
    cases hkind
  | issue reason lifetime =>
    exact ⟨nofun, (engineKind?_of_issue hrun).resolve_left (not_not_intro hkind)⟩
  | invalidate reason lifetime =>
    obtain hclear | ⟨o, w₁, _, hrun⟩ := runWith_bind_eq_error.mp hrun
    · rw [engineKind?_of_apply hclear] at hkind
      cases hkind
    obtain hissue | ⟨o', w₂, _, hrun⟩ := runWith_bind_eq_error.mp hrun
    · exact ⟨nofun, (engineKind?_of_issue hissue).resolve_left (not_not_intro hkind)⟩
    · cases hrun

/-- A valid pair is kept. -/
private theorem exists_keep_of_decide {notAfter : Moment} {lifetime : Span} {decision : Decision}
    (hdecide : (Evaluation.valid notAfter).decide lifetime now = .ok decision) :
    ∃ remaining, decision = .keep remaining := by
  rw [Evaluation.decide] at hdecide
  cases hsub : notAfter.sub? now with
  | error e =>
    rw [hsub] at hdecide
    cases hdecide
  | ok remaining =>
    rw [hsub] at hdecide
    cases hdecide
    exact ⟨remaining, rfl⟩

/-- A store that never fails stores every change. -/
def StoresAll (h : Handler World σ) : Prop :=
  ∀ id (change : Fields → Fields) w,
    ∃ o, (h (.inl (.upsert id fun data => .ok (change data))) w).1 = .ok o

/-- A store in memory never fails. -/
private theorem storesAll_inMemory {τ : Type} (g : Handler Signing τ) :
    StoresAll (World.inMemory g) := by
  intro id change w
  obtain ⟨o, s', ho⟩ := MemoryStore.exists_upsert_eq_ok w.1 id change
  exact ⟨o, congrArg Prod.fst ho⟩

/-- A pass that is to issue a pair that would expire too late fails. -/
private theorem runWith_carryOut_of_late (hstores : StoresAll h) {data : Fields}
    {authority : Authority}
    {decision : Decision} {cause : TimeError} (hkeep : ∀ remaining, decision ≠ .keep remaining)
    (hadd : now.add? r.lifetime = .error cause) (w : σ) :
    ∃ w', runWith h (r.carryOut id data authority now decision) w = (.error (.time cause), w') := by
  have hissue (w : σ) : runWith h (r.issue id authority now) w = (.error (.time cause), w) := by
    rw [issue, runWith_bind, runWith_ofExcept, hadd]
    rfl
  cases decision with
  | keep remaining => exact absurd rfl (hkeep remaining)
  | issue reason lifetime => exact ⟨w, hissue w⟩
  | invalidate reason lifetime =>
    obtain ⟨o, ho⟩ := hstores id Writer.removePair w
    rcases hclear : runWith h (onStore (Writer.clear id)) w with ⟨res, w₁⟩
    have hres : res = .ok o := by
      rw [runWith_onStore, Writer.clear, Writer.apply, runWith_mapFailure, Prod.mk.injEq] at hclear
      rw [← hclear.1]
      exact congrArg (Except.mapError (Failure.write id)) ho
    rw [carryOut, runWith_bind, hclear, hres]
    dsimp only
    rw [runWith_bind, hissue]
    exact ⟨_, rfl⟩

/-- What is no failure of the engine and leaves a pass of accepted settings at a moment with an
offset. -/
private theorem escapes_of_reconcile {v : Settings.Values} {host : String}
    (hs : Settings.ofValues v host = .ok s) (hr : ofSettings s = .ok r) (hnow : now.isAware)
    (hrun : (runWith h (r.reconcile id (some now)) w).1 = .error e)
    (hkind : e.engineKind? = none) :
    ∃ record w₁ a w₂, runWith h (onStore (fetch id)) w = (.ok record, w₁) ∧
      runWith h (onStore (resolveAuthority s.authorityId s.keyBits)) w₁ = (.ok a, w₂) ∧
      Escapes s a record now e := by
  have hsettle : ∃ w', runWith h (r.settle id (some now)) w = (.error e, w') := by
    cases hres : runWith h (r.reconcile id (some now)) w with
    | mk res w' =>
      rw [hres] at hrun
      cases hrun
      cases r.course_of_runWith hres with
      | fails hsettle => exact ⟨w', hsettle⟩
  obtain ⟨w', hsettle⟩ := hsettle
  cases r.settles_of_runWith hsettle with
  | judgeFails clock judge =>
    cases clock
    exact escapes_of_judge hr hnow judge hkind
  | carryOutFails clock judge carryOut =>
    cases clock
    obtain ⟨hkeep, cause, rfl, hadd⟩ := add?_of_carryOut carryOut hkind
    obtain ⟨record, w₁, a, evaluation, _, _, hfetch, hresolve, happraise, hdecide⟩ :=
      exists_appraise_of_judge hr judge
    refine ⟨record, w₁, a, _, hfetch, hresolve, ?_⟩
    rw [ofSettings_eq_ok hr] at hadd
    obtain ⟨rfl, hlate⟩ := Moment.add?_eq_error_iff.mp hadd
    apply Escapes.expiry happraise
    · rintro notAfter rfl
      obtain ⟨remaining, rfl⟩ := exists_keep_of_decide hdecide
      exact hkeep remaining rfl
    · have hpos := (Settings.bounds_of_ofValues hs).1
      have hspan : 0 < s.lifetimeHours * Span.microsPerHour := by
        unfold Span.microsPerHour
        omega
      dsimp only at hlate
      omega

/-- A pass fails where the evaluation does not foresee what it finds, and where it is to issue a
pair that would expire too late. -/
private theorem runWith_reconcile_of_escapes (hr : ofSettings s = .ok r) (hstores : StoresAll h)
    (hnow : now.isAware) (hfetch : runWith h (onStore (fetch id)) w = (.ok record, w₁))
    (hresolve : runWith h (onStore (resolveAuthority s.authorityId s.keyBits)) w₁ = (.ok a, w₂))
    (hescapes : Escapes s a record now e) :
    (runWith h (r.reconcile id (some now)) w).1 = .error e ∧ e.engineKind? = none := by
  cases hescapes with
  | evaluation hunforeseen =>
    have hjudge : runWith h (r.judge id now) w = (.error e, w₂) := by
      rw [runWith_judge hr hfetch hresolve,
        (SelfSigned.appraise_eq_error_iff hnow).mpr hunforeseen]
      rfl
    rw [runWith_reconcile_of_judge hjudge]
    exact ⟨rfl, engineKind?_of_unforeseen hunforeseen⟩
  | @expiry evaluation appraised unusable late =>
    have hadd : now.add? r.lifetime = .error .dateOutOfRange := by
      rw [ofSettings_eq_ok hr]
      exact Moment.add?_eq_error_iff.mpr ⟨rfl, .inr late⟩
    obtain ⟨decision, hdecide⟩ := exists_decide_of_appraise r.lifetime hnow appraised
    have hjudge : runWith h (r.judge id now) w =
        (.ok (record.data, a.toAuthority, decision), w₂) := by
      rw [runWith_judge hr hfetch hresolve, appraised]
      simp only [bind, Except.bind, hdecide]
      rfl
    have hkeep : ∀ remaining, decision ≠ .keep remaining := by
      rintro remaining rfl
      obtain ⟨notAfter, hvalid, _⟩ := decide_eq_keep hdecide
      exact unusable notAfter hvalid
    obtain ⟨w', hcarry⟩ := runWith_carryOut_of_late hstores hkeep hadd w₂
    rw [runWith_reconcile_of_carryOut hjudge hcarry]
    exact ⟨rfl, rfl⟩

/-- From a pass of accepted settings at a moment with an offset, over a store that never fails, a
failure that is not one of the engine escapes exactly if the record and the authority were read and
either the evaluation does not foresee what it finds or a new pair would expire after the last
year. -/
theorem reconcile_escapes_iff {v : Settings.Values} {host : String}
    (hs : Settings.ofValues v host = .ok s) (hr : ofSettings s = .ok r) (hstores : StoresAll h)
    (hnow : now.isAware) :
    (runWith h (r.reconcile id (some now)) w).1 = .error e ∧ e.engineKind? = none ↔
      ∃ record w₁ a w₂, runWith h (onStore (fetch id)) w = (.ok record, w₁) ∧
        runWith h (onStore (resolveAuthority s.authorityId s.keyBits)) w₁ = (.ok a, w₂) ∧
        Escapes s a record now e := by
  constructor
  · rintro ⟨hrun, hkind⟩
    exact escapes_of_reconcile hs hr hnow hrun hkind
  · rintro ⟨record, w₁, a, w₂, hfetch, hresolve, hescapes⟩
    exact runWith_reconcile_of_escapes hr hstores hnow hfetch hresolve hescapes

/-- The first pass of accepted settings that ask for a lifetime of more than eleven thousand years
fails, and with no failure of the engine. -/
theorem reconcile_escapes_late :
    ∃ s r, Settings.ofValues .endless "server" = .ok s ∧ ofSettings s = .ok r ∧
      ∃ e, (runWith (World.inMemory scriptedSigner) (r.reconcile s.servingId (some .first))
        (MemoryStore.empty.setRecord ⟨s.authorityId, SelfSigned.small.store .empty, 1⟩, [])).1 =
          .error e ∧ e.engineKind? = none := by
  obtain ⟨a, ha⟩ := SelfSigned.exists_ofFields_small ⟨"default", "ca"⟩
  have hs : Settings.ofValues .endless "server" = .ok
      ⟨"default", "server", "tls", "ca", "webhook-service", 100000000, 2048⟩ := rfl
  refine ⟨_, _, hs, rfl, .time .dateOutOfRange, ?_⟩
  apply (reconcile_escapes_iff hs rfl (storesAll_inMemory _) rfl).mpr
  have hresolve : runWith (World.inMemory scriptedSigner)
      (onStore (resolveAuthority ⟨"default", "ca"⟩ 2048))
      (MemoryStore.empty.setRecord ⟨⟨"default", "ca"⟩, SelfSigned.small.store .empty, 1⟩, []) = _ :=
    runWith_resolveAuthority_inMemory _ ((MemoryStore.get?_setRecord _ _ _).trans (if_pos rfl))
  rw [ha] at hresolve
  exact ⟨_, _, a, _, runWith_fetch_inMemory _ _ _, hresolve, .expiry rfl nofun (by decide)⟩

end Reconciler

end CertKeeper
