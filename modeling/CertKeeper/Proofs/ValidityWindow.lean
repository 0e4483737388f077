import CertKeeper.Proofs.RequeueHint

/-!
# The window in which a pair is kept

A pair that an authority with a certificate of its own has once found valid is worth what the two
ends of its certificate say, at every moment with an offset
(`SelfSigned.exists_appraise_eq_between`): before the start it is rejected, from the end on it is
rejected as expired, and in between it is kept for exactly the time that is left. Hence a pass that
keeps a pair never asks to look again at once (`Reconciler.micros_pos_of_keep`).
-/

namespace CertKeeper

open CertKeeper.Action X509

/-- What a pair with a certificate that is valid from one moment until another is worth at a moment,
if nothing else is wrong with it. -/
def Evaluation.between (notBefore notAfter t : Moment) : Evaluation :=
  if notAfter.instant ≤ t.instant then .invalid (.rejected (.expired notAfter))
  else if t.instant < notBefore.instant then .invalid (.rejected (.notYetValid notBefore))
  else .valid notAfter

namespace SelfSigned

variable {a : SelfSigned} {c : Certificate} {r : Record} {dnsName : Option String}
  {now notAfter : Moment}

/-! ## What the ends of a certificate say -/

/-- A clock without an offset cannot be compared with the end of a certificate. -/
private theorem validateAt_ne_accepted (hnow : ¬ now.isAware) :
    validateAt c dnsName now ≠ .ok .accepted := by
  intro h
  unfold validateAt at h
  cases hends : c.notAfter? with
  | error e =>
    rw [hends] at h
    cases h
  | ok notAfter =>
    have hmixed : notAfter.le? now = .error .mixedComparison := by
      rw [Moment.le?, Moment.compare?, Certificate.isAware_notAfter hends, if_neg (Ne.symm hnow)]
      rfl
    rw [hends] at h
    dsimp only [mapError_ok, bind, Except.bind] at h
    rw [hmixed] at h
    cases h

/-- A pair is found valid only at a moment with a UTC offset. -/
theorem isAware_of_appraise (h : a.appraise r dnsName now = .ok (.valid notAfter)) :
    now.isAware := by
  by_contra hnow
  obtain ⟨c, holds⟩ | ⟨_, _, _, _, h'⟩ | h' | ⟨_, h'⟩ := appraise_cases a r dnsName now
  · rw [appraise_of_holds holds] at h
    split at h
    · cases h
    · cases h
    next hjudge =>
    unfold judgeAt at hjudge
    split at hjudge
    · exact validateAt_ne_accepted hnow hjudge
    · split at hjudge <;> cases hjudge
  all_goals
    rw [h'] at h
    cases h

/-- What a pair that is valid once is worth at any moment with an offset is said by the ends of its
certificate. -/
theorem exists_appraise_eq_between (h : a.appraise r dnsName now = .ok (.valid notAfter)) :
    ∃ c notBefore, r.Holds c ∧ c.notBefore? = .ok notBefore ∧ c.notAfter? = .ok notAfter ∧
      notBefore.instant ≤ now.instant ∧ now.instant < notAfter.instant ∧
      ∀ t : Moment, t.isAware →
        a.appraise r dnsName t = .ok (.between notBefore notAfter t) := by
  obtain ⟨c, holds, hissued, hvalid, hnames⟩ :=
    (appraise_eq_valid_iff (isAware_of_appraise h)).mp h
  obtain ⟨hlt, hends, notBefore, hstarts, hle⟩ := hvalid
  refine ⟨c, notBefore, holds, hstarts, hends, hle, hlt, fun t ht => ?_⟩
  by_cases hlate : notAfter.instant ≤ t.instant
  · rw [Evaluation.between, if_pos hlate, appraise_of_holds holds, judgeAt, hissued]
    dsimp only
    rw [validateAt_eq ht, hends]
    dsimp only
    rw [if_pos hlate]
  by_cases hearly : t.instant < notBefore.instant
  · rw [Evaluation.between, if_neg hlate, if_pos hearly, appraise_of_holds holds, judgeAt, hissued]
    dsimp only
    rw [validateAt_eq ht, hends, hstarts]
    dsimp only
    rw [if_neg hlate, if_pos hearly]
  · rw [Evaluation.between, if_neg hlate, if_neg hearly]
    refine (appraise_eq_valid_iff ht).mpr ⟨c, holds, hissued, ?_, hnames⟩
    exact ⟨by omega, hends, notBefore, hstarts, by omega⟩

end SelfSigned

/-! ## What is decided -/

/-- What is found and decided at a moment about a pair whose certificate is valid from one moment
until another. -/
structure DecidedWithin (notBefore notAfter : Moment) (lifetime : Span) (t : Moment)
    (evaluation : Evaluation) (decision : Decision) : Prop where
  /-- From the start until before the end the pair is kept for the time that is left, which is never
  none; where the clock can show the moment after that time, it is the end. -/
  kept : notBefore.instant ≤ t.instant → t.instant < notAfter.instant →
    evaluation = .valid notAfter ∧ ∃ remaining, decision = .keep remaining ∧
      decision.requeueAfter = remaining ∧ 0 < remaining.micros ∧
      t.instant + remaining.micros = notAfter.instant ∧
      ∀ m, t.add? remaining = .ok m → m.instant = notAfter.instant
  /-- From the end on it is replaced as expired. -/
  expired : notAfter.instant ≤ t.instant →
    ∃ rejection, evaluation = .invalid (.rejected rejection) ∧ rejection.kind = .expired ∧
      decision = .invalidate (Defect.rejected rejection).reason lifetime ∧
      decision.requeueAfter = lifetime
  /-- Before the start it is replaced as well, but not as expired. -/
  early : t.instant < notBefore.instant →
    ∃ rejection, evaluation = .invalid (.rejected rejection) ∧ rejection.kind = .other ∧
      decision = .invalidate (Defect.rejected rejection).reason lifetime ∧
      decision.requeueAfter = lifetime

/-- A decision about a pair at a moment with an offset can always be made, and it is that one. -/
private theorem Evaluation.exists_decide_between {notBefore notAfter t : Moment} (lifetime : Span)
    (hlt : notBefore.instant < notAfter.instant) (hends : notAfter.isAware) (ht : t.isAware) :
    ∃ decision, (between notBefore notAfter t).decide lifetime t = .ok decision ∧
      DecidedWithin notBefore notAfter lifetime t (between notBefore notAfter t) decision := by
  unfold between
  by_cases hlate : notAfter.instant ≤ t.instant
  · rw [if_pos hlate]
    exact ⟨_, rfl, ⟨fun _ _ => by omega, fun _ => ⟨_, rfl, rfl, rfl, rfl⟩, fun _ => by omega⟩⟩
  by_cases hearly : t.instant < notBefore.instant
  · rw [if_neg hlate, if_pos hearly]
    exact ⟨_, rfl, ⟨fun _ _ => by omega, fun _ => by omega, fun _ => ⟨_, rfl, rfl, rfl, rfl⟩⟩⟩
  · rw [if_neg hlate, if_neg hearly]
    refine ⟨_, decide_valid lifetime hends ht, ⟨fun _ _ => ⟨rfl, _, rfl, rfl, ?_, ?_, ?_⟩,
      fun _ => by omega, fun _ => by omega⟩⟩
    · dsimp only
      omega
    · dsimp only
      omega
    · intro m hm
      rw [Moment.instant_of_add? hm]
      dsimp only
      omega

namespace Reconciler

/-- A pass whose authority has a certificate of its own keeps a pair for a positive time only. -/
theorem micros_pos_of_keep {r : Reconciler} {find : Action Store SelfSigned}
    (hr : r.resolve = SelfSigned.toAuthority <$> find) {σ : Type} {h : Handler World σ}
    {id : Identity} {now : Option Moment} {w w' : σ} {result : PassResult}
    (hrun : runWith h (r.reconcile id now) w = (.ok result, w')) {remaining : Span}
    (hkeep : result.decision = .keep remaining) :
    result.requeueAfter = remaining ∧ 0 < remaining.micros := by
  obtain ⟨decision, outcome, restart, w₁, rfl, hsettle, _⟩ := r.exists_settle_of_reconcile hrun
  dsimp only at hkeep ⊢
  subst hkeep
  refine ⟨rfl, ?_⟩
  cases r.settles_of_runWith hsettle with
  | @done m _ _ _ data authority _ _ _ hjudge _ =>
  obtain ⟨record, evaluation, w₂, w₃, _, _, hauthority, hevaluate, hdecide⟩ :=
    r.runWith_judge_eq_ok hjudge
  obtain ⟨notAfter, rfl, hsub⟩ := decide_eq_keep hdecide
  rw [runWith_onStore, Reconciler.authority, runWith_mapFailure_eq_ok, hr, runWith_map_eq_ok]
    at hauthority
  obtain ⟨a, _, rfl⟩ := hauthority
  rw [runWith_onSigning, SelfSigned.runWith_evaluate] at hevaluate
  have hvalid := congrArg Prod.fst hevaluate
  have hm := SelfSigned.isAware_of_appraise hvalid
  obtain ⟨_, _, _, _, hends, _, hlt, _⟩ := SelfSigned.exists_appraise_eq_between hvalid
  rw [Moment.sub?_eq_ok (Certificate.isAware_notAfter hends) hm] at hsub
  cases hsub
  dsimp only
  omega

/-- Where an authority has once found a pair valid, its certificate has a start and an end, and at
every moment with an offset it is found and decided about the pair what these two say: it is kept
for the time that is left exactly from the start until before the end, and replaced at any other
moment. A pass of such an authority never keeps a pair for no time or less. -/
theorem kept_within_window :
    (∀ (a : SelfSigned) (r : Record) (dnsName : Option String) (lifetime : Span)
        (t₀ notAfter : Moment) {τ : Type} (g : Handler Signing τ) (w w' : τ), t₀.isAware →
      runWith g (evaluate r a.toAuthority dnsName (some t₀)) w = (.ok (.valid notAfter), w') →
      ∃ c notBefore, r.Holds c ∧ c.notBefore? = .ok notBefore ∧ c.notAfter? = .ok notAfter ∧
        ∀ t : Moment, t.isAware → ∃ evaluation decision,
          (∀ {τ : Type} (g : Handler Signing τ) (w : τ),
            runWith g (evaluate r a.toAuthority dnsName (some t)) w = (.ok evaluation, w)) ∧
          evaluation.decide lifetime t = .ok decision ∧
          DecidedWithin notBefore notAfter lifetime t evaluation decision) ∧
    (∀ (r : Reconciler) (find : Action Store SelfSigned) {σ : Type} (h : Handler World σ)
        (id : Identity) (now : Option Moment) (w w' : σ) (result : PassResult),
      r.resolve = SelfSigned.toAuthority <$> find →
      runWith h (r.reconcile id now) w = (.ok result, w') →
      ∀ remaining, result.decision = .keep remaining →
        result.requeueAfter = remaining ∧ 0 < remaining.micros) := by
  constructor
  · intro a r dnsName lifetime t₀ notAfter τ g w w' _ hvalid
    rw [SelfSigned.runWith_evaluate] at hvalid
    obtain ⟨c, notBefore, holds, hstarts, hends, hle, hlt, hbetween⟩ :=
      SelfSigned.exists_appraise_eq_between (congrArg Prod.fst hvalid)
    refine ⟨c, notBefore, holds, hstarts, hends, fun t ht => ?_⟩
    obtain ⟨decision, hdecide, hwithin⟩ := Evaluation.exists_decide_between lifetime
      (Int.lt_of_le_of_lt hle hlt) (Certificate.isAware_notAfter hends) ht
    refine ⟨.between notBefore notAfter t, decision, fun g w => ?_, hdecide, hwithin⟩
    rw [SelfSigned.runWith_evaluate, hbetween t ht]
  · intro r find σ h id now w w' result hr hrun remaining hkeep
    exact micros_pos_of_keep hr hrun hkeep

/-- A pair that a pass has issued half a second after the start of March is kept then and has
expired at the last whole second of the 180 days, and the next pass keeps it for a positive time. -/
theorem kept_within_window_half :
    ∃ r w' a record notAfter, ofSettings .plain = .ok r ∧ Moment.marchHalf.isAware ∧
      runWith Signing.steady (evaluate record (SelfSigned.toAuthority a)
        (some SelfSigned.serviceName) (some .marchHalf)) () = (.ok (.valid notAfter), ()) ∧
      (∃ decision remaining,
        (Evaluation.valid notAfter).decide r.lifetime .marchHalf = .ok decision ∧
        decision = .keep remaining ∧ 0 < remaining.micros ∧
        Moment.marchHalf.instant + remaining.micros = Moment.august.instant) ∧
      (∃ rejection, runWith Signing.steady (evaluate record a.toAuthority
          (some SelfSigned.serviceName) (some .august)) () =
            (.ok (.invalid (.rejected rejection)), ()) ∧ rejection.kind = .expired) ∧
      ∃ result remaining, runWith (World.inMemory Signing.steady)
          (r.reconcile ⟨"default", "tls"⟩ (some .marchHalf)) w' = (.ok result, w') ∧
        result.decision = .keep remaining ∧ result.requeueAfter = remaining ∧
        0 < remaining.micros := by
  obtain ⟨ca, r, w', hca, hr, hrun, hlifetime⟩ := exists_reconcile_half
  have hs : Settings.ofValues ⟨.empty, .empty, .empty⟩ "server" = .ok .plain := rfl
  obtain ⟨a, notAfter, hsettled, hends⟩ := exists_settled_of_reconcile hs hr
    (servesAlone_inMemory Signing.steady) (drawsSoundFor_inMemory (Signing.drawsSoundFor_steady _))
    (SelfSigned.genuine_of_generate (Signing.drawsSoundFor_steady _) hca)
    (u := (.withAuthority ca, ())) (MemoryStore.get?_withAuthority ca)
    (SelfSigned.storedIn_store _ _) rfl hrun
  have hlast := instant_of_shortfall_half hlifetime hends
  obtain ⟨record, hrecord, happraise⟩ := hsettled.pair
  have hvalid : runWith Signing.steady (evaluate record a.toAuthority
      (some SelfSigned.serviceName) (some .marchHalf)) () = (.ok (.valid notAfter), ()) := by
    rw [SelfSigned.runWith_evaluate]
    exact congrArg (·, ()) happraise
  have hagain := hsettled.runWith_reconcile (w := w') (g := Signing.steady) hr rfl
  obtain ⟨c, notBefore, _, hstarts, _, hwindow⟩ := kept_within_window.1 a record
    (some SelfSigned.serviceName) r.lifetime .marchHalf notAfter Signing.steady () () rfl hvalid
  obtain ⟨evaluation, decision, hevaluate, hdecide, hwithin⟩ := hwindow .marchHalf rfl
  have hsame : evaluation = .valid notAfter :=
    Except.ok.inj (congrArg Prod.fst ((hevaluate Signing.steady ()).symm.trans hvalid))
  subst hsame
  have hstarted : notBefore.instant ≤ Moment.marchHalf.instant := by
    by_contra hearly
    obtain ⟨_, hinvalid, _⟩ := hwithin.early (by omega)
    cases hinvalid
  obtain ⟨_, remaining, hkeep, _, hpositive, hsum, _⟩ :=
    hwithin.kept hstarted (hlast ▸ by decide)
  obtain ⟨_, _, hexpired, _, hwithin'⟩ := hwindow .august rfl
  obtain ⟨rejection, rfl, hkind, _⟩ := hwithin'.expired (Int.le_of_eq hlast)
  have hpass := kept_within_window.2 r (resolveAuthority Settings.plain.authorityId
    Settings.plain.keyBits) _ _ _ _ _ _ (by rw [ofSettings_eq_ok hr]) hagain _ rfl
  exact ⟨r, w', a, record, notAfter, hr, rfl, hvalid,
    ⟨decision, remaining, hdecide, hkeep, hpositive, hsum.trans hlast⟩,
    ⟨rejection, hexpired Signing.steady (), hkind⟩, _, _, hagain, rfl, hpass⟩

end Reconciler

end CertKeeper
