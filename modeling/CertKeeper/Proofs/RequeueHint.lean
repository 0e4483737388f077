import CertKeeper.Proofs.SettledPass

/-!
# When a record is due again

A pass says after which time its record is due again. Where it has kept a pair, the pair expires
exactly then. Where it has stored a new one, the pair expires earlier by the fraction of a second of
the moment of the pass, since the end of a certificate is cut off to whole seconds while the hint is
the lifetime that was asked for (`Reconciler.reconcile_due`).
-/

namespace CertKeeper

open CertKeeper.Action Reconciler X509

namespace Reconciler

variable {r : Reconciler} {s : Settings} {σ : Type} {h : Handler World σ} {view : σ → MemoryStore}
  {w w' : σ} {id : Identity} {ca a : SelfSigned} {now notAfter : Moment}

/-- What the pair of a settled record is worth to the authority from then on: it is valid until it
expires. -/
theorem Settled.evaluate_eq {store : MemoryStore} (hsettled : Settled s id a now notAfter store)
    (hnow : now.isAware) :
    ∃ record, store.records.get? id = some record ∧
      ∀ m : Moment, m.isAware → now.instant ≤ m.instant →
        ∀ {τ : Type} (g : Handler Signing τ) (t : τ),
          runWith g (evaluate record a.toAuthority (some s.dnsName) (some m)) t =
            (.ok (if m.instant < notAfter.instant then .valid notAfter
              else .invalid (.rejected (.expired notAfter))), t) := by
  obtain ⟨record, hrecord, hvalid⟩ := hsettled.pair
  refine ⟨record, hrecord, fun m hm hle τ g t => ?_⟩
  rw [SelfSigned.runWith_evaluate]
  split
  · next hlt => rw [SelfSigned.appraise_later hnow hm hle hlt hvalid]
  · next hge => rw [SelfSigned.appraise_expired hnow hm (by omega) hvalid]

/-- After a pass of accepted settings that returns, where the stored authority was generated here,
the record holds a pair that is valid to that authority for the name of the settings from the moment
of the pass on until the record is due again; a pair that the pass has issued expires earlier than
that by the fraction of a second of the moment of the pass, and no pair expires earlier still. -/
theorem reconcile_due {o : SelfSigned.Options} {ρ : Type} {g₀ : Handler Signing ρ} {t t' : ρ}
    (hg₀ : Signing.DrawsSoundFor g₀ o.keyBits)
    (hca : runWith g₀ (SelfSigned.generate o) t = (.ok ca, t')) {v : Settings.Values}
    {host : String} (hs : Settings.ofValues v host = .ok s)
    (hr : ofSettings s = .ok r) (halone : ServesAlone h view)
    (hg : Signing.DrawsSoundFor (World.signingOf h) s.keyBits) {authority : Record}
    (hauthority : (view w).records.get? s.authorityId = some authority)
    (hstored : ca.StoredIn authority.data) (hnow : now.isAware) {result : PassResult}
    (hrun : runWith h (r.reconcile id (some now)) w = (.ok result, w')) :
    ∃ record stored a notAfter, (view w').records.get? id = some record ∧
      (view w').records.get? s.authorityId = some stored ∧
      SelfSigned.ofFields s.authorityId stored.data s.keyBits = .ok a ∧
      notAfter.instant =
        now.instant + result.requeueAfter.micros - result.decision.shortfall now ∧
      ∀ m : Moment, m.isAware → now.instant ≤ m.instant →
        ∀ {τ : Type} (g : Handler Signing τ) (t : τ),
          runWith g (evaluate record a.toAuthority (some s.dnsName) (some m)) t =
            (.ok (if m.instant < notAfter.instant then .valid notAfter
              else .invalid (.rejected (.expired notAfter))), t) := by
  obtain ⟨a, notAfter, hsettled, hends⟩ := exists_settled_of_reconcile hs hr halone hg
    (SelfSigned.genuine_of_generate hg₀ hca) hauthority hstored hnow hrun
  obtain ⟨stored, hstored', hfields⟩ := hsettled.authority
  obtain ⟨record, hrecord, hevaluate⟩ := hsettled.evaluate_eq hnow
  exact ⟨record, stored, a, notAfter, hrecord, hstored', hfields, hends, hevaluate⟩

end Reconciler

/-! ## A pass in the middle of a second -/

/-- Half a second after the start of March 2025 in universal time. -/
def Moment.marchHalf : Moment := ⟨739310 * 86400000000 + 500000, some 0, by decide⟩

/-- The moment 180 days later. -/
def Moment.augustHalf : Moment := ⟨739490 * 86400000000 + 500000, some 0, by decide⟩

/-- A quarter of a second before that. -/
def Moment.augustQuarter : Moment := ⟨739490 * 86400000000 + 250000, some 0, by decide⟩

/-- A store in which an authority is stored and nothing else. -/
def MemoryStore.withAuthority (ca : SelfSigned) : MemoryStore :=
  empty.setRecord ⟨⟨"default", "ca"⟩, ca.store .empty, 1⟩

/-- The record of the authority in a store with an authority and nothing else. -/
theorem MemoryStore.get?_withAuthority (ca : SelfSigned) :
    (withAuthority ca).records.get? Settings.plain.authorityId =
      some ⟨⟨"default", "ca"⟩, ca.store .empty, 1⟩ :=
  get?_onlyAuthority_self _ _

namespace Reconciler

variable {r : Reconciler} {ca : SelfSigned} {now notAfter : Moment}

/-- The first pass over a store with a new authority creates the record with a pair, if the
authority issues one. -/
private theorem runWith_reconcile_withAuthority
    (hca : runWith Signing.steady (SelfSigned.generate .short) () = (.ok ca, ()))
    (hshort : ca.Short) (hr : ofSettings .plain = .ok r) (hadd : now.add? r.lifetime = .ok notAfter)
    {pair : Bytes × Bytes}
    (hissue : runWith Signing.steady (ca.issue ⟨notAfter, SelfSigned.serviceName⟩ (some now)) () =
      (.ok pair, ())) :
    ∃ store, runWith (World.inMemory Signing.steady)
      (r.reconcile ⟨"default", "tls"⟩ (some now)) (.withAuthority ca, ()) =
        (.ok ⟨⟨"default", "tls"⟩, .issue "missing" r.lifetime, .created, r.lifetime, none⟩,
          (store, ())) := by
  have hgenuine := SelfSigned.genuine_of_generate (Signing.drawsSoundFor_steady _) hca
  have hne : (⟨"default", "ca"⟩ : Identity) ≠ ⟨"default", "tls"⟩ := by decide
  have habsent : (MemoryStore.withAuthority ca).records.get? ⟨"default", "tls"⟩ = none :=
    (MemoryStore.get?_setRecord _ _ _).trans (if_neg hne)
  have hresolve := hshort.runWith_resolveAuthority hgenuine Signing.steady ()
  exact runWith_reconcile_of_absent (w := (.withAuthority ca, ())) hr habsent hresolve hadd hissue

/-- The first pass half a second after the start of March issues a pair if a new authority is
stored. -/
theorem exists_reconcile_half :
    ∃ ca r w', runWith Signing.steady (SelfSigned.generate .short) () = (.ok ca, ()) ∧
      ofSettings .plain = .ok r ∧
      runWith (World.inMemory Signing.steady) (r.reconcile ⟨"default", "tls"⟩ (some .marchHalf))
        (.withAuthority ca, ()) =
          (.ok ⟨⟨"default", "tls"⟩, .issue "missing" r.lifetime, .created, r.lifetime, none⟩, w') ∧
      r.lifetime = ⟨180 * 86400000000⟩ := by
  obtain ⟨ca, hca, hshort⟩ := SelfSigned.exists_generate_short
  have hstart : universalStart .marchHalf = .ok .marchHalf := by decide
  have hstop : universalEnd .marchHalf .augustHalf = .ok .augustHalf := by decide
  obtain ⟨pair, hissue⟩ := hshort.exists_issue_at (by decide) hstart hstop rfl rfl
  obtain ⟨r, hr⟩ : ∃ r, ofSettings .plain = .ok r := ⟨_, rfl⟩
  have hlifetime : r.lifetime = ⟨180 * 86400000000⟩ := by
    rw [ofSettings_eq_ok hr]
    rfl
  have hadd : Moment.marchHalf.add? r.lifetime = .ok .augustHalf := by
    rw [hlifetime]
    decide
  obtain ⟨store, hrun⟩ := runWith_reconcile_withAuthority hca hshort hr hadd hissue
  exact ⟨ca, r, (store, ()), hca, hr, hrun, hlifetime⟩

/-- A pair issued half a second after the start of March for 180 days expires at the last whole
second of these. -/
theorem instant_of_shortfall_half (hlifetime : r.lifetime = ⟨180 * 86400000000⟩)
    (hends : notAfter.instant = Moment.marchHalf.instant + r.lifetime.micros -
      (Decision.issue "missing" r.lifetime).shortfall .marchHalf) :
    notAfter.instant = Moment.august.instant := by
  rw [hends, Decision.shortfall, hlifetime]
  decide

/-- The pair that a pass issues half a second after the start of March is valid until the last whole
second of the 180 days. -/
theorem reconcile_due_half :
    ∃ ca r result w' record a notAfter,
      runWith Signing.steady (SelfSigned.generate .short) () = (.ok ca, ()) ∧
      ofSettings .plain = .ok r ∧
      runWith (World.inMemory Signing.steady) (r.reconcile ⟨"default", "tls"⟩ (some .marchHalf))
        (.withAuthority ca, ()) = (.ok result, w') ∧
      w'.1.records.get? ⟨"default", "tls"⟩ = some record ∧
      notAfter.instant = Moment.august.instant ∧
      ∀ m : Moment, m.isAware → Moment.marchHalf.instant ≤ m.instant →
        m.instant < Moment.august.instant →
          runWith Signing.steady
            (evaluate record (SelfSigned.toAuthority a) (some SelfSigned.serviceName) (some m)) () =
              (.ok (.valid notAfter), ()) := by
  obtain ⟨ca, r, w', hca, hr, hrun, hlifetime⟩ := exists_reconcile_half
  have hs : Settings.ofValues ⟨.empty, .empty, .empty⟩ "server" = .ok .plain := rfl
  obtain ⟨record, stored, a, notAfter, hrecord, _, _, hends, hevaluate⟩ :=
    reconcile_due (Signing.drawsSoundFor_steady _) hca hs hr (servesAlone_inMemory Signing.steady)
      (drawsSoundFor_inMemory (Signing.drawsSoundFor_steady _)) (w := (.withAuthority ca, ()))
      (MemoryStore.get?_withAuthority ca) (SelfSigned.storedIn_store _ _) rfl hrun
  have hlast := instant_of_shortfall_half hlifetime hends
  refine ⟨ca, r, _, w', record, a, notAfter, hca, hr, hrun, hrecord, hlast, fun m hm hle hlt => ?_⟩
  have hvalid := hevaluate m hm hle Signing.steady ()
  rw [if_pos (hlast ▸ hlt)] at hvalid
  exact hvalid

/-- The pair that a pass issues half a second after the start of March has expired a quarter of a
second before the record is due again. -/
theorem requeueAfter_exceeds_validity :
    ∃ ca r result w' record stored a notAfter,
      runWith Signing.steady (SelfSigned.generate .short) () = (.ok ca, ()) ∧
      ofSettings .plain = .ok r ∧
      runWith (World.inMemory Signing.steady) (r.reconcile ⟨"default", "tls"⟩ (some .marchHalf))
        (.withAuthority ca, ()) = (.ok result, w') ∧
      w'.1.records.get? ⟨"default", "tls"⟩ = some record ∧
      w'.1.records.get? ⟨"default", "ca"⟩ = some stored ∧
      SelfSigned.ofFields ⟨"default", "ca"⟩ (Record.data stored) Settings.plain.keyBits = .ok a ∧
      Moment.marchHalf.instant ≤ Moment.augustQuarter.instant ∧
      Moment.augustQuarter.instant < Moment.marchHalf.instant + result.requeueAfter.micros ∧
      runWith Signing.steady
        (evaluate record a.toAuthority (some SelfSigned.serviceName) (some .augustQuarter)) () =
          (.ok (.invalid (.rejected (.expired notAfter))), ()) := by
  obtain ⟨ca, r, w', hca, hr, hrun, hlifetime⟩ := exists_reconcile_half
  have hs : Settings.ofValues ⟨.empty, .empty, .empty⟩ "server" = .ok .plain := rfl
  obtain ⟨a, notAfter, hsettled, hends⟩ := exists_settled_of_reconcile hs hr
    (servesAlone_inMemory Signing.steady) (drawsSoundFor_inMemory (Signing.drawsSoundFor_steady _))
    (SelfSigned.genuine_of_generate (Signing.drawsSoundFor_steady _) hca)
    (u := (.withAuthority ca, ())) (MemoryStore.get?_withAuthority ca)
    (SelfSigned.storedIn_store _ _) rfl hrun
  obtain ⟨stored, hstored, hfields⟩ := hsettled.authority
  obtain ⟨record, hrecord, hevaluate⟩ := hsettled.evaluate_eq rfl
  have hlast := instant_of_shortfall_half hlifetime hends
  refine ⟨ca, r, _, w', record, stored, a, notAfter, hca, hr, hrun, hrecord, hstored, hfields,
    by decide, ?_, ?_⟩
  · dsimp only
    rw [hlifetime]
    decide
  · have hexpired := hevaluate .augustQuarter rfl (by decide) Signing.steady ()
    rw [hlast, if_neg (by decide)] at hexpired
    exact hexpired

end Reconciler

end CertKeeper
