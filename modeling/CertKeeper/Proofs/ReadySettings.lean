import CertKeeper.Proofs.CertificateLength
import CertKeeper.Proofs.CollaboratorFailures
import CertKeeper.Proofs.SettledPass

/-!
# Settings that passes can run with

Settings that are accepted bound neither the length nor the characters of a server's DNS name, and
the number of bits of its keys only from below. Where a key of that size can be made and a
certificate can bear the name, the first pass beside an authority that was made here issues a pair;
otherwise every pass fails and changes nothing (`Reconciler.accepted_settings_run`).
-/

namespace CertKeeper

open CertKeeper.Action Crypto Reconciler Text X509

/-! ## Names that certificates can bear -/

namespace X509

/-- A name that a certificate can bear as its common name and as its DNS name. -/
structure IsServerName (name : String) : Prop where
  length : 1 ≤ (Utf8.encode name).length ∧ (Utf8.encode name).length ≤ 64
  ascii : ∀ c ∈ name.toList, c.toNat < 0x80

instance (name : String) : Decidable (IsServerName name) :=
  decidable_of_iff ((1 ≤ (Utf8.encode name).length ∧ (Utf8.encode name).length ≤ 64) ∧
      name.toList.all fun c => decide (c.toNat < 0x80))
    ⟨fun h => ⟨h.1, by simpa using h.2⟩, fun h => ⟨h.length, by simpa using h.ascii⟩⟩

/-- What is wrong with a name that no certificate can bear. -/
def nameDefect (name : String) : IssueDefect :=
  let octets := (Utf8.encode name).length
  if 1 ≤ octets ∧ octets ≤ 64 then .dnsNameNotAscii else .commonNameLength octets

variable {name : String}

/-- The checks of a name as a common name and as a DNS name refuse it if and only if it is no name
of a server. -/
theorem checkNames_cases (name : String) :
    (IsServerName name ∧ checkCommonName name = .ok () ∧ checkDnsName name = .ok ()) ∨
      (¬ IsServerName name ∧ (checkCommonName name = .error (nameDefect name) ∨
        checkCommonName name = .ok () ∧ checkDnsName name = .error (nameDefect name))) := by
  by_cases hlength : 1 ≤ (Utf8.encode name).length ∧ (Utf8.encode name).length ≤ 64
  · have hcommonName : checkCommonName name = .ok () := if_pos hlength
    by_cases hascii : ∀ c ∈ name.toList, c.toNat < 0x80
    · refine .inl ⟨⟨hlength, hascii⟩, hcommonName, if_pos ?_⟩
      simpa using hascii
    · refine .inr ⟨fun h => hascii h.ascii, .inr ⟨hcommonName, ?_⟩⟩
      rw [nameDefect, if_pos hlength]
      exact if_neg (by simpa using hascii)
  · refine .inr ⟨fun h => hlength h.length, .inl ?_⟩
    rw [nameDefect, if_neg hlength]
    exact if_neg hlength

/-! ## Times that certificates can bear -/

/-- Two moments that can be the start and the end of a certificate: they lie in the years 1950 to
9999 of universal time, one after the other. -/
structure IsPeriod (now notAfter : Moment) : Prop where
  aware : now.isAware
  ends : notAfter.isAware
  earliest : earliestInstant ≤ now.instant
  later : now.instant < notAfter.instant
  latest : notAfter.instant < 3652059 * 86400000000

namespace IsPeriod

variable {now notAfter : Moment}

private theorem le?_eq (h : IsPeriod now notAfter) : notAfter.le? now = .ok false := by
  have hlater := h.later
  rw [Moment.le?_eq_ok h.ends h.aware, decide_eq_false (by omega)]

/-- The ends of a period that can be certified are found in universal time. -/
theorem exists_universal (h : IsPeriod now notAfter) :
    ∃ start stop, universalStart now = .ok start ∧ universalEnd start notAfter = .ok stop ∧
      earliestInstant ≤ start.wall ∧ earliestInstant ≤ stop.wall := by
  obtain ⟨_, _, hearliest, hlater, hlatest⟩ := h
  have hpositive : (0 : Int) ≤ earliestInstant := by decide
  have huniversal (m : Moment) (hlow : earliestInstant ≤ m.instant)
      (hhigh : m.instant < 3652059 * 86400000000) : ∃ m', m.toUniversal? = .ok m' :=
    ⟨_, dif_pos ⟨by omega, hhigh⟩⟩
  obtain ⟨start, hstart⟩ := huniversal now hearliest (by omega)
  obtain ⟨stop, hstop⟩ := huniversal notAfter (by omega) hlatest
  obtain ⟨hstartWall, hstartInstant⟩ := Moment.toUniversal?_eq_ok hstart
  obtain ⟨hstopWall, hstopInstant⟩ := Moment.toUniversal?_eq_ok hstop
  refine ⟨start, stop, ?_, ?_, by omega, by omega⟩
  · simp only [universalStart, hstart, mapError_ok, bind, Except.bind]
    rw [if_neg (by omega)]
    rfl
  · simp only [universalEnd, hstop, mapError_ok, bind, Except.bind]
    rw [if_neg (by omega), if_neg (by omega)]
    rfl

end IsPeriod

end X509

/-- A date exists a number of hours after a moment, on the moment's own clock and in universal
time. -/
structure Moment.HasDateAfter (now : Moment) (hours : Int) : Prop where
  wall : now.wall + hours * 3600000000 < 3652059 * 86400000000
  instant : now.instant + hours * 3600000000 < 3652059 * 86400000000

/-- The moment that many hours later is the end of a certificate that starts now. -/
private theorem Moment.HasDateAfter.exists_add? {now : Moment} {hours : Int}
    (h : now.HasDateAfter hours) (hhours : 0 < hours) (hnow : now.isAware)
    (hearliest : earliestInstant ≤ now.instant) :
    ∃ notAfter, now.add? ⟨hours * Span.microsPerHour⟩ = .ok notAfter ∧ IsPeriod now notAfter := by
  obtain ⟨hwall, hinstant⟩ := h
  have hposition : 0 ≤ now.wall + hours * Span.microsPerHour ∧
      now.wall + hours * Span.microsPerHour < 3652059 * 86400000000 := by
    rw [Span.microsPerHour]
    omega
  obtain ⟨notAfter, hadd⟩ : ∃ notAfter, now.add? ⟨hours * Span.microsPerHour⟩ = .ok notAfter :=
    ⟨_, dif_pos hposition⟩
  have hends := instant_of_add? hadd
  rw [Span.microsPerHour] at hends
  dsimp only at hends
  refine ⟨notAfter, hadd, ?_⟩
  exact
    { aware := hnow
      ends := by
        rw [isAware, (ofWall?_eq_ok hadd).2]
        exact hnow
      earliest := hearliest
      later := by omega
      latest := by omega }

/-! ## What an authority issues -/

/-- Whoever answers the authorities draws serial numbers that certificates can bear. -/
def Signing.DrawsSerials {τ : Type} (g : Handler Signing τ) : Prop :=
  ∀ t : τ, checkSerial (g .drawSerial t).1 = .ok ()

private theorem Signing.drawsSerials_steady : DrawsSerials steady := fun _ => by
  change checkSerial 1 = .ok ()
  decide

namespace SelfSigned

variable {ca : SelfSigned} {o : Options} {request : IssueOptions} {τ : Type}
  {g : Handler Signing τ} {now : Moment}

/-- An authority that was made here issues a pair for every name that a certificate can bear, once a
key is drawn. -/
theorem Generated.exists_issue (h : ca.Generated o) (hkey : ca.key.Sound)
    (horganization : (Utf8.encode o.organization).length ≤ 2 ^ 30) {bits : Int}
    (hserials : Signing.DrawsSerials g) (hperiod : IsPeriod now request.notAfter)
    (hname : IsServerName request.dnsName) {k : Rsa.PrivateKey} (hk : k.Sound) {t t₁ : τ}
    (hdraw : runWith g (Signing.drawKey publicExponent bits) t = (.ok k, t₁)) :
    ∃ pair t', runWith g ({ ca with leafBits := bits }.issue request (some now)) t =
      (.ok pair, t') := by
  obtain ⟨_, hcommonName, hdnsName⟩ | ⟨hnot, _⟩ := checkNames_cases request.dnsName
  case inr => exact absurd hname hnot
  obtain ⟨start, stop, hstart, hstop, hstartEarliest, hstopEarliest⟩ := hperiod.exists_universal
  obtain ⟨c, hsign⟩ := h.exists_sign hkey horganization hcommonName hk (hserials _)
    hstartEarliest hstopEarliest
  exact ⟨_, _, runWith_issue_eq (a := { ca with leafBits := bits }) hperiod.le?_eq hdraw hcommonName
    rfl (hserials _) hstart hstop hdnsName hsign⟩

/-- For any other name an authority says what is wrong with it, once a key is drawn. -/
theorem exists_issue_refused (a : SelfSigned) (hserials : Signing.DrawsSerials g)
    (hperiod : IsPeriod now request.notAfter) (hname : ¬ IsServerName request.dnsName)
    {k : Rsa.PrivateKey} {t t₁ : τ}
    (hdraw : runWith g (Signing.drawKey publicExponent a.leafBits) t = (.ok k, t₁)) :
    ∃ t', runWith g (a.issue request (some now)) t =
      (.error (.issue (nameDefect request.dnsName)), t') := by
  obtain ⟨start, stop, hstart, hstop, _⟩ := hperiod.exists_universal
  obtain ⟨hyes, _⟩ | ⟨_, hdefect⟩ := checkNames_cases request.dnsName
  · exact absurd hyes hname
  unfold issue
  obtain hlength | ⟨hcommonName, hascii⟩ := hdefect
  · refine ⟨t₁, ?_⟩
    refine runWith_bind_eq_error.mpr (.inr ⟨now, t, rfl, ?_⟩)
    refine runWith_ofExcept_bind_eq_error.mpr (.inr ⟨false, hperiod.le?_eq, ?_⟩)
    refine runWith_bind_eq_error.mpr (.inr ⟨k, t₁, hdraw, ?_⟩)
    exact runWith_ofExcept_bind_eq_error.mpr (.inl ⟨_, hlength, rfl, rfl⟩)
  · refine ⟨(g .drawSerial t₁).2, ?_⟩
    refine runWith_bind_eq_error.mpr (.inr ⟨now, t, rfl, ?_⟩)
    refine runWith_ofExcept_bind_eq_error.mpr (.inr ⟨false, hperiod.le?_eq, ?_⟩)
    refine runWith_bind_eq_error.mpr (.inr ⟨k, t₁, hdraw, ?_⟩)
    refine runWith_ofExcept_bind_eq_error.mpr (.inr ⟨(), hcommonName, ?_⟩)
    refine runWith_bind_eq_error.mpr (.inr ⟨_, _, rfl, ?_⟩)
    refine runWith_ofExcept_bind_eq_error.mpr (.inr ⟨(), hserials _, ?_⟩)
    refine runWith_ofExcept_bind_eq_error.mpr (.inr ⟨start, hstart, ?_⟩)
    refine runWith_ofExcept_bind_eq_error.mpr (.inr ⟨stop, hstop, ?_⟩)
    exact runWith_ofExcept_bind_eq_error.mpr (.inl ⟨_, hascii, rfl, rfl⟩)

/-- Where no key is drawn, an authority fails for the reason of that, whatever the name is. -/
theorem runWith_issue_of_draw_error (a : SelfSigned) (hperiod : IsPeriod now request.notAfter)
    {e : Failure} {t t₁ : τ}
    (hdraw : runWith g (Signing.drawKey publicExponent a.leafBits) t = (.error e, t₁)) :
    runWith g (a.issue request (some now)) t = (.error e, t₁) := by
  unfold issue
  refine runWith_bind_eq_error.mpr (.inr ⟨now, t, rfl, ?_⟩)
  refine runWith_ofExcept_bind_eq_error.mpr (.inr ⟨false, hperiod.le?_eq, ?_⟩)
  exact runWith_bind_eq_error.mpr (.inl hdraw)

end SelfSigned

/-! ## Passes -/

/-- Where nothing but an authority is stored, no record has a certificate for a server. -/
theorem MemoryStore.certificate?_onlyAuthority {id id' : Identity} {ca : SelfSigned} :
    (((onlyAuthority id ca).records.get? id').getD (.missing id')).certificate? = none := by
  rw [get?_onlyAuthority]
  split
  · rfl
  · rfl

namespace Reconciler

variable {r : Reconciler} {s : Settings} {τ : Type} {g : Handler Signing τ}
  {w : MemoryStore × τ} {id : Identity} {a : SelfSigned} {now notAfter : Moment}

/-- A pass in memory for a record without a certificate is about to issue a pair. -/
theorem runWith_judge_of_unpaired (hr : ofSettings s = .ok r)
    (hunpaired : ((w.1.records.get? id).getD (.missing id)).certificate? = none)
    (hresolve : runWith (World.inMemory g) (onStore (resolveAuthority s.authorityId s.keyBits)) w =
      (.ok a, w)) (now : Moment) :
    runWith (World.inMemory g) (r.judge id now) w =
      (.ok (((w.1.records.get? id).getD (.missing id)).data, a.toAuthority,
        .issue "missing" r.lifetime), w) := by
  rw [runWith_judge hr (runWith_fetch_inMemory g id w) hresolve,
    SelfSigned.appraise_eq_absent_iff.mpr (.inl hunpaired)]
  rfl

/-- A pass for a record without a pair returns if the authority issues a pair. -/
private theorem exists_reconcile_of_issue (hr : ofSettings s = .ok r)
    (hunpaired : ((w.1.records.get? id).getD (.missing id)).certificate? = none)
    (hresolve : runWith (World.inMemory g) (onStore (resolveAuthority s.authorityId s.keyBits)) w =
      (.ok a, w))
    (hadd : now.add? r.lifetime = .ok notAfter) {pair : Bytes × Bytes} {t : τ}
    (hissue : runWith g (a.issue ⟨notAfter, s.dnsName⟩ (some now)) w.2 = (.ok pair, t)) :
    ∃ result w', runWith (World.inMemory g) (r.reconcile id (some now)) w = (.ok result, w') ∧
      result.decision = .issue "missing" r.lifetime ∧ result.requeueAfter = r.lifetime := by
  have hjudge := runWith_judge_of_unpaired hr hunpaired hresolve now
  have hsigning : runWith (World.inMemory g)
      (onSigning (a.issue ⟨notAfter, s.dnsName⟩ (some now))) w = (.ok pair, (w.1, t)) := by
    rw [runWith_onSigning_inMemory, hissue]
  obtain ⟨o, store, hupsert⟩ :=
    MemoryStore.exists_upsert_eq_ok w.1 id (Writer.setPair pair.1 pair.2)
  have hcarry := runWith_carryOut_of_issue hr hadd hsigning
    (runWith_write_inMemory (w := (w.1, t)) g hupsert)
    ((w.1.records.get? id).getD (.missing id)).data "missing" r.lifetime
  have hsettle : runWith (World.inMemory g) (r.settle id (some now)) w =
      (.ok (.issue "missing" r.lifetime, o), (store, t)) := by
    rw [runWith_settle_of_judge hjudge, runWith_bind, hcarry]
    rfl
  obtain ⟨restart, w', hrun⟩ := r.exists_runWith_reconcile hsettle
  exact ⟨_, w', hrun, rfl, rfl⟩

/-- A pass for a record without a pair fails and leaves the store as it is if the authority issues
none. -/
theorem runWith_reconcile_of_issue_error (hr : ofSettings s = .ok r)
    (hunpaired : ((w.1.records.get? id).getD (.missing id)).certificate? = none)
    (hresolve : runWith (World.inMemory g) (onStore (resolveAuthority s.authorityId s.keyBits)) w =
      (.ok a, w))
    (hadd : now.add? r.lifetime = .ok notAfter) {e : Failure} {t : τ}
    (hissue : runWith g (a.issue ⟨notAfter, s.dnsName⟩ (some now)) w.2 = (.error e, t)) :
    runWith (World.inMemory g) (r.reconcile id (some now)) w =
      (.error (.issuance s.dnsName e), (w.1, t)) := by
  have hname : r.dnsName = s.dnsName := by rw [ofSettings_eq_ok hr]
  have hraised : runWith (World.inMemory g)
      (onSigning (a.toAuthority.issue ⟨notAfter, r.dnsName⟩ (some now))) w =
        (.error e, (w.1, t)) := by
    rw [runWith_onSigning_inMemory, hname]
    exact congrArg (fun x : Except Failure (Bytes × Bytes) × τ => (x.1, w.1, x.2)) hissue
  rw [← hname]
  exact runWith_reconcile_of_carryOut (runWith_judge_of_unpaired hr hunpaired hresolve now)
    ((runWith_issue_eq_error_iff hadd).mpr ⟨_, .issue hraised⟩)

/-- A lifetime of fewer than 24 thousand million hours, which are a thousand million days, is one
that settings can have. -/
private theorem lifetime?_of_lt (hpositive : 0 < s.lifetimeHours)
    (hhours : s.lifetimeHours < 24000000000) :
    s.lifetime? = .ok ⟨s.lifetimeHours * Span.microsPerHour⟩ := by
  have hdays : Int.fdiv (s.lifetimeHours * Span.microsPerHour) Span.microsPerDay =
      s.lifetimeHours * 3600000000 / 86400000000 :=
    Int.fdiv_eq_ediv_of_nonneg _ (by decide)
  rw [Settings.lifetime?, Span.ofHours?, Span.ofMicros?, hdays]
  rw [if_neg (by omega), if_neg (by omega)]

/-- Settings with a positive lifetime of less than 24000000000 hours give a reconciler for that
lifetime. -/
theorem exists_ofSettings (hpositive : 0 < s.lifetimeHours)
    (hhours : s.lifetimeHours < 24000000000) :
    ∃ r, ofSettings s = .ok r ∧ r.lifetime = ⟨s.lifetimeHours * Span.microsPerHour⟩ := by
  have hlifetime := lifetime?_of_lt hpositive hhours
  obtain ⟨r, hr⟩ : ∃ r, ofSettings s = .ok r := by
    rw [ofSettings, hlifetime]
    exact ⟨_, rfl⟩
  exact ⟨r, hr, Except.ok.inj ((lifetime_of_ofSettings hr).symm.trans hlifetime)⟩

/-- Accepted settings whose lifetime is one that spans of time can have give that lifetime and a
reconciler. Beside an authority that was made here, in a store that holds nothing else, and where
there is a date after the lifetime, its pass for the serving record then depends on the key and on
the DNS name alone. If no key of the size is drawn, the pass fails for the reason of that. If one
is drawn and a certificate can bear the name, the pass returns, has decided to issue a pair, and
leaves one that the stored authority finds valid. If none can, the pass fails for what is wrong with
the name. A pass that fails leaves the store as it is, so that a later one finds what it has found:
where no certificate can bear the name all of them fail. -/
theorem accepted_settings_run {o : SelfSigned.Options} {ρ : Type} {g₀ : Handler Signing ρ}
    {u u' : ρ} {ca : SelfSigned} (hg₀ : Signing.DrawsSoundFor g₀ o.keyBits)
    (hca : runWith g₀ (SelfSigned.generate o) u = (.ok ca, u'))
    (horganization : (Utf8.encode o.organization).length ≤ 2 ^ 30) {v : Settings.Values}
    {host : String} (hs : Settings.ofValues v host = .ok s)
    (hhours : s.lifetimeHours < 24000000000) (hg : Signing.DrawsSoundFor g s.keyBits)
    (hserials : Signing.DrawsSerials g) :
    ∃ r, s.lifetime? = .ok r.lifetime ∧ ofSettings s = .ok r ∧
      ∀ now : Moment, now.isAware → earliestInstant ≤ now.instant →
        now.HasDateAfter s.lifetimeHours → ∀ t : τ,
        (∀ e t', runWith g (Signing.drawKey SelfSigned.publicExponent s.keyBits) t =
            (.error e, t') →
          runWith (World.inMemory g) (r.reconcile s.servingId (some now))
            (.onlyAuthority s.authorityId ca, t) =
              (.error (.issuance s.dnsName e), (.onlyAuthority s.authorityId ca, t'))) ∧
        ∀ k t₁, runWith g (Signing.drawKey SelfSigned.publicExponent s.keyBits) t = (.ok k, t₁) →
          (IsServerName s.dnsName → ∃ result w' a last,
            runWith (World.inMemory g) (r.reconcile s.servingId (some now))
              (.onlyAuthority s.authorityId ca, t) = (.ok result, w') ∧
            result.decision = .issue "missing" r.lifetime ∧ result.requeueAfter = r.lifetime ∧
            Settled s s.servingId a now last w'.1) ∧
          (¬ IsServerName s.dnsName → ∃ t',
            runWith (World.inMemory g) (r.reconcile s.servingId (some now))
              (.onlyAuthority s.authorityId ca, t) =
                (.error (.issuance s.dnsName (.issue (nameDefect s.dnsName))),
                  (.onlyAuthority s.authorityId ca, t'))) := by
  have hpositive := (Settings.bounds_of_ofValues hs).1
  obtain ⟨r, hr, hspan⟩ := exists_ofSettings hpositive hhours
  obtain ⟨hmade, _⟩ := SelfSigned.generated_of_generate hca
  have hkey := SelfSigned.sound_of_generate hg₀ hca
  refine ⟨r, lifetime_of_ofSettings hr, hr, fun now hnow hearliest hdate t => ?_⟩
  obtain ⟨notAfter, hadd, hperiod⟩ := hdate.exists_add? hpositive hnow hearliest
  rw [← hspan] at hadd
  let w : MemoryStore × τ := (.onlyAuthority s.authorityId ca, t)
  have hauthority : w.1.records.get? s.authorityId =
      some ⟨s.authorityId, ca.store .empty, 1⟩ := MemoryStore.get?_onlyAuthority_self _ _
  have hresolve := (hmade.genuine hkey).runWith_resolveAuthority (hmade.organization? hkey) g
    s.authorityId s.keyBits t
  let a : SelfSigned := { ca with leafBits := s.keyBits }
  let request : IssueOptions := ⟨notAfter, s.dnsName⟩
  have hfails {e : Failure} {t' : τ}
      (hissue : runWith g (a.issue request (some now)) t = (.error e, t')) :
      runWith (World.inMemory g) (r.reconcile s.servingId (some now)) w =
        (.error (.issuance s.dnsName e), (w.1, t')) :=
    runWith_reconcile_of_issue_error (w := w) hr MemoryStore.certificate?_onlyAuthority hresolve
      hadd hissue
  refine ⟨fun e t' hdraw => ?_, fun k t₁ hdraw => ⟨fun hname => ?_, fun hname => ?_⟩⟩
  · exact hfails (SelfSigned.runWith_issue_of_draw_error a hperiod hdraw)
  · obtain ⟨pair, t', hissue⟩ : ∃ pair t', runWith g (a.issue request (some now)) t =
        (.ok pair, t') :=
      hmade.exists_issue hkey horganization hserials hperiod hname (hg.sound hdraw) hdraw
    obtain ⟨result, w', hrun, hdecision, hrequeue⟩ := exists_reconcile_of_issue (w := w) hr
      MemoryStore.certificate?_onlyAuthority hresolve hadd hissue
    obtain ⟨a, last, hsettled⟩ := settled_of_reconcile hs hr hg (hmade.genuine hkey) hauthority
      (SelfSigned.storedIn_store _ _) hnow hrun
    exact ⟨result, w', a, last, hrun, hdecision, hrequeue, hsettled⟩
  · obtain ⟨t', hissue⟩ : ∃ t', runWith g (a.issue request (some now)) t =
        (.error (.issue (nameDefect s.dnsName)), t') :=
      SelfSigned.exists_issue_refused a hserials hperiod hname hdraw
    exact ⟨t', hfails hissue⟩

/-- Settings that say nothing have their pass issue a pair for 180 days, beside a new authority in
March 2025. -/
theorem accepted_settings_run_plain :
    ∃ ca r, runWith Signing.steady (SelfSigned.generate .short) () = (.ok ca, ()) ∧
      Settings.ofValues ⟨.empty, .empty, .empty⟩ "server" = .ok .plain ∧
      Settings.plain.lifetime? = .ok r.lifetime ∧ ofSettings .plain = .ok r ∧
      ∃ result w' a last,
        runWith (World.inMemory Signing.steady)
          (r.reconcile Settings.plain.servingId (some .march))
          (.onlyAuthority Settings.plain.authorityId ca, ()) = (.ok result, w') ∧
        result.decision = .issue "missing" r.lifetime ∧ result.requeueAfter = r.lifetime ∧
        Settled .plain Settings.plain.servingId a .march last w'.1 := by
  obtain ⟨ca, hca, _⟩ := SelfSigned.exists_generate_short
  have hs : Settings.ofValues ⟨.empty, .empty, .empty⟩ "server" = .ok .plain := rfl
  have hdate : Moment.march.HasDateAfter Settings.plain.lifetimeHours := ⟨by decide, by decide⟩
  have hname : IsServerName Settings.plain.dnsName := by decide
  obtain ⟨r, hlifetime, hr, hrun⟩ := accepted_settings_run (Signing.drawsSoundFor_steady _) hca
    (by decide) hs (by decide) (Signing.drawsSoundFor_steady _) Signing.drawsSerials_steady
  obtain ⟨_, hpass⟩ := hrun .march rfl (by decide) hdate ()
  exact ⟨ca, r, hca, hs, hlifetime, hr,
    (hpass .large () (Signing.runWith_drawKey_steady 2048)).1 hname⟩

end Reconciler

/-! ## Settings with which every pass fails -/

/-- Settings whose service has a name of sixty letters. -/
def Settings.Values.lengthy : Settings.Values :=
  ⟨.ofList [("service_name", .text (String.ofList (List.replicate 60 'a')))], .empty, .empty⟩

/-- Settings whose keys are to have 2^32 bits. -/
def Settings.Values.excessive : Settings.Values :=
  ⟨.ofList [("key_size", .number (.integer 4294967296))], .empty, .empty⟩

namespace Reconciler

/-- Beside a new authority in March 2025 a pass fails, and leaves the store as it is, if the
authority issues no pair for 180 days. -/
theorem runWith_reconcile_of_short {r : Reconciler} {s : Settings} {ca : SelfSigned}
    (hca : runWith Signing.steady (SelfSigned.generate .short) () = (.ok ca, ()))
    (hr : ofSettings s = .ok r) (hadd : Moment.march.add? r.lifetime = .ok .august) {e : Failure}
    (hissue : runWith Signing.steady ({ ca with leafBits := s.keyBits }.issue
      ⟨.august, s.dnsName⟩ (some .march)) () = (.error e, ())) :
    runWith (World.inMemory Signing.steady) (r.reconcile s.servingId (some .march))
      (.onlyAuthority s.authorityId ca, ()) =
        (.error (.issuance s.dnsName e), (.onlyAuthority s.authorityId ca, ())) := by
  obtain ⟨hmade, _⟩ := SelfSigned.generated_of_generate hca
  have hkey := SelfSigned.sound_of_generate (Signing.drawsSoundFor_steady _) hca
  have hresolve := (hmade.genuine hkey).runWith_resolveAuthority (hmade.organization? hkey)
    Signing.steady s.authorityId s.keyBits ()
  exact runWith_reconcile_of_issue_error (w := (.onlyAuthority s.authorityId ca, ())) hr
    MemoryStore.certificate?_onlyAuthority hresolve hadd hissue

/-- Settings with a name that no certificate can bear, and settings with a number of bits for which
no key can be made, are accepted and give a lifetime and a reconciler, yet its pass fails beside a
new authority. It leaves the store as it is, so that the same pass fails again. -/
theorem exists_accepted_reconcile_fails :
    ∃ ca, runWith Signing.steady (SelfSigned.generate .short) () = (.ok ca, ()) ∧
      (∃ s r, Settings.ofValues .lengthy "server" = .ok s ∧ s.lifetime? = .ok r.lifetime ∧
        ofSettings s = .ok r ∧
        runWith (World.inMemory Signing.steady) (r.reconcile s.servingId (some .march))
          (.onlyAuthority s.authorityId ca, ()) =
            (.error (.issuance s.dnsName (.issue (.commonNameLength 72))),
              (.onlyAuthority s.authorityId ca, ()))) ∧
      ∃ s r, Settings.ofValues .excessive "server" = .ok s ∧ s.lifetime? = .ok r.lifetime ∧
        ofSettings s = .ok r ∧
        runWith (World.inMemory Signing.steady) (r.reconcile s.servingId (some .march))
          (.onlyAuthority s.authorityId ca, ()) =
            (.error (.issuance s.dnsName (.issue (.noKey 4294967296))),
              (.onlyAuthority s.authorityId ca, ())) := by
  obtain ⟨ca, hca, _⟩ := SelfSigned.exists_generate_short
  have hperiod : IsPeriod .march .august := ⟨rfl, rfl, by decide, by decide, by decide⟩
  refine ⟨ca, hca, ?lengthy, ?excessive⟩
  case lengthy =>
    let s : Settings :=
      ⟨"default", "server", "tls", "ca", String.ofList (List.replicate 60 'a'), 4320, 2048⟩
    obtain ⟨r, hr, hlifetime⟩ := exists_ofSettings (s := s) (by decide) (by decide)
    have hdefect : nameDefect s.dnsName = .commonNameLength 72 := by decide
    have hname : ¬ IsServerName s.dnsName := by decide
    let a : SelfSigned := { ca with leafBits := s.keyBits }
    let request : IssueOptions := ⟨.august, s.dnsName⟩
    have hdraw : runWith Signing.steady (Signing.drawKey SelfSigned.publicExponent a.leafBits) () =
        (.ok .large, ()) := Signing.runWith_drawKey_steady 2048
    obtain ⟨_, hissue⟩ : ∃ t', runWith Signing.steady (a.issue request (some .march)) () =
        (.error (.issue (nameDefect s.dnsName)), t') :=
      SelfSigned.exists_issue_refused a Signing.drawsSerials_steady hperiod hname hdraw
    rw [hdefect] at hissue
    have hadd : Moment.march.add? r.lifetime = .ok .august := by
      rw [hlifetime]
      decide
    exact ⟨s, r, rfl, lifetime_of_ofSettings hr, hr, runWith_reconcile_of_short hca hr hadd hissue⟩
  case excessive =>
    let s : Settings := { Settings.plain with keyBits := 4294967296 }
    obtain ⟨r, hr, hlifetime⟩ := exists_ofSettings (s := s) (by decide) (by decide)
    have hissue : runWith Signing.steady ({ ca with leafBits := s.keyBits }.issue
        ⟨.august, s.dnsName⟩ (some .march)) () = (.error (.issue (.noKey 4294967296)), ()) :=
      SelfSigned.runWith_issue_of_draw_error _ hperiod (Signing.runWith_drawKey_steady 4294967296)
    have hadd : Moment.march.add? r.lifetime = .ok .august := by
      rw [hlifetime]
      decide
    exact ⟨s, r, rfl, lifetime_of_ofSettings hr, hr, runWith_reconcile_of_short hca hr hadd hissue⟩

end Reconciler

end CertKeeper
