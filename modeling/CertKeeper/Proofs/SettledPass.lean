import CertKeeper.Proofs.AuthorityFields
import CertKeeper.Proofs.IssuedPair
import CertKeeper.Proofs.PassFrame
import CertKeeper.Proofs.StoredAuthority

/-!
# Passes that settle a record

A pass over a store in memory that returns leaves a pair that the stored authority accepts, and
until that pair expires further passes keep it and change nothing
(`Reconciler.reconcile_settles`). The step is `Reconciler.Settled.runWith_reconcile`: where the
record holds such a pair, a pass leaves the store as it is.
-/

namespace CertKeeper

open CertKeeper.Action Reconciler X509

/-- What a new certificate lacks of the lifetime that is asked for: the fraction of a second of the
moment of issue, since certificates end with whole seconds. A kept one lacks nothing. -/
def Decision.shortfall (now : Moment) : Decision → Int
  | .issue _ _ | .invalidate _ _ => now.instant % 1000000
  | .keep _ => 0

/-- The settings of a server where nothing is said. -/
def Settings.plain : Settings := ⟨"default", "server", "tls", "ca", "webhook-service", 4320, 2048⟩

/-! ## A store that holds an authority -/

/-- A store that holds an authority and nothing else. -/
def MemoryStore.onlyAuthority (id : Identity) (ca : SelfSigned) : MemoryStore :=
  empty.setRecord ⟨id, ca.store .empty, 1⟩

/-- A store with an authority and nothing else has the authority's record and no other. -/
theorem MemoryStore.get?_onlyAuthority (id id' : Identity) (ca : SelfSigned) :
    (onlyAuthority id ca).records.get? id' =
      if id = id' then some ⟨id, ca.store .empty, 1⟩ else none :=
  get?_setRecord _ _ _

/-- A store with an authority and nothing else has the authority's record. -/
theorem MemoryStore.get?_onlyAuthority_self (id : Identity) (ca : SelfSigned) :
    (onlyAuthority id ca).records.get? id = some ⟨id, ca.store .empty, 1⟩ :=
  (get?_onlyAuthority _ _ _).trans (if_pos rfl)

namespace SelfSigned

variable {ca : SelfSigned} {τ : Type}

/-- The texts of a genuine authority whose certificate names its organization are read as that
authority. -/
theorem Genuine.reloads (h : ca.Genuine)
    (horganization : ca.certificate.statement.subject.organization? = .ok (some ca.organization)) :
    ca.Reloads :=
  ofTexts_eq_ok_iff.mpr ⟨(Certificate.ofText_text _).trans h.read, PrivateKey.ofText_writeRsa h.key,
    rfl, _, horganization, rfl⟩

/-- A genuine authority is found in the fields in which it was stored, for keys of the number of
bits that is asked for. -/
theorem Genuine.ofFields_store (h : ca.Genuine)
    (horganization : ca.certificate.statement.subject.organization? = .ok (some ca.organization))
    (id : Identity) (data : Fields) (bits : Int) :
    ofFields id (ca.store data) bits = .ok { ca with leafBits := bits } :=
  (h.reloads horganization).ofFields (storedIn_store _ _)

/-- A pass finds it in a store that holds nothing else. -/
theorem Genuine.runWith_resolveAuthority (h : ca.Genuine)
    (horganization : ca.certificate.statement.subject.organization? = .ok (some ca.organization))
    (g : Handler Signing τ) (id : Identity) (bits : Int) (t : τ) :
    runWith (World.inMemory g) (onStore (resolveAuthority id bits)) (.onlyAuthority id ca, t) =
      (.ok { ca with leafBits := bits }, (.onlyAuthority id ca, t)) := by
  rw [runWith_resolveAuthority_inMemory (w := (.onlyAuthority id ca, t)) g
    (MemoryStore.get?_onlyAuthority_self id ca)]
  rw [h.ofFields_store horganization]

namespace Short

/-- The certificate of the new authority names its organization. -/
theorem organization? (hshort : ca.Short) :
    ca.certificate.statement.subject.organization? = .ok (some ca.organization) := by
  rw [hshort.statement, hshort.organization]
  exact Name.organization?_ofCommonName _ _

/-- The new authority is read from the fields that it is stored in. -/
theorem ofFields_store (hshort : ca.Short) (hgenuine : ca.Genuine) (id : Identity) :
    ofFields id (ca.store .empty) defaultLeafBits = .ok ca := by
  rw [hgenuine.ofFields_store hshort.organization?, ← hshort.leafBits]

/-- A pass of settings that say nothing finds it. -/
theorem runWith_resolveAuthority (hshort : ca.Short) (hgenuine : ca.Genuine)
    (g : Handler Signing τ) (t : τ) :
    runWith (World.inMemory g)
      (onStore (resolveAuthority Settings.plain.authorityId Settings.plain.keyBits))
        (.onlyAuthority Settings.plain.authorityId ca, t) =
          (.ok ca, (.onlyAuthority Settings.plain.authorityId ca, t)) := by
  have hbits : Settings.plain.keyBits = ca.leafBits := hshort.leafBits.symm
  rw [hgenuine.runWith_resolveAuthority hshort.organization?, hbits]

end Short

end SelfSigned

namespace Reconciler

variable {r : Reconciler} {s : Settings} {τ : Type} {g : Handler Signing τ}
  {w w' : MemoryStore × τ} {id : Identity} {ca a : SelfSigned} {now notAfter : Moment}

/-- A record holds a pair that the stored authority accepts at a moment, until another one. -/
structure Settled (s : Settings) (id : Identity) (a : SelfSigned) (now notAfter : Moment)
    (store : MemoryStore) : Prop where
  authority : ∃ record, store.records.get? s.authorityId = some record ∧
    SelfSigned.ofFields s.authorityId record.data s.keyBits = .ok a
  pair : ∃ record, store.records.get? id = some record ∧
    a.appraise record (some s.dnsName) now = .ok (.valid notAfter)

namespace Settled

/-- A settled record stays settled until the pair expires. -/
theorem later {store : MemoryStore} (h : Settled s id a now notAfter store) (hnow : now.isAware)
    {m : Moment} (hm : m.isAware) (hle : now.instant ≤ m.instant)
    (hlt : m.instant < notAfter.instant) : Settled s id a m notAfter store := by
  obtain ⟨hauthority, record, hrecord, hvalid⟩ := h
  exact ⟨hauthority, record, hrecord, SelfSigned.appraise_later hnow hm hle hlt hvalid⟩

/-- The authority is found where a record is settled. -/
theorem runWith_resolve (h : Settled s id a now notAfter w.1) :
    runWith (World.inMemory g) (onStore (resolveAuthority s.authorityId s.keyBits)) w =
      (.ok a, w) := by
  obtain ⟨⟨record, hrecord, hfields⟩, _⟩ := h
  rw [runWith_resolveAuthority_inMemory g hrecord, hfields]

/-- A pass for a settled record keeps the pair and leaves the store as it is. -/
theorem runWith_reconcile (h : Settled s id a now notAfter w.1) (hr : ofSettings s = .ok r)
    (hnow : now.isAware) :
    runWith (World.inMemory g) (r.reconcile id (some now)) w =
      (.ok ⟨id, .keep ⟨notAfter.instant - now.instant⟩, .unchanged,
        ⟨notAfter.instant - now.instant⟩, none⟩, w) := by
  obtain ⟨record, hrecord, hvalid⟩ := h.pair
  obtain ⟨c, ⟨certificate, key, hcertificate, hkey, _⟩, _, hends, _⟩ :=
    (SelfSigned.appraise_eq_valid_iff hnow).mp hvalid
  have hfetch : runWith (World.inMemory g) (onStore (fetch id)) w = (.ok record, w) := by
    rw [runWith_fetch_inMemory, hrecord]
    rfl
  have hdecide : (Evaluation.valid notAfter).decide r.lifetime now =
      .ok (.keep ⟨notAfter.instant - now.instant⟩) :=
    Evaluation.decide_valid _ (Certificate.isAware_notAfter hends.ends) hnow
  have hjudge : runWith (World.inMemory g) (r.judge id now) w =
      (.ok (record.data, a.toAuthority, .keep ⟨notAfter.instant - now.instant⟩), w) := by
    rw [runWith_judge hr hfetch h.runWith_resolve, hvalid]
    simp only [bind, Except.bind, hdecide]
    rfl
  have hcertificate' := (Fields.filled?_eq_some_iff.mp hcertificate).1
  have hkey' := (Fields.filled?_eq_some_iff.mp hkey).1
  have hwrite := runWith_write_inMemory g
    (MemoryStore.upsert_setPair_same hrecord hcertificate' hkey')
  have hcarry : runWith (World.inMemory g)
      (r.carryOut id record.data a.toAuthority now (.keep ⟨notAfter.instant - now.instant⟩)) w =
        (.ok .unchanged, w) := by
    rw [carryOut, hcertificate', hkey']
    exact hwrite
  rw [runWith_reconcile_eq hjudge hcarry, conclude, if_neg (by simp)]
  rfl

/-- Several passes in a row before a settled pair expires all keep it, leave the store as it is and
ask to be run again when it expires. -/
private theorem runWith_mapM_reconcile (h : Settled s id a now notAfter w.1)
    (hr : ofSettings s = .ok r)
    (hnow : now.isAware) {moments : List Moment}
    (hmoments : ∀ m ∈ moments, m.isAware ∧ now.instant ≤ m.instant ∧
      m.instant < notAfter.instant) :
    runWith (World.inMemory g) (moments.mapM fun m => r.reconcile id (some m)) w =
      (.ok (moments.map fun m => ⟨id, .keep ⟨notAfter.instant - m.instant⟩, .unchanged,
        ⟨notAfter.instant - m.instant⟩, none⟩), w) := by
  induction moments with
  | nil => rfl
  | cons m moments ih =>
    obtain ⟨hm, hle, hlt⟩ := hmoments m List.mem_cons_self
    have hfirst := (h.later hnow hm hle hlt).runWith_reconcile (g := g) hr hm
    have hrest := ih fun m' hm' => hmoments m' (List.mem_cons_of_mem m hm')
    rw [List.mapM_cons, runWith_bind, hfirst]
    dsimp only
    rw [runWith_bind, hrest]
    rfl

/-- Instances have no part in it. -/
private theorem of_records {store store' : MemoryStore} (h : Settled s id a now notAfter store)
    (hrecords : store'.records = store.records) : Settled s id a now notAfter store' := by
  obtain ⟨hauthority, hpair⟩ := h
  constructor
  · rw [hrecords]
    exact hauthority
  · rw [hrecords]
    exact hpair

end Settled

/-! ## The first pass -/

/-- The authority found where one that was made here is stored was made here, and it draws keys as
long as was asked for. -/
private theorem genuine_of_ofFields {data : Fields} {bits : Int} (hca : ca.Genuine)
    (hstored : ca.StoredIn data) (h : SelfSigned.ofFields id data bits = .ok a) :
    a.Genuine ∧ a.leafBits = bits := by
  obtain ⟨hread, hkey, hbits, _⟩ := (SelfSigned.ofFields_eq_ok_iff hstored hca.key).mp h
  have hcertificate : a.certificate = ca.certificate :=
    Except.ok.inj (hread.symm.trans hca.read)
  refine ⟨?_, hbits⟩
  constructor
  · rw [hkey]
    exact hca.key
  · rw [hcertificate, hkey]
    exact hca.certified
  · rw [hcertificate]
    exact hca.read
  · rw [hcertificate]
    exact hca.subject

section FirstPass

variable {σ : Type} {h : Handler World σ} {view : σ → MemoryStore} {u u' : σ}
  {v : Settings.Values} {host : String}

/-- The pair that a genuine authority issues for accepted settings is valid in every record that
holds it, for the lifetime of the settings but for the fraction of a second of the moment of
issue. -/
theorem exists_valid_of_issuesFrom (hs : Settings.ofValues v host = .ok s)
    (hr : ofSettings s = .ok r) (hg : Signing.DrawsSoundFor (World.signingOf h) s.keyBits)
    (ha : a.Genuine) (hbits : a.leafBits = s.keyBits) (hnow : now.isAware) {pair : Bytes × Bytes}
    (hissues : r.IssuesFrom h a.toAuthority now u pair) :
    ∃ notAfter : Moment,
      notAfter.instant = now.instant + r.lifetime.micros - now.instant % 1000000 ∧
      ∀ record : Record, record.data.get? certificateField = some pair.1 →
        record.data.get? keyField = some pair.2 →
        a.appraise record (some s.dnsName) now = .ok (.valid notAfter) := by
  obtain ⟨requested, u₁, hadd, hissue⟩ := hissues
  have hlifetime : r.lifetime.micros = s.lifetimeHours * 3600000000 := by
    rw [ofSettings_eq_ok hr]
    rfl
  have hrequested : requested.instant = now.instant + s.lifetimeHours * 3600000000 := by
    rw [Moment.instant_of_add? hadd, hlifetime]
  have hlate : now.instant + 1000000 ≤ requested.instant := by
    have hpositive := (Settings.bounds_of_ofValues hs).1
    omega
  rw [runWith_onSigning] at hissue
  obtain ⟨c, htext, hown, hissued, ⟨notAfter, hvalid, hlast⟩, hnames⟩ :=
    SelfSigned.holds_of_issue ha (hbits ▸ hg) hlate hissue
  refine ⟨notAfter, by omega, fun record hcertificate hkey => ?_⟩
  refine (SelfSigned.appraise_eq_valid_iff hnow).mpr
    ⟨c, Record.holds_of_get? hcertificate hkey htext hown, hissued, hvalid, ?_⟩
  rintro name hname
  cases hname
  refine ⟨_, hnames, ?_⟩
  rw [ofSettings_eq_ok hr]
  exact List.mem_singleton_self _

/-- The pair that a pass stores is valid in every record that holds it, for the time after which the
record is due again but for what a new pair lacks of it. -/
private theorem exists_valid_of_storesInPass (hs : Settings.ofValues v host = .ok s)
    (hr : ofSettings s = .ok r) (halone : ServesAlone h view)
    (hg : Signing.DrawsSoundFor (World.signingOf h) s.keyBits) (hca : ca.Genuine)
    {authority : Record}
    (hauthority : (view u).records.get? s.authorityId = some authority)
    (hstored : ca.StoredIn authority.data) (hnow : now.isAware) {decision : Decision}
    {pair : Bytes × Bytes} (hstores : r.StoresInPass h id (some now) u decision pair) :
    ∃ a notAfter, SelfSigned.ofFields s.authorityId authority.data s.keyBits = .ok a ∧
      notAfter.instant =
        now.instant + decision.requeueAfter.micros - decision.shortfall now ∧
      ∀ record : Record, record.data.get? certificateField = some pair.1 →
        record.data.get? keyField = some pair.2 →
        a.appraise record (some s.dnsName) now = .ok (.valid notAfter) := by
  obtain ⟨m, u₀, data, resolved, u₁, hclock, hjudge, hstores⟩ := hstores
  cases hclock
  obtain ⟨fetched, u₂, a, evaluation, rfl, rfl, hfetch, hresolve, happraise, hdecide⟩ :=
    exists_appraise_of_judge hr hjudge
  have hsame := Serves.view_of_reads halone (storeOnly_onStore (asks_fetch id)) u
  rw [hfetch] at hsame
  rw [← hsame] at hauthority
  have hfields := ofFields_of_resolveAuthority halone hauthority hresolve
  obtain ⟨ha, hbits⟩ := genuine_of_ofFields hca hstored hfields
  cases decision with
  | issue reason lifetime =>
    obtain hlifetime | ⟨_, ⟨⟩⟩ := requeueAfter_of_decide hdecide
    obtain ⟨notAfter, hends, hvalid⟩ :=
      exists_valid_of_issuesFrom hs hr hg ha hbits hnow hstores
    exact ⟨a, notAfter, hfields, hlifetime ▸ hends, hvalid⟩
  | invalidate reason lifetime =>
    obtain hlifetime | ⟨_, ⟨⟩⟩ := requeueAfter_of_decide hdecide
    obtain ⟨o, u₂, _, hissues⟩ := hstores
    obtain ⟨notAfter, hends, hvalid⟩ :=
      exists_valid_of_issuesFrom hs hr hg ha hbits hnow hissues
    exact ⟨a, notAfter, hfields, hlifetime ▸ hends, hvalid⟩
  | keep remaining =>
    obtain ⟨notAfter, rfl, hremaining⟩ := decide_eq_keep hdecide
    obtain ⟨c, ⟨certificate, key, hcertificate, hkey, _⟩, _, hvalid, _⟩ :=
      (SelfSigned.appraise_eq_valid_iff hnow).mp happraise
    rw [Moment.sub?_eq_ok (Certificate.isAware_notAfter hvalid.ends) hnow] at hremaining
    cases hremaining
    refine ⟨a, notAfter, hfields, ?_, fun record hcertificate' hkey' => ?_⟩
    · dsimp only [Decision.requeueAfter, Decision.shortfall]
      omega
    obtain ⟨hget, hne⟩ := Fields.filled?_eq_some_iff.mp hcertificate
    obtain ⟨hget', hne'⟩ := Fields.filled?_eq_some_iff.mp hkey
    cases hstores
    rw [hget] at hcertificate'
    rw [hget'] at hkey'
    rw [SelfSigned.appraise_congr, happraise]
    · exact (Fields.filled?_eq_some_iff.mpr ⟨hcertificate', hne⟩).trans hcertificate.symm
    · exact (Fields.filled?_eq_some_iff.mpr ⟨hkey', hne'⟩).trans hkey.symm

/-- Dealing with a record settles it for that time. -/
private theorem settled_of_settle (hs : Settings.ofValues v host = .ok s)
    (hr : ofSettings s = .ok r)
    (halone : ServesAlone h view) (hg : Signing.DrawsSoundFor (World.signingOf h) s.keyBits)
    (hca : ca.Genuine) {authority : Record}
    (hauthority : (view u).records.get? s.authorityId = some authority)
    (hstored : ca.StoredIn authority.data) (hnow : now.isAware) {decision : Decision}
    {outcome : Outcome}
    (hrun : runWith h (r.settle id (some now)) u = (.ok (decision, outcome), u')) :
    ∃ a notAfter, Settled s id a now notAfter (view u') ∧
      notAfter.instant =
        now.instant + decision.requeueAfter.micros - decision.shortfall now := by
  have hframe := Serves.agreeButPair_settle halone (readsOnly_ofSettings r hr) id (some now) u
  rw [hrun] at hframe
  obtain ⟨_, he, _⟩ | ⟨_, _, pair, he, hstores, hleaves⟩ :=
    (Serves.keepsPair halone id).runWith_settle (readsOnly_ofSettings r hr) hrun
  · cases he
  cases he
  obtain ⟨a, notAfter, hfields, hends, hvalid⟩ :=
    exists_valid_of_storesInPass hs hr halone hg hca hauthority hstored hnow hstores
  have hleft := hleaves.left
  have hthere : ((view u').managed? id).isSome := by
    rw [hleft]
    rfl
  refine ⟨a, notAfter, ⟨?_, ?_⟩, hends⟩
  · obtain ⟨authority', hauthority', hsame⟩ := hframe.exists_record hthere hauthority
    have hcertificateField : ¬ Writer.IsManaged authorityCertificateField := by
      unfold Writer.IsManaged
      decide
    have hkeyField : ¬ Writer.IsManaged authorityKeyField := by
      unfold Writer.IsManaged
      decide
    have hstored' : ca.StoredIn authority'.data :=
      ⟨(hsame _ hcertificateField).trans hstored.certificate,
        (hsame _ hkeyField).trans hstored.key⟩
    exact ⟨authority', hauthority', (SelfSigned.ofFields_congr hstored hstored').trans hfields⟩
  · rw [MemoryStore.managed?, Option.map_eq_some_iff] at hleft
    obtain ⟨record, hrecord, hpair⟩ := hleft
    rw [Prod.mk.injEq] at hpair
    exact ⟨record, hrecord, hvalid record hpair.1 hpair.2⟩

/-- A pass that returns leaves a settled pair, whose end is the time the pass asks to be run again,
short of the fraction of a second that a new certificate cannot state. -/
theorem exists_settled_of_reconcile (hs : Settings.ofValues v host = .ok s)
    (hr : ofSettings s = .ok r) (halone : ServesAlone h view)
    (hg : Signing.DrawsSoundFor (World.signingOf h) s.keyBits) (hca : ca.Genuine)
    {authority : Record}
    (hauthority : (view u).records.get? s.authorityId = some authority)
    (hstored : ca.StoredIn authority.data) (hnow : now.isAware) {result : PassResult}
    (hrun : runWith h (r.reconcile id (some now)) u = (.ok result, u')) :
    ∃ a notAfter, Settled s id a now notAfter (view u') ∧
      notAfter.instant =
        now.instant + result.requeueAfter.micros - result.decision.shortfall now := by
  obtain ⟨decision, outcome, restart, u₁, rfl, hsettle, _, _⟩ := r.exists_settle_of_reconcile hrun
  obtain ⟨a, notAfter, hsettled, hends⟩ :=
    settled_of_settle hs hr halone hg hca hauthority hstored hnow hsettle
  exact ⟨a, notAfter, hsettled.of_records (Serves.records_of_reconcile halone hsettle hrun), hends⟩

end FirstPass

/-- Beside a store in memory keys are drawn as they are without it. -/
theorem drawsSoundFor_inMemory {bits : Int} (hg : Signing.DrawsSoundFor g bits) :
    Signing.DrawsSoundFor (World.signingOf (World.inMemory g)) bits := by
  intro w w' k hrun
  rw [← runWith_onSigning, runWith_onSigning_inMemory] at hrun
  rw [Prod.mk.injEq] at hrun
  exact hg w.2 _ k (Prod.ext hrun.1 rfl)

/-- A pass of accepted settings over a store in memory that returns settles the record until some
moment. -/
theorem settled_of_reconcile {v : Settings.Values} {host : String}
    (hs : Settings.ofValues v host = .ok s) (hr : ofSettings s = .ok r)
    (hg : Signing.DrawsSoundFor g s.keyBits) (hca : ca.Genuine) {authority : Record}
    (hauthority : w.1.records.get? s.authorityId = some authority)
    (hstored : ca.StoredIn authority.data) (hnow : now.isAware) {result : PassResult}
    (hrun : runWith (World.inMemory g) (r.reconcile id (some now)) w = (.ok result, w')) :
    ∃ a notAfter, Settled s id a now notAfter w'.1 := by
  obtain ⟨a, notAfter, hsettled, _⟩ := exists_settled_of_reconcile hs hr (servesAlone_inMemory g)
    (drawsSoundFor_inMemory hg) hca hauthority hstored hnow hrun
  exact ⟨a, notAfter, hsettled⟩

/-- In memory the pass creates a record that does not exist, if the authority issues a pair. -/
theorem runWith_reconcile_of_absent (hr : ofSettings s = .ok r)
    (habsent : w.1.records.get? id = none)
    (hresolve : runWith (World.inMemory g) (onStore (resolveAuthority s.authorityId s.keyBits)) w =
      (.ok a, w))
    (hadd : now.add? r.lifetime = .ok notAfter) {pair : Bytes × Bytes} {t : τ}
    (hissue : runWith g (a.issue ⟨notAfter, s.dnsName⟩ (some now)) w.2 = (.ok pair, t)) :
    ∃ store, runWith (World.inMemory g) (r.reconcile id (some now)) w =
      (.ok ⟨id, .issue "missing" r.lifetime, .created, r.lifetime, none⟩, (store, t)) := by
  have hfetch : runWith (World.inMemory g) (onStore (fetch id)) w = (.ok (.missing id), w) := by
    rw [runWith_fetch_inMemory, habsent]
    rfl
  have hsigning : runWith (World.inMemory g)
      (onSigning (a.issue ⟨notAfter, s.dnsName⟩ (some now))) w = (.ok pair, (w.1, t)) := by
    rw [runWith_onSigning_inMemory, hissue]
  obtain ⟨o, store, hupsert⟩ :=
    MemoryStore.exists_upsert_eq_ok w.1 id (Writer.setPair pair.1 pair.2)
  obtain rfl := (MemoryStore.upsert_created_iff hupsert).mpr habsent
  exact ⟨store, runWith_reconcile_of_missing hr hfetch hresolve hadd hsigning
    (runWith_write_inMemory (w := (w.1, t)) g hupsert)⟩

/-- After a pass of accepted settings that returns, the record holds a pair that is valid to the
stored authority, one that was generated here, for the name of the settings; and passes in a row
before that pair expires keep it, report no change and restart nothing, are due again when it
expires, and leave every record and every instance as they are. -/
theorem reconcile_settles {o : SelfSigned.Options} {ρ : Type} {g₀ : Handler Signing ρ} {u u' : ρ}
    (hg₀ : Signing.DrawsSoundFor g₀ o.keyBits)
    (hca : runWith g₀ (SelfSigned.generate o) u = (.ok ca, u')) {v : Settings.Values}
    {host : String} (hs : Settings.ofValues v host = .ok s)
    (hr : ofSettings s = .ok r) (hg : Signing.DrawsSoundFor g s.keyBits) {authority : Record}
    (hauthority : w.1.records.get? s.authorityId = some authority)
    (hstored : ca.StoredIn authority.data) (hnow : now.isAware) {result : PassResult}
    (hrun : runWith (World.inMemory g) (r.reconcile id (some now)) w = (.ok result, w')) :
    ∃ record resolved notAfter, w'.1.getRecord id = .ok record ∧
      runWith (World.inMemory g) (onStore r.resolve) w' = (.ok resolved, w') ∧
      runWith (World.inMemory g)
        (onSigning (evaluate record resolved (some s.dnsName) (some now))) w' =
          (.ok (.valid notAfter), w') ∧
      ∀ moments : List Moment,
        (∀ m ∈ moments, m.isAware ∧ now.instant ≤ m.instant ∧ m.instant < notAfter.instant) →
        runWith (World.inMemory g) (moments.mapM fun m => r.reconcile id (some m)) w' =
          (.ok (moments.map fun m => ⟨id, .keep ⟨notAfter.instant - m.instant⟩, .unchanged,
            ⟨notAfter.instant - m.instant⟩, none⟩), w') := by
  obtain ⟨a, notAfter, hsettled⟩ := settled_of_reconcile hs hr hg
    (SelfSigned.genuine_of_generate hg₀ hca) hauthority hstored hnow hrun
  obtain ⟨record, hrecord, hvalid⟩ := hsettled.pair
  refine ⟨record, a.toAuthority, notAfter, ?_, ?_, ?_, ?_⟩
  · rw [MemoryStore.getRecord, hrecord]
  · have hresolve := hsettled.runWith_resolve (g := g)
    rw [runWith_onStore] at hresolve
    rw [ofSettings_eq_ok hr, runWith_onStore, runWith_map, hresolve]
    rfl
  · rw [runWith_onSigning, SelfSigned.runWith_evaluate, hvalid]
  · intro moments hmoments
    exact hsettled.runWith_mapM_reconcile hr hnow hmoments

/-- The first pass for the serving record, where a new authority is stored and nothing else,
returns, and passes before the new pair expires keep it. -/
theorem reconcile_settles_first :
    ∃ ca r result w',
      runWith Signing.steady (SelfSigned.generate .short) () = (.ok ca, ()) ∧
      Settings.ofValues ⟨.empty, .empty, .empty⟩ "server" = .ok .plain ∧
      ofSettings .plain = .ok r ∧
      runWith (World.inMemory Signing.steady) (r.reconcile ⟨"default", "tls"⟩ (some .march))
        (MemoryStore.empty.setRecord ⟨⟨"default", "ca"⟩, ca.store .empty, 1⟩, ()) =
          (.ok result, w') ∧
      ∃ notAfter : Moment, ∀ moments : List Moment,
        (∀ m ∈ moments, m.isAware ∧ Moment.march.instant ≤ m.instant ∧
          m.instant < notAfter.instant) →
        runWith (World.inMemory Signing.steady)
          (moments.mapM fun m => r.reconcile ⟨"default", "tls"⟩ (some m)) w' =
            (.ok (moments.map fun m => ⟨⟨"default", "tls"⟩, .keep ⟨notAfter.instant - m.instant⟩,
              .unchanged, ⟨notAfter.instant - m.instant⟩, none⟩), w') := by
  obtain ⟨ca, hca, hshort⟩ := SelfSigned.exists_generate_short
  obtain ⟨pair, hissue⟩ := hshort.exists_issue
  have hgenuine := SelfSigned.genuine_of_generate (Signing.drawsSoundFor_steady _) hca
  have hs : Settings.ofValues ⟨.empty, .empty, .empty⟩ "server" = .ok .plain := rfl
  obtain ⟨r, hr⟩ : ∃ r, ofSettings .plain = .ok r := ⟨_, rfl⟩
  let w : MemoryStore × Unit :=
    (MemoryStore.empty.setRecord ⟨⟨"default", "ca"⟩, ca.store .empty, 1⟩, ())
  have hauthority : w.1.records.get? Settings.plain.authorityId =
      some ⟨⟨"default", "ca"⟩, ca.store .empty, 1⟩ := MemoryStore.get?_onlyAuthority_self _ _
  have hne : (⟨"default", "ca"⟩ : Identity) ≠ ⟨"default", "tls"⟩ := by decide
  have habsent : w.1.records.get? ⟨"default", "tls"⟩ = none :=
    (MemoryStore.get?_setRecord _ _ _).trans (if_neg hne)
  have hstored : ca.StoredIn (ca.store .empty) := SelfSigned.storedIn_store _ _
  have hresolve := hshort.runWith_resolveAuthority hgenuine Signing.steady ()
  have hlate : Moment.march.add? r.lifetime = .ok .august := by
    rw [ofSettings_eq_ok hr]
    decide
  obtain ⟨store, hrun⟩ := runWith_reconcile_of_absent hr habsent hresolve hlate hissue
  obtain ⟨_, _, notAfter, _, _, _, hlater⟩ := reconcile_settles (Signing.drawsSoundFor_steady _) hca
    hs hr (Signing.drawsSoundFor_steady _) hauthority hstored rfl hrun
  exact ⟨ca, r, _, _, hca, hs, hr, hrun, notAfter, hlater⟩

end Reconciler

end CertKeeper
