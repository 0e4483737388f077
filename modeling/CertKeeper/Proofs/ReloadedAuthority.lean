import CertKeeper.Proofs.CanonicalKeys
import CertKeeper.Proofs.Inspection
import CertKeeper.Proofs.LoadedAuthority

/-!
# Authorities that are stored and found again

An authority that was read from two texts, or made here, is read again from its own texts
(`SelfSigned.Obtained.reloads`). So what is found after it has been stored is the same authority,
and storing that one changes nothing more, whatever texts the first one was read from
(`SelfSigned.resolveAuthority_store`).
-/

namespace CertKeeper

open CertKeeper.Action Crypto X509

namespace SelfSigned

variable {a : SelfSigned} {data : Fields} {id : Identity} {bits : Int}

/-! ## Reading the texts of an authority -/

/-- An authority that was read from two texts is read again from its own. -/
private theorem reloads_of_ofTexts {certificate key : Bytes}
    (h : ofTexts certificate key bits = .ok a) :
    a.Reloads := by
  obtain ⟨hcertificate, hkey, _, horganization⟩ := ofTexts_eq_ok_iff.mp h
  refine ofTexts_eq_ok_iff.mpr ⟨?_, ?_, rfl, horganization⟩
  · exact (Certificate.ofText_text _).trans (Certificate.ofDer_of_ofText hcertificate)
  · exact PrivateKey.ofText_writeRsa_of_ofText hkey

/-- How an authority is obtained: read from two texts, or made here with a key that was drawn as RSA
keys are made. -/
inductive Obtained (a : SelfSigned) : Prop
  | loaded {certificate key : Bytes} {bits : Int} (read : ofTexts certificate key bits = .ok a)
  | generated {τ : Type} {g : Handler Signing τ} {o : Options} {t t' : τ}
      (draws : Signing.DrawsSoundFor g o.keyBits) (made : runWith g (generate o) t = (.ok a, t'))

/-- An authority that was read from two texts, or made here with a sound key, is read again from its
texts. -/
theorem Obtained.reloads (h : a.Obtained) : a.Reloads := by
  cases h with
  | loaded read => exact reloads_of_ofTexts read
  | generated draws made =>
    have hkey := sound_of_generate draws made
    have hmade := (generated_of_generate made).1
    exact (hmade.genuine hkey).reloads (hmade.organization? hkey)

/-! ## Looking for a stored authority -/

/-- An authority whose texts are read as itself is found in every record that holds its texts. -/
theorem Reloads.runWith_resolveAuthority {σ : Type} {h : Handler Store σ} {w w' : σ}
    {record : Record} (ha : a.Reloads)
    (hfound : runWith h (Store.getRecord id) w = (.ok record, w'))
    (hstored : a.StoredIn record.data) :
    runWith h (resolveAuthority id bits) w = (.ok { a with leafBits := bits }, w') := by
  rw [Reconciler.runWith_resolveAuthority_of_found hfound, ha.ofFields hstored]

/-- The record in which it has been stored holds its texts. -/
theorem exists_storedIn_of_upsert {m m' : MemoryStore} {o : Outcome}
    (h : m.upsert id (fun data => .ok (a.store data)) = (.ok o, m')) :
    ∃ record, m'.records.get? id = some record ∧ a.StoredIn record.data := by
  obtain ⟨record, former, hrecord, _, hdata⟩ := MemoryStore.upsert_data h
  obtain ⟨hcertificate, hkey⟩ := a.storedIn_store (former.getD .empty)
  exact ⟨record, hrecord, (hdata _).trans hcertificate, (hdata _).trans hkey⟩

/-- An authority whose texts are read as itself is found in a store in memory once it has been
stored there. -/
private theorem Reloads.runWith_resolveAuthority_memory {m m' : MemoryStore} {o : Outcome}
    (ha : a.Reloads) (h : m.upsert id (fun data => .ok (a.store data)) = (.ok o, m')) :
    runWith MemoryStore.handler (resolveAuthority id bits) m' =
      (.ok { a with leafBits := bits }, m') := by
  obtain ⟨record, hrecord, hstored⟩ := exists_storedIn_of_upsert h
  have hfound : runWith MemoryStore.handler (Store.getRecord id) m' = (m'.getRecord id, m') := rfl
  rw [MemoryStore.getRecord_eq_ok_iff.mpr hrecord] at hfound
  exact ha.runWith_resolveAuthority hfound hstored

/-- An authority whose texts are read as itself is found on a disk once it has been stored there. -/
theorem Reloads.runWith_resolveAuthority_disk {s : DirectoryStore} {B : List String}
    {m : MemoryStore} {d d' : Disk} {o : Outcome} (ha : a.Reloads) (hold : Holds s.base B m d)
    (hid : id.IsRegular)
    (h : runWith Disk.handler (s.upsert id fun data => .ok (a.store data)) d = (.ok o, d')) :
    runWith s.handler (resolveAuthority id bits) d' = (.ok { a with leafBits := bits }, d') := by
  obtain ⟨m', hupsert, hold'⟩ := hold.of_runWith_upsert hid h
  obtain ⟨record, hrecord, hstored⟩ := exists_storedIn_of_upsert hupsert
  rw [Reconciler.runWith_resolveAuthority_of_held hold' hid hrecord, ha.ofFields hstored]

/-- An authority that was read from any two texts, or made here, is found again once it has been
stored: with the same certificate, key and organization, and with the same fields to store. That is
so in every record whose two fields hold its texts, whatever else it holds; after storing it in
memory, which always succeeds; and after storing it on a disk, which succeeds unless the names or
the record have no place there. -/
theorem resolveAuthority_store (ha : a.Obtained) (id : Identity) (bits : Int) :
    ∃ b : SelfSigned, b.certificate = a.certificate ∧ b.key = a.key ∧
      b.organization = a.organization ∧ b.leafBits = bits ∧
      (∀ data, b.store data = a.store data) ∧
      (∀ (σ : Type) (h : Handler Store σ) (w w' : σ) (record : Record),
        runWith h (Store.getRecord id) w = (.ok record, w') → a.StoredIn record.data →
        runWith h (resolveAuthority id bits) w = (.ok b, w')) ∧
      (∀ m : MemoryStore, ∃ o m', m.upsert id (fun data => .ok (a.store data)) = (.ok o, m') ∧
        runWith MemoryStore.handler (resolveAuthority id bits) m' = (.ok b, m')) ∧
      ∀ (s : DirectoryStore) (B : List String) (m : MemoryStore) (d : Disk),
        Holds s.base B m d → id.IsRegular →
        (id.IsNamed → ¬ Unfit m id.safe (fun data => .ok (a.store data)) → ∃ o d',
          runWith Disk.handler (s.upsert id fun data => .ok (a.store data)) d = (.ok o, d')) ∧
        ∀ o d', runWith Disk.handler (s.upsert id fun data => .ok (a.store data)) d = (.ok o, d') →
          runWith s.handler (resolveAuthority id bits) d' = (.ok b, d') := by
  have hreloads := ha.reloads
  refine ⟨{ a with leafBits := bits }, rfl, rfl, rfl, rfl, fun _ => rfl, ?_, ?_, ?_⟩
  · intro σ h w w' record hfound hstored
    exact hreloads.runWith_resolveAuthority hfound hstored
  · intro m
    obtain ⟨o, m', hupsert⟩ := m.exists_upsert_eq_ok id a.store
    exact ⟨o, m', hupsert, hreloads.runWith_resolveAuthority_memory hupsert⟩
  · intro s B m d hold hid
    refine ⟨fun hnamed hfit => ?_, fun o d' => hreloads.runWith_resolveAuthority_disk hold hid⟩
    obtain ⟨d', hrun, -⟩ := hold.exists_runWith_upsert hid hnamed hfit
    obtain ⟨o, m', hupsert⟩ := m.exists_upsert_eq_ok id.safe a.store
    rw [hupsert] at hrun
    exact ⟨o, d', hrun⟩

/-- An authority whose key is not that of its certificate is found on a disk on which nothing else
is stored. -/
theorem resolveAuthority_store_foreign :
    ∃ (a b : SelfSigned) (d : Disk),
      ofTexts Certificate.small.text (PrivateKey.writeRsa .large) 2048 = .ok a ∧
      runWith Disk.handler (CommandLine.Session.plain.store.upsert ⟨"default", "ca"⟩
        fun data => .ok (a.store data)) (.withWorking ["var"]) = (.ok .created, d) ∧
      runWith CommandLine.Session.plain.store.handler (resolveAuthority ⟨"default", "ca"⟩ 4096) d =
        (.ok b, d) ∧
      b.certificate = a.certificate ∧ b.key = .large ∧ b.organization = "small" ∧
      b.store .empty = a.store .empty := by
  obtain ⟨a, hload, _, _, hkey, horganization, _⟩ := exists_ofTexts_foreign
  obtain ⟨m, d, hupsert, _⟩ :=
    CommandLine.Session.exists_holds_texts a.certificateText a.keyText
  obtain ⟨b, hcertificate, hkey', horganization', _, hstore, _, _, hdisk⟩ :=
    resolveAuthority_store (.loaded hload) ⟨"default", "ca"⟩ 4096
  obtain ⟨_, hfound⟩ := hdisk CommandLine.Session.plain.store ["var"] .empty (.withWorking ["var"])
    CommandLine.Session.fresh_plain.holds (by decide)
  exact ⟨a, b, d, hload, hupsert, hfound _ _ hupsert, hcertificate, hkey'.trans hkey,
    horganization'.trans horganization, hstore _⟩

end SelfSigned

end CertKeeper
