import CertKeeper.Authority.Resolution
import CertKeeper.Proofs.KeyText
import CertKeeper.Proofs.MemoryUpsert

/-!
# Authorities in their fields

What is found in the fields of a record in which an authority was stored: the authority, if its
texts are read as it is (`SelfSigned.Reloads.ofFields`), and in any case nothing but its own
certificate and key, if the key is sound (`SelfSigned.ofFields_eq_ok_iff`).
-/

namespace CertKeeper

open Crypto X509 Encoding

/-- The text of a block is not empty. -/
theorem Encoding.Pem.write_ne_nil (label : String) (content : Bytes) :
    Pem.write label content ≠ [] := by
  simp [Pem.write]

namespace SelfSigned

variable {a b : SelfSigned} {id : Identity} {data : Fields} {bits : Int}

/-- The fields hold the texts of an authority. -/
structure StoredIn (a : SelfSigned) (data : Fields) : Prop where
  certificate : data.get? authorityCertificateField = some a.certificateText
  key : data.get? authorityKeyField = some a.keyText

/-- The fields in which an authority has been stored hold its texts. -/
theorem storedIn_store (a : SelfSigned) (data : Fields) : a.StoredIn (a.store data) := by
  have hne : authorityKeyField ≠ authorityCertificateField := by decide
  constructor <;> simp [store, hne]

/-- The parts of an authority that is read from two texts. -/
theorem ofTexts_eq_ok_iff {certificate key : Bytes} :
    ofTexts certificate key bits = .ok b ↔
      Certificate.ofText certificate = .ok b.certificate ∧
        PrivateKey.ofText key = .ok (.rsa b.key) ∧ b.leafBits = bits ∧
        ∃ organization, b.certificate.statement.subject.organization? = .ok organization ∧
          b.organization = organization.getD defaultOrganization := by
  constructor
  · intro h
    unfold ofTexts at h
    cases hcertificate : Certificate.ofText certificate with
    | error defect =>
      rw [hcertificate] at h
      cases h
    | ok c =>
    cases hkey : PrivateKey.ofText key with
    | error defect =>
      rw [hcertificate, hkey] at h
      cases h
    | ok k =>
    rw [hcertificate, hkey] at h
    cases k with
    | rsa k =>
      cases horganization : c.statement.subject.organization? with
      | error defect =>
        simp [horganization, bind, Except.bind, Except.mapError] at h
      | ok organization =>
        simp only [horganization, bind, Except.bind, mapError_ok, pure, Except.pure,
          Except.ok.injEq] at h
        subst h
        exact ⟨rfl, rfl, rfl, organization, horganization, rfl⟩
    | dsa | weierstrass | ed25519 | x25519 => cases h
  · rintro ⟨hcertificate, hkey, rfl, organization, horganization, horganization'⟩
    unfold ofTexts
    rw [hcertificate, hkey]
    simp only [horganization, bind, Except.bind, mapError_ok, pure, Except.pure,
      ← horganization']

/-- The number of bits of issued keys has no part in reading an authority. -/
theorem ofTexts_withBits {certificate key : Bytes} (h : ofTexts certificate key bits = .ok b)
    (bits' : Int) : ofTexts certificate key bits' = .ok { b with leafBits := bits' } := by
  obtain ⟨hcertificate, hkey, -, horganization⟩ := ofTexts_eq_ok_iff.mp h
  exact ofTexts_eq_ok_iff.mpr ⟨hcertificate, hkey, rfl, horganization⟩

/-- The authority in fields is the same whatever number of bits is asked for, but for that
number. -/
theorem ofFields_withBits (h : ofFields id data bits = .ok b) (bits' : Int) :
    ofFields id data bits' = .ok { b with leafBits := bits' } := by
  unfold ofFields at h ⊢
  split at h
  · split at h
    · next hread =>
      cases h
      rw [ofTexts_withBits hread bits']
    · split at h <;> cases h
  · cases h

/-- The authority in fields that hold the texts of one is the one that is read from these texts. -/
theorem ofFields_eq_ok_iff_ofTexts (ha : a.StoredIn data) :
    ofFields id data bits = .ok b ↔ ofTexts a.certificateText a.keyText bits = .ok b := by
  have hcertificate : data.filled? authorityCertificateField = some a.certificateText :=
    Fields.filled?_eq_some_iff.mpr ⟨ha.certificate, Pem.write_ne_nil _ _⟩
  have hkey : data.filled? authorityKeyField = some a.keyText :=
    Fields.filled?_eq_some_iff.mpr ⟨ha.key, Pem.write_ne_nil _ _⟩
  rw [ofFields, hcertificate, hkey]
  dsimp only
  cases ofTexts a.certificateText a.keyText bits with
  | ok b => exact Iff.rfl
  | error cause =>
    dsimp only
    split <;> exact iff_of_false nofun nofun

/-- The texts of an authority are read as that authority. -/
def Reloads (a : SelfSigned) : Prop := ofTexts a.certificateText a.keyText a.leafBits = .ok a

/-- An authority whose texts are read as itself is found in all fields that hold its texts, for keys
of the number of bits that is asked for. -/
theorem Reloads.ofFields (h : a.Reloads) (ha : a.StoredIn data) :
    ofFields id data bits = .ok { a with leafBits := bits } :=
  (ofFields_eq_ok_iff_ofTexts ha).mpr (ofTexts_withBits h bits)

/-- The authority in fields that hold the texts of one with a sound key. -/
theorem ofFields_eq_ok_iff (ha : a.StoredIn data) (hk : a.key.Sound) :
    ofFields id data bits = .ok b ↔
      Certificate.ofDer a.certificate.der = .ok b.certificate ∧ b.key = a.key ∧
        b.leafBits = bits ∧
        ∃ organization, b.certificate.statement.subject.organization? = .ok organization ∧
          b.organization = organization.getD defaultOrganization := by
  have hcertificateText : Certificate.ofText a.certificateText =
      Certificate.ofDer a.certificate.der := Certificate.ofText_text _
  have hkeyText : PrivateKey.ofText a.keyText = .ok (.rsa a.key) :=
    PrivateKey.ofText_writeRsa hk
  rw [ofFields_eq_ok_iff_ofTexts ha, ofTexts_eq_ok_iff, hcertificateText, hkeyText,
    Except.ok.injEq, PrivateKey.rsa.injEq, eq_comm (a := a.key)]

/-- Only the two fields with the texts of an authority decide which authority fields give. -/
theorem ofFields_congr {data' : Fields} (ha : a.StoredIn data) (ha' : a.StoredIn data') :
    ofFields id data' bits = ofFields id data bits := by
  rw [ofFields, ofFields, Fields.filled?, Fields.filled?, Fields.filled?, Fields.filled?,
    ha.certificate, ha.key, ha'.certificate, ha'.key]

end SelfSigned

end CertKeeper
