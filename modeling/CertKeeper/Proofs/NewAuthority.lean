import CertKeeper.Proofs.ReloadedAuthority

/-!
# New authorities

What an authority brings about that has just been made: its texts can be stored wherever a record is
held, beside the other fields and without a trace elsewhere (`Holds.not_unfit_store`,
`SelfSigned.StoredBetween`), its certificate says whom it is for and how long, and it takes nothing
for valid that its key has not signed (`SelfSigned.appraise_of_unsigned`).
-/

namespace CertKeeper

open CertKeeper.Action X509
open DirectoryStore (safeName)
open Disk (IsName)

/-! ## Records that have files -/

/-- The fields can be files of one directory. -/
structure Fields.HaveFiles (data : Fields) : Prop where
  distinct : (data.keys.map safeName).Nodup
  fileName : ∀ field ∈ data.keys, IsName (safeName field)

variable {data : Fields} {base : Disk.Path} {B : List String} {m m' : MemoryStore} {d d' : Disk}
  {id k : Identity} {record : Record}

/-- Fields that can be files of one directory still can with a further field, whose name is that of
a file as it is and has no underscore. -/
theorem Fields.HaveFiles.set (h : data.HaveFiles) {field : String} (hname : IsName (safeName field))
    (hfield : safeName field = field) (hplain : '_' ∉ field.toList) (content : Bytes) :
    Fields.HaveFiles (data.set field content) := by
  have hkeys : (data.set field content).keys =
      if field ∈ data.keys then data.keys else data.keys ++ [field] :=
    Entries.keys_put field content data.toList
  by_cases hmem : field ∈ data.keys
  · rw [if_pos hmem] at hkeys
    exact ⟨hkeys ▸ h.distinct, hkeys ▸ h.fileName⟩
  rw [if_neg hmem] at hkeys
  constructor
  · rw [hkeys, List.map_append, List.nodup_append]
    refine ⟨h.distinct, List.nodup_singleton _, ?_⟩
    rintro _ hother _ hnew rfl
    obtain ⟨other, hother, hsame⟩ := List.mem_map.mp hother
    rw [List.map_singleton, List.mem_singleton, hfield] at hnew
    rw [DirectoryStore.eq_of_safeName_eq (hsame.trans hnew) hplain] at hother
    exact hmem hother
  · intro other hother
    rw [hkeys, List.mem_append, List.mem_singleton] at hother
    rcases hother with hother | rfl
    · exact h.fileName other hother
    · exact hname

/-- What is held is in files. -/
theorem Holds.haveFiles (hold : Holds base B m d) (hk : m.records.get? k = some record) :
    record.data.HaveFiles := by
  have hstored := hold.record k
  rw [hk] at hstored
  have hdistinct := DirectoryStore.files_size_iff.mp hstored.distinct
  refine ⟨hdistinct, fun field hfield => ?_⟩
  have hfile : (safeName field, field) ∈ (DirectoryStore.files record.data).toList := by
    obtain ⟨entry, hentry, rfl⟩ := List.mem_map.mp hfield
    rw [DirectoryStore.files_toList hstored.distinct]
    exact List.mem_map_of_mem hentry
  have hat := hstored.field _ hfile
  refine hold.sound.isName_of_mem hat _ ?_
  simp

/-- The names under which a record is held on disk are names of directories. -/
theorem Holds.isName_of_held (hold : Holds base B m d) (hk : m.records.get? k = some record) :
    IsName k.space ∧ IsName k.name := by
  have hstored := hold.record k
  rw [hk] at hstored
  have hnames := hold.sound.isName_of_mem hstored.index
  exact ⟨hnames _ (by simp), hnames _ (by simp)⟩

/-- The texts of an authority are stored in a record unless its version is too long a number. -/
theorem Holds.not_unfit_store (hold : Holds base B m d) (ca : SelfSigned)
    (hversion : ∀ record, m.records.get? k = some record → record.version + 1 < 10 ^ 254) :
    ¬ Unfit m k fun data => .ok (ca.store data) := by
  have hstore {data : Fields} (h : data.HaveFiles) : Fields.HaveFiles (ca.store data) :=
    (h.set (by decide) (by decide) (by decide) _).set (by decide)
      (by decide) (by decide) _
  rintro ⟨record, hrecord, hunfit⟩
  obtain ⟨o, m', hupsert⟩ := m.exists_upsert_eq_ok k ca.store
  rw [hupsert] at hrecord
  dsimp only at hrecord
  rcases MemoryStore.upsert_cases hupsert with ⟨hnone, -, rfl⟩ | ⟨former, hformer, -, -, rfl⟩ |
    ⟨former, hformer, -, -, rfl⟩
  · rw [MemoryStore.get?_setRecord, if_pos rfl] at hrecord
    cases hrecord
    have hempty : Fields.HaveFiles .empty := ⟨List.nodup_nil, nofun⟩
    obtain ⟨hdistinct, hnames⟩ := hstore hempty
    have hversion : (1 : Int) < 10 ^ 254 := by decide
    exact hunfit ⟨hdistinct, hnames, hversion⟩
  · rw [hformer] at hrecord
    cases hrecord
    obtain ⟨hdistinct, hnames⟩ := hold.haveFiles hformer
    have := hversion _ hformer
    exact hunfit ⟨hdistinct, hnames, by omega⟩
  · rw [MemoryStore.get?_setRecord, if_pos rfl] at hrecord
    cases hrecord
    obtain ⟨hdistinct, hnames⟩ := hstore (hold.haveFiles hformer)
    exact hunfit ⟨hdistinct, hnames, hversion _ hformer⟩

/-! ## What has become of the records -/

/-- What has become of records and instances when an authority has been stored in one of them. -/
structure SelfSigned.StoredBetween (ca : SelfSigned) (k : Identity) (m m' : MemoryStore) :
    Prop where
  record : ∃ record, m'.records.get? k = some record ∧ ca.StoredIn record.data ∧
    ∀ name, name ≠ authorityCertificateField → name ≠ authorityKeyField →
      record.data.get? name = (((m.records.get? k).map Record.data).getD .empty).get? name
  others : ∀ j, j ≠ k → m'.records.get? j = m.records.get? j
  instances : m'.instances = m.instances

/-- An upsert that stores an authority stores it in its record and changes nothing else. -/
theorem SelfSigned.storedBetween_of_upsert {ca : SelfSigned} {o : Outcome}
    (h : m.upsert k (fun data => .ok (ca.store data)) = (.ok o, m')) :
    ca.StoredBetween k m m' where
  record := by
    obtain ⟨record, _, hrecord, rfl, hdata⟩ := MemoryStore.upsert_data h
    obtain ⟨hcertificate, hkey⟩ :=
      ca.storedIn_store (((m.records.get? k).map Record.data).getD .empty)
    refine ⟨record, hrecord, ⟨(hdata _).trans hcertificate, (hdata _).trans hkey⟩, ?_⟩
    intro name hne hne'
    rw [hdata, SelfSigned.store, Entries.get?_set, if_neg hne'.symm, Entries.get?_set,
      if_neg hne.symm]
  others j hj := by
    have hkept := m.get?_upsert_of_ne hj fun data => .ok (ca.store data)
    rwa [h] at hkept
  instances := by
    have hkept := m.upsert_instances k fun data => .ok (ca.store data)
    rwa [h] at hkept

/-! ## What is said of a new authority -/

namespace X509

/-- Escaping adds no bracket. -/
private theorem bracket_not_mem_escapeValue {cs : List Char}
    (h : '[' ∉ cs) : '[' ∉ escapeValue cs := by
  have hbody : '[' ∉ cs.flatMap fun c =>
      if escapedCharacters.contains c then ['\\', c]
      else if c = '\x00' then ['\\', '0', '0'] else [c] := by
    rw [List.mem_flatMap]
    rintro ⟨c, hc, hmem⟩
    have hne : '[' ≠ c := fun heq => h (heq ▸ hc)
    split at hmem
    · simp [hne] at hmem
    · split at hmem
      · exact absurd hmem (by decide)
      · simp [hne] at hmem
  have hend {body : List Char} (hbody : '[' ∉ body) :
      '[' ∉ if body.getLast? = some ' ' then body.dropLast ++ ['\\', ' '] else body := by
    split
    · exact List.not_mem_append (fun hmem => hbody (List.mem_of_mem_dropLast hmem)) (by decide)
    · exact hbody
  have hescaped := hend hbody
  unfold escapeValue
  dsimp only
  revert hescaped
  generalize (if (cs.flatMap _).getLast? = some ' ' then _ else _) = body
  intro hescaped
  cases body with
  | nil => exact hescaped
  | cons c body =>
    dsimp only
    split
    · exact List.not_mem_cons_of_ne_of_not_mem (by decide) hescaped
    · exact hescaped

/-- A name of a common name and an organization has a text, with no bracket if they have none. -/
private theorem Name.exists_text?_ofCommonName {commonName organization : String}
    (hname : '[' ∉ commonName.toList) (horganization : '[' ∉ organization.toList) :
    ∃ text, (Name.ofCommonName commonName organization).text? = .ok text ∧ '[' ∉ text.toList := by
  have hpart (kind : Encoding.Oid) (label : String) {s : String}
      (hlabel : shortNames.lookup kind = some label) (hplain : '[' ∉ label.toList)
      (hs : '[' ∉ s.toList) :
      '[' ∉ (attributeText (.ofText kind s) s).toList := by
    have htag : Encoding.Der.Tag.utf8String ≠ .bitString := by decide
    rw [attributeText, Attribute.ofText, hlabel, if_neg htag]
    simp only [Option.getD_some, String.toList_append, String.toList_ofList]
    exact List.not_mem_append (List.not_mem_append hplain (by decide))
      (bracket_not_mem_escapeValue hs)
  refine ⟨_, by rw [text?, texts?_ofCommonName]; rfl, ?_⟩
  rw [String.toList_intercalate, Disk.Path.mem_intercalate (by decide)]
  have hsingle (s : String) : String.intercalate "+" [s] = s := rfl
  simp only [List.map_cons, List.map_nil, hsingle, List.reverse_cons, List.reverse_nil,
    List.nil_append, List.cons_append, List.mem_cons, List.not_mem_nil, or_false, not_exists,
    not_and]
  rintro cs (rfl | rfl)
  · exact hpart oidOrganization "O" (by decide) (by decide) horganization
  · exact hpart oidCommonName "CN" (by decide) (by decide) hname

end X509

namespace SelfSigned

variable {a : SelfSigned} {o : Options}

/-- The certificate of a new authority says whom it is for, with no bracket if there is none in what
it was made of. -/
theorem Generated.exists_subject (h : a.Generated o) (hkey : a.key.Sound)
    (hname : '[' ∉ o.commonName.toList) (horganization : '[' ∉ o.organization.toList) :
    ∃ text, a.certificate.statement.subject.text? = .ok text ∧ '[' ∉ text.toList := by
  rw [h.subject hkey]
  exact Name.exists_text?_ofCommonName hname horganization

/-- The certificate of a new authority states its end. -/
theorem Generated.exists_notAfter (h : a.Generated o) (hkey : a.key.Sound) :
    ∃ notAfter, a.certificate.notAfter? = .ok notAfter := by
  obtain ⟨serial, start, stop, hsigned⟩ := h.exists_signed hkey
  obtain ⟨notAfter, hread, -⟩ := Stamp.moment?_ofMoment stop
  refine ⟨notAfter, ?_⟩
  rw [Certificate.notAfter?, hsigned.statement]
  exact hread

end SelfSigned

/-! ## Certificates of another authority -/

/-- No signature in the certificate of a record is right under a key. -/
def Record.UnsignedBy (record : Record) (key : PublicKey) : Prop :=
  ∀ certificate c scheme, record.certificate? = some certificate →
    Certificate.ofText certificate = .ok c → c.algorithm.scheme = .ok scheme →
    key.verify scheme c.signed c.signature = false

namespace SelfSigned

variable {ca : SelfSigned} {key : PublicKey} {dnsName : Option String} {now : Moment}

/-- An authority accepts no certificate whose signature is not right under its key. -/
private theorem exists_rejected_of_judgeAt (hkey : ca.certificate.publicKey? = .ok key)
    {c : Certificate}
    (hunsigned : ∀ scheme, c.algorithm.scheme = .ok scheme →
      key.verify scheme c.signed c.signature = false)
    {verdict : Verdict} (hjudge : ca.judgeAt c dnsName now = .ok verdict) :
    ∃ rejection, verdict = .rejected rejection := by
  unfold judgeAt at hjudge
  split at hjudge
  · next hissued =>
    obtain ⟨scheme, hscheme, hverify⟩ := Certificate.verify_of_checkIssuedBy hkey hissued
    rw [hunsigned scheme hscheme] at hverify
    cases hverify
  · split at hjudge
    · cases hjudge
    · cases hjudge
      exact ⟨_, rfl⟩

/-- A record without a signature by the key of an authority is worth nothing to that authority: a
pair is not valid, and without a complete one there is nothing. -/
theorem appraise_of_unsigned (hkey : ca.certificate.publicKey? = .ok key)
    (hunsigned : record.UnsignedBy key) {evaluation : Evaluation}
    (happraise : ca.appraise record dnsName now = .ok evaluation) :
    if record.hasPair then ∃ defect, evaluation = .invalid defect else evaluation = .absent := by
  have habsent : ca.appraise record dnsName now = .ok .absent ↔ ¬ record.hasPair := by
    rw [appraise_eq_absent_iff, Record.hasPair, Bool.and_eq_true, not_and_or,
      Option.not_isSome_iff_eq_none, Option.not_isSome_iff_eq_none]
  by_cases hpair : record.hasPair
  · rw [if_pos hpair]
    obtain ⟨c, holds⟩ | ⟨_, _, _, _, herror⟩ | hnone | ⟨defect, hinvalid⟩ :=
      ca.appraise_cases record dnsName now
    · rw [appraise_of_holds holds] at happraise
      obtain ⟨certificate, _, hcertificate, _, htext, _⟩ := holds
      rcases hjudge : ca.judgeAt c dnsName now with e | verdict
      · rw [hjudge] at happraise
        cases happraise
      obtain ⟨rejection, rfl⟩ := exists_rejected_of_judgeAt hkey
        (fun scheme => hunsigned certificate c scheme hcertificate htext) hjudge
      rw [hjudge] at happraise
      cases happraise
      exact ⟨_, rfl⟩
    · rw [herror] at happraise
      cases happraise
    · exact absurd hpair (habsent.mp hnone)
    · rw [hinvalid] at happraise
      cases happraise
      exact ⟨defect, rfl⟩
  · rw [if_neg hpair]
    rw [habsent.mpr hpair] at happraise
    cases happraise
    rfl

end SelfSigned

end CertKeeper
