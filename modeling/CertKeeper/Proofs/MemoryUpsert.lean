import CertKeeper.Store.Memory
import CertKeeper.Writer

/-!
# Upserts in memory

What writing or removing a pair does to a store in memory: the managed fields of the record become
what they are set to, nothing else changes, and the outcome tells whether there was a record and
whether it was changed.
-/

namespace CertKeeper

namespace Entries

variable {κ α : Type} [DecidableEq κ]

/-- A key that is found belongs to one of the pairs. -/
private theorem mem_of_lookup {k : κ} {a : α} {l : List (κ × α)} (h : lookup k l = some a) :
    (k, a) ∈ l := by
  induction l with
  | nil => simp [lookup] at h
  | cons p rest ih =>
    obtain ⟨j, b⟩ := p
    unfold lookup at h
    split at h
    · next hj =>
      subst hj
      simp [Option.some.inj h]
    · exact List.mem_cons_of_mem _ (ih h)

/-- Under distinct keys every pair is found. -/
private theorem lookup_of_mem {k : κ} {a : α} {l : List (κ × α)} (hn : (l.map Prod.fst).Nodup)
    (h : (k, a) ∈ l) : lookup k l = some a := by
  induction l with
  | nil => cases h
  | cons p rest ih =>
    obtain ⟨j, b⟩ := p
    rw [List.map_cons, List.nodup_cons] at hn
    unfold lookup
    rcases List.mem_cons.mp h with he | hm
    · cases he
      simp
    · have hne : j ≠ k := fun e => hn.1 (e ▸ List.mem_map.mpr ⟨(k, a), hm, rfl⟩)
      rw [if_neg hne]
      exact ih hn.2 hm

/-- The pairs of a map are what is found in it. -/
theorem mem_toList_iff (m : Entries κ α) (k : κ) (a : α) :
    (k, a) ∈ m.toList ↔ m.get? k = some a :=
  ⟨lookup_of_mem m.nodup, mem_of_lookup⟩

/-- The values of a map are those found under some key. -/
theorem mem_values {m : Entries κ α} {a : α} : a ∈ m.values ↔ ∃ k, m.get? k = some a := by
  rw [values, List.mem_map]
  constructor
  · rintro ⟨⟨k, a⟩, hmem, rfl⟩
    exact ⟨k, (mem_toList_iff m k a).mp hmem⟩
  · rintro ⟨k, hget⟩
    exact ⟨(k, a), (mem_toList_iff m k a).mpr hget, rfl⟩

/-- Where values tell their keys, no two of them tell the same one. -/
theorem nodup_map_values {m : Entries κ α} {f : α → κ} (h : ∀ k a, m.get? k = some a → f a = k) :
    (m.values.map f).Nodup := by
  have hkeys : m.values.map f = m.keys := by
    rw [values, keys, List.map_map]
    exact List.map_congr_left fun p hp => h p.1 p.2 ((mem_toList_iff m p.1 p.2).mp hp)
  rw [hkeys]
  exact m.nodup

/-- No value stands twice among entries whose keys are found from their values. -/
theorem nodup_values {m : Entries κ α} {f : α → κ} (h : ∀ k a, m.get? k = some a → f a = k) :
    m.values.Nodup :=
  List.Pairwise.of_map f (fun _ _ hne e => hne (congrArg f e)) (nodup_map_values h)

/-- One map includes another if what is found in the other is found in it. -/
theorem includes_iff [BEq α] [LawfulBEq α] (m n : Entries κ α) :
    m.includes n = true ↔ ∀ k a, n.get? k = some a → m.get? k = some a := by
  rw [includes, List.all_eq_true]
  constructor
  · intro h k a hk
    simpa using h (k, a) ((mem_toList_iff n k a).mpr hk)
  · intro h p hp
    simpa using h p.1 p.2 ((mem_toList_iff n p.1 p.2).mp hp)

/-- Two maps are the same if the same is found in both. -/
theorem same_iff [BEq α] [LawfulBEq α] (m n : Entries κ α) :
    m.same n = true ↔ ∀ k, m.get? k = n.get? k := by
  rw [same, Bool.and_eq_true, includes_iff, includes_iff]
  constructor
  · rintro ⟨h₁, h₂⟩ k
    cases hn : n.get? k with
    | some a => exact h₁ k a hn
    | none =>
      cases hm : m.get? k with
      | none => rfl
      | some a =>
        have := h₂ k a hm
        simp [hn] at this
  · intro h
    exact ⟨fun k a hk => (h k).trans hk, fun k a hk => (h k).symm.trans hk⟩

end Entries

/-- A field counts as filled if it is there and not empty. -/
theorem Fields.filled?_eq_some_iff {data : Fields} {name : String} {b : Bytes} :
    data.filled? name = some b ↔ data.get? name = some b ∧ b ≠ [] := by
  unfold filled?
  split
  · next hempty =>
    rw [hempty]
    constructor
    · intro h
      cases h
    · rintro ⟨h, hne⟩
      exact absurd (Option.some.inj h).symm hne
  · next hother =>
    constructor
    · intro h
      refine ⟨h, ?_⟩
      rintro rfl
      exact hother h
    · exact And.left

namespace Writer

/-- The two managed fields are different ones. -/
private theorem certificateField_ne_keyField : certificateField ≠ keyField := by decide

@[simp] theorem get?_setPair_certificate (certificate key : Bytes) (data : Fields) :
    (setPair certificate key data).get? certificateField = some certificate := by
  simp [setPair, certificateField_ne_keyField.symm]

@[simp] theorem get?_setPair_key (certificate key : Bytes) (data : Fields) :
    (setPair certificate key data).get? keyField = some key := by
  simp [setPair]

@[simp] theorem get?_removePair_certificate (data : Fields) :
    (removePair data).get? certificateField = none := by
  simp [removePair]

@[simp] theorem get?_removePair_key (data : Fields) : (removePair data).get? keyField = none := by
  simp [removePair]

/-- A field is a managed one if it holds a certificate or its key. -/
def IsManaged (name : String) : Prop := name = certificateField ∨ name = keyField

/-- Setting a pair leaves the other fields as they are. -/
theorem get?_setPair_of_not_isManaged (certificate key : Bytes) (data : Fields) {name : String}
    (h : ¬ IsManaged name) : (setPair certificate key data).get? name = data.get? name := by
  have hc : certificateField ≠ name := fun e => h (.inl e.symm)
  have hk : keyField ≠ name := fun e => h (.inr e.symm)
  simp [setPair, hc, hk]

/-- Removing a pair leaves the other fields as they are. -/
theorem get?_removePair_of_not_isManaged (data : Fields) {name : String} (h : ¬ IsManaged name) :
    (removePair data).get? name = data.get? name := by
  have hc : certificateField ≠ name := fun e => h (.inl e.symm)
  have hk : keyField ≠ name := fun e => h (.inr e.symm)
  simp [removePair, hc, hk]

/-- Fields that hold a pair are the same with the pair put into them. -/
theorem same_setPair {certificate key : Bytes} {data : Fields}
    (hcertificate : data.get? certificateField = some certificate)
    (hkey : data.get? keyField = some key) : (setPair certificate key data).same data := by
  rw [Entries.same_iff]
  intro name
  by_cases hmanaged : IsManaged name
  · obtain rfl | rfl := hmanaged
    · rw [get?_setPair_certificate, hcertificate]
    · rw [get?_setPair_key, hkey]
  · exact get?_setPair_of_not_isManaged _ _ _ hmanaged

end Writer

namespace MemoryStore

open Writer

/-- The certificate and the key in the fields of a record, each of them if it is there. -/
def managed? (s : MemoryStore) (id : Identity) : Option (Option Bytes × Option Bytes) :=
  (s.records.get? id).map fun r => (r.data.get? certificateField, r.data.get? keyField)

/-- A field of a record. -/
def field? (s : MemoryStore) (id : Identity) (name : String) : Option Bytes :=
  (s.records.get? id).bind fun r => r.data.get? name

/-- A record is read if it is there. -/
theorem getRecord_eq_ok_iff {s : MemoryStore} {id : Identity} {record : Record} :
    s.getRecord id = .ok record ↔ s.records.get? id = some record := by
  unfold getRecord
  cases s.records.get? id <;> simp

/-- Two stores agree but for the managed fields of one record and its version. -/
structure AgreeButPair (id : Identity) (s s' : MemoryStore) : Prop where
  records : ∀ j, j ≠ id → s'.records.get? j = s.records.get? j
  fields : ∀ name, ¬ IsManaged name → s'.field? id name = s.field? id name
  instances : s'.instances = s.instances

namespace AgreeButPair

/-- A store agrees with itself but for any pair. -/
theorem refl (id : Identity) (s : MemoryStore) : AgreeButPair id s s :=
  ⟨fun _ _ => rfl, fun _ _ => rfl, rfl⟩

/-- Agreement but for one pair carries over from store to store. -/
theorem trans {id : Identity} {s₁ s₂ s₃ : MemoryStore} (h₁ : AgreeButPair id s₁ s₂)
    (h₂ : AgreeButPair id s₂ s₃) : AgreeButPair id s₁ s₃ :=
  ⟨fun j hj => (h₂.records j hj).trans (h₁.records j hj),
    fun name hn => (h₂.fields name hn).trans (h₁.fields name hn),
    h₂.instances.trans h₁.instances⟩

/-- Of two stores that agree but for one pair, the one where that pair is there has every record of
the other one, with the same unmanaged fields. -/
theorem exists_record {id j : Identity} {s s' : MemoryStore} {r : Record}
    (h : AgreeButPair id s s') (hpair : (s'.managed? id).isSome)
    (hr : s.records.get? j = some r) :
    ∃ r', s'.records.get? j = some r' ∧
      ∀ name, ¬ IsManaged name → r'.data.get? name = r.data.get? name := by
  by_cases hj : j = id
  · subst hj
    rw [managed?, Option.isSome_map] at hpair
    obtain ⟨r', hr'⟩ := Option.isSome_iff_exists.mp hpair
    refine ⟨r', hr', fun name hn => ?_⟩
    have hfield := h.fields name hn
    rwa [field?, field?, hr', hr] at hfield
  · exact ⟨r, (h.records j hj).trans hr, fun _ _ => rfl⟩

end AgreeButPair

@[simp] theorem get?_setRecord (s : MemoryStore) (r : Record) (j : Identity) :
    (s.setRecord r).records.get? j = if r.id = j then some r else s.records.get? j := by
  simp [setRecord]

/-- What a mutation that never fails does, and its outcome. -/
theorem upsert_cases {s s' : MemoryStore} {id : Identity} {change : Fields → Fields}
    {o : Outcome} (h : s.upsert id (fun data => .ok (change data)) = (.ok o, s')) :
    (s.records.get? id = none ∧ o = .created ∧ s' = s.setRecord ⟨id, change .empty, 1⟩) ∨
    (∃ r, s.records.get? id = some r ∧ (∀ name, (change r.data).get? name = r.data.get? name) ∧
      o = .unchanged ∧ s' = s) ∨
    ∃ r, s.records.get? id = some r ∧ (¬ ∀ name, (change r.data).get? name = r.data.get? name) ∧
      o = .updated ∧ s' = s.setRecord ⟨id, change r.data, r.version + 1⟩ := by
  unfold upsert at h
  cases hr : s.records.get? id with
  | none =>
    simp only [hr, Prod.mk.injEq, Except.ok.injEq] at h
    exact .inl ⟨rfl, h.1.symm, h.2.symm⟩
  | some r =>
    simp only [hr] at h
    by_cases hsame : (change r.data).same r.data = true
    · rw [if_pos hsame] at h
      simp only [Prod.mk.injEq, Except.ok.injEq] at h
      exact .inr (.inl ⟨r, rfl, (Entries.same_iff _ _).mp hsame, h.1.symm, h.2.symm⟩)
    · rw [if_neg hsame] at h
      simp only [Prod.mk.injEq, Except.ok.injEq] at h
      exact .inr (.inr ⟨r, rfl, fun he => hsame ((Entries.same_iff _ _).mpr he), h.1.symm,
        h.2.symm⟩)

/-- A mutation that never fails is always carried out. -/
theorem exists_upsert_eq_ok (s : MemoryStore) (id : Identity) (change : Fields → Fields) :
    ∃ o s', s.upsert id (fun data => .ok (change data)) = (.ok o, s') := by
  unfold upsert
  cases s.records.get? id with
  | none => exact ⟨_, _, rfl⟩
  | some r =>
    by_cases hsame : (change r.data).same r.data = true
    · exact ⟨.unchanged, s, by simp only [if_pos hsame]⟩
    · exact ⟨.updated, _, by simp only [if_neg hsame]; rfl⟩

/-- An upsert stores nothing, or a record with the given identity and a positive version. -/
theorem upsert_stores (m : MemoryStore) (k : Identity) (change : Mutation) :
    (m.upsert k change).2 = m ∨ ∃ r, (m.upsert k change).2 = m.setRecord r ∧ r.id = k ∧
      (r.version = 1 ∨ ∃ r₀, m.records.get? k = some r₀ ∧ r.version = r₀.version + 1) := by
  unfold upsert
  cases hget : m.records.get? k with
  | none =>
    dsimp only
    cases change .empty with
    | error e => exact .inl rfl
    | ok data => exact .inr ⟨_, rfl, rfl, .inl rfl⟩
  | some r₀ =>
    dsimp only
    cases change r₀.data with
    | error e => exact .inl rfl
    | ok data =>
      dsimp only
      split
      · exact .inl rfl
      · exact .inr ⟨_, rfl, rfl, .inr ⟨r₀, rfl, rfl⟩⟩

/-- A mutation that fails leaves a store in memory as it is. -/
theorem upsert_error {m : MemoryStore} {k : Identity} {change : Mutation} {e : Failure}
    (h : (m.upsert k change).1 = .error e) : (m.upsert k change).2 = m := by
  unfold upsert at h ⊢
  cases hget : m.records.get? k with
  | none =>
    rw [hget] at h
    dsimp only at h ⊢
    cases hchange : change .empty with
    | error e => rfl
    | ok data => simp [hchange] at h
  | some r₀ =>
    rw [hget] at h
    dsimp only at h ⊢
    cases hchange : change r₀.data with
    | error e => rfl
    | ok data =>
      rw [hchange] at h
      dsimp only at h ⊢
      split at h
      · cases h
      · cases h

/-- Whatever comes of an upsert of one record, a store in memory has the others as before. -/
theorem get?_upsert_of_ne (m : MemoryStore) {k j : Identity} (h : j ≠ k)
    (change : Mutation) : (m.upsert k change).2.records.get? j = m.records.get? j := by
  rcases m.upsert_stores k change with hsame | ⟨r, hset, rfl, -⟩
  · rw [hsame]
  · rw [hset, get?_setRecord, if_neg h.symm]

/-- An upsert leaves the instances alone. -/
theorem upsert_instances (m : MemoryStore) (k : Identity) (change : Mutation) :
    (m.upsert k change).2.instances = m.instances := by
  rcases m.upsert_stores k change with hsame | ⟨r, hset, -⟩
  · rw [hsame]
  · rw [hset]
    rfl

section Upsert

variable {s s' : MemoryStore} {id : Identity} {change : Fields → Fields} {o : Outcome}

/-- A record is new after an upsert if and only if there was none. -/
theorem upsert_created_iff (h : s.upsert id (fun data => .ok (change data)) = (.ok o, s')) :
    o = .created ↔ s.records.get? id = none := by
  rcases upsert_cases h with ⟨hr, rfl, _⟩ | ⟨r, hr, _, rfl, _⟩ | ⟨r, hr, _, rfl, _⟩ <;> simp [hr]

/-- An upsert that reports no change has made none. -/
theorem upsert_unchanged (h : s.upsert id (fun data => .ok (change data)) = (.ok .unchanged, s')) :
    s' = s := by
  rcases upsert_cases h with ⟨_, ho, _⟩ | ⟨_, _, _, _, hs⟩ | ⟨_, _, _, ho, _⟩
  · cases ho
  · exact hs
  · cases ho

/-- After an upsert the record holds what the mutation makes of its former fields. -/
theorem upsert_data (h : s.upsert id (fun data => .ok (change data)) = (.ok o, s')) :
    ∃ r data, s'.records.get? id = some r ∧ (s.records.get? id).map Record.data = data ∧
      ∀ name, r.data.get? name = (change (data.getD .empty)).get? name := by
  rcases upsert_cases h with ⟨hr, _, rfl⟩ | ⟨r, hr, hsame, _, rfl⟩ | ⟨r, hr, _, _, rfl⟩
  · exact ⟨_, _, (get?_setRecord _ _ _).trans (if_pos rfl), rfl, by simp [hr]⟩
  · exact ⟨r, _, hr, rfl, by simp [hr, hsame]⟩
  · exact ⟨_, _, (get?_setRecord _ _ _).trans (if_pos rfl), rfl, by simp [hr]⟩

/-- An upsert that leaves all other fields alone changes nothing but the managed fields. -/
theorem upsert_agreeButPair
    (hchange : ∀ data name, ¬ IsManaged name → (change data).get? name = data.get? name)
    (h : s.upsert id (fun data => .ok (change data)) = (.ok o, s')) : AgreeButPair id s s' := by
  have hfields : ∀ name, ¬ IsManaged name → s'.field? id name = s.field? id name := by
    intro name hn
    obtain ⟨r, data, hr, hd, hdata⟩ := upsert_data h
    rw [field?, field?, hr, Option.bind_some, hdata, hchange _ _ hn, ← hd]
    cases s.records.get? id <;> simp
  rcases upsert_cases h with ⟨_, _, rfl⟩ | ⟨_, _, _, _, rfl⟩ | ⟨_, _, _, _, rfl⟩
  · exact ⟨fun j hj => by simp [Ne.symm hj], hfields, rfl⟩
  · exact ⟨fun _ _ => rfl, hfields, rfl⟩
  · exact ⟨fun j hj => by simp [Ne.symm hj], hfields, rfl⟩

/-- A pair is there after it has been written. -/
theorem managed?_upsert_setPair {certificate key : Bytes}
    (h : s.upsert id (fun data => .ok (setPair certificate key data)) = (.ok o, s')) :
    s'.managed? id = some (some certificate, some key) := by
  obtain ⟨r, data, hr, _, hdata⟩ := upsert_data h
  simp [managed?, hr, hdata]

/-- No pair is there after it has been removed. -/
theorem managed?_upsert_removePair
    (h : s.upsert id (fun data => .ok (removePair data)) = (.ok o, s')) :
    s'.managed? id = some (none, none) := by
  obtain ⟨r, data, hr, _, hdata⟩ := upsert_data h
  simp [managed?, hr, hdata]

end Upsert

section SetPair

variable {s : MemoryStore} {id : Identity} {record : Record} {certificate key : Bytes}

/-- Writing the pair that a record holds changes nothing. -/
theorem upsert_setPair_same (hrecord : s.records.get? id = some record)
    (hcertificate : record.data.get? certificateField = some certificate)
    (hkey : record.data.get? keyField = some key) :
    s.upsert id (fun data => .ok (setPair certificate key data)) = (.ok .unchanged, s) := by
  rw [upsert, hrecord]
  exact if_pos (same_setPair hcertificate hkey)

/-- Writing another pair than the one that a record holds makes a new version of the record. -/
theorem upsert_setPair_other (hrecord : s.records.get? id = some record)
    (hother : s.managed? id ≠ some (some certificate, some key)) :
    s.upsert id (fun data => .ok (setPair certificate key data)) =
      (.ok .updated,
        s.setRecord ⟨id, setPair certificate key record.data, record.version + 1⟩) := by
  have hdiffers : ¬ (setPair certificate key record.data).same record.data := by
    rw [Entries.same_iff]
    intro hsame
    apply hother
    rw [managed?, hrecord, Option.map_some, ← hsame, ← hsame, get?_setPair_certificate,
      get?_setPair_key]
  rw [upsert, hrecord]
  exact if_neg hdiffers

end SetPair

end MemoryStore

end CertKeeper
