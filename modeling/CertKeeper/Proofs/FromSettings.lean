import CertKeeper.Pass

/-!
# What passes have from settings

Settings that are accepted ask for a positive lifetime and for keys of at least 2048 bits, and the
reconciler that they ask for has what they say.
-/

namespace CertKeeper

namespace Settings

/-! ## Reading what is given -/

variable {α : Type} {found : Option Json} {read : Json → Except ComplaintKind α} {missing x : α}
  {f : Field} {v : Values} {host : String} {s : Settings}

/-- The value of a setting: what was found and read, or what it is where nothing is found. -/
def Gives (found : Option Json) (read : Json → Except ComplaintKind α) (missing x : α) : Prop :=
  (found = none ∧ x = missing) ∨ ∃ j, found = some j ∧ read j = .ok x

/-- The value of a setting that is found is what is read. -/
theorem Gives.read_eq {j : Json} (h : Gives (some j) read missing x) : read j = .ok x := by
  obtain ⟨⟨⟩, -⟩ | ⟨_, ⟨⟩, hread⟩ := h
  exact hread

/-- A setting has a value unless what was found cannot be read. -/
theorem exists_gives_iff :
    (∃ x, Gives found read missing x) ↔ ∀ j, found = some j → ∃ x, read j = .ok x := by
  constructor
  · rintro ⟨x, ⟨rfl, -⟩ | ⟨j, rfl, hread⟩⟩
    · nofun
    · rintro _ ⟨⟩
      exact ⟨x, hread⟩
  · intro h
    cases found with
    | none => exact ⟨missing, .inl ⟨rfl, rfl⟩⟩
    | some j =>
      obtain ⟨x, hread⟩ := h j rfl
      exact ⟨x, .inr ⟨j, rfl, hread⟩⟩

/-- A setting that is accepted has that value. -/
theorem read_eq_ok_iff :
    v.read f missing read = .ok x ↔ Gives ((v.value? f).map Prod.snd) read missing x := by
  unfold Values.read Gives
  cases v.value? f with
  | none => simp [eq_comm]
  | some r => cases hread : read r.2 <;> simp [hread]

/-- A value that is checked after it was read is the one that was read, if that passes. -/
theorem gives_check_iff {check : α → Except ComplaintKind α} {P : α → Prop}
    (hcheck : ∀ n m, check n = .ok m ↔ n = m ∧ P m) (hmissing : P missing) :
    Gives found (read · >>= check) missing x ↔ Gives found read missing x ∧ P x := by
  have hbind (j : Json) : (read j >>= check) = .ok x ↔ read j = .ok x ∧ P x := by
    cases hread : read j with
    | error kind => exact iff_of_false nofun nofun
    | ok n =>
      change check n = .ok x ↔ _
      rw [hcheck, Except.ok.injEq]
  simp only [Gives, hbind]
  constructor
  · rintro (⟨hnone, rfl⟩ | ⟨j, hj, hread, hx⟩)
    · exact ⟨.inl ⟨hnone, rfl⟩, hmissing⟩
    · exact ⟨.inr ⟨j, hj, hread⟩, hx⟩
  · rintro ⟨hnone | ⟨j, hj, hread⟩, hx⟩
    · exact .inl hnone
    · exact .inr ⟨j, hj, hread, hx⟩

/-- A number of hours is accepted if and only if it is positive. -/
theorem checkHours_eq_ok_iff (n m : Int) : checkHours n = .ok m ↔ n = m ∧ 0 < m := by
  unfold checkHours
  split <;> simp <;> omega

/-- A number of bits is accepted if and only if it is at least 2048. -/
theorem checkBits_eq_ok_iff (n m : Int) : checkBits n = .ok m ↔ n = m ∧ 2048 ≤ m := by
  unfold checkBits
  split <;> simp <;> omega

/-- Settings are accepted if each of them is. -/
theorem ofValues_eq_ok_iff : ofValues v host = .ok s ↔
    v.read (sharedField "namespace" "NAMESPACE") "default" readText = .ok s.space ∧
    v.read (sharedField "hostname" "HOSTNAME") host readText = .ok s.hostname ∧
    v.read (ownField "tls_record_name") "tls" readText = .ok s.servingRecord ∧
    v.read (ownField "ca_record_name") "ca" readText = .ok s.authorityRecord ∧
    v.read (ownField "service_name") "webhook-service" readText = .ok s.service ∧
    v.read (ownField "certificate_lifetime_hours") 4320 (readNumber · >>= checkHours) =
      .ok s.lifetimeHours ∧
    v.read (ownField "key_size") 2048 (readNumber · >>= checkBits) = .ok s.keyBits := by
  unfold ofValues
  dsimp only
  constructor
  · intro h
    split at h
    · next hspace hhostname hserving hauthority hservice hhours hbits =>
      cases h
      exact ⟨hspace, hhostname, hserving, hauthority, hservice, hhours, hbits⟩
    · cases h
  · rintro ⟨hspace, hhostname, hserving, hauthority, hservice, hhours, hbits⟩
    rw [hspace, hhostname, hserving, hauthority, hservice, hhours, hbits]

/-- Settings that are accepted have a positive lifetime and keys that are long enough. -/
theorem bounds_of_ofValues (h : ofValues v host = .ok s) :
    0 < s.lifetimeHours ∧ 2048 ≤ s.keyBits := by
  obtain ⟨-, -, -, -, -, hhours, hbits⟩ := ofValues_eq_ok_iff.mp h
  rw [read_eq_ok_iff, gives_check_iff checkHours_eq_ok_iff (by decide)] at hhours
  rw [read_eq_ok_iff, gives_check_iff checkBits_eq_ok_iff (by decide)] at hbits
  exact ⟨hhours.2, hbits.2⟩

end Settings

/-! ## The reconciler of settings -/

/-- The lifetime of issued certificates is the one that settings ask for. -/
theorem Reconciler.lifetime_of_ofSettings {s : Settings} {r : Reconciler}
    (h : ofSettings s = .ok r) : s.lifetime? = .ok r.lifetime := by
  unfold ofSettings at h
  cases hlifetime : s.lifetime? with
  | error e =>
    rw [hlifetime] at h
    cases h
  | ok lifetime =>
    rw [hlifetime] at h
    cases h
    rfl

/-- The reconciler that settings ask for. -/
theorem Reconciler.ofSettings_eq_ok {s : Settings} {r : Reconciler} (h : ofSettings s = .ok r) :
    r = { resolve := SelfSigned.toAuthority <$> resolveAuthority s.authorityId s.keyBits
          dnsName := s.dnsName
          reserved := s.servingId
          self := s.selfId
          lifetime := ⟨s.lifetimeHours * Span.microsPerHour⟩ } := by
  unfold ofSettings Settings.lifetime? Span.ofHours? at h
  cases hspan : Span.ofMicros? (s.lifetimeHours * Span.microsPerHour) with
  | error e =>
    rw [hspan] at h
    cases h
  | ok lifetime =>
    rw [hspan] at h
    cases h
    unfold Span.ofMicros? at hspan
    dsimp only at hspan
    split at hspan
    · cases hspan
    split at hspan
    · cases hspan
    · cases hspan
      rfl

end CertKeeper
