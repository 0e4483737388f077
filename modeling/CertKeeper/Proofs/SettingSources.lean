import CertKeeper.Proofs.InterleavedPasses
import CertKeeper.Proofs.SettingNumbers
import Mathlib.Data.List.Induction

/-!
# Where settings come from

A setting has the value that the first source gives it: the call, the environment, the environment
file. Within a source the variable of this program comes before a plain one, and of variables it
does not matter in which case their names are written. That is said here with nothing but the three
maps (`Settings.Origins`), and settings are made so (`Settings.resolve_priority`). All that the
reconciler of settings deals with is in the one namespace that they have got so.
-/

namespace CertKeeper

open CertKeeper.Action

/-- What is found in a map that was made of pairs is the last pair with the key. -/
private theorem Entries.get?_ofList {κ α : Type} [DecidableEq κ] (l : List (κ × α)) (k : κ) :
    (ofList l).get? k = (l.reverse.find? fun p => p.1 = k).map Prod.snd := by
  induction l using List.reverseRecOn with
  | nil => rfl
  | append_singleton l p ih =>
    rw [ofList, List.foldl_append, List.reverse_append, List.reverse_singleton,
      List.singleton_append, List.find?_cons]
    change ((ofList l).set p.1 p.2).get? k = _
    rw [get?_set, ih]
    by_cases hp : p.1 = k
    · simp [hp]
    · simp [hp]

namespace Settings

open Text

variable {α : Type} {f : Field} {host : String} {s : Settings}

/-! ## Names in any case -/

/-- The value of a variable, in whatever case its name is written; of several values the last
one. -/
def getAnyCase? (values : Entries String α) (name : String) : Option α :=
  (values.toList.reverse.find? fun p => lowerName p.1 = lowerName name).map Prod.snd

/-- A variable is found under its name in lower case where all names are lowered. -/
private theorem get?_lowered (values : Entries String α) (name : String) :
    (lowered values).get? (lowerName name) = getAnyCase? values name := by
  rw [lowered, Entries.get?_ofList, ← List.map_reverse, List.find?_map, Option.map_map]
  rfl

/-! ## The first source -/

/-- The maps that settings come from, with the names of variables as they are written. -/
structure Origins where
  /-- The values given in the call. -/
  given : Entries String Json
  /-- The variables of the environment. -/
  environment : Entries String String
  /-- The variables of the environment file, some of which may have no value. -/
  file : Entries String (Option String)

namespace Origins

variable (o : Origins)

/-- The values of the sources, the variables under names in lower case. -/
def values : Values := ⟨o.given, lowered o.environment, lowered o.file⟩

/-- The text of the first of several variables that is set in the environment, or else of the first
that is set in the environment file. -/
def text? (names : List String) : Option String :=
  (names.findSome? (getAnyCase? o.environment)).or
    (names.findSome? fun name => (getAnyCase? o.file name).join)

/-- What the first source gives: the call under one of some names, or else some variables. -/
def first? (names variableNames : List String) : Option Json :=
  (names.findSome? o.given.get?).or ((o.text? variableNames).map .text)

/-- What is given for a setting that has a variable of this program and a plain one; in the call it
may be given under their names, too. -/
def shared? (name plain : String) : Option Json :=
  o.first? ["TLS_RECONCILER_" ++ plain, plain, name] ["TLS_RECONCILER_" ++ plain, plain]

/-- What is given for a setting that has a variable of this program only. -/
def own? (name : String) : Option Json := o.first? [name] ["TLS_RECONCILER_" ++ name]

end Origins

/-- What is found under the first of several names. -/
theorem firstOf_eq (find : String → Option α) (names : List String) :
    (firstOf find names).map Prod.snd = names.findSome? find := by
  induction names with
  | nil => rfl
  | cons n names ih =>
    rw [firstOf, List.findSome?_cons]
    cases find n with
    | none => exact ih
    | some a => rfl

/-- What maps hold for a setting is what the first source gives. -/
theorem Origins.value?_values (o : Origins) {names : List String}
    (hnames : f.variableNames = names.map lowerName) :
    (o.values.value? f).map Prod.snd = o.first? f.givenNames names := by
  have hgiven := firstOf_eq o.given.get? f.givenNames
  have henvironment := firstOf_eq (lowered o.environment).get? f.variableNames
  have hfile := firstOf_eq (fun n => ((lowered o.file).get? n).join) f.variableNames
  simp only [hnames, List.findSome?_map, Function.comp_def, get?_lowered] at henvironment hfile
  rw [first?, text?, ← hgiven, ← henvironment, ← hfile, Values.value?, values, hnames]
  dsimp only
  cases firstOf o.given.get? f.givenNames with
  | some r => rfl
  | none =>
    cases firstOf (lowered o.environment).get? (names.map lowerName) with
    | some r => rfl
    | none =>
      cases firstOf (fun n => ((lowered o.file).get? n).join) (names.map lowerName) <;> rfl

/-! ## What settings have from the first source -/

namespace Origins

variable (o : Origins)

/-- Settings that have what the first source gives for each of them, or else the value that a
setting has where none gives it. -/
structure Chosen (host : String) (s : Settings) : Prop where
  space : Gives (o.shared? "namespace" "NAMESPACE") readText "default" s.space
  hostname : Gives (o.shared? "hostname" "HOSTNAME") readText host s.hostname
  servingRecord : Gives (o.own? "tls_record_name") readText "tls" s.servingRecord
  authorityRecord : Gives (o.own? "ca_record_name") readText "ca" s.authorityRecord
  service : Gives (o.own? "service_name") readText "webhook-service" s.service
  lifetimeHours : Gives (o.own? "certificate_lifetime_hours") readNumber 4320 s.lifetimeHours
  keyBits : Gives (o.own? "key_size") readNumber 2048 s.keyBits
  positive : 0 < s.lifetimeHours
  long : 2048 ≤ s.keyBits

/-- What is given for settings that are texts. -/
def texts : List (Option Json) :=
  [o.shared? "namespace" "NAMESPACE", o.shared? "hostname" "HOSTNAME", o.own? "tls_record_name",
    o.own? "ca_record_name", o.own? "service_name"]

/-- What is given for settings that are numbers. -/
def numbers : List (Option Json) := [o.own? "certificate_lifetime_hours", o.own? "key_size"]

/-- Why there are no settings: what the call gives for a text is none, what is given for a number is
none, the lifetime is not positive, or the keys are too short. -/
inductive Refused : Prop
  | noText {name : String} {j : Json} (given : o.given.get? name = some j)
      (found : some j ∈ o.texts) (other : ∀ t, j ≠ .text t)
  | noNumber {j : Json} (found : some j ∈ o.numbers) (unreadable : ∀ n, readNumber j ≠ .ok n)
  | lifetime {j : Json} {n : Int} (found : o.own? "certificate_lifetime_hours" = some j)
      (read : readNumber j = .ok n) (tooShort : n ≤ 0)
  | key {j : Json} {n : Int} (found : o.own? "key_size" = some j) (read : readNumber j = .ok n)
      (tooShort : n < 2048)

variable {o}

/-- Settings that are accepted are the ones that the first sources give. -/
theorem ofValues_eq_ok_iff_chosen : ofValues o.values host = .ok s ↔ o.Chosen host s := by
  have hshared (name plain : String) (hnames : (sharedField name plain).variableNames =
      ["TLS_RECONCILER_" ++ plain, plain].map lowerName) :
      (o.values.value? (sharedField name plain)).map Prod.snd = o.shared? name plain :=
    o.value?_values hnames
  have hown (name : String) (hnames : (ownField name).variableNames =
      ["TLS_RECONCILER_" ++ name].map lowerName) :
      (o.values.value? (ownField name)).map Prod.snd = o.own? name :=
    o.value?_values hnames
  rw [ofValues_eq_ok_iff]
  simp only [read_eq_ok_iff]
  rw [hshared "namespace" "NAMESPACE" (by decide +kernel),
    hshared "hostname" "HOSTNAME" (by decide +kernel), hown "tls_record_name" (by decide +kernel),
    hown "ca_record_name" (by decide +kernel), hown "service_name" (by decide +kernel),
    hown "certificate_lifetime_hours" (by decide +kernel), hown "key_size" (by decide +kernel),
    gives_check_iff checkHours_eq_ok_iff (by decide),
    gives_check_iff checkBits_eq_ok_iff (by decide)]
  constructor
  · rintro ⟨hspace, hhostname, hserving, hauthority, hservice, ⟨hhours, hpositive⟩, hbits, hlong⟩
    exact ⟨hspace, hhostname, hserving, hauthority, hservice, hhours, hbits, hpositive, hlong⟩
  · rintro ⟨hspace, hhostname, hserving, hauthority, hservice, hhours, hbits, hpositive, hlong⟩
    exact ⟨hspace, hhostname, hserving, hauthority, hservice, ⟨hhours, hpositive⟩, hbits, hlong⟩

/-- What the first source gives is a text unless it comes from the call. -/
private theorem exists_given_of_first? {names variableNames : List String} {j : Json}
    (h : o.first? names variableNames = some j) (hother : ∀ t, j ≠ .text t) :
    ∃ name, o.given.get? name = some j := by
  rw [first?] at h
  cases hgiven : names.findSome? o.given.get? with
  | some j' =>
    rw [hgiven] at h
    cases h
    obtain ⟨name, -, hname⟩ := List.exists_of_findSome?_eq_some hgiven
    exact ⟨name, hname⟩
  | none =>
    rw [hgiven, Option.none_or, Option.map_eq_some_iff] at h
    obtain ⟨t, -, rfl⟩ := h
    exact absurd rfl (hother t)

/-- Where nothing is refused a text has a value. -/
theorem exists_text (h : ¬ o.Refused) (found : Option Json) (hfound : found ∈ o.texts)
    (missing : String) : ∃ x, Gives found readText missing x := by
  refine exists_gives_iff.mpr ?_
  rintro j rfl
  by_contra hno
  have hother (t : String) : j ≠ .text t := by
    rintro rfl
    exact hno ⟨t, rfl⟩
  obtain ⟨name, hname⟩ : ∃ name, o.given.get? name = some j := by
    simp only [texts, List.mem_cons, List.not_mem_nil, or_false] at hfound
    rcases hfound with hfound | hfound | hfound | hfound | hfound <;>
      exact exists_given_of_first? hfound.symm hother
  exact h (.noText hname hfound hother)

/-- Where nothing is refused a number has a value. -/
theorem exists_number (h : ¬ o.Refused) (found : Option Json) (hfound : found ∈ o.numbers)
    (missing : Int) : ∃ n, Gives found readNumber missing n := by
  refine exists_gives_iff.mpr ?_
  rintro j rfl
  by_contra hno
  exact h (.noNumber hfound fun n hread => hno ⟨n, hread⟩)

/-- Sources give settings where nothing is refused. -/
private theorem exists_chosen (h : ¬ o.Refused) (host : String) : ∃ s, o.Chosen host s := by
  obtain ⟨space, hspace⟩ :=
    exists_text h (o.shared? "namespace" "NAMESPACE") (by simp [texts]) "default"
  obtain ⟨hostname, hhostname⟩ :=
    exists_text h (o.shared? "hostname" "HOSTNAME") (by simp [texts]) host
  obtain ⟨serving, hserving⟩ := exists_text h (o.own? "tls_record_name") (by simp [texts]) "tls"
  obtain ⟨authority, hauthority⟩ := exists_text h (o.own? "ca_record_name") (by simp [texts]) "ca"
  obtain ⟨service, hservice⟩ :=
    exists_text h (o.own? "service_name") (by simp [texts]) "webhook-service"
  obtain ⟨hours, hhours⟩ :=
    exists_number h (o.own? "certificate_lifetime_hours") (by simp [numbers]) 4320
  obtain ⟨bits, hbits⟩ := exists_number h (o.own? "key_size") (by simp [numbers]) 2048
  refine ⟨⟨space, hostname, serving, authority, service, hours, bits⟩, hspace, hhostname, hserving,
    hauthority, hservice, hhours, hbits, ?_, ?_⟩
  · dsimp only
    by_contra hshort
    obtain ⟨-, rfl⟩ | ⟨j, hj, hread⟩ := hhours
    · exact hshort (by decide)
    · exact h (.lifetime hj hread (Int.not_lt.mp hshort))
  · dsimp only
    by_contra hshort
    obtain ⟨-, rfl⟩ | ⟨j, hj, hread⟩ := hbits
    · exact hshort (by decide)
    · exact h (.key hj hread (Int.not_le.mp hshort))

/-- Sources give no settings where something is refused. -/
private theorem Refused.not_chosen (h : o.Refused) : ¬ o.Chosen host s := by
  intro hs
  cases h with
  | @noText name j given found other =>
    have hread {x : String} (hx : readText j = .ok x) : False := by
      cases j with
      | text t => exact other t rfl
      | _ => cases hx
    simp only [texts, List.mem_cons, List.not_mem_nil, or_false] at found
    rcases found with found | found | found | found | found
    · exact hread (Gives.read_eq (found ▸ hs.space))
    · exact hread (Gives.read_eq (found ▸ hs.hostname))
    · exact hread (Gives.read_eq (found ▸ hs.servingRecord))
    · exact hread (Gives.read_eq (found ▸ hs.authorityRecord))
    · exact hread (Gives.read_eq (found ▸ hs.service))
  | noNumber found unreadable =>
    simp only [numbers, List.mem_cons, List.not_mem_nil, or_false] at found
    rcases found with found | found
    · exact unreadable _ (Gives.read_eq (found ▸ hs.lifetimeHours))
    · exact unreadable _ (Gives.read_eq (found ▸ hs.keyBits))
  | lifetime found read tooShort =>
    have hread := Gives.read_eq (found ▸ hs.lifetimeHours)
    rw [read] at hread
    cases hread
    exact Int.not_lt.mpr tooShort hs.positive
  | key found read tooShort =>
    have hread := Gives.read_eq (found ▸ hs.keyBits)
    rw [read] at hread
    cases hread
    exact Int.not_le.mpr tooShort hs.long

/-- Sources give no settings if and only if something in them is refused. -/
private theorem exists_error_iff_refused :
    (∃ complaints, ofValues o.values host = .error complaints) ↔ o.Refused := by
  cases hvalues : ofValues o.values host with
  | error complaints =>
    refine iff_of_true ⟨complaints, rfl⟩ ?_
    by_contra h
    obtain ⟨s, hs⟩ := exists_chosen h host
    rw [ofValues_eq_ok_iff_chosen.mpr hs] at hvalues
    cases hvalues
  | ok s =>
    refine iff_of_false nofun fun h => ?_
    exact h.not_chosen (ofValues_eq_ok_iff_chosen.mp hvalues)

end Origins

/-- Where the environment file can be read, settings are those of the three maps. -/
private theorem resolve_eq {given : Entries String Json} {environment : Entries String String}
    {octets : Bytes} {text : String} (htext : Utf8.decode octets = .ok text) :
    resolve ⟨given, environment, octets, host⟩ =
      (ofValues (Origins.mk given environment (Dotenv.read environment text)).values host).mapError
        .complaints := by
  rw [resolve, Sources.values, htext]
  rfl

end Settings

/-! ## One namespace -/

/-- What a pass for a record may ask of the store: the record itself, the authority's record in the
namespace of settings, and, if the record is the serving one in that namespace, the executing
instance there and what its restart comes to. -/
def Store.Request.OfSettings (s : Settings) (id : Identity) : Store.Request → Prop
  | getRecord j => j = id ∨ j = ⟨s.space, s.authorityRecord⟩
  | upsert j _ => j = id
  | getInstance j => id = ⟨s.space, s.servingRecord⟩ ∧ j = ⟨s.space, s.hostname⟩
  | listInstances _ _ | deleteInstance _ => id = ⟨s.space, s.servingRecord⟩

/-- The passes of settings ask for nothing else. -/
private theorem Reconciler.asks_reconcile_ofSettings {s : Settings} {r : Reconciler}
    (h : ofSettings s = .ok r) (id : Identity) (now : Option Moment) :
    Asks (World.StoreOnly (Store.Request.OfSettings s id)) (r.reconcile id now) := by
  have hr := ofSettings_eq_ok h
  refine r.asks_reconcile_of ?_ (.inl rfl) (fun _ => rfl) (fun hrestarts => ?_) now
  · refine (asks_resolve_ofSettings r h).mono fun q hq => ?_
    rw [hq]
    exact .inr rfl
  · rw [hr] at hrestarts ⊢
    refine (asks_restart_self _).mono fun q hq => ?_
    cases q with
    | getInstance j => exact ⟨hrestarts, hq⟩
    | listInstances | deleteInstance => exact hrestarts
    | getRecord | upsert => cases hq

namespace Settings

open Text

/-- Settings are what the first of the call, the environment and the environment file gives, in
which a plain variable stands after the one of this program, or there are none because something is
refused. What is read as a number is a number itself, its decimal text being one that is read. The
reconciler of settings has the serving record, the record of the authority, the DNS name and the
executing instance from their one namespace, and its passes ask for nothing else. -/
theorem resolve_priority (o : Origins) (host : String) :
    (∀ octets text, Utf8.decode octets = .ok text → Dotenv.read o.environment text = o.file →
      resolve ⟨o.given, o.environment, octets, host⟩ =
        (ofValues o.values host).mapError .complaints) ∧
    ((∃ complaints, ofValues o.values host = .error complaints) ↔ o.Refused) ∧
    (∀ n : Int, readNumber (.number (.integer n)) = .ok n ∧
      ((toString n).length ≤ maxNumberLength → readNumber (.text (toString n)) = .ok n)) ∧
    (∀ j n, readNumber j = .ok n → StandsFor j n) ∧
    ∀ s, (ofValues o.values host = .ok s ↔ o.Chosen host s) ∧
      ∀ r, Reconciler.ofSettings s = .ok r →
        r.reserved = ⟨s.space, s.servingRecord⟩ ∧ r.self = ⟨s.space, s.hostname⟩ ∧
        r.dnsName = serviceDnsName s.service s.space ∧
        r.resolve = SelfSigned.toAuthority <$>
          resolveAuthority ⟨s.space, s.authorityRecord⟩ s.keyBits ∧
        ∀ id now, Asks (World.StoreOnly (Store.Request.OfSettings s id)) (r.reconcile id now) := by
  refine ⟨?_, Origins.exists_error_iff_refused, fun n => ⟨rfl, readNumber_toString n⟩,
    fun j n => standsFor_of_readNumber, fun s => ⟨Origins.ofValues_eq_ok_iff_chosen, ?_⟩⟩
  · intro octets text htext hfile
    rw [resolve_eq htext, hfile]
  · intro r hr
    have hparts := Reconciler.ofSettings_eq_ok hr
    refine ⟨?_, ?_, ?_, ?_, Reconciler.asks_reconcile_ofSettings hr⟩ <;> rw [hparts] <;> rfl

/-- Maps with a plain variable in the environment and that of this program in the environment
file. -/
def Origins.plainFirst : Origins where
  given := .empty
  environment := .ofList [("Namespace", "plain")]
  file := .ofList [("TLS_RECONCILER_NAMESPACE", some "own")]

private theorem Origins.chosen_plainFirst : plainFirst.Chosen "server"
    ⟨"plain", "server", "tls", "ca", "webhook-service", 4320, 2048⟩ := by
  have hnames : ["Namespace", "NAMESPACE", "TLS_RECONCILER_NAMESPACE", "HOSTNAME",
      "TLS_RECONCILER_HOSTNAME", "TLS_RECONCILER_tls_record_name", "TLS_RECONCILER_ca_record_name",
      "TLS_RECONCILER_service_name", "TLS_RECONCILER_certificate_lifetime_hours",
      "TLS_RECONCILER_key_size"].map lowerName = ["namespace", "namespace",
      "tls_reconciler_namespace", "hostname", "tls_reconciler_hostname",
      "tls_reconciler_tls_record_name", "tls_reconciler_ca_record_name",
      "tls_reconciler_service_name", "tls_reconciler_certificate_lifetime_hours",
      "tls_reconciler_key_size"] := by decide +kernel
  simp only [List.map_cons, List.cons.injEq] at hnames
  have hgiven (name : String) : plainFirst.given.get? name = none := rfl
  have henvironment : plainFirst.environment.toList = [("Namespace", "plain")] := rfl
  have hfile : plainFirst.file.toList = [("TLS_RECONCILER_NAMESPACE", some "own")] := rfl
  constructor <;>
    simp [shared?, own?, first?, text?, getAnyCase?, hgiven, henvironment, hfile, hnames, Gives,
      readText]

/-- With these maps the plain variable counts, for all that the reconciler deals with. -/
theorem resolve_priority_plain :
    ∃ s r, ofValues Origins.plainFirst.values "server" = .ok s ∧
      Reconciler.ofSettings s = .ok r ∧ r.reserved = ⟨"plain", "tls"⟩ ∧
      r.self = ⟨"plain", "server"⟩ ∧ r.dnsName = "webhook-service.plain.svc" := by
  let s : Settings := ⟨"plain", "server", "tls", "ca", "webhook-service", 4320, 2048⟩
  obtain ⟨r, hr⟩ : ∃ r, Reconciler.ofSettings s = .ok r := ⟨_, rfl⟩
  obtain ⟨hvalues, hwired⟩ := (resolve_priority .plainFirst "server").2.2.2.2 s
  obtain ⟨hreserved, hself, hname, -⟩ := hwired r hr
  exact ⟨s, r, hvalues.mpr Origins.chosen_plainFirst, hr, hreserved, hself, hname⟩

end Settings

end CertKeeper
