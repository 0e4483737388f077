import CertKeeper.Proofs.StoreContents
import CertKeeper.Proofs.StoreLooks

/-!
# Records on a disk that holds a store

At every moment of an upsert the disk holds what a store in memory has before it or after it
(`Holds.always_upsert`), and reading a record gives what is held of it
(`Holds.runWith_getRecord`).
-/

namespace CertKeeper

open DirectoryStore (recordNames safeName Tidy Midway Upserted)
open Disk (IsName Watch service)
open CertKeeper.Action (Always runWith runWith_bind_eq_ok)

variable {base : Disk.Path} {B : List String} {m : MemoryStore} {d d' : Disk} {id k : Identity}
variable {s : DirectoryStore} {F : Prop} {w' : Watch} {change : Mutation}

/-! ## Records -/

/-- Some record that an upsert comes to has no files. -/
def Unfit (m : MemoryStore) (k : Identity) (change : Mutation) : Prop :=
  ∃ r, (m.upsert k change).2.records.get? k = some r ∧ ¬ r.Fits

/-- What an upsert comes to has its identity and a positive version, as everything that is held. -/
theorem Holds.recordKey_upsert (hold : Holds base B m d) {r : Record}
    (hr : (m.upsert k change).2.records.get? k = some r) : r.id = k ∧ 0 < r.version := by
  rcases m.upsert_stores k change with hsame | ⟨r', hset, hkey, hversion⟩
  · rw [hsame] at hr
    exact hold.recordKey k r hr
  · rw [hset, MemoryStore.get?_setRecord, if_pos hkey] at hr
    cases hr
    refine ⟨hkey, ?_⟩
    rcases hversion with hone | ⟨r₀, hr₀, hnext⟩
    · omega
    · have := (hold.recordKey k r₀ hr₀).2
      omega

/-- What an upsert leaves of the store, when it has been stopped. -/
theorem Holds.upsert (hold : Holds base B m d) (hid : id.IsRegular) {moved : Bool}
    (h : Midway base B (recordNames id) m id.safe change ⟨d, false⟩ ⟨d', moved⟩) :
    Holds base B (if moved then (m.upsert id.safe change).2 else m) d' := by
  refine hold.of_record hid h.keeps h.stored ?_ ?_ ?_
  · intro k hk
    split
    · exact m.get?_upsert_of_ne hk change
    · rfl
  · split
    · exact m.upsert_instances id.safe change
    · rfl
  · intro r hr
    split at hr
    · exact hold.recordKey_upsert hr
    · exact hold.recordKey _ r hr

/-- At every moment of an upsert a disk holds what a store in memory has before or after it, and
only a mutation that fails, a disk that breaks down or a record without files keeps it from being
done. -/
theorem Holds.always_upsert (hold : Holds s.base B m d) (hid : id.IsRegular) (change : Mutation) :
    Always (service F)
      (fun w' => Holds s.base B (if w'.moved then (m.upsert id.safe change).2 else m) w'.disk)
      (s.upsert id change) (Upserted F B (recordNames id) m id.safe change)
      (fun e w' => (w'.moved = true → F) ∧ ((m.upsert id.safe change).1 = .error e ∨ F ∨
        ¬ id.IsNamed ∨ Unfit m id.safe change)) ⟨d, false⟩ := by
  refine (DirectoryStore.always_upsert (w := ⟨d, false⟩) hold.toStands rfl hid.isStep_recordNames
    (hold.recordAt hid)).mono (fun w' h => hold.upsert hid h) (fun _ _ _ h => h) ?_
  rintro e w' hmidway ⟨hunmoved, hwhy⟩
  refine ⟨hunmoved, ?_⟩
  rcases hwhy with herror | hF | hnames | ⟨r, hr, hunwritable⟩
  · exact .inl herror
  · exact .inr (.inl hF)
  · exact .inr (.inr (.inl fun hnamed => hnames (hnamed.isName hid)))
  · by_cases hnamed : id.IsNamed
    · refine .inr (.inr (.inr ⟨r, hr, fun hfits => hunwritable ?_⟩))
      exact hold.writable hid hnamed hfits (hold.recordKey_upsert hr).2
    · exact .inr (.inr (.inl hnamed))

/-- An upsert on a disk that works does what a store in memory does and leaves nothing of former
versions, unless the record has no files. -/
theorem Holds.upsert_done (hold : Holds s.base B m d) (hid : id.IsRegular) (hnamed : id.IsNamed)
    {r : Except Failure Outcome}
    (hrun : (s.upsert id change).run.run Disk.watchHandler ⟨d, false⟩ = (r, w')) :
    (r = (m.upsert id.safe change).1 ∧
      (if w'.moved then (m.upsert id.safe change).2 else m) = (m.upsert id.safe change).2 ∧
      ∀ o r', (m.upsert id.safe change).1 = .ok o → o ≠ .unchanged →
        (m.upsert id.safe change).2.records.get? id.safe = some r' →
        Tidy B (recordNames id) r' w'.disk) ∨
    (∃ e, r = .error e) ∧ w'.moved = false ∧ Unfit m id.safe change := by
  have hends := (Disk.run_of_always (hold.always_upsert (F := False) hid change).run hrun).2
  cases r with
  | ok o =>
    obtain ⟨houtcome, hmoves, hsame, htidy⟩ := hends
    refine .inl ⟨houtcome.symm, ?_, ?_⟩
    · split
      · rfl
      · next hmoved => exact (hsame (by simpa using hmoved)).symm
    · intro o' r' ho' hne hr'
      obtain rfl : o = o' := Except.ok.inj (houtcome.symm.trans ho')
      obtain ⟨r'', hr'', htidied⟩ := htidy not_false (hmoves.mpr hne)
      rw [hr'] at hr''
      cases hr''
      exact htidied
  | error e =>
    obtain ⟨hunmoved, herror | hF | hnot | hunfit⟩ := hends
    · refine .inl ⟨herror.symm, ?_, ?_⟩
      · rw [MemoryStore.upsert_error herror, ite_self]
      · intro o r' ho
        rw [herror] at ho
        cases ho
    · exact hF.elim
    · exact absurd hnamed hnot
    · exact .inr ⟨⟨e, rfl⟩, by simpa using hunmoved, hunfit⟩

/-- A new record whose fields have names of files has files. -/
theorem not_unfit_of_none (hnone : m.records.get? k = none) {data : Fields}
    (hchange : change .empty = .ok data) {names : List String} (hkeys : data.keys = names)
    (hdistinct : (names.map safeName).Nodup) (hnames : ∀ n ∈ names, IsName (safeName n)) :
    ¬ Unfit m k change := by
  subst hkeys
  have hversion : (1 : Int) < 10 ^ 254 := by decide
  rintro ⟨r, hr, hno⟩
  rw [MemoryStore.upsert, hnone] at hr
  dsimp only at hr
  rw [hchange, MemoryStore.get?_setRecord, if_pos rfl] at hr
  cases hr
  exact hno ⟨hdistinct, hnames, hversion⟩

/-- An upsert on a disk that works does what a store in memory does, if its record has files. -/
theorem Holds.exists_runWith_upsert (hold : Holds s.base B m d) (hid : id.IsRegular)
    (hnamed : id.IsNamed) (hfit : ¬ Unfit m id.safe change) :
    ∃ d', runWith Disk.handler (s.upsert id change) d = ((m.upsert id.safe change).1, d') ∧
      Holds s.base B (m.upsert id.safe change).2 d' := by
  rcases hrun : (s.upsert id change).run.run Disk.watchHandler ⟨d, false⟩ with ⟨r, w'⟩
  have hheld := (Disk.run_of_always (hold.always_upsert (F := False) hid change).run hrun).1
  obtain ⟨rfl, hsame, -⟩ | ⟨-, -, hunfit⟩ := hold.upsert_done hid hnamed hrun
  · rw [hsame] at hheld
    exact ⟨w'.disk, Disk.runWith_of_watch hrun, hheld⟩
  · exact absurd hunfit hfit

/-- An upsert that is done on a disk that works does what a store in memory does. -/
theorem Holds.of_runWith_upsert (hold : Holds s.base B m d) (hid : id.IsRegular) {o : Outcome}
    (hrun : runWith Disk.handler (s.upsert id change) d = (.ok o, d')) :
    ∃ m', m.upsert id.safe change = (.ok o, m') ∧ Holds s.base B m' d' := by
  obtain ⟨r, w', hrun', hheld, hends⟩ := Disk.exists_runWith_eq (hold.always_upsert hid change)
  rw [hrun, Prod.mk.injEq] at hrun'
  obtain ⟨rfl, rfl⟩ := hrun'
  refine ⟨(m.upsert id.safe change).2, Prod.ext hends.outcome rfl, ?_⟩
  cases hmoved : w'.moved with
  | true =>
    rw [hmoved] at hheld
    exact hheld
  | false =>
    rw [hmoved] at hheld
    rw [hends.same hmoved]
    exact hheld

/-- An upsert that fails on a disk that works leaves what is held, and says why it cannot be
done. -/
theorem Holds.of_runWith_upsert_error (hold : Holds s.base B m d) (hid : id.IsRegular) {e : Failure}
    (hrun : runWith Disk.handler (s.upsert id change) d = (.error e, d')) :
    Holds s.base B m d' ∧ ((m.upsert id.safe change).1 = .error e ∨ ¬ id.IsNamed ∨
      Unfit m id.safe change) := by
  obtain ⟨r, w', hrun', hheld, hends⟩ :=
    Disk.exists_runWith_eq (hold.always_upsert (F := False) hid change)
  rw [hrun, Prod.mk.injEq] at hrun'
  obtain ⟨rfl, rfl⟩ := hrun'
  obtain ⟨hunmoved, hwhy⟩ := hends
  rw [if_neg hunmoved] at hheld
  exact ⟨hheld, hwhy.imp_right fun h => h.resolve_left not_false⟩

/-- What a look for a record says of what is stored. -/
def Identity.found (id : Identity) : Option Record → Except Failure Record
  | some r => .ok ⟨id, r.data, r.version⟩
  | none => .error (.recordNotFound id)

/-- A record that is held is read, whatever its names are. -/
theorem Holds.runWith_getRecord_of_held (hold : Holds s.base B m d) (hid : id.IsRegular)
    {r : Record} (hr : m.records.get? id.safe = some r) :
    Action.runWith Disk.handler (s.getRecord id) d = (.ok ⟨id, r.data, r.version⟩, d) := by
  have hrecord := hold.recordAt hid
  rw [hr] at hrecord
  refine Disk.runWith_eq_of_always (C := fun _ => True) ?_
  unfold DirectoryStore.getRecord
  refine Always.bind ((DirectoryStore.always_readRecord (w := ⟨d, false⟩) hold.toStands
    trivial hrecord).mono (fun _ h => h) ?_ ?_)
  · rintro x w' - ⟨rfl, rfl⟩
    exact Always.pure trivial ⟨rfl, rfl⟩
  · rintro e w' - ⟨-, -, hF⟩
    exact hF.elim

/-- A record that is not held is not read. -/
theorem Holds.runWith_getRecord_of_none (hold : Holds s.base B m d) (hid : id.IsRegular)
    (hnone : m.records.get? id.safe = none) :
    ∃ e, Action.runWith Disk.handler (s.getRecord id) d = (.error e, d) ∧
      (e = .recordNotFound id ∨ ¬ id.IsNamed) := by
  have hrecord := hold.recordAt hid
  rw [hnone] at hrecord
  have halways : Always (service False) (fun _ => True) (s.getRecord id) (fun _ _ => False)
      (fun e w' => w' = ⟨d, false⟩ ∧ (e = .recordNotFound id ∨ ¬ id.IsNamed)) ⟨d, false⟩ := by
    unfold DirectoryStore.getRecord
    refine Always.bind ((DirectoryStore.always_readRecord_none (w := ⟨d, false⟩) hold.toStands
      trivial hid.isStep_recordNames hrecord).mono (fun _ h => h) (fun _ _ _ hno => hno.elim) ?_)
    rintro e w' - ⟨rfl, rfl | ⟨-, hF⟩⟩
    · exact ⟨rfl, .inl rfl⟩
    · exact ⟨rfl, .inr fun hnamed => hF (hnamed.isName hid)⟩
  obtain ⟨r, w', hrun, -, hends⟩ := Disk.exists_runWith_eq halways
  cases r with
  | ok x => exact hends.elim
  | error e =>
    obtain ⟨rfl, hwhy⟩ := hends
    exact ⟨e, hrun, hwhy⟩

/-- A record is read as it is held. -/
theorem Holds.runWith_getRecord (hold : Holds s.base B m d) (hid : id.IsRegular)
    (hnamed : id.IsNamed) :
    Action.runWith Disk.handler (s.getRecord id) d = (id.found (m.records.get? id.safe), d) := by
  cases hget : m.records.get? id.safe with
  | none =>
    obtain ⟨e, hrun, rfl | hnot⟩ := hold.runWith_getRecord_of_none hid hget
    · exact hrun
    · exact absurd hnamed hnot
  | some r => exact hold.runWith_getRecord_of_held hid hget

/-! ## Records under other names -/

/-- A record that is read has an index in a file. -/
private theorem DirectoryStore.exists_index_of_getRecord {r : Record}
    (hrun : runWith Disk.handler (s.getRecord id) d = (.ok r, d')) :
    ∃ place content, d.locate (s.indexPath id) = .ok place ∧
      d.at? place = some (.file content) := by
  obtain ⟨x, _, hrun, -⟩ := runWith_bind_eq_ok.mp hrun
  unfold DirectoryStore.readRecord at hrun
  obtain ⟨there, d₁, hthere, hrun⟩ := runWith_bind_eq_ok.mp hrun
  obtain rfl : d₁ = d := by
    have hlook := DirectoryStore.runWith_of_looks (DirectoryStore.looks_isThere (s.indexPath id)) d
    rw [hthere] at hlook
    exact hlook
  cases there with
  | false => cases hrun
  | true =>
    simp only [Bool.not_true, Bool.false_eq_true, if_false] at hrun
    obtain ⟨text, _, htext, -⟩ := runWith_bind_eq_ok.mp hrun
    unfold DirectoryStore.readText at htext
    obtain ⟨content, _, hread, -⟩ := runWith_bind_eq_ok.mp htext
    rw [Disk.runWith_ask] at hread
    obtain ⟨place, hplace⟩ := Disk.exists_place_of_handler_read (congrArg Prod.fst hread)
    exact ⟨place, content, hplace⟩

/-- What lies beside the base directory of a store is no index: under a pair of names that both lead
up a store looks for one there. -/
def NoIndexBeside (B : List String) (d : Disk) : Prop :=
  ∀ content, d.at? (B.dropLast ++ ["meta.json"]) ≠ some (.file content)

/-- Under names that are dropped or lead up a store that is held has no index. -/
private theorem Holds.isRegular_of_index (hold : Holds s.base B m d) (hbeside : NoIndexBeside B d)
    {place : List String} {content : Bytes} (hplace : d.locate (s.indexPath id) = .ok place)
    (hfile : d.at? place = some (.file content)) : id.IsRegular := by
  have hinside (n : String) (names : List String) (hn : place = B ++ n :: names) :
      (∃ x k m rest, n :: names = "records" :: x :: k :: m :: rest) ∨
        ∃ x name, n :: names = ["instances", x, name] :=
    (hold.slot n names _ (hn ▸ hfile)).exists_of_file
  have hname (init : List String) : Disk.next init "meta.json" = init ++ ["meta.json"] :=
    if_neg (by decide)
  have hrecords : Disk.next B "records" = B ++ ["records"] := if_neg (by decide)
  have hdots (init : List String) : Disk.next init ".." = init.dropLast := if_pos rfl
  have hstep {n : String} (hn : IsRegularName n) (init : List String) :
      Disk.next init (DirectoryStore.safeName n) = init ++ [DirectoryStore.safeName n] :=
    if_neg hn.isStep.ne_dots
  rw [DirectoryStore.indexPath_eq] at hplace
  have hway := hold.toStands.locate_eq_foldl hplace
  rw [DirectoryStore.recordNames] at hway
  rcases splitNames_safeName id.space with ⟨hx, hx'⟩ | ⟨-, hx'⟩ | hx' <;>
    rcases splitNames_safeName id.name with ⟨hy, hy'⟩ | ⟨-, hy'⟩ | hy' <;>
    simp only [hx', hy', List.cons_append, List.nil_append, List.foldl_cons, List.foldl_nil,
      hrecords, hname, hdots, List.dropLast_concat] at hway
  · exact ⟨hx, hy⟩
  · rw [hstep hx, List.dropLast_concat, List.append_assoc] at hway
    exact absurd (hinside _ _ hway) (by simp)
  · rw [hstep hx, List.append_assoc, List.append_assoc] at hway
    exact absurd (hinside _ _ hway) (by simp)
  · rw [hstep hy, List.append_assoc] at hway
    exact absurd (hinside _ _ hway) (by simp)
  · exact absurd (hway ▸ hfile) (hbeside content)
  · exact absurd (hinside _ _ hway) (by simp)
  · rw [hstep hy, List.append_assoc, List.append_assoc] at hway
    exact absurd (hinside _ _ hway) (by simp)
  · exact absurd (hinside _ _ hway) (by simp)
  · rw [List.append_assoc] at hway
    exact absurd (hinside _ _ hway) (by simp)

/-- A record that is read is one that is held. -/
theorem Holds.exists_held_of_getRecord (hold : Holds s.base B m d) (hbeside : NoIndexBeside B d)
    {r : Record} (hrun : runWith Disk.handler (s.getRecord id) d = (.ok r, d')) :
    id.IsRegular ∧ ∃ r₀, m.records.get? id.safe = some r₀ ∧ r = ⟨id, r₀.data, r₀.version⟩ ∧
      0 < r₀.version := by
  obtain ⟨place, content, hplace, hfile⟩ := DirectoryStore.exists_index_of_getRecord hrun
  have hid := hold.isRegular_of_index hbeside hplace hfile
  refine ⟨hid, ?_⟩
  cases hget : m.records.get? id.safe with
  | none =>
    obtain ⟨e, hnone, -⟩ := hold.runWith_getRecord_of_none hid hget
    rw [hrun] at hnone
    cases hnone
  | some r₀ =>
    rw [hold.runWith_getRecord_of_held hid hget] at hrun
    cases hrun
    exact ⟨r₀, rfl, rfl, (hold.recordKey _ r₀ hget).2⟩

end CertKeeper
