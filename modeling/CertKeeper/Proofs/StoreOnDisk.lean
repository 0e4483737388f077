import CertKeeper.Proofs.SeparateRecords
import CertKeeper.Proofs.StoreArea
import CertKeeper.Proofs.StoredAuthority

/-!
# Passes over a store in a directory

A store in a directory that answers the requests of passes, on a disk that works. Reading leaves the
disk as it is, so that what has been read tells what a change of the same record will come to
(`DirectoryStore.upsert_of_found`, `DirectoryStore.upsert_of_missing`).
-/

namespace CertKeeper

open CertKeeper.Action

/-! ## Looking before a change -/

namespace DirectoryStore

variable {s : DirectoryStore} {id : Identity} {d d' : Disk} {r : Record} {o : Outcome}
  {change : Mutation} {e : Failure}

/-- Before a change a record is read like at any other time, and a missing one is no failure. -/
theorem runWith_readRecord? (s : DirectoryStore) (id : Identity) (d : Disk) :
    runWith Disk.handler (s.readRecord? id) d =
      (match (runWith Disk.handler (s.readRecord id) d).1 with
        | .ok x => .ok (some x)
        | .error e => if e.isRecordNotFound then .ok none else .error e, d) := by
  have hlook := runWith_of_looks (s.looks_readRecord id) d
  rw [readRecord?, runWith_bind, runWith_outcome, hlook]
  rcases (runWith Disk.handler (s.readRecord id) d).1 with e | x
  · dsimp only
    split <;> rfl
  · rfl

/-- What is read of a record are its fields and its version. -/
theorem runWith_getRecord (s : DirectoryStore) (id : Identity) (d : Disk) :
    runWith Disk.handler (s.getRecord id) d =
      ((runWith Disk.handler (s.readRecord id) d).1.map Prod.fst, d) := by
  have hlook := runWith_of_looks (s.looks_readRecord id) d
  rw [getRecord, runWith_bind]
  rcases hread : runWith Disk.handler (s.readRecord id) d with ⟨e | x, w⟩
  · rw [hread] at hlook
    rw [← hlook]
    rfl
  · rw [hread] at hlook
    rw [← hlook]
    rfl

/-- A change of a record that is found raises its version, or nothing has changed. -/
theorem upsert_of_found (hget : (runWith Disk.handler (s.getRecord id) d).1 = .ok r)
    (hrun : runWith Disk.handler (s.upsert id change) d = (.ok o, d')) :
    ∃ data, change r.data = .ok data ∧
      o = if data.same r.data then .unchanged else .updated := by
  rw [runWith_getRecord] at hget
  rw [upsert] at hrun
  obtain ⟨found, d₁, hread, hrun⟩ := runWith_bind_eq_ok.mp hrun
  rw [runWith_readRecord?] at hread
  rcases hfound : (runWith Disk.handler (s.readRecord id) d).1 with e | ⟨r', alien⟩
  · rw [hfound] at hget
    cases hget
  rw [hfound] at hget hread
  cases hget
  cases hread
  obtain ⟨data, d₂, hchange, hrun⟩ := runWith_bind_eq_ok.mp hrun
  have hdata : change r'.data = .ok data := congrArg Prod.fst hchange
  refine ⟨data, hdata, ?_⟩
  split at hrun
  · next hsame =>
    rw [if_pos hsame]
    cases hrun
    rfl
  · next hsame =>
    rw [if_neg hsame]
    split at hrun
    · cases hrun
    · obtain ⟨_, _, _, hrun⟩ := runWith_bind_eq_ok.mp hrun
      cases hrun
      rfl

/-- A change of a record that is missing creates it. -/
theorem upsert_of_missing (hget : (runWith Disk.handler (s.getRecord id) d).1 = .error e)
    (he : e.isRecordNotFound)
    (hrun : runWith Disk.handler (s.upsert id change) d = (.ok o, d')) : o = .created := by
  rw [runWith_getRecord] at hget
  rw [upsert] at hrun
  obtain ⟨found, d₁, hread, hrun⟩ := runWith_bind_eq_ok.mp hrun
  rw [runWith_readRecord?] at hread
  rcases hfound : (runWith Disk.handler (s.readRecord id) d).1 with e' | x
  · rw [hfound] at hget hread
    cases hget
    dsimp only at hread
    rw [if_pos he] at hread
    cases hread
    obtain ⟨data, d₂, _, hrun⟩ := runWith_bind_eq_ok.mp hrun
    obtain ⟨_, _, _, hrun⟩ := runWith_bind_eq_ok.mp hrun
    cases hrun
    rfl
  · rw [hfound] at hget
    cases hget

/-- The answers of a store in a directory on a disk that works. -/
def handler (s : DirectoryStore) : Handler Store Disk := fun q d => (s.answer q).run Disk.handler d

/-- A request for a record is carried out on the disk. -/
theorem runWith_handler_getRecord (s : DirectoryStore) (id : Identity) (d : Disk) :
    runWith s.handler (Store.getRecord id) d = runWith Disk.handler (s.getRecord id) d := by
  have hquestion (h : Handler Store Disk) :
      runWith h (Store.getRecord id) d = h (.getRecord id) d := rfl
  rw [hquestion]
  rfl

/-- An upsert asked of a store on disk is an upsert on the disk. -/
theorem runWith_handler_upsert (s : DirectoryStore) (id : Identity) (change : Mutation) (d : Disk) :
    runWith s.handler (Store.upsert id change) d =
      runWith Disk.handler (s.upsert id change) d := by
  have hquestion (h : Handler Store Disk) :
      runWith h (Store.upsert id change) d = h (.upsert id change) d := rfl
  rw [hquestion]
  rfl

/-- A request to read leaves the disk as it is. -/
theorem handler_of_isRead {q : Store.Request} (hq : q.IsRead) (d : Disk) :
    (s.handler q d).2 = d := by
  cases q with
  | getRecord id => exact runWith_of_looks (s.looks_getRecord id) d
  | upsert | getInstance | listInstances | deleteInstance => exact hq.elim

/-- Reading records leaves the disk as it is. -/
theorem runWith_handler_of_reads {α : Type} {a : Action Store α} (ha : ReadsOnly a) (d : Disk) :
    (runWith s.handler a d).2 = d :=
  Program.run_induction (R := fun d d' => d' = d) (fun _ => rfl) (fun _ _ _ h h' => h'.trans h)
    (fun _ d hq => handler_of_isRead hq d) ha d

/-! ## Beside the base directory -/

/-- A call of regular names stays inside. -/
private theorem Call.IsRegular.staysInside {c : Call} (hc : c.IsRegular) : c.StaysInside := by
  match c, hc with
  | .request (.upsert _ _), hc => exact ⟨hc.space.ne_dots, hc.name.ne_dots⟩
  | .request (.deleteInstance _), hc => exact hc.space.ne_dots
  | .register _, hc => exact hc.space.ne_dots
  | .request (.getRecord _), _ | .request (.getInstance _), _ | .request (.listInstances _ _), _
  | .reopen, _ => trivial

/-- Calls of regular names put no index beside the base directory. -/
theorem noIndexBeside_session {B : List String} (h : Disk.Stands s.base B d) (calls : List Call)
    (hcalls : ∀ c ∈ calls, c.IsRegular) (hbeside : NoIndexBeside B d) :
    NoIndexBeside B ((s.session calls).run Disk.handler d).2 := by
  intro content
  rcases run_session_confined h calls (fun c hc => (hcalls c hc).staysInside)
    (B.dropLast ++ ["meta.json"]) with hsame | ⟨area, n, names, -, heq⟩ | ⟨_, -, -, -, hmade⟩
  · rw [hsame]
    exact hbeside content
  · have hlength := congrArg List.length heq
    simp only [List.length_append, List.length_dropLast, List.length_cons, List.length_nil]
      at hlength
    omega
  · rw [hmade]
    nofun

end DirectoryStore

/-! ## Passes -/

/-- A store in a directory, beside whoever answers the requests of authorities. -/
def World.onDisk {τ : Type} (s : DirectoryStore) (g : Handler Signing τ) :
    Handler World (Disk × τ) := Handler.sum s.handler g

/-- A clock that always shows the same time shows it. -/
theorem Signing.moment_of_clock {τ : Type} {g : Handler Signing τ} {now moment : Moment}
    (hclock : ∀ t, (g .clock t).1 = now) {t : τ}
    (hrun : (runWith g Signing.clock t).1 = .ok moment) : moment = now := by
  have hshown : (.ok (g .clock t).1 : Except Failure Moment) = .ok moment := hrun
  rw [hclock] at hshown
  exact (Except.ok.inj hshown).symm

namespace Reconciler

variable {α τ : Type} {s : DirectoryStore} {g : Handler Signing τ}

/-- Actions on the store use the disk. -/
theorem runWith_onStore_onDisk (s : DirectoryStore) (g : Handler Signing τ) (a : Action Store α)
    (w : Disk × τ) : runWith (World.onDisk s g) (onStore a) w =
      ((runWith s.handler a w.1).1, (runWith s.handler a w.1).2, w.2) := by
  rw [runWith_onStore]
  exact Program.run_ofLeft_sum s.handler g a.run w

/-- Actions of authorities do not. -/
theorem runWith_onSigning_onDisk (s : DirectoryStore) (g : Handler Signing τ)
    (a : Action Signing α) (w : Disk × τ) : runWith (World.onDisk s g) (onSigning a) w =
      ((runWith g a w.2).1, w.1, (runWith g a w.2).2) := by
  rw [runWith_onSigning]
  exact Program.run_ofRight_sum s.handler g a.run w

/-- A part of a pass that only reads leaves the disk as it is. -/
private theorem runWith_onDisk_of_reads {a : Action World α}
    (ha : Asks (World.StoreOnly Store.Request.IsRead) a) (w : Disk × τ) :
    (runWith (World.onDisk s g) a w).2.1 = w.1 := by
  refine Program.run_induction (R := fun w w' : Disk × τ => w'.1 = w.1) (fun _ => rfl)
    (fun _ _ _ h h' => h'.trans h) (fun q w hq => ?_) ha w
  cases q with
  | inl q => exact DirectoryStore.handler_of_isRead hq w.1
  | inr q => rfl

/-- Fetching gives what is read, or an empty record in place of a missing one. -/
private theorem fetch_cases {σ : Type} {h : Handler Store σ} {id : Identity} {w w' : σ}
    {record : Record}
    (hrun : runWith h (fetch id) w = (.ok record, w')) :
    runWith h (Store.getRecord id) w = (.ok record, w') ∨
      ∃ e, runWith h (Store.getRecord id) w = (.error e, w') ∧ e.isRecordNotFound ∧
        record = .missing id := by
  rw [fetch, runWith_bind, runWith_outcome] at hrun
  rcases hget : runWith h (Store.getRecord id) w with ⟨e | r, w₁⟩
  · rw [hget] at hrun
    dsimp only at hrun
    split at hrun
    · next he =>
      cases hrun
      exact .inr ⟨e, rfl, he, rfl⟩
    · cases hrun
  · rw [hget] at hrun
    cases hrun
    exact .inl rfl

variable {r : Reconciler} {id : Identity} {w w' : Disk × τ} {o : Outcome} {now : Moment}
  {authority : Authority}

/-- A record is changed by an upsert. -/
theorem upsert_of_apply {change : Fields → Fields}
    (hrun : runWith (World.onDisk s g) (onStore (Writer.apply id change)) w = (.ok o, w')) :
    runWith Disk.handler (s.upsert id fun data => .ok (change data)) w.1 = (.ok o, w'.1) := by
  rw [runWith_onStore_onDisk, Prod.mk.injEq] at hrun
  have hdone : runWith s.handler (Writer.apply id change) w.1 = (.ok o, w'.1) := by
    rw [← hrun.1, ← hrun.2]
  rw [Writer.apply, runWith_mapFailure_eq_ok, DirectoryStore.runWith_handler_upsert] at hdone
  exact hdone

/-- Issuing leaves the disk as it is until the pair is stored by an upsert. -/
theorem upsert_of_issue
    (hrun : runWith (World.onDisk s g) (r.issue id authority now) w = (.ok o, w')) :
    ∃ pair : Bytes × Bytes, runWith Disk.handler
      (s.upsert id fun data => .ok (Writer.setPair pair.1 pair.2 data)) w.1 = (.ok o, w'.1) := by
  obtain ⟨_, _, hrun⟩ := runWith_ofExcept_bind_eq_ok.mp hrun
  obtain ⟨pair, w₁, hissue, hwrite⟩ := runWith_bind_eq_ok.mp hrun
  rw [runWith_onSigning_onDisk, Prod.mk.injEq] at hissue
  have hdisk : w₁.1 = w.1 := by rw [← hissue.2]
  rw [← hdisk]
  exact ⟨pair, upsert_of_apply hwrite⟩

variable {settings : Settings} {found : Record} {a : SelfSigned} {evaluation : Evaluation}
  {decision : Decision} {B : List String} {m : MemoryStore}

/-- What carrying out a decision about a record comes to: the record is created if none was found,
and a pair that is kept is left unchanged. -/
theorem outcome_of_carryOut (hold : Holds s.base B m w.1) (hbeside : NoIndexBeside B w.1)
    (hfetch : (runWith s.handler (fetch id) w.1).1 = .ok found)
    (happraise : a.appraise found (some settings.dnsName) now = .ok evaluation)
    (hdecide : evaluation.decide r.lifetime now = .ok decision)
    (hcarry : runWith (World.onDisk s g) (r.carryOut id found.data authority now decision) w =
      (.ok o, w')) :
    found.id = id ∧ (found.version = 0 ↔ o = .created) ∧
      ∀ remaining, decision = .keep remaining → o = .unchanged := by
  have hfetch : runWith s.handler (fetch id) w.1 = (.ok found, w.1) :=
    Prod.ext hfetch (DirectoryStore.runWith_handler_of_reads (asks_fetch id) w.1)
  rcases fetch_cases hfetch with hget | ⟨e, hget, he, rfl⟩ <;>
    rw [DirectoryStore.runWith_handler_getRecord] at hget
  · obtain ⟨hid, r₀, hr₀, rfl, hpositive⟩ := hold.exists_held_of_getRecord hbeside hget
    have hget := congrArg Prod.fst hget
    refine ⟨rfl, ?_⟩
    cases decision with
    | issue reason lifetime =>
      obtain ⟨pair, hupsert⟩ := upsert_of_issue hcarry
      obtain ⟨data, -, rfl⟩ := DirectoryStore.upsert_of_found hget hupsert
      refine ⟨iff_of_false hpositive.ne' ?_, fun _ h => by cases h⟩
      split <;> simp
    | invalidate reason lifetime =>
      obtain ⟨first, w₁, hclear, hcarry⟩ := runWith_bind_eq_ok.mp hcarry
      obtain ⟨second, w₂, hissue, hcarry⟩ := runWith_bind_eq_ok.mp hcarry
      cases hcarry
      have hclear := upsert_of_apply hclear
      obtain ⟨_, -, rfl⟩ := DirectoryStore.upsert_of_found hget hclear
      obtain ⟨r₁, hr₁⟩ := DirectoryStore.exists_getRecord_after_upsert hold hid hr₀
        (fun data => .ok (Writer.removePair data))
      rw [hclear] at hr₁
      obtain ⟨pair, hupsert⟩ := upsert_of_issue hissue
      obtain ⟨_, -, rfl⟩ := DirectoryStore.upsert_of_found hr₁ hupsert
      refine ⟨iff_of_false hpositive.ne' ?_, fun _ h => by cases h⟩
      split <;> split <;> decide
    | keep remaining =>
      obtain ⟨notAfter, rfl, -⟩ := decide_eq_keep hdecide
      obtain ⟨certificate, key, hcertificate, hkey⟩ :=
        SelfSigned.exists_pair_of_appraise happraise
      obtain ⟨_, ⟨⟩, rfl⟩ := DirectoryStore.upsert_of_found hget (upsert_of_apply hcarry)
      rw [hcertificate, hkey]
      have hsame := Writer.same_setPair hcertificate hkey
      refine ⟨iff_of_false hpositive.ne' ?_, fun _ _ => if_pos hsame⟩
      split <;> simp
  · cases happraise
    cases hdecide
    obtain ⟨pair, hupsert⟩ := upsert_of_issue hcarry
    obtain rfl := DirectoryStore.upsert_of_missing (congrArg Prod.fst hget) he hupsert
    exact ⟨rfl, iff_of_true rfl rfl, fun _ h => by cases h⟩

/-- What a pass of settings that returns has found on the disk at the moment that it is shown, and
what it has carried out there. -/
theorem exists_judged_of_reconcile (hr : ofSettings settings = .ok r) {result : PassResult}
    (hrun : runWith (World.onDisk s g) (r.reconcile id none) w = (.ok result, w')) :
    ∃ now found a evaluation w₁ w₂,
      (runWith g (Signing.momentOr none) w.2).1 = .ok now ∧
      (runWith s.handler (fetch id) w.1).1 = .ok found ∧
      (runWith s.handler (resolveAuthority settings.authorityId settings.keyBits) w.1).1 = .ok a ∧
      a.appraise found (some settings.dnsName) now = .ok evaluation ∧
      evaluation.decide r.lifetime now = .ok result.decision ∧ w₁.1 = w.1 ∧
      runWith (World.onDisk s g) (r.carryOut id found.data a.toAuthority now result.decision) w₁ =
        (.ok result.outcome, w₂) ∧
      result.id = id ∧ result.requeueAfter = result.decision.requeueAfter := by
  obtain ⟨decision, outcome, restart, _, rfl, hsettle, -, -⟩ := r.exists_settle_of_reconcile hrun
  cases r.settles_of_runWith hsettle with
  | @done now _ w₁ _ data authority _ _ hmoment hjudge hcarry =>
  rw [runWith_onSigning_onDisk, Prod.mk.injEq] at hmoment
  obtain ⟨hnow, rfl⟩ := hmoment
  have hreads := runWith_onDisk_of_reads (s := s) (g := g)
    (r.asks_judge (readsOnly_ofSettings r hr) id now)
    (w.1, (runWith g (Signing.momentOr none) w.2).2)
  rw [hjudge] at hreads
  obtain ⟨found, w₃, a, evaluation, rfl, rfl, hfetch, hresolve, happraise, hdecide⟩ :=
    exists_appraise_of_judge hr hjudge
  rw [runWith_onStore_onDisk, Prod.mk.injEq] at hfetch hresolve
  obtain ⟨hfetch, rfl⟩ := hfetch
  rw [DirectoryStore.runWith_handler_of_reads (asks_fetch id)] at hresolve
  exact ⟨now, found, a, evaluation, w₁, _, hnow, hfetch, hresolve.1, happraise, hdecide, hreads,
    hcarry, rfl, rfl⟩

/-- A pass over a store on disk that returns has found its record, its authority and its decision at
the time that the clock always shows. -/
theorem exists_found_of_reconcile (hr : ofSettings settings = .ok r)
    (hclock : ∀ t, (g .clock t).1 = now) {result : PassResult}
    (hrun : runWith (World.onDisk s g) (r.reconcile id none) w = (.ok result, w')) :
    ∃ found a evaluation w₁ w₂,
      (runWith s.handler (fetch id) w.1).1 = .ok found ∧
      (runWith s.handler (resolveAuthority settings.authorityId settings.keyBits) w.1).1 = .ok a ∧
      a.appraise found (some settings.dnsName) now = .ok evaluation ∧
      evaluation.decide r.lifetime now = .ok result.decision ∧ w₁.1 = w.1 ∧
      runWith (World.onDisk s g) (r.carryOut id found.data a.toAuthority now result.decision) w₁ =
        (.ok result.outcome, w₂) ∧
      result.id = id ∧ result.requeueAfter = result.decision.requeueAfter := by
  obtain ⟨moment, found, a, evaluation, w₁, w₂, hmoment, hrest⟩ :=
    exists_judged_of_reconcile hr hrun
  obtain rfl := Signing.moment_of_clock hclock hmoment
  exact ⟨found, a, evaluation, w₁, w₂, hrest⟩

/-! ## A first pass -/

/-- A record that is not held is fetched as a missing one. -/
theorem runWith_fetch_of_none {d : Disk} (hold : Holds s.base B m d) (hid : id.IsRegular)
    (hnamed : id.IsNamed) (hnone : m.records.get? id.safe = none) :
    runWith s.handler (fetch id) d = (.ok (.missing id), d) := by
  rw [fetch, runWith_bind, runWith_outcome, DirectoryStore.runWith_handler_getRecord,
    hold.runWith_getRecord hid hnamed, hnone]
  rfl

/-- A record that is held is fetched as it is. -/
theorem runWith_fetch_of_held {d : Disk} (hold : Holds s.base B m d) (hid : id.IsRegular)
    {record : Record} (hrecord : m.records.get? id.safe = some record) :
    runWith s.handler (fetch id) d = (.ok ⟨id, record.data, record.version⟩, d) := by
  rw [fetch, runWith_bind, runWith_outcome, DirectoryStore.runWith_handler_getRecord,
    hold.runWith_getRecord_of_held hid hrecord]
  rfl

/-- The authority in a record that is held is found. -/
theorem runWith_resolveAuthority_of_held {d : Disk} (hold : Holds s.base B m d)
    (hid : id.IsRegular) {record : Record} (hrecord : m.records.get? id.safe = some record)
    (bits : Int) :
    runWith s.handler (resolveAuthority id bits) d =
      (SelfSigned.ofFields id record.data bits, d) := by
  have hfound := hold.runWith_getRecord_of_held hid hrecord
  rw [← DirectoryStore.runWith_handler_getRecord] at hfound
  exact runWith_resolveAuthority_of_found hfound bits

/-- A pass creates a record that is not held, if the authority issues a pair. -/
theorem exists_reconcile_of_none (hold : Holds s.base B m w.1) (hr : ofSettings settings = .ok r)
    (hid : id.IsRegular) (hnamed : id.IsNamed) (hnone : m.records.get? id.safe = none)
    (hresolve : runWith s.handler (resolveAuthority settings.authorityId settings.keyBits) w.1 =
      (.ok a, w.1))
    {notAfter : Moment} (hadd : now.add? r.lifetime = .ok notAfter) {pair : Bytes × Bytes} {t : τ}
    (hissue : runWith g (a.issue ⟨notAfter, settings.dnsName⟩ (some now)) w.2 = (.ok pair, t)) :
    ∃ d, runWith (World.onDisk s g) (r.reconcile id (some now)) w =
      (.ok ⟨id, .issue "missing" r.lifetime, .created, r.lifetime, none⟩, (d, t)) := by
  have hkeys : (Writer.setPair pair.1 pair.2 .empty).keys = [certificateField, keyField] := rfl
  have hfit : ¬ Unfit m id.safe fun data => .ok (Writer.setPair pair.1 pair.2 data) :=
    not_unfit_of_none hnone rfl hkeys (by decide) (by decide)
  obtain ⟨d, hupsert, -⟩ := hold.exists_runWith_upsert hid hnamed hfit
  obtain ⟨o, store, hmemory⟩ :=
    MemoryStore.exists_upsert_eq_ok m id.safe (Writer.setPair pair.1 pair.2)
  obtain rfl := (MemoryStore.upsert_created_iff hmemory).mpr hnone
  rw [hmemory] at hupsert
  have hfound : runWith (World.onDisk s g) (onStore (fetch id)) w = (.ok (.missing id), w) := by
    rw [runWith_onStore_onDisk, runWith_fetch_of_none hold hid hnamed hnone]
  have hauthority : runWith (World.onDisk s g)
      (onStore (resolveAuthority settings.authorityId settings.keyBits)) w = (.ok a, w) := by
    rw [runWith_onStore_onDisk, hresolve]
  have hpair : runWith (World.onDisk s g)
      (onSigning (a.issue ⟨notAfter, settings.dnsName⟩ (some now))) w = (.ok pair, (w.1, t)) := by
    rw [runWith_onSigning_onDisk, hissue]
  refine ⟨d, runWith_reconcile_of_missing hr hfound hauthority hadd hpair ?_⟩
  rw [runWith_onStore_onDisk, Writer.write, Writer.apply, runWith_mapFailure,
    DirectoryStore.runWith_handler_upsert, hupsert]
  rfl

end Reconciler

end CertKeeper
