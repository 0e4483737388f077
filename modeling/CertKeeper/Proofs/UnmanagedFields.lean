import CertKeeper.Proofs.OtherClients

/-!
# Unmanaged fields among other clients

While a pass is under way other clients may change the unmanaged fields of its record. Whatever
comes of the pass, their changes are neither lost nor undone, and a pass that returns leaves its
pair (`Reconciler.reconcile_among_others`). The reason is that every write of a pass starts from
what is stored and touches the managed fields only; so it can be moved behind all that the others do
(`Contended.sameOthers_atEnd_request`).
-/

namespace CertKeeper

open CertKeeper.Action Reconciler Writer

/-! ## Changes beside the pair -/

/-- Two maps of fields agree on the unmanaged ones. -/
def Fields.SameOthers (data data' : Fields) : Prop :=
  ∀ name, ¬ IsManaged name → data.get? name = data'.get? name

/-- A change of unmanaged fields: it leaves the managed ones as they are, and what it makes of the
others, or that it fails, depends on those alone. -/
structure Mutation.BesidePair (change : Mutation) : Prop where
  pair : ∀ {data data' : Fields}, change data = .ok data' → ∀ name, IsManaged name →
    data'.get? name = data.get? name
  others : ∀ {data₁ data₂ data₁' : Fields}, data₁.SameOthers data₂ → change data₁ = .ok data₁' →
    ∃ data₂', change data₂ = .ok data₂' ∧ data₁'.SameOthers data₂'

/-- Setting an unmanaged field is a change beside the pair. -/
theorem Mutation.besidePair_set {name : String} (hname : ¬ IsManaged name) (b : Bytes) :
    BesidePair fun data => .ok (data.set name b) where
  pair := by
    rintro data _ ⟨⟩ k hk
    have hne : name ≠ k := fun e => hname (e ▸ hk)
    simp [hne]
  others := by
    rintro data₁ data₂ _ hsame ⟨⟩
    refine ⟨_, rfl, fun k hk => ?_⟩
    rw [Entries.get?_set, Entries.get?_set, hsame k hk]

/-- Removing an unmanaged field is a change beside the pair. -/
private theorem Mutation.besidePair_erase {name : String} (hname : ¬ IsManaged name) :
    BesidePair fun data => .ok (data.erase name) where
  pair := by
    rintro data _ ⟨⟩ k hk
    have hne : name ≠ k := fun e => hname (e ▸ hk)
    simp [hne]
  others := by
    rintro data₁ data₂ _ hsame ⟨⟩
    refine ⟨_, rfl, fun k hk => ?_⟩
    rw [Entries.get?_erase, Entries.get?_erase, hsame k hk]

/-- The changes that some calls make to a record are changes beside its pair. -/
def BesidePair (id : Identity) (calls : List ClientCall) : Prop :=
  ∀ c ∈ calls, c.id = id → c.change.BesidePair

namespace MemoryStore

variable {s s' : MemoryStore} {id : Identity} {change : Mutation}

/-- The fields that a change of a record starts from. -/
def fields (s : MemoryStore) (id : Identity) : Fields :=
  ((s.records.get? id).map Record.data).getD .empty

private theorem get?_fields (s : MemoryStore) (id : Identity) (name : String) :
    (s.fields id).get? name = s.field? id name := by
  unfold fields field?
  cases s.records.get? id <;> rfl

/-- A change that fails has no effect. -/
theorem upsert_of_error {e : Failure} (h : change (s.fields id) = .error e) :
    s.upsert id change = (.error e, s) := by
  unfold upsert
  unfold fields at h
  cases hget : s.records.get? id with
  | none =>
    rw [hget] at h
    dsimp only [Option.map_none, Option.getD_none] at h ⊢
    rw [h]
  | some r =>
    rw [hget] at h
    dsimp only [Option.map_some, Option.getD_some] at h ⊢
    rw [h]

/-- A change that gives fields stores them, if they differ from what is there. -/
theorem upsert_of_ok {data : Fields} (h : change (s.fields id) = .ok data) :
    ∃ record, (s.upsert id change).2.records.get? id = some record ∧
      ∀ name, record.data.get? name = data.get? name := by
  unfold upsert
  unfold fields at h
  cases hget : s.records.get? id with
  | none =>
    rw [hget] at h
    dsimp only [Option.map_none, Option.getD_none] at h ⊢
    rw [h]
    exact ⟨_, (get?_setRecord _ _ _).trans (if_pos rfl), fun _ => rfl⟩
  | some r =>
    rw [hget] at h
    dsimp only [Option.map_some, Option.getD_some] at h ⊢
    rw [h]
    dsimp only
    split
    · next hsame => exact ⟨r, hget, fun name => ((Entries.same_iff _ _).mp hsame name).symm⟩
    · exact ⟨_, (get?_setRecord _ _ _).trans (if_pos rfl), fun _ => rfl⟩

private theorem fields_eq_of_get? {record : Record} (h : s.records.get? id = some record) :
    s.fields id = record.data := by
  rw [fields, h, Option.map_some, Option.getD_some]

private theorem fields_congr (h : s.records.get? id = s'.records.get? id) :
    s.fields id = s'.fields id := by
  rw [fields, fields, h]

private theorem managed?_congr (h : s.records.get? id = s'.records.get? id) :
    s.managed? id = s'.managed? id := by
  rw [managed?, managed?, h]

/-- A change beside the pair makes the same of the same unmanaged fields. -/
private theorem sameOthers_upsert (hchange : change.BesidePair)
    (hsame : (s.fields id).SameOthers (s'.fields id)) :
    ((s.upsert id change).2.fields id).SameOthers ((s'.upsert id change).2.fields id) := by
  cases hmade : change (s.fields id) with
  | error e =>
    cases hmade' : change (s'.fields id) with
    | error e' => rwa [upsert_of_error hmade, upsert_of_error hmade']
    | ok data' =>
      obtain ⟨_, hok, _⟩ := hchange.others (fun name hn => (hsame name hn).symm) hmade'
      rw [hmade] at hok
      cases hok
  | ok data =>
    obtain ⟨data', hmade', hothers⟩ := hchange.others hsame hmade
    obtain ⟨record, hrecord, hdata⟩ := upsert_of_ok hmade
    obtain ⟨record', hrecord', hdata'⟩ := upsert_of_ok hmade'
    intro name hn
    rw [fields_eq_of_get? hrecord, fields_eq_of_get? hrecord', hdata, hdata', hothers name hn]

/-- A change beside the pair leaves the pair of a record that is there. -/
private theorem managed?_upsert_of_besidePair {pair : Option Bytes × Option Bytes}
    (hchange : change.BesidePair) (hpair : s.managed? id = some pair) :
    (s.upsert id change).2.managed? id = some pair := by
  cases hmade : change (s.fields id) with
  | error e => rwa [upsert_of_error hmade]
  | ok data =>
    obtain ⟨before, hbefore, rfl⟩ := Option.map_eq_some_iff.mp hpair
    obtain ⟨record, hrecord, hdata⟩ := upsert_of_ok hmade
    have hleft := hchange.pair hmade
    rw [fields_eq_of_get? hbefore] at hleft
    rw [managed?, hrecord, Option.map_some, hdata, hdata, hleft _ (.inl rfl), hleft _ (.inr rfl)]

/-- What becomes of the records does not depend on the instances. -/
private theorem records_upsert_congr (h : s.records = s'.records) (id : Identity)
    (change : Mutation) :
    (s.upsert id change).2.records = (s'.upsert id change).2.records := by
  obtain ⟨records, instances⟩ := s
  obtain ⟨records', instances'⟩ := s'
  cases h
  unfold upsert
  dsimp only
  cases records.get? id with
  | none => cases change .empty <;> rfl
  | some r =>
    dsimp only
    cases change r.data with
    | error e => rfl
    | ok data =>
      dsimp only
      split <;> rfl

private theorem records_afterCalls_congr (h : s.records = s'.records) (calls : List ClientCall) :
    (s.afterCalls calls).records = (s'.afterCalls calls).records := by
  induction calls generalizing s s' with
  | nil => exact h
  | cons c calls ih => exact ih (records_upsert_congr h c.id c.change)

/-- Changes beside the pair make the same of the same unmanaged fields, whatever is done to other
records. -/
private theorem sameOthers_afterCalls {calls : List ClientCall} (hcalls : BesidePair id calls)
    (hsame : (s.fields id).SameOthers (s'.fields id)) :
    ((s.afterCalls calls).fields id).SameOthers ((s'.afterCalls calls).fields id) := by
  induction calls generalizing s s' with
  | nil => exact hsame
  | cons c calls ih =>
    refine ih (fun d hd => hcalls d (List.mem_cons_of_mem c hd)) ?_
    by_cases hid : c.id = id
    · subst hid
      exact sameOthers_upsert (hcalls c List.mem_cons_self rfl) hsame
    · rwa [fields_congr (get?_upsert_of_ne s (Ne.symm hid) c.change),
        fields_congr (get?_upsert_of_ne s' (Ne.symm hid) c.change)]

/-- Changes beside the pair leave the pair of a record that is there. -/
private theorem managed?_afterCalls {calls : List ClientCall} (hcalls : BesidePair id calls)
    {pair : Option Bytes × Option Bytes} (hpair : s.managed? id = some pair) :
    (s.afterCalls calls).managed? id = some pair := by
  induction calls generalizing s with
  | nil => exact hpair
  | cons c calls ih =>
    refine ih (fun d hd => hcalls d (List.mem_cons_of_mem c hd)) ?_
    by_cases hid : c.id = id
    · subst hid
      exact managed?_upsert_of_besidePair (hcalls c List.mem_cons_self rfl) hpair
    · rwa [managed?_congr (get?_upsert_of_ne s (Ne.symm hid) c.change)]

end MemoryStore

/-! ## A pass beside such changes -/

namespace Contended

variable {τ : Type} {g : Handler Signing τ} {w w' : Contended τ} {id : Identity}

/-- What is still to come for a record are changes beside its pair. -/
def OthersBeside (id : Identity) (w : Contended τ) : Prop :=
  BesidePair id (w.turns.flatMap Turn.calls)

private theorem othersBeside_request (h : w.OthersBeside id) (q : Store.Request) :
    (w.request q).2.OthersBeside id := by
  intro c hc
  rw [(request_cases q w).1, List.mem_flatMap] at hc
  obtain ⟨t, ht, hc⟩ := hc
  exact h c (List.mem_flatMap.mpr ⟨t, List.mem_of_mem_tail ht, hc⟩)

/-- A request that changes no record changes nothing of the records in the end. -/
theorem records_atEnd_request {q : Store.Request} (hq : ¬ q.IsUpsert) (w : Contended τ) :
    (w.request q).2.atEnd.records = w.atEnd.records := by
  obtain ⟨hturns, hstore⟩ := request_cases q w
  rw [atEnd, hturns, atEnd_eq w]
  apply MemoryStore.records_afterCalls_congr
  obtain ⟨_, hstore⟩ | ⟨_, hstore⟩ := hstore
  · rw [hstore]
  · rw [hstore, MemoryStore.records_handler hq]

/-- Writing the pair between changes beside it leaves the unmanaged fields in the end as if it had
not been written. -/
theorem sameOthers_atEnd_request (h : w.OthersBeside id) {q : Store.Request}
    (hq : q.WritesPair id) :
    ((w.request q).2.atEnd.fields id).SameOthers (w.atEnd.fields id) := by
  obtain ⟨hturns, hstore⟩ := request_cases q w
  have hrest : BesidePair id (w.turns.tail.flatMap Turn.calls) := by
    have hbeside := othersBeside_request h q
    rwa [OthersBeside, hturns] at hbeside
  rw [atEnd, hturns, atEnd_eq w]
  refine MemoryStore.sameOthers_afterCalls hrest ?_
  cases q with
  | upsert j change =>
    obtain ⟨rfl, f, rfl, hf⟩ := hq
    obtain ⟨_, hstore⟩ | ⟨_, hstore⟩ := hstore
    · rw [hstore]
      exact fun _ _ => rfl
    · obtain ⟨record, hrecord, hdata⟩ :
          ∃ record, (w.next.upsert j fun data => .ok (f data)).2.records.get? j = some record ∧
            ∀ name, record.data.get? name = (f (w.next.fields j)).get? name :=
        MemoryStore.upsert_of_ok rfl
      intro name hn
      rw [hstore]
      exact (congrArg (fun data => Entries.get? data name)
        (MemoryStore.fields_eq_of_get? hrecord)).trans ((hdata name).trans (hf _ name hn))
  | _ => cases hq

/-- An action that does nothing but that and reads leaves the unmanaged fields in the end as if it
had not been run. -/
theorem runWith_sameOthers (g : Handler Signing τ) {α : Type} {a : Action World α}
    (ha : Asks (World.StoreOnly fun q => ¬ q.IsUpsert ∨ q.WritesPair id) a)
    (h : w.OthersBeside id) :
    (runWith (World.contended g) a w).2.OthersBeside id ∧
      ((runWith (World.contended g) a w).2.atEnd.fields id).SameOthers (w.atEnd.fields id) := by
  refine Program.run_induction (R := fun u v : Contended τ => u.OthersBeside id →
    v.OthersBeside id ∧ (v.atEnd.fields id).SameOthers (u.atEnd.fields id))
    (fun u hu => ⟨hu, fun _ _ => rfl⟩) ?_ ?_ ha w h
  · intro u v x huv hvx hu
    obtain ⟨hv, hsame⟩ := huv hu
    obtain ⟨hx, hsame'⟩ := hvx hv
    exact ⟨hx, fun name hn => (hsame' name hn).trans (hsame name hn)⟩
  rintro (q | q) u hq hu
  · refine ⟨othersBeside_request hu q, ?_⟩
    obtain hq | hq := hq
    · have hfields : (u.request q).2.atEnd.fields id = u.atEnd.fields id :=
        MemoryStore.fields_congr (congrArg (Entries.get? · id) (records_atEnd_request hq u))
      exact fun name _ => congrArg (Entries.get? · name) hfields
    · exact sameOthers_atEnd_request hu hq
  · exact ⟨hu, fun _ _ => rfl⟩

/-- The pair that a pass has written is in the record. -/
private theorem managed?_of_write {certificate key : Bytes} {o : Outcome}
    (hrun : runWith (World.contended g) (onStore (Writer.write id certificate key)) w =
      (.ok o, w')) : w'.store.managed? id = some (some certificate, some key) := by
  obtain ⟨_, ⟨⟨_, he⟩, _⟩ | ⟨_, _, hupsert⟩⟩ := runWith_apply hrun
  · cases he
  · exact MemoryStore.managed?_upsert_setPair hupsert

/-- What a pass does after it has dealt with its record changes no record in the end. -/
private theorem records_atEnd_conclude {r : Reconciler} {decision : Decision} {outcome : Outcome}
    {res : Except Failure PassResult}
    (hrun : runWith (World.contended g) (r.conclude id decision outcome) w = (res, w')) :
    w'.atEnd.records = w.atEnd.records := by
  have hrecords : (runWith (World.contended g) (r.conclude id decision outcome) w).2.atEnd.records =
      w.atEnd.records := by
    refine Program.run_induction
      (R := fun u v : Contended τ => v.atEnd.records = u.atEnd.records) (fun _ => rfl)
      (fun _ _ _ h₁ h₂ => h₂.trans h₁) ?_ (r.asks_conclude id decision outcome) w
    rintro (q | q) u hq
    · exact records_atEnd_request (Store.Request.ConcernsInstances.not_isUpsert hq) u
    · cases hq
  rwa [hrun] at hrecords

end Contended

namespace Reconciler

variable {r : Reconciler} {τ : Type} {g : Handler Signing τ} {w w' : Contended τ}
  {id : Identity} {now : Option Moment}

/-- Until it has dealt with its record, a pass changes records by writing the pair only. -/
theorem asks_settle_writesPair (hr : ReadsOnly r.resolve) (id : Identity) (now : Option Moment) :
    Asks (World.StoreOnly fun q => ¬ q.IsUpsert ∨ q.WritesPair id) (r.settle id now) :=
  (r.asks_settle hr id now).mono
    (World.StoreOnly.mono fun _ hq => hq.imp_left Store.Request.IsRead.not_isUpsert)

/-- A pass changes its own record only by writing or removing the pair, and no other record. -/
private theorem asks_reconcile_writesPair (hr : ReadsOnly r.resolve) (id : Identity)
    (now : Option Moment) :
    Asks (World.StoreOnly fun q => ¬ q.IsUpsert ∨ q.WritesPair id) (r.reconcile id now) := by
  rw [reconcile_eq]
  refine (asks_settle_writesPair hr id now).bind fun done => ?_
  refine (r.asks_conclude id done.1 done.2).mono fun q hq => ?_
  exact World.StoreOnly.mono (fun _ hq => .inl hq.not_isUpsert) q (World.storeOnly_of_ofStore q hq)

/-- Once a pass has dealt with its record, the pair that it stores is there in the end. -/
private theorem managed?_of_settle (hr : ReadsOnly r.resolve) (hothers : w.OthersBeside id)
    {decision : Decision} {outcome : Outcome}
    (hrun : runWith (World.contended g) (r.settle id now) w = (.ok (decision, outcome), w')) :
    ∃ pair, r.StoresInPass (World.contended g) id now w decision pair ∧
      w'.atEnd.managed? id = some (some pair.1, some pair.2) := by
  obtain ⟨pair, _, _, hstores, hwrite⟩ := exists_write_of_settle hrun
  have hbeside := (Contended.runWith_sameOthers g (asks_settle_writesPair hr id now) hothers).1
  rw [hrun] at hbeside
  exact ⟨pair, hstores,
    MemoryStore.managed?_afterCalls hbeside (Contended.managed?_of_write hwrite)⟩

/-- While a pass is under way other clients change unmanaged fields of its record, before, between
and after its requests, and other records as they like. Whatever comes of the pass, which may fail
at any request, in the end the unmanaged fields of the record are what those changes alone make of
the ones that were there at the start; and if the pass has returned, the managed fields are the pair
that it stored. -/
theorem reconcile_among_others (hr : ReadsOnly r.resolve) (hothers : w.OthersBeside id)
    {res : Except Failure PassResult}
    (hrun : runWith (World.contended g) (r.reconcile id now) w = (res, w')) :
    (∀ name, ¬ IsManaged name → w'.atEnd.field? id name =
      (w.store.afterCalls (w.turns.flatMap Turn.calls)).field? id name) ∧
    ∀ result, res = .ok result →
      ∃ pair, r.StoresInPass (World.contended g) id now w result.decision pair ∧
        w'.atEnd.managed? id = some (some pair.1, some pair.2) := by
  constructor
  · intro name hn
    have hsame :=
      (Contended.runWith_sameOthers g (asks_reconcile_writesPair hr id now) hothers).2 name hn
    rw [hrun, MemoryStore.get?_fields, MemoryStore.get?_fields] at hsame
    exact hsame
  · rintro result rfl
    obtain ⟨decision, outcome, restart, w₁, rfl, hsettle, _, _⟩ := r.exists_settle_of_reconcile hrun
    obtain ⟨pair, hstores, hpair⟩ := managed?_of_settle hr hothers hsettle
    rw [reconcile_eq, runWith_bind, hsettle] at hrun
    have hrecords := Contended.records_atEnd_conclude hrun
    refine ⟨pair, hstores, ?_⟩
    rwa [MemoryStore.managed?_congr (congrArg (Entries.get? · id) hrecords)]

end Reconciler

/-- What another client sets in the record of a server. -/
def ClientCall.note (name : String) (b : Bytes) : ClientCall :=
  ⟨⟨"system", "tls"⟩, fun data => .ok (data.set name b)⟩

/-- What another client removes from it. -/
def ClientCall.drop (name : String) : ClientCall :=
  ⟨⟨"system", "tls"⟩, fun data => .ok (data.erase name)⟩

/-- A store with that server and without its record, where another client creates the record with a
draft after the first request of a pass, adds a note after the second one and removes the draft
after all. -/
def Contended.noted : Contended (List (Except Failure (Bytes × Bytes))) :=
  ⟨MemoryStore.empty.addInstance ⟨⟨"system", "server"⟩, .empty⟩,
    [.calm, ⟨[.note "draft" [7]], none⟩, ⟨[.note "note" [8]], none⟩, .calm, .calm, .calm,
      ⟨[.drop "draft"], none⟩],
    [.ok ([3], [4])]⟩

namespace Reconciler

/-- In the end of a pass that found no record, while other clients write a note and remove a draft,
the note is in the record and the draft is not, beside the pair that the pass has issued. -/
theorem reconcile_among_others_noted :
    let run := runWith (World.contended scriptedSigner)
      (Reconciler.outside.reconcile ⟨"system", "tls"⟩ (some .first)) .noted
    run.2.atEnd.field? ⟨"system", "tls"⟩ "note" = some [8] ∧
    run.2.atEnd.field? ⟨"system", "tls"⟩ "draft" = none ∧
    ∃ result pair, run.1 = .ok result ∧
      Reconciler.outside.StoresInPass (World.contended scriptedSigner) ⟨"system", "tls"⟩
        (some .first) .noted result.decision pair ∧
      run.2.atEnd.managed? ⟨"system", "tls"⟩ = some (some pair.1, some pair.2) := by
  intro run
  have hnote : ¬ IsManaged "note" := by
    unfold IsManaged
    decide
  have hdraft : ¬ IsManaged "draft" := by
    unfold IsManaged
    decide
  have hothers : Contended.noted.OthersBeside ⟨"system", "tls"⟩ := by
    intro c hc _
    have hcalls : c ∈ [.note "draft" [7], .note "note" [8], ClientCall.drop "draft"] := hc
    simp only [List.mem_cons, List.not_mem_nil, or_false] at hcalls
    rcases hcalls with rfl | rfl | rfl
    · exact Mutation.besidePair_set hdraft [7]
    · exact Mutation.besidePair_set hnote [8]
    · exact Mutation.besidePair_erase hdraft
  obtain ⟨hfields, hpair⟩ := reconcile_among_others (r := Reconciler.outside) (g := scriptedSigner)
    (asks_pure _) hothers (rfl : _ = (run.1, run.2))
  refine ⟨(hfields "note" hnote).trans (by decide +kernel),
    (hfields "draft" hdraft).trans (by decide +kernel), ?_⟩
  have hok : run.1.isOk = true := by decide +kernel
  rcases hres : run.1 with e | result
  · rw [hres] at hok
    cases hok
  · obtain ⟨pair, hstores, hmanaged⟩ := hpair result hres
    exact ⟨result, pair, rfl, hstores, hmanaged⟩

end Reconciler

end CertKeeper
