import CertKeeper.Proofs.MemoryUpsert
import CertKeeper.Proofs.PassSteps

/-!
# Passes over a shared store

A store in memory whose requests may fail without effect, and which others may change between two
requests of a pass. What the pair of a record is after each part of a pass follows from this alone,
whatever the authority does.
-/

namespace CertKeeper

open CertKeeper.Action

/-- In memory only an upsert changes records. -/
theorem MemoryStore.records_handler {q : Store.Request} (hq : ¬ q.IsUpsert) (s : MemoryStore) :
    (handler q s).2.records = s.records := by
  cases q with
  | upsert => exact absurd trivial hq
  | deleteInstance id =>
    simp only [handler, deleteInstance]
    split <;> rfl
  | _ => rfl

/-- A handler of passes serves a store in memory: a request either fails without effect or does what
it does in memory, and in between the store changes in ways of a given kind only. -/
structure Serves {σ : Type} (h : Handler World σ) (view : σ → MemoryStore)
    (Change : MemoryStore → MemoryStore → Prop) : Prop where
  request : ∀ (q : Store.Request) (w : σ), ∃ s, Change (view w) s ∧
    ((∃ e, (h (.inl q) w).1 = .error e) ∧ view (h (.inl q) w).2 = s ∨
      (h (.inl q) w).1 = (MemoryStore.handler q s).1 ∧
        view (h (.inl q) w).2 = (MemoryStore.handler q s).2)
  signing : ∀ (q : Signing.Request) (w : σ), Change (view w) (view (h (.inr q) w).2)

/-- Nothing but the pass itself changes the store, whose requests may fail without effect. -/
def ServesAlone {σ : Type} (h : Handler World σ) (view : σ → MemoryStore) : Prop :=
  Serves h view Eq

/-- Others leave the pair of a record as it is and do not remove the record. -/
def KeepsPair (id : Identity) (s s' : MemoryStore) : Prop := s'.managed? id = s.managed? id

/-- A store in memory beside whoever answers the authorities. -/
def World.inMemory {τ : Type} (g : Handler Signing τ) : Handler World (MemoryStore × τ) :=
  Handler.sum MemoryStore.handler g

/-- The world in memory serves its store alone and without failures. -/
theorem servesAlone_inMemory {τ : Type} (g : Handler Signing τ) :
    ServesAlone (World.inMemory g) Prod.fst where
  request _ w := ⟨w.1, rfl, .inr ⟨rfl, rfl⟩⟩
  signing _ _ := rfl

/-- A signer outside the library that accepts every certificate and answers requests for pairs from
a list. -/
def scriptedSigner : Handler Signing (List (Except Failure (Bytes × Bytes)))
  | .clock, script => (.first, script)
  | .drawKey _ _, script => (⟨0, 0, 0, 0, 0, 0, 0, 0⟩, script)
  | .drawSerial, script => ((1 : Int), script)
  | .consultIssue _ _, [] => (.error (.external .runtime "no answer"), [])
  | .consultIssue _ _, answer :: rest => (answer, rest)
  | .consultValidate _ _ _, script => (.ok .accepted, script)

/-- A reconciler for one server whose certificates come from outside the library. -/
def Reconciler.outside : Reconciler where
  resolve := pure .outside
  dnsName := "server.system.svc"
  reserved := ⟨"system", "tls"⟩
  self := ⟨"system", "server"⟩
  lifetime := ⟨3600000000⟩

/-- A store with that server and its record, which has a pair that nobody can read and a further
field. -/
def MemoryStore.unreadable : MemoryStore :=
  (empty.setRecord ⟨⟨"system", "tls"⟩,
    ((Entries.empty.set certificateField [1]).set keyField [2]).set "note" [7], 1⟩).addInstance
    ⟨⟨"system", "server"⟩, .empty⟩

namespace Serves

variable {σ : Type} {h : Handler World σ} {view : σ → MemoryStore}
  {Change : MemoryStore → MemoryStore → Prop} {w w' : σ} {id : Identity}

/-- A world serves a store under every wider condition on its changes. -/
theorem mono {Change' : MemoryStore → MemoryStore → Prop} (hs : Serves h view Change)
    (hC : ∀ s s', Change s s' → Change' s s') : Serves h view Change' where
  request q w :=
    let ⟨s, hc, hr⟩ := hs.request q w
    ⟨s, hC _ _ hc, hr⟩
  signing q w := hC _ _ (hs.signing q w)

/-- A store that nobody else uses keeps every pair between the requests of a pass. -/
theorem keepsPair (hs : ServesAlone h view) (id : Identity) : Serves h view (KeepsPair id) :=
  hs.mono fun _ _ e => e ▸ rfl

/-- A request that changes no record keeps every pair. -/
private theorem keepsPair_request (hs : Serves h view (KeepsPair id)) {q : Store.Request}
    (hq : ¬ q.IsUpsert) (w : σ) : KeepsPair id (view w) (view (h (.inl q) w).2) := by
  obtain ⟨s, hc, ⟨_, hv⟩ | ⟨_, hv⟩⟩ := hs.request q w
  · rw [hv]
    exact hc
  · rw [hv, KeepsPair, MemoryStore.managed?, MemoryStore.records_handler hq]
    exact hc

/-- An action that changes no record keeps every pair. -/
theorem keepsPair_runWith (hs : Serves h view (KeepsPair id)) {α : Type} {a : Action World α}
    (ha : Asks (World.StoreOnly fun q => ¬ q.IsUpsert) a) (w : σ) :
    KeepsPair id (view w) (view (runWith h a w).2) := by
  refine Program.run_induction (R := fun u v => KeepsPair id (view u) (view v)) (fun _ => rfl)
    (fun _ _ _ h₁ h₂ => h₂.trans h₁) ?_ ha w
  rintro (q | q) u hq
  · exact keepsPair_request hs hq u
  · exact hs.signing q u

/-- A change of a record either fails as a whole or is made in memory. -/
theorem runWith_apply (hs : Serves h view Change) {change : Fields → Fields}
    {res : Except Failure Outcome}
    (hrun : runWith h (Reconciler.onStore (Writer.apply id change)) w = (res, w')) :
    ∃ s, Change (view w) s ∧
      ((∃ e, res = .error (.write id e)) ∧ view w' = s ∨
        ∃ o, res = .ok o ∧ s.upsert id (fun data => .ok (change data)) = (.ok o, view w')) := by
  rw [Reconciler.runWith_apply_eq] at hrun
  cases hrun
  obtain ⟨s, hc, ⟨⟨e, he⟩, hv⟩ | ⟨he, hv⟩⟩ :=
    hs.request (.upsert id fun data => .ok (change data)) w
  · exact ⟨s, hc, .inl ⟨⟨e, congrArg (Except.mapError (Failure.write id)) he⟩, hv⟩⟩
  · obtain ⟨o, s', ho⟩ := MemoryStore.exists_upsert_eq_ok s id change
    have he' : (h (.inl (.upsert id fun data => .ok (change data))) w).1 = .ok o :=
      he.trans (congrArg Prod.fst ho)
    have hv' : view (h (.inl (.upsert id fun data => .ok (change data))) w).2 = s' :=
      hv.trans (congrArg Prod.snd ho)
    refine ⟨s, hc, .inr ⟨o, congrArg (Except.mapError (Failure.write id)) he', ?_⟩⟩
    exact hv' ▸ ho

/-- What a change that leaves a given pair behind does to the pair of its record: nothing if it
fails, else that pair is there; a change that is not reported has not been made, and a record is
reported as new if and only if there was none. -/
structure Leaves (view : σ → MemoryStore) (id : Identity) (pair : Option Bytes × Option Bytes)
    (o : Outcome) (w w' : σ) : Prop where
  left : (view w').managed? id = some pair
  unchanged : o = .unchanged → (view w).managed? id = some pair
  created : o = .created ↔ (view w).managed? id = none

private theorem runWith_apply_leaves (hs : Serves h view (KeepsPair id))
    {change : Fields → Fields} {pair : Option Bytes × Option Bytes}
    (hpair : ∀ {s s' : MemoryStore} {o : Outcome},
      s.upsert id (fun data => .ok (change data)) = (.ok o, s') → s'.managed? id = some pair)
    {res : Except Failure Outcome}
    (hrun : runWith h (Reconciler.onStore (Writer.apply id change)) w = (res, w')) :
    (∃ e, res = .error (.write id e) ∧ KeepsPair id (view w) (view w')) ∨
      ∃ o, res = .ok o ∧ Leaves view id pair o w w' := by
  obtain ⟨s, hc, ⟨⟨e, rfl⟩, hv⟩ | ⟨o, rfl, hup⟩⟩ := hs.runWith_apply hrun
  · exact .inl ⟨e, rfl, hv ▸ hc⟩
  · refine .inr ⟨o, rfl, hpair hup, ?_, ?_⟩
    · rintro rfl
      have hsame := MemoryStore.upsert_unchanged hup
      rw [← hc, ← hsame]
      exact hpair hup
    · rw [MemoryStore.upsert_created_iff hup, ← hc, MemoryStore.managed?, Option.map_eq_none_iff]

/-- Writing a pair. -/
theorem runWith_write (hs : Serves h view (KeepsPair id)) {certificate key : Bytes}
    {res : Except Failure Outcome}
    (hrun : runWith h (Reconciler.onStore (Writer.write id certificate key)) w = (res, w')) :
    (∃ e, res = .error (.write id e) ∧ KeepsPair id (view w) (view w')) ∨
      ∃ o, res = .ok o ∧ Leaves view id (some certificate, some key) o w w' :=
  runWith_apply_leaves hs MemoryStore.managed?_upsert_setPair hrun

/-- Removing the pair. -/
theorem runWith_clear (hs : Serves h view (KeepsPair id)) {res : Except Failure Outcome}
    (hrun : runWith h (Reconciler.onStore (Writer.clear id)) w = (res, w')) :
    (∃ e, res = .error (.write id e) ∧ KeepsPair id (view w) (view w')) ∨
      ∃ o, res = .ok o ∧ Leaves view id (none, none) o w w' :=
  runWith_apply_leaves hs MemoryStore.managed?_upsert_removePair hrun

end Serves

end CertKeeper
