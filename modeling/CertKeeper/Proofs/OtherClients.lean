import CertKeeper.Proofs.PassPair

/-!
# Other clients of the store

A store in memory that other clients use while a pass is under way. Their calls take effect between
two requests of the pass; requests of authorities do not see the store, so it does not matter on
which side of one a call takes effect. `Contended.Passes` says that a part of a pass has let some
turns of the other clients pass and has changed nothing itself, as every part does that only reads
(`exists_passes_of_reads`).
-/

namespace CertKeeper

open CertKeeper.Action Reconciler

/-- A change of a record that another client makes. -/
structure ClientCall where
  id : Identity
  change : Mutation

namespace MemoryStore

/-- The store after changes of other clients, one after another; one that fails has no effect. -/
def afterCalls (s : MemoryStore) (calls : List ClientCall) : MemoryStore :=
  calls.foldl (fun s c => (s.upsert c.id c.change).2) s

@[simp] theorem afterCalls_nil (s : MemoryStore) : s.afterCalls [] = s := rfl

@[simp] theorem afterCalls_cons (s : MemoryStore) (c : ClientCall) (calls : List ClientCall) :
    s.afterCalls (c :: calls) = (s.upsert c.id c.change).2.afterCalls calls := rfl

private theorem afterCalls_append (s : MemoryStore) (calls calls' : List ClientCall) :
    s.afterCalls (calls ++ calls') = (s.afterCalls calls).afterCalls calls' :=
  List.foldl_append

/-- Other clients remove no record. -/
private theorem exists_record_afterCalls {s : MemoryStore} {id : Identity} {record : Record}
    (hrecord : s.records.get? id = some record) (calls : List ClientCall) :
    ∃ record', (s.afterCalls calls).records.get? id = some record' := by
  induction calls generalizing s record with
  | nil => exact ⟨record, hrecord⟩
  | cons c calls ih =>
    rw [afterCalls_cons]
    rcases s.upsert_stores c.id c.change with hsame | ⟨r, hset, _⟩
    · rw [hsame]
      exact ih hrecord
    · rw [hset]
      by_cases hid : r.id = id
      · exact ih ((get?_setRecord _ _ _).trans (if_pos hid))
      · exact ih ((get?_setRecord _ _ _).trans ((if_neg hid).trans hrecord))

end MemoryStore

/-- What happens before a request of a pass: changes of other clients, and whether the request then
fails. -/
structure Turn where
  calls : List ClientCall
  failure : Option Failure

/-- A turn in which nothing happens. -/
def Turn.calm : Turn := ⟨[], none⟩

/-- A store in memory that others use as well, beside whoever answers the authorities. -/
structure Contended (τ : Type) where
  store : MemoryStore
  /-- The turns of the next requests; later ones are calm. -/
  turns : List Turn
  signer : τ

namespace Contended

variable {τ : Type} {u v w : Contended τ} {m n : Nat}

/-- The turn of the next request. -/
def turn (w : Contended τ) : Turn := w.turns.headD .calm

/-- The store that the next request meets. -/
def next (w : Contended τ) : MemoryStore := w.store.afterCalls w.turn.calls

/-- The store as the others leave it in a number of turns if nobody else changes it. -/
def leftAfter (w : Contended τ) (n : Nat) : MemoryStore :=
  w.store.afterCalls ((w.turns.take n).flatMap Turn.calls)

/-- The store as the others leave it in the end if nobody else changes it any more. -/
def atEnd (w : Contended τ) : MemoryStore := w.store.afterCalls (w.turns.flatMap Turn.calls)

/-- The next state of a store in use is the one that one turn of the others leaves. -/
theorem next_eq (w : Contended τ) : w.next = w.leftAfter 1 := by
  unfold next leftAfter turn
  cases w.turns <;> simp [Turn.calm]

/-- What the others leave in the end they leave after the next turn. -/
theorem atEnd_eq (w : Contended τ) :
    w.atEnd = w.next.afterCalls (w.turns.tail.flatMap Turn.calls) := by
  unfold atEnd next turn
  cases w.turns with
  | nil => rfl
  | cons t turns => simp [MemoryStore.afterCalls_append]

/-- What the others leave later on comes from what they have left before. -/
theorem leftAfter_add (w : Contended τ) (m n : Nat) : w.leftAfter (m + n) =
    (w.leftAfter m).afterCalls (((w.turns.drop m).take n).flatMap Turn.calls) := by
  rw [leftAfter, leftAfter, List.take_add, List.flatMap_append, MemoryStore.afterCalls_append]

/-- A record that the others have left stays there. -/
theorem exists_record_leftAfter {id : Identity} {record : Record}
    (hrecord : (w.leftAfter m).records.get? id = some record) (hle : m ≤ n) :
    ∃ record', (w.leftAfter n).records.get? id = some record' := by
  obtain ⟨k, rfl⟩ := Nat.exists_eq_add_of_le hle
  rw [leftAfter_add]
  exact MemoryStore.exists_record_afterCalls hrecord _

/-- A number of turns have passed, and only the others have changed the store. -/
structure Passes (n : Nat) (w w' : Contended τ) : Prop where
  store : w'.store = w.leftAfter n
  turns : w'.turns = w.turns.drop n

/-- No turn passes where nothing happens. -/
theorem Passes.refl (w : Contended τ) : Passes 0 w w := ⟨by simp [leftAfter], by simp⟩

/-- What the others leave after some turns and then some more is what they leave after all of
these. -/
theorem Passes.leftAfter_eq (h : Passes m u v) (n : Nat) :
    v.leftAfter n = u.leftAfter (m + n) := by
  rw [leftAfter_add, leftAfter, h.store, h.turns]

/-- The turns that pass add up. -/
theorem Passes.trans (h₁ : Passes m u v) (h₂ : Passes n v w) : Passes (m + n) u w :=
  ⟨h₂.store.trans (h₁.leftAfter_eq n), by rw [h₂.turns, h₁.turns, List.drop_drop]⟩

/-- A request in its turn. The changes of the others come first; then the request fails without
effect, or it does what it does in memory. -/
def request (q : Store.Request) (w : Contended τ) : Except Failure q.Result × Contended τ :=
  match w.turn.failure with
  | some e => (.error e, ⟨w.next, w.turns.tail, w.signer⟩)
  | none =>
    ((MemoryStore.handler q w.next).1, ⟨(MemoryStore.handler q w.next).2, w.turns.tail, w.signer⟩)

end Contended

/-- A contended store and whoever answers the authorities. -/
def World.contended {τ : Type} (g : Handler Signing τ) : Handler World (Contended τ)
  | .inl q, w => w.request q
  | .inr q, w => ((g q w.signer).1, ⟨w.store, w.turns, (g q w.signer).2⟩)

namespace Contended

variable {τ : Type} {g : Handler Signing τ} {w w' : Contended τ} {id : Identity}

/-- How a request comes out: an error and no effect, or what it is in memory. -/
theorem request_cases (q : Store.Request) (w : Contended τ) :
    (w.request q).2.turns = w.turns.tail ∧
    ((∃ e, (w.request q).1 = .error e) ∧ (w.request q).2.store = w.next ∨
      (w.request q).1 = (MemoryStore.handler q w.next).1 ∧
        (w.request q).2.store = (MemoryStore.handler q w.next).2) := by
  unfold request
  cases w.turn.failure with
  | some e => exact ⟨rfl, .inl ⟨⟨e, rfl⟩, rfl⟩⟩
  | none => exact ⟨rfl, .inr ⟨rfl, rfl⟩⟩

/-- A request for a record lets one turn pass. -/
theorem passes_of_isRead {q : Store.Request} (hq : q.IsRead) (w : Contended τ) :
    Passes 1 w (w.request q).2 := by
  obtain ⟨hturns, hstore⟩ := request_cases q w
  refine ⟨?_, hturns.trans List.drop_one.symm⟩
  rw [← next_eq]
  obtain ⟨_, hstore⟩ | ⟨_, hstore⟩ := hstore
  · exact hstore
  · cases q with
    | getRecord j => exact hstore
    | _ => cases hq

/-- What only reads records lets some turns pass and changes nothing itself. -/
theorem exists_passes_of_reads {α : Type} {a : Action World α}
    (ha : Asks (World.StoreOnly Store.Request.IsRead) a) (w : Contended τ) :
    ∃ n, Passes n w (runWith (World.contended g) a w).2 := by
  refine Program.run_induction (R := fun u v => ∃ n, Passes n u v) (fun u => ⟨0, .refl u⟩)
    (fun _ _ _ ⟨m, h₁⟩ ⟨n, h₂⟩ => ⟨m + n, h₁.trans h₂⟩) ?_ ha w
  rintro (q | q) u hq
  · exact ⟨1, passes_of_isRead hq u⟩
  · exact ⟨0, (Passes.refl u).store, (Passes.refl u).turns⟩

/-- An action of an authority is run by whoever answers the authorities. -/
theorem runWith_onSigning (g : Handler Signing τ) {α : Type} (a : Action Signing α)
    (w : Contended τ) :
    runWith (World.contended g) (onSigning a) w =
      ((runWith g a w.signer).1, ⟨w.store, w.turns, (runWith g a w.signer).2⟩) := by
  rw [Reconciler.runWith_onSigning]
  change Program.run _ a.run w = _
  unfold runWith
  induction a.run generalizing w with
  | done x => rfl
  | ask q resume ih => exact ih _ _

/-- An action of a signer lets no turn of other clients pass. -/
theorem passes_onSigning (g : Handler Signing τ) {α : Type} (a : Action Signing α)
    (w : Contended τ) : Passes 0 w (runWith (World.contended g) (onSigning a) w).2 := by
  rw [runWith_onSigning]
  exact ⟨(Passes.refl w).store, (Passes.refl w).turns⟩

/-- A record that is fetched is the one that the others have left in the first turn, unless none is
found. -/
theorem runWith_fetch {record : Record}
    (hrun : runWith (World.contended g) (onStore (fetch id)) w = (.ok record, w')) :
    Passes 1 w w' ∧ (record = .missing id ∨ (w.leftAfter 1).records.get? id = some record) := by
  rw [runWith_fetch_eq] at hrun
  have hpasses := passes_of_isRead (q := .getRecord id) trivial w
  obtain ⟨_, hanswer⟩ := request_cases (.getRecord id) w
  rcases hq : w.request (.getRecord id) with ⟨e | found, w₁⟩
  · have hq' : World.contended g (.inl (.getRecord id)) w = (.error e, w₁) := hq
    rw [hq'] at hrun
    rw [hq] at hpasses
    dsimp only at hrun
    split at hrun
    · cases hrun
      exact ⟨hpasses, .inl rfl⟩
    · cases hrun
  · have hq' : World.contended g (.inl (.getRecord id)) w = (.ok found, w₁) := hq
    rw [hq'] at hrun
    rw [hq] at hpasses hanswer
    cases hrun
    refine ⟨hpasses, .inr ?_⟩
    obtain ⟨⟨_, he⟩, _⟩ | ⟨he, _⟩ := hanswer
    · cases he
    · rw [← next_eq]
      exact MemoryStore.getRecord_eq_ok_iff.mp he.symm

/-- A change of a record is made in what the others have left right before it, or fails. -/
theorem runWith_apply {change : Fields → Fields} {res : Except Failure Outcome}
    (hrun : runWith (World.contended g) (onStore (Writer.apply id change)) w = (res, w')) :
    w'.turns = w.turns.tail ∧
    ((∃ e, res = .error (.write id e)) ∧ w'.store = w.next ∨
      ∃ o, res = .ok o ∧
        w.next.upsert id (fun data => .ok (change data)) = (.ok o, w'.store)) := by
  rw [runWith_apply_eq] at hrun
  cases hrun
  obtain ⟨hturns, hanswer⟩ := request_cases (.upsert id fun data => .ok (change data)) w
  refine ⟨hturns, ?_⟩
  obtain ⟨⟨e, he⟩, hstore⟩ | ⟨he, hstore⟩ := hanswer
  · exact .inl ⟨⟨e, congrArg (Except.mapError (Failure.write id)) he⟩, hstore⟩
  · obtain ⟨o, s', ho⟩ := MemoryStore.exists_upsert_eq_ok w.next id change
    have hok := he.trans (congrArg Prod.fst ho)
    refine .inr ⟨o, congrArg (Except.mapError (Failure.write id)) hok, ?_⟩
    exact ho.trans (Prod.ext rfl (hstore.trans (congrArg Prod.snd ho)).symm)

/-- In a turn without a failure it is made. -/
theorem exists_runWith_apply (hturn : w.turn.failure = none) (id : Identity)
    (change : Fields → Fields) :
    ∃ o w', runWith (World.contended g) (onStore (Writer.apply id change)) w = (.ok o, w') := by
  obtain ⟨o, s', ho⟩ := MemoryStore.exists_upsert_eq_ok w.next id change
  have hrequest : w.request (.upsert id fun data => .ok (change data)) =
      (.ok o, ⟨s', w.turns.tail, w.signer⟩) := by
    rw [request, hturn]
    exact congrArg (fun x => (x.1, (⟨x.2, w.turns.tail, w.signer⟩ : Contended τ))) ho
  refine ⟨o, ⟨s', w.turns.tail, w.signer⟩, ?_⟩
  rw [runWith_apply_eq]
  exact congrArg (fun x => (x.1.mapError (Failure.write id), x.2)) hrequest

end Contended

end CertKeeper
