import CertKeeper.Proofs.InterleavedRuns
import CertKeeper.Proofs.PassPair

/-!
# Passes at the same time

A pass reads its record and that of the authority, writes its record, and deals with the instances
only if its record is the reserved one. Two passes for different records, none of which is the
authority's, therefore do not notice each other, in whatever order their requests reach a store in
memory, and they leave what they leave one after the other (`PassOf.together_eq_alone`).
-/

namespace CertKeeper

open CertKeeper.Action Reconciler

/-! ## What a pass asks for -/

namespace Store.Request

/-- A request for a record or for the authority's one, a change of the record, or, if servers may be
restarted, a request about instances. -/
def Within (id authority : Identity) (restarts : Prop) : Store.Request → Prop
  | getRecord j => j = id ∨ j = authority
  | upsert j _ => j = id
  | getInstance _ | listInstances _ _ | deleteInstance _ => restarts

variable {id authority : Identity} {restarts : Prop} {q : Store.Request}

private theorem Reads.within_authority (h : q.Reads authority) :
    q.Within id authority restarts := by
  rw [h]
  exact .inr rfl

/-- A request about instances is within a pass that may restart servers. -/
theorem ConcernsInstances.within (h : q.ConcernsInstances) (hrestarts : restarts) :
    q.Within id authority restarts := by
  cases q with
  | getRecord | upsert => cases h
  | getInstance | listInstances | deleteInstance => exact hrestarts

end Store.Request

namespace Reconciler

variable (r : Reconciler) {authority : Identity}

/-- What a pass asks of the store is for its record, or is asked to find the authority, or, if its
record is the reserved one, by a restart. -/
theorem asks_reconcile_of {P : Store.Request → Prop} {id : Identity} (hresolve : Asks P r.resolve)
    (hread : P (.getRecord id)) (hwrite : ∀ change, P (.upsert id change))
    (hrestart : id = r.reserved → Asks P (Restart.restart r.self)) (now : Option Moment) :
    Asks (World.StoreOnly P) (r.reconcile id now) := by
  have hpair (q : Store.Request) (hq : q.WritesPair id) : P q := by
    cases q with
    | upsert j change => exact hq.1 ▸ hwrite change
    | _ => cases hq
  refine (asks_onSigning _).bind fun m => ?_
  refine (storeOnly_onStore ((asks_fetch_reads id).mono fun q hq => ?_)).bind fun record => ?_
  · rw [hq]
    exact hread
  refine (storeOnly_onStore (hresolve.mapFailure _)).bind fun authority => ?_
  refine (asks_onSigning _).bind fun evaluation => ?_
  refine (asks_ofExcept _ _).bind fun decision => ?_
  refine ((r.asks_carryOut id _ _ m _).mono (World.StoreOnly.mono hpair)).bind fun outcome => ?_
  split
  · next hrestarts =>
    exact (Asks.map _ (storeOnly_onStore (hrestart hrestarts.1))).bind fun restart => asks_pure _
  · exact (asks_pure _).bind fun restart => asks_pure _

/-- A pass reads its record and that of the authority, writes its record, and deals with instances
only if its record is the reserved one. -/
private theorem asks_reconcile (hr : Asks (Store.Request.Reads authority) r.resolve) (id : Identity)
    (now : Option Moment) :
    Asks (World.StoreOnly (Store.Request.Within id authority (id = r.reserved)))
      (r.reconcile id now) :=
  r.asks_reconcile_of (hr.mono fun _ hq => hq.within_authority) (.inl rfl) (fun _ => rfl)
    (fun hrestarts => (asks_restart r.self).mono fun _ hq => hq.within hrestarts) now

end Reconciler

/-! ## What a pass sees of a store -/

namespace MemoryStore

/-- The record of a pass, that of the authority, and the instances if servers may be restarted. -/
def part (id authority : Identity) (restarts : Prop) [Decidable restarts] (s : MemoryStore) :
    Option Record × Option Record × Option (Entries Identity Instance) :=
  (s.records.get? id, s.records.get? authority, if restarts then some s.instances else none)

/-- Stores with the same contents, in whatever order the records have been put in. -/
structure SameContents (s s' : MemoryStore) : Prop where
  records : ∀ id, s.records.get? id = s'.records.get? id
  instances : s.instances = s'.instances

variable {id authority : Identity} {restarts : Prop} {s s' : MemoryStore}

/-- Stores agree on the part of a pass if they have the two records and, in case of restarts, the
instances in common. -/
theorem part_eq_iff [Decidable restarts] :
    s.part id authority restarts = s'.part id authority restarts ↔
      s.records.get? id = s'.records.get? id ∧
        s.records.get? authority = s'.records.get? authority ∧
        (restarts → s.instances = s'.instances) := by
  simp only [part, Prod.mk.injEq]
  by_cases hrestarts : restarts <;> simp [hrestarts]

/-- An upsert depends on the former record only. -/
private theorem upsert_agree (change : Mutation) (h : s.records.get? id = s'.records.get? id) :
    (s.upsert id change).1 = (s'.upsert id change).1 ∧
      (s.upsert id change).2.records.get? id = (s'.upsert id change).2.records.get? id := by
  unfold upsert
  rw [h]
  cases hget : s'.records.get? id with
  | none =>
    dsimp only
    cases change .empty with
    | error e => exact ⟨rfl, h⟩
    | ok data => simp
  | some record =>
    dsimp only
    cases change record.data with
    | error e => exact ⟨rfl, h⟩
    | ok data =>
      dsimp only
      split
      · exact ⟨rfl, h⟩
      · simp

/-- A request of a pass is answered by what the pass sees of the store. -/
private theorem handler_agree [Decidable restarts] {q : Store.Request}
    (hq : q.Within id authority restarts)
    (h : s.part id authority restarts = s'.part id authority restarts) :
    (handler q s).1 = (handler q s').1 ∧
      (handler q s).2.part id authority restarts = (handler q s').2.part id authority restarts := by
  obtain ⟨hid, hauthority, hinstances⟩ := part_eq_iff.mp h
  cases q with
  | getRecord j =>
    refine ⟨?_, h⟩
    change s.getRecord j = s'.getRecord j
    obtain rfl | rfl := hq
    · rw [getRecord, getRecord, hid]
    · rw [getRecord, getRecord, hauthority]
  | upsert j change =>
    obtain rfl : j = id := hq
    obtain ⟨hanswer, hrecord⟩ := upsert_agree change hid
    refine ⟨hanswer, part_eq_iff.mpr ⟨hrecord, ?_, ?_⟩⟩
    · by_cases hsame : authority = j
      · rw [hsame]
        exact hrecord
      · simp only [handler]
        rw [get?_upsert_of_ne s hsame, get?_upsert_of_ne s' hsame, hauthority]
    · simp only [handler, upsert_instances]
      exact hinstances
  | getInstance j =>
    refine ⟨?_, h⟩
    change s.getInstance j = s'.getInstance j
    rw [getInstance, getInstance, hinstances hq]
  | listInstances space labels =>
    refine ⟨congrArg Except.ok ?_, h⟩
    rw [listInstances, listInstances, hinstances hq]
  | deleteInstance j =>
    have heq := hinstances hq
    simp only [handler, deleteInstance, heq]
    split
    · exact ⟨rfl, part_eq_iff.mpr ⟨hid, hauthority, fun _ => rfl⟩⟩
    · exact ⟨rfl, h⟩

/-- A request of a pass leaves the other records as they are. -/
theorem get?_handler_of_ne {q : Store.Request} (hq : q.Within id authority restarts)
    {j : Identity} (hj : j ≠ id) (s : MemoryStore) :
    (handler q s).2.records.get? j = s.records.get? j := by
  cases q with
  | upsert k change =>
    obtain rfl : k = id := hq
    exact get?_upsert_of_ne s hj change
  | deleteInstance k =>
    exact congrArg (·.get? j) (records_handler (q := .deleteInstance k) (fun h => h) s)
  | getRecord | getInstance | listInstances => rfl

/-- A request of a pass leaves the instances as they are unless servers may be restarted. -/
theorem instances_handler {q : Store.Request} (hq : q.Within id authority restarts)
    (hcalm : ¬ restarts) (s : MemoryStore) : (handler q s).2.instances = s.instances := by
  cases q with
  | upsert j change => exact upsert_instances s j change
  | getRecord j => rfl
  | getInstance | listInstances | deleteInstance => exact absurd hq hcalm

end MemoryStore

namespace World

variable {τ : Type} {id id' authority : Identity} {restarts restarts' : Prop}

/-- Over a store in memory a pass depends on what it sees of the store. -/
theorem local_inMemory (g : Handler Signing τ) (id authority : Identity) (restarts : Prop)
    [Decidable restarts] :
    (World.inMemory g).Local (World.StoreOnly (Store.Request.Within id authority restarts))
      (MemoryStore.part id authority restarts) := by
  rintro (q | q) s s' t hq hs
  · obtain ⟨hanswer, hpart⟩ := MemoryStore.handler_agree hq hs
    exact ⟨hanswer, hpart, rfl⟩
  · exact ⟨rfl, hs, rfl⟩

/-- A pass leaves alone what a pass for another record sees of the store, if its own record is not
the authority's and at most one of the two may restart servers. -/
private theorem spares_part [Decidable restarts'] (g : Handler Signing τ) (hne : id' ≠ id)
    (hauthority : authority ≠ id) (hone : ¬ (restarts ∧ restarts')) :
    (World.inMemory g).Spares (World.StoreOnly (Store.Request.Within id authority restarts))
      (MemoryStore.part id' authority restarts') := by
  rintro (q | q) w hq
  · refine MemoryStore.part_eq_iff.mpr ⟨?_, ?_, fun hrestarts' => ?_⟩
    · exact MemoryStore.get?_handler_of_ne hq hne w.1
    · exact MemoryStore.get?_handler_of_ne hq hauthority w.1
    · exact MemoryStore.instances_handler hq (fun hrestarts => hone ⟨hrestarts, hrestarts'⟩) w.1
  · rfl

/-- A pass leaves every record but its own alone. -/
theorem spares_record (g : Handler Signing τ) (authority : Identity) (restarts : Prop)
    (hne : id' ≠ id) :
    (World.inMemory g).Spares (World.StoreOnly (Store.Request.Within id authority restarts))
      (fun s => s.records.get? id') := by
  rintro (q | q) w hq
  · exact MemoryStore.get?_handler_of_ne hq hne w.1
  · rfl

/-- A pass that may not restart servers leaves the instances alone. -/
theorem spares_instances (g : Handler Signing τ) (id authority : Identity) (hcalm : ¬ restarts) :
    (World.inMemory g).Spares (World.StoreOnly (Store.Request.Within id authority restarts))
      MemoryStore.instances := by
  rintro (q | q) w hq
  · exact MemoryStore.instances_handler hq hcalm w.1
  · rfl

end World

/-! ## Two passes -/

/-- A pass that somebody makes: for which record and when, and who answers its authority. -/
structure PassOf (τ : Type) where
  reconciler : Reconciler
  id : Identity
  now : Option Moment
  signer : Handler Signing τ
  memory : τ

namespace PassOf

variable {τ υ : Type}

/-- Whether the pass may restart servers. -/
abbrev Restarts (c : PassOf τ) : Prop := c.id = c.reconciler.reserved

/-- What the pass may ask for. -/
def Deals (c : PassOf τ) (authority : Identity) : World.Question → Prop :=
  World.StoreOnly (Store.Request.Within c.id authority c.Restarts)

/-- What the pass sees of a store. -/
def part (c : PassOf τ) (authority : Identity) (s : MemoryStore) :
    Option Record × Option Record × Option (Entries Identity Instance) :=
  s.part c.id authority c.Restarts

/-- What the pass does. -/
def program (c : PassOf τ) : Program World (Except Failure PassResult) :=
  (c.reconciler.reconcile c.id c.now).run

/-- What it comes to on a store that nobody else uses. -/
def alone (c : PassOf τ) (s : MemoryStore) : Except Failure PassResult × MemoryStore × τ :=
  c.program.run (World.inMemory c.signer) (s, c.memory)

/-- What it and another pass come to on a store that they both use, in an order of turns. -/
def together (c : PassOf τ) (d : PassOf υ) (turns : List Side) (s : MemoryStore) :
    (Except Failure PassResult × Except Failure PassResult) × MemoryStore × τ × υ :=
  Program.interleave (World.inMemory c.signer) (World.inMemory d.signer) turns c.program d.program
    (s, c.memory, d.memory)

/-- Two passes with the same reserved record for different records, none of which is that of the
authority. Finding the authority asks for its record only. -/
structure Apart (c : PassOf τ) (d : PassOf υ) (authority : Identity) : Prop where
  reserved : c.reconciler.reserved = d.reconciler.reserved
  ids : c.id ≠ d.id
  first : c.id ≠ authority
  second : d.id ≠ authority
  resolveFirst : Asks (Store.Request.Reads authority) c.reconciler.resolve
  resolveSecond : Asks (Store.Request.Reads authority) d.reconciler.resolve

/-- What two passes have left of a store: what each of them leaves alone, and the rest as it was. -/
structure Left (c : PassOf τ) (d : PassOf υ) (authority : Identity) (s s' : MemoryStore) :
    Prop where
  first : c.part authority s' = c.part authority (c.alone s).2.1
  second : d.part authority s' = d.part authority (d.alone s).2.1
  records : ∀ j, j ≠ c.id → j ≠ d.id → s'.records.get? j = s.records.get? j
  instances : ¬ c.Restarts → ¬ d.Restarts → s'.instances = s.instances

variable {c : PassOf τ} {d : PassOf υ} {authority : Identity} {s s₁ s₂ : MemoryStore}

/-- What two passes have left does not depend on which of them is called the first. -/
theorem Left.symm (h : c.Left d authority s s₁) : d.Left c authority s s₁ :=
  ⟨h.second, h.first, fun j hd hc => h.records j hc hd, fun hd hc => h.instances hc hd⟩

/-- Two stores that two passes have left in place of one store have the same contents. -/
theorem Left.sameContents (h₁ : c.Left d authority s s₁) (h₂ : c.Left d authority s s₂) :
    s₁.SameContents s₂ := by
  obtain ⟨hid, _, hinstances⟩ := MemoryStore.part_eq_iff.mp (h₁.first.trans h₂.first.symm)
  obtain ⟨hid', _, hinstances'⟩ := MemoryStore.part_eq_iff.mp (h₁.second.trans h₂.second.symm)
  constructor
  · intro j
    by_cases hc : j = c.id
    · exact hc ▸ hid
    by_cases hd : j = d.id
    · exact hd ▸ hid'
    · exact (h₁.records j hc hd).trans (h₂.records j hc hd).symm
  · by_cases hc : c.Restarts
    · exact hinstances hc
    by_cases hd : d.Restarts
    · exact hinstances' hd
    · exact (h₁.instances hc hd).trans (h₂.instances hc hd).symm

namespace Apart

/-- Two passes are apart whichever of them is called the first. -/
theorem symm (h : c.Apart d authority) : d.Apart c authority :=
  ⟨h.reserved.symm, h.ids.symm, h.second, h.first, h.resolveSecond, h.resolveFirst⟩

/-- At most one of the two may restart servers. -/
private theorem not_both (h : c.Apart d authority) : ¬ (c.Restarts ∧ d.Restarts) := by
  rintro ⟨hc, hd⟩
  exact h.ids (hc.trans (h.reserved.trans hd.symm))

/-- A pass that is apart from another one asks only for what it deals with. -/
theorem asks (h : c.Apart d authority) : c.program.Asks (c.Deals authority) :=
  c.reconciler.asks_reconcile h.resolveFirst c.id c.now

/-- The first pass leaves alone what the second one sees of a store. -/
theorem spares (h : c.Apart d authority) :
    (World.inMemory c.signer).Spares (c.Deals authority) (d.part authority) :=
  World.spares_part c.signer h.ids.symm h.first.symm h.not_both

/-- In every order of turns each of the two passes comes to what it comes to alone. -/
theorem asAlone (h : c.Apart d authority) (turns : List Side) (s : MemoryStore) :
    Program.AsAlone (c.part authority) (d.part authority) (c.alone s) (d.alone s)
      (c.together d turns s) :=
  Program.asAlone_interleave (World.local_inMemory _ _ _ _) (World.local_inMemory _ _ _ _) h.spares
    h.symm.spares h.asks h.symm.asks turns rfl rfl _ _

/-- Two passes together leave of a store what each of them leaves alone, and the rest as it was. -/
theorem left (h : c.Apart d authority) (turns : List Side) (s : MemoryStore) :
    c.Left d authority s (c.together d turns s).2.1 where
  first := (h.asAlone turns s).first
  second := (h.asAlone turns s).second
  records _ hc hd :=
    Program.interleave_spares (World.spares_record _ _ _ hc) (World.spares_record _ _ _ hd) h.asks
      h.symm.asks turns s _ _
  instances hc hd :=
    Program.interleave_spares (World.spares_instances _ _ _ hc) (World.spares_instances _ _ _ hd)
      h.asks h.symm.asks turns s _ _

end Apart

/-- Two passes with the same reserved record, for two records that are not that of the authority,
are made over one store in memory at the same time, each with a clock and with pairs of its own. In
whatever order their requests reach the store, each of them ends with the result or the failure that
it ends with alone, and the store is left with the contents that the two passes leave one after the
other, in either order. -/
theorem together_eq_alone (h : c.Apart d authority) (turns : List Side) (s : MemoryStore) :
    (c.together d turns s).1 = ((c.alone s).1, (d.alone s).1) ∧
      (c.together d turns s).2.1.SameContents (d.alone (c.alone s).2.1).2.1 ∧
      (c.together d turns s).2.1.SameContents (c.alone (d.alone s).2.1).2.1 := by
  refine ⟨(h.asAlone turns s).results, ?_, ?_⟩
  -- Without any turns the first pass comes to its end before the second one starts.
  · exact (h.left turns s).sameContents (h.left [] s)
  · exact (h.left turns s).sameContents (h.symm.left [] s).symm

/-- A pass for a record whose pair comes from outside the library. -/
def outside (name : String) (pair : Bytes × Bytes) :
    PassOf (List (Except Failure (Bytes × Bytes))) :=
  ⟨.outside, ⟨"system", name⟩, some .first, scriptedSigner, [.ok pair]⟩

/-- A pass for the reserved record, whose pair nobody can read, and one for a record that does not
exist both end as they do alone if their requests alternate: the one replaces the pair and the other
one creates the record. -/
theorem together_eq_alone_alternating :
    let both := (outside "tls" ([3], [4])).together (outside "mail" ([5], [6]))
      [.first, .second, .first, .second, .first, .second] .unreadable
    both.1.1.toOption.map PassResult.outcome = some .updated ∧
      both.1.2.toOption.map PassResult.outcome = some .created := by
  have hresolve : Asks (Store.Request.Reads ⟨"system", "ca"⟩) Reconciler.outside.resolve :=
    asks_pure _
  have hapart : (outside "tls" ([3], [4])).Apart (outside "mail" ([5], [6])) ⟨"system", "ca"⟩ :=
    ⟨rfl, by decide, by decide, by decide, hresolve, hresolve⟩
  obtain ⟨hresults, _⟩ := together_eq_alone hapart
    [.first, .second, .first, .second, .first, .second] .unreadable
  dsimp only
  rw [hresults]
  exact ⟨by decide +kernel, by decide +kernel⟩

end PassOf

end CertKeeper
