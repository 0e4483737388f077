/-!
# Entries in insertion order

A finite map that remembers the order in which its keys were first set. Setting a key again keeps
its place, erasing forgets it. `Entries.get?_set` and `Entries.get?_erase` are the laws of the two
changes, and `Entries.same` compares two maps without regard to order.
-/

namespace CertKeeper

/-- Values under distinct keys, in the order in which the keys were first set. -/
structure Entries (κ α : Type) where
  /-- The pairs, oldest key first. -/
  toList : List (κ × α)
  /-- No key occurs twice. -/
  nodup : (toList.map Prod.fst).Nodup

namespace Entries

variable {κ α : Type}

/-- A map is determined by its pairs. -/
@[ext] theorem ext {m n : Entries κ α} (h : m.toList = n.toList) : m = n := by
  cases m
  cases n
  cases h
  rfl

variable [DecidableEq κ]

/-- No entries. -/
def empty : Entries κ α := ⟨[], by simp⟩

instance : EmptyCollection (Entries κ α) := ⟨empty⟩

instance : Inhabited (Entries κ α) := ⟨empty⟩

/-- The value of the first pair with the given key. -/
def lookup (k : κ) : List (κ × α) → Option α
  | [] => none
  | (j, a) :: rest => if j = k then some a else lookup k rest

/-- The pairs after a key has been set: in place if the key is there, else at the end. -/
def put (k : κ) (a : α) : List (κ × α) → List (κ × α)
  | [] => [(k, a)]
  | (j, b) :: rest => if j = k then (j, a) :: rest else (j, b) :: put k a rest

/-- Setting a key adds no key but that one. -/
theorem keys_put (k : κ) (a : α) (l : List (κ × α)) :
    (put k a l).map Prod.fst =
      if k ∈ l.map Prod.fst then l.map Prod.fst else l.map Prod.fst ++ [k] := by
  induction l with
  | nil => simp [put]
  | cons p rest ih =>
    obtain ⟨j, b⟩ := p
    by_cases h : j = k
    · simp [put, h]
    · have h' : ¬ k = j := fun e => h e.symm
      simp only [put, h, if_false, List.map_cons, ih, List.mem_cons, h', false_or]
      split <;> simp

/-- Setting a key keeps the keys distinct. -/
theorem nodup_put (k : κ) (a : α) (l : List (κ × α)) (h : (l.map Prod.fst).Nodup) :
    ((put k a l).map Prod.fst).Nodup := by
  rw [keys_put]
  split
  · exact h
  · next hk =>
    rw [List.nodup_append]
    refine ⟨h, by simp, ?_⟩
    intro x hx y hy
    simp only [List.mem_singleton] at hy
    subst hy
    exact fun e => hk (e ▸ hx)

/-- The value under a key. -/
def get? (m : Entries κ α) (k : κ) : Option α := lookup k m.toList

/-- The map with a key set to a value. -/
def set (m : Entries κ α) (k : κ) (a : α) : Entries κ α :=
  ⟨put k a m.toList, nodup_put k a m.toList m.nodup⟩

/-- The map without a key. -/
def erase (m : Entries κ α) (k : κ) : Entries κ α :=
  ⟨m.toList.filter fun p => p.1 ≠ k,
    (m.nodup).sublist (List.Sublist.map Prod.fst List.filter_sublist)⟩

/-- The map that results from setting the pairs in their order. -/
def ofList (l : List (κ × α)) : Entries κ α := l.foldl (fun m p => m.set p.1 p.2) empty

/-- The keys in insertion order. -/
def keys (m : Entries κ α) : List κ := m.toList.map Prod.fst

/-- The values in insertion order. -/
def values (m : Entries κ α) : List α := m.toList.map Prod.snd

/-- The number of entries. -/
def size (m : Entries κ α) : Nat := m.toList.length

/-- Whether a key is set. -/
def contains (m : Entries κ α) (k : κ) : Bool := (m.get? k).isSome

/-- Whether a map has no entries. -/
def isEmpty (m : Entries κ α) : Bool := m.toList.isEmpty

/-- Whether every entry of the second map is an entry of the first one. -/
def includes [BEq α] (m n : Entries κ α) : Bool :=
  n.toList.all fun p => m.get? p.1 == some p.2

/-- Whether two maps hold the same entries, in whatever order. -/
def same [BEq α] (m n : Entries κ α) : Bool := m.includes n && n.includes m

/-- Setting a key changes what is found under that key only. -/
theorem lookup_put (k j : κ) (a : α) (l : List (κ × α)) :
    lookup j (put k a l) = if k = j then some a else lookup j l := by
  induction l with
  | nil => simp [put, lookup]
  | cons p rest ih =>
    obtain ⟨i, b⟩ := p
    by_cases h : i = k
    · subst h
      simp only [put, if_true, lookup]
      split <;> rfl
    · simp only [put, h, if_false, lookup, ih]
      by_cases hj : i = j
      · subst hj
        simp [Ne.symm h]
      · simp [hj]

/-- Dropping a key changes what is found under that key only. -/
theorem lookup_filter (k j : κ) (l : List (κ × α)) :
    lookup j (l.filter fun p => p.1 ≠ k) = if k = j then none else lookup j l := by
  induction l with
  | nil => simp [lookup]
  | cons p rest ih =>
    obtain ⟨i, b⟩ := p
    by_cases h : i = k
    · subst h
      simp only [ne_eq, not_true_eq_false, decide_false, Bool.false_eq_true, not_false_eq_true,
        List.filter_cons_of_neg, lookup]
      rw [ih]
      split <;> rfl
    · rw [List.filter_cons_of_pos (by simpa using h)]
      simp only [lookup, ih]
      by_cases hj : i = j
      · subst hj
        simp [Ne.symm h]
      · simp [hj]

/-- Setting a key changes the value of that key only. -/
@[simp] theorem get?_set (m : Entries κ α) (k j : κ) (a : α) :
    (m.set k a).get? j = if k = j then some a else m.get? j := lookup_put k j a m.toList

/-- Erasing a key removes that key only. -/
@[simp] theorem get?_erase (m : Entries κ α) (k j : κ) :
    (m.erase k).get? j = if k = j then none else m.get? j := lookup_filter k j m.toList

/-- Nothing is set in the empty map. -/
@[simp] theorem get?_empty (k : κ) : (empty : Entries κ α).get? k = none := rfl

instance [DecidableEq α] : DecidableEq (Entries κ α) := fun m n =>
  decidable_of_iff (m.toList = n.toList) ⟨ext, congrArg toList⟩

end Entries

end CertKeeper
