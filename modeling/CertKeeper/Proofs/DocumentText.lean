import CertKeeper.Proofs.EscapedText

/-!
# Documents as text

A document whose numbers are whole is read again as it was written, in every style
(`Json.ofText?_render`). The induction is on the document, and it follows the machine that reads:
from the state in which a value is awaited, the text of a value leads to the state in which that
value has taken its place.
-/

namespace CertKeeper

/-- What a reader takes first comes before what it makes of the rest. -/
private theorem readAll_of_item {σ α : Type} {item : List σ → Option (α × List σ)} {s rest : List σ}
    {a : α} {l : List α} (h : item s = some (a, rest)) (hlt : rest.length < s.length)
    (hrest : readAll item rest = some l) : readAll item s = some (a :: l) := by
  have hmono {m n : Nat} {s : List σ} {l : List α} (hs : readAll.go item m s = some l)
      (hmn : m ≤ n) : readAll.go item n s = some l := by
    induction m generalizing n s l with
    | zero =>
      cases s with
      | nil => cases n <;> exact hs
      | cons x s => cases hs
    | succ m ih =>
      obtain ⟨n, rfl⟩ : ∃ k, n = k + 1 := ⟨n - 1, by omega⟩
      cases s with
      | nil => exact hs
      | cons x s =>
        simp only [readAll.go] at hs ⊢
        cases hitem : item (x :: s) with
        | none => simp [hitem] at hs
        | some r =>
          simp only [hitem] at hs ⊢
          obtain ⟨k, hk, rfl⟩ := Option.map_eq_some_iff.mp hs
          rw [ih hk (Nat.le_of_succ_le_succ hmn)]
          rfl
  cases s with
  | nil => exact absurd hlt (Nat.not_lt_zero _)
  | cons x s =>
    rw [readAll, List.length_cons, readAll.go, h]
    · simp only [hmono hrest (Nat.le_of_lt_succ hlt)]
      rfl
    · exact List.cons_ne_nil x s

namespace Json

open Text

/-! ## The steps of the reading -/

namespace State

/-- Reading a text leads from one state to another. -/
def Reads (s : State) (cs : List Char) (s' : State) : Prop :=
  ∃ ts, readAll readToken cs = some ts ∧ s.run ts = some s'

variable {s m s' : State} {rest : List Char}

/-- Reading nothing leaves the state of the reader. -/
theorem Reads.nil (s : State) : s.Reads [] s := ⟨[], rfl, rfl⟩

/-- A token has its effect, and the reading goes on behind it. -/
theorem Reads.token {cs : List Char} {t : Token} (ht : readToken cs = some (t, rest))
    (hlt : rest.length < cs.length) (hs : s.step t = some m) (h : m.Reads rest s') :
    s.Reads cs s' := by
  obtain ⟨ts, hts, hrun⟩ := h
  refine ⟨t :: ts, readAll_of_item ht hlt hts, ?_⟩
  rw [run, hs]
  exact hrun

/-- A mark that stands for itself is a token. -/
theorem Reads.mark {c : Char} {t : Token} (ht : readToken (c :: rest) = some (t, rest))
    (hs : s.step t = some m) (h : m.Reads rest s') : s.Reads (c :: rest) s' :=
  h.token ht (Nat.lt_succ_self _) hs

/-- A word is a token. -/
theorem Reads.word {w : List Char} {v : Json}
    (ht : readToken (w ++ rest) = some (.scalar v, rest)) (hw : 0 < w.length)
    (hs : s.step (.scalar v) = some m) (h : m.Reads rest s') : s.Reads (w ++ rest) s' :=
  h.token ht (by rw [List.length_append]; omega) hs

/-- White space has no effect. -/
theorem Reads.blank {c : Char} (hc : isGap c = true) (h : s.Reads rest s') :
    s.Reads (c :: rest) s' := by
  refine h.mark (t := .blank) ?_ ?_
  · simp [readToken, hc]
  · cases s <;> rfl

/-- The start of a line has no effect. -/
theorem Reads.lineStart (style : Style) (level : Nat) (h : s.Reads rest s') :
    s.Reads (Json.lineStart style level ++ rest) s' := by
  have hspaces (n : Nat) : s.Reads (List.replicate n ' ' ++ rest) s' := by
    induction n with
    | zero => exact h
    | succ n ih => exact ih.blank (by decide)
  unfold Json.lineStart
  split
  · exact h
  · exact (hspaces _).blank (by decide)

/-- A text between its marks is one token. -/
theorem Reads.text (ascii : Bool) {t : String} (hs : s.step (.scalar (.text t)) = some m)
    (h : m.Reads rest s') : s.Reads (textChars ascii t ++ rest) s' := by
  have htext : textChars ascii t ++ rest =
      '"' :: (t.toList.flatMap (escape ascii) ++ '"' :: rest) := by
    simp [textChars]
  rw [htext]
  refine h.token (t := .scalar (.text t)) ?_ ?_ hs
  · have hquote : ¬ isGap '"' = true := by decide
    simp [readToken, hquote, readText_escaped]
  · simp only [List.length_cons, List.length_append]
    omega

end State

/-! ## Whole numbers -/

/-- A text with which no number goes on. -/
def EndsNumber (rest : List Char) : Prop :=
  ∀ c ∈ rest.head?, c = ',' ∨ c = '\n' ∨ c = ']' ∨ c = '\x7d'

/-- A number may end where the text ends. -/
theorem endsNumber_nil : EndsNumber [] := by
  intro c hc
  cases hc

private theorem endsNumber_cons {c : Char} {rest : List Char}
    (hc : c = ',' ∨ c = '\n' ∨ c = ']' ∨ c = '\x7d') : EndsNumber (c :: rest) := by
  intro d hd
  cases hd
  exact hc

/-- A number has at least one digit. -/
theorem head?_toDigits_append (n : Nat) (rest : List Char) :
    (Nat.toDigits 10 n ++ rest).head? = (Nat.toDigits 10 n).head? := by
  obtain ⟨d, ds, hd⟩ := List.exists_cons_of_ne_nil (Nat.toDigits_ne_nil (b := 10) (n := n))
  rw [hd]
  rfl

/-- The decimal digits of a positive number do not begin with a zero. -/
theorem head?_toDigits_ne {n : Nat} (hn : 0 < n) :
    (Nat.toDigits 10 n).head? ≠ some '0' := by
  induction n using Nat.strongRecOn with
  | ind n ih =>
    by_cases hlt : n < 10
    · have hdigit : ∀ m < 10, 0 < m → Nat.digitChar m ≠ '0' := by decide
      rw [Nat.toDigits_of_lt_base hlt, List.head?_cons]
      exact fun h => hdigit n hlt hn (Option.some.inj h)
    · rw [Nat.toDigits_of_base_le (by omega) (by omega), head?_toDigits_append]
      exact ih (n / 10) (by omega) (by omega)

/-- A whole number is read from its digits. -/
theorem readMagnitude_toDigits (negative : Bool) (n : Nat) {rest : List Char}
    (hrest : EndsNumber rest) :
    readMagnitude negative (Nat.toDigits 10 n ++ rest) =
      some (.integer (if negative then -(n : Int) else n), rest) := by
  have hne : Nat.toDigits 10 n ≠ [] := Nat.toDigits_ne_nil
  have hstop : rest.takeWhile Char.isDigit = [] := by
    cases rest with
    | nil => rfl
    | cons c rest =>
      have hdigit : ¬ c.isDigit = true := by
        rcases hrest c rfl with rfl | rfl | rfl | rfl <;> decide
      exact List.takeWhile_cons_of_neg hdigit
  have hwhole : (if (Nat.toDigits 10 n ++ rest).head? = some '0' then ['0']
      else (Nat.toDigits 10 n ++ rest).takeWhile Char.isDigit) = Nat.toDigits 10 n := by
    rw [head?_toDigits_append]
    by_cases hzero : n = 0
    · subst hzero
      rfl
    · rw [if_neg (head?_toDigits_ne (Nat.pos_of_ne_zero hzero)), List.takeWhile_append_of_pos
        fun c hc => Nat.isDigit_of_mem_toDigits (by decide) (by decide) hc, hstop,
        List.append_nil]
  have hfraction : readFraction rest = ([], rest) := by
    unfold readFraction
    split
    · next after =>
      rcases hrest '.' rfl with h | h | h | h <;> cases h
    · rfl
  have hexponent : readExponent rest = (none, rest) := by
    cases rest with
    | nil => rfl
    | cons c rest =>
      have hletter : ¬ (c = 'e' ∨ c = 'E') := by
        rcases hrest c rfl with rfl | rfl | rfl | rfl <;> decide
      unfold readExponent
      simp only [hletter, if_false]
  have hvalue : digitsValue (Nat.toDigits 10 n) = n := Nat.ofDigitChars_ten_toDigits
  unfold readMagnitude
  simp only [hwhole, List.isEmpty_iff, hne, if_false, List.drop_left, hfraction, hexponent,
    List.append_nil, hvalue]
  rfl

/-- A whole number is written with its decimal digits. -/
theorem chars_integer (n : Int) : Number.chars (.integer n) =
    if n < 0 then '-' :: Nat.toDigits 10 n.natAbs else Nat.toDigits 10 n.natAbs := by
  cases n with
  | ofNat n =>
    have hrepr : toString (Int.ofNat n) = Nat.repr n := rfl
    rw [Number.chars, hrepr, Nat.repr_eq_ofList_toDigits, String.toList_ofList]
    exact (if_neg (Int.not_lt.mpr (Int.natCast_nonneg n))).symm
  | negSucc n =>
    have hrepr : toString (Int.negSucc n) = "-" ++ Nat.repr (n + 1) := rfl
    rw [Number.chars, hrepr, Nat.repr_eq_ofList_toDigits, String.toList_append,
      String.toList_ofList, if_pos (Int.negSucc_lt_zero n)]
    simp

/-- A whole number is one token where no number goes on behind it. -/
theorem readToken_integer (n : Int) {rest : List Char} (hrest : EndsNumber rest) :
    readToken (Number.chars (.integer n) ++ rest) =
      some (.scalar (.number (.integer n)), rest) := by
  rw [chars_integer]
  by_cases hneg : n < 0
  · have hwords : words.find? (fun w => w.1.isPrefixOf ('-' :: (Nat.toDigits 10 n.natAbs ++ rest)))
        = none := by
      obtain ⟨d, ds, hd⟩ := List.exists_cons_of_ne_nil (Nat.toDigits_ne_nil (b := 10)
        (n := n.natAbs))
      have hdigit : d.isDigit = true :=
        Nat.isDigit_of_mem_toDigits (by decide) (by decide) (hd ▸ List.mem_cons_self)
      have hI : ¬ 'I' = d := by
        rintro rfl
        cases hdigit
      rw [hd]
      simp [words, List.isPrefixOf, hI]
    have hvalue : -(n.natAbs : Int) = n := by omega
    simp only [hneg, if_true, List.cons_append]
    rw [readToken]
    simp only [isGap, hwords, readMagnitude_toDigits true n.natAbs hrest, hvalue]
    rfl
  · obtain ⟨d, ds, hd⟩ := List.exists_cons_of_ne_nil (Nat.toDigits_ne_nil (b := 10)
      (n := n.natAbs))
    have hdigit : d.isDigit = true :=
      Nat.isDigit_of_mem_toDigits (by decide) (by decide) (hd ▸ List.mem_cons_self)
    have hvalue : (n.natAbs : Int) = n := by omega
    have hread := readMagnitude_toDigits false n.natAbs hrest
    have hother (c : Char) (hc : c.isDigit = false) : ¬ d = c := by
      rintro rfl
      rw [hdigit] at hc
      cases hc
    simp only [hneg, if_false]
    rw [hd, List.cons_append] at hread ⊢
    have hgap : isGap d = false := by
      simp [isGap, hother ' ' rfl, hother '\t' rfl, hother '\n' rfl, hother '\r' rfl]
    have hwords : words.find? (fun w => w.1.isPrefixOf (d :: (ds ++ rest))) = none := by
      simp [words, List.isPrefixOf, Ne.symm (hother 'n' rfl), Ne.symm (hother 't' rfl),
        Ne.symm (hother 'f' rfl), Ne.symm (hother 'N' rfl), Ne.symm (hother 'I' rfl),
        Ne.symm (hother '-' rfl)]
    rw [readToken]
    simp [hgap, hwords, hread, hvalue, hother '[' rfl, hother ']' rfl, hother '\x7b' rfl,
      hother '\x7d' rfl, hother ',' rfl, hother ':' rfl, hother '"' rfl, hother '-' rfl]

/-! ## Documents -/

mutual

/-- Whether all numbers of a document are whole. -/
def IsWhole : Json → Prop
  | .number (.integer _) => True
  | .number _ => False
  | .array items => ItemsWhole items
  | .object members => MembersWhole members
  | .null | .bool _ | .text _ => True

/-- Whether all numbers of some documents are whole. -/
def ItemsWhole : List Json → Prop
  | [] => True
  | v :: rest => IsWhole v ∧ ItemsWhole rest

/-- Whether all numbers of the members of an object are whole. -/
def MembersWhole : List (String × Json) → Prop
  | [] => True
  | (_, v) :: rest => IsWhole v ∧ MembersWhole rest

end

variable (style : Style)

private theorem endsNumber_lineStart (level : Nat) {rest : List Char} (h : EndsNumber rest) :
    EndsNumber (lineStart style level ++ rest) := by
  unfold lineStart
  split
  · exact h
  · exact endsNumber_cons (.inr (.inl rfl))

private theorem endsNumber_itemChars (level : Nat) (items : List Json) {rest : List Char}
    (h : EndsNumber rest) : EndsNumber (itemChars style level items ++ rest) := by
  cases items with
  | nil => exact h
  | cons v items =>
    rw [itemChars]
    exact endsNumber_cons (.inl rfl)

private theorem endsNumber_memberChars (level : Nat) (members : List (String × Json))
    {rest : List Char}
    (h : EndsNumber rest) : EndsNumber (memberChars style level members ++ rest) := by
  cases members with
  | nil => exact h
  | cons m members =>
    rw [memberChars]
    exact endsNumber_cons (.inl rfl)

/-- Behind a member's name its value is awaited. -/
theorem State.Reads.nameEnd {name : String} {done : List (String × Json)} {stack : List Frame}
    {rest : List Char} {s' : State}
    (h : (State.value false (.members done name :: stack)).Reads rest s') :
    (State.colon name done stack).Reads (nameEnd style ++ rest) s' := by
  unfold Json.nameEnd
  split
  · exact h.mark rfl rfl
  · exact (h.blank (c := ' ') (by decide)).mark rfl rfl

mutual

/-- Where a value is awaited, its text leads to the state in which it has taken its place. -/
theorem reads_chars (level : Nat) (fresh : Bool) (stack : List Frame) {rest : List Char}
    {s' : State} (hrest : EndsNumber rest) : (j : Json) → IsWhole j →
    (State.complete j stack).Reads rest s' →
    (State.value fresh stack).Reads (chars style level j ++ rest) s'
  | .null, _, h => h.word rfl (by simp [chars]) (by cases fresh <;> rfl)
  | .bool true, _, h => h.word rfl (by simp [chars]) (by cases fresh <;> rfl)
  | .bool false, _, h => h.word rfl (by simp [chars]) (by cases fresh <;> rfl)
  | .number (.integer n), _, h => by
    refine h.word (readToken_integer n hrest) ?_ (by cases fresh <;> rfl)
    rw [chars, chars_integer]
    split
    · exact Nat.succ_pos _
    · exact List.length_pos_iff.mpr Nat.toDigits_ne_nil
  | .text t, _, h => h.text style.ascii (by cases fresh <;> rfl)
  | .array [], _, h => by
    refine State.Reads.mark (m := .value true (.items [] :: stack)) rfl (by cases fresh <;> rfl) ?_
    exact h.mark rfl rfl
  | .array (v :: items), hw, h => by
    obtain ⟨hv, hitems⟩ := hw
    have hend := (h.mark (c := ']') (s := .afterItem (items.reverse ++ [v]) stack) rfl
      (by simp [State.step])).lineStart style level
    have htail := reads_itemChars (level + 1) [v] stack
      (endsNumber_lineStart style level (endsNumber_cons (.inr (.inr (.inl rfl))))) items hitems
      hend
    have hvalue := reads_chars (level + 1) true (.items [] :: stack)
      (endsNumber_itemChars style _ _
        (endsNumber_lineStart style level (endsNumber_cons (.inr (.inr (.inl rfl)))))) v hv htail
    refine State.Reads.mark (m := .value true (.items [] :: stack)) rfl (by cases fresh <;> rfl) ?_
    simpa [chars] using hvalue.lineStart style (level + 1)
  | .object [], _, h => by
    refine State.Reads.mark (m := .memberName true [] stack) rfl (by cases fresh <;> rfl) ?_
    exact h.mark rfl rfl
  | .object ((name, v) :: members), hw, h => by
    obtain ⟨hv, hmembers⟩ := hw
    have hend := (h.mark (c := '\x7d') (s := .afterMember (members.reverse ++ [(name, v)]) stack)
      rfl (by simp [State.step])).lineStart style level
    have htail := reads_memberChars (level + 1) [(name, v)] stack
      (endsNumber_lineStart style level (endsNumber_cons (.inr (.inr (.inr rfl))))) members hmembers
      hend
    have hvalue := reads_chars (level + 1) false (.members [] name :: stack)
      (endsNumber_memberChars style _ _
        (endsNumber_lineStart style level (endsNumber_cons (.inr (.inr (.inr rfl)))))) v hv htail
    have hname := (hvalue.nameEnd style).text style.ascii (s := .memberName true [] stack) rfl
    refine State.Reads.mark (m := .memberName true [] stack) rfl (by cases fresh <;> rfl) ?_
    simpa [chars] using hname.lineStart style (level + 1)

/-- Behind an item the text of further items adds them to the array. -/
theorem reads_itemChars (level : Nat) (done : List Json) (stack : List Frame) {rest : List Char}
    {s' : State} (hrest : EndsNumber rest) : (items : List Json) → ItemsWhole items →
    (State.afterItem (items.reverse ++ done) stack).Reads rest s' →
    (State.afterItem done stack).Reads (itemChars style level items ++ rest) s'
  | [], _, h => h
  | v :: items, hw, h => by
    obtain ⟨hv, hitems⟩ := hw
    have htail := reads_itemChars level (v :: done) stack hrest items hitems (by simpa using h)
    have hvalue := reads_chars level false (.items done :: stack)
      (endsNumber_itemChars style _ _ hrest) v hv htail
    refine State.Reads.mark (m := .value false (.items done :: stack)) rfl rfl ?_
    simpa [itemChars] using hvalue.lineStart style level

/-- Behind a member the text of further members adds them to the object. -/
theorem reads_memberChars (level : Nat) (done : List (String × Json)) (stack : List Frame)
    {rest : List Char} {s' : State} (hrest : EndsNumber rest) : (members : List (String × Json)) →
    MembersWhole members → (State.afterMember (members.reverse ++ done) stack).Reads rest s' →
    (State.afterMember done stack).Reads (memberChars style level members ++ rest) s'
  | [], _, h => h
  | (name, v) :: members, hw, h => by
    obtain ⟨hv, hmembers⟩ := hw
    have htail := reads_memberChars level ((name, v) :: done) stack hrest members hmembers
      (by simpa using h)
    have hvalue := reads_chars level false (.members done name :: stack)
      (endsNumber_memberChars style _ _ hrest) v hv htail
    have hname := (hvalue.nameEnd style).text style.ascii (s := .memberName false done stack) rfl
    refine State.Reads.mark (m := .memberName false done stack) rfl rfl ?_
    simpa [memberChars] using hname.lineStart style level

end

/-- A document whose numbers are whole is read again as it was written. -/
theorem ofText?_render {j : Json} (hj : j.IsWhole) : ofText? (j.render style) = some j := by
  obtain ⟨ts, hts, hrun⟩ : (State.value false []).Reads (chars style 0 j ++ []) (.finished j) :=
    reads_chars style 0 false [] endsNumber_nil j hj (State.Reads.nil _)
  rw [List.append_nil] at hts
  rw [ofText?, render, String.toList_ofList, hts, Option.bind_some, hrun]

end Json

end CertKeeper
