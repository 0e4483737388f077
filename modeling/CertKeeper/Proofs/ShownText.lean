import CertKeeper.Proofs.CommandRuns

/-!
# Marked-up texts that can be shown

Without tags a text is shown whatever it is. So is a text around styled ones if no part of it has
what a tag could start with: a styled text opens a style and closes it again
(`Console.Markup.canShow_styled`). Only a backslash at its end keeps a style from being closed, and
at the end of the whole text that does no harm. The texts of spans and moments have digits and a
few marks only (`Span.all_text`, `Moment.all_text`), none of which is a bracket.
-/

namespace CertKeeper.Console.Markup

open Text

variable {opened : List String} {before cs name rest : List Char} {position : Nat}

/-! ## Texts without tags -/

/-- No opening bracket in a text stands before a character that a tag may start with. -/
def Tagless (cs : List Char) : Prop := ∀ c, ['[', c] <:+: cs → startsTag c = false

/-- A text without an opening bracket has no tags. -/
theorem Tagless.of_not_mem (h : '[' ∉ cs) : Tagless cs :=
  fun _ hmatch => absurd (hmatch.subset List.mem_cons_self) h

private theorem Tagless.of_infix {part : List Char} (h : Tagless cs) (hpart : part <:+: cs) :
    Tagless part :=
  fun c hmatch => h c (hmatch.trans hpart)

/-- Texts can be joined unless that makes the start of a tag. -/
theorem Tagless.append (h : Tagless cs) (hrest : Tagless rest)
    (hjoin : cs.getLast? = some '[' → rest.head?.any startsTag = false) :
    Tagless (cs ++ rest) := by
  intro c hmatch
  induction cs with
  | nil => exact hrest c hmatch
  | cons d cs ih =>
    rcases List.infix_cons_iff.mp hmatch with hstart | htail
    · obtain ⟨rfl, hnext⟩ := List.cons_prefix_cons.mp hstart
      cases cs with
      | nil =>
        obtain ⟨rest', rfl⟩ := hnext
        exact hjoin rfl
      | cons c' cs =>
        obtain ⟨rfl, -⟩ := List.cons_prefix_cons.mp hnext
        exact h c ⟨[], cs, rfl⟩
    · refine ih (h.of_infix (List.suffix_cons d cs).isInfix) (fun hlast => hjoin ?_) htail
      cases cs with
      | nil => cases hlast
      | cons c' cs => simpa using hlast

/-! ## Pieces -/

/-- A text starts with a tag only if a character of one comes after backslashes and a bracket. -/
theorem bracket?_eq_none
    (h : ∀ c rest, cs.dropWhile (· = '\\') = '[' :: c :: rest → startsTag c = false) :
    bracket? cs = none := by
  unfold bracket?
  dsimp only
  split
  · next heq =>
    rw [h _ _ heq]
    split <;> rfl
  · rfl

/-- A text without tags, the last character of which is no backslash, does not become the start of
one. -/
private theorem bracket?_append (hcs : Tagless cs) (hne : cs ≠ []) (hlast : cs.getLast? ≠ some '\\')
    (hhead : rest.head?.any startsTag = false) : bracket? (cs ++ rest) = none := by
  refine bracket?_eq_none fun c rest' h => ?_
  rw [List.dropWhile_append] at h
  split at h
  · next hall =>
    rw [List.isEmpty_iff, List.dropWhile_eq_nil_iff] at hall
    obtain ⟨d, hd⟩ := Option.ne_none_iff_exists'.mp (mt List.getLast?_eq_none_iff.mp hne)
    refine absurd ?_ hlast
    rw [hd, of_decide_eq_true (hall d (List.mem_of_getLast? hd))]
  · next hsome =>
    rw [List.isEmpty_iff] at hsome
    obtain ⟨d, cs', hcs'⟩ := List.exists_cons_of_ne_nil hsome
    rw [hcs', List.cons_append] at h
    obtain ⟨rfl, htail⟩ := List.cons.inj h
    have hsuffix : '[' :: cs' <:+ cs := hcs' ▸ List.dropWhile_suffix _
    cases cs' with
    | nil =>
      rw [List.nil_append] at htail
      rwa [htail] at hhead
    | cons d cs' =>
      obtain ⟨rfl, -⟩ := List.cons.inj htail
      have hstart : ['[', d] <:+: '[' :: d :: cs' := ⟨[], cs', rfl⟩
      exact hcs d (hstart.trans hsuffix.isInfix)

/-- A name that can stand in a tag. -/
def IsTag (name : List Char) : Prop :=
  name.head?.any startsTag = true ∧ name.all (fun c => c ≠ '[' && c ≠ ']') = true

instance (name : List Char) : Decidable (IsTag name) := inferInstanceAs (Decidable (_ ∧ _))

/-- A tag after some backslashes. -/
private theorem bracket?_tag (hname : IsTag name) (n : Nat) (rest : List Char) :
    bracket? (List.replicate n '\\' ++ '[' :: (name ++ ']' :: rest)) = some ⟨n, name⟩ := by
  obtain ⟨hstarts, hinside⟩ := hname
  obtain ⟨c, name', rfl⟩ : ∃ c name', name = c :: name' := by
    cases name with
    | nil => cases hstarts
    | cons c name' => exact ⟨c, name', rfl⟩
  have hdrop : (List.replicate n '\\' ++ '[' :: (c :: name' ++ ']' :: rest)).dropWhile
      (· = '\\') = '[' :: c :: (name' ++ ']' :: rest) := by
    rw [List.dropWhile_append_of_pos (by simp)]
    rfl
  have htake : (List.replicate n '\\' ++ '[' :: (c :: name' ++ ']' :: rest)).takeWhile
      (· = '\\') = List.replicate n '\\' := by
    rw [List.takeWhile_append_of_pos (by simp)]
    simp
  have hpass : ∀ d ∈ name', (decide (d ≠ '[') && decide (d ≠ ']')) = true := by
    exact fun d hd => List.all_eq_true.mp hinside d (List.mem_cons_of_mem _ hd)
  unfold bracket?
  rw [hdrop, htake]
  simp only [List.dropWhile_append_of_pos hpass, List.takeWhile_append_of_pos hpass]
  simp only [Option.any_some, List.head?_cons] at hstarts
  simp [hstarts]

/-- The characters of a text without tags, the last of which is no backslash, are read one by
one. -/
private theorem piecesFrom_plain (hcs : Tagless cs) (hlast : cs.getLast? ≠ some '\\')
    (hhead : rest.head?.any startsTag = false) (position : Nat) (reversed : List Char) :
    piecesFrom position 0 reversed (cs ++ rest) =
      piecesFrom (position + cs.length) 0 (cs.reverse ++ reversed) rest := by
  induction cs generalizing position reversed with
  | nil => rfl
  | cons c cs ih =>
    have hnone := bracket?_append hcs (List.cons_ne_nil c cs) hlast hhead
    rw [List.cons_append] at hnone ⊢
    rw [piecesFrom, hnone]
    dsimp only
    rw [ih (hcs.of_infix (List.suffix_cons c cs).isInfix), List.reverse_cons, List.append_assoc,
      List.length_cons, Nat.add_right_comm, Nat.add_assoc]
    · rfl
    · cases cs with
      | nil => simp
      | cons d cs => simpa using hlast

/-- Characters that belong to a tag are passed over. -/
private theorem piecesFrom_skip (cs : List Char) (position : Nat) (reversed rest : List Char) :
    piecesFrom position cs.length reversed (cs ++ rest) =
      piecesFrom (position + cs.length) 0 reversed rest := by
  induction cs generalizing position with
  | nil => rfl
  | cons c cs ih =>
    rw [List.length_cons, List.cons_append, piecesFrom, ih, Nat.add_right_comm, Nat.add_assoc]

/-- A tag after some backslashes is one bracketed text. -/
private theorem piecesFrom_tag (hname : IsTag name) (n position : Nat) (reversed rest : List Char) :
    piecesFrom position 0 reversed (List.replicate n '\\' ++ '[' :: (name ++ ']' :: rest)) =
      plainPieces reversed ++ (⟨n, name⟩ : Bracket).pieces position ++
        piecesFrom (position + (n + name.length + 2)) 0 [] rest := by
  have hbracket := bracket?_tag hname n rest
  obtain ⟨c, tail, hcons, hlength⟩ : ∃ c tail,
      List.replicate n '\\' ++ '[' :: (name ++ ']' :: rest) = c :: (tail ++ rest) ∧
        tail.length = n + name.length + 1 := by
    cases n with
    | zero => exact ⟨'[', name ++ [']'], by simp, by simp⟩
    | succ n =>
      refine ⟨'\\', List.replicate n '\\' ++ '[' :: (name ++ [']']), ?_, ?_⟩
      · simp [List.replicate_succ]
      · simp only [List.length_append, List.length_replicate, List.length_cons, List.length_nil]
        omega
  rw [hcons] at hbracket ⊢
  rw [piecesFrom, hbracket]
  dsimp only [Bracket.length]
  rw [show n + name.length + 2 - 1 = tail.length by omega, piecesFrom_skip]
  congr 2
  omega

/-! ## Texts that can be shown -/

/-- The console shows a text while styles are open, wherever in a longer text it starts. -/
def CanShow (opened : List String) (cs : List Char) : Prop :=
  ∀ position, ∃ shown, shownFrom opened (piecesFrom position 0 [] cs) = .ok shown

/-- Pieces without tags can be shown before others that can. -/
theorem exists_shownFrom_plain {opened : List String} {pieces : List Piece}
    (h : ∃ shown, shownFrom opened pieces = .ok shown) (cs : List Char) :
    ∃ shown, shownFrom opened (.plain cs :: pieces) = .ok shown := by
  obtain ⟨shown, hshown⟩ := h
  exact ⟨shownPlain cs ++ shown, by rw [shownFrom, hshown]; rfl⟩

private theorem exists_shownFrom_plainPieces {opened : List String} {pieces : List Piece}
    (h : ∃ shown, shownFrom opened pieces = .ok shown) (reversed : List Char) :
    ∃ shown, shownFrom opened (plainPieces reversed ++ pieces) = .ok shown := by
  unfold plainPieces
  split
  · exact h
  · exact exists_shownFrom_plain h _

/-- A text without tags is one piece. -/
theorem piecesFrom_of_tagless (h : Tagless cs) (position : Nat) (reversed : List Char) :
    piecesFrom position 0 reversed cs = plainPieces (cs.reverse ++ reversed) := by
  induction cs generalizing position reversed with
  | nil => rfl
  | cons c cs ih =>
    have hnone : bracket? (c :: cs) = none := bracket?_eq_none fun d rest heq =>
      h d ((List.IsInfix.trans ⟨[], rest, rfl⟩ (heq ▸ List.infix_rfl)).trans
        (List.dropWhile_suffix (· = '\\')).isInfix)
    rw [piecesFrom, hnone]
    dsimp only
    rw [ih (h.of_infix (List.suffix_cons c cs).isInfix), List.reverse_cons, List.append_assoc]
    rfl

/-- A text without tags can be shown. -/
theorem canShow_plain (h : Tagless cs) : CanShow opened cs := by
  intro position
  rw [piecesFrom_of_tagless h, ← List.append_nil (plainPieces _)]
  exact exists_shownFrom_plainPieces ⟨[], rfl⟩ _

/-- A text ends in some backslashes. -/
private theorem exists_backslashes (cs : List Char) :
    ∃ start n, cs = start ++ List.replicate n '\\' ∧ start.getLast? ≠ some '\\' ∧
      (n ≠ 0 → cs.getLast? = some '\\') := by
  induction cs using List.reverseRecOn with
  | nil => exact ⟨[], 0, rfl, nofun, fun h => absurd rfl h⟩
  | append_singleton cs c ih =>
    by_cases hc : c = '\\'
    · subst hc
      obtain ⟨start, n, rfl, hstart, -⟩ := ih
      refine ⟨start, n + 1, ?_, hstart, fun _ => by simp⟩
      rw [List.replicate_succ', List.append_assoc]
    · exact ⟨cs ++ [c], 0, by simp, by simpa using hc, fun h => absurd rfl h⟩

/-- A tag after a text without tags is a tag, or an ordinary text if there are backslashes before
it. -/
theorem canShow_tag (hbefore : Tagless before) (hname : IsTag name)
    (htag : ∀ position position', ∃ shown,
      shownFrom opened (.tag name position :: piecesFrom position' 0 [] rest) = .ok shown)
    (hescaped : before.getLast? = some '\\' → CanShow opened rest) :
    CanShow opened (before ++ '[' :: (name ++ ']' :: rest)) := by
  intro position
  obtain ⟨start, n, rfl, hstart, hn⟩ := exists_backslashes before
  have hhead : (List.replicate n '\\' ++ '[' :: (name ++ ']' :: rest)).head?.any startsTag =
      false := by
    cases n <;> simp [List.replicate_succ, startsTag]
  rw [List.append_assoc, piecesFrom_plain (hbefore.of_infix (List.prefix_append _ _).isInfix)
    hstart hhead, piecesFrom_tag hname, List.append_assoc]
  refine exists_shownFrom_plainPieces ?_ _
  have hliteral {pieces : List Piece} (h : ∃ shown, shownFrom opened pieces = .ok shown) :
      ∃ shown, shownFrom opened ((if n / 2 = 0 then [] else
        [Piece.plain (List.replicate (n / 2) '\\')]) ++ pieces) = .ok shown := by
    split
    · exact h
    · exact exists_shownFrom_plain h _
  unfold Bracket.pieces
  dsimp only
  split
  · next hodd =>
    rw [List.append_assoc]
    exact hliteral (exists_shownFrom_plain (hescaped (hn (by omega)) _) _)
  · rw [List.append_assoc]
    exact hliteral (htag _ _)

/-- A name of a style as tags have it: to be written after a slash as well. -/
def IsStyle (name : List Char) : Prop :=
  IsTag name ∧ IsTag ('/' :: name) ∧ name ≠ [] ∧ name.head? ≠ some '/' ∧ '=' ∉ name ∧
    trim isBlank name = name

instance (name : List Char) : Decidable (IsStyle name) := inferInstanceAs (Decidable (_ ∧ _))

/-- A text in a style, between others. -/
def styled (before name cs rest : List Char) : List Char :=
  before ++ '[' :: (name ++ ']' :: (cs ++ '[' :: ('/' :: name ++ ']' :: rest)))

/-- A text without tags in a style can be shown if what follows can. -/
theorem canShow_styled (hname : IsStyle name) (hbefore : Tagless before)
    (hlast : before.getLast? ≠ some '\\') (hcs : Tagless cs)
    (hends : cs.getLast? = some '\\' → rest = []) (hrest : CanShow opened rest) :
    CanShow opened (styled before name cs rest) := by
  obtain ⟨hopens, hcloses, hne, hslash, hequals, htrim⟩ := hname
  refine canShow_tag hbefore hopens (fun position position' => ?_) fun h => absurd h hlast
  rw [shownFrom_opening hslash hequals]
  refine canShow_tag hcs hcloses (fun position position' => ?_) (fun h => ?_) _
  · rw [shownFrom_closing hne hequals htrim]
    exact hrest _
  · rw [hends h]
    exact canShow_plain (.of_not_mem nofun)

/-! ## Lines of a report -/

/-- A text after a label can be shown. -/
theorem canShow_label {label text : String} (hlabel : '[' ∉ label.toList)
    (htext : Tagless text.toList) : CanShow [] (label ++ text).toList := by
  rw [String.toList_append]
  refine canShow_plain ((Tagless.of_not_mem hlabel).append htext fun hlast => ?_)
  exact absurd (List.mem_of_getLast? hlast) hlabel

/-- A text after a word in a style can be shown if it has no tags. -/
theorem canShow_notice (before style word gap : String) {text : String}
    (hstyle : IsStyle style.toList) (hbefore : '[' ∉ before.toList)
    (hlast : before.toList.getLast? ≠ some '\\') (hword : Tagless word.toList)
    (hword' : word.toList.getLast? ≠ some '\\') (hgap : '[' ∉ gap.toList)
    (htext : Tagless text.toList) :
    CanShow [] (styled before.toList style.toList word.toList (gap ++ text).toList) := by
  refine canShow_styled hstyle (.of_not_mem hbefore) hlast hword (fun h => absurd h hword') ?_
  exact canShow_label hgap htext

/-- A bold text after a green word can be shown if it has no tags. -/
theorem canShow_heading (word gap : String) {text : String} (hword : Tagless word.toList)
    (hword' : word.toList.getLast? ≠ some '\\') (hgap : '[' ∉ gap.toList)
    (hgap' : gap.toList.getLast? ≠ some '\\') (htext : Tagless text.toList) :
    CanShow [] (styled [] "green".toList word.toList
      (styled gap.toList "bold".toList text.toList [])) := by
  refine canShow_styled (by decide) (.of_not_mem nofun) nofun hword
    (fun h => absurd h hword') ?_
  exact canShow_styled (by decide) (.of_not_mem hgap) hgap' htext (fun _ => rfl)
    (canShow_plain (.of_not_mem nofun))

/-- What can be shown has something that is shown. -/
theorem exists_shown_of_canShow {text : String} (h : CanShow [] text.toList) :
    ∃ cs, shown text = .ok cs := h 0

end CertKeeper.Console.Markup

/-! ## Texts of times -/

namespace CertKeeper

open Time

/-- Whether a character is one that the texts of numbers, spans and moments have. -/
def isOfTimes (c : Char) : Bool := c.isDigit || "-+:., daysT".toList.contains c

/-- Numbers are written in digits. -/
private theorem all_toDigits (n : Nat) : (Nat.toDigits 10 n).all isOfTimes := by
  refine List.all_eq_true.mpr fun c hc => ?_
  rw [isOfTimes, Nat.isDigit_of_mem_toDigits (by decide) (by decide) hc, Bool.true_or]

private theorem all_padded (width n : Nat) : (padded width n).all isOfTimes := by
  have hzero : isOfTimes '0' = true := by decide
  simp [padded, all_toDigits, hzero]

private theorem all_repr (n : Int) : n.repr.toList.all isOfTimes := by
  have hdigits (m : Nat) : (Nat.repr m).toList.all isOfTimes := by
    rw [Nat.repr_eq_ofList_toDigits, String.toList_ofList]
    exact all_toDigits m
  cases n with
  | ofNat m => exact hdigits m
  | negSucc m =>
    change ("-" ++ Nat.repr (m + 1)).toList.all isOfTimes
    rw [String.toList_append, List.all_append, hdigits]
    decide

private theorem all_fractionChars (micros : Nat) : (Span.fractionChars micros).all isOfTimes := by
  have hpoint : isOfTimes '.' = true := by decide
  unfold Span.fractionChars
  split
  · rfl
  · simp [all_padded, hpoint]

/-- The text of a span has the characters of times only. -/
theorem Span.all_text (s : Span) : s.text.toList.all isOfTimes := by
  have hcolon : isOfTimes ':' = true := by decide
  have hunit : " day, ".toList.all isOfTimes ∧ " days, ".toList.all isOfTimes := by decide
  unfold Span.text
  dsimp only
  split
  · simp [all_toDigits, all_padded, all_fractionChars, hcolon]
  · split
    · simp only [String.toList_append, List.all_append, hunit.1]
      simp [all_toDigits, all_repr, all_padded, all_fractionChars, hcolon]
    · simp only [String.toList_append, List.all_append, hunit.2]
      simp [all_toDigits, all_repr, all_padded, all_fractionChars, hcolon]

/-- The text of a moment has the characters of times only. -/
theorem Moment.all_text (m : Moment) : m.text.toList.all isOfTimes := by
  have hmarks : isOfTimes '-' = true ∧ isOfTimes '+' = true ∧ isOfTimes ':' = true ∧
    isOfTimes 'T' = true := by decide
  have hoffset (offset : Int) : (Moment.offsetChars offset).all isOfTimes := by
    unfold Moment.offsetChars
    dsimp only
    split <;> split <;> simp [all_padded, all_fractionChars, hmarks]
  unfold Moment.text
  cases m.offset with
  | none => simp [Date.toChars, Moment.clockChars, all_padded, all_fractionChars, hmarks]
  | some offset =>
    simp [Date.toChars, Moment.clockChars, all_padded, all_fractionChars, hmarks, hoffset]

/-- No text with the characters of times has a bracket. -/
theorem bracket_not_mem_of_all {cs : List Char} (h : cs.all isOfTimes) : '[' ∉ cs := fun hmem =>
  absurd (List.all_eq_true.mp h '[' hmem) (by decide)

end CertKeeper
