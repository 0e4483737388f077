import CertKeeper.Proofs.ShownText

/-!
# Rows and lines as they are printed

On a console that is wide enough a text stands on one line as it is, and so does a row of a table
with two columns. What the console prints of a table then has the row between its borders
(`Shell.ShowsTable.printsRow`), and what it prints of a text with a label is that text
(`Shell.mem_of_forall₂_shows`).
-/

namespace CertKeeper

namespace Console

open Text

/-! ## Texts that take a cell for each character -/

/-- Every character of a text is a printed one of ASCII, which takes a cell. -/
def InCells (cs : List Char) : Prop := ∀ c ∈ cs, 0x20 ≤ c.toNat ∧ c.toNat < 0x7f

instance (cs : List Char) : Decidable (InCells cs) :=
  List.decidableBAll (fun c : Char => 0x20 ≤ c.toNat ∧ c.toNat < 0x7f) cs

variable {cs rest : List Char} {text : String}

private theorem InCells.tail {c : Char} (h : InCells (c :: cs)) : InCells cs :=
  fun d hd => h d (List.mem_cons_of_mem c hd)

/-- Texts in cells one after the other are a text in cells. -/
theorem InCells.append (h : InCells cs) (hrest : InCells rest) : InCells (cs ++ rest) := by
  intro c hc
  rcases List.mem_append.mp hc with hc | hc
  · exact h c hc
  · exact hrest c hc

private theorem InCells.not_mem {c : Char} (h : InCells cs) (hc : c.toNat < 0x20) : c ∉ cs := by
  intro hmem
  have := h c hmem
  omega

/-- A text in cells is as wide as it is long. -/
private theorem width_of_inCells (h : InCells cs) : Text.width cs = cs.length := by
  induction cs with
  | nil => rfl
  | cons c cs ih =>
    have hc := h c List.mem_cons_self
    have hone : cells c = 1 := by simp [cells, hc]
    rw [Text.width, hone, ih h.tail, List.length_cons, Nat.add_comm]

/-- A text with the characters of times only is one in cells. -/
private theorem inCells_of_all (h : cs.all isOfTimes) : InCells cs := by
  intro c hc
  have hmarks : InCells "-+:., daysT".toList := by decide
  have hclass := List.all_eq_true.mp h c hc
  rw [isOfTimes, Bool.or_eq_true, List.contains_iff_mem] at hclass
  rcases hclass with hdigit | hmark
  · have hcode : 48 ≤ c.toNat ∧ c.toNat ≤ 57 := Char.isDigit_iff_toNat.mp hdigit
    omega
  · exact hmarks c hmark

/-! ## One line -/

private theorem expandTabs_of_inCells (h : InCells cs) (cell : Nat) : expandTabs cell cs = cs := by
  induction cs generalizing cell with
  | nil => rfl
  | cons c cs ih =>
    have hc : c ≠ '\t' := by
      rintro rfl
      exact h.not_mem (by decide) List.mem_cons_self
    rw [expandTabs, if_neg hc, ih h.tail]

private theorem flatten_addToGroups (c : Char) (gs : List (List Char)) :
    (addToGroups c gs).flatten = c :: gs.flatten := by
  unfold addToGroups
  split
  · rfl
  · split <;> rfl

private theorem flatten_foldr_addToGroups (cs : List Char) :
    (cs.foldr addToGroups []).flatten = cs := by
  induction cs with
  | nil => rfl
  | cons c cs ih => rw [List.foldr_cons, flatten_addToGroups, ih]

private theorem width_flatten (gs : List (List Char)) :
    Text.width gs.flatten = (gs.map Text.width).sum := by
  induction gs with
  | nil => rfl
  | cons g gs ih => rw [List.flatten_cons, width_append, ih, List.map_cons, List.sum_cons]

/-- The words of a text with the blanks behind them are no wider than the text. -/
private theorem sum_width_groups_le (cs : List Char) :
    ((groups cs).map Text.width).sum ≤ Text.width cs := by
  have hwidth := width_flatten (cs.foldr addToGroups [])
  rw [flatten_foldr_addToGroups] at hwidth
  unfold groups
  split
  · simp
  · next only heq =>
    rw [heq] at hwidth
    split
    · simp
    · exact hwidth.ge
  · next first second rest heq =>
    rw [heq] at hwidth
    split
    · simp only [List.map_cons, List.sum_cons, width_append] at hwidth ⊢
      omega
    · exact hwidth.ge

private theorem width_trimEnd_le (cs : List Char) : Text.width (trimEnd cs) ≤ Text.width cs := by
  have hsplit : trimEnd cs ++ (cs.reverse.takeWhile isBlank).reverse = cs := by
    rw [trimEnd, ← List.reverse_append, List.takeWhile_append_dropWhile, List.reverse_reverse]
  have hwidth := congrArg Text.width hsplit
  rw [width_append] at hwidth
  omega

namespace Flow

variable (f : Flow)

private theorem breaks_of_fits (start used : Nat) (gs : List (List Char))
    (h : used + (gs.map Text.width).sum ≤ f.width) : f.breaks start used gs = [] := by
  induction gs generalizing start used with
  | nil => rfl
  | cons g gs ih =>
    rw [List.map_cons, List.sum_cons] at h
    have htrim := width_trimEnd_le g
    rw [breaks]
    dsimp only
    rw [if_pos (by omega)]
    exact ih _ _ (by omega)

private theorem trimExcess_of_fits (h : cs.length ≤ f.width) : f.trimExcess cs = cs := by
  simp [trimExcess, Nat.sub_eq_zero_of_le h]

/-- A text in cells that is no longer than a line is one line. -/
private theorem lines_of_fits (h : InCells cs) (hle : cs.length ≤ f.width) :
    f.lines cs = [f.place cs] := by
  have hline : cs.splitOn '\n' = [cs] := List.splitOn_eq_singleton (h.not_mem (by decide))
  have hbreaks : f.breaks 0 0 (groups cs) = [] := by
    have hsum := sum_width_groups_le cs
    rw [width_of_inCells h] at hsum
    exact f.breaks_of_fits 0 0 _ (by omega)
  rw [lines, hline]
  simp [expandTabs_of_inCells h, hbreaks, divide, f.trimExcess_of_fits hle]

private theorem cut_of_fits (h : InCells cs) (hle : cs.length ≤ f.width) : f.cut cs = cs := by
  rw [cut, if_pos (by rw [width_of_inCells h]; exact hle)]

private theorem place_of_left (hleft : f.alignment = .left) (h : InCells cs)
    (hle : cs.length ≤ f.width) :
    f.place cs = cs ++ List.replicate (f.width - cs.length) ' ' := by
  rw [place, hleft]
  dsimp only
  rw [f.cut_of_fits h hle, padCells, width_of_inCells h]

private theorem place_of_natural (hnatural : f.alignment = .natural) (h : InCells cs)
    (hle : cs.length ≤ f.width) : f.place cs = cs := by
  rw [place, hnatural]
  exact f.cut_of_fits h hle

end Flow

/-! ## Markup without tags -/

namespace Markup

private theorem unescape_of_not_mem (h : '[' ∉ cs) : unescape cs = cs := by
  induction cs with
  | nil => rfl
  | cons c cs ih =>
    have hcs : '[' ∉ cs := fun hmem => h (List.mem_cons_of_mem c hmem)
    rw [unescape.eq_2, ih hcs]
    rintro rest - rfl
    exact hcs List.mem_cons_self

private theorem replaceEmojiFrom_of_not_mem (h : ':' ∉ cs) (rest : List Char) :
    replaceEmojiFrom none (cs ++ rest) = cs ++ replaceEmojiFrom none rest := by
  induction cs with
  | nil => rfl
  | cons c cs ih =>
    have hc : c ≠ ':' := by
      rintro rfl
      exact h List.mem_cons_self
    have htail : ':' ∉ cs := fun hmem => h (List.mem_cons_of_mem c hmem)
    have hstep (cs : List Char) : replaceEmojiFrom none (c :: cs) =
        if c = ':' then replaceEmojiFrom (some []) cs else c :: replaceEmojiFrom none cs := rfl
    rw [List.cons_append, hstep, if_neg hc, ih htail, List.cons_append]

private theorem filter_of_inCells (h : InCells cs) :
    cs.filter (fun c => !(hiddenControls.contains c)) = cs := by
  refine List.filter_eq_self.mpr fun c hc => ?_
  have hge := (h c hc).1
  simp only [hiddenControls, List.contains_cons, List.contains_nil, Bool.or_false,
    Bool.not_eq_true', Bool.or_eq_false_iff, beq_eq_false_iff_ne]
  refine ⟨?_, ?_, ?_, ?_, ?_⟩ <;> · rintro rfl; exact absurd hge (by decide)

/-- A text in cells that neither markup nor the names of emoji change. -/
def IsVerbatim (cs : List Char) : Prop := InCells cs ∧ '[' ∉ cs ∧ ':' ∉ cs

instance (cs : List Char) : Decidable (IsVerbatim cs) :=
  inferInstanceAs (Decidable (InCells cs ∧ _))

/-- A text without brackets is shown with its emoji replaced. -/
theorem shown_of_not_mem (h : '[' ∉ text.toList) : shown text = .ok (shownPlain text.toList) := by
  rw [shown, pieces, piecesFrom_of_tagless (.of_not_mem h), List.append_nil]
  unfold plainPieces
  split
  · next hempty =>
    rw [List.isEmpty_iff, List.reverse_eq_nil_iff] at hempty
    rw [hempty]
    rfl
  · rw [List.reverse_reverse, shownFrom, shownFrom]
    simp [Functor.map, Except.map]

/-- A text that nothing changes is shown as it is. -/
theorem shown_of_isVerbatim (h : IsVerbatim text.toList) : shown text = .ok text.toList := by
  obtain ⟨hcells, hbracket, hcolon⟩ := h
  have hemoji : replaceEmoji text.toList = text.toList := by
    have hsame := replaceEmojiFrom_of_not_mem hcolon []
    change _ = _ ++ [] at hsame
    rwa [List.append_nil] at hsame
  rw [shown_of_not_mem hbracket, shownPlain, unescape_of_not_mem hbracket, hemoji,
    filter_of_inCells hcells]

/-- A text in cells without brackets that the console shows as it is. -/
structure ShowsItself (text : String) : Prop where
  cells : InCells text.toList
  tagless : '[' ∉ text.toList
  shown_eq : shown text = .ok text.toList

/-- A text that nothing changes shows itself. -/
theorem IsVerbatim.showsItself (h : IsVerbatim text.toList) : ShowsItself text :=
  ⟨h.1, h.2.1, shown_of_isVerbatim h⟩

/-- A text with the characters of times shows itself, unless a part of it is replaced. -/
theorem showsItself_of_all (h : text.toList.all isOfTimes) (hshown : shown text = .ok text.toList) :
    ShowsItself text :=
  ⟨inCells_of_all h, bracket_not_mem_of_all h, hshown⟩

/-- A label is a word with a colon and a blank behind it, and perhaps more blanks. -/
def IsLabel (label : String) : Prop :=
  ∃ word gap : String, IsVerbatim word.toList ∧ IsVerbatim gap.toList ∧ label = word ++ ": " ++ gap

/-- The colon of a label does not begin the name of an emoji. -/
private theorem replaceEmoji_labelled {word gap : List Char} (hword : ':' ∉ word) (hgap : ':' ∉ gap)
    (cs : List Char) :
    replaceEmoji (word ++ [':', ' '] ++ gap ++ cs) =
      word ++ [':', ' '] ++ gap ++ replaceEmoji cs := by
  have hcolon : replaceEmojiFrom none (':' :: ' ' :: (gap ++ cs)) =
      ':' :: ' ' :: replaceEmojiFrom none (gap ++ cs) := rfl
  simp only [List.append_assoc, List.cons_append, List.nil_append]
  rw [replaceEmoji, replaceEmojiFrom_of_not_mem hword, hcolon, replaceEmojiFrom_of_not_mem hgap,
    replaceEmoji]

private theorem IsLabel.inCells {label : String} (h : IsLabel label) : InCells label.toList := by
  obtain ⟨word, gap, hword, hgap, rfl⟩ := h
  rw [String.toList_append, String.toList_append]
  exact (hword.1.append (by decide)).append hgap.1

/-- A label stays as it is before a text without brackets. -/
private theorem shown_labelled {label : String} (hlabel : IsLabel label)
    (htext : ShowsItself text) : shown (label ++ text) = .ok (label ++ text).toList := by
  have hcells := hlabel.inCells
  obtain ⟨word, gap, hword, hgap, rfl⟩ := hlabel
  have hbracket : '[' ∉ (word ++ ": " ++ gap ++ text).toList := by
    simp [hword.2.1, hgap.2.1, htext.tagless]
  have hsame := htext.shown_eq
  have hemoji : replaceEmoji (word ++ ": " ++ gap ++ text).toList =
      (word ++ ": " ++ gap).toList ++ replaceEmoji text.toList := by
    rw [String.toList_append, String.toList_append, String.toList_append]
    exact replaceEmoji_labelled hword.2.2 hgap.2.2 text.toList
  rw [shown_of_not_mem htext.tagless, Except.ok.injEq, shownPlain,
    unescape_of_not_mem htext.tagless] at hsame
  rw [shown_of_not_mem hbracket, shownPlain, unescape_of_not_mem hbracket, hemoji,
    List.filter_append, filter_of_inCells hcells, hsame, ← String.toList_append]

end Markup

/-! ## Lines -/

private theorem neededWidth_of_inCells (h : InCells cs) : neededWidth cs = cs.length := by
  have hline : cs.splitOnP isLineEnd = [cs] := by
    rw [List.splitOnP_eq_singleton]
    intro c hc
    obtain ⟨hge, hlt⟩ := h c hc
    simp only [isLineEnd, Bool.or_eq_false_iff, Bool.and_eq_false_iff, decide_eq_false_iff_not]
    omega
  rw [neededWidth, hline]
  simp [width_of_inCells h]

private theorem linesOfMarkup_of_fits {console : Nat} (hshown : Markup.shown text = .ok text.toList)
    (h : InCells text.toList) (hle : text.toList.length ≤ console) :
    linesOfMarkup console text = .ok [text.toList] := by
  have hlines := (⟨console, .natural, true⟩ : Flow).lines_of_fits h hle
  rw [Flow.place_of_natural _ rfl h hle] at hlines
  rw [linesOfMarkup, hshown]
  exact congrArg Except.ok hlines

/-! ## Tables with two columns -/

/-- Widths that fit stay as they are. -/
private theorem collapseWidths_of_le {limit : Nat} {widths : List Nat}
    (h : totalWidth widths ≤ limit) (steps : Nat) :
    collapseWidths limit steps widths = widths := by
  cases steps with
  | zero => rfl
  | succ steps =>
    rw [collapseWidths, Nat.sub_eq_zero_of_le h]
    rfl

/-- The wider one of two columns is reduced to what the other one leaves. -/
private theorem reduceWidest_pair {limit n m : Nat} (hlt : n < m) (hexcess : limit < n + m)
    (hn : 2 * n ≤ limit) :
    reduceWidest m (min (n + m - limit) (m - n)) (n + m - limit) 1 [n, m] = [n, limit - n] := by
  have hquotient : roundedQuotient (n + m - limit) 1 = n + m - limit := by
    simp [roundedQuotient, Nat.mod_one]
  simp only [reduceWidest, if_neg hlt.ne, if_true, hquotient]
  congr 2
  omega

/-- Of two columns the wider one gives way. -/
private theorem collapseWidths_pair {limit n m : Nat} (hn : 2 * n ≤ limit) (hm : m ≤ limit) :
    collapseWidths limit (totalWidth [n, m]) [n, m] = [n, min m (limit - n)] := by
  have htotal (n m : Nat) : totalWidth [n, m] = n + m := by simp [totalWidth]
  by_cases hfits : n + m ≤ limit
  · rw [collapseWidths_of_le (by rwa [htotal]), min_eq_left (by omega)]
  · have hlt : n < m := by omega
    obtain ⟨steps, hsteps⟩ : ∃ steps, totalWidth [n, m] = steps + 1 :=
      ⟨n + m - 1, by rw [htotal]; omega⟩
    have hgreatest : [n, m].foldl max 0 = m := by simp [hlt.le]
    have hnext : ([n, m].filter (· ≠ m)).foldl max 0 = n := by simp [hlt.ne]
    have hcount : [n, m].count m = 1 := by simp [hlt.ne]
    rw [hsteps, collapseWidths, htotal]
    dsimp only
    rw [if_neg (by omega), hgreatest, hnext, hcount, reduceWidest_pair hlt (by omega) hn,
      collapseWidths_of_le (by rw [htotal]; omega), min_eq_right (by omega)]

private theorem forall₂_of_mapM {α β ε : Type} {f : α → Except ε β} {l : List α} {r : List β}
    (h : l.mapM f = .ok r) : List.Forall₂ (fun a b => f a = .ok b) l r := by
  induction l generalizing r with
  | nil =>
    cases h
    exact .nil
  | cons a l ih =>
    rw [List.mapM_cons] at h
    cases hhead : f a with
    | error e =>
      rw [hhead] at h
      cases h
    | ok b =>
      cases htail : l.mapM f with
      | error e =>
        rw [hhead, htail] at h
        cases h
      | ok bs =>
        rw [hhead, htail] at h
        cases h
        exact .cons hhead (ih htail)

private theorem exists_of_mem_left {α β : Type} {R : α → β → Prop} {l : List α} {r : List β}
    (h : List.Forall₂ R l r) {a : α} (ha : a ∈ l) : ∃ b ∈ r, R a b := by
  obtain ⟨i, hi, rfl⟩ := List.getElem_of_mem ha
  have hir : i < r.length := h.length_eq ▸ hi
  exact ⟨r[i], List.getElem_mem _, h.get hi hir⟩

private theorem foldl_max_le_iff {l : List Nat} {start bound : Nat} :
    l.foldl max start ≤ bound ↔ start ≤ bound ∧ ∀ n ∈ l, n ≤ bound := by
  induction l generalizing start with
  | nil => simp
  | cons m l ih =>
    rw [List.foldl_cons, ih, List.forall_mem_cons, max_le_iff, and_assoc]

namespace Table

variable {t : Table} {console : Nat}

private theorem exists_columns {first second : Column} (hcolumns : t.columns = [first, second])
    (hheader : t.showHeader = false) {columns : List (List (List Char))}
    (h : t.shownColumns = .ok columns) :
    ∃ labels values, columns = [labels, values] ∧
      List.Forall₂ (fun row cs => Markup.shown (row.getD 0 "") = .ok cs) t.rows labels ∧
      List.Forall₂ (fun row cs => Markup.shown (row.getD 1 "") = .ok cs) t.rows values := by
  have htexts (column : Column × Nat) :
      t.columnTexts column = t.rows.map fun row => row.getD column.2 "" := by
    simp [columnTexts, hheader]
  have hall := forall₂_of_mapM h
  rw [hcolumns] at hall
  obtain _ | ⟨hlabels, _ | ⟨hvalues, _ | _⟩⟩ := hall
  rw [htexts] at hlabels hvalues
  exact ⟨_, _, rfl, List.forall₂_map_left_iff.mp (forall₂_of_mapM hlabels),
    List.forall₂_map_left_iff.mp (forall₂_of_mapM hvalues)⟩

/-- Among the lines of a table without headers are those of its rows. -/
private theorem exists_columns_of_lines (hheader : t.showHeader = false)
    {printed : List (List Char)} (h : t.lines console = .ok printed) :
    ∃ columns, t.shownColumns = .ok columns ∧ ∀ row ∈ transposed columns,
      ∀ line ∈ t.rowLines Frame.simple.row (t.widths console columns) row, line ∈ printed := by
  cases hshown : t.shownColumns with
  | error e =>
    rw [lines, hshown] at h
    cases h
  | ok columns =>
  cases htitle : Markup.shown t.title with
  | error e =>
    rw [lines, hshown, htitle] at h
    cases h
  | ok title =>
  rw [lines, hshown, htitle] at h
  cases h
  refine ⟨columns, rfl, fun row hrow line hline => ?_⟩
  simp only [hheader, Bool.false_eq_true, if_false, List.length_nil, List.drop_zero]
  exact List.mem_append_left _ (List.mem_append_right _ (List.mem_flatMap.mpr ⟨row, hrow, hline⟩))

/-- The width that a column asks for. -/
private def naturalWidth (available : Nat) (column : List (List Char)) : Nat :=
  max 1 (min available ((column.map fun cs => neededWidth cs + 2).foldl max 0))

private theorem naturalWidth_le {available bound : Nat} {column : List (List Char)}
    (hbound : 1 ≤ bound) (h : ∀ cs ∈ column, neededWidth cs + 2 ≤ bound) :
    naturalWidth available column ≤ bound := by
  have hall : (column.map fun cs => neededWidth cs + 2).foldl max 0 ≤ bound :=
    foldl_max_le_iff.mpr ⟨Nat.zero_le _, by simpa using h⟩
  rw [naturalWidth]
  omega

private theorem le_naturalWidth {available : Nat} {column : List (List Char)} (hcs : cs ∈ column)
    (hcells : InCells cs) (h : cs.length + 2 ≤ available) :
    cs.length + 2 ≤ naturalWidth available column := by
  have hle : neededWidth cs + 2 ≤ (column.map fun cs => neededWidth cs + 2).foldl max 0 :=
    (foldl_max_le_iff.mp le_rfl).2 _ (List.mem_map_of_mem hcs)
  rw [neededWidth_of_inCells hcells] at hle
  rw [naturalWidth]
  omega

/-- Labels of a width ask for no more. -/
private theorem naturalWidth_labels_le {available width : Nat} {labels : List (List Char)}
    (hfirst : List.Forall₂ (fun row cs => Markup.shown (row.getD 0 "") = .ok cs) t.rows labels)
    (hlabels : ∀ row ∈ t.rows, Markup.IsVerbatim (row.getD 0 "").toList ∧
      (row.getD 0 "").toList.length + 2 ≤ width) (hwidth : 1 ≤ width) :
    naturalWidth available labels ≤ width := by
  refine naturalWidth_le hwidth fun cs hcs => ?_
  obtain ⟨row, hmemRow, hshownRow⟩ := exists_of_mem_left hfirst.flip hcs
  obtain ⟨hverbatim, hlength⟩ := hlabels row hmemRow
  rw [Markup.shown_of_isVerbatim hverbatim] at hshownRow
  cases hshownRow
  rw [neededWidth_of_inCells hverbatim.1]
  exact hlength

/-- A cell of a column that is wide enough is one line. -/
private theorem cellLines_of_fits {width : Nat} (h : InCells cs) (hle : cs.length + 2 ≤ width) :
    cellLines width .left cs =
      [' ' :: (cs ++ List.replicate (width - 2 - cs.length) ' ') ++ [' ']] := by
  have hfits : cs.length ≤ (⟨width - 2, .left, false⟩ : Flow).width := by
    change cs.length ≤ width - 2
    omega
  rw [cellLines, Flow.lines_of_fits _ h hfits, Flow.place_of_left _ rfl h hfits]
  rfl

private theorem rowLines_of_fits {a b : String}
    (hcolumns : t.columns = [⟨a, .left⟩, ⟨b, .left⟩]) (border : Border) {n m : Nat}
    {label value : List Char} (hlabel : InCells label) (hvalue : InCells value)
    (hn : label.length + 2 ≤ n) (hm : value.length + 2 ≤ m) :
    t.rowLines border [n, m] [label, value] =
      [border.row [' ' :: (label ++ List.replicate (n - 2 - label.length) ' ') ++ [' '],
        ' ' :: (value ++ List.replicate (m - 2 - value.length) ' ') ++ [' ']]] := by
  rw [rowLines, hcolumns]
  simp [cellLines_of_fits hlabel hn, cellLines_of_fits hvalue hm, List.range_succ]

private theorem mem_transposed {rows : List (List String)} {labels values : List (List Char)}
    {label value : String} {cs ds : List Char}
    (hlabels : List.Forall₂ (fun row cs => Markup.shown (row.getD 0 "") = .ok cs) rows labels)
    (hvalues : List.Forall₂ (fun row cs => Markup.shown (row.getD 1 "") = .ok cs) rows values)
    (hrow : [label, value] ∈ rows) (hlabel : Markup.shown label = .ok cs)
    (hvalue : Markup.shown value = .ok ds) :
    [cs, ds] ∈ transposed [labels, values] ∧ cs ∈ labels ∧ ds ∈ values := by
  obtain ⟨i, hi, hat⟩ := List.getElem_of_mem hrow
  have hilabels : i < labels.length := hlabels.length_eq ▸ hi
  have hivalues : i < values.length := hvalues.length_eq ▸ hi
  have hcs : labels[i] = cs := by
    have h := hlabels.get hi hilabels
    rw [List.get_eq_getElem, List.get_eq_getElem, hat, List.getD_cons_zero, hlabel] at h
    exact (Except.ok.inj h).symm
  have hds : values[i] = ds := by
    have h := hvalues.get hi hivalues
    rw [List.get_eq_getElem, List.get_eq_getElem, hat, List.getD_cons_succ, List.getD_cons_zero,
      hvalue] at h
    exact (Except.ok.inj h).symm
  refine ⟨List.mem_map.mpr ⟨i, ?_, ?_⟩, hcs ▸ List.getElem_mem _, hds ▸ List.getElem_mem _⟩
  · rw [List.mem_range]
    simp
    omega
  · simp [List.getD_eq_getElem?_getD, hilabels, hivalues, hcs, hds]

/-- Two columns have the widths that they ask for if there is room, and else the second one what the
first one leaves. -/
private theorem widths_pair {first second : Column} (hcolumns : t.columns = [first, second])
    {labels values : List (List Char)}
    (hlabels : 2 * naturalWidth (console - 3) labels ≤ console - 3) (hconsole : 4 ≤ console) :
    t.widths console [labels, values] = [naturalWidth (console - 3) labels,
      min (naturalWidth (console - 3) values)
        (console - 3 - naturalWidth (console - 3) labels)] := by
  have hframe : t.frameWidth = 3 := by rw [frameWidth, hcolumns]; rfl
  have hvalues : naturalWidth (console - 3) values ≤ console - 3 := by
    rw [naturalWidth]
    omega
  rw [widths, hframe]
  exact collapseWidths_pair hlabels hvalues

/-- A row of a label and a value stands on one line of the table, if the console is wide enough for
the value beside labels of a width, and for these twice. -/
private theorem exists_line_of_row {a b : String}
    (hcolumns : t.columns = [⟨a, .left⟩, ⟨b, .left⟩]) (hheader : t.showHeader = false)
    {width : Nat} (hlabels : ∀ row ∈ t.rows, Markup.IsVerbatim (row.getD 0 "").toList ∧
      (row.getD 0 "").toList.length + 2 ≤ width)
    (hwidth : 2 * width + 3 ≤ console) {label value : String} (hrow : [label, value] ∈ t.rows)
    (hvalue : Markup.ShowsItself value) (hfits : value.length + width + 5 ≤ console)
    {printed : List (List Char)} (h : t.lines console = .ok printed) :
    ∃ n m : Nat, '│' :: ' ' :: label.toList ++ List.replicate n ' ' ++ [' ', '│', ' '] ++
      value.toList ++ List.replicate m ' ' ++ [' ', '│'] ∈ printed := by
  obtain ⟨columns, hshown, hprinted⟩ := exists_columns_of_lines hheader h
  obtain ⟨labels, values, rfl, hfirst, hsecond⟩ := exists_columns hcolumns hheader hshown
  obtain ⟨hverbatim, hlength⟩ : Markup.IsVerbatim label.toList ∧ label.toList.length + 2 ≤ width :=
    hlabels _ hrow
  obtain ⟨hmem, hmemLabel, hmemValue⟩ :=
    mem_transposed hfirst hsecond hrow (Markup.shown_of_isVerbatim hverbatim) hvalue.shown_eq
  rw [← String.length_toList] at hfits
  -- the labels have the width that they ask for, and the values have theirs or what is left
  have hn : naturalWidth (console - 3) labels ≤ width :=
    naturalWidth_labels_le hfirst hlabels (by omega)
  have hwidths : t.widths console [labels, values] = _ :=
    widths_pair hcolumns (by omega) (by omega)
  have hlabelWidth : label.toList.length + 2 ≤ naturalWidth (console - 3) labels :=
    le_naturalWidth hmemLabel hverbatim.1 (by omega)
  have hvalueWidth : value.toList.length + 2 ≤ naturalWidth (console - 3) values :=
    le_naturalWidth hmemValue hvalue.cells (by omega)
  have hline := t.rowLines_of_fits hcolumns Frame.simple.row hverbatim.1 hvalue.cells hlabelWidth
    (m := min (naturalWidth (console - 3) values)
      (console - 3 - naturalWidth (console - 3) labels)) (by omega)
  rw [← hwidths] at hline
  have hbody := hprinted _ hmem _ (hline ▸ List.mem_singleton_self _)
  exact ⟨_, _, by simpa [Frame.simple, Frame.headed, Border.row] using hbody⟩

end Table

end Console

/-! ## What is printed -/

namespace Shell

open Console

variable {console : Nat} {shown : String}

/-- A table that is printed has a row of a label and a value: each of them has a blank on either
side, and perhaps more behind it, and stands between the borders of the row. -/
def PrintsRow (label value printed : String) : Prop :=
  ∃ n m, ("│ " ++ label ++ String.ofList (List.replicate n ' ') ++ " │ " ++ value ++
    String.ofList (List.replicate m ' ') ++ " │\n").toList <:+: printed.toList

private theorem infix_textOfLines {line : List Char} {lines : List (List Char)}
    (h : line ∈ lines) : line ++ ['\n'] <:+: (textOfLines lines).toList := by
  rw [textOfLines, String.toList_ofList]
  exact List.infix_of_mem_flatten (List.mem_map_of_mem h)

/-- A row is printed as it is, if the console is wide enough for its value beside labels of a width,
and for these twice. -/
theorem ShowsTable.printsRow {t : Table} {a b : String}
    (hcolumns : t.columns = [⟨a, .left⟩, ⟨b, .left⟩]) (hheader : t.showHeader = false)
    {width : Nat} (hlabels : ∀ row ∈ t.rows, Markup.IsVerbatim (row.getD 0 "").toList ∧
      (row.getD 0 "").toList.length + 2 ≤ width)
    (hwidth : 2 * width + 3 ≤ console) {label value : String} (hrow : [label, value] ∈ t.rows)
    (hvalue : Markup.ShowsItself value) (hfits : value.length + width + 5 ≤ console)
    (h : ShowsTable console t shown) :
    PrintsRow label value shown := by
  obtain ⟨lines, hlines, rfl⟩ := h
  obtain ⟨n, m, hline⟩ :=
    Table.exists_line_of_row hcolumns hheader hlabels hwidth hrow hvalue hfits hlines
  refine ⟨n, m, ?_⟩
  have hinfix := infix_textOfLines hline
  simpa using hinfix

/-- A labelled text among those that are printed is printed as it is, if the console is wide
enough. -/
theorem mem_of_forall₂_shows {texts lines : List String}
    (h : List.Forall₂ (Shows console) texts lines) {label text : String}
    (hmem : label ++ text ∈ texts) (hlabel : Markup.IsLabel label) (htext : Markup.ShowsItself text)
    (hfits : label.length + text.length ≤ console) : label ++ text ++ "\n" ∈ lines := by
  obtain ⟨line, hline, printed, hprinted, rfl⟩ := exists_of_mem_left h hmem
  have hlabelled := Markup.shown_labelled hlabel htext
  have hall : InCells (label ++ text).toList := by
    rw [String.toList_append]
    exact hlabel.inCells.append htext.cells
  rw [linesOfMarkup_of_fits hlabelled hall (by rwa [String.length_toList, String.length_append])]
    at hprinted
  cases hprinted
  rwa [textOfLines, List.flatMap_singleton, String.ofList_append, String.ofList_toList] at hline

end Shell

end CertKeeper
