import CertKeeper.Encoding.Pem
import CertKeeper.Proofs.AsciiText
import CertKeeper.Proofs.CharacterOctets

/-!
# Blocks as they are written

The text of a block is read as that one block (`Pem.blocks?_write`): neither its label nor its
base 64 holds a mark, so each mark is found where it was put.
-/

namespace CertKeeper

/-! ## The search for marks -/

namespace Bytes

variable {mark u v : Bytes}

/-- Octets that do not start a mark are passed over. -/
theorem markEnd?_append (hmark : mark ≠ []) (hu : ∀ x ∈ u, mark[0]? ≠ some x) :
    markEnd? mark 0 (u ++ v) = (markEnd? mark 0 v).map (· + u.length) := by
  have hlength : (0 : Nat) ≠ mark.length := fun h => hmark (List.length_eq_zero_iff.mp h.symm)
  induction u with
  | nil => simp
  | cons x u ih =>
    rw [List.cons_append, markEnd?]
    simp only [hu x List.mem_cons_self, if_false, hlength]
    rw [ih fun y hy => hu y (List.mem_cons_of_mem x hy), Option.map_map]
    refine congrArg (Option.map · _) (funext fun n => ?_)
    rw [Function.comp_apply, List.length_cons, Nat.add_assoc]

/-- A mark that has been read in part is found where it ends. -/
private theorem markEnd?_mark {found : Nat} (h : found < mark.length) :
    markEnd? mark found (mark.drop found ++ v) = some (mark.length - found) := by
  induction hn : mark.length - found generalizing found with
  | zero => omega
  | succ n ih =>
    rw [List.drop_eq_getElem_cons h, List.cons_append, markEnd?, List.getElem?_eq_getElem h]
    simp only [if_true]
    by_cases hend : found + 1 = mark.length
    · rw [if_pos hend]
      congr 1
      omega
    · rw [if_neg hend, ih (by omega) (by omega)]
      rfl

/-- A mark is found behind octets that do not start it. -/
theorem cut?_append (hmark : mark ≠ []) (hu : ∀ x ∈ u, mark[0]? ≠ some x) :
    cut? mark (u ++ (mark ++ v)) = some (u, v) := by
  have hfound : markEnd? mark 0 (mark ++ v) = some mark.length := by
    have h := markEnd?_mark (v := v) (List.length_pos_iff.mpr hmark)
    rwa [List.drop_zero, Nat.sub_zero] at h
  have hend : u ++ (mark ++ v) = u ++ mark ++ v := (List.append_assoc _ _ _).symm
  have hlength : mark.length + u.length = (u ++ mark).length := by
    rw [List.length_append, Nat.add_comm]
  rw [cut?, markEnd?_append hmark hu, hfound, Option.map_some, Option.map_some,
    Nat.add_sub_cancel_left, List.take_left, hend, hlength, List.drop_left]

/-- Without an octet that starts a mark there is no mark. -/
private theorem cut?_eq_none (hmark : mark ≠ []) (hu : ∀ x ∈ u, mark[0]? ≠ some x) :
    cut? mark u = none := by
  have h := markEnd?_append (v := []) hmark hu
  rw [List.append_nil] at h
  rw [cut?, h]
  rfl

end Bytes

namespace Encoding

/-! ## Base 64 in lines -/

/-- Whether an octet is one of the characters that base 64 may use: it is one of ASCII, neither a
hyphen nor white space. -/
def Base64.IsPlain (x : UInt8) : Prop := 0x2b ≤ x ∧ x < 0x80 ∧ x ≠ 0x2d

private theorem Base64.isPlain_digit : ∀ n < 64, IsPlain (digit n) := by
  unfold IsPlain
  decide

private theorem Base64.isPlain_pad : IsPlain pad := by
  unfold IsPlain
  decide

/-- What is written in base 64 consists of plain characters. -/
theorem Base64.isPlain_of_mem_encode {b : Bytes} {x : UInt8} (hx : x ∈ encode b) : IsPlain x := by
  fun_induction encode b with
  | case1 => cases hx
  | case2 a n =>
    have ha := a.toNat_lt
    simp only [List.mem_cons, List.not_mem_nil, or_false] at hx
    rcases hx with rfl | rfl | rfl | rfl
    · exact isPlain_digit _ (by omega)
    · exact isPlain_digit _ (by omega)
    · exact isPlain_pad
    · exact isPlain_pad
  | case3 a b n =>
    have ha := a.toNat_lt
    have hb := b.toNat_lt
    simp only [List.mem_cons, List.not_mem_nil, or_false] at hx
    rcases hx with rfl | rfl | rfl | rfl
    · exact isPlain_digit _ (by omega)
    · exact isPlain_digit _ (by omega)
    · exact isPlain_digit _ (by omega)
    · exact isPlain_pad
  | case4 a b c rest n ih =>
    have ha := a.toNat_lt
    have hb := b.toNat_lt
    have hc := c.toNat_lt
    simp only [List.mem_cons] at hx
    rcases hx with rfl | rfl | rfl | rfl | hx
    · exact isPlain_digit _ (by omega)
    · exact isPlain_digit _ (by omega)
    · exact isPlain_digit _ (by omega)
    · exact isPlain_digit _ (by omega)
    · exact ih hx

namespace Pem

open Text

/-- Lines hold the octets that were put in them, and line ends. -/
private theorem mem_wrapFrom {width used : Nat} {b : Bytes} {x : UInt8}
    (hx : x ∈ wrapFrom width used b) :
    x ∈ b ∨ x = 0x0a := by
  fun_induction wrapFrom width used b with
  | case1 => cases hx
  | case2 => exact .inr (List.mem_singleton.mp hx)
  | case3 used c rest _ ih =>
    rcases List.mem_cons.mp hx with rfl | hx
    · exact .inl List.mem_cons_self
    rcases List.mem_cons.mp hx with rfl | hx
    · exact .inr rfl
    · exact (ih hx).imp_left (List.mem_cons_of_mem c)
  | case4 used c rest _ ih =>
    rcases List.mem_cons.mp hx with rfl | hx
    · exact .inl List.mem_cons_self
    · exact (ih hx).imp_left (List.mem_cons_of_mem c)

/-- The line ends are all that lines add. -/
private theorem filter_wrapFrom {width used : Nat} {b : Bytes} (hb : ∀ x ∈ b, x ≠ 0x0a) :
    (wrapFrom width used b).filter (· ≠ 0x0a) = b := by
  fun_induction wrapFrom width used b with
  | case1 => rfl
  | case2 => rfl
  | case3 used c rest _ ih =>
    rw [List.filter_cons_of_pos (by simpa using hb c List.mem_cons_self),
      List.filter_cons_of_neg (by simp), ih fun x hx => hb x (List.mem_cons_of_mem c hx)]
  | case4 used c rest _ ih =>
    rw [List.filter_cons_of_pos (by simpa using hb c List.mem_cons_self),
      ih fun x hx => hb x (List.mem_cons_of_mem c hx)]

/-- The mark of an empty line. -/
def emptyLine : Bytes := [0x0a, 0x0a]

/-- The search for an empty line starts anew at an octet that is no line end. -/
theorem markEnd?_emptyLine_cons {c : UInt8} (hc : c ≠ 0x0a) (found : Nat) (rest : Bytes) :
    Bytes.markEnd? emptyLine found (c :: rest) =
      (Bytes.markEnd? emptyLine 0 rest).map (· + 1) := by
  have hother : emptyLine[found]? ≠ some c := by
    match found with
    | 0 => exact fun h => hc (Option.some.inj h).symm
    | 1 => exact fun h => hc (Option.some.inj h).symm
    | found + 2 => exact nofun
  rw [Bytes.markEnd?]
  simp only [hother, if_false]
  rfl

/-- No line is empty: behind a line end stands an octet of the next line. -/
private theorem markEnd?_wrapFrom {width used found : Nat} {b : Bytes} (hb : ∀ x ∈ b, x ≠ 0x0a)
    (hfound : found = 0 ∨ found = 1 ∧ used = 0) :
    Bytes.markEnd? emptyLine found (wrapFrom width used b) = none := by
  fun_induction wrapFrom width used b generalizing found with
  | case1 => rfl
  | case2 used =>
    obtain rfl | ⟨_, hused⟩ := hfound
    · rfl
    · cases hused
  | case3 used c rest _ ih =>
    have hline : Bytes.markEnd? emptyLine 0 (0x0a :: wrapFrom width 0 rest) =
        (Bytes.markEnd? emptyLine 1 (wrapFrom width 0 rest)).map (· + 1) := rfl
    rw [markEnd?_emptyLine_cons (hb c List.mem_cons_self), hline,
      ih (fun x hx => hb x (List.mem_cons_of_mem c hx)) (.inr ⟨rfl, rfl⟩)]
    rfl
  | case4 used c rest _ ih =>
    rw [markEnd?_emptyLine_cons (hb c List.mem_cons_self),
      ih (fun x hx => hb x (List.mem_cons_of_mem c hx)) (.inl rfl)]
    rfl

/-! ## Blocks -/

/-- The lines of a block's octets. -/
def body (content : Bytes) : Bytes := wrapFrom 64 0 (Base64.encode content)

/-- The body of a block holds the characters of base 64 and line ends. -/
theorem isPlain_of_mem_body {content : Bytes} {x : UInt8} (hx : x ∈ body content) :
    Base64.IsPlain x ∨ x = 0x0a :=
  (mem_wrapFrom hx).imp_left Base64.isPlain_of_mem_encode

private theorem ne_lineEnd_of_mem_encode {content : Bytes} {x : UInt8}
    (hx : x ∈ Base64.encode content) :
    x ≠ 0x0a := by
  rintro rfl
  exact absurd (Base64.isPlain_of_mem_encode hx).1 (by decide)

/-- A body has no headers. -/
private theorem splitHeaders_body (content : Bytes) :
    splitHeaders (body content) = ([], body content) := by
  have hempty : Bytes.cut? [0x0a, 0x0a] (body content) = none := by
    have h : Bytes.markEnd? emptyLine 0 (body content) = none :=
      markEnd?_wrapFrom (fun x hx => ne_lineEnd_of_mem_encode hx) (.inl rfl)
    exact congrArg (Option.map _) h
  have hreturn : Bytes.cut? [0x0d, 0x0a, 0x0d, 0x0a] (body content) = none := by
    refine Bytes.cut?_eq_none (List.cons_ne_nil _ _) fun x hx h => ?_
    cases Option.some.inj h
    rcases isPlain_of_mem_body hx with hplain | hline
    · exact absurd hplain.1 (by decide)
    · exact absurd hline (by decide)
  rw [splitHeaders, hempty, hreturn]

/-- The characters of base 64 are no white space. -/
private theorem isSpace_ofNat : ∀ n < 128, 0x2b ≤ n → isSpace (Char.ofNat n) = false := by decide

/-- The octets of a body are read again. -/
private theorem readData?_body (content : Bytes) : readData? (body content) = some content := by
  have hascii : ∀ x ∈ body content, x < 0x80 := by
    intro x hx
    rcases isPlain_of_mem_body hx with hplain | rfl
    · exact hplain.2.1
    · decide
  have hspace (x : UInt8) (hx : x ∈ body content) :
      (!(isSpace (Char.ofNat x.toNat))) = decide (x ≠ 0x0a) := by
    rcases isPlain_of_mem_body hx with hplain | rfl
    · have hne : x ≠ 0x0a := by
        rintro rfl
        exact absurd hplain.1 (by decide)
      rw [isSpace_ofNat x.toNat (UInt8.lt_iff_toNat_lt.mp hplain.2.1)
        (UInt8.le_iff_toNat_le.mp hplain.1), decide_eq_true hne]
      rfl
    · decide
  have hfilter : ((body content).map fun x => Char.ofNat x.toNat).filter
      (fun c => !(isSpace c)) =
        (Base64.encode content).map fun x => Char.ofNat x.toNat := by
    rw [List.filter_map, ← filter_wrapFrom 
      fun x hx => @ne_lineEnd_of_mem_encode content x hx]
    exact congrArg _ (List.filter_congr hspace)
  have hplain : ∀ c ∈ (Base64.encode content).map fun x => Char.ofNat x.toNat,
      c.toNat < 0x80 := by
    intro c hc
    obtain ⟨x, hx, rfl⟩ := List.mem_map.mp hc
    have hlt := (Base64.isPlain_of_mem_encode hx).2.1
    rw [Utf8.toNat_ofNat_of_ascii hlt]
    exact UInt8.lt_iff_toNat_lt.mp hlt
  have hback : ((Base64.encode content).map fun x => Char.ofNat x.toNat).map
      (fun c => UInt8.ofNat c.toNat) = Base64.encode content := by
    rw [List.map_map]
    refine (List.map_congr_left fun x hx => ?_).trans (List.map_id _)
    rw [Function.comp_apply,
      Utf8.toNat_ofNat_of_ascii (Base64.isPlain_of_mem_encode hx).2.1, UInt8.ofNat_toNat]
    rfl
  rw [readData?, Utf8.decode?_ascii hascii]
  simp only [Option.bind_eq_bind, Option.bind_some, String.toList_ofList]
  rw [hfilter, Utf8.encode_ascii hplain, hback, Base64.decode?_encode]

/-- A label that blocks are written with: ASCII without hyphens. -/
structure IsLabel (label : String) : Prop where
  nonempty : label.toList ≠ []
  ascii : ∀ c ∈ label.toList, c.toNat < 0x80
  plain : ∀ x ∈ Utf8.encode label, x ≠ 0x2d

/-- What makes a label, as checks that can be run on it. -/
theorem IsLabel.of_all {label : String} (hnonempty : label.toList ≠ [])
    (hascii : label.toList.all (·.toNat < 0x80) = true)
    (hplain : (Utf8.encode label).all (· ≠ 0x2d) = true) : IsLabel label := by
  constructor
  · exact hnonempty
  · intro c hc
    exact of_decide_eq_true (List.all_eq_true.mp hascii c hc)
  · intro x hx
    exact of_decide_eq_true (List.all_eq_true.mp hplain x hx)

/-- The line end after the first line of a block is all that is dropped before its body. -/
private theorem dropWhile_isGap_body (content rest : Bytes) :
    (0x0a :: (body content ++ (closing ++ rest))).dropWhile isGap =
      body content ++ (closing ++ rest) := by
  have hgap : isGap 0x0a = true := by decide
  rw [List.dropWhile_cons_of_pos hgap]
  cases hbody : body content with
  | nil => rfl
  | cons x b =>
    have hplain : Base64.IsPlain x := by
      unfold body at hbody
      cases hencode : Base64.encode content with
      | nil =>
        rw [hencode] at hbody
        cases hbody
      | cons y l =>
        have hy : y ∈ Base64.encode content := hencode ▸ List.mem_cons_self
        rw [hencode] at hbody
        cases hbody
        exact Base64.isPlain_of_mem_encode hy
    have hno : isGap x = false := by
      obtain ⟨hlow, _, _⟩ := hplain
      unfold isGap
      simp only [Bool.or_eq_false_iff, beq_eq_false_iff_ne]
      refine ⟨⟨⟨?_, ?_⟩, ?_⟩, ?_⟩ <;> rintro rfl <;> exact absurd hlow (by decide)
    rw [List.cons_append, List.dropWhile_cons_of_neg (by rw [hno]; exact Bool.false_ne_true)]

/-- The parts of a written block are found again. -/
private theorem readFrame?_write {label : String} (hlabel : IsLabel label) (content : Bytes) :
    readFrame? (write label content) =
      some (⟨Utf8.encode label, body content, Utf8.encode label⟩, [0x0a]) := by
  have hname {mark : Bytes} (hmark : mark[0]? = some 0x2d) :
      ∀ x ∈ Utf8.encode label, mark[0]? ≠ some x := by
    intro x hx h
    exact hlabel.plain x hx (Option.some.inj (h.symm.trans hmark))
  have hbody : ∀ x ∈ body content, closing[0]? ≠ some x := by
    intro x hx h
    have hclosing : closing[0]? = some 0x2d := by decide
    cases Option.some.inj (h.symm.trans hclosing)
    rcases isPlain_of_mem_body hx with hplain | hline
    · exact hplain.2.2 rfl
    · exact absurd hline (by decide)
  have hopening : ∀ x ∈ ([] : Bytes), opening[0]? ≠ some x := nofun
  have htext : write label content =
      [] ++ (opening ++ (Utf8.encode label ++ (labelEnd ++ (0x0a :: (body content ++
        (closing ++ (Utf8.encode label ++ (labelEnd ++ [0x0a])))))))) := by
    simp only [write, body, List.append_assoc, List.cons_append, List.nil_append]
  rw [htext, readFrame?, Bytes.cut?_append (by decide) hopening]
  simp only [Option.bind_eq_bind, Option.bind_some]
  rw [Bytes.cut?_append (by decide) (hname (by decide))]
  simp only [Option.bind_some]
  rw [dropWhile_isGap_body, Bytes.cut?_append (by decide) hbody]
  simp only [Option.bind_some]
  rw [Bytes.cut?_append (by decide) (hname (by decide))]
  rfl

/-- A written block is well formed. -/
private theorem block?_frame {label : String} (hlabel : IsLabel label) (content : Bytes) :
    Frame.block? ⟨Utf8.encode label, body content, Utf8.encode label⟩ =
      some ⟨label, [], content⟩ := by
  have hne : (Utf8.encode label).isEmpty = false := by
    rw [List.isEmpty_eq_false_iff]
    intro h
    have hnone : label.toList.map (fun c => UInt8.ofNat c.toNat) = [] := by
      rw [← Utf8.encode_ascii hlabel.ascii, String.ofList_toList, h]
    exact hlabel.nonempty (List.map_eq_nil_iff.mp hnone)
  rw [Frame.block?, Utf8.decode?_encode]
  simp only [Option.bind_eq_bind, Option.bind_some, hne, splitHeaders_body, ne_eq,
    not_true_eq_false, or_false, Bool.false_eq_true, if_false]
  rw [readData?_body]
  rfl

/-- The text of a block is read as that block and no other. -/
theorem blocks?_write {label : String} (hlabel : IsLabel label) (content : Bytes) :
    blocks? (write label content) = some [⟨label, [], content⟩] := by
  have hrest (n : Nat) : frames n [0x0a] = [] := by
    cases n with
    | zero => rfl
    | succ n => rfl
  have hframes : frames (write label content).length (write label content) =
      [⟨Utf8.encode label, body content, Utf8.encode label⟩] := by
    cases hlength : (write label content).length with
    | zero =>
      have hne : write label content ≠ [] := by simp [write]
      exact absurd (List.length_eq_zero_iff.mp hlength) hne
    | succ n =>
      rw [frames, readFrame?_write hlabel]
      dsimp only
      rw [hrest]
  rw [blocks?, hframes]
  dsimp only
  rw [List.mapM_cons, block?_frame hlabel]
  rfl

end Pem

end Encoding

end CertKeeper
