import CertKeeper.Time.Calendar

/-!
# Days and dates

The date with a number of days is one that the calendar has (`Date.isValid_ofDays`), and it has that
number of days (`Date.toDays_ofDays`).
-/

namespace CertKeeper.Time.Date

/-- The day of the year and the month that it is in: the days of the months before it are left
out. -/
theorem ofDayOfYear_spec (lens : List Nat) (month n : Nat) (hn : n < lens.foldl (· + ·) 0) :
    ∃ k, k < lens.length ∧ (ofDayOfYear month n lens).1 = month + k ∧
      (lens.take k).foldl (· + ·) 0 + ((ofDayOfYear month n lens).2 - 1) = n ∧
      1 ≤ (ofDayOfYear month n lens).2 ∧ (ofDayOfYear month n lens).2 ≤ lens.getD k 0 := by
  induction lens generalizing month n with
  | nil => exact absurd hn (Nat.not_lt_zero _)
  | cons len rest ih =>
    have hfold (l : List Nat) (a : Nat) : l.foldl (· + ·) a = a + l.foldl (· + ·) 0 := by
      induction l generalizing a with
      | nil => rfl
      | cons x l ihl =>
        rw [List.foldl_cons, List.foldl_cons, ihl, ihl (0 + x)]
        omega
    rw [List.foldl_cons, hfold] at hn
    by_cases hlt : n < len
    · refine ⟨0, Nat.succ_pos _, ?_⟩
      rw [ofDayOfYear, if_pos hlt]
      simp
      omega
    · obtain ⟨k, hk, hmonth, hsum, hpos, hle⟩ := ih (month + 1) (n - len) (by omega)
      refine ⟨k + 1, Nat.succ_lt_succ hk, ?_⟩
      rw [ofDayOfYear, if_neg hlt]
      refine ⟨by omega, ?_, hpos, ?_⟩
      · rw [List.take_succ_cons, List.foldl_cons, hfold]
        omega
      · rw [List.getD_cons_succ]
        exact hle

/-- The days of the months of a year. -/
theorem foldl_monthLengths (y : Nat) :
    (monthLengths y).foldl (· + ·) 0 = if isLeapYear y then 366 else 365 := by
  unfold monthLengths
  cases isLeapYear y <;> rfl

/-- No month has more than 31 days. -/
theorem monthLength_le (y m : Nat) : monthLength y m ≤ 31 := by
  cases m with
  | zero => exact Nat.zero_le _
  | succ k =>
    have hall : ∀ l ∈ monthLengths y, l ≤ 31 := by
      unfold monthLengths
      cases isLeapYear y <;> decide
    rw [monthLength, List.getD_eq_getElem?_getD]
    cases hk : (monthLengths y)[k]? with
    | none => exact Nat.zero_le _
    | some l => exact hall l (List.mem_of_getElem? hk)

/-- The days before a year, by the cycles that the year is counted in. -/
private theorem daysBeforeYear_cycles {n400 n100 n4 n1 : Nat} (h100 : n100 ≤ 3) (h4 : n4 ≤ 24)
    (h1 : n1 ≤ 3) :
    daysBeforeYear (n400 * 400 + n100 * 100 + n4 * 4 + n1 + 1) =
      n400 * 146097 + n100 * 36524 + n4 * 1461 + n1 * 365 := by
  have hby4 : (n400 * 400 + n100 * 100 + n4 * 4 + n1) / 4 = n400 * 100 + n100 * 25 + n4 := by
    omega
  have hby100 : (n400 * 400 + n100 * 100 + n4 * 4 + n1) / 100 = n400 * 4 + n100 := by omega
  have hby400 : (n400 * 400 + n100 * 100 + n4 * 4 + n1) / 400 = n400 := by omega
  rw [daysBeforeYear, Nat.add_sub_cancel, hby4, hby100, hby400]
  omega

/-- The last year of a cycle of four is longer, except at the end of a century that is not the last
of four. -/
private theorem isLeapYear_cycles {n400 n100 n4 : Nat} (h4 : n4 ≤ 24) (h : n4 = 24 → n100 = 3) :
    isLeapYear (n400 * 400 + n100 * 100 + n4 * 4 + 3 + 1) = true := by
  unfold isLeapYear
  have hby4 : (n400 * 400 + n100 * 100 + n4 * 4 + 3 + 1) % 4 = 0 := by omega
  rw [hby4]
  by_cases hlast : n4 = 24
  · have hby400 : (n400 * 400 + n100 * 100 + n4 * 4 + 3 + 1) % 400 = 0 := by
      have := h hlast
      omega
    rw [hby400]
    simp
  · have hby100 : (n400 * 400 + n100 * 100 + n4 * 4 + 3 + 1) % 100 ≠ 0 := by omega
    simp [hby100]

/-- The days that are left of a cycle of four years after its whole years come before the end of the
year that follows them. -/
private theorem rest_lt_of_cycles {n400 n100 n4 n1 r4 : Nat} (h4 : n4 ≤ 24) (hr4 : r4 < 1461)
    (hn1 : n1 = min (r4 / 365) 3) (hcentury : n4 = 24 → n100 = 3 ∨ r4 < 1460) :
    r4 - n1 * 365 <
      if isLeapYear (n400 * 400 + n100 * 100 + n4 * 4 + n1 + 1) then 366 else 365 := by
  by_cases hlast : n1 = 3
  · by_cases hshort : n4 = 24 ∧ n100 ≠ 3
    · split <;> omega
    · rw [hlast, isLeapYear_cycles h4 (by omega), if_pos rfl]
      omega
  · split <;> omega

/-- The year of a day, and how many of its days have passed. -/
theorem exists_dayOfYear (n : Nat) :
    ∃ year rest, 1 ≤ year ∧ daysBeforeYear year + rest = n ∧
      rest < (if isLeapYear year then 366 else 365) ∧
      ofDays n = ⟨year, (ofDayOfYear 1 rest (monthLengths year)).1,
        (ofDayOfYear 1 rest (monthLengths year)).2⟩ := by
  -- The counts of the cycles, each with its bound; the last cycle of a kind is the longer one.
  obtain ⟨n400, hn400⟩ : ∃ k, k = n / 146097 := ⟨_, rfl⟩
  obtain ⟨r400, hr400⟩ : ∃ k, k = n % 146097 := ⟨_, rfl⟩
  obtain ⟨n100, hn100⟩ : ∃ k, k = min (r400 / 36524) 3 := ⟨_, rfl⟩
  obtain ⟨r100, hr100⟩ : ∃ k, k = r400 - n100 * 36524 := ⟨_, rfl⟩
  obtain ⟨n4, hn4⟩ : ∃ k, k = r100 / 1461 := ⟨_, rfl⟩
  obtain ⟨r4, hr4⟩ : ∃ k, k = r100 % 1461 := ⟨_, rfl⟩
  obtain ⟨n1, hn1⟩ : ∃ k, k = min (r4 / 365) 3 := ⟨_, rfl⟩
  have hn : n = n400 * 146097 + r400 := by omega
  have h100 : n100 ≤ 3 ∧ r400 = n100 * 36524 + r100 ∧ (n100 = 3 ∨ r100 < 36524) ∧ r100 < 36525 := by
    omega
  have h4 : n4 ≤ 24 ∧ r100 = n4 * 1461 + r4 ∧ r4 < 1461 := by omega
  have h1 : n1 ≤ 3 ∧ n1 * 365 ≤ r4 := by omega
  refine ⟨n400 * 400 + n100 * 100 + n4 * 4 + n1 + 1, r4 - n1 * 365, Nat.succ_pos _, ?_,
    rest_lt_of_cycles h4.1 h4.2.2 hn1 (by omega), ?_⟩
  · rw [daysBeforeYear_cycles h100.1 h4.1 h1.1]
    omega
  · subst hn1 hr4 hn4 hr100 hn100 hr400 hn400
    rfl

/-- The calendar has the date with a number of days. -/
theorem isValid_ofDays (n : Nat) : (ofDays n).isValid := by
  obtain ⟨year, rest, _, _, hrest, hdate⟩ := exists_dayOfYear n
  obtain ⟨k, hk, hmonth, _, hpos, hle⟩ :=
    ofDayOfYear_spec (monthLengths year) 1 rest (by rw [foldl_monthLengths]; exact hrest)
  have hlength : (monthLengths year).length = 12 := rfl
  rw [hdate, isValid]
  dsimp only
  rw [hmonth, Nat.add_comm 1 k, monthLength]
  simp only [Bool.and_eq_true, decide_eq_true_eq]
  omega

/-- The date with a number of days has that number of days. -/
theorem toDays_ofDays (n : Nat) : (ofDays n).toDays = n := by
  obtain ⟨year, rest, _, hn, hrest, hdate⟩ := exists_dayOfYear n
  obtain ⟨k, hk, hmonth, hsum, hpos, hle⟩ :=
    ofDayOfYear_spec (monthLengths year) 1 rest (by rw [foldl_monthLengths]; exact hrest)
  rw [hdate, toDays]
  dsimp only
  rw [hmonth, Nat.add_sub_cancel_left]
  omega

/-- The days before a year and those of the year come before the next one. -/
theorem daysBeforeYear_succ {y : Nat} (hy : 1 ≤ y) :
    daysBeforeYear (y + 1) = daysBeforeYear y + if isLeapYear y then 366 else 365 := by
  obtain ⟨z, rfl⟩ := Nat.exists_eq_add_of_le' hy
  have hby4 : (z + 1) / 4 = z / 4 + if (z + 1) % 4 = 0 then 1 else 0 := by split <;> omega
  have hby100 : (z + 1) / 100 = z / 100 + if (z + 1) % 100 = 0 then 1 else 0 := by split <;> omega
  have hby400 : (z + 1) / 400 = z / 400 + if (z + 1) % 400 = 0 then 1 else 0 := by split <;> omega
  have hleap : isLeapYear (z + 1) =
      decide ((z + 1) % 4 = 0 ∧ ((z + 1) % 100 ≠ 0 ∨ (z + 1) % 400 = 0)) := by
    rw [Bool.eq_iff_iff]
    simp [isLeapYear]
  have hle : z / 100 ≤ z := Nat.div_le_self z 100
  unfold daysBeforeYear
  rw [Nat.add_sub_cancel, Nat.add_sub_cancel, hby4, hby100, hby400, hleap]
  by_cases h4 : (z + 1) % 4 = 0
  · by_cases h100 : (z + 1) % 100 = 0
    · by_cases h400 : (z + 1) % 400 = 0
      · simp only [h4, h100, h400, if_true, or_true, and_true, decide_true]
        omega
      · simp only [h4, h100, h400, if_true, if_false, ne_eq, not_true_eq_false, or_false,
          and_false, decide_false, Bool.false_eq_true]
        omega
    · have h400 : ¬ (z + 1) % 400 = 0 := by omega
      simp only [h4, h100, h400, if_true, if_false, ne_eq, not_false_eq_true, true_or, and_true,
        decide_true]
      omega
  · have h100 : ¬ (z + 1) % 100 = 0 := by omega
    have h400 : ¬ (z + 1) % 400 = 0 := by omega
    simp only [h4, h100, h400, if_false, false_and, decide_false, Bool.false_eq_true]
    omega

/-- Fewer days come before an earlier year. -/
theorem daysBeforeYear_le {a b : Nat} (h : a ≤ b) : daysBeforeYear a ≤ daysBeforeYear b := by
  induction h with
  | refl => exact Nat.le_refl _
  | @step b _ ih =>
    cases b with
    | zero => exact ih
    | succ b =>
      have hnext := daysBeforeYear_succ (Nat.succ_pos b)
      rw [Nat.succ_eq_add_one] at hnext ⊢
      omega

/-- The year of a day is no earlier than another one if and only if the other one starts no later
than the day. -/
theorem le_year_ofDays_iff {n year : Nat} :
    year ≤ (ofDays n).year ↔ daysBeforeYear year ≤ n := by
  obtain ⟨y, rest, hy, hn, hrest, hdate⟩ := exists_dayOfYear n
  have hnext := daysBeforeYear_succ hy
  rw [hdate]
  dsimp only
  constructor
  · intro h
    have := daysBeforeYear_le h
    omega
  · intro h
    refine Nat.le_of_not_lt fun hlt => ?_
    have := daysBeforeYear_le (show y + 1 ≤ year from hlt)
    omega

end CertKeeper.Time.Date
