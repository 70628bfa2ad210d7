import SharamLedger.Schema.Tenant
import SharamLedger.Lib.Numeral

/-!
# What the schema's patterns match

The patterns of the period and date assertions as texts put together from rows of digits: four
digits for the year, and two digits with a range for a week, a month or a day.
-/

namespace SharamLedger

open Lib Lib.Decimal Lib.Text

/-- `[0-9]{n}`. -/
def Digits (n : Nat) (l : List Char) : Prop := l.length = n ∧ ∀ c ∈ l, c.isDigit = true

theorem Digits.isDigits {n : Nat} {l : List Char} (h : Digits n l) (hn : 0 < n) : IsDigits l :=
  ⟨List.length_pos_iff.mp (h.1 ▸ hn), h.2⟩

/-- Digits in the number the pattern asks for are a padded numeral. -/
theorem Digits.padded_value {n : Nat} {l : List Char} (h : Digits n l) (hn : 0 < n) :
    padded n (value l) = l := by
  rw [← h.1]
  exact Text.padded_value (h.isDigits hn)

theorem Digits.value_lt {n : Nat} {l : List Char} (h : Digits n l) : value l < 10 ^ n := by
  rw [← h.1]
  exact Text.value_lt h.2

theorem digits_padded {n m : Nat} (hn : 0 < n) (h : m < 10 ^ n) : Digits n (padded n m) :=
  ⟨length_padded hn h, (isDigits_padded n m).2⟩

/-- Digits take one byte each. -/
theorem Digits.ascii {n : Nat} {l : List Char} (h : Digits n l) : ∀ c ∈ l, c.utf8Size = 1 :=
  fun c hc => utf8Size_of_isDigit (h.2 c hc)

/-- A dash is no digit. -/
theorem Digits.no_dash {n : Nat} {l : List Char} (h : Digits n l) : '-' ∉ l :=
  fun hmem => absurd (h.2 '-' hmem) (by decide)

/-- Rows of as many digits compare as their values. -/
theorem Digits.lt_iff {n : Nat} {l l' : List Char} (h : Digits n l) (h' : Digits n l')
    (hn : 0 < n) : l < l' ↔ value l < value l' := by
  have hlt := padded_lt_iff hn h.value_lt h'.value_lt
  rwa [h.padded_value hn, h'.padded_value hn] at hlt

theorem Digits.eq_iff {n : Nat} {l l' : List Char} (h : Digits n l) (h' : Digits n l')
    (hn : 0 < n) : l = l' ↔ value l = value l' := by
  refine ⟨congrArg value, fun hvalue => ?_⟩
  rw [← h.padded_value hn, hvalue, h'.padded_value hn]

theorem fourDigits_iff {rest : List Char → Bool} {l : List Char} :
    fourDigits rest l = true ↔ ∃ y tail, l = y ++ tail ∧ Digits 4 y ∧ rest tail = true := by
  constructor
  · intro h
    unfold fourDigits at h
    split at h
    · next a b c d tail =>
        simp only [Bool.and_eq_true] at h
        obtain ⟨⟨⟨⟨ha, hb⟩, hc⟩, hd⟩, htail⟩ := h
        exact ⟨[a, b, c, d], tail, rfl, ⟨rfl, by simp [ha, hb, hc, hd]⟩, htail⟩
    · cases h
  · rintro ⟨y, tail, rfl, ⟨hlen, hdigits⟩, htail⟩
    match y, hlen, hdigits with
    | [a, b, c, d], _, hdigits =>
        simp only [List.forall_mem_cons] at hdigits
        obtain ⟨ha, hb, hc, hd, -⟩ := hdigits
        simp [fourDigits, ha, hb, hc, hd, htail]

/-! ## Two digits in a range -/

theorem weekPattern_digits {l : List Char} (h : weekPattern l = true) : Digits 2 l := by
  unfold weekPattern at h
  split at h
  · simp only [Bool.and_eq_true] at h
    exact ⟨rfl, by simpa using h.1⟩
  · simp only [Bool.and_eq_true] at h
    exact ⟨rfl, by simpa using h.1⟩
  · simp only [Bool.and_eq_true, Bool.or_eq_true, beq_iff_eq] at h
    obtain ⟨((rfl | rfl) | rfl) | rfl, hd⟩ := h <;> exact ⟨rfl, by simpa using hd⟩
  · cases h

theorem monthPattern_digits {l : List Char} (h : monthPattern l = true) : Digits 2 l := by
  unfold monthPattern at h
  split at h
  · simp only [Bool.and_eq_true] at h
    exact ⟨rfl, by simpa using h.1⟩
  · simp only [Bool.or_eq_true, beq_iff_eq] at h
    rcases h with (rfl | rfl) | rfl <;> exact ⟨rfl, by simp⟩
  · cases h

theorem dayPattern_digits {l : List Char} (h : dayPattern l = true) : Digits 2 l := by
  unfold dayPattern at h
  split at h
  · simp only [Bool.and_eq_true] at h
    exact ⟨rfl, by simpa using h.1⟩
  · simp only [Bool.or_eq_true, beq_iff_eq] at h
    rcases h with rfl | rfl <;> exact ⟨rfl, by simp⟩
  · simp only [Bool.and_eq_true, Bool.or_eq_true, beq_iff_eq] at h
    obtain ⟨rfl | rfl, hd⟩ := h <;> exact ⟨rfl, by simpa using hd⟩
  · cases h

/-- A pattern for two digits that picks the numerals up to `last` matches just these. -/
theorem pattern_iff {pattern : List Char → Bool} {last : Nat} {l : List Char}
    (hdigits : pattern l = true → Digits 2 l)
    (hrange : ∀ n < 100, pattern (padded 2 n) = decide (1 ≤ n ∧ n ≤ last)) :
    pattern l = true ↔ Digits 2 l ∧ 1 ≤ value l ∧ value l ≤ last := by
  have hread : Digits 2 l → (pattern l = true ↔ 1 ≤ value l ∧ value l ≤ last) := fun h => by
    rw [← h.padded_value (by omega), hrange _ h.value_lt, value_padded, decide_eq_true_eq]
  constructor
  · intro h
    exact ⟨hdigits h, (hread (hdigits h)).mp h⟩
  · rintro ⟨h, hvalue⟩
    exact (hread h).mpr hvalue

theorem weekPattern_iff {l : List Char} :
    weekPattern l = true ↔ Digits 2 l ∧ 1 ≤ value l ∧ value l ≤ 53 :=
  pattern_iff weekPattern_digits (by decide +kernel)

theorem monthPattern_iff {l : List Char} :
    monthPattern l = true ↔ Digits 2 l ∧ 1 ≤ value l ∧ value l ≤ 12 :=
  pattern_iff monthPattern_digits (by decide +kernel)

theorem dayPattern_iff {l : List Char} :
    dayPattern l = true ↔ Digits 2 l ∧ 1 ≤ value l ∧ value l ≤ 31 :=
  pattern_iff dayPattern_digits (by decide +kernel)

/-! ## Periods and dates -/

theorem isWeeklyText_iff {s : String} : isWeeklyText s = true ↔
    ∃ y w, s.toList = y ++ '-' :: 'W' :: w ∧ Digits 4 y ∧ Digits 2 w ∧ 1 ≤ value w ∧
      value w ≤ 53 := by
  unfold isWeeklyText
  rw [fourDigits_iff]
  constructor
  · rintro ⟨y, tail, hs, hy, htail⟩
    split at htail
    · next w => exact ⟨y, w, hs, hy, weekPattern_iff.mp htail⟩
    · cases htail
  · rintro ⟨y, w, hs, hy, hw⟩
    exact ⟨y, _, hs, hy, weekPattern_iff.mpr hw⟩

theorem isMonthlyText_iff {s : String} : isMonthlyText s = true ↔
    ∃ y m, s.toList = y ++ '-' :: m ∧ Digits 4 y ∧ Digits 2 m ∧ 1 ≤ value m ∧
      value m ≤ 12 := by
  unfold isMonthlyText
  rw [fourDigits_iff]
  constructor
  · rintro ⟨y, tail, hs, hy, htail⟩
    split at htail
    · next m => exact ⟨y, m, hs, hy, monthPattern_iff.mp htail⟩
    · cases htail
  · rintro ⟨y, m, hs, hy, hm⟩
    exact ⟨y, _, hs, hy, monthPattern_iff.mpr hm⟩

theorem isYearlyText_iff {s : String} : isYearlyText s = true ↔ Digits 4 s.toList := by
  unfold isYearlyText
  rw [fourDigits_iff]
  constructor
  · rintro ⟨y, tail, hs, hy, htail⟩
    rw [hs, List.isEmpty_iff.mp htail, List.append_nil]
    exact hy
  · intro hy
    exact ⟨s.toList, [], (List.append_nil _).symm, hy, rfl⟩

theorem isPeriodText_iff {s : String} : isPeriodText s = true ↔
    isWeeklyText s = true ∨ isMonthlyText s = true ∨ isYearlyText s = true := by
  rw [isPeriodText, Bool.or_eq_true, Bool.or_eq_true, or_assoc]

/-- The text of a period holds digits, dashes and the letter of a week. -/
theorem isPeriodText_chars {s : String} (h : isPeriodText s = true) :
    ∀ c ∈ s.toList, c.isDigit = true ∨ c = '-' ∨ c = 'W' := by
  intro c hc
  rcases isPeriodText_iff.mp h with h | h | h
  · obtain ⟨y, w, hs, hy, hw, -⟩ := isWeeklyText_iff.mp h
    rw [hs, List.mem_append, List.mem_cons, List.mem_cons] at hc
    rcases hc with hc | rfl | rfl | hc
    · exact .inl (hy.2 c hc)
    · exact .inr (.inl rfl)
    · exact .inr (.inr rfl)
    · exact .inl (hw.2 c hc)
  · obtain ⟨y, m, hs, hy, hm, -⟩ := isMonthlyText_iff.mp h
    rw [hs, List.mem_append, List.mem_cons] at hc
    rcases hc with hc | rfl | hc
    · exact .inl (hy.2 c hc)
    · exact .inr (.inl rfl)
    · exact .inl (hm.2 c hc)
  · exact .inl ((isYearlyText_iff.mp h).2 c hc)

/-- A date is a year, a month and a day of two digits each, whatever the month has. -/
theorem isDateText_iff {s : String} : isDateText s = true ↔
    ∃ y m d, s.toList = y ++ '-' :: (m ++ '-' :: d) ∧ Digits 4 y ∧
      (Digits 2 m ∧ 1 ≤ value m ∧ value m ≤ 12) ∧ Digits 2 d ∧ 1 ≤ value d ∧ value d ≤ 31 := by
  unfold isDateText
  rw [fourDigits_iff]
  constructor
  · rintro ⟨y, tail, hs, hy, htail⟩
    split at htail
    · next a b c d =>
        rw [Bool.and_eq_true, monthPattern_iff, dayPattern_iff] at htail
        exact ⟨y, [a, b], [c, d], hs, hy, htail⟩
    · cases htail
  · rintro ⟨y, m, d, hs, hy, hm, hd⟩
    refine ⟨y, _, hs, hy, ?_⟩
    have hmpattern := monthPattern_iff.mpr hm
    have hdpattern := dayPattern_iff.mpr hd
    match m, d, hm.1.1, hd.1.1 with
    | [a, b], [c, e], _, _ =>
        show (monthPattern [a, b] && dayPattern [c, e]) = true
        rw [hmpattern, hdpattern]
        rfl

end SharamLedger
