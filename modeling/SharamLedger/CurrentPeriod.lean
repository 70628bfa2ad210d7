import SharamLedger.Lib.Numeral
import SharamLedger.Schema.Contribution

/-!
# The current period as text

The database prints the current UTC period of a cadence, the gateway the one on the tenant's
wall clock. Both print a day's period with a four-digit year as long as the year has four
digits, so their texts compare like the days do. From the year 10000 on the database puts a sign
in front, and its texts compare below all others.
-/

namespace SharamLedger

open Lib Lib.Decimal

/-- The periods of the day, in every cadence, have years of at most four digits. -/
def FourDigitDay (day : Int) : Prop := 366 ≤ day ∧ day < Calendar.yearStart 10000

theorem utcDay_ge (now : DateTime) : 719528 ≤ utcDay now := by
  unfold utcDay timestamp Calendar.unixEpoch
  omega

theorem utcDay_mono {now now' : DateTime} (h : now ≤ now') : utcDay now ≤ utcDay now' := by
  have := Nat.div_le_div_right (c := 1000000000) h
  unfold utcDay timestamp
  omega

/-- A zone is less than a day away from UTC. -/
theorem localDay_bounds (tz : Tz) (now : DateTime) :
    utcDay now - 1 ≤ localDay tz now ∧ localDay tz now ≤ utcDay now + 1 := by
  have := tz.bounded now
  unfold utcDay localDay
  omega

theorem localDay_ge (tz : Tz) (now : DateTime) : 366 ≤ localDay tz now := by
  have hutc := utcDay_ge now
  have hlocal := localDay_bounds tz now
  omega

@[simp] theorem cadenceOrMonthly_asStr (c : Cadence) : cadenceOrMonthly c.asStr = c := by
  cases c <;> rfl

namespace Period

/-- Days before the year 10000 fall in periods that print with four digits. -/
theorem printable_ofDay (c : Cadence) {day : Int} (h : FourDigitDay day) :
    (ofDay c day).Printable := by
  obtain ⟨h0, h1⟩ := h
  have hfirst : Calendar.yearOf 366 = 1 := by decide
  have hlimit : Calendar.yearOf (Calendar.yearStart 10000) = 10000 := by decide
  have hyear : ∀ d, 366 ≤ d → d < Calendar.yearStart 10000 →
      0 ≤ Calendar.yearOf d ∧ Calendar.yearOf d ≤ 9999 := by
    intro d hd hd'
    have hle := Calendar.yearOf_mono hd
    have hlt := (Calendar.yearOf_lt_iff (a := d) (b := Calendar.yearStart 10000)).mpr
      (by rw [hlimit]; exact hd')
    omega
  have hthu : 366 ≤ Calendar.thursday day ∧ Calendar.thursday day < Calendar.yearStart 10000 := by
    have hstart : Calendar.yearStart 10000 = 3652425 := by decide
    unfold Calendar.thursday Calendar.weekStart
    omega
  refine ⟨?_, ?_, sub_lt c day⟩ <;> cases c <;> simp only [ofDay, year, Calendar.isoYear]
  · exact (hyear _ hthu.1 hthu.2).1
  · exact (hyear _ h0 h1).1
  · exact (hyear _ h0 h1).1
  · exact (hyear _ hthu.1 hthu.2).2
  · exact (hyear _ h0 h1).2
  · exact (hyear _ h0 h1).2

/-- Up to the year 9999 the database prints a period as the gateway does. -/
theorem timeFormat_eq_render {p : Period} (h : p.Printable) : timeFormat p = p.render := by
  obtain ⟨h0, h1, -⟩ := h
  unfold timeFormat render formatYear paddedInt
  rw [if_pos ⟨h0, h1⟩, if_neg (by omega)]

end Period

/-- The database's current period, up to the year 9999. -/
theorem currentPeriodFor_eq {now : DateTime} (h : utcDay now < Calendar.yearStart 10000)
    (cadence : String) :
    currentPeriodFor now cadence =
      (Period.ofDay (cadenceOrMonthly cadence) (utcDay now)).render := by
  have := utcDay_ge now
  exact Period.timeFormat_eq_render (Period.printable_ofDay _ ⟨by omega, h⟩)

/-- Up to the year 9999 the database's current period never goes back. -/
theorem currentPeriodFor_mono {now now' : DateTime} (h : now ≤ now')
    (hyear : utcDay now' < Calendar.yearStart 10000) (cadence : String) :
    currentPeriodFor now cadence ≤ currentPeriodFor now' cadence := by
  have hday := utcDay_mono h
  have hge := utcDay_ge now
  have hyear₀ : utcDay now < Calendar.yearStart 10000 := by omega
  rw [← String.not_lt, currentPeriodFor_eq hyear, currentPeriodFor_eq hyear₀,
    Period.render_lt_iff (by simp) (Period.printable_ofDay _ ⟨by omega, hyear⟩)
      (Period.printable_ofDay _ ⟨by omega, by omega⟩)]
  exact not_lt.mpr (Period.ord_mono _ hday)

/-- A locked row stays locked while the clock goes on, up to the year 9999. -/
theorem Contribution.Past.mono {now now' : DateTime} {c : Contribution} (h : c.Past now)
    (hnow : now ≤ now') (hyear : utcDay now' < Calendar.yearStart 10000) : c.Past now' := by
  have hle := currentPeriodFor_mono hnow hyear c.cadence
  by_contra hnot
  exact String.not_le.mpr h (String.le_trans hle (String.not_lt.mp hnot))

/-! ## Which periods the schema accepts -/

theorem fourDigits_padded {n : Nat} (h : n < 10 ^ 4) (rest : List Char → Bool) (l : List Char) :
    fourDigits rest (padded 4 n ++ l) = rest l := by
  have hlen := length_padded (by omega) h
  have hdigits : ∀ c ∈ padded 4 n, c.isDigit = true := fun c hc => isDigit_of_mem_padded hc
  match hl : padded 4 n, hlen, hdigits with
  | [a, b, c, d], _, hdigits =>
      simp only [List.mem_cons, List.not_mem_nil, or_false, forall_eq_or_imp, forall_eq] at hdigits
      simp [fourDigits, hdigits]

/-- A fifth digit stands where the patterns want a dash or the end. -/
theorem fourDigits_of_large {n : Nat} (h : 10 ^ 4 ≤ n) {rest : List Char → Bool}
    (hrest : ∀ c l, c.isDigit = true → rest (c :: l) = false) (l : List Char) :
    fourDigits rest (padded 4 n ++ l) = false := by
  have hlen := lt_length_padded (by omega) h
  have hdigits : ∀ c ∈ padded 4 n, c.isDigit = true := fun c hc => isDigit_of_mem_padded hc
  match hl : padded 4 n, hlen, hdigits with
  | a :: b :: c :: d :: e :: tail, _, hdigits =>
      simp [fourDigits, hrest e (tail ++ l) (hdigits e (by simp))]

theorem weekPattern_padded {w : Nat} (h1 : 1 ≤ w) (h53 : w ≤ 53) :
    weekPattern (padded 2 w) = true := by
  interval_cases w <;> decide

theorem monthPattern_padded {m : Nat} (h1 : 1 ≤ m) (h12 : m ≤ 12) :
    monthPattern (padded 2 m) = true := by
  interval_cases m <;> decide

namespace Period

/-- From the year 1 on, a day's period has a text without a sign. -/
theorem year_nonneg (c : Cadence) {day : Int} (h : 366 ≤ day) : 0 ≤ (ofDay c day).year := by
  have hfirst : Calendar.yearOf 366 = 1 := by decide
  have hyear : ∀ d, 366 ≤ d → 0 ≤ Calendar.yearOf d := by
    intro d hd
    have := Calendar.yearOf_mono hd
    omega
  cases c with
  | weekly =>
      refine hyear _ ?_
      unfold Calendar.thursday Calendar.weekStart
      omega
  | monthly | yearly => exact hyear day h

theorem toList_render {p : Period} (h : 0 ≤ p.year) :
    p.render.toList = padded 4 p.year.toNat ++ p.tailChars := by
  obtain ⟨y, hy⟩ := Int.eq_ofNat_of_zero_le h
  rw [render, String.toList_ofList, hy, paddedInt_natCast, Int.toNat_natCast]

/-- The schema's `ASSERT` accepts the text of a day's period up to the year 9999. -/
theorem isPeriodText_render (c : Cadence) {day : Int} (h : 366 ≤ day) :
    isPeriodText (ofDay c day).render = true ↔ (ofDay c day).year ≤ 9999 := by
  have hyear := year_nonneg c h
  unfold isPeriodText isWeeklyText isMonthlyText isYearlyText
  rw [toList_render hyear]
  by_cases hfits : (ofDay c day).year ≤ 9999
  · have hn : (ofDay c day).year.toNat < 10 ^ 4 := by omega
    simp only [fourDigits_padded hn, hfits, iff_true]
    cases c with
    | weekly =>
        have hweek := Calendar.isoWeek_bounds day
        have htail : (ofDay .weekly day).tailChars =
            '-' :: 'W' :: padded 2 (Calendar.isoWeek day).toNat := by
          simp only [ofDay, tailChars, paddedInt_natCast]
        have hn : (Calendar.isoWeek day).toNat ≤ 53 := by omega
        simp [htail, weekPattern_padded (by omega) hn]
    | monthly =>
        have hmonth := Calendar.monthOf_bounds day
        have htail : (ofDay .monthly day).tailChars =
            '-' :: padded 2 (Calendar.monthOf day).toNat := by
          simp only [ofDay, tailChars, paddedInt_natCast]
        have hn : (Calendar.monthOf day).toNat ≤ 12 := by omega
        simp [htail, monthPattern_padded (by omega) hn]
    | yearly => simp [ofDay, tailChars]
  · have hn : 10 ^ 4 ≤ (ofDay c day).year.toNat := by omega
    have hdash : ∀ d : Char, d.isDigit = true → d ≠ '-' := by
      rintro d hd rfl
      cases hd
    simp only [hfits, iff_false, Bool.not_eq_true]
    rw [fourDigits_of_large hn, fourDigits_of_large hn, fourDigits_of_large hn]
    · rfl
    · intro d l _
      rfl
    · intro d l hd
      split
      · next heq => exact absurd (List.cons.inj heq).1 (hdash d hd)
      · rfl
    · intro d l hd
      split
      · next heq => exact absurd (List.cons.inj heq).1 (hdash d hd)
      · rfl

/-- The text of a period without a sign starts with a digit. -/
theorem render_head {p : Period} (h : 0 ≤ p.year) :
    ∃ d l, p.render.toList = d :: l ∧ d.isDigit = true := by
  rw [toList_render h]
  cases hl : padded 4 p.year.toNat with
  | nil =>
      have hpos : 0 < (padded 4 p.year.toNat).length := by
        rcases Nat.lt_or_ge p.year.toNat (10 ^ 4) with hn | hn
        · rw [length_padded (by omega) hn]
          omega
        · have := lt_length_padded (by omega) hn
          omega
      simp [hl] at hpos
  | cons d l => exact ⟨d, l ++ p.tailChars, rfl, isDigit_of_mem_padded (by rw [hl]; simp)⟩

/-- The year is the digits that a text starts with. -/
theorem takeWhile_render (p : Period) :
    (padded 4 p.year.toNat ++ p.tailChars).takeWhile Char.isDigit = padded 4 p.year.toNat := by
  have htail : p.tailChars.takeWhile Char.isDigit = [] := by cases p <;> rfl
  rw [List.takeWhile_append_of_pos fun c hc => isDigit_of_mem_padded hc, htail, List.append_nil]

/-- Behind the year stand the cadence and the position in the year. -/
theorem tailChars_inj {p q : Period} (h : p.tailChars = q.tailChars) :
    p.cadence = q.cadence ∧ p.sub = q.sub := by
  have hnumber : ∀ {m n : Nat}, paddedInt 2 (m : Int) = paddedInt 2 (n : Int) → m = n := by
    intro m n hmn
    rw [paddedInt_natCast, paddedInt_natCast] at hmn
    rw [← Text.value_padded 2 m, hmn, Text.value_padded]
  have hletter : ∀ {l : List Char} {n : Nat}, 'W' :: l ≠ paddedInt 2 (n : Int) := by
    intro l n hln
    rw [paddedInt_natCast] at hln
    exact absurd (isDigit_of_mem_padded (hln ▸ List.mem_cons_self)) (by decide)
  cases p with
  | weekly y w =>
      cases q with
      | weekly z v => exact ⟨rfl, hnumber (List.cons.inj (List.cons.inj h).2).2⟩
      | monthly z m => exact absurd (List.cons.inj h).2 hletter
      | yearly z => cases h
  | monthly y m =>
      cases q with
      | weekly z v => exact absurd (List.cons.inj h).2.symm hletter
      | monthly z n => exact ⟨rfl, hnumber (List.cons.inj h).2⟩
      | yearly z => cases h
  | yearly y =>
      cases q with
      | weekly z v => cases h
      | monthly z m => cases h
      | yearly z => exact ⟨rfl, rfl⟩

/-- Different periods are written differently, as long as one of them has no sign. -/
theorem eq_of_render_eq {p q : Period} (hq : 0 ≤ q.year) (h : p.render = q.render) : p = q := by
  have hp : 0 ≤ p.year := by
    by_contra hneg
    obtain ⟨d, l, hl, hd⟩ := render_head hq
    rw [← h, render, String.toList_ofList, paddedInt, if_pos (by omega)] at hl
    obtain ⟨rfl, -⟩ := List.cons.inj hl
    exact absurd hd (by decide)
  have htext : padded 4 p.year.toNat ++ p.tailChars = padded 4 q.year.toNat ++ q.tailChars := by
    rw [← toList_render hp, ← toList_render hq, h]
  have hyears : padded 4 p.year.toNat = padded 4 q.year.toNat := by
    rw [← takeWhile_render p, htext, takeWhile_render]
  have hyear : p.year.toNat = q.year.toNat := by
    rw [← Text.value_padded 4 p.year.toNat, hyears, Text.value_padded]
  rw [hyears] at htext
  obtain ⟨hc, hsub⟩ := tailChars_inj (List.append_cancel_left htext)
  cases p <;> cases q <;> simp only [cadence, reduceCtorEq] at hc <;>
    simp only [year, sub, weekly.injEq, monthly.injEq, yearly.injEq] at * <;> omega

/-- A day's period has digits, dashes and a capital W in its text. -/
theorem isLower_render (c : Cadence) {day : Int} (h : 366 ≤ day) :
    ∀ d ∈ (ofDay c day).render.toList, d.isLower = false := by
  have hpadded : ∀ w n, ∀ d ∈ padded w n, d.isLower = false :=
    fun _ _ _ hd => Ascii.isLower_of_isDigit (isDigit_of_mem_padded hd)
  intro d hd
  rw [toList_render (year_nonneg c h), List.mem_append] at hd
  rcases hd with hd | hd
  · exact hpadded _ _ d hd
  · cases c with
    | weekly =>
        simp only [ofDay, tailChars, paddedInt_natCast, List.mem_cons] at hd
        rcases hd with rfl | rfl | hd
        · rfl
        · rfl
        · exact hpadded _ _ d hd
    | monthly =>
        simp only [ofDay, tailChars, paddedInt_natCast, List.mem_cons] at hd
        rcases hd with rfl | hd
        · rfl
        · exact hpadded _ _ d hd
    | yearly => simp [ofDay, tailChars] at hd

/-- The day after lies at most one year on. -/
theorem year_le_succ (c : Cadence) {a b : Int} (h : a ≤ b + 1) :
    (ofDay c a).year ≤ (ofDay c b).year + 1 := by
  cases c with
  | weekly =>
      refine Calendar.yearOf_le_succ ?_
      unfold Calendar.thursday Calendar.weekStart
      omega
  | monthly | yearly => exact Calendar.yearOf_le_succ (by omega)

/-- A day's period has a printable text as long as its year has four digits. -/
theorem printable_of_year (c : Cadence) {day : Int} (h : 366 ≤ day)
    (hyear : (ofDay c day).year ≤ 9999) : (ofDay c day).Printable :=
  ⟨year_nonneg c h, hyear, sub_lt c day⟩

end Period

/-! ## The two current periods -/

/-- A text that starts with a digit does not come before one that starts with a plus sign. -/
theorem not_lt_plus {s : String} {d : Char} {l rest : List Char} (hs : s.toList = d :: l)
    (hd : d.isDigit = true) : ¬ s < String.ofList ('+' :: rest) := by
  have hdigit : '+' < d := by
    simp only [Char.isDigit, Bool.and_eq_true, decide_eq_true_eq, ge_iff_le] at hd
    exact UInt32.lt_of_lt_of_le (by decide : '+'.val < '0'.val) hd.1
  rw [String.lt_iff, hs, String.toList_ofList, List.cons_lt_cons_iff]
  rintro (hlt | ⟨rfl, -⟩)
  · exact Char.lt_asymm hlt hdigit
  · exact Char.lt_irrefl _ hdigit

namespace Period

/-- The tenant's local date lies before the first day of the database's current period. -/
def Behind (tz : Tz) (c : Cadence) (now : DateTime) : Prop :=
  localDay tz now < start c (utcDay now)

/-- From the year 10000 on no text without a sign comes before the database's period. -/
theorem not_lt_currentPeriodFor {p : Period} (hp : 0 ≤ p.year) {c : Cadence} {now : DateTime}
    (hyear : ¬ (ofDay c (utcDay now)).year ≤ 9999) :
    ¬ p.render < currentPeriodFor now c.asStr := by
  obtain ⟨d, l, hl, hd⟩ := render_head hp
  have hplus : currentPeriodFor now c.asStr = String.ofList ('+' ::
      (padded 4 (ofDay c (utcDay now)).year.natAbs ++ (ofDay c (utcDay now)).tailChars)) := by
    unfold currentPeriodFor timeFormat formatYear
    rw [cadenceOrMonthly_asStr, if_neg (by omega), if_neg (by omega), List.cons_append]
  rw [hplus]
  exact not_lt_plus hl hd

/-- When exactly a printable period is locked. -/
theorem render_lt_currentPeriodFor {p : Period} (hp : p.Printable) (now : DateTime) :
    p.render < currentPeriodFor now p.cadence.asStr ↔
      (ofDay p.cadence (utcDay now)).year ≤ 9999 ∧
        p.ord < (ofDay p.cadence (utcDay now)).ord := by
  by_cases hyear : (ofDay p.cadence (utcDay now)).year ≤ 9999
  · have hutc := utcDay_ge now
    have hprint := printable_of_year p.cadence (by omega) hyear
    unfold currentPeriodFor
    rw [cadenceOrMonthly_asStr, timeFormat_eq_render hprint, render_lt_iff (by simp) hp hprint]
    simp [hyear]
  · simp only [not_lt_currentPeriodFor hp.1 hyear, hyear, false_and]

/-- When exactly the text of the tenant's current period comes before the database's. -/
theorem currentIn_lt_iff (tz : Tz) (c : Cadence) (now : DateTime) :
    (currentIn tz c now).render < currentPeriodFor now c.asStr ↔
      (ofDay c (utcDay now)).year ≤ 9999 ∧
        (Behind tz c now ∨ 9999 < (currentIn tz c now).year) := by
  have hday := localDay_ge tz now
  have hutc := utcDay_ge now
  unfold currentIn Behind
  by_cases hlocal : (ofDay c (localDay tz now)).year ≤ 9999
  · have hlt := render_lt_currentPeriodFor (printable_of_year c hday hlocal) now
    rw [cadence_ofDay, ord_lt_iff] at hlt
    simpa [not_lt.mpr hlocal] using hlt
  · by_cases hyear : (ofDay c (utcDay now)).year ≤ 9999
    · -- on the last days of the year 9999 a zone ahead of UTC is in the year 10000
      have hnext := year_le_succ c (localDay_bounds tz now).2
      have hlast : (ofDay c (utcDay now)).year.toNat = 9999 := by omega
      have hfirst : (ofDay c (localDay tz now)).year.toNat = 10000 := by omega
      have hlt : (ofDay c (localDay tz now)).render < currentPeriodFor now c.asStr := by
        have h10000 : padded 4 10000 = ['1', '0', '0', '0', '0'] := by decide
        have h9999 : padded 4 9999 = ['9', '9', '9', '9'] := by decide
        unfold currentPeriodFor
        rw [cadenceOrMonthly_asStr,
          timeFormat_eq_render (printable_of_year c (by omega) hyear), String.lt_iff,
          toList_render (year_nonneg c hday), toList_render (year_nonneg c (by omega)), hlast,
          hfirst, h10000, h9999]
        exact List.cons_lt_cons_iff.mpr (.inl (by decide))
      simp [hlt, hyear, not_le.mp hlocal]
    · simp only [not_lt_currentPeriodFor (year_nonneg c hday) hyear, hyear, false_and]

/-- A period that is not printed before the database's is, in order, no earlier than what UTC had
reached at any time up to the year 9999. -/
theorem utc_le_currentIn {tz : Tz} {c : Cadence} {earlier now : DateTime} (hle : earlier ≤ now)
    (hyear : (ofDay c (utcDay earlier)).year ≤ 9999)
    (h : ¬ (currentIn tz c now).render < currentPeriodFor now c.asStr) :
    (ofDay c (utcDay earlier)).ord ≤ (currentIn tz c now).ord := by
  have hutc := utcDay_mono hle
  by_cases hnow : (ofDay c (utcDay now)).year ≤ 9999
  · have hopen : ¬ Behind tz c now := fun hbehind =>
      h ((currentIn_lt_iff tz c now).mpr ⟨hnow, .inl hbehind⟩)
    have hord : (ofDay c (utcDay now)).ord ≤ (ofDay c (localDay tz now)).ord := by
      rw [← not_lt, ord_lt_iff]
      exact hopen
    exact (ord_mono c hutc).trans hord
  · -- UTC has left the year 9999 meanwhile, and the local date follows within a day
    have hday : utcDay earlier < utcDay now := by
      by_contra hlater
      have heq : utcDay earlier = utcDay now := by omega
      rw [heq] at hyear
      exact hnow hyear
    have hlocal := (localDay_bounds tz now).1
    exact ord_mono c (by omega)

end Period

end SharamLedger
