import Mathlib.Tactic.Linarith
import Mathlib.Order.Basic

/-!
# The proleptic Gregorian calendar and ISO weeks

Days are numbered from 1 January of year 0. Each day has a year, a month and an ISO week,
and each of these has a first day. The results compare two days by the year, month or week
they fall in: the earlier day lies in an earlier one exactly when it comes before the first
day of the later day's year (`yearOf_lt_iff`), month (`month_ord_lt_iff`) or week
(`week_ord_lt_iff`).
-/

namespace Lib.Calendar

/-- The day number of 1 January 1970. -/
def unixEpoch : Int := 719528

/-- The day number of 1 January of a year. -/
def yearStart (y : Int) : Int := 365 * y + (y + 3) / 4 - (y + 99) / 100 + (y + 399) / 400

/-- Whether a year has a 29 February. -/
def isLeap (y : Int) : Bool := y % 4 = 0 && (y % 100 ≠ 0 || y % 400 = 0)

/-- The year a day falls in: the average year length gives it up to one. -/
def yearOf (day : Int) : Int :=
  let guess := 400 * day / 146097
  if day < yearStart guess then guess - 1
  else if day < yearStart (guess + 1) then guess
  else guess + 1

/-- Days since 1 January of the day's own year. -/
def dayOfYear (day : Int) : Int := day - yearStart (yearOf day)

/-- Days from 1 January to the first day of a month. From March on the month lengths repeat
every five months. -/
def monthOffset (leap : Bool) (month : Int) : Int :=
  if month ≤ 1 then 0
  else if month = 2 then 31
  else (153 * (month - 3) + 2) / 5 + (if leap then 60 else 59)

/-- The month (1 to 12) of the `offset`-th day of a year. -/
def monthAt (leap : Bool) (offset : Int) : Int :=
  if offset < 31 then 1
  else if offset < (if leap then 60 else 59) then 2
  else (5 * (offset - (if leap then 60 else 59)) + 2) / 153 + 3

/-- The month a day falls in. -/
def monthOf (day : Int) : Int := monthAt (isLeap (yearOf day)) (dayOfYear day)

/-- The day number of the first of a month. -/
def monthStart (y month : Int) : Int := yearStart y + monthOffset (isLeap y) month

/-- The Monday of a day's week. Day 0 was a Saturday. -/
def weekStart (day : Int) : Int := day - (day + 5) % 7

/-- The Thursday of a day's week, which decides the year the week belongs to. -/
def thursday (day : Int) : Int := weekStart day + 3

/-- The ISO 8601 week-year of a day. -/
def isoYear (day : Int) : Int := yearOf (thursday day)

/-- The ISO 8601 week number (1 to 53) of a day. -/
def isoWeek (day : Int) : Int := dayOfYear (thursday day) / 7 + 1

/-! ## Years -/

theorem yearStart_lt {a b : Int} (h : a < b) : yearStart a + 365 ≤ yearStart b := by
  unfold yearStart
  omega

theorem yearStart_le {a b : Int} (h : a ≤ b) : yearStart a ≤ yearStart b := by
  rcases h.lt_or_eq with h | rfl
  · have := yearStart_lt h
    omega
  · exact le_refl _

/-- A year has 365 days, or 366 when it is a leap year. -/
theorem yearStart_succ (y : Int) :
    yearStart (y + 1) = yearStart y + (if isLeap y then 366 else 365) := by
  unfold yearStart isLeap
  simp only [Bool.and_eq_true, decide_eq_true_eq, Bool.or_eq_true]
  split <;> omega

/-- A day lies between the first days of its own year and of the next. -/
theorem yearOf_spec (day : Int) :
    yearStart (yearOf day) ≤ day ∧ day < yearStart (yearOf day + 1) := by
  unfold yearOf
  simp only
  split
  · rw [sub_add_cancel]
    unfold yearStart at *
    omega
  · split <;> unfold yearStart at * <;> omega

/-- The earlier of two days falls in an earlier year exactly when it comes before the later
day's 1 January. -/
theorem yearOf_lt_iff {a b : Int} : yearOf a < yearOf b ↔ a < yearStart (yearOf b) := by
  have ha := yearOf_spec a
  constructor
  · intro h
    have := yearStart_le (show yearOf a + 1 ≤ yearOf b from h)
    omega
  · intro h
    by_contra hge
    have := yearStart_le (not_lt.mp hge)
    omega

theorem yearOf_mono {a b : Int} (h : a ≤ b) : yearOf a ≤ yearOf b := by
  by_contra hlt
  have := yearOf_lt_iff.mp (not_le.mp hlt)
  have := yearOf_spec a
  omega

/-- A week's time reaches at most the next year. -/
theorem yearOf_le_succ {a b : Int} (h : a ≤ b + 7) : yearOf a ≤ yearOf b + 1 := by
  by_contra hlt
  have ha := yearOf_spec a
  have hb := yearOf_spec b
  have hle := yearStart_le (show yearOf b + 2 ≤ yearOf a by omega)
  have hlong := yearStart_lt (show yearOf b + 1 < yearOf b + 2 by omega)
  omega

theorem dayOfYear_bounds (day : Int) :
    0 ≤ dayOfYear day ∧ dayOfYear day < (if isLeap (yearOf day) then 366 else 365) := by
  have h := yearOf_spec day
  rw [yearStart_succ] at h
  unfold dayOfYear
  omega

/-- In one year the day of the year tells which day is earlier. -/
theorem dayOfYear_le {a b : Int} (hy : yearOf a = yearOf b) (h : a ≤ b) :
    dayOfYear a ≤ dayOfYear b := by
  unfold dayOfYear
  rw [hy]
  omega

/-! ## Months -/

theorem monthAt_bounds {leap : Bool} {offset : Int} (h0 : 0 ≤ offset)
    (h1 : offset < (if leap then 366 else 365)) :
    1 ≤ monthAt leap offset ∧ monthAt leap offset ≤ 12 := by
  unfold monthAt
  cases leap <;> simp only [Bool.false_eq_true, if_true, if_false] at * <;> split <;> omega

/-- A day of the year comes before the first of a month exactly when its own month does. -/
theorem monthAt_lt_iff {leap : Bool} {offset month : Int} (h0 : 0 ≤ offset) (h1 : 1 ≤ month)
    (h12 : month ≤ 12) : monthAt leap offset < month ↔ offset < monthOffset leap month := by
  unfold monthAt monthOffset
  cases leap <;> simp only [Bool.false_eq_true, if_true, if_false] <;> split <;> split <;>
    (try split) <;> omega

theorem monthOf_bounds (day : Int) : 1 ≤ monthOf day ∧ monthOf day ≤ 12 :=
  monthAt_bounds (dayOfYear_bounds day).1 (dayOfYear_bounds day).2

/-- The order of months: the year first, then the month in it. -/
def monthOrd (day : Int) : Int := 100 * yearOf day + monthOf day

/-- A day falls in an earlier month than `b` exactly when it comes before the first of `b`'s
month. -/
theorem month_ord_lt_iff {a b : Int} :
    monthOrd a < monthOrd b ↔ a < monthStart (yearOf b) (monthOf b) := by
  have hma := monthOf_bounds a
  have hmb := monthOf_bounds b
  have hda := dayOfYear_bounds a
  have hdb := dayOfYear_bounds b
  have hself : monthOffset (isLeap (yearOf b)) (monthOf b) ≤ dayOfYear b := by
    by_contra hlt
    have := (monthAt_lt_iff hdb.1 hmb.1 hmb.2).mpr (not_le.mp hlt)
    exact absurd this (lt_irrefl _)
  have hoff : 0 ≤ monthOffset (isLeap (yearOf b)) (monthOf b) := by
    unfold monthOffset
    split
    · omega
    · split
      · omega
      · split <;> omega
  unfold monthOrd monthStart
  rcases lt_trichotomy (yearOf a) (yearOf b) with hy | hy | hy
  · have := yearOf_lt_iff.mp hy
    constructor <;> intro <;> omega
  · have hiff := @monthAt_lt_iff (isLeap (yearOf b)) _ _ hda.1 hmb.1 hmb.2
    have hm : monthOf a = monthAt (isLeap (yearOf b)) (dayOfYear a) := by
      rw [monthOf, hy]
    have hd : dayOfYear a = a - yearStart (yearOf b) := by
      rw [dayOfYear, hy]
    rw [← hm, hd] at hiff
    constructor
    · intro h
      have := hiff.mp (by omega)
      omega
    · intro h
      have := hiff.mpr (by omega)
      omega
  · have hba := yearOf_lt_iff.mp hy
    have hspec := yearOf_spec a
    have : dayOfYear b = b - yearStart (yearOf b) := rfl
    constructor <;> intro <;> omega

theorem month_ord_mono {a b : Int} (h : a ≤ b) : monthOrd a ≤ monthOrd b := by
  by_contra hlt
  have hba := month_ord_lt_iff.mp (not_le.mp hlt)
  have hself := (month_ord_lt_iff (a := a) (b := a)).not.mp (lt_irrefl _)
  omega

/-! ## Weeks -/

theorem weekStart_le (day : Int) : weekStart day ≤ day ∧ day ≤ weekStart day + 6 := by
  unfold weekStart
  omega

theorem isoWeek_bounds (day : Int) : 1 ≤ isoWeek day ∧ isoWeek day ≤ 53 := by
  have h := dayOfYear_bounds (thursday day)
  unfold isoWeek
  split at h <;> omega

/-- The order of ISO weeks: the week-year first, then the week in it. -/
def weekOrd (day : Int) : Int := 100 * isoYear day + isoWeek day

/-- A day falls in an earlier ISO week than `b` exactly when it comes before the Monday of
`b`'s week. -/
theorem week_ord_lt_iff {a b : Int} : weekOrd a < weekOrd b ↔ a < weekStart b := by
  have hwa := isoWeek_bounds a
  have hwb := isoWeek_bounds b
  have hgap : a < weekStart b ↔ thursday a + 7 ≤ thursday b := by
    unfold thursday weekStart
    omega
  have hsame : ¬ a < weekStart b ↔ thursday b ≤ thursday a := by
    unfold thursday weekStart
    omega
  unfold weekOrd
  constructor
  · intro h
    by_contra hlt
    have hle := hsame.mp hlt
    have hy := yearOf_mono hle
    unfold isoYear isoWeek at *
    rcases hy.lt_or_eq with hy | hy
    · omega
    · have := dayOfYear_le hy hle
      omega
  · intro h
    have hle := hgap.mp h
    have hy := yearOf_mono (show thursday a ≤ thursday b by omega)
    unfold isoYear isoWeek at *
    rcases hy.lt_or_eq with hy | hy
    · omega
    · have ha : dayOfYear (thursday a) = thursday a - yearStart (yearOf (thursday b)) := by
        rw [dayOfYear, hy]
      have hb : dayOfYear (thursday b) = thursday b - yearStart (yearOf (thursday b)) := rfl
      omega

theorem week_ord_mono {a b : Int} (h : a ≤ b) : weekOrd a ≤ weekOrd b := by
  by_contra hlt
  have hba := week_ord_lt_iff.mp (not_le.mp hlt)
  have := weekStart_le a
  omega

end Lib.Calendar
