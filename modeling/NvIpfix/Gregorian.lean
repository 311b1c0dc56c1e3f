/-
**The Gregorian calendar.**

Dates follow each other: a day is the next one of its month, or the first of the next month, or the
first of the next year.  Days are numbered from 1970-01-01 by counting along this order, forwards
and backwards.  The number of a date is computed from its parts: with years that begin in March, the
day that leap years add is the last of its year, and the lengths of the months before it do not
depend on the year.

Main definitions:

* `Gregorian.Date`, `Gregorian.Date.Valid`, `Gregorian.Date.next`, `Gregorian.Date.prev` — dates and
  their order;
* `Gregorian.ofDayNumber` — the date of a day;
* `Gregorian.dayNumber` — the number of a date, also for days outside of their month.

Main results:

* `Gregorian.dayNumber_next`, `Gregorian.dayNumber_prev` — numbers follow the order of dates;
* `Gregorian.dayNumber_ofDayNumber`, `Gregorian.ofDayNumber_dayNumber` — **days and dates
  correspond**.
-/

import Mathlib.Logic.Function.Iterate
import Mathlib.Tactic.IntervalCases

set_option relaxedAutoImplicit false
set_option autoImplicit false

namespace Gregorian

/-! ### Dates -/

/-- A year, a month from 1 to 12 and a day from 1 on. -/
structure Date where
  year : ℤ
  month : ℤ
  day : ℤ
  deriving DecidableEq, Repr

/-- Leap years. -/
def IsLeap (year : ℤ) : Prop := year % 4 = 0 ∧ (year % 100 ≠ 0 ∨ year % 400 = 0)

instance (year : ℤ) : Decidable (IsLeap year) := inferInstanceAs (Decidable (_ ∧ _))

/-- The number of days of a month. -/
def daysInMonth (year month : ℤ) : ℤ :=
  if month = 2 then if IsLeap year then 29 else 28
  else if month = 4 ∨ month = 6 ∨ month = 9 ∨ month = 11 then 30
  else 31

namespace Date

/-- Dates of the calendar. -/
structure Valid (date : Date) : Prop where
  month_pos : 1 ≤ date.month
  month_le : date.month ≤ 12
  day_pos : 1 ≤ date.day
  day_le : date.day ≤ daysInMonth date.year date.month

/-- The date of the next day. -/
def next (date : Date) : Date :=
  if date.day < daysInMonth date.year date.month then { date with day := date.day + 1 }
  else if date.month < 12 then { date with month := date.month + 1, day := 1 }
  else { year := date.year + 1, month := 1, day := 1 }

/-- The date of the day before. -/
def prev (date : Date) : Date :=
  if 1 < date.day then { date with day := date.day - 1 }
  else if 1 < date.month then
    { date with month := date.month - 1, day := daysInMonth date.year (date.month - 1) }
  else { year := date.year - 1, month := 12, day := 31 }

/-- The first day. -/
def epoch : Date := { year := 1970, month := 1, day := 1 }

end Date

/-- The date of a day, counted from the first. -/
def ofDayNumber : ℤ → Date
  | .ofNat n => Date.next^[n] Date.epoch
  | .negSucc n => Date.prev^[n + 1] Date.epoch

/-! ### Numbers of dates -/

/-- The days before a year that begins in March. -/
def daysBeforeYear (year : ℤ) : ℤ := 365 * year + year / 4 - year / 100 + year / 400

/-- The days before a month, counted from March, in a year that begins in March. -/
def daysBeforeMonth (month : ℤ) : ℤ := (153 * month + 2) / 5

/-- The number of a date, where the day may lie outside of its month. -/
def dayNumber (date : Date) : ℤ :=
  let year := if date.month ≤ 2 then date.year - 1 else date.year
  let month := if date.month ≤ 2 then date.month + 9 else date.month - 3
  daysBeforeYear year + daysBeforeMonth month + (date.day - 1) - 719468

theorem daysInMonth_bounds (year month : ℤ) :
    28 ≤ daysInMonth year month ∧ daysInMonth year month ≤ 31 := by
  simp only [daysInMonth]
  split
  · split <;> omega
  · split <;> omega

/-- A year that begins in March has the length of the year it ends in. -/
theorem daysBeforeYear_eq (year : ℤ) : daysBeforeYear year =
    daysBeforeYear (year - 1) + if IsLeap year then 366 else 365 := by
  by_cases h : IsLeap year
  · rw [if_pos h]
    simp only [daysBeforeYear, IsLeap] at h ⊢
    omega
  · rw [if_neg h]
    simp only [daysBeforeYear, IsLeap] at h ⊢
    omega

/-- The first day of a month has the number behind the last day of the month before. -/
theorem dayNumber_month (year : ℤ) {month : ℤ} (h : 1 ≤ month) (h' : month < 12) :
    dayNumber { year, month := month + 1, day := 1 } =
      dayNumber { year, month, day := daysInMonth year month } + 1 := by
  have hyear := daysBeforeYear_eq year
  interval_cases month <;>
    simp only [dayNumber, daysInMonth, daysBeforeMonth] at hyear ⊢ <;>
    split at hyear <;> simp_all <;> omega

theorem dayNumber_year (year : ℤ) : dayNumber { year := year + 1, month := 1, day := 1 } =
    dayNumber { year, month := 12, day := 31 } + 1 := by
  simp only [dayNumber, daysBeforeMonth, Int.add_sub_cancel]
  norm_num
  omega

theorem dayNumber_day (year month day : ℤ) :
    dayNumber { year, month, day := day + 1 } = dayNumber { year, month, day } + 1 := by
  simp only [dayNumber]
  omega

section Order

variable {date : Date}

theorem Date.Valid.next (h : date.Valid) : date.next.Valid := by
  obtain ⟨hmonth, hmonth', hday, hday'⟩ := h
  have hpos := (daysInMonth_bounds date.year (date.month + 1)).1
  simp only [Date.next]
  split
  · exact ⟨hmonth, hmonth', by dsimp only; omega, by dsimp only; omega⟩
  · split
    · exact ⟨by dsimp only; omega, by dsimp only; omega, le_refl 1, by dsimp only; omega⟩
    · exact ⟨le_refl 1, by dsimp only; omega, le_refl 1, by simp [daysInMonth]⟩

theorem Date.Valid.prev (h : date.Valid) : date.prev.Valid := by
  obtain ⟨hmonth, hmonth', hday, hday'⟩ := h
  have hpos := (daysInMonth_bounds date.year (date.month - 1)).1
  simp only [Date.prev]
  split
  · exact ⟨hmonth, hmonth', by dsimp only; omega, by dsimp only; omega⟩
  · split
    · exact ⟨by dsimp only; omega, by dsimp only; omega, by dsimp only; omega, le_refl _⟩
    · exact ⟨by dsimp only; omega, le_refl 12, by dsimp only; omega, by simp [daysInMonth]⟩

/-- **The next date has the next number.** -/
theorem dayNumber_next (h : date.Valid) : dayNumber date.next = dayNumber date + 1 := by
  obtain ⟨year, month, day⟩ := date
  obtain ⟨hmonth, hmonth', hday, hday'⟩ := h
  simp only [Date.next] at *
  split
  · exact dayNumber_day year month day
  · obtain rfl : day = daysInMonth year month := by omega
    split
    · exact dayNumber_month year hmonth (by omega)
    · obtain rfl : month = 12 := by omega
      exact dayNumber_year year

/-- **The date before has the number before.** -/
theorem dayNumber_prev (h : date.Valid) : dayNumber date.prev = dayNumber date - 1 := by
  obtain ⟨year, month, day⟩ := date
  obtain ⟨hmonth, hmonth', hday, hday'⟩ := h
  simp only [Date.prev] at *
  split
  · have hnumber := dayNumber_day year month (day - 1)
    rw [Int.sub_add_cancel] at hnumber
    omega
  · obtain rfl : day = 1 := by omega
    split
    · have hnumber := dayNumber_month year (show 1 ≤ month - 1 by omega) (by omega)
      rw [Int.sub_add_cancel] at hnumber
      omega
    · obtain rfl : month = 1 := by omega
      have hnumber := dayNumber_year (year - 1)
      rw [Int.sub_add_cancel] at hnumber
      omega

end Order

/-! ### Dates of days -/

theorem iterate_next (n : ℕ) : (Date.next^[n] Date.epoch).Valid ∧
    dayNumber (Date.next^[n] Date.epoch) = n := by
  induction n with
  | zero => exact ⟨⟨by decide, by decide, by decide, by decide⟩, by decide⟩
  | succ n ih =>
      obtain ⟨hvalid, hnumber⟩ := ih
      rw [Function.iterate_succ_apply', dayNumber_next hvalid, hnumber]
      exact ⟨hvalid.next, rfl⟩

theorem iterate_prev (n : ℕ) : (Date.prev^[n] Date.epoch).Valid ∧
    dayNumber (Date.prev^[n] Date.epoch) = -n := by
  induction n with
  | zero => exact ⟨⟨by decide, by decide, by decide, by decide⟩, by decide⟩
  | succ n ih =>
      obtain ⟨hvalid, hnumber⟩ := ih
      rw [Function.iterate_succ_apply', dayNumber_prev hvalid, hnumber]
      exact ⟨hvalid.prev, by omega⟩

theorem valid_ofDayNumber (number : ℤ) : (ofDayNumber number).Valid := by
  cases number with
  | ofNat n => exact (iterate_next n).1
  | negSucc n => exact (iterate_prev (n + 1)).1

/-- **The date of a day has its number.** -/
theorem dayNumber_ofDayNumber (number : ℤ) : dayNumber (ofDayNumber number) = number := by
  cases number with
  | ofNat n => exact (iterate_next n).2
  | negSucc n => exact (iterate_prev (n + 1)).2

/-! ### Days of dates -/

/-- A year is over before a later one begins. -/
theorem daysBeforeYear_mono {year year' : ℤ} (h : year < year') :
    daysBeforeYear (year + 1) ≤ daysBeforeYear year' := by
  unfold daysBeforeYear
  omega

/-- The year of a date, as years begin in March. -/
def marchYear (date : Date) : ℤ := if date.month ≤ 2 then date.year - 1 else date.year

/-- The month of a date, counted from March. -/
def marchMonth (date : Date) : ℤ := if date.month ≤ 2 then date.month + 9 else date.month - 3

theorem dayNumber_eq (date : Date) : dayNumber date = daysBeforeYear (marchYear date) +
    daysBeforeMonth (marchMonth date) + (date.day - 1) - 719468 := rfl

section Days

variable {date date' : Date}

theorem marchMonth_bounds (h : date.Valid) : 0 ≤ marchMonth date ∧ marchMonth date ≤ 11 := by
  obtain ⟨hmonth, hmonth', -, -⟩ := h
  unfold marchMonth
  split <;> omega

/-- A month is over before the next one begins. -/
theorem daysBeforeMonth_add_le (h : date.Valid) :
    daysBeforeMonth (marchMonth date) + date.day ≤ daysBeforeMonth (marchMonth date + 1) := by
  obtain ⟨year, month, day⟩ := date
  obtain ⟨hmonth, hmonth', -, hday'⟩ := h
  dsimp only at *
  have hlength := daysInMonth_bounds year month
  simp only [marchMonth, daysBeforeMonth]
  interval_cases month <;> simp only [daysInMonth] at hday' hlength <;> norm_num at * <;> omega

/-- The year is over before the next one begins. -/
theorem daysBeforeYear_add_le (h : date.Valid) :
    daysBeforeYear (marchYear date) + daysBeforeMonth (marchMonth date) + date.day ≤
      daysBeforeYear (marchYear date + 1) := by
  have hyear := daysBeforeYear_eq (marchYear date + 1)
  rw [Int.add_sub_cancel] at hyear
  have hlength : (365 : ℤ) ≤ if IsLeap (marchYear date + 1) then 366 else 365 := by
    split <;> omega
  have hbounds := marchMonth_bounds h
  have hmonth := daysBeforeMonth_add_le h
  by_cases hlast : marchMonth date = 11
  · -- the year ends with February, whose length tells leap years
    obtain ⟨year, month, day⟩ := date
    obtain ⟨hpos, hle, -, hday⟩ := h
    have hfebruary : month = 2 := by
      simp only [marchMonth] at hlast
      dsimp only at hpos hle
      split at hlast <;> omega
    subst hfebruary
    have hsame : marchYear { year, month := 2, day } + 1 = year := by
      simp [marchYear]
    rw [hsame] at hyear ⊢
    simp only [daysInMonth, if_true] at hday
    rw [hlast]
    simp only [daysBeforeMonth]
    by_cases hleap : IsLeap year
    · rw [if_pos hleap] at hyear hday
      omega
    · rw [if_neg hleap] at hyear hday
      omega
  · have hbefore : daysBeforeMonth (marchMonth date + 1) ≤ 337 := by
      unfold daysBeforeMonth
      omega
    omega

theorem daysBeforeMonth_nonneg {month : ℤ} (h : 0 ≤ month) : 0 ≤ daysBeforeMonth month := by
  unfold daysBeforeMonth
  omega

/-- A date of an earlier year has a smaller number. -/
theorem dayNumber_lt_of_marchYear_lt (h : date.Valid) (h' : date'.Valid)
    (hlt : marchYear date < marchYear date') : dayNumber date < dayNumber date' := by
  have hover := daysBeforeYear_add_le h
  have hyears := daysBeforeYear_mono hlt
  have hmonths := daysBeforeMonth_nonneg (marchMonth_bounds h').1
  have hdays := h'.day_pos
  rw [dayNumber_eq, dayNumber_eq]
  omega

/-- A date of an earlier month of the same year has a smaller number. -/
theorem dayNumber_lt_of_marchMonth_lt (h : date.Valid) (h' : date'.Valid)
    (hyear : marchYear date = marchYear date') (hlt : marchMonth date < marchMonth date') :
    dayNumber date < dayNumber date' := by
  have hover := daysBeforeMonth_add_le h
  have hdays := h'.day_pos
  have hmonths : daysBeforeMonth (marchMonth date + 1) ≤ daysBeforeMonth (marchMonth date') := by
    unfold daysBeforeMonth
    omega
  rw [dayNumber_eq, dayNumber_eq, hyear]
  omega

/-- **Dates with the same number are the same.** -/
theorem eq_of_dayNumber_eq (h : date.Valid) (h' : date'.Valid)
    (heq : dayNumber date = dayNumber date') : date = date' := by
  have hyear : marchYear date = marchYear date' := by
    rcases lt_trichotomy (marchYear date) (marchYear date') with hlt | hsame | hgt
    · exact absurd heq (dayNumber_lt_of_marchYear_lt h h' hlt).ne
    · exact hsame
    · exact absurd heq (dayNumber_lt_of_marchYear_lt h' h hgt).ne'
  have hmonth : marchMonth date = marchMonth date' := by
    rcases lt_trichotomy (marchMonth date) (marchMonth date') with hlt | hsame | hgt
    · exact absurd heq (dayNumber_lt_of_marchMonth_lt h h' hyear hlt).ne
    · exact hsame
    · exact absurd heq (dayNumber_lt_of_marchMonth_lt h' h hyear.symm hgt).ne'
  rw [dayNumber_eq, dayNumber_eq, hyear, hmonth] at heq
  -- year, month and day in March years determine the date
  obtain ⟨year, month, day⟩ := date
  obtain ⟨year', month', day'⟩ := date'
  obtain ⟨hone, htwelve, -, -⟩ := h
  obtain ⟨hone', htwelve', -, -⟩ := h'
  simp only [marchYear, marchMonth, Date.mk.injEq] at *
  split at hmonth <;> split at hmonth <;> simp_all <;> omega

/-- **The day of a date has its date.** -/
theorem ofDayNumber_dayNumber (h : date.Valid) : ofDayNumber (dayNumber date) = date :=
  eq_of_dayNumber_eq (valid_ofDayNumber _) h (dayNumber_ofDayNumber _)

end Days

end Gregorian
