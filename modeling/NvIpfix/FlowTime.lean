/-
**Flow times in a time zone.**

An instant becomes a date by `localtime`, and the date becomes an instant again by `mktime`, which
undoes `localtime` in any time zone.  But exported times are differences of two such instants, and
the other one is that of 1970-01-01 in the local time of the host: it is not zero, unless the host
is at UTC.

Main definitions:

* `NvIpfix.Tm.seconds`, `NvIpfix.tmOfSeconds` — times of the Gregorian calendar;
* `NvIpfix.Calendar.gregorian` — the time functions at an offset from UTC.

Main results:

* `NvIpfix.seconds_tmOfSeconds` — times read back;
* `NvIpfix.datetimeToCtime_ctimeToDatetime` — `mktime` undoes `localtime`;
* `NvIpfix.datetimeGetSecondsSinceEpoch_eq_iff` — **when exported times are instants**.
-/

import NvIpfix.Gregorian
import NvIpfix.Time

set_option relaxedAutoImplicit false
set_option autoImplicit false

namespace NvIpfix

open Gregorian

/-! ### Times of the calendar -/

/-- The seconds from the first day on that a time is, whose fields may lie outside of their
ranges. -/
def Tm.seconds (tm : Tm) : ℤ :=
  let date : Date :=
    { year := tm.year.toInt + 1900 + tm.mon.toInt / 12
      month := tm.mon.toInt % 12 + 1
      day := tm.mday.toInt }
  ((dayNumber date * 24 + tm.hour.toInt) * 60 + tm.min.toInt) * 60 + tm.sec.toInt

/-- The time that is some seconds from the first day on. -/
def tmOfSeconds (seconds : ℤ) : Tm :=
  let date := ofDayNumber (seconds / 60 / 60 / 24)
  { year := Int32.ofInt (date.year - 1900)
    mon := Int32.ofInt (date.month - 1)
    mday := Int32.ofInt date.day
    hour := Int32.ofInt (seconds / 60 / 60 % 24)
    min := Int32.ofInt (seconds / 60 % 60)
    sec := Int32.ofInt (seconds % 60) }

/-- The time functions at a fixed offset from UTC, in seconds. -/
def Calendar.gregorian (offset : Int32) : Calendar where
  mktime tm := Int64.ofInt (tm.seconds - offset.toInt)
  localtime ctime := tmOfSeconds (ctime.toInt + offset.toInt)
  gmtime ctime := tmOfSeconds ctime.toInt

/-- The year of some seconds from the first day on fits `struct tm`. -/
def YearFits (seconds : ℤ) : Prop :=
  -2 ^ 31 ≤ (ofDayNumber (seconds / 60 / 60 / 24)).year - 1900 ∧
    (ofDayNumber (seconds / 60 / 60 / 24)).year - 1900 < 2 ^ 31

/-- The year of a date is not far from what its number says. -/
theorem yearFits_of_bounds {seconds : ℤ} (hlo : -2 ^ 32 ≤ seconds) (hhi : seconds < 2 ^ 34) :
    YearFits seconds := by
  have hnumber := dayNumber_ofDayNumber (seconds / 60 / 60 / 24)
  obtain ⟨hmonth, hmonth', hday, hday'⟩ := valid_ofDayNumber (seconds / 60 / 60 / 24)
  unfold YearFits
  generalize ofDayNumber (seconds / 60 / 60 / 24) = date
    at hnumber hmonth hmonth' hday hday' ⊢
  have hlength := (daysInMonth_bounds date.year date.month).2
  simp only [dayNumber, daysBeforeYear, daysBeforeMonth] at hnumber
  split at hnumber <;> omega

/-- Times read back, if the year fits its field. -/
theorem seconds_tmOfSeconds {seconds : ℤ} (hyear : YearFits seconds) :
    (tmOfSeconds seconds).seconds = seconds := by
  have hfield : ∀ i : ℤ, -2 ^ 31 ≤ i → i < 2 ^ 31 → (Int32.ofInt i).toInt = i :=
    fun i hlo hhi => Int32.toInt_ofInt_of_le hlo hhi
  have hnumber := dayNumber_ofDayNumber (seconds / 60 / 60 / 24)
  obtain ⟨hmonth, hmonth', hday, hday'⟩ := valid_ofDayNumber (seconds / 60 / 60 / 24)
  simp only [Tm.seconds, tmOfSeconds]
  unfold YearFits at hyear
  generalize ofDayNumber (seconds / 60 / 60 / 24) = date
    at hnumber hyear hmonth hmonth' hday hday' ⊢
  have hlength := (daysInMonth_bounds date.year date.month).2
  rw [hfield (date.year - 1900) hyear.1 hyear.2,
    hfield (date.month - 1) (by omega) (by omega), hfield date.day (by omega) (by omega),
    hfield _ (by omega) (by omega),
    hfield _ (by omega) (by omega), hfield _ (by omega) (by omega)]
  have hdate : ({ year := date.year - 1900 + 1900 + (date.month - 1) / 12
                  month := (date.month - 1) % 12 + 1
                  day := date.day } : Date) = date := by
    obtain ⟨year, month, day⟩ := date
    simp only [Date.mk.injEq, and_true] at *
    omega
  rw [hdate, hnumber]
  omega

/-! ### Flow times -/

section FlowTime

variable (offset : Int32) (t : UInt32) (datetime : Datetime)

/-- The instant as a `time_t`. -/
def ctimeOf (t : UInt32) : Ctime := Int64.ofInt t.toNat

theorem toInt_ctimeOf : (ctimeOf t).toInt = t.toNat := by
  have ht := t.toNat_lt
  exact Int64.toInt_ofInt_of_le (by omega) (by omega)

/-- `mktime` undoes `localtime`. -/
theorem mktime_localtime : (Calendar.gregorian offset).mktime
    ((Calendar.gregorian offset).localtime (ctimeOf t)) = ctimeOf t := by
  have ht := t.toNat_lt
  have hlo := offset.le_toInt
  have hhi := offset.toInt_lt
  simp only [Calendar.gregorian, toInt_ctimeOf]
  rw [seconds_tmOfSeconds (yearFits_of_bounds (by omega) (by omega)), Int.add_sub_cancel, ctimeOf]

/-- The fields of the date are those of the local time. -/
theorem tmOfDatetime_ctimeToDatetime (calendar : Calendar) (ctime : Ctime) :
    tmOfDatetime (ctimeToDatetime calendar datetime ctime).2 = calendar.localtime ctime := by
  simp [tmOfDatetime, ctimeToDatetime, datetimeOfTm]

/-- `nvipfix_datetime_to_ctime` undoes `nvipfix_ctime_to_datetime`. -/
theorem datetimeToCtime_ctimeToDatetime : datetimeToCtime (Calendar.gregorian offset)
    (ctimeToDatetime (Calendar.gregorian offset) datetime (ctimeOf t)).2 = ctimeOf t := by
  rw [datetimeToCtime, tmOfDatetime_ctimeToDatetime, mktime_localtime]

/-- The epoch as the host's local time. -/
theorem mktime_epoch : ((Calendar.gregorian offset).mktime
    { year := 1970 - 1900, mon := 1 - 1, mday := 1 }).toInt = -offset.toInt := by
  have hlo := offset.le_toInt
  have hhi := offset.toInt_lt
  have hepoch : Tm.seconds { year := 1970 - 1900, mon := 1 - 1, mday := 1 } = 0 := by decide
  simp only [Calendar.gregorian, hepoch, Int.zero_sub]
  exact Int64.toInt_ofInt_of_le (by omega) (by omega)

theorem toNat_ofInt (i : ℤ) : (UInt32.ofInt i).toNat = (i % 2 ^ 32).toNat := by
  have hlt : (i % 2 ^ 32).toNat < UInt32.size := by
    rw [UInt32.size]
    omega
  exact UInt32.toNat_ofNat_of_lt' hlt

/-- An exported time is off by the offset from UTC. -/
theorem datetimeGetSecondsSinceEpoch_ctimeToDatetime :
    datetimeGetSecondsSinceEpoch (Calendar.gregorian offset)
      (ctimeToDatetime (Calendar.gregorian offset) datetime (ctimeOf t)).2 1970 1 =
        t + UInt32.ofInt offset.toInt := by
  have ht : UInt32.ofInt t.toNat = t := by
    refine UInt32.toNat_inj.1 ?_
    have hlt := t.toNat_lt
    rw [toNat_ofInt]
    omega
  rw [datetimeGetSecondsSinceEpoch, tmOfDatetime_ctimeToDatetime, mktime_localtime, mktime_epoch,
    toInt_ctimeOf, Int.sub_neg, UInt32.ofInt_add, ht]

/-- **When exported times are instants**: at UTC. -/
theorem datetimeGetSecondsSinceEpoch_eq_iff :
    datetimeGetSecondsSinceEpoch (Calendar.gregorian offset)
      (ctimeToDatetime (Calendar.gregorian offset) datetime (ctimeOf t)).2 1970 1 = t ↔
        offset = 0 := by
  have hoffset : UInt32.ofInt offset.toInt = 0 ↔ offset = 0 := by
    have hlo := offset.le_toInt
    have hhi := offset.toInt_lt
    rw [← UInt32.toNat_inj, ← Int32.toInt_inj, toNat_ofInt, UInt32.toNat_zero, Int32.toInt_zero]
    omega
  rw [datetimeGetSecondsSinceEpoch_ctimeToDatetime, ← hoffset]
  exact UInt32.add_eq_left

/-- One hour east of UTC, the first instant is exported as one hour later. -/
theorem datetimeGetSecondsSinceEpoch_oneHourEast :
    datetimeGetSecondsSinceEpoch (Calendar.gregorian 3600)
        (ctimeToDatetime (Calendar.gregorian 3600) {} (ctimeOf 0)).2 1970 1 = 3600 ∧
      datetimeGetSecondsSinceEpoch (Calendar.gregorian 3600)
        (ctimeToDatetime (Calendar.gregorian 3600) {} (ctimeOf 0)).2 1970 1 ≠ 0 := by
  decide +kernel

end FlowTime

end NvIpfix
