/-
**Adding timespans to dates.**

`nvipfix_datetime_add_timespan` cuts a timespan to whole seconds, adds them to the seconds of the
date, and lets `mktime` carry into the other fields.  The calendar has no part in what goes wrong:
dates and seconds from the first day on correspond.  But what two timespans have below their seconds
can make a second, which is lost, and so are the milliseconds of the date.  `NVIPFIX_DT_FROM_TM`
resets two fields that `struct tm` does not have; the function saves one of them and not the other.

Main definitions:

* `NvIpfix.datetimeAddTimespan`;
* `NvIpfix.Datetime.Normalised` — the dates of the calendar, with a time of the day;
* `NvIpfix.NoCarry` — the rests of two timespans do not change the seconds of their sum.

Main results:

* `NvIpfix.tmOfSeconds_seconds` — the fields of a date are those of its seconds;
* `NvIpfix.datetimeAddTimespan_eq` — what adding a timespan does;
* `NvIpfix.datetimeAddTimespan_action_iff` — **when adding timespans is an action on dates**.
-/

import NvIpfix.FlowTime

set_option relaxedAutoImplicit false
set_option autoImplicit false

namespace NvIpfix

open Gregorian

/-- `nvipfix_datetime_add_timespan`.  `mktime` leaves the local time of its result in its
argument. -/
def datetimeAddTimespan (calendar : Calendar) (datetime : Datetime) (timespan : Timespan) :
    Ctime × Datetime :=
  let tm := tmOfDatetime datetime
  let tm := { tm with sec := (tm.sec.toInt64 + timespan.microseconds / (1000 * 1000)).toInt32 }
  let result := calendar.mktime tm
  let tm := calendar.localtime result
  let tzOffset := datetime.tzOffset
  (result, { datetimeOfTm datetime tm with tzOffset })

/-! ### Timespans -/

namespace Timespan

/-- Both timespans together. -/
def add (timespan timespan' : Timespan) : Timespan where
  microseconds := timespan.microseconds + timespan'.microseconds
  hasValue := true

/-- No time. -/
def zero : Timespan := { microseconds := 0, hasValue := true }

/-- The seconds of a timespan, cut towards zero. -/
def wholeSeconds (timespan : Timespan) : ℤ := timespan.microseconds.toInt.tdiv 1000000

/-- The microseconds that are left. -/
def rest (timespan : Timespan) : ℤ := timespan.microseconds.toInt.tmod 1000000

/-- The seconds fit an `int`, also behind those of a time of the day. -/
def SecondsFit (timespan : Timespan) : Prop :=
  -2 ^ 31 ≤ timespan.wholeSeconds ∧ timespan.wholeSeconds + 59 < 2 ^ 31

instance (timespan : Timespan) : Decidable timespan.SecondsFit :=
  inferInstanceAs (Decidable (_ ∧ _))

end Timespan

/-- The rests of two timespans make no second, and take none from the others. -/
def NoCarry (timespan timespan' : Timespan) : Prop :=
  |timespan.rest + timespan'.rest| < 1000000 ∧
    (0 < timespan.wholeSeconds + timespan'.wholeSeconds → 0 ≤ timespan.rest + timespan'.rest) ∧
    (timespan.wholeSeconds + timespan'.wholeSeconds < 0 → timespan.rest + timespan'.rest ≤ 0)

instance (timespan timespan' : Timespan) : Decidable (NoCarry timespan timespan') :=
  inferInstanceAs (Decidable (_ ∧ _))

section Timespan

variable {timespan timespan' : Timespan}

/-- Seconds and rest have one sign. -/
theorem microseconds_eq (timespan : Timespan) :
    timespan.microseconds.toInt = timespan.wholeSeconds * 1000000 + timespan.rest ∧
      |timespan.rest| < 1000000 ∧ (0 < timespan.wholeSeconds → 0 ≤ timespan.rest) ∧
      (timespan.wholeSeconds < 0 → timespan.rest ≤ 0) := by
  unfold Timespan.wholeSeconds Timespan.rest
  generalize timespan.microseconds.toInt = i
  have hdiv := Int.mul_tdiv_add_tmod i 1000000
  rcases le_total 0 i with hpos | hneg
  · have hlo := Int.tmod_nonneg 1000000 hpos
    have hhi := Int.tmod_lt_of_pos i (show (0 : ℤ) < 1000000 by decide)
    rw [abs_lt]
    omega
  · have hlo := Int.tmod_nonneg 1000000 (show 0 ≤ -i by omega)
    have hhi := Int.tmod_lt_of_pos (-i) (show (0 : ℤ) < 1000000 by decide)
    rw [Int.neg_tmod] at hlo hhi
    rw [abs_lt]
    omega

theorem toInt_add (hfit : timespan.SecondsFit) (hfit' : timespan'.SecondsFit) :
    (timespan.add timespan').microseconds.toInt =
      timespan.microseconds.toInt + timespan'.microseconds.toInt := by
  obtain ⟨heq, hrest, -, -⟩ := microseconds_eq timespan
  obtain ⟨heq', hrest', -, -⟩ := microseconds_eq timespan'
  rw [abs_lt] at hrest hrest'
  unfold Timespan.SecondsFit at hfit hfit'
  rw [Timespan.add, Int64.toInt_add, Int.bmod_eq_of_le (by omega) (by omega)]

/-- The seconds of timespans add up if there is no carry. -/
theorem wholeSeconds_add_iff (hfit : timespan.SecondsFit) (hfit' : timespan'.SecondsFit) :
    (timespan.add timespan').wholeSeconds = timespan.wholeSeconds + timespan'.wholeSeconds ↔
      NoCarry timespan timespan' := by
  have hsum := toInt_add hfit hfit'
  obtain ⟨heq, hrest, -, -⟩ := microseconds_eq timespan
  obtain ⟨heq', hrest', -, -⟩ := microseconds_eq timespan'
  obtain ⟨hadd, hrestAdd, hpos, hneg⟩ := microseconds_eq (timespan.add timespan')
  unfold NoCarry
  rw [abs_lt] at *
  omega

theorem toInt_seconds_div (timespan : Timespan) :
    (timespan.microseconds / (1000 * 1000)).toInt = timespan.wholeSeconds := by
  have hmillion : (1000 * 1000 : Int64).toInt = 1000000 := by decide
  obtain ⟨heq, hrest, hpos, hneg⟩ := microseconds_eq timespan
  have hlo := timespan.microseconds.le_toInt
  have hhi := timespan.microseconds.toInt_lt
  rw [abs_lt] at hrest
  rw [Int64.toInt_div, hmillion]
  exact Int.bmod_eq_of_le (by unfold Timespan.wholeSeconds at *; omega)
    (by unfold Timespan.wholeSeconds at *; omega)

end Timespan

/-! ### Times of the day -/

/-- Dates of the calendar in a year that `struct tm` counts, with a time of the day. -/
structure Datetime.Normalised (datetime : Datetime) : Prop where
  date : Date.Valid
    { year := datetime.year.toInt, month := datetime.month.toInt, day := datetime.day.toInt }
  year : -2 ^ 31 + 1900 ≤ datetime.year.toInt
  hours : 0 ≤ datetime.hours.toInt ∧ datetime.hours.toInt < 24
  minutes : 0 ≤ datetime.minutes.toInt ∧ datetime.minutes.toInt < 60
  seconds : 0 ≤ datetime.seconds.toInt ∧ datetime.seconds.toInt < 60
  milliseconds : 0 ≤ datetime.milliseconds.toInt ∧ datetime.milliseconds.toInt < 1000

section Normalised

variable {datetime : Datetime}

/-- The fields of `struct tm` for a date. -/
theorem toInt_tmOfDatetime (h : datetime.Normalised) :
    (tmOfDatetime datetime).year.toInt = datetime.year.toInt - 1900 ∧
      (tmOfDatetime datetime).mon.toInt = datetime.month.toInt - 1 := by
  obtain ⟨⟨hmonth, hmonth', -, -⟩, hyear, -, -, -, -⟩ := h
  have hlt := datetime.year.toInt_lt
  have hyears : (1900 : Int32).toInt = 1900 := by decide
  have hone : (1 : Int32).toInt = 1 := by decide
  dsimp only at hmonth hmonth'
  rw [tmOfDatetime, Int32.toInt_sub, Int32.toInt_sub, hyears, hone]
  exact ⟨Int.bmod_eq_of_le (by omega) (by omega), Int.bmod_eq_of_le (by omega) (by omega)⟩

theorem seconds_tmOfDatetime (h : datetime.Normalised) :
    (tmOfDatetime datetime).seconds =
      ((dayNumber { year := datetime.year.toInt, month := datetime.month.toInt,
                    day := datetime.day.toInt } * 24 + datetime.hours.toInt) * 60 +
        datetime.minutes.toInt) * 60 + datetime.seconds.toInt := by
  obtain ⟨hyear, hmonth⟩ := toInt_tmOfDatetime h
  obtain ⟨⟨hlo, hhi, -, -⟩, -, -, -, -, -⟩ := h
  dsimp only at hlo hhi
  rw [Tm.seconds, hyear, hmonth]
  have hdate : datetime.year.toInt - 1900 + 1900 + (datetime.month.toInt - 1) / 12 =
      datetime.year.toInt := by
    omega
  have hmod : (datetime.month.toInt - 1) % 12 + 1 = datetime.month.toInt := by
    omega
  rw [hdate, hmod]
  rfl

/-- **The fields of a date are those of its seconds.** -/
theorem tmOfSeconds_seconds (h : datetime.Normalised) :
    tmOfSeconds (tmOfDatetime datetime).seconds = tmOfDatetime datetime := by
  obtain ⟨hyear, hmonth⟩ := toInt_tmOfDatetime h
  have hseconds := seconds_tmOfDatetime h
  obtain ⟨hvalid, -, hhours, hminutes, hsec, -⟩ := h
  have hnumber := ofDayNumber_dayNumber hvalid
  generalize hday : dayNumber { year := datetime.year.toInt, month := datetime.month.toInt,
                                day := datetime.day.toInt } = number at hseconds hnumber
  rw [hseconds]
  have hnumber' : (((number * 24 + datetime.hours.toInt) * 60 + datetime.minutes.toInt) * 60 +
      datetime.seconds.toInt) / 60 / 60 / 24 = number := by
    omega
  have hhour : (((number * 24 + datetime.hours.toInt) * 60 + datetime.minutes.toInt) * 60 +
      datetime.seconds.toInt) / 60 / 60 % 24 = datetime.hours.toInt := by
    omega
  have hminute : (((number * 24 + datetime.hours.toInt) * 60 + datetime.minutes.toInt) * 60 +
      datetime.seconds.toInt) / 60 % 60 = datetime.minutes.toInt := by
    omega
  have hsecond : (((number * 24 + datetime.hours.toInt) * 60 + datetime.minutes.toInt) * 60 +
      datetime.seconds.toInt) % 60 = datetime.seconds.toInt := by
    omega
  rw [tmOfSeconds, hnumber', hhour, hminute, hsecond, hnumber]
  dsimp only
  rw [← hyear, ← hmonth]
  simp only [Int32.ofInt_toInt]
  rfl

end Normalised

/-! ### Adding -/

/-- Times stay far from the bounds of `time_t`. -/
theorem Tm.seconds_bounds (tm : Tm) : -2 ^ 60 ≤ tm.seconds ∧ tm.seconds < 2 ^ 60 := by
  have hyear := tm.year.le_toInt
  have hyear' := tm.year.toInt_lt
  have hmon := tm.mon.le_toInt
  have hmon' := tm.mon.toInt_lt
  have hmday := tm.mday.le_toInt
  have hmday' := tm.mday.toInt_lt
  have hhour := tm.hour.le_toInt
  have hhour' := tm.hour.toInt_lt
  have hmin := tm.min.le_toInt
  have hmin' := tm.min.toInt_lt
  have hsec := tm.sec.le_toInt
  have hsec' := tm.sec.toInt_lt
  simp only [Tm.seconds, dayNumber, daysBeforeYear, daysBeforeMonth]
  split <;> omega

section Add

variable {offset : Int32} {datetime : Datetime} {timespan timespan' : Timespan}

/-- A date with the fields of some seconds. -/
def Datetime.setSeconds (datetime : Datetime) (seconds : ℤ) : Datetime :=
  { datetimeOfTm datetime (tmOfSeconds seconds) with tzOffset := datetime.tzOffset }

theorem tmOfDatetime_setSeconds (datetime : Datetime) (seconds : ℤ) :
    tmOfDatetime (datetime.setSeconds seconds) = tmOfSeconds seconds := by
  simp [tmOfDatetime, Datetime.setSeconds, datetimeOfTm]

theorem setSeconds_setSeconds (datetime : Datetime) (seconds seconds' : ℤ) :
    (datetime.setSeconds seconds).setSeconds seconds' = datetime.setSeconds seconds' := by
  simp only [Datetime.setSeconds, datetimeOfTm]

/-- Added seconds stay in their field. -/
theorem toInt_addSeconds (sec : Int32) (hsec : 0 ≤ sec.toInt ∧ sec.toInt < 60)
    (hfit : timespan.SecondsFit) :
    (sec.toInt64 + timespan.microseconds / (1000 * 1000)).toInt32.toInt =
      sec.toInt + timespan.wholeSeconds := by
  unfold Timespan.SecondsFit at hfit
  rw [Int64.toInt_toInt32, Int64.toInt_add, toInt_seconds_div, Int32.toInt_toInt64,
    Int.bmod_eq_of_le (n := sec.toInt + timespan.wholeSeconds) (by omega) (by omega),
    Int.bmod_eq_of_le (by omega) (by omega)]

theorem mktime_gregorian (tm : Tm) :
    (Calendar.gregorian offset).mktime tm = Int64.ofInt (tm.seconds - offset.toInt) := rfl

/-- `mktime` leaves its argument with the fields of its seconds. -/
theorem localtime_mktime (tm : Tm) : (Calendar.gregorian offset).localtime
    ((Calendar.gregorian offset).mktime tm) = tmOfSeconds tm.seconds := by
  have hbounds := tm.seconds_bounds
  have hlo := offset.le_toInt
  have hhi := offset.toInt_lt
  simp only [Calendar.gregorian]
  rw [Int64.toInt_ofInt_of_le (by omega) (by omega), Int.sub_add_cancel]

/-- **What adding a timespan does**: its whole seconds are added. -/
theorem datetimeAddTimespan_eq
    (hsec : 0 ≤ datetime.seconds.toInt ∧ datetime.seconds.toInt < 60)
    (hfit : timespan.SecondsFit) :
    datetimeAddTimespan (.gregorian offset) datetime timespan =
      (Int64.ofInt ((tmOfDatetime datetime).seconds + timespan.wholeSeconds - offset.toInt),
        datetime.setSeconds ((tmOfDatetime datetime).seconds + timespan.wholeSeconds)) := by
  have hadd := toInt_addSeconds (tmOfDatetime datetime).sec hsec hfit
  have hseconds : Tm.seconds { tmOfDatetime datetime with
      sec := ((tmOfDatetime datetime).sec.toInt64 +
        timespan.microseconds / (1000 * 1000)).toInt32 } =
      (tmOfDatetime datetime).seconds + timespan.wholeSeconds := by
    simp only [Tm.seconds, hadd]
    omega
  simp only [datetimeAddTimespan]
  rw [localtime_mktime, mktime_gregorian, hseconds, Datetime.setSeconds]

/-- The seconds of a time are below 60. -/
theorem toInt_sec_tmOfSeconds (seconds : ℤ) :
    0 ≤ (tmOfSeconds seconds).sec.toInt ∧ (tmOfSeconds seconds).sec.toInt < 60 := by
  have hsec : (tmOfSeconds seconds).sec.toInt = seconds % 60 :=
    Int32.toInt_ofInt_of_le (by omega) (by omega)
  omega

/-- **Adding one timespan after the other** adds the seconds of both. -/
theorem datetimeAddTimespan_datetimeAddTimespan
    (hsec : 0 ≤ datetime.seconds.toInt ∧ datetime.seconds.toInt < 60)
    (hfit : timespan.SecondsFit) (hfit' : timespan'.SecondsFit)
    (hyear : YearFits ((tmOfDatetime datetime).seconds + timespan.wholeSeconds)) :
    datetimeAddTimespan (.gregorian offset)
        (datetimeAddTimespan (.gregorian offset) datetime timespan).2 timespan' =
      (Int64.ofInt ((tmOfDatetime datetime).seconds +
          (timespan.wholeSeconds + timespan'.wholeSeconds) - offset.toInt),
        datetime.setSeconds ((tmOfDatetime datetime).seconds +
          (timespan.wholeSeconds + timespan'.wholeSeconds))) := by
  have hmiddle := tmOfDatetime_setSeconds datetime
    ((tmOfDatetime datetime).seconds + timespan.wholeSeconds)
  have hsec' := toInt_sec_tmOfSeconds ((tmOfDatetime datetime).seconds + timespan.wholeSeconds)
  rw [← hmiddle] at hsec'
  rw [datetimeAddTimespan_eq hsec hfit, datetimeAddTimespan_eq hsec' hfit', hmiddle,
    seconds_tmOfSeconds hyear, setSeconds_setSeconds, Int.add_assoc]

/-- Adding no time leaves a date that has no milliseconds. -/
theorem setSeconds_seconds_eq_iff (h : datetime.Normalised) :
    datetime.setSeconds (tmOfDatetime datetime).seconds = datetime ↔ datetime.milliseconds = 0 := by
  have hfields : datetime.setSeconds (tmOfDatetime datetime).seconds =
      { datetime with milliseconds := 0 } := by
    rw [Datetime.setSeconds, tmOfSeconds_seconds h]
    simp [tmOfDatetime, datetimeOfTm]
  rw [hfields]
  constructor
  · intro heq
    rw [← heq]
  · intro hzero
    rw [← hzero]

/-- **When adding timespans is an action on dates**: their rests carry nothing, and the date has no
milliseconds. -/
theorem datetimeAddTimespan_action_iff (offset : Int32) (hdate : datetime.Normalised)
    (hfit : timespan.SecondsFit) (hfit' : timespan'.SecondsFit)
    (hfitAdd : (timespan.add timespan').SecondsFit)
    (hyear : YearFits ((tmOfDatetime datetime).seconds + timespan.wholeSeconds)) :
    (datetimeAddTimespan (.gregorian offset)
          (datetimeAddTimespan (.gregorian offset) datetime timespan).2 timespan' =
        datetimeAddTimespan (.gregorian offset) datetime (timespan.add timespan') ∧
      (datetimeAddTimespan (.gregorian offset) datetime .zero).2 = datetime) ↔
      NoCarry timespan timespan' ∧ datetime.milliseconds = 0 := by
  have hzero : Timespan.zero.wholeSeconds = 0 := by decide
  have hsplit := wholeSeconds_add_iff hfit hfit'
  have hbounds := (tmOfDatetime datetime).seconds_bounds
  have hlo := offset.le_toInt
  have hhi := offset.toInt_lt
  rw [datetimeAddTimespan_datetimeAddTimespan hdate.seconds hfit hfit' hyear,
    datetimeAddTimespan_eq hdate.seconds hfitAdd,
    datetimeAddTimespan_eq hdate.seconds (show Timespan.zero.SecondsFit by decide), hzero,
    Int.add_zero, setSeconds_seconds_eq_iff hdate, ← hsplit]
  unfold Timespan.SecondsFit at hfit hfit' hfitAdd
  constructor
  · rintro ⟨hsame, hmilliseconds⟩
    -- the times are those of the same seconds, which are in range
    have htimes := congrArg (fun result => (Prod.fst result).toInt) hsame
    dsimp only at htimes
    rw [Int64.toInt_ofInt_of_le (by omega) (by omega),
      Int64.toInt_ofInt_of_le (by omega) (by omega)] at htimes
    exact ⟨by omega, hmilliseconds⟩
  · rintro ⟨hsame, hmilliseconds⟩
    rw [hsame]
    exact ⟨rfl, hmilliseconds⟩

end Add

/-- The first instant of 1970 and some milliseconds. -/
def Datetime.newYear (milliseconds : Int32) : Datetime :=
  { year := 1970, month := 1, day := 1, milliseconds, hasValue := true }

theorem normalised_newYear : (Datetime.newYear 0).Normalised :=
  ⟨⟨by decide, by decide, by decide, by decide⟩, by decide, by decide, by decide, by decide,
    by decide⟩

/-- Adding a minute and taking a second away is adding 59 seconds. -/
theorem datetimeAddTimespan_action_minute :
    datetimeAddTimespan (.gregorian 0)
          (datetimeAddTimespan (.gregorian 0) (.newYear 0) (timespanSetSeconds 60)).2
          (timespanSetSeconds (-1)) =
        datetimeAddTimespan (.gregorian 0) (.newYear 0)
          ((timespanSetSeconds 60).add (timespanSetSeconds (-1))) ∧
      (datetimeAddTimespan (.gregorian 0) (.newYear 0) .zero).2 = .newYear 0 :=
  (datetimeAddTimespan_action_iff 0 normalised_newYear (by decide) (by decide) (by decide)
    (yearFits_of_bounds (by decide) (by decide))).2 (by decide)

/-- Two halves of a second add nothing, and adding nothing resets milliseconds. -/
theorem datetimeAddTimespan_halfSeconds :
    let half : Timespan := { microseconds := 500000, hasValue := true }
    (datetimeAddTimespan (.gregorian 0)
          (datetimeAddTimespan (.gregorian 0) (.newYear 0) half).2 half).1 = 0 ∧
      (datetimeAddTimespan (.gregorian 0) (.newYear 0) (half.add half)).1 = 1 ∧
      (datetimeAddTimespan (.gregorian 0) (.newYear 500) .zero).2.milliseconds = 0 ∧
      (datetimeAddTimespan (.gregorian 0) (.newYear 500) .zero).2 ≠ .newYear 500 := by
  decide +kernel

end NvIpfix
