/-
**The export interval.**

`export-interval hh:mm:ss` stores a duration in microseconds, and the daemon takes its seconds back
out to wait for them.  `NVIPFIX_TIMESPAN_SET_SECONDS` multiplies an `int` number of seconds by a
million before the product reaches the 64-bit field, so from 2148 seconds on the product does not
fit, and neither the stored duration nor the waiting time is what is written.

Main definitions:

* `NvIpfix.mainDaemonWaitSeconds` — the seconds the daemon waits for;
* `NvIpfix.IntervalText` — a duration as it is written;
* `NvIpfix.LastInterval` — the value that a file gives last to the export interval.

Main results:

* `NvIpfix.timespanOf_text` — what a written duration is stored as;
* `NvIpfix.nvipfixConfigRead_interval_iff` — it is stored and waited for exactly up to 2147 seconds.
-/

import NvIpfix.ConfigEffects
import NvIpfix.IsoDatetime
import NvIpfix.Time

set_option relaxedAutoImplicit false
set_option autoImplicit false

namespace NvIpfix

open CNumeral

/-! ### Waiting -/

/-- `nvipfix_config_get_export_interval`, of what has been read. -/
def nvipfixConfigGetExportInterval (config : ConfigState) : Timespan := config.exportInterval

/-- `waitSeconds` of `main_daemon`. -/
def mainDaemonWaitSeconds (config : ConfigState) : Int32 :=
  (timespanGetSeconds (nvipfixConfigGetExportInterval config)).toInt32

/-- The product of an `int` number of seconds wraps around. -/
theorem toInt_timespanSetSeconds (n : ℕ) :
    (timespanSetSeconds (Int32.ofNat n)).microseconds.toInt = (n * 1000000 : ℤ).bmod (2 ^ 32) := by
  -- the product is an `int`, and is widened only then
  have hmul : Int32.ofNat n * 1000 * 1000 = Int32.ofNat (n * 1000000) := by
    rw [Int32.ofNat_mul, Int32.mul_assoc]
    rfl
  rw [timespanSetSeconds, Int32.toInt_toInt64, hmul, Int32.toInt_ofNat']
  rw [Nat.cast_mul]
  rfl

/-- **The stored duration is exact up to 2147 seconds.** -/
theorem toInt_timespanSetSeconds_iff (n : ℕ) :
    (timespanSetSeconds (Int32.ofNat n)).microseconds.toInt = n * 1000000 ↔ n ≤ 2147 := by
  rw [toInt_timespanSetSeconds]
  -- a wrapped product is below `2 ^ 31`, which an exact one of more seconds is not
  have hlt : (n * 1000000 : ℤ).bmod (2 ^ 32) < (2 ^ 32 + 1) / 2 := Int.bmod_lt (by omega)
  constructor
  · intro h
    rw [h] at hlt
    omega
  · intro h
    rw [Int.bmod_eq_of_le (by omega) (by omega)]

/-- An exact duration gives its seconds back. -/
theorem toInt_timespanGetSeconds {n : ℕ} (hn : n ≤ 2147) :
    (timespanGetSeconds (timespanSetSeconds (Int32.ofNat n))).toInt32.toInt = n := by
  have hmicroseconds := (toInt_timespanSetSeconds_iff n).2 hn
  have hdiv : ((n * 1000000 : ℤ)).tdiv 1000000 = n := Int.mul_tdiv_cancel _ (by omega)
  have hmillion : (1000 * 1000 : Int64).toInt = 1000000 := rfl
  rw [timespanGetSeconds, Int64.toInt_toInt32, Int64.toInt_div, hmicroseconds, hmillion, hdiv,
    Int.bmod_eq_of_le (n := (n : ℤ)) (m := 2 ^ 64) (by omega) (by omega),
    Int.bmod_eq_of_le (by omega) (by omega)]

/-! ### Written durations -/

/-- Hours, minutes and seconds of at most `INT_MAX` seconds. -/
structure IntervalText where
  hours : Numeral
  minutes : Numeral
  seconds : Numeral
  minutes_lt : minutes.value < 60
  seconds_lt : seconds.value < 60
  total_le : hours.value * 3600 + minutes.value * 60 + seconds.value ≤ 2 ^ 31 - 1

namespace IntervalText

variable (interval : IntervalText)

/-- `hh:mm:ss`. -/
def text : CString :=
  interval.hours.text ++ 58 :: (interval.minutes.text ++ 58 :: interval.seconds.text)

/-- The seconds of the duration. -/
def total : ℕ :=
  interval.hours.value * 3600 + interval.minutes.value * 60 + interval.seconds.value

end IntervalText

/-- **What a written duration is stored as.** -/
theorem timespanOf_text (interval : IntervalText) :
    timespanOf interval.text = some (timespanSetSeconds (Int32.ofNat interval.total)) := by
  have hsplit : stringSplit interval.text (ascii ":") =
      some [interval.hours.text, interval.minutes.text, interval.seconds.text] :=
    (cutAt_three (.inr (by decide)) interval.hours interval.minutes
      interval.seconds).stringSplit_eq
  have htotal := interval.total_le
  have hhours := interval.hours.atoi_eq (by omega)
  have hminutes := interval.minutes.atoi_eq (by omega)
  have hseconds := interval.seconds.atoi_eq (by omega)
  -- the sum of seconds itself fits an `int`
  have hsum : Int32.ofNat interval.total =
      Int32.ofNat interval.hours.value * 60 * 60 + Int32.ofNat interval.minutes.value * 60 +
        Int32.ofNat interval.seconds.value := by
    rw [IntervalText.total, Int32.ofNat_add, Int32.ofNat_add, Int32.ofNat_mul, Int32.ofNat_mul,
      Int32.mul_assoc]
    rfl
  simp only [timespanOf, hsplit, hhours, hminutes, hseconds, hsum]

/-! ### Files -/

/-- The value is the last that the file gives to the export interval. -/
def LastInterval (text : List UInt8) (value : CString) : Prop :=
  ∃ before after, configActions text = before ++ .store .exportInterval value :: after ∧
    after.filterMap intervalGiven = []

/-- The interval that is stored behind a file. -/
theorem exportInterval_of_lastInterval (stack : CollectorInfo) {text : List UInt8}
    {value : CString} {timespan : Timespan} (h : LastInterval text value)
    (hvalue : timespanOf value = some timespan) :
    nvipfixConfigGetExportInterval (nvipfixConfigRead stack (some text)) = timespan := by
  obtain ⟨before, after, hactions, hafter⟩ := h
  have hdata := congrArg (fun d : ConfigData => d.view.exportInterval)
    (nvipfixConfigRead_data stack text)
  simp only [run_exportInterval, hactions, List.filterMap_append, List.filterMap_cons,
    intervalGiven, hvalue, hafter, List.getLast?_append, List.getLast?_singleton,
    Option.some_or, Option.getD_some] at hdata
  exact hdata

/-- **A written interval is stored and waited for exactly up to 2147 seconds.** -/
theorem nvipfixConfigRead_interval_iff (stack : CollectorInfo) {text : List UInt8}
    (interval : IntervalText) (h : LastInterval text interval.text) :
    ((nvipfixConfigRead stack (some text)).exportInterval.microseconds.toInt =
          interval.total * 1000000 ∧
        (mainDaemonWaitSeconds (nvipfixConfigRead stack (some text))).toInt = interval.total) ↔
      interval.total ≤ 2147 := by
  have hstored := exportInterval_of_lastInterval stack h (timespanOf_text interval)
  have hfield : (nvipfixConfigRead stack (some text)).exportInterval =
      timespanSetSeconds (Int32.ofNat interval.total) := hstored
  rw [mainDaemonWaitSeconds, hstored, hfield, toInt_timespanSetSeconds_iff]
  constructor
  · intro hexact
    exact hexact.1
  · intro htotal
    exact ⟨htotal, toInt_timespanGetSeconds htotal⟩

/-- A duration of minutes and seconds. -/
def IntervalText.ofMinutes (minutes seconds : ℕ) (hminutes : (Numeral.padded 2 minutes).value < 60)
    (hseconds : (Numeral.padded 2 seconds).value < 60) : IntervalText where
  hours := .padded 2 0
  minutes := .padded 2 minutes
  seconds := .padded 2 seconds
  minutes_lt := hminutes
  seconds_lt := hseconds
  total_le := by
    have hhours : (Numeral.padded 2 0).value = 0 := rfl
    omega

/-- A minute is stored and waited for exactly. -/
theorem nvipfixConfigRead_interval_minute :
    let config := nvipfixConfigRead {} (some (ascii "export-interval 00:01:00\n"))
    config.exportInterval.microseconds.toInt =
        (IntervalText.ofMinutes 1 0 (by decide) (by decide)).total * 1000000 ∧
      (mainDaemonWaitSeconds config).toInt =
        (IntervalText.ofMinutes 1 0 (by decide) (by decide)).total :=
  (nvipfixConfigRead_interval_iff {} (IntervalText.ofMinutes 1 0 (by decide) (by decide))
    ⟨[], [], by decide, rfl⟩).2 (by decide)

/-- 35 minutes and 48 seconds are stored as a negative duration. -/
theorem nvipfixConfigRead_interval_wraps :
    LastInterval (ascii "export-interval 00:35:48\n")
        (IntervalText.ofMinutes 35 48 (by decide) (by decide)).text ∧
      (IntervalText.ofMinutes 35 48 (by decide) (by decide)).total = 2148 ∧
      (nvipfixConfigRead {} (some (ascii "export-interval 00:35:48\n"))).exportInterval =
        { microseconds := -2146967296, hasValue := true } ∧
      mainDaemonWaitSeconds (nvipfixConfigRead {} (some (ascii "export-interval 00:35:48\n"))) =
        -2146 := by
  refine ⟨⟨[], [], ?_, ?_⟩, ?_, ?_, ?_⟩ <;> rfl

end NvIpfix
