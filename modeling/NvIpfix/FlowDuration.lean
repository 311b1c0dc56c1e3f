/-
**Exported flow durations.**

A flow duration is a 64-bit number of microseconds, and `nvipfix_timespan_get_milliseconds` divides
it by 1000.  The export record has 32 bits for the quotient, and the assignment keeps the lower half
of it: 2 ^ 32 milliseconds, which are not quite fifty days, are exported as none.

Main results:

* `NvIpfix.toNat_flowDurationMilliseconds` — the exported duration of a flow;
* `NvIpfix.exportData_durations_iff` — **when exported durations are exact and in order**.
-/

import NvIpfix.Export

set_option relaxedAutoImplicit false
set_option autoImplicit false

namespace NvIpfix

section FlowDuration

variable {record record' : DataRecord}

/-- The milliseconds of a duration that is not negative. -/
theorem toInt_timespanGetMilliseconds {timespan : Timespan} (hvalue : timespan.hasValue = true)
    (hpos : 0 ≤ timespan.microseconds.toInt) :
    (timespanGetMilliseconds timespan).toInt = timespan.microseconds.toInt / 1000 := by
  have hthousand : (1000 : Int64).toInt = 1000 := rfl
  have hhi := timespan.microseconds.toInt_lt
  rw [timespanGetMilliseconds, if_pos hvalue, Int64.toInt_div, hthousand,
    Int.tdiv_eq_ediv_of_nonneg hpos, Int.bmod_eq_of_le (by omega) (by omega)]

/-- **The exported duration** is the lower half of the milliseconds. -/
theorem toNat_flowDurationMilliseconds (calendar : Calendar) (startTs endTs : UInt32)
    (hvalue : record.flowDuration.hasValue = true)
    (hpos : 0 ≤ record.flowDuration.microseconds.toInt) :
    ((exportData calendar startTs endTs record).flowDurationMilliseconds.toNat : ℤ) =
      record.flowDuration.microseconds.toInt / 1000 % 2 ^ 32 := by
  have hmilliseconds := toInt_timespanGetMilliseconds hvalue hpos
  have hquotient : 0 ≤ timespanGetMilliseconds record.flowDuration := by
    rw [Int64.le_iff_toInt_le, hmilliseconds, Int64.toInt_zero]
    omega
  rw [exportData, UInt64.toNat_toUInt32, Int64.toNat_toUInt64_of_le hquotient, Int64.toNatClampNeg,
    hmilliseconds]
  omega

/-- **When exported durations are exact and in order**: the longer one, and with it the other, has
fewer than `2 ^ 32` milliseconds. -/
theorem exportData_durations_iff (calendar : Calendar) (startTs endTs startTs' endTs' : UInt32)
    (hvalue : record.flowDuration.hasValue = true) (hvalue' : record'.flowDuration.hasValue = true)
    (hpos : 0 ≤ record.flowDuration.microseconds.toInt)
    (hle : record.flowDuration.microseconds.toInt ≤ record'.flowDuration.microseconds.toInt) :
    ((exportData calendar startTs endTs record).flowDurationMilliseconds ≤
          (exportData calendar startTs' endTs' record').flowDurationMilliseconds ∧
        ((exportData calendar startTs endTs record).flowDurationMilliseconds.toNat : ℤ) =
          record.flowDuration.microseconds.toInt / 1000 ∧
        ((exportData calendar startTs' endTs' record').flowDurationMilliseconds.toNat : ℤ) =
          record'.flowDuration.microseconds.toInt / 1000) ↔
      record'.flowDuration.microseconds.toInt < 2 ^ 32 * 1000 := by
  have hfirst := toNat_flowDurationMilliseconds calendar startTs endTs hvalue hpos
  have hsecond := toNat_flowDurationMilliseconds calendar startTs' endTs' hvalue' (hpos.trans hle)
  rw [UInt32.le_iff_toNat_le]
  constructor
  · rintro ⟨-, -, hexact⟩
    rw [hsecond] at hexact
    omega
  · intro hlt
    omega

end FlowDuration

/-- A record of a flow of some microseconds. -/
def DataRecord.lasting (microseconds : Int64) : DataRecord :=
  { flowDuration := { microseconds, hasValue := true } }

/-- A second and a minute are exported exactly and in order. -/
theorem exportData_durations_minute :
    (exportData .epoch 0 0 (.lasting 1000000)).flowDurationMilliseconds ≤
        (exportData .epoch 0 0 (.lasting 60000000)).flowDurationMilliseconds ∧
      ((exportData .epoch 0 0 (.lasting 1000000)).flowDurationMilliseconds.toNat : ℤ) =
        (DataRecord.lasting 1000000).flowDuration.microseconds.toInt / 1000 ∧
      ((exportData .epoch 0 0 (.lasting 60000000)).flowDurationMilliseconds.toNat : ℤ) =
        (DataRecord.lasting 60000000).flowDuration.microseconds.toInt / 1000 :=
  (exportData_durations_iff .epoch 0 0 0 0 rfl rfl (by decide) (by decide)).2 (by decide)

/-- Fifty days are exported as a shorter time than a week. -/
theorem exportData_durations_fiftyDays :
    (exportData .epoch 0 0 (.lasting 604800000000)).flowDurationMilliseconds = 604800000 ∧
      (exportData .epoch 0 0 (.lasting 4320000000000)).flowDurationMilliseconds = 25032704 ∧
      ¬ (exportData .epoch 0 0 (.lasting 604800000000)).flowDurationMilliseconds ≤
        (exportData .epoch 0 0 (.lasting 4320000000000)).flowDurationMilliseconds := by
  refine ⟨?_, ?_, ?_⟩ <;> decide

end NvIpfix
