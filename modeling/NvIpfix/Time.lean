/-
**Dates and the C library's calendar.**

The conversions of `types.c` between `nvIPFIX_datetime_t` and `time_t`.  The calendar itself is the
C library's: `mktime`, `localtime` and `gmtime` of the host's time zone are a parameter, and
whatever a result says about a calendar is a hypothesis on it.

Main definitions:

* `NvIpfix.Tm` — the fields of `struct tm` that the program uses;
* `NvIpfix.Calendar` — the time functions of the C library;
* `NvIpfix.datetimeGetSecondsSinceEpoch`, `NvIpfix.datetimeToCtime`, `NvIpfix.ctimeToDatetime`;
* `NvIpfix.timespanGetMilliseconds`, `NvIpfix.timespanGetMicroseconds`.
-/

import NvIpfix.Parse

set_option relaxedAutoImplicit false
set_option autoImplicit false

namespace NvIpfix

/-- `time_t`. -/
abbrev Ctime := Int64

/-- The fields of `struct tm` that are set and read. -/
structure Tm where
  year : Int32 := 0
  mon : Int32 := 0
  mday : Int32 := 0
  hour : Int32 := 0
  min : Int32 := 0
  sec : Int32 := 0
  deriving DecidableEq, Repr

/-- The time functions of the C library in the host's time zone. -/
structure Calendar where
  mktime : Tm → Ctime
  localtime : Ctime → Tm
  gmtime : Ctime → Tm

/-- A calendar that knows one time only. -/
def Calendar.epoch : Calendar where
  mktime _ := 0
  localtime _ := {}
  gmtime _ := {}

/-- `NVIPFIX_TM_INIT_FROM_DT`. -/
def tmOfDatetime (datetime : Datetime) : Tm where
  year := datetime.year - 1900
  mon := datetime.month - 1
  mday := datetime.day
  hour := datetime.hours
  min := datetime.minutes
  sec := datetime.seconds

/-- `NVIPFIX_DT_FROM_TM`, into the previous content of the date. -/
def datetimeOfTm (datetime : Datetime) (tm : Tm) : Datetime :=
  { datetime with
    year := tm.year + 1900
    month := tm.mon + 1
    day := tm.mday
    hours := tm.hour
    minutes := tm.min
    seconds := tm.sec
    milliseconds := 0
    tzOffset := timespanSetSeconds 0 }

/-- `nvipfix_datetime_to_ctime`. -/
def datetimeToCtime (calendar : Calendar) (datetime : Datetime) : Ctime :=
  calendar.mktime (tmOfDatetime datetime)

/-- `nvipfix_datetime_get_seconds_since_epoch`.  `difftime` is a `double`, exact on the differences
that fit the result. -/
def datetimeGetSecondsSinceEpoch (calendar : Calendar) (datetime : Datetime)
    (epochYear epochMonth : Int32) : UInt32 :=
  let epoch : Tm := { year := epochYear - 1900, mon := epochMonth - 1, mday := 1 }
  UInt32.ofInt ((calendar.mktime (tmOfDatetime datetime)).toInt - (calendar.mktime epoch).toInt)

/-- `nvipfix_ctime_to_datetime`, whose result is always true: the product of the offset is a
`double`, stored as a whole number of microseconds. -/
def ctimeToDatetime (calendar : Calendar) (datetime : Datetime) (ctime : Ctime) :
    Bool × Datetime :=
  let tzOffset := (calendar.mktime (calendar.gmtime ctime)).toInt - ctime.toInt
  (true, { datetimeOfTm datetime (calendar.localtime ctime) with
    tzOffset := { microseconds := Int64.ofInt (tzOffset * 1000 * 1000), hasValue := true }
    hasValue := true })

/-- `nvipfix_timespan_get_milliseconds`. -/
def timespanGetMilliseconds (timespan : Timespan) : Int64 :=
  if timespan.hasValue then timespan.microseconds / 1000 else 0

/-- `nvipfix_timespan_get_microseconds`. -/
def timespanGetMicroseconds (timespan : Timespan) : Int64 :=
  if timespan.hasValue then timespan.microseconds else 0

/-- `NVIPFIX_TIMESPAN_GET_SECONDS`. -/
def timespanGetSeconds (timespan : Timespan) : Int64 := timespan.microseconds / (1000 * 1000)

end NvIpfix
