/-
**Dates in a zone with daylight saving.**

`localtime` breaks an instant down by the offset in force at it, and says in `tm_isdst` whether that
is the one of daylight saving.  `nvIPFIX_datetime_t` has no place for the flag, and every
`struct tm` that the program gives to `mktime` has it zero, which asks for standard time.  So an
instant at which daylight saving is in force comes back later by what daylight saving adds.

Main definitions:

* `NvIpfix.Zone` — a standard offset, a daylight saving offset, and when the latter is in force;
* `NvIpfix.Zone.calendar` — the time functions of a zone as the program calls them.

Main results:

* `NvIpfix.datetimeToCtime_zone` — the instant that comes back;
* `NvIpfix.datetimeToCtime_zone_iff` — **when it is the instant that went in**;
* `NvIpfix.Zone.mktime_localtime` — with the flag it always would be.
-/

import NvIpfix.FlowTime

set_option relaxedAutoImplicit false
set_option autoImplicit false

namespace NvIpfix

/-! ### Zones -/

/-- A time zone: two offsets from UTC in seconds, and the instants at which daylight saving is in
force. -/
structure Zone where
  standard : Int32
  daylight : Int32
  inForce : Ctime → Bool

namespace Zone

variable (zone : Zone) (t : Ctime)

/-- The offset of standard time, or that of daylight saving. -/
def offset (isDst : Bool) : ℤ := if isDst then zone.daylight.toInt else zone.standard.toInt

/-- The seconds that the local time of an instant is from the first day on. -/
def localSeconds : ℤ := t.toInt + zone.offset (zone.inForce t)

/-- `localtime`, without the flag. -/
def localtime : Tm := tmOfSeconds (zone.localSeconds t)

/-- `mktime` of a time with `tm_isdst` zero or positive. -/
def mktime (isDst : Bool) (tm : Tm) : Ctime := Int64.ofInt (tm.seconds - zone.offset isDst)

/-- The time functions of the zone, where `tm_isdst` is always zero: the program clears each
`struct tm` it fills, and `gmtime` does not set the flag. -/
def calendar : Calendar where
  mktime := zone.mktime false
  localtime := zone.localtime
  gmtime ctime := tmOfSeconds ctime.toInt

/-- The local time of the instant has a year that fits `struct tm`. -/
def Represents : Prop := YearFits (zone.localSeconds t)

end Zone

section RoundTrip

variable {zone : Zone} {t : Ctime}

/-- With the flag that `localtime` returns, `mktime` undoes it. -/
theorem Zone.mktime_localtime (h : zone.Represents t) :
    zone.mktime (zone.inForce t) (zone.localtime t) = t := by
  rw [Zone.mktime, Zone.localtime, seconds_tmOfSeconds h, Zone.localSeconds, Int.add_sub_cancel,
    Int64.ofInt_toInt]

/-- **The instant that comes back** is off by what daylight saving adds. -/
theorem datetimeToCtime_zone (h : zone.Represents t) (datetime : Datetime) :
    datetimeToCtime zone.calendar (ctimeToDatetime zone.calendar datetime t).2 =
      Int64.ofInt (t.toInt + (zone.offset (zone.inForce t) - zone.offset false)) := by
  rw [datetimeToCtime, tmOfDatetime_ctimeToDatetime]
  -- the fields of the date are those of the local time, but the flag is gone
  change zone.mktime false (zone.localtime t) = _
  rw [Zone.mktime, Zone.localtime, seconds_tmOfSeconds h, Zone.localSeconds, Int.add_sub_assoc]

/-- Instants that differ by less than `2 ^ 64` are different. -/
theorem ofInt_add_eq_iff {d : ℤ} (hlo : -2 ^ 63 ≤ d) (hhi : d < 2 ^ 63) :
    Int64.ofInt (t.toInt + d) = t ↔ d = 0 := by
  rw [Int64.ofInt_add, Int64.ofInt_toInt, Int64.add_eq_left, ← Int64.toInt_inj,
    Int64.toInt_ofInt_of_le hlo hhi, Int64.toInt_zero]

/-- **When the instant that went in comes back**: daylight saving is not in force at it, or adds
nothing. -/
theorem datetimeToCtime_zone_iff (h : zone.Represents t) (datetime : Datetime) :
    datetimeToCtime zone.calendar (ctimeToDatetime zone.calendar datetime t).2 = t ↔
      zone.inForce t = false ∨ zone.daylight = zone.standard := by
  have hdaylight := zone.daylight.toInt_lt
  have hdaylight' := zone.daylight.le_toInt
  have hstandard := zone.standard.toInt_lt
  have hstandard' := zone.standard.le_toInt
  rw [datetimeToCtime_zone h]
  cases hforce : zone.inForce t with
  | false => simp [Int64.ofInt_toInt]
  | true =>
      simp only [Zone.offset, Bool.false_eq_true, if_true, if_false, false_or, reduceCtorEq]
      rw [ofInt_add_eq_iff (by omega) (by omega), ← Int32.toInt_inj, Int.sub_eq_zero]

end RoundTrip

/-! ### A zone -/

/-- Central European Time in 2015. -/
def Zone.centralEurope : Zone where
  standard := 3600
  daylight := 7200
  inForce t := 1427590800 ≤ t && t < 1445734800

/-- The first of January 2015 comes back. -/
theorem datetimeToCtime_zone_winter :
    datetimeToCtime Zone.centralEurope.calendar
      (ctimeToDatetime Zone.centralEurope.calendar {} 1420066800).2 = 1420066800 :=
  (datetimeToCtime_zone_iff (yearFits_of_bounds (by decide) (by decide)) {}).2 (.inl (by decide))

/-- The fourth of July 2015 comes back one hour later. -/
theorem datetimeToCtime_zone_summer :
    Zone.centralEurope.Represents 1436000000 ∧
      datetimeToCtime Zone.centralEurope.calendar
        (ctimeToDatetime Zone.centralEurope.calendar {} 1436000000).2 = 1436003600 := by
  have h : Zone.centralEurope.Represents 1436000000 :=
    yearFits_of_bounds (by decide) (by decide)
  refine ⟨h, ?_⟩
  rw [datetimeToCtime_zone h]
  decide

end NvIpfix
