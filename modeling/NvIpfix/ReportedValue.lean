/-
**What a parser returns and what its destination says.**

An address, a date and a timespan carry a flag that says whether they hold a value, and their
parsers return whether they found one.  The consumers read the flag: a collector needs one of its
address, and exported times depend on those of the flow.  The two agree on most texts.  But the
address parsers return early on the empty text, which the splitter has no list for, and
`nvipfix_parse_timespan` never sets its result, while the macro it stores with sets the flag.

Main definitions:

* `NvIpfix.Reports` — the flag of the destination is what the parser returns.

Main results:

* `NvIpfix.reports_parseIpAddress`, `NvIpfix.reports_parseMacAddress`,
  `NvIpfix.reports_parseTimespan` — when these three report what they return;
* `NvIpfix.reports_iff` — **when the six parsers do**.
-/

import NvIpfix.AddressText

set_option relaxedAutoImplicit false
set_option autoImplicit false

namespace NvIpfix

/-- Behind the call, the flag of the destination is what the parser has returned. -/
def Reports {β : Type} (parseValue : ParseValue β) (hasValue : β → Bool) (s : CString) (old : β) :
    Prop :=
  hasValue (parseValue s old).2 = (parseValue s old).1

/-! ### Early returns -/

section Addresses

variable (s : CString)

/-- The splitter has no list for the empty text, and the destination is left as it was. -/
theorem parseIpAddress_nil (address : IpAddress) : parseIpAddress [] address = (false, address) :=
  rfl

theorem parseMacAddress_nil (address : MacAddress) :
    parseMacAddress [] address = (false, address) :=
  rfl

/-- A parser that leaves its destination on the empty text, and reports on any other. -/
theorem reports_iff_of_nil {β : Type} {parseValue : ParseValue β} {hasValue : β → Bool} {old : β}
    (hnil : parseValue [] old = (false, old))
    (hreports : s ≠ [] → Reports parseValue hasValue s old) :
    Reports parseValue hasValue s old ↔ s ≠ [] ∨ hasValue old = false := by
  by_cases hs : s = []
  · subst hs
    rw [Reports, hnil]
    simp
  · simp [hreports hs, hs]

theorem reports_parseIpAddress (address : IpAddress) :
    Reports parseIpAddress IpAddress.hasValue s address ↔ s ≠ [] ∨ address.hasValue = false := by
  refine reports_iff_of_nil s (parseIpAddress_nil address) fun hs => ?_
  rw [Reports, parseIpAddress, stringSplit_eq_some hs]
  dsimp only
  split <;> rfl

theorem reports_parseMacAddress (address : MacAddress) :
    Reports parseMacAddress MacAddress.hasValue s address ↔ s ≠ [] ∨ address.hasValue = false := by
  refine reports_iff_of_nil s (parseMacAddress_nil address) fun hs => ?_
  rw [Reports, parseMacAddress, stringSplit_eq_some hs]
  dsimp only
  split <;> rfl

end Addresses

/-! ### Timespans -/

section Timespans

variable {s : CString}

/-- Three fields are stored, and false is returned. -/
theorem CutAt.parseTimespan_eq {hours minutes seconds : CString}
    (h : CutAt 58 s [hours, minutes, seconds]) (timespan : Timespan) : parseTimespan s timespan =
      (false, timespanSetSeconds
        (CNumeral.atoi hours * 60 * 60 + CNumeral.atoi minutes * 60 + CNumeral.atoi seconds)) := by
  have hsplit : stringSplit s (ascii ":") = some [hours, minutes, seconds] := h.stringSplit_eq
  simp only [parseTimespan, hsplit]

/-- Any other text leaves the destination as it was. -/
theorem parseTimespan_of_not_cut (h : ∀ fields, CutAt 58 s fields → fields.length ≠ 3)
    (timespan : Timespan) : parseTimespan s timespan = (false, timespan) := by
  have hcolon : ascii ":" = [58] := rfl
  rw [parseTimespan, hcolon]
  split
  · rename_i hours minutes seconds hsplit
    exact absurd rfl (h _ (stringSplit_eq_some_iff.1 hsplit))
  · rfl

theorem reports_parseTimespan (s : CString) (timespan : Timespan) :
    Reports parseTimespan Timespan.hasValue s timespan ↔
      (∀ fields, CutAt 58 s fields → fields.length ≠ 3) ∧ timespan.hasValue = false := by
  by_cases h : ∀ fields, CutAt 58 s fields → fields.length ≠ 3
  · rw [Reports, parseTimespan_of_not_cut h, and_iff_right h]
  · -- the macro has set the flag
    have hreports : ¬ Reports parseTimespan Timespan.hasValue s timespan := by
      push Not at h
      obtain ⟨fields, hcut, hlength⟩ := h
      obtain ⟨hours, minutes, seconds, rfl⟩ := List.length_eq_three.1 hlength
      rw [Reports, hcut.parseTimespan_eq]
      simp [timespanSetSeconds]
    simp only [hreports, h, false_and]

end Timespans

/-- **When the flag of the destination is what the parser returns.**  The date parser sets it in its
last statement, and the parsers of milliseconds and microseconds always succeed. -/
theorem reports_iff (s : CString) :
    (∀ address, Reports parseIpAddress IpAddress.hasValue s address ↔
        s ≠ [] ∨ address.hasValue = false) ∧
      (∀ address, Reports parseMacAddress MacAddress.hasValue s address ↔
        s ≠ [] ∨ address.hasValue = false) ∧
      (∀ datetime, Reports parseDatetimeIso8601 Datetime.hasValue s datetime) ∧
      (∀ timespan, Reports parseTimespan Timespan.hasValue s timespan ↔
        (∀ fields, CutAt 58 s fields → fields.length ≠ 3) ∧ timespan.hasValue = false) ∧
      (∀ timespan, Reports parseTimespanMilliseconds Timespan.hasValue s timespan) ∧
      ∀ timespan, Reports parseTimespanMicroseconds Timespan.hasValue s timespan :=
  ⟨reports_parseIpAddress s, reports_parseMacAddress s, fun _ => rfl, reports_parseTimespan s,
    fun _ => rfl, fun _ => rfl⟩

/-- An empty address text leaves the flag of the address before, and a timespan of one minute is
stored but not reported. -/
theorem reports_oneMinute :
    parseIpAddress [] { hasValue := true } = (false, { hasValue := true }) ∧
      ¬ Reports parseIpAddress IpAddress.hasValue [] { hasValue := true } ∧
      parseTimespan (ascii "00:01:00") {} =
        (false, { microseconds := 60000000, hasValue := true }) ∧
      ¬ Reports parseTimespan Timespan.hasValue (ascii "00:01:00") {} := by
  have htimespan : parseTimespan (ascii "00:01:00") {} =
      (false, { microseconds := 60000000, hasValue := true }) := by decide
  refine ⟨rfl, ?_, htimespan, ?_⟩
  · rw [Reports, parseIpAddress_nil]
    decide
  · rw [Reports, htimespan]
    decide

end NvIpfix
