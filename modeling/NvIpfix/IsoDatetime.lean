/-
**Date and time texts.**

`nvipfix_parse_datetime_iso8601` accepts a text by the numbers of tokens alone: `T` must cut it into
two, `-` the first of them into three and `:` the second into three.  Its number parser succeeds on
every string, so no field is ever rejected.  The splitter merges delimiters, ignores leading ones
and one trailing one, and turns more trailing ones into an empty token; `CutAt` is this reading of a
text as a grammar.  The number parser detects the base, so a field filled up with zeros is read as
octal: `08` and `09` are zero.

Main definitions:

* `NvIpfix.CutAt` — how one delimiter cuts a text into fields;
* `NvIpfix.CutInto` — a text and the six fields that the parser reads of it;
* `NvIpfix.WellFormed` — the texts of the documented form with fields in range;
* `NvIpfix.IsoFields` — a date and time to be written `YYYY-MM-DDTHH:mm:SS`.

Main results:

* `NvIpfix.stringSplit_eq_some_iff` — **the splitter computes the grammar**;
* `NvIpfix.parseDatetimeIso8601_fst_iff` — the parser accepts by the numbers of fields;
* `NvIpfix.parseDatetimeIso8601_wellFormed_iff` — when acceptance means well-formed;
* `NvIpfix.parseDatetimeIso8601_text_iff` — the fields are read exactly unless one of the last five
  is eight or nine.
-/

import NvIpfix.Parse

set_option relaxedAutoImplicit false
set_option autoImplicit false

namespace NvIpfix

open CNumeral

/-! ### Fields between delimiters -/

/-- How the delimiter `d` cuts a text into fields: a field ends at a delimiter or at the end,
further delimiters before a field are skipped, and a last delimiter that ends no field is an empty
field. -/
inductive CutAt (d : UInt8) : CString → List CString → Prop where
  | skip {s : CString} {fields : List CString} : CutAt d s fields → CutAt d (d :: s) fields
  | blank : CutAt d [d] [[]]
  | last {field : CString} : field ≠ [] → d ∉ field → CutAt d field [field]
  | closed {field : CString} : field ≠ [] → d ∉ field → CutAt d (field ++ [d]) [field]
  | cons {field s : CString} {fields : List CString} : field ≠ [] → d ∉ field → CutAt d s fields →
      CutAt d (field ++ d :: s) (field :: fields)

variable {d : UInt8} {s field : CString} {fields : List CString}

theorem CutAt.ne_nil (h : CutAt d s fields) : s ≠ [] := by
  cases h with
  | skip => simp
  | blank => simp
  | last hne => exact hne
  | closed hne => simp
  | cons hne => simp

theorem free_singleton_iff : Free [d] s ↔ d ∉ s := by
  constructor
  · intro h hd
    exact h d hd (by simp)
  · intro h
    exact free_of_not_mem (by simp) h

/-- A delimiter before a further character is skipped. -/
theorem splitFrom_nil_cons (hs : s ≠ []) :
    splitFrom (inCharset [d]) [] (d :: s) = splitFrom (inCharset [d]) [] s := by
  obtain ⟨c, cs, rfl⟩ := List.exists_cons_of_ne_nil hs
  rw [splitFrom_cons_cons, inCharset_iff.2 (by simp), if_pos rfl, if_pos rfl]

/-- A field in front of a delimiter and a further character is the first token. -/
theorem splitFrom_append_cons (hfree : d ∉ field) (hs : s ≠ []) (token : CString)
    (hne : token ++ field ≠ []) : splitFrom (inCharset [d]) token (field ++ d :: s) =
      (token ++ field) :: splitFrom (inCharset [d]) [] s := by
  obtain ⟨e, es, rfl⟩ := List.exists_cons_of_ne_nil hs
  induction field generalizing token with
  | nil =>
      rw [List.append_nil] at hne
      rw [List.nil_append, splitFrom_cons_cons, inCharset_iff.2 (by simp), if_pos rfl, if_neg hne,
        List.append_nil]
  | cons c cs ih =>
      have hc : inCharset [d] c = false := by
        rw [inCharset_eq_false_iff, List.mem_singleton]
        intro hcd
        exact hfree (by simp [hcd])
      obtain ⟨f, fs, hfs⟩ := List.exists_cons_of_ne_nil (show cs ++ d :: e :: es ≠ [] by simp)
      rw [List.cons_append, hfs, splitFrom_cons_cons, hc, if_neg (by simp), ← hfs,
        ih (fun h => hfree (by simp [h])) (token ++ [c]) (by simp), ← List.append_cons]

/-- The splitter returns the fields of a derivation. -/
theorem CutAt.stringSplit_eq (h : CutAt d s fields) : stringSplit s [d] = some fields := by
  induction h with
  | skip h ih =>
      rw [stringSplit_eq_some h.ne_nil] at ih
      rw [stringSplit_eq_some (by simp), splitFrom_nil_cons h.ne_nil, ih]
  | blank => rw [stringSplit_eq_some (by simp), splitFrom, inCharset_iff.2 (by simp), if_pos rfl]
  | last hne hfree => exact stringSplit_of_free hne (free_singleton_iff.2 hfree)
  | closed hne hfree =>
      exact stringSplit_append_singleton hne (free_singleton_iff.2 hfree) (by simp)
  | cons hne hfree h ih =>
      rw [stringSplit_eq_some h.ne_nil, Option.some_inj] at ih
      rw [stringSplit_eq_some (by simp),
        splitFrom_append_cons hfree h.ne_nil [] (by simpa using hne), ih, List.nil_append]

/-- Every text with a character has a derivation. -/
theorem exists_cutAt (hs : s ≠ []) : ∃ fields, CutAt d s fields := by
  induction s using Tokens.induction_cut (inCharset [d]) with
  | free s hfree =>
      have hd : d ∉ s := fun h => inCharset_eq_false_iff.1 (hfree d h) (by simp)
      exact ⟨[s], .last hs hd⟩
  | cut field c s hfree hc ih =>
      obtain rfl : c = d := by simpa using hc
      have hd : c ∉ field := fun h => inCharset_eq_false_iff.1 (hfree c h) (by simp)
      by_cases hsn : s = []
      · -- the delimiter is the last character: it closes a field, or is an empty one
        subst hsn
        by_cases hfn : field = []
        · subst hfn
          exact ⟨[[]], .blank⟩
        · exact ⟨[field], .closed hfn hd⟩
      · obtain ⟨fields, h⟩ := ih hsn
        by_cases hfn : field = []
        · subst hfn
          exact ⟨fields, h.skip⟩
        · exact ⟨field :: fields, h.cons hfn hd⟩

/-- **The splitter computes the grammar.** -/
theorem stringSplit_eq_some_iff : stringSplit s [d] = some fields ↔ CutAt d s fields := by
  constructor
  · intro h
    have hs : s ≠ [] := by
      rintro rfl
      rw [stringSplit_eq_none_iff.2 rfl] at h
      cases h
    obtain ⟨fields', hcut⟩ := exists_cutAt (d := d) hs
    rw [hcut.stringSplit_eq, Option.some_inj] at h
    rwa [h] at hcut
  · exact CutAt.stringSplit_eq

/-- A text is cut in one way. -/
theorem CutAt.unique {fields' : List CString} (h : CutAt d s fields) (h' : CutAt d s fields') :
    fields = fields' :=
  Option.some.inj (h.stringSplit_eq.symm.trans h'.stringSplit_eq)

/-! ### Accepted texts -/

/-- The fields of a date and a time. -/
structure DatetimeFields where
  year : CString
  month : CString
  day : CString
  hours : CString
  minutes : CString
  seconds : CString

namespace DatetimeFields

/-- The fields with their delimiters, one between two fields. -/
def text (f : DatetimeFields) : CString :=
  f.year ++ 45 :: (f.month ++ 45 :: f.day) ++
    84 :: (f.hours ++ 58 :: (f.minutes ++ 58 :: f.seconds))

/-- What the number parser makes of the fields. -/
def datetime (f : DatetimeFields) : Datetime where
  year := datetimeField f.year
  month := datetimeField f.month
  day := datetimeField f.day
  hours := datetimeField f.hours
  minutes := datetimeField f.minutes
  seconds := datetimeField f.seconds
  milliseconds := 0
  tzOffset := timespanSetSeconds 0
  hasValue := true

/-- The fields are decimal numerals, and all but the year are in range. -/
def Valid (f : DatetimeFields) : Prop :=
  ∃ year month day hours minutes seconds : Numeral,
    f = ⟨year.text, month.text, day.text, hours.text, minutes.text, seconds.text⟩ ∧
      (1 ≤ month.value ∧ month.value ≤ 12) ∧ (1 ≤ day.value ∧ day.value ≤ 31) ∧
        hours.value < 24 ∧ minutes.value < 60 ∧ seconds.value < 60

end DatetimeFields

/-- `T` cuts the text into two fields, `-` the first into three, and `:` the second into three. -/
def CutInto (s : CString) (f : DatetimeFields) : Prop :=
  ∃ date time, CutAt 84 s [date, time] ∧ CutAt 45 date [f.year, f.month, f.day] ∧
    CutAt 58 time [f.hours, f.minutes, f.seconds]

/-- Three decimal fields joined by `-`, a `T`, and three decimal fields joined by `:`, with all but
the year in range. -/
def WellFormed (s : CString) : Prop := ∃ f : DatetimeFields, f.Valid ∧ s = f.text

theorem CutInto.unique {f f' : DatetimeFields} (h : CutInto s f) (h' : CutInto s f') : f = f' := by
  obtain ⟨date, time, hs, hdate, htime⟩ := h
  obtain ⟨date', time', hs', hdate', htime'⟩ := h'
  obtain ⟨rfl, rfl⟩ : date = date' ∧ time = time' := by simpa using hs.unique hs'
  have hdates := hdate.unique hdate'
  have htimes := htime.unique htime'
  obtain ⟨year, month, day, hours, minutes, seconds⟩ := f
  obtain ⟨year', month', day', hours', minutes', seconds'⟩ := f'
  simp_all

/-- **The parser reads the fields of a text that is cut into them.** -/
theorem CutInto.parseDatetimeIso8601_eq {f : DatetimeFields} (h : CutInto s f)
    (datetime : Datetime) : parseDatetimeIso8601 s datetime = (true, f.datetime) := by
  obtain ⟨date, time, hs, hdate, htime⟩ := h
  have hs : stringSplit s (ascii "T") = some [date, time] := hs.stringSplit_eq
  have hdate : stringSplit date (ascii "-") = some [f.year, f.month, f.day] := hdate.stringSplit_eq
  have htime : stringSplit time (ascii ":") = some [f.hours, f.minutes, f.seconds] :=
    htime.stringSplit_eq
  simp only [parseDatetimeIso8601, hs, hdate, htime]
  rfl

/-- **The parser accepts by the numbers of fields.** -/
theorem parseDatetimeIso8601_fst_iff (s : CString) (datetime : Datetime) :
    (parseDatetimeIso8601 s datetime).1 = true ↔ ∃ f, CutInto s f := by
  constructor
  · intro h
    unfold parseDatetimeIso8601 at h
    split at h
    rename_i result _ hresult
    obtain rfl : result = true := h
    -- every branch but the innermost one returns false
    split at hresult
    · rename_i date time hs
      split at hresult
      · rename_i year month day hdate
        split at hresult
        · rename_i hours minutes seconds htime
          exact ⟨⟨year, month, day, hours, minutes, seconds⟩, date, time,
            stringSplit_eq_some_iff.1 hs, stringSplit_eq_some_iff.1 hdate,
            stringSplit_eq_some_iff.1 htime⟩
        · cases hresult
      · cases hresult
    · cases hresult
  · rintro ⟨f, hcut⟩
    rw [hcut.parseDatetimeIso8601_eq]

/-- Three fields with a delimiter after each of the first two. -/
theorem cutAt_three {d : UInt8} (hd : d < 48 ∨ 57 < d) (a b c : Numeral) :
    CutAt d (a.text ++ d :: (b.text ++ d :: c.text)) [a.text, b.text, c.text] :=
  .cons a.ne_nil (a.not_mem hd) (.cons b.ne_nil (b.not_mem hd) (.last c.ne_nil (c.not_mem hd)))

/-- Numerals with their delimiters are cut into them. -/
theorem cutInto_text (year month day hours minutes seconds : Numeral) :
    CutInto
      (DatetimeFields.text
        ⟨year.text, month.text, day.text, hours.text, minutes.text, seconds.text⟩)
      ⟨year.text, month.text, day.text, hours.text, minutes.text, seconds.text⟩ := by
  have hfree : ∀ n : Numeral, 84 ∉ n.text := Numeral.not_mem (.inr (by decide))
  refine ⟨_, _, .cons (by simp) ?_ (.last (by simp) ?_), cutAt_three (.inl (by decide)) _ _ _,
    cutAt_three (.inr (by decide)) _ _ _⟩
  · simp [hfree]
  · simp [hfree]

/-- **Acceptance means well-formed exactly if** the fields that the text is cut into, if it is, are
valid and are joined by single delimiters. -/
theorem parseDatetimeIso8601_wellFormed_iff (s : CString) (datetime : Datetime) :
    ((parseDatetimeIso8601 s datetime).1 = true → WellFormed s) ↔
      ∀ f, CutInto s f → f.Valid ∧ s = f.text := by
  rw [parseDatetimeIso8601_fst_iff]
  constructor
  · intro h f hcut
    obtain ⟨f', hvalid, htext⟩ := h ⟨f, hcut⟩
    -- a text is cut in one way, so a well-formed one into its own fields
    have hcut' : CutInto s f' := by
      obtain ⟨year, month, day, hours, minutes, seconds, rfl, -⟩ := hvalid
      rw [htext]
      exact cutInto_text year month day hours minutes seconds
    rw [hcut.unique hcut']
    exact ⟨hvalid, htext⟩
  · rintro h ⟨f, hcut⟩
    exact ⟨f, h f hcut⟩

/-- Letters in the place of the numbers are accepted. -/
theorem parseDatetimeIso8601_wellFormed_letters :
    (∀ c ∈ ascii "a-b-cTd:e:f", c < 128) ∧
      (parseDatetimeIso8601 (ascii "a-b-cTd:e:f") {}).1 = true ∧
      ¬ WellFormed (ascii "a-b-cTd:e:f") := by
  refine ⟨by decide, by decide, ?_⟩
  rintro ⟨f, ⟨year, month, day, hours, minutes, seconds, rfl, -⟩, htext⟩
  -- the first character would be a digit of the year
  obtain ⟨c, t, hyear⟩ := List.exists_cons_of_ne_nil year.ne_nil
  obtain ⟨e, he, rfl⟩ := year.isDigit c (by rw [hyear]; exact List.mem_cons_self)
  have hhead : (ascii "a-b-cTd:e:f").head? = some (digitChar e) := by
    rw [htext, DatetimeFields.text, hyear]
    rfl
  interval_cases e <;> exact absurd hhead (by decide)

/-! ### The documented form -/

/-- A date and time in the ranges of the documented form. -/
structure IsoFields where
  year : ℕ
  month : ℕ
  day : ℕ
  hours : ℕ
  minutes : ℕ
  seconds : ℕ
  year_bounds : 1000 ≤ year ∧ year ≤ 9999
  month_bounds : 1 ≤ month ∧ month ≤ 12
  day_bounds : 1 ≤ day ∧ day ≤ 31
  hours_le : hours ≤ 23
  minutes_le : minutes ≤ 59
  seconds_le : seconds ≤ 59

namespace IsoFields

/-- `YYYY-MM-DDTHH:mm:SS`, each field filled up with zeros. -/
def text (f : IsoFields) : CString :=
  DatetimeFields.text
    { year := (Numeral.padded 4 f.year).text
      month := (Numeral.padded 2 f.month).text
      day := (Numeral.padded 2 f.day).text
      hours := (Numeral.padded 2 f.hours).text
      minutes := (Numeral.padded 2 f.minutes).text
      seconds := (Numeral.padded 2 f.seconds).text }

/-- The date and time itself. -/
def datetime (f : IsoFields) : Datetime where
  year := Int32.ofNat f.year
  month := Int32.ofNat f.month
  day := Int32.ofNat f.day
  hours := Int32.ofNat f.hours
  minutes := Int32.ofNat f.minutes
  seconds := Int32.ofNat f.seconds
  milliseconds := 0
  tzOffset := { microseconds := 0, hasValue := true }
  hasValue := true

end IsoFields

/-- A field that base detection takes for octal although it is not. -/
def LooksOctal (n : ℕ) : Prop := n = 8 ∨ n = 9

instance (n : ℕ) : Decidable (LooksOctal n) := inferInstanceAs (Decidable (n = 8 ∨ n = 9))

/-- The narrowing casts of a number that fits are its conversion. -/
theorem toInt32_toUInt32_ofNat (n : ℕ) : (UInt64.ofNat n).toUInt32.toInt32 = Int32.ofNat n := by
  simp

/-- A field of two digits is stored as zero when it looks octal, else exactly. -/
theorem datetimeField_padded_two {n : ℕ} (hn : n < 100) :
    datetimeField (Numeral.padded 2 n).text = Int32.ofNat (if LooksOctal n then 0 else n) := by
  rw [datetimeField, Numeral.strtoull_padded_two hn, toInt32_toUInt32_ofNat]
  rfl

/-- A field of two digits is stored exactly unless it looks octal. -/
theorem datetimeField_padded_two_iff {n : ℕ} (hn : n < 100) :
    datetimeField (Numeral.padded 2 n).text = Int32.ofNat n ↔ ¬ LooksOctal n := by
  rw [datetimeField_padded_two hn]
  unfold LooksOctal
  by_cases h : n = 8 ∨ n = 9
  · rcases h with rfl | rfl <;> decide
  · simp [h]

/-- A year of four digits is stored exactly. -/
theorem datetimeField_padded_four {n : ℕ} (h : 1000 ≤ n ∧ n ≤ 9999) :
    datetimeField (Numeral.padded 4 n).text = Int32.ofNat n := by
  rw [datetimeField, Numeral.text_padded_of_le (k := 3) h.1,
    strtoull_decimal (Or.inl rfl) (by omega), toInt32_toUInt32_ofNat]

/-- **The fields of the documented form are read exactly** unless one of the last five is eight or
nine. -/
theorem parseDatetimeIso8601_text_iff (f : IsoFields) (datetime : Datetime) :
    parseDatetimeIso8601 f.text datetime = (true, f.datetime) ↔
      ¬ LooksOctal f.month ∧ ¬ LooksOctal f.day ∧ ¬ LooksOctal f.hours ∧
        ¬ LooksOctal f.minutes ∧ ¬ LooksOctal f.seconds := by
  have hmonth := datetimeField_padded_two_iff (n := f.month) (by have := f.month_bounds; omega)
  have hday := datetimeField_padded_two_iff (n := f.day) (by have := f.day_bounds; omega)
  have hhours := datetimeField_padded_two_iff (n := f.hours) (by have := f.hours_le; omega)
  have hminutes := datetimeField_padded_two_iff (n := f.minutes) (by have := f.minutes_le; omega)
  have hseconds := datetimeField_padded_two_iff (n := f.seconds) (by have := f.seconds_le; omega)
  rw [IsoFields.text, (cutInto_text _ _ _ _ _ _).parseDatetimeIso8601_eq, DatetimeFields.datetime,
    IsoFields.datetime, datetimeField_padded_four f.year_bounds, ← hmonth, ← hday, ← hhours,
    ← hminutes, ← hseconds]
  simp only [Prod.mk.injEq, Datetime.mk.injEq, true_and, and_true]
  have hzero : timespanSetSeconds 0 = { microseconds := 0, hasValue := true } := by decide
  simp only [hzero, and_true]

/-- Midnight of the first of August. -/
def IsoFields.firstOfAugust : IsoFields where
  year := 2015
  month := 8
  day := 1
  hours := 0
  minutes := 0
  seconds := 0
  year_bounds := by omega
  month_bounds := by omega
  day_bounds := by omega
  hours_le := by omega
  minutes_le := by omega
  seconds_le := by omega

/-- The first of August is stored with the month zero. -/
theorem parseDatetimeIso8601_text_august :
    IsoFields.firstOfAugust.text = ascii "2015-08-01T00:00:00" ∧
      parseDatetimeIso8601 IsoFields.firstOfAugust.text {} =
        (true, { IsoFields.firstOfAugust.datetime with month := 0 }) ∧
      parseDatetimeIso8601 IsoFields.firstOfAugust.text {} ≠
        (true, IsoFields.firstOfAugust.datetime) := by
  refine ⟨?_, ?_, ?_⟩ <;> decide

end NvIpfix
