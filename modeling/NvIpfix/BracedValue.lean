/-
**Values with a closing brace behind them.**

A closing brace that is not trimmed off a record stays behind the value of its last member, with
quotes and blanks about it.  To the parsers of numbers it is what follows the digits.  The other
parsers cut the value first, and for them the brace continues the last piece; behind a separator it
is a piece of its own, and then the number of pieces is another one.

Main definitions:

* `NvIpfix.endsInSeparator` — the values behind which the brace is a piece of its own;
* `NvIpfix.survives` — the values of which a parser makes the same with and without the brace.

Main results:

* `NvIpfix.stringSplit_append` — the pieces of a value with the brace;
* `NvIpfix.survives_iff` — **what a parser makes of a value with the brace**.
-/

import NvIpfix.Passes

set_option relaxedAutoImplicit false
set_option autoImplicit false

namespace NvIpfix

open CNumeral

/-! ### Pieces -/

/-- The characters that stand behind a value with the brace. -/
def braceChars : CString := ascii " \t\r\n\"\x7d"

/-- Whether a value ends in a separator, with another character before it. -/
def endsInSeparator (separators value : CString) : Bool :=
  value.getLast?.any (inCharset separators) &&
    value.dropLast.getLast?.any fun c => !inCharset separators c

/-- A separator does not end what begins behind it. -/
theorem endsInSeparator_append_cons {separators : CString} {c : UInt8}
    (hc : inCharset separators c) {s : CString} (hs : s ≠ []) (t : CString) :
    endsInSeparator separators (t ++ c :: s) = endsInSeparator separators s := by
  have hlast : (t ++ c :: s).getLast? = s.getLast? := by
    rw [List.append_cons, List.getLast?_append_of_ne_nil _ hs]
  have hdrop : (t ++ c :: s).dropLast = t ++ c :: s.dropLast := by
    rw [List.append_cons, List.dropLast_append_of_ne_nil hs, ← List.append_cons]
  rw [endsInSeparator, endsInSeparator, hlast, hdrop]
  congr 1
  by_cases hinit : s.dropLast = []
  · simp [hinit, hc]
  · rw [List.append_cons, List.getLast?_append_of_ne_nil _ hinit]

theorem endsInSeparator_concat {separators : CString} {t : CString} {c : UInt8}
    (ht : ∀ x ∈ t, inCharset separators x = false) :
    endsInSeparator separators (t ++ [c]) = (inCharset separators c && !t.isEmpty) := by
  rcases List.eq_nil_or_concat' t with rfl | ⟨t, x, rfl⟩
  · simp [endsInSeparator]
  · have hx := ht x (by simp)
    simp [endsInSeparator, hx]

theorem splitFrom_of_free {p : UInt8 → Bool} {r : CString} (hr : r ≠ [])
    (hfree : ∀ c ∈ r, p c = false) (t : CString) : splitFrom p t r = [t ++ r] := by
  induction r generalizing t with
  | nil => exact absurd rfl hr
  | cons c r ih =>
      have hc := hfree c (by simp)
      cases r with
      | nil => simp [splitFrom, hc]
      | cons d r =>
          rw [splitFrom_cons_cons, hc, if_neg (by simp),
            ih (by simp) fun x hx => hfree x (by simp [hx])]
          simp

/-- **The pieces of a text with something behind it**: a piece of its own behind a separator, and
otherwise the rest of the last piece. -/
theorem splitFrom_append {separators r : CString} (hr : r ≠ [])
    (hfree : ∀ c ∈ r, inCharset separators c = false) {t : CString}
    (ht : ∀ c ∈ t, inCharset separators c = false) {s : CString} (hs : s ≠ []) :
    (endsInSeparator separators (t ++ s) = true ∧
      splitFrom (inCharset separators) t (s ++ r) = splitFrom (inCharset separators) t s ++ [r]) ∨
    (endsInSeparator separators (t ++ s) = false ∧
      ∃ init last, splitFrom (inCharset separators) t s = init ++ [last] ∧
        splitFrom (inCharset separators) t (s ++ r) = init ++ [last ++ r]) := by
  have hfrom := splitFrom_of_free hr hfree
  induction s generalizing t with
  | nil => exact absurd rfl hs
  | cons c s ih =>
      obtain ⟨d, r, rfl⟩ := List.exists_cons_of_ne_nil hr
      cases s with
      | nil =>
          rw [endsInSeparator_concat ht, List.cons_append, List.nil_append, splitFrom_cons_cons,
            hfrom, hfrom]
          cases hc : inCharset separators c with
          | false => exact Or.inr ⟨rfl, [], t ++ [c], by simp [splitFrom, hc], by simp⟩
          | true =>
              by_cases hte : t = []
              · exact Or.inr ⟨by simp [hte], [], [], by simp [splitFrom, hc, hte], by simp [hte]⟩
              · exact Or.inl ⟨by simp [hte], by simp [splitFrom, hc, hte]⟩
      | cons e s =>
          rw [List.cons_append, List.cons_append, splitFrom_cons_cons, splitFrom_cons_cons,
            ← List.cons_append]
          cases hc : inCharset separators c with
          | false =>
              have htc : ∀ x ∈ t ++ [c], inCharset separators x = false := by
                intro x hx
                rcases List.mem_append.1 hx with hx | hx
                · exact ht x hx
                · rw [List.mem_singleton.1 hx, hc]
              simpa using ih htc (by simp)
          | true =>
              have hrest := ih (t := []) (by simp) (by simp)
              rw [List.nil_append] at hrest
              rw [endsInSeparator_append_cons hc (by simp)]
              simp only [if_true]
              by_cases hte : t = []
              · simpa only [hte, if_true] using hrest
              · simp only [hte, if_false]
                rcases hrest with ⟨hends, heq⟩ | ⟨hends, init, last, hinit, heq⟩
                · exact Or.inl ⟨hends, by rw [heq, List.cons_append]⟩
                · exact Or.inr ⟨hends, t :: init, last, by rw [hinit, List.cons_append],
                    by rw [heq, List.cons_append]⟩

/-- **The pieces of a value with something behind it.** -/
theorem stringSplit_append {separators r : CString} (hr : r ≠ []) (hfree : Free separators r)
    {s : CString} (hs : s ≠ []) :
    (endsInSeparator separators s = true ∧ ∃ pieces, stringSplit s separators = some pieces ∧
      stringSplit (s ++ r) separators = some (pieces ++ [r])) ∨
    (endsInSeparator separators s = false ∧
      ∃ init last, stringSplit s separators = some (init ++ [last]) ∧
        stringSplit (s ++ r) separators = some (init ++ [last ++ r])) := by
  rw [stringSplit_eq_some hs, stringSplit_eq_some (by simp [hs])]
  have hpieces := splitFrom_append hr hfree.inCharset_eq_false (t := []) (by simp) hs
  rw [List.nil_append] at hpieces
  rcases hpieces with ⟨hends, heq⟩ | ⟨hends, init, last, hinit, heq⟩
  · exact Or.inl ⟨hends, _, rfl, congrArg some heq⟩
  · exact Or.inr ⟨hends, init, last, congrArg some hinit, congrArg some heq⟩

/-! ### Parsers that cut their value -/

/-- The number of pieces of a value that is not empty. -/
def piecesCount (separators value : CString) : Option ℕ :=
  (stringSplit value separators).map List.length

/-- The common form of the parsers that cut a value: what is stored of the right number of pieces,
and what is stored otherwise. -/
def storePieces {α : Type} (separators : CString) (count : ℕ) (store : List CString → α → α)
    (clear : α → α) (value : CString) (old : α) : α :=
  match stringSplit value separators with
  | none => old
  | some pieces => if pieces.length = count then store pieces old else clear old

/-- A value survives the brace: it is empty and so was the field, or it is not and does not end in
a separator behind all or all but one of the pieces. -/
def piecesSurvive (separators : CString) (count : ℕ) (hadValue : Bool) (value : CString) : Bool :=
  (value ≠ [] || !hadValue) &&
    (!endsInSeparator separators value ||
      (piecesCount separators value ≠ some count && piecesCount separators value ≠ some (count - 1)))

/-- **The pieces are read the same with something behind them exactly when the value survives.** -/
theorem storePieces_append_eq_iff {α : Type} {separators : CString} {count : ℕ}
    {store : List CString → α → α} {clear : α → α} (hasValue : α → Bool) {value r : CString}
    (hstore : ∀ pieces old, hasValue (store pieces old) = true)
    (hclear : ∀ old, hasValue (clear old) = false)
    (hsame : ∀ old, hasValue old = false → clear old = old)
    (hinert : ∀ init last old, store (init ++ [last ++ r]) old = store (init ++ [last]) old)
    (hcount : 1 < count) (hr : r ≠ []) (hfree : Free separators r) (old : α) :
    storePieces separators count store clear (value ++ r) old =
        storePieces separators count store clear value old ↔
      piecesSurvive separators count (hasValue old) value = true := by
  by_cases hv : value = []
  · subst hv
    have hone : [r].length ≠ count := hcount.ne
    have hnil : stringSplit ([] : CString) separators = none := stringSplit_eq_none_iff.2 rfl
    have hends : endsInSeparator separators [] = false := rfl
    simp only [storePieces, List.nil_append, stringSplit_of_free hr hfree, hnil, hone, if_false,
      piecesSurvive, hends]
    simp only [ne_eq, not_true_eq_false, decide_false, Bool.false_or, Bool.not_false, Bool.true_or,
      Bool.and_true, Bool.not_eq_true']
    exact ⟨fun h => by rw [← h, hclear], hsame old⟩
  · rcases stringSplit_append hr hfree hv with
      ⟨hends, pieces, hpieces, happend⟩ | ⟨hends, init, last, hpieces, happend⟩
    · -- the brace is a piece of its own, so that one of the two numbers may be right
      have hcounts : piecesSurvive separators count (hasValue old) value = true ↔
          pieces.length ≠ count ∧ pieces.length + 1 ≠ count := by
        simp only [piecesSurvive, hv, hends, piecesCount, hpieces, Option.map_some, ne_eq,
          Option.some.injEq, not_false_eq_true, decide_true, Bool.true_or, Bool.not_true,
          Bool.false_or, Bool.true_and, decide_not, Bool.and_eq_true, Bool.not_eq_true',
          decide_eq_false_iff_not]
        omega
      simp only [storePieces, hpieces, happend, hcounts, List.length_append,
        List.length_singleton]
      by_cases hfull : pieces.length = count
      · have hmore : ¬pieces.length + 1 = count := by omega
        rw [if_neg hmore, if_pos hfull]
        refine iff_of_false (fun h => ?_) fun h => h.1 hfull
        have hvalue := congrArg hasValue h
        rw [hclear, hstore] at hvalue
        cases hvalue
      · by_cases hless : pieces.length + 1 = count
        · rw [if_pos hless, if_neg hfull]
          refine iff_of_false (fun h => ?_) fun h => h.2 hless
          have hvalue := congrArg hasValue h
          rw [hclear, hstore] at hvalue
          cases hvalue
        · rw [if_neg hless, if_neg hfull]
          exact iff_of_true rfl ⟨hfull, hless⟩
    · -- the brace continues the last piece
      have hlength : (init ++ [last ++ r]).length = (init ++ [last]).length := by simp
      have hsurvive : piecesSurvive separators count (hasValue old) value = true := by
        simp [piecesSurvive, hv, hends]
      simp only [storePieces, hpieces, happend, hlength, hinert, hsurvive]

/-- What stands behind a value: the brace, with blanks and quotes about it. -/
structure BraceRest (r : CString) : Prop where
  brace : 125 ∈ r
  chars : ∀ c ∈ r, c ∈ braceChars

theorem BraceRest.ne {r : CString} (hr : BraceRest r) : r ≠ [] := List.ne_nil_of_mem hr.brace

theorem BraceRest.inert {r : CString} (hr : BraceRest r) : ∀ c ∈ r, isInert c := by
  have hall : ∀ c ∈ braceChars, isInert c = true := by decide
  exact fun c hc => hall c (hr.chars c hc)

theorem BraceRest.free {r : CString} (hr : BraceRest r) {charset : CString}
    (h : Free charset braceChars) : Free charset r :=
  free_of_forall_mem hr.chars h

/-! ### Addresses -/

theorem macAddressLoop_append_inert {r : CString} (hr : ∀ c ∈ r, isInert c) (init : List CString)
    (last : CString) (index : ℕ) (octets : Vector UInt8 addressOctetsCountMac) :
    macAddressLoop index octets (init ++ [last ++ r]) =
      macAddressLoop index octets (init ++ [last]) := by
  induction init generalizing index octets with
  | nil => simp only [List.nil_append, macAddressLoop, strtoul, strtoull_append_inert hr]
  | cons piece init ih => exact ih _ _

theorem ipAddressLoop_append_inert {r : CString} (hr : ∀ c ∈ r, isInert c) (init : List CString)
    (last : CString) (index : ℕ) (value : UInt32) :
    ipAddressLoop index value (init ++ [last ++ r]) =
      ipAddressLoop index value (init ++ [last]) := by
  induction init generalizing index value with
  | nil => simp only [List.nil_append, ipAddressLoop, strtoul, strtoull_append_inert hr]
  | cons piece init ih => exact ih _ _

/-- A MAC address with the brace. -/
theorem parseMacAddress_append_eq_iff {r : CString} (hr : BraceRest r) (value : CString)
    (old : MacAddress) :
    (parseMacAddress (value ++ r) old).2 = (parseMacAddress value old).2 ↔
      piecesSurvive (ascii ":") addressOctetsCountMac old.hasValue value = true := by
  have hparse : ∀ value, (parseMacAddress value old).2 =
      storePieces (ascii ":") addressOctetsCountMac
        (fun pieces old => { octets := macAddressLoop 0 old.octets pieces, hasValue := true })
        (fun old => { old with hasValue := false }) value old := by
    intro value
    rw [parseMacAddress, storePieces]
    cases stringSplit value (ascii ":") with
    | none => rfl
    | some pieces =>
        simp only
        split <;> rfl
  rw [hparse, hparse]
  refine storePieces_append_eq_iff MacAddress.hasValue (fun _ _ => rfl) (fun _ => rfl) ?_ ?_
    (by decide) hr.ne (hr.free (by decide)) old
  · rintro ⟨octets, hasValue⟩ h
    obtain rfl : hasValue = false := h
    rfl
  · intro init last old
    rw [macAddressLoop_append_inert hr.inert]

/-- An IP address with the brace. -/
theorem parseIpAddress_append_eq_iff {r : CString} (hr : BraceRest r) (value : CString)
    (old : IpAddress) :
    (parseIpAddress (value ++ r) old).2 = (parseIpAddress value old).2 ↔
      piecesSurvive (ascii ".") addressOctetsCountIpv4 old.hasValue value = true := by
  have hparse : ∀ value, (parseIpAddress value old).2 =
      storePieces (ascii ".") addressOctetsCountIpv4
        (fun pieces _ => { value := ipAddressLoop 0 0 pieces, hasValue := true })
        (fun old => { old with hasValue := false }) value old := by
    intro value
    rw [parseIpAddress, storePieces]
    cases stringSplit value (ascii ".") with
    | none => rfl
    | some pieces =>
        simp only
        split <;> rfl
  rw [hparse, hparse]
  refine storePieces_append_eq_iff IpAddress.hasValue (fun _ _ => rfl) (fun _ => rfl) ?_ ?_
    (by decide) hr.ne (hr.free (by decide)) old
  · rintro ⟨value, hasValue⟩ h
    obtain rfl : hasValue = false := h
    rfl
  · intro init last old
    rw [ipAddressLoop_append_inert hr.inert]

/-! ### Dates and times -/

/-- The three numbers of a date or of a time. -/
abbrev DateFields := Int32 × Int32 × Int32

/-- A date or a time, if there are three pieces. -/
def dateFields (separators value : CString) : Option DateFields :=
  match stringSplit value separators with
  | some [a, b, c] => some (datetimeField a, datetimeField b, datetimeField c)
  | _ => none

/-- The date that is stored. -/
def Datetime.date (datetime : Datetime) : DateFields :=
  (datetime.year, datetime.month, datetime.day)

/-- Whether a date-time survives the brace.  Behind the separator of date and time the brace makes
two pieces of one, whose date is then stored, or three of two, whose date is then not. -/
def datetimeSurvives (oldDate : DateFields) (value : CString) : Bool :=
  match stringSplit value (ascii "T") with
  | some [date] =>
      !endsInSeparator (ascii "T") value ||
        (dateFields (ascii "-") date).all (· == oldDate)
  | some [date, time] =>
      (dateFields (ascii "-") date).all fun d =>
        if endsInSeparator (ascii "T") value then
          (dateFields (ascii ":") time).isNone && d == oldDate
        else piecesSurvive (ascii ":") 3 false time
  | _ => true

theorem datetimeField_append_inert {r : CString} (hr : ∀ c ∈ r, isInert c) (token : CString) :
    datetimeField (token ++ r) = datetimeField token := by
  rw [datetimeField, datetimeField, strtoull_append_inert hr]

/-- The three numbers of the first three pieces. -/
def dateFieldsOf (pieces : List CString) : DateFields :=
  (datetimeField (pieces.getD 0 []), datetimeField (pieces.getD 1 []),
    datetimeField (pieces.getD 2 []))

theorem dateFields_eq_storePieces (separators value : CString) : dateFields separators value =
    storePieces separators 3 (fun pieces _ => some (dateFieldsOf pieces)) (fun _ => none) value
      none := by
  rw [dateFields, storePieces]
  cases stringSplit value separators with
  | none => rfl
  | some pieces =>
      rcases pieces with _ | ⟨a, _ | ⟨b, _ | ⟨c, _ | ⟨d, pieces⟩⟩⟩⟩
      · rfl
      · rfl
      · rfl
      · rfl
      · exact (if_neg (by simp)).symm

theorem isSome_dateFields_eq_storePieces (separators value : CString) :
    (dateFields separators value).isSome =
      storePieces separators 3 (fun _ _ => true) (fun _ => false) value false := by
  rw [dateFields_eq_storePieces, storePieces, storePieces]
  cases stringSplit value separators with
  | none => rfl
  | some pieces =>
      simp only
      split <;> rfl

theorem dateFieldsOf_append_inert {r : CString} (hr : ∀ c ∈ r, isInert c) (init : List CString)
    (last : CString) : dateFieldsOf (init ++ [last ++ r]) = dateFieldsOf (init ++ [last]) := by
  have hget : ∀ i, datetimeField ((init ++ [last ++ r]).getD i []) =
      datetimeField ((init ++ [last]).getD i []) := by
    intro i
    simp only [List.getD_eq_getElem?_getD, List.getElem?_append]
    split
    · rfl
    · cases i - init.length with
      | zero => exact datetimeField_append_inert hr last
      | succ i => rfl
  rw [dateFieldsOf, dateFieldsOf, hget, hget, hget]

/-- A date or a time with the brace is the same, or only one of the two is one. -/
theorem dateFields_append {r : CString} (hr : BraceRest r) (separators : CString)
    (hfree : Free separators braceChars) (value : CString) :
    (dateFields separators (value ++ r) = dateFields separators value ↔
        piecesSurvive separators 3 false value = true) ∧
      ((dateFields separators (value ++ r)).isSome = (dateFields separators value).isSome ↔
        piecesSurvive separators 3 false value = true) := by
  constructor
  · rw [dateFields_eq_storePieces, dateFields_eq_storePieces]
    refine storePieces_append_eq_iff Option.isSome (fun _ _ => rfl) (fun _ => rfl) ?_
      ?_ (by decide) hr.ne (hr.free hfree) none
    · rintro (_ | d) h
      · rfl
      · cases h
    · intro init last old
      rw [dateFieldsOf_append_inert hr.inert]
  · rw [isSome_dateFields_eq_storePieces, isSome_dateFields_eq_storePieces]
    exact storePieces_append_eq_iff id (fun _ _ => rfl) (fun _ => rfl)
      (fun _ h => h.symm) (fun _ _ _ => rfl) (by decide) hr.ne (hr.free hfree) false

/-- Storing a date. -/
def Datetime.storeDate (datetime : Datetime) (d : DateFields) : Datetime :=
  { datetime with year := d.1, month := d.2.1, day := d.2.2 }

/-- Storing a time. -/
def Datetime.storeTime (datetime : Datetime) (t : DateFields) : Datetime :=
  { datetime with hours := t.1, minutes := t.2.1, seconds := t.2.2, milliseconds := 0 }

/-- What is stored whatever the value is. -/
def Datetime.stamp (datetime : Datetime) (result : Bool) : Datetime :=
  { datetime with hasValue := result, tzOffset := timespanSetSeconds 0 }

/-- A date-time of two pieces. -/
def Datetime.storePair (datetime : Datetime) (date time : CString) : Datetime :=
  match dateFields (ascii "-") date with
  | none => datetime.stamp false
  | some d =>
      match dateFields (ascii ":") time with
      | none => (datetime.storeDate d).stamp false
      | some t => ((datetime.storeDate d).storeTime t).stamp true

/-- The parser of date-times by its parts. -/
theorem parseDatetimeIso8601_eq (value : CString) (old : Datetime) :
    (parseDatetimeIso8601 value old).2 =
      match stringSplit value (ascii "T") with
      | some [date, time] => old.storePair date time
      | _ => old.stamp false := by
  rw [parseDatetimeIso8601]
  rcases stringSplit value (ascii "T") with
    _ | _ | ⟨date, _ | ⟨time, _ | ⟨piece, pieces⟩⟩⟩
  · rfl
  · rfl
  · rfl
  · simp only [Datetime.storePair, dateFields]
    rcases stringSplit date (ascii "-") with
      _ | _ | ⟨year, _ | ⟨month, _ | ⟨day, _ | ⟨piece, pieces⟩⟩⟩⟩
    · rfl
    · rfl
    · rfl
    · rfl
    · rcases stringSplit time (ascii ":") with
        _ | _ | ⟨hours, _ | ⟨minutes, _ | ⟨seconds, _ | ⟨piece, pieces⟩⟩⟩⟩
      · rfl
      · rfl
      · rfl
      · rfl
      · rfl
      · rfl
    · rfl
  · rfl

theorem Datetime.stamp_storeDate_eq_iff (datetime : Datetime) (d : DateFields) :
    (datetime.storeDate d).stamp false = datetime.stamp false ↔ d = datetime.date := by
  constructor
  · exact fun h => congrArg Datetime.date h
  · rintro rfl
    rfl

/-- A pair whose time has the brace behind it. -/
theorem storePair_append_eq_iff {r : CString} (hr : BraceRest r) (date time : CString)
    (old : Datetime) : old.storePair date (time ++ r) = old.storePair date time ↔
      (dateFields (ascii "-") date).all (fun _ => piecesSurvive (ascii ":") 3 false time) =
        true := by
  obtain ⟨hfields, hsome⟩ := dateFields_append hr (ascii ":") (by decide) time
  rw [Datetime.storePair, Datetime.storePair]
  cases dateFields (ascii "-") date with
  | none => simp
  | some d =>
      simp only [Option.all_some]
      rw [← hfields]
      refine ⟨fun h => ?_, fun h => by rw [h]⟩
      rw [hfields, ← hsome]
      cases htime : dateFields (ascii ":") time with
      | none =>
          cases happend : dateFields (ascii ":") (time ++ r) with
          | none => rfl
          | some t =>
              rw [htime, happend] at h
              exact absurd (congrArg Datetime.hasValue h) (by simp [Datetime.stamp])
      | some t =>
          cases happend : dateFields (ascii ":") (time ++ r) with
          | none =>
              rw [htime, happend] at h
              exact absurd (congrArg Datetime.hasValue h) (by simp [Datetime.stamp])
          | some t' => rfl

/-- **A date-time with the brace.** -/
theorem parseDatetimeIso8601_append_eq_iff {r : CString} (hr : BraceRest r) (value : CString)
    (old : Datetime) :
    (parseDatetimeIso8601 (value ++ r) old).2 = (parseDatetimeIso8601 value old).2 ↔
      datetimeSurvives old.date value = true := by
  have hfree : Free (ascii "T") r := hr.free (by decide)
  have hrest : dateFields (ascii ":") r = none := by
    rw [dateFields, stringSplit_of_free hr.ne (hr.free (by decide))]
  rw [parseDatetimeIso8601_eq, parseDatetimeIso8601_eq, datetimeSurvives]
  by_cases hv : value = []
  · rw [hv, List.nil_append, stringSplit_of_free hr.ne hfree, stringSplit_eq_none_iff.2 rfl]
    simp
  · rcases stringSplit_append hr.ne hfree hv with
      ⟨hends, pieces, hpieces, happend⟩ | ⟨hends, init, last, hpieces, happend⟩
    · -- the brace is a piece of its own
      rw [hpieces, happend]
      rcases pieces with _ | ⟨date, _ | ⟨time, _ | ⟨piece, pieces⟩⟩⟩
      · simp
      · simp only [List.cons_append, List.nil_append, hends, Bool.not_true, Bool.false_or,
          Datetime.storePair, hrest]
        cases dateFields (ascii "-") date with
        | none => simp
        | some d => simp [Datetime.stamp_storeDate_eq_iff]
      · simp only [List.cons_append, List.nil_append, hends, if_true, Datetime.storePair]
        cases dateFields (ascii "-") date with
        | none => simp
        | some d =>
            cases dateFields (ascii ":") time with
            | none =>
                rw [eq_comm]
                simp [Datetime.stamp_storeDate_eq_iff]
            | some t =>
                simp only [Option.all_some, Option.isNone_some, Bool.false_and, Bool.false_eq_true,
                  iff_false]
                exact fun h => absurd (congrArg Datetime.hasValue h) (by simp [Datetime.stamp])
      · simp
    · -- the brace continues the last piece
      rw [hpieces, happend]
      rcases init with _ | ⟨date, _ | ⟨piece, init⟩⟩
      · simp [hends]
      · simp only [List.cons_append, List.nil_append, hends, Bool.false_eq_true, if_false]
        exact storePair_append_eq_iff hr date last old
      · cases init <;> simp

/-! ### The parsers of the table -/

/-- The state that a value is, if it is one. -/
def stateOf (value : CString) : Option TcpControlFlag :=
  match importParseTcpControlFlags value .none with
  | (true, flag) => some flag
  | (false, _) => none

/-- Whether a value survives the brace as a state: it is none, or it is the state already. -/
def stateSurvives (oldState : TcpControlFlag) (value : CString) : Bool :=
  (stateOf value).all (· == oldState)

/-- Whether a value that is not empty is an address. -/
def isAddress (separators : CString) (octets : ℕ) (value : CString) : Option Bool :=
  (piecesCount separators value).map (· == octets)

/-- The date that a value stores, if it stores one. -/
def storedDate (value : CString) : Option DateFields :=
  match stringSplit value (ascii "T") with
  | some [date, _] => dateFields (ascii "-") date
  | _ => none

/-- The last of the values that are not `none`, or else what was there before. -/
def lastGiven {α : Type} (given : CString → Option α) (values : List CString) (old : α) : α :=
  (values.filterMap given).getLast?.getD old

/-- **Whether a value of a field survives the brace**, with the values that have been given to the
field before: numbers and durations do; a state does when it is the state already; an address and a
date-time do by their pieces. -/
def survives (earlier : List CString) (value : CString) : DataField → Bool
  | .tcpControlBits => stateSurvives (lastGiven stateOf earlier .none) value
  | .sourceMac | .destinationMac =>
      piecesSurvive (ascii ":") addressOctetsCountMac
        (lastGiven (isAddress (ascii ":") addressOctetsCountMac) earlier false) value
  | .sourceIp | .destinationIp =>
      piecesSurvive (ascii ".") addressOctetsCountIpv4
        (lastGiven (isAddress (ascii ".") addressOctetsCountIpv4) earlier false) value
  | .flowStart | .flowEnd => datetimeSurvives (lastGiven storedDate earlier (0, 0, 0)) value
  | _ => true

theorem importParseTcpControlFlags_eq (value : CString) (old : TcpControlFlag) :
    (importParseTcpControlFlags value old).2 = (stateOf value).getD old := by
  rw [stateOf, importParseTcpControlFlags, importParseTcpControlFlags]
  split
  · rfl
  · split
    · rfl
    · split
      · rfl
      · split <;> rfl

theorem hasValue_parseMacAddress (value : CString) (old : MacAddress) :
    (parseMacAddress value old).2.hasValue =
      (isAddress (ascii ":") addressOctetsCountMac value).getD old.hasValue := by
  rw [parseMacAddress, isAddress, piecesCount]
  cases stringSplit value (ascii ":") with
  | none => rfl
  | some pieces => by_cases h : pieces.length = addressOctetsCountMac <;> simp [h]

theorem hasValue_parseIpAddress (value : CString) (old : IpAddress) :
    (parseIpAddress value old).2.hasValue =
      (isAddress (ascii ".") addressOctetsCountIpv4 value).getD old.hasValue := by
  rw [parseIpAddress, isAddress, piecesCount]
  cases stringSplit value (ascii ".") with
  | none => rfl
  | some pieces => by_cases h : pieces.length = addressOctetsCountIpv4 <;> simp [h]

theorem date_parseDatetimeIso8601 (value : CString) (old : Datetime) :
    (parseDatetimeIso8601 value old).2.date = (storedDate value).getD old.date := by
  rw [parseDatetimeIso8601_eq, storedDate]
  rcases stringSplit value (ascii "T") with
    _ | _ | ⟨date, _ | ⟨time, _ | ⟨piece, pieces⟩⟩⟩
  · rfl
  · rfl
  · rfl
  · simp only [Datetime.storePair]
    cases dateFields (ascii "-") date with
    | none => rfl
    | some d => cases dateFields (ascii ":") time <;> rfl
  · rfl

/-- When a parser treats a value alike with and without something behind it only depends on what
it looks at in its field, and that is what the last value that mattered has left there. -/
theorem parseAll_append_eq_iff {α γ : Type} {parseValue : ParseValue α} {r : CString} (read : α → γ)
    {given : CString → Option γ} {keeps : γ → CString → Bool}
    (hread : ∀ value old, read (parseValue value old).2 = (given value).getD (read old))
    (hkeeps : ∀ value old, (parseValue (value ++ r) old).2 = (parseValue value old).2 ↔
      keeps (read old) value = true) (earlier : List CString) (value : CString) (old : α) :
    (parseValue (value ++ r) (parseAll parseValue earlier old)).2 =
        (parseValue value (parseAll parseValue earlier old)).2 ↔
      keeps (lastGiven given earlier (read old)) value = true := by
  have hlast : read (parseAll parseValue earlier old) = lastGiven given earlier (read old) :=
    Tokens.read_foldl_eq read (fun old value => hread value old) earlier old
  rw [hkeeps, hlast]

/-- A state with the brace is none. -/
theorem stateOf_append {r : CString} (hr : BraceRest r) (value : CString) :
    stateOf (value ++ r) = none := by
  have hne : ∀ state : CString, 125 ∉ state → value ++ r ≠ state := by
    rintro state hstate rfl
    exact hstate (List.mem_append_right _ hr.brace)
  simp only [stateOf, importParseTcpControlFlags, hne (ascii "fin") (by decide),
    hne (ascii "rst") (by decide), hne (ascii "syn") (by decide), hne (ascii "est") (by decide),
    if_false]

/-- A state survives the brace when it is there already. -/
theorem importParseTcpControlFlags_append_eq_iff {r : CString} (hr : BraceRest r)
    (value : CString) (old : TcpControlFlag) :
    (importParseTcpControlFlags (value ++ r) old).2 = (importParseTcpControlFlags value old).2 ↔
      stateSurvives old value = true := by
  rw [importParseTcpControlFlags_eq, importParseTcpControlFlags_eq, stateOf_append hr,
    stateSurvives]
  cases stateOf value with
  | none => simp
  | some flag =>
      simp only [Option.getD_none, Option.getD_some, Option.all_some, beq_iff_eq]
      exact eq_comm

/-- **What a parser makes of a value with the brace**: the same exactly when the value survives. -/
theorem survives_iff {entry : ImportItem} (hentry : entry ∈ importItems) {r : CString}
    (hr : BraceRest r) (earlier : List CString) (value : CString) :
    let old := parseAll entry.parseValue earlier (({} : DataRecord).get entry.field)
    (entry.parseValue (value ++ r) old).2 = (entry.parseValue value old).2 ↔
      survives earlier value entry.field = true := by
  by_cases hnum : entry.field.isNumeral
  · have hsurvives : survives earlier value entry.field = true := by
      revert hnum
      cases entry.field <;> first | exact fun _ => rfl | exact fun h => absurd h (by decide)
    simp only [(numeralParser_of_isNumeral entry hentry hnum).ignoresInert value r _ hr.inert,
      hsurvives]
  · have hstate := parseAll_append_eq_iff (fun flag => flag) importParseTcpControlFlags_eq
      (importParseTcpControlFlags_append_eq_iff hr) earlier value
    have hmac := parseAll_append_eq_iff MacAddress.hasValue hasValue_parseMacAddress
      (parseMacAddress_append_eq_iff hr) earlier value
    have hip := parseAll_append_eq_iff IpAddress.hasValue hasValue_parseIpAddress
      (parseIpAddress_append_eq_iff hr) earlier value
    have hdatetime := parseAll_append_eq_iff Datetime.date date_parseDatetimeIso8601
      (parseDatetimeIso8601_append_eq_iff hr) earlier value
    simp only [importItems, List.mem_cons, List.not_mem_nil, or_false] at hentry
    rcases hentry with rfl | rfl | rfl | rfl | rfl | rfl | rfl | rfl | rfl | rfl | rfl | rfl |
      rfl | rfl | rfl | rfl | rfl | rfl | rfl | rfl | rfl | rfl
    all_goals first
      | exact absurd rfl hnum
      | exact hstate .none
      | exact hmac {}
      | exact hip {}
      | exact hdatetime {}

end NvIpfix
