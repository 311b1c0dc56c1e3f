/-
**Which blanks matter.**

Blanks around names, colons, values and commas are trimmed away, and so are blanks around the array
and the document.  Three kinds are not.  Blanks in front of the first object are a token of their
own at the cut at opening braces, and become an empty record.  Blanks behind the closing brace of an
object keep that brace from being trimmed off its record, and it stays attached to the value of the
last member; whether that matters depends on what the parser of the member makes of it.  An empty
object, of which nothing is left otherwise, becomes an empty record with blanks in it or behind it.

Main definitions:

* `NvIpfix.SpacedObject.Harmless` — the last member survives the closing brace behind its value;
* `NvIpfix.SpacedObject.LastSurvives` — the same, in terms of the values in the object;
* `NvIpfix.ArrayObject.Survives`, `NvIpfix.Surviving` — the same of any object of an array;
* `NvIpfix.SpacedDocument.compact` — a document without its blanks.

Main results:

* `NvIpfix.SpacedObject.harmless_iff_lastSurvives` — which last members are harmless;
* `NvIpfix.arrayRecords_eq_iff_surviving` — the records of an array are those without blanks;
* `NvIpfix.SpacedDocument.importTextChecked_eq_compact_iff` — **exactly when the blanks of a
  document do not matter**;
* `NvIpfix.SpacedObject.harmless_of_numeral` — numbers and durations always survive;
* `NvIpfix.SpacedObject.harmless_of_curState` — a state does when it is already stored.
-/

import NvIpfix.BracedValue
import NvIpfix.Document
import NvIpfix.SevenBit

set_option relaxedAutoImplicit false
set_option autoImplicit false

namespace NvIpfix

open CNumeral

/-! ### The last member of an object -/

/-- The value that a member gives to a name. -/
def valueFor (name : CString) (m : SpacedMember) : Option CString :=
  if trimName m.name.text = name then some (trimValue m.value.content) else none

namespace SpacedObject

/-- The trimmed name of the last member. -/
def lastName (o : SpacedObject) : CString := trimName o.last.name.text

/-- The value of the last member as its parser is given it when nothing is left behind it. -/
def lastValue (o : SpacedObject) : CString := trimValue o.last.value.content

/-- The value of the last member as its parser is given it with the closing brace behind it. -/
def bracedValue (o : SpacedObject) : CString :=
  trimValue (o.last.value.text ++ o.last.afterValue.text ++ 125 :: o.after.text)

/-- **The last member survives the closing brace behind its value**: it is unknown, or its parser
leaves in its field what it leaves there without the brace. -/
def Harmless (o : SpacedObject) : Prop :=
  ∀ item, importGetItem o.lastName = some item →
    (item.parseValue o.bracedValue (o.initRecord.get item.field)).2 =
      (item.parseValue o.lastValue (o.initRecord.get item.field)).2

/-- The record with the brace is the record without it exactly when the member survives. -/
theorem record_eq_iff_harmless {o : SpacedObject} {next : Option Blank}
    (h : o.isDirty next = true) : o.record next = o.toObject.record ↔ o.Harmless := by
  have hrecord : o.record next = storeMember o.lastName o.bracedValue o.initRecord := by
    rw [record, leftover, if_pos h, lastName, bracedValue]
  rw [hrecord, toObject_record, Harmless]
  change storeMember o.lastName _ _ = storeMember o.lastName o.lastValue _ ↔ _
  cases hitem : importGetItem o.lastName with
  | none => simp [storeMember, hitem]
  | some item =>
      simp only [storeMember, hitem, ImportItem.parseInto, Option.some.injEq, forall_eq']
      constructor
      · intro hset
        have hget := congrArg (fun d => d.get item.field) hset
        simpa using hget
      · intro hvalue
        rw [hvalue]

/-- The value with the brace is the value with blanks and quotes behind it, the brace among them. -/
theorem bracedValue_eq (o : SpacedObject) :
    ∃ rest, BraceRest rest ∧ o.bracedValue = o.lastValue ++ rest := by
  have hchars : ∀ c ∈ itemTrimChars, c ∈ braceChars := by decide
  have hblanks : ∀ b : Blank, ∀ c ∈ b.text, c ∈ braceChars := fun b c hc =>
    hchars c (inCharset_iff.1 (inCharset_itemTrimChars_blank b c hc))
  -- the value is trimmed with its quotes, the blanks behind it and the brace
  obtain ⟨rest, hrest, hmem⟩ := Tokens.exists_trim_append (inCharset itemTrimChars)
    o.last.value.text (o.last.afterValue.text ++ 125 :: o.after.text)
  have heq : o.bracedValue = o.lastValue ++ rest := by
    rw [lastValue, ← o.last.value.trimValue_text, bracedValue, List.append_assoc]
    exact hrest
  refine ⟨rest, ⟨?_, ?_⟩, heq⟩
  · -- a brace is not trimmed, and there is none in the value
    have hbrace : 125 ∈ o.bracedValue := by
      rw [bracedValue, trimValue, stringTrim_eq_trim]
      exact Tokens.mem_trim _ (by simp) (by decide)
    rw [heq] at hbrace
    rcases List.mem_append.1 hbrace with h | h
    · have hfree : (125 : UInt8) ∉ o.last.value.content := fun h =>
        o.last.value.free 125 h (by decide)
      exact absurd (Tokens.mem_of_mem_trim _ h) hfree
    · exact h
  · intro c hc
    rcases hmem c hc with hc | hc
    · exact hchars c (inCharset_iff.1 hc)
    · rcases List.mem_append.1 hc with hc | hc
      · exact hblanks _ c hc
      · rcases List.mem_cons.1 hc with rfl | hc
        · decide
        · exact hblanks _ c hc

/-- An unknown member is harmless. -/
theorem harmless_of_unknown {o : SpacedObject} (h : importGetItem o.lastName = none) :
    o.Harmless := by
  intro item hitem
  rw [h] at hitem
  simp at hitem

/-- **A number or a duration is harmless.** -/
theorem harmless_of_numeral {o : SpacedObject}
    (h : ∀ item, importGetItem o.lastName = some item → item.field.isNumeral) : o.Harmless := by
  intro item hitem
  obtain ⟨rest, hrest, heq⟩ := o.bracedValue_eq
  rw [heq, (numeralParser_of_isNumeral item (importGetItem_eq_some hitem).1
    (h item hitem)).ignoresInert _ _ _ hrest.inert]

/-- **A state is not harmless**, unless a member before it has already stored it. -/
theorem harmless_of_curState {o : SpacedObject} {flag : TcpControlFlag}
    (hname : o.lastName = ascii "cur-state")
    (hvalue : importParseTcpControlFlags o.lastValue .none = (true, flag)) :
    o.Harmless ↔ o.initRecord.tcpControlBits = flag := by
  obtain ⟨rest, hrest, heq⟩ := o.bracedValue_eq
  have hstate : stateOf o.lastValue = some flag := by rw [stateOf, hvalue]
  have hitem : importGetItem o.lastName =
      some ⟨ascii "cur-state", .tcpControlBits, importParseTcpControlFlags⟩ := by
    rw [hname]
    rfl
  simp only [Harmless, hitem, Option.some.injEq, forall_eq', heq,
    importParseTcpControlFlags_append_eq_iff hrest, stateSurvives, hstate, Option.all_some,
    beq_iff_eq]
  exact eq_comm

/-- The values that members before the last give to the name of the last, in order. -/
def earlierValues (o : SpacedObject) : List CString :=
  o.init.filterMap (valueFor o.lastName)

/-- The last member is unknown, or its value survives the brace. -/
def LastSurvives (o : SpacedObject) : Prop :=
  ∀ item, importGetItem o.lastName = some item →
    survives o.earlierValues o.lastValue item.field = true

/-- Members before the last leave in the field of the last what those of its name leave there. -/
theorem initRecord_get {o : SpacedObject} {item : ImportItem}
    (hitem : importGetItem o.lastName = some item) :
    o.initRecord.get item.field =
      parseAll item.parseValue o.earlierValues (({} : DataRecord).get item.field) := by
  have hrecord : o.initRecord = storePairs (o.init.map fun m =>
      (trimName m.name.text, trimValue m.value.content)) {} := by
    rw [storePairs, List.foldl_map]
    rfl
  have hvalues : o.earlierValues = valuesOf o.lastName (o.init.map fun m =>
      (trimName m.name.text, trimValue m.value.content)) := by
    rw [valuesOf, List.filterMap_map]
    rfl
  rw [hrecord, hvalues]
  exact storePairs_get hitem _ {}

/-- **The last members that are harmless** are those whose value survives the brace. -/
theorem harmless_iff_lastSurvives (o : SpacedObject) : o.Harmless ↔ o.LastSurvives := by
  obtain ⟨rest, hrest, heq⟩ := o.bracedValue_eq
  refine forall_congr' fun item => forall_congr' fun hitem => ?_
  rw [heq, initRecord_get hitem]
  exact survives_iff (importGetItem_eq_some hitem).1 hrest o.earlierValues o.lastValue

end SpacedObject

/-! ### The objects of an array -/

namespace ArrayObject

/-- The object without its blanks. -/
def compact : ArrayObject → ArrayObject
  | empty _ _ _ => empty .none .none .none
  | members o => .ofObject o.toObject

/-- The records of the object without its blanks. -/
def compactRecords : ArrayObject → List DataRecord
  | empty _ _ _ => []
  | members o => [o.toObject.record]

/-- An object with members survives the blanks behind it if its last member does, and an empty one
has none in it or behind it. -/
def Survives (next : Option Blank) : ArrayObject → Prop
  | empty _ inside after => inside.text = [] ∧ hasBlanks after next = false
  | members o => o.isDirty next = true → o.LastSurvives

variable (o : ArrayObject) (next : Option Blank)

/-- **The records of an object are right exactly when it survives.** -/
theorem records_eq_iff : o.records next = o.compactRecords ↔ o.Survives next := by
  cases o with
  | empty before inside after =>
      rw [records, compactRecords, Survives]
      split <;> simp_all
  | members o =>
      rw [records, compactRecords, Survives, List.cons.injEq, and_iff_left rfl]
      cases hdirty : o.isDirty next with
      | true =>
          rw [o.record_eq_iff_harmless hdirty, o.harmless_iff_lastSurvives]
          simp
      | false => simp [o.record_of_not_dirty next hdirty]

/-- Blanks take no record away. -/
theorem length_compactRecords_le : o.compactRecords.length ≤ (o.records next).length := by
  cases o with
  | empty before inside after => exact Nat.zero_le _
  | members o => exact le_rfl

end ArrayObject

/-- Every object of an array survives the blanks behind it. -/
def Surviving : List ArrayObject → Prop
  | [] => True
  | o :: os => o.Survives (gap os) ∧ Surviving os

theorem length_flatMap_compactRecords_le (os : List ArrayObject) :
    (os.flatMap ArrayObject.compactRecords).length ≤ (arrayRecords os).length := by
  induction os with
  | nil => exact le_rfl
  | cons o os ih =>
      rw [List.flatMap_cons, arrayRecords, List.length_append, List.length_append]
      exact Nat.add_le_add (o.length_compactRecords_le _) ih

/-- **The records of an array are right exactly when every object survives.** -/
theorem arrayRecords_eq_iff_surviving (os : List ArrayObject) :
    arrayRecords os = os.flatMap ArrayObject.compactRecords ↔ Surviving os := by
  induction os with
  | nil => simp [arrayRecords, Surviving]
  | cons o os ih =>
      rw [arrayRecords, List.flatMap_cons, Surviving, ← o.records_eq_iff, ← ih]
      constructor
      · intro h
        -- no object has fewer records with its blanks, so each has as many
        have hlength := congrArg List.length h
        rw [List.length_append, List.length_append] at hlength
        have ho := o.length_compactRecords_le (gap os)
        have hos := length_flatMap_compactRecords_le os
        exact List.append_inj h (by omega)
      · rintro ⟨ho, hos⟩
        rw [ho, hos]

/-- Without blanks every object survives. -/
theorem arrayRecords_map_compact (os : List ArrayObject) :
    arrayRecords (os.map ArrayObject.compact) = os.flatMap ArrayObject.compactRecords := by
  induction os with
  | nil => rfl
  | cons o os ih =>
      have hgap : ∀ b ∈ gap (os.map ArrayObject.compact), b = Blank.none := by
        rintro b hb
        rcases os with _ | ⟨_ | _, os⟩
        · cases hb
        · exact (Option.some.inj hb).symm
        · exact (Option.some.inj hb).symm
      have hclean : hasBlanks .none (gap (os.map ArrayObject.compact)) = false := by
        cases hnext : gap (os.map ArrayObject.compact) with
        | none => rfl
        | some b =>
            rw [hgap b hnext]
            rfl
      rw [List.map_cons, arrayRecords, ih, List.flatMap_cons]
      congr 1
      cases o with
      | empty before inside after => exact if_pos ⟨rfl, hclean⟩
      | members o =>
          have hdirty : (SpacedObject.ofObject o.toObject).isDirty
              (gap (os.map ArrayObject.compact)) = false := hclean
          have hrecord := SpacedObject.record_of_not_dirty _ _ hdirty
          rw [SpacedObject.ofObject_toObject] at hrecord
          exact congrArg (fun record => [record]) hrecord

/-! ### 7-bit documents -/

@[simp] theorem Blank.sevenBit (b : Blank) : SevenBit b.text := by
  have hblanks : ∀ c ∈ defaultTrimChars, c < 128 := by decide
  exact fun c hc => hblanks c (b.blank c hc)

theorem sevenBit_joinComma (ts : List CString) :
    SevenBit (joinComma ts) ↔ ∀ t ∈ ts, SevenBit t := by
  induction ts with
  | nil => simp [joinComma]
  | cons t ts ih =>
      by_cases hne : ts = []
      · subst hne
        simp
      · rw [joinComma_cons t hne, sevenBit_append, sevenBit_cons, ih, List.forall_mem_cons]
        exact and_congr_right fun _ => and_iff_right (by decide)

theorem SpacedMember.sevenBit_text (m : SpacedMember) :
    SevenBit m.text ↔ SevenBit m.toMember.text := by
  have hquote : (34 : UInt8) < 128 := by decide
  have hcolon : (58 : UInt8) < 128 := by decide
  simp only [text, head, tail, Member.text, sevenBit_append, sevenBit_cons, Blank.sevenBit, hquote,
    hcolon, true_and, and_true]

theorem SpacedObject.sevenBit_body (o : SpacedObject) :
    SevenBit o.body ↔ ∀ m ∈ o.toObject.members, SevenBit m.text := by
  rw [body, sevenBit_joinComma, toObject, List.forall_mem_map, List.forall_mem_map]
  exact forall₂_congr fun m _ => m.sevenBit_text

theorem ArrayObject.sevenBit_body_compact (o : ArrayObject) :
    SevenBit o.compact.body ↔ SevenBit o.body := by
  cases o with
  | empty before inside after => exact iff_of_true (Blank.sevenBit _) inside.sevenBit
  | members o =>
      have hcompact : SevenBit (SpacedObject.ofObject o.toObject).body ↔ SevenBit o.body := by
        rw [SpacedObject.sevenBit_body, SpacedObject.sevenBit_body, SpacedObject.ofObject_toObject]
      exact hcompact

theorem sevenBit_arrayText (os : List ArrayObject) :
    SevenBit (arrayText os) ↔ ∀ o ∈ os, SevenBit o.body := by
  induction os with
  | nil => simp [arrayText]
  | cons o os ih =>
      have hbraces : (123 : UInt8) < 128 ∧ (125 : UInt8) < 128 ∧ (44 : UInt8) < 128 := by decide
      rw [arrayText, List.forall_mem_cons, ← ih]
      simp only [sevenBit_append, sevenBit_cons, Blank.sevenBit, hbraces, true_and]
      refine and_congr_right fun _ => ?_
      cases os with
      | nil => simp [arrayText]
      | cons o' os => simp [hbraces]

/-! ### The blanks of a document -/

namespace SpacedDocument

variable (d : SpacedDocument)

/-- The document without its blanks. -/
def compact : SpacedDocument where
  lead := .none
  beforeData := .none
  afterData := .none
  beforeArray := .none
  first := d.first.compact
  others := d.others.map ArrayObject.compact
  afterArray := .none
  trail := .none

theorem sevenBit_text : SevenBit d.text ↔ ∀ o ∈ d.first :: d.others, SevenBit o.body := by
  have hchars : SevenBit [123, 58, 91, 93, 125] ∧ SevenBit (ascii "\"data\"") := by decide
  simp only [sevenBit_cons, sevenBit_nil, and_true] at hchars
  rw [← sevenBit_arrayText, text, head]
  simp only [sevenBit_append, sevenBit_cons, Blank.sevenBit, hchars, true_and, and_true]

/-- Blanks are 7-bit. -/
theorem sevenBit_compact : SevenBit d.compact.text ↔ SevenBit d.text := by
  have hobjects : d.compact.first :: d.compact.others =
      (d.first :: d.others).map ArrayObject.compact := rfl
  rw [sevenBit_text, sevenBit_text, hobjects, List.forall_mem_map]
  exact forall₂_congr fun o _ => o.sevenBit_body_compact

/-- **The passes pass over the blanks exactly** when there are none in front of the first object and
every object survives those behind it. -/
theorem importText_eq_compact_iff : importText d.text = importText d.compact.text ↔
    d.first.before.text = [] ∧ Surviving (d.first :: d.others) := by
  have hcompact :
      blankRecord d.compact.first ++ arrayRecords (d.compact.first :: d.compact.others) =
        (d.first :: d.others).flatMap ArrayObject.compactRecords := by
    have hblank : blankRecord d.compact.first = [] := by
      rw [compact, blankRecord]
      cases d.first <;> exact if_pos rfl
    rw [hblank, List.nil_append]
    exact arrayRecords_map_compact (d.first :: d.others)
  rw [importText_text, importText_text, hcompact, addedRecords_inj, ← arrayRecords_eq_iff_surviving,
    blankRecord]
  by_cases hb : d.first.before.text = []
  · rw [if_pos hb, List.nil_append, and_iff_right hb]
  · -- one record too many
    rw [if_neg hb]
    refine iff_of_false (fun h => ?_) fun h => hb h.1
    have hlength := congrArg List.length h
    have hle := length_flatMap_compactRecords_le (d.first :: d.others)
    rw [List.length_append, List.length_singleton] at hlength
    omega

/-- A document with one blank, in front of its only object. -/
def blankFirst : SpacedDocument where
  lead := .none
  beforeData := .none
  afterData := .none
  beforeArray := .none
  first := .members { before := ⟨ascii " ", by decide⟩, init := [],
                      last := .ofMember .vlanOne, after := .none }
  others := []
  afterArray := .none
  trail := .none

end SpacedDocument

/-- An empty object with a blank in it becomes a record, and without it none. -/
example :
    importText (ascii "\x7b\"data\":[\x7b \x7d]\x7d") = some [{}] ∧
      importText (ascii "\x7b\"data\":[\x7b\x7d]\x7d") = none := by
  decide +kernel

end NvIpfix
