/-
**JSON documents and what the importer makes of them.**

The documents of this module are of the form `{"data":[{...},...]}`, with objects of scalar
members.  A name or a value never holds a quote, a vertical tab or one of the characters
`, { } [ ]` at which the importer cuts; a value may hold a colon and a name may not.  Between any
two tokens of a document there may be blanks.

The importer's five passes are followed once, for documents with blanks, and the result is stated
without them: the records of the document are those of its objects (`SpacedObject.record`), with
one empty record in front when there are blanks before the first object, and with the last member
of an object damaged when there are blanks behind the closing brace.  Compact documents are the
case without blanks.

Main definitions:

* `NvIpfix.Name`, `NvIpfix.Scalar`, `NvIpfix.Member`, `NvIpfix.Object`, `NvIpfix.documentText`;
* `NvIpfix.SpacedMember`, `NvIpfix.SpacedObject`, `NvIpfix.SpacedDocument` — with blanks;
* `NvIpfix.storeMember`, `NvIpfix.Object.record` — the record of an object.

Main results:

* `NvIpfix.importItem_pair` — an item is a name, its first colon and a value;
* `NvIpfix.importText_array` — the records of a document are those of the text of its array;
* `NvIpfix.SpacedDocument.importText_text` — **what the importer makes of a document with blanks**;
* `NvIpfix.importText_documentText` — **one record for each object of a compact document**.
-/

import NvIpfix.Passes

set_option relaxedAutoImplicit false
set_option autoImplicit false

namespace NvIpfix

/-! ### Members and objects -/

/-- The characters that do not occur in a value: the terminator, the characters at which the
importer cuts, and the quote. -/
def valueStops : CString := 0 :: ascii ",\x7b\x7d[]\"\x0b"

/-- The characters that do not occur in a name. -/
def nameStops : CString := 58 :: valueStops

/-- A member name, without its quotes. -/
structure Name where
  text : CString
  free : Free nameStops text
  deriving DecidableEq

/-- A scalar: a string in quotes, or a bare token. -/
structure Scalar where
  quoted : Bool
  content : CString
  free : Free valueStops content
  nonempty : quoted = false → content ≠ []
  deriving DecidableEq

/-- The text of a scalar. -/
def Scalar.text (v : Scalar) : CString := if v.quoted then 34 :: (v.content ++ [34]) else v.content

/-- A member of an object. -/
structure Member where
  name : Name
  value : Scalar
  deriving DecidableEq

/-- A member of literal texts. -/
def Member.mkLiteral (quoted : Bool) (name value : CString)
    (hname : Free nameStops name := by decide) (hvalue : Free valueStops value := by decide)
    (hne : quoted = false → value ≠ [] := by decide) : Member :=
  ⟨⟨name, hname⟩, ⟨quoted, value, hvalue, hne⟩⟩

/-- The number one. -/
def Scalar.one : Scalar := ⟨false, ascii "1", by decide, by decide⟩

/-- The VLAN one. -/
def Member.vlanOne : Member := ⟨⟨ascii "vlan", by decide⟩, .one⟩

/-- The text of a member in a compact document. -/
def Member.text (m : Member) : CString := 34 :: (m.name.text ++ 34 :: 58 :: m.value.text)

/-- An object, with at least one member. -/
structure Object where
  members : List Member
  nonempty : members ≠ [] := by simp

/-- The text of an object in a compact document. -/
def Object.text (o : Object) : CString := 123 :: (joinComma (o.members.map Member.text) ++ [125])

/-- The text in front of the array. -/
def documentHead : CString := ascii "\x7b\"data\":"

/-- The compact document of a list of objects. -/
def documentText (objects : List Object) : CString :=
  documentHead ++ 91 :: (joinComma (objects.map Object.text) ++ [93, 125])

/-- What a member adds to the record. -/
def Member.store (m : Member) (data : DataRecord) : DataRecord :=
  storeMember (trimName m.name.text) (trimValue m.value.content) data

/-- The record of an object. -/
def Object.record (o : Object) : DataRecord := o.members.foldl (fun data m => m.store data) {}

/-! ### Documents with blanks -/

/-- A possibly empty run of blanks, tabs, carriage returns and line feeds. -/
structure Blank where
  text : CString
  blank : ∀ c ∈ text, c ∈ defaultTrimChars

/-- No blanks. -/
def Blank.none : Blank := ⟨[], by simp⟩

/-- Blanks are without the characters of any set that has no blank. -/
theorem Blank.free (b : Blank) {charset : CString} (h : Free charset defaultTrimChars) :
    Free charset b.text := free_of_forall_mem b.blank h

/-- A member with the blanks in front of it, around its colon and behind it. -/
structure SpacedMember extends Member where
  beforeName : Blank
  afterName : Blank
  beforeValue : Blank
  afterValue : Blank

namespace SpacedMember

/-- The text up to the colon. -/
def head (m : SpacedMember) : CString :=
  m.beforeName.text ++ 34 :: (m.name.text ++ 34 :: m.afterName.text)

/-- The text behind the colon. -/
def tail (m : SpacedMember) : CString :=
  m.beforeValue.text ++ (m.value.text ++ m.afterValue.text)

/-- The text of the member. -/
def text (m : SpacedMember) : CString := m.head ++ 58 :: m.tail

/-- A member without blanks. -/
def ofMember (m : Member) : SpacedMember :=
  { m with beforeName := .none, afterName := .none, beforeValue := .none, afterValue := .none }

@[simp] theorem ofMember_toMember (m : Member) : (ofMember m).toMember = m := rfl

theorem ofMember_text (m : Member) : (ofMember m).text = m.text := by
  simp [ofMember, text, head, tail, Member.text, Blank.none]

end SpacedMember

/-- The text from the closing brace of an object to the opening brace of the next, which has the
blanks `next` in front of it. -/
def closingText (after : Blank) (next : Option Blank) : CString :=
  125 :: (after.text ++
    match next with
    | none => []
    | some b => 44 :: b.text)

/-- Whether there are blanks in that text. -/
def hasBlanks (after : Blank) (next : Option Blank) : Bool :=
  !after.text.isEmpty || next.any fun b => !b.text.isEmpty

/-- An object with the blanks in front of it and behind it; its last member is kept apart. -/
structure SpacedObject where
  before : Blank
  init : List SpacedMember
  last : SpacedMember
  after : Blank

namespace SpacedObject

/-- The object without its blanks. -/
def toObject (o : SpacedObject) : Object where
  members := (o.init ++ [o.last]).map SpacedMember.toMember
  nonempty := by simp

/-- The text between the braces. -/
def body (o : SpacedObject) : CString := joinComma ((o.init ++ [o.last]).map SpacedMember.text)

/-- The text from the closing brace of the object to the opening brace of the next. -/
def closing (o : SpacedObject) (next : Option Blank) : CString := closingText o.after next

/-- Whether there are blanks in that text. -/
def isDirty (o : SpacedObject) (next : Option Blank) : Bool := hasBlanks o.after next

/-- What trimming leaves behind the last value. -/
def leftover (o : SpacedObject) (next : Option Blank) : CString :=
  if o.isDirty next then 125 :: o.after.text else []

/-- The record of the members before the last. -/
def initRecord (o : SpacedObject) : DataRecord :=
  o.init.foldl (fun data m => m.store data) {}

/-- The record of the object in front of the next: the value of the last member is read together
with what trimming leaves behind it. -/
def record (o : SpacedObject) (next : Option Blank) : DataRecord :=
  storeMember (trimName o.last.name.text)
    (trimValue (o.last.value.text ++ o.last.afterValue.text ++ o.leftover next)) o.initRecord

end SpacedObject

/-- An object of an array: an empty one may have blanks between its braces. -/
inductive ArrayObject
  | empty (before inside after : Blank)
  | members (object : SpacedObject)

namespace ArrayObject

/-- The blanks in front of the object. -/
def before : ArrayObject → Blank
  | empty before _ _ => before
  | members o => o.before

/-- The blanks behind the object. -/
def after : ArrayObject → Blank
  | empty _ _ after => after
  | members o => o.after

/-- The text between the braces. -/
def body : ArrayObject → CString
  | empty _ inside _ => inside.text
  | members o => o.body

/-- The records of the object: blanks in an empty object or behind it amount to one. -/
def records (next : Option Blank) : ArrayObject → List DataRecord
  | empty _ inside after => if inside.text = [] ∧ hasBlanks after next = false then [] else [{}]
  | members o => [o.record next]

end ArrayObject

/-- The blanks in front of the first of some objects. -/
def gap (objects : List ArrayObject) : Option Blank := objects.head?.map ArrayObject.before

/-- The text between the square brackets. -/
def arrayText : List ArrayObject → CString
  | [] => []
  | o :: os =>
      o.before.text ++ 123 :: (o.body ++ 125 :: (o.after.text ++
        if os.isEmpty then [] else 44 :: arrayText os))

/-- The record that blanks in front of the first object amount to. -/
def blankRecord (first : ArrayObject) : List DataRecord :=
  if first.before.text = [] then [] else [{}]

/-- The records of the objects of an array. -/
def arrayRecords : List ArrayObject → List DataRecord
  | [] => []
  | o :: os => o.records (gap os) ++ arrayRecords os

/-- A document with blanks; it has at least one object. -/
structure SpacedDocument where
  lead : Blank
  beforeData : Blank
  afterData : Blank
  beforeArray : Blank
  first : ArrayObject
  others : List ArrayObject
  afterArray : Blank
  trail : Blank

namespace SpacedDocument

/-- The text in front of the array. -/
def head (d : SpacedDocument) : CString :=
  d.lead.text ++ 123 :: (d.beforeData.text ++ (ascii "\"data\"" ++
    (d.afterData.text ++ 58 :: d.beforeArray.text)))

/-- The text of the document. -/
def text (d : SpacedDocument) : CString :=
  d.head ++ 91 :: (arrayText (d.first :: d.others) ++
    93 :: (d.afterArray.text ++ 125 :: d.trail.text))

end SpacedDocument

/-! ### The texts of members -/

/-- The characters of `valueStops` other than the quote: they occur nowhere in a member. -/
def memberStops : CString := 0 :: ascii ",\x7b\x7d[]\x0b"

theorem mem_valueStops {c : UInt8} (h : c ∈ memberStops) : c ∈ valueStops := by
  revert c
  decide

/-- Blanks are not trimmed from a record. -/
theorem Blank.isRecord_text (b : Blank) : isRecord b.text = !b.text.isEmpty := by
  have hfree : Free recordTrimChars b.text := b.free (by decide)
  have hkeep := hfree.inCharset_eq_false
  cases htext : b.text with
  | nil => rfl
  | cons c cs =>
      rw [htext] at hkeep
      simp [isRecord, hkeep c (by simp)]

theorem free_blank (b : Blank) : Free memberStops b.text := b.free (by decide)

theorem Scalar.free_text (v : Scalar) : Free memberStops v.text := by
  have hv : Free memberStops v.content := v.free.mono fun _ => mem_valueStops
  rw [Scalar.text]
  split
  · simp only [free_cons, free_append]
    exact ⟨by decide, hv, by decide, free_nil _⟩
  · exact hv

theorem Scalar.text_ne_nil (v : Scalar) : v.text ≠ [] := by
  rw [Scalar.text]
  split
  · simp
  · exact v.nonempty (by simpa using ‹¬v.quoted = true›)

/-- The characters trimmed from an item are in the trim set. -/
theorem inCharset_itemTrimChars_blank (b : Blank) :
    ∀ c ∈ b.text, inCharset itemTrimChars c = true := by
  have hsub : ∀ c ∈ defaultTrimChars, inCharset itemTrimChars c = true := by decide
  exact fun c hc => hsub c (b.blank c hc)

/-- Blanks and one quote at either end are trimmed from a name or a value. -/
theorem trimValue_pad {a b s : CString} (ha : ∀ c ∈ a, inCharset itemTrimChars c = true)
    (hb : ∀ c ∈ b, inCharset itemTrimChars c = true) : trimValue (a ++ s ++ b) = trimValue s := by
  rw [trimValue, trimValue, stringTrim_eq_trim, stringTrim_eq_trim, Tokens.trim_pad _ ha hb]

theorem Scalar.trimValue_text (v : Scalar) : trimValue v.text = trimValue v.content := by
  rw [Scalar.text]
  split
  · have h34 : ∀ c ∈ ([34] : CString), inCharset itemTrimChars c = true := by decide
    exact trimValue_pad (a := [34]) h34 h34
  · rfl

namespace SpacedMember

variable (m : SpacedMember)

theorem free_head : Free memberStops m.head := by
  simp only [head, free_append, free_cons]
  exact ⟨free_blank _, by decide,
    m.name.free.mono fun c hc => List.mem_cons_of_mem _ (mem_valueStops hc), by decide,
    free_blank _⟩

theorem free_tail : Free memberStops m.tail := by
  simp only [tail, free_append]
  exact ⟨free_blank _, m.value.free_text, free_blank _⟩

theorem free_text : Free memberStops m.text := by
  simp only [text, free_append, free_cons]
  exact ⟨m.free_head, by decide, m.free_tail⟩

theorem head_ne_nil : m.head ≠ [] := by simp [head]

theorem tail_ne_nil : m.tail ≠ [] := by simp [tail, m.value.text_ne_nil]

theorem text_ne_nil : m.text ≠ [] := by simp [text]

theorem colon_not_mem_head : 58 ∉ m.head := by
  have hblank : ∀ b : Blank, 58 ∉ b.text := by
    intro b h
    exact absurd (b.blank 58 h) (by decide)
  have hname : 58 ∉ m.name.text := fun h => m.name.free 58 h (by simp [nameStops])
  simp [head, hblank, hname]

theorem trimName_head : trimName m.head = trimName m.name.text := by
  have hpad := trimValue_pad (a := m.beforeName.text ++ [34]) (b := 34 :: m.afterName.text)
    (s := m.name.text) ?_ ?_
  · rw [trimValue, trimValue] at hpad
    rw [trimName, trimName, ← hpad, head]
    simp
  · intro c hc
    rcases List.mem_append.1 hc with hc | hc
    · exact inCharset_itemTrimChars_blank _ c hc
    · rw [List.mem_singleton.1 hc]
      rfl
  · intro c hc
    rcases List.mem_cons.1 hc with rfl | hc
    · rfl
    · exact inCharset_itemTrimChars_blank _ c hc

/-- The value of a member with `w` behind it. -/
theorem trimValue_tail (w : CString) :
    trimValue (m.tail ++ w) = trimValue (m.value.text ++ m.afterValue.text ++ w) := by
  have hpad := trimValue_pad (a := m.beforeValue.text) (b := [])
    (s := m.value.text ++ m.afterValue.text ++ w) (inCharset_itemTrimChars_blank _) (by simp)
  rw [← hpad, tail]
  simp

/-- **The item of a member, with `w` behind it.** -/
theorem importItem_text_append {w : CString} (hw : 11 ∉ w) (data : DataRecord) :
    importItem data (m.text ++ w) = storeMember (trimName m.name.text)
      (trimValue (m.value.text ++ m.afterValue.text ++ w)) data := by
  have htail : 11 ∉ m.tail ++ w := by
    rw [List.mem_append]
    rintro (h | h)
    · exact m.free_tail 11 h (by decide)
    · exact hw h
  rw [text, List.append_assoc, List.cons_append,
    importItem_pair m.colon_not_mem_head m.head_ne_nil (fun h => m.free_head 11 h (by decide))
      (by simp [m.tail_ne_nil]) htail,
    m.trimName_head, m.trimValue_tail]

/-- **The item of a member**: its blanks do not matter. -/
theorem importItem_text (data : DataRecord) : importItem data m.text = m.store data := by
  have h := m.importItem_text_append (w := []) (by simp) data
  have hpad := trimValue_pad (a := []) (b := m.afterValue.text) (s := m.value.text) (by simp)
    (inCharset_itemTrimChars_blank _)
  rw [List.nil_append] at hpad
  rw [List.append_nil, List.append_nil, hpad, m.value.trimValue_text] at h
  exact h

/-- The items of several members. -/
theorem foldl_importItem_text (ms : List SpacedMember) (data : DataRecord) :
    (ms.map text).foldl importItem data = ms.foldl (fun data m => m.store data) data := by
  rw [List.foldl_map]
  simp only [importItem_text]

/-- The last character of a member is not trimmed from a record. -/
theorem getLast?_text : ∀ c ∈ m.text.getLast?, inCharset recordTrimChars c = false := by
  intro c hc
  have hsub : ∀ c ∈ recordTrimChars, c ∈ memberStops := by decide
  rw [inCharset_eq_false_iff]
  exact fun h => m.free_text c (List.mem_of_getLast? hc) (hsub c h)

end SpacedMember

/-! ### Records -/

/-- Blanks alone add an empty record. -/
theorem importRecord_blank {b : Blank} (h : b.text ≠ []) (result : Option (List DataRecord)) :
    importRecord result b.text = dataListAddCopy result {} := by
  have hcolon : (58 : UInt8) ∉ b.text := fun hc => absurd (b.blank 58 hc) (by decide)
  rw [importRecord_of_not_mem hcolon, b.isRecord_text, List.isEmpty_eq_false_iff.2 h]
  rfl

/-- An empty object adds a record if there are blanks in it or behind it. -/
theorem importRecord_empty (inside after : Blank) (next : Option Blank)
    (result : Option (List DataRecord)) :
    importRecord result (inside.text ++ closingText after next) =
      if inside.text = [] ∧ hasBlanks after next = false then result
      else dataListAddCopy result {} := by
  have hblank : ∀ b : Blank, 58 ∉ b.text := fun b hc => absurd (b.blank 58 hc) (by decide)
  have hcolon : (58 : UInt8) ∉ inside.text ++ closingText after next := by
    cases next <;> simp [closingText, hblank]
  have hrecord : isRecord (inside.text ++ closingText after next) =
      (!inside.text.isEmpty || hasBlanks after next) := by
    have happend : ∀ s t : CString, isRecord (s ++ t) = (isRecord s || isRecord t) :=
      fun s t => List.any_append
    have hbrace : ∀ s : CString, isRecord (125 :: s) = isRecord s := fun _ => rfl
    have hcomma : ∀ s : CString, isRecord (44 :: s) = isRecord s := fun _ => rfl
    cases next with
    | none =>
        simp only [closingText, hasBlanks, happend, hbrace, Blank.isRecord_text]
        rfl
    | some b =>
        simp only [closingText, hasBlanks, happend, hbrace, hcomma, Blank.isRecord_text,
          Option.any_some]
  rw [importRecord_of_not_mem hcolon, hrecord]
  cases hinside : inside.text.isEmpty <;> cases hblanks : hasBlanks after next <;>
    simp_all

namespace SpacedObject

variable (o : SpacedObject) (next : Option Blank)

/-- What becomes of the text behind the last member in the record's items: the leftover, and the
blanks in front of the next object as an item of their own. -/
def blankItem : List CString :=
  match next with
  | none => []
  | some b => if b.text = [] then [] else [b.text]

/-- The items of the record. -/
def items : List CString :=
  o.init.map SpacedMember.text ++ [o.last.text ++ o.leftover next] ++ blankItem next

theorem free_leftover : Free (ascii ",\x0b") (o.leftover next) := by
  have h : Free (ascii ",\x0b") o.after.text := o.after.free (by decide)
  rw [leftover]
  split
  · exact free_cons.2 ⟨by decide, h⟩
  · exact free_nil _

theorem body_eq : o.body = joinComma (o.init.map SpacedMember.text ++ [o.last.text]) := by
  simp [body]

theorem body_ne_nil : o.body ≠ [] := by
  rw [body_eq, ← List.nil_append o.last.text, ← joinComma_append]
  simp [o.last.text_ne_nil]

/-- The first character of an object is not trimmed from its record. -/
theorem head?_body : ∀ c ∈ o.body.head?, inCharset recordTrimChars c = false := by
  intro c hc
  have hmember : ∀ m : SpacedMember, ∀ c ∈ m.text.head?, inCharset recordTrimChars c = false := by
    have hsub : ∀ c ∈ recordTrimChars, c ∈ memberStops := by decide
    intro m c hc
    rw [inCharset_eq_false_iff]
    exact fun h => m.free_text c (List.mem_of_mem_head? hc) (hsub c h)
  rw [body] at hc
  cases hi : o.init with
  | nil =>
      rw [hi] at hc
      exact hmember _ c hc
  | cons m ms =>
      rw [hi, List.cons_append, List.map_cons, joinComma_cons _ (by simp),
        List.head?_append_of_ne_nil _ m.text_ne_nil] at hc
      exact hmember _ c hc

/-- What trimming keeps of the text behind the last member. -/
def kept : CString := o.leftover next ++ (blankItem next).flatMap (44 :: ·)

theorem joinComma_items : joinComma (o.items next) = o.body ++ o.kept next := by
  have hinit : joinComma (o.init.map SpacedMember.text ++ [o.last.text ++ o.leftover next]) =
      o.body ++ o.leftover next := by
    rw [body_eq, ← joinComma_append]
  rw [items, kept]
  cases next with
  | none => simpa [blankItem] using hinit
  | some b =>
      by_cases hb : b.text = []
      · simpa [blankItem, hb] using hinit
      · simp only [blankItem, hb, if_false, List.flatMap_cons, List.flatMap_nil, List.append_nil]
        rw [List.append_assoc, List.singleton_append, ← joinComma_append_comma, hinit,
          List.append_assoc]

/-- **Trimming a record** takes away commas and closing braces only. -/
theorem exists_closing_eq : ∃ w, (∀ c ∈ w, inCharset recordTrimChars c = true) ∧
    o.closing next = o.kept next ++ w := by
  have hbrace : ∀ c ∈ [125], inCharset recordTrimChars c = true := by decide
  have hcomma : ∀ c ∈ [44], inCharset recordTrimChars c = true := by decide
  have hboth : ∀ c ∈ [125, 44], inCharset recordTrimChars c = true := by decide
  simp only [closing, closingText, kept, leftover, isDirty, hasBlanks, blankItem]
  cases next with
  | none =>
      by_cases ha : o.after.text = []
      · exact ⟨[125], hbrace, by simp [ha]⟩
      · exact ⟨[], by simp, by simp [ha]⟩
  | some b =>
      by_cases hb : b.text = []
      · by_cases ha : o.after.text = []
        · exact ⟨[125, 44], hboth, by simp [ha, hb]⟩
        · exact ⟨[44], hcomma, by simp [ha, hb]⟩
      · exact ⟨[], by simp, by simp [hb]⟩

/-- What is kept ends in a blank, unless it is empty. -/
theorem getLast?_kept : ∀ c ∈ (o.kept next).getLast?, inCharset recordTrimChars c = false := by
  have hblank : ∀ (b : Blank) (s : CString), b.text ≠ [] →
      ∀ c ∈ (s ++ b.text).getLast?, inCharset recordTrimChars c = false := by
    intro b s hb c hc
    have hfree : Free recordTrimChars b.text := b.free (by decide)
    rw [inCharset_eq_false_iff]
    exact free_getLast?_append hb hfree c hc
  simp only [kept, leftover, isDirty, hasBlanks, blankItem]
  cases next with
  | none =>
      by_cases ha : o.after.text = []
      · simp [ha]
      · simpa [ha] using hblank o.after [125] ha
  | some b =>
      by_cases hb : b.text = []
      · by_cases ha : o.after.text = []
        · simp [ha, hb]
        · simpa [ha, hb] using hblank o.after [125] ha
      · have h := hblank b (125 :: (o.after.text ++ [44])) hb
        simpa [hb] using h

/-- The record token of an object trims to its items. -/
theorem stringTrim_record : stringTrim (o.body ++ o.closing next) (some recordTrimChars) =
    joinComma (o.items next) := by
  obtain ⟨w, hw, hclosing⟩ := o.exists_closing_eq next
  have hpad := Tokens.trim_pad (inCharset recordTrimChars) (l := o.body ++ o.kept next) (a := [])
    (by simp) hw
  rw [List.nil_append] at hpad
  rw [hclosing, ← List.append_assoc, stringTrim_eq_trim, hpad, joinComma_items]
  refine Tokens.trim_eq_self _ ?_ ?_
  · rw [List.head?_append_of_ne_nil _ o.body_ne_nil]
    exact o.head?_body
  · by_cases hk : o.kept next = []
    · rw [hk, List.append_nil, body_eq, ← List.nil_append o.last.text, ← joinComma_append,
        List.getLast?_append_of_ne_nil _ o.last.text_ne_nil]
      exact o.last.getLast?_text
    · rw [List.getLast?_append_of_ne_nil _ hk]
      exact o.getLast?_kept next

/-- **The record of an object with blanks**, in front of those of the next. -/
theorem importRecord_object (result : Option (List DataRecord)) :
    importRecord result (o.body ++ o.closing next) = dataListAddCopy result (o.record next) := by
  have hcommas : ∀ c ∈ ascii ",", c ∈ memberStops := by decide
  have hmember : ∀ m : SpacedMember, Free (ascii ",") m.text := fun m => m.free_text.mono hcommas
  have hleft := o.free_leftover next
  have hblank : ∀ item ∈ blankItem next, item ≠ [] ∧ 58 ∉ item ∧ Free (ascii ",") item := by
    intro item hitem
    cases next with
    | none => simp [blankItem] at hitem
    | some b =>
        by_cases hb : b.text = []
        · simp [blankItem, hb] at hitem
        · simp only [blankItem, hb, if_false, List.mem_singleton] at hitem
          subst hitem
          exact ⟨hb, fun hc => absurd (b.blank 58 hc) (by decide), b.free (by decide)⟩
  rw [importRecord_of_trim (o.stringTrim_record next) (by simp [items]) ?_ ?_]
  · have hnoop : ∀ data, (blankItem next).foldl importItem data = data := by
      intro data
      refine List.foldlRecOn (motive := fun d => d = data) _ _ rfl ?_
      intro d hd item hitem
      rw [importItem_of_not_mem (hblank item hitem).2.1, hd]
    have hvt : 11 ∉ o.leftover next := fun h => hleft 11 h (by decide)
    rw [items, List.foldl_append, hnoop, List.foldl_append, SpacedMember.foldl_importItem_text,
      List.foldl_cons, List.foldl_nil, o.last.importItem_text_append hvt]
    rfl
  · intro item hitem
    simp only [items, List.mem_append, List.mem_map, List.mem_singleton] at hitem
    rcases hitem with (⟨m, -, rfl⟩ | rfl) | hitem
    · exact m.text_ne_nil
    · simp [o.last.text_ne_nil]
    · exact (hblank item hitem).1
  · intro item hitem
    simp only [items, List.mem_append, List.mem_map, List.mem_singleton] at hitem
    rcases hitem with (⟨m, -, rfl⟩ | rfl) | hitem
    · exact hmember m
    · exact free_append.2 ⟨hmember o.last, hleft.mono (by decide)⟩
    · exact (hblank item hitem).2.2

/-- The record of the members is that of the members before the last, with the last stored. -/
theorem toObject_record : o.toObject.record = storeMember (trimName o.last.name.text)
    (trimValue o.last.value.content) o.initRecord := by
  rw [Object.record]
  simp only [toObject, List.map_append, List.foldl_append, List.foldl_map]
  rfl

/-- The record of an object behind which there are no blanks is that of its members. -/
theorem record_of_not_dirty (h : o.isDirty next = false) : o.record next = o.toObject.record := by
  have hpad := trimValue_pad (a := []) (b := o.last.afterValue.text) (s := o.last.value.text)
    (by simp) (inCharset_itemTrimChars_blank _)
  rw [List.nil_append] at hpad
  rw [record, leftover, if_neg (by simp [h]), List.append_nil, hpad, o.last.value.trimValue_text,
    toObject_record]

end SpacedObject

/-! ### The array -/

theorem SpacedObject.free_body (o : SpacedObject) : Free (ascii "[]\x7b\x7d\x0b") o.body := by
  have hsub : ∀ c ∈ ascii "[]\x7b\x7d\x0b", c ∈ memberStops := by decide
  refine free_joinComma (by decide) ?_
  intro t ht
  obtain ⟨m, -, rfl⟩ := List.mem_map.1 ht
  exact m.free_text.mono hsub

theorem ArrayObject.free_body (o : ArrayObject) : Free (ascii "[]\x7b\x7d\x0b") o.body := by
  cases o with
  | empty before inside after => exact inside.free (by decide)
  | members o => exact o.free_body

theorem free_closingText (after : Blank) (next : Option Blank) :
    Free (ascii "[]\x7b\x0b") (closingText after next) := by
  have hblank : ∀ b : Blank, Free (ascii "[]\x7b\x0b") b.text := fun b => b.free (by decide)
  cases next with
  | none => exact free_cons.2 ⟨by decide, free_append.2 ⟨hblank _, free_nil _⟩⟩
  | some b =>
      exact free_cons.2 ⟨by decide, free_append.2 ⟨hblank _, free_cons.2 ⟨by decide, hblank _⟩⟩⟩

/-- **The records of an object of an array** are added one after the other. -/
theorem ArrayObject.importRecord_token (o : ArrayObject) (next : Option Blank)
    (result : Option (List DataRecord)) :
    importRecord result (o.body ++ closingText o.after next) =
      (o.records next).foldl dataListAddCopy result := by
  cases o with
  | empty before inside after =>
      change importRecord result (inside.text ++ closingText after next) = _
      rw [importRecord_empty, records]
      split <;> rfl
  | members o => exact o.importRecord_object next result

/-- The text of the array from its first brace on. -/
def bracesText : List ArrayObject → CString
  | [] => []
  | o :: os => 123 :: (o.body ++ closingText o.after (gap os) ++ bracesText os)

theorem arrayText_cons (o : ArrayObject) (os : List ArrayObject) :
    arrayText (o :: os) = o.before.text ++ bracesText (o :: os) := by
  induction os generalizing o with
  | nil => simp [arrayText, bracesText, closingText, gap]
  | cons o' os ih =>
      rw [arrayText, if_neg (by simp), ih]
      simp [bracesText, closingText, gap]

theorem free_bracesText (os : List ArrayObject) : Free (ascii "[]\x0b") (bracesText os) := by
  induction os with
  | nil => exact free_nil _
  | cons o os ih =>
      simp only [bracesText, free_cons, free_append]
      exact ⟨by decide, ⟨o.free_body.mono (by decide), (free_closingText _ _).mono (by decide)⟩, ih⟩

/-- **The records of the objects of an array** are added one after the other. -/
theorem foldl_importRecord_runs (os : List ArrayObject) (result : Option (List DataRecord)) :
    (Tokens.runs (inCharset (ascii "\x7b")) (bracesText os)).foldl importRecord result =
      (arrayRecords os).foldl dataListAddCopy result := by
  induction os generalizing result with
  | nil => simp [bracesText, arrayRecords]
  | cons o os ih =>
      have hbrace : inCharset (ascii "\x7b") 123 = true := rfl
      have hne : o.body ++ closingText o.after (gap os) ≠ [] := by simp [closingText]
      have hfree : Free (ascii "\x7b") (o.body ++ closingText o.after (gap os)) :=
        free_append.2 ⟨o.free_body.mono (by decide), (free_closingText _ _).mono (by decide)⟩
      have hruns : Tokens.runs (inCharset (ascii "\x7b")) (bracesText (o :: os)) =
          (o.body ++ closingText o.after (gap os)) ::
            Tokens.runs (inCharset (ascii "\x7b")) (bracesText os) := by
        rw [bracesText, Tokens.runs_cons_of_pos _ _ hbrace]
        cases os with
        | nil =>
            rw [bracesText, List.append_nil, Tokens.runs_eq_singleton _ hne
              hfree.inCharset_eq_false, Tokens.runs_nil]
        | cons o' os =>
            rw [bracesText, Tokens.runs_append_cons_of_free _ hne hfree.inCharset_eq_false _ hbrace,
              Tokens.runs_cons_of_pos _ _ hbrace]
      rw [hruns, List.foldl_cons, o.importRecord_token, ih, arrayRecords, List.foldl_append]

/-- What the importer does with the text between the square brackets: blanks in front of the first
object become a record. -/
theorem importRecords_arrayText (o : ArrayObject) (os : List ArrayObject) :
    importRecords none (arrayText (o :: os)) =
      addedRecords (blankRecord o ++ arrayRecords (o :: os)) := by
  have hbrace : inCharset (ascii "\x7b") 123 = true := rfl
  rw [importRecords_eq_runs, arrayText_cons, blankRecord, addedRecords, List.foldl_append]
  by_cases hb : o.before.text = []
  · rw [hb, List.nil_append, foldl_importRecord_runs, if_pos rfl, List.foldl_nil]
  · have hfree : Free (ascii "\x7b") o.before.text := o.before.free (by decide)
    have hruns : Tokens.runs (inCharset (ascii "\x7b")) (o.before.text ++ bracesText (o :: os)) =
        o.before.text :: Tokens.runs (inCharset (ascii "\x7b")) (bracesText (o :: os)) := by
      rw [bracesText, Tokens.runs_append_cons_of_free _ hb hfree.inCharset_eq_false _ hbrace,
        Tokens.runs_cons_of_pos _ _ hbrace]
    rw [hruns, List.foldl_cons, importRecord_blank hb, foldl_importRecord_runs, if_neg hb,
      List.foldl_cons, List.foldl_nil]

/-! ### Documents -/

namespace SpacedDocument

variable (d : SpacedDocument)

theorem free_head : Free (ascii "[]\x0b") d.head := by
  have hblank : ∀ b : Blank, Free (ascii "[]\x0b") b.text := fun b => b.free (by decide)
  have hdata : Free (ascii "[]\x0b") (ascii "\"data\"") := by decide
  simp only [head, free_append, free_cons, hblank, hdata, and_true, true_and]
  decide

/-- The text in front of the array trims to `data`. -/
theorem stringTrimCopy_head : stringTrimCopy d.head (some tokenTrimChars) = ascii "data" := by
  have hblank : ∀ b : Blank, ∀ c ∈ b.text, inCharset tokenTrimChars c = true := by
    have hsub : ∀ c ∈ defaultTrimChars, inCharset tokenTrimChars c = true := by decide
    exact fun b c hc => hsub c (b.blank c hc)
  have hpad := Tokens.trim_pad (inCharset tokenTrimChars) (l := ascii "data")
    (a := d.lead.text ++ 123 :: (d.beforeData.text ++ [34]))
    (b := 34 :: (d.afterData.text ++ 58 :: d.beforeArray.text)) ?_ ?_
  · have hkeep : Tokens.trim (inCharset tokenTrimChars) (ascii "data") = ascii "data" := rfl
    have hquotes : ascii "\"data\"" = 34 :: (ascii "data" ++ [34]) := rfl
    rw [stringTrimCopy, stringTrim_eq_trim, ← hkeep, ← hpad, head, hquotes]
    simp
  · have hbrace : inCharset tokenTrimChars 123 = true := rfl
    have hquote : inCharset tokenTrimChars 34 = true := rfl
    intro c hc
    simp only [List.mem_append, List.mem_cons, List.not_mem_nil, or_false] at hc
    rcases hc with hc | rfl | hc | rfl
    · exact hblank _ c hc
    · exact hbrace
    · exact hblank _ c hc
    · exact hquote
  · intro c hc
    simp only [List.mem_append, List.mem_cons] at hc
    rcases hc with rfl | hc | rfl | hc
    · rfl
    · exact hblank _ c hc
    · rfl
    · exact hblank _ c hc

/-- **What the importer makes of a document with blanks.** -/
theorem importText_text : importText d.text =
    addedRecords (blankRecord d.first ++ arrayRecords (d.first :: d.others)) := by
  have hblank : ∀ b : Blank, Free (ascii "[]") b.text := fun b => b.free (by decide)
  rw [text, importText_array (d.free_head.mono (by decide)) d.stringTrimCopy_head,
    importRecords_arrayText]
  · rw [arrayText_cons, free_append]
    exact ⟨hblank _, (free_bracesText _).mono (by decide)⟩
  · simp [arrayText]
  · simp only [free_append, free_cons, hblank, and_true, true_and]
    decide
  · simp

end SpacedDocument

/-! ### Compact documents -/

namespace SpacedObject

/-- An object without blanks. -/
def ofObject (o : Object) : SpacedObject where
  before := .none
  init := o.members.dropLast.map SpacedMember.ofMember
  last := .ofMember (o.members.getLast o.nonempty)
  after := .none

theorem ofObject_members (o : Object) : (ofObject o).init ++ [(ofObject o).last] =
    o.members.map SpacedMember.ofMember := by
  conv_rhs => rw [← List.dropLast_append_getLast o.nonempty, List.map_append, List.map_singleton]
  rfl

theorem ofObject_toObject (o : Object) : (ofObject o).toObject = o := by
  cases o with
  | mk members nonempty =>
      simp only [toObject, ofObject_members, List.map_map, Object.mk.injEq]
      exact List.map_id'' (fun _ => rfl) _

theorem ofObject_body (o : Object) : (ofObject o).body = joinComma (o.members.map Member.text) := by
  rw [body, ofObject_members, List.map_map]
  exact congrArg joinComma (List.map_congr_left fun m _ => SpacedMember.ofMember_text m)

theorem ofObject_record (o : Object) (os : List Object) :
    (ofObject o).record (gap (os.map fun o => .members (ofObject o))) = o.record := by
  have hdirty : (ofObject o).isDirty (gap (os.map fun o => .members (ofObject o))) = false := by
    cases os <;> rfl
  rw [record_of_not_dirty _ _ hdirty, ofObject_toObject]

end SpacedObject

/-- An object of a compact document. -/
def ArrayObject.ofObject (o : Object) : ArrayObject := .members (.ofObject o)

theorem arrayText_map_ofObject (os : List Object) :
    arrayText (os.map ArrayObject.ofObject) = joinComma (os.map Object.text) := by
  induction os with
  | nil => rfl
  | cons o os ih =>
      have hbody : (ArrayObject.ofObject o).body = joinComma (o.members.map Member.text) :=
        SpacedObject.ofObject_body o
      rw [List.map_cons, arrayText, ih, hbody]
      cases os with
      | nil => simp [ArrayObject.ofObject, ArrayObject.before, ArrayObject.after,
          SpacedObject.ofObject, Blank.none, Object.text]
      | cons o' os => simp [ArrayObject.ofObject, ArrayObject.before, ArrayObject.after,
          SpacedObject.ofObject, Blank.none, Object.text, joinComma]

theorem arrayRecords_map_ofObject (os : List Object) :
    arrayRecords (os.map ArrayObject.ofObject) = os.map Object.record := by
  induction os with
  | nil => rfl
  | cons o os ih =>
      rw [List.map_cons, arrayRecords, ih, List.map_cons]
      exact congrArg (· :: _) (SpacedObject.ofObject_record o os)

/-- **One record for each object of a compact document**, whatever follows the array. -/
theorem importText_objects {objects : List Object} (hne : objects ≠ []) {post : CString}
    (hpost : Free (ascii "[]") post) (hpostNe : post ≠ []) :
    importText (documentHead ++ 91 :: (joinComma (objects.map Object.text) ++ 93 :: post)) =
      some (objects.map Object.record) := by
  obtain ⟨o, os, rfl⟩ := List.exists_cons_of_ne_nil hne
  have hdata : stringTrimCopy documentHead (some tokenTrimChars) = ascii "data" := by decide
  rw [← arrayText_map_ofObject, importText_array (by decide) hdata _ _ hpost hpostNe,
    List.map_cons, importRecords_arrayText, ← List.map_cons, arrayRecords_map_ofObject]
  · exact addedRecords_of_ne_nil (by simp)
  · rw [List.map_cons, arrayText_cons]
    exact (free_bracesText _).mono (by decide)
  · simp [arrayText]

/-- **One record for each object of a compact document.** -/
theorem importText_documentText {objects : List Object} (hne : objects ≠ []) :
    importText (documentText objects) = some (objects.map Object.record) := by
  have hpost : Free (ascii "[]") [125] := by decide
  exact importText_objects hne hpost (by simp)

theorem Member.free_text (m : Member) : Free memberStops m.text := by
  rw [← SpacedMember.ofMember_text]
  exact (SpacedMember.ofMember m).free_text

/-- Members in a row have no character that no member has, but for the commas between them. -/
theorem free_members {charset : CString} (hcomma : 44 ∉ charset)
    (hsubset : ∀ c ∈ charset, c ∈ memberStops) (members : List Member) :
    Free charset (joinComma (members.map Member.text)) := by
  refine free_joinComma hcomma ?_
  intro t ht
  obtain ⟨m, -, rfl⟩ := List.mem_map.1 ht
  exact m.free_text.mono hsubset

/-- A compact document has no control characters. -/
theorem free_documentText (objects : List Object) : Free [0, 11] (documentText objects) := by
  have hobject : ∀ o : Object, Free [0, 11] o.text := by
    intro o
    have hbody : Free [0, 11] (joinComma (o.members.map Member.text)) :=
      free_members (by decide) (by decide) o.members
    exact free_cons.2 ⟨by decide, free_append.2 ⟨hbody, by decide⟩⟩
  have harray : Free [0, 11] (joinComma (objects.map Object.text)) := by
    refine free_joinComma (by decide) ?_
    intro t ht
    obtain ⟨o, -, rfl⟩ := List.mem_map.1 ht
    exact hobject o
  have hhead : Free [0, 11] documentHead := by decide
  exact free_append.2 ⟨hhead, free_cons.2 ⟨by decide, free_append.2 ⟨harray, by decide⟩⟩⟩

end NvIpfix
