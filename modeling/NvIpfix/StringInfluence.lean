/-
**What a string can change.**

Replacing the string of a member by another leaves the import as it is if the two documents are cut
into the same number of records with values that are read alike; by this the effect of any string in
any document is described.  In a document whose other members are plain scalars, and for strings
that have no square bracket and no opening brace, only the object of the member matters: its names
get values from the members in front of the string, from the pieces that the string is cut into at
its commas, and from the members behind it, and what counts is what the parsers make of all of them.

Main definitions:

* `NvIpfix.StringContext.Compact` — the other members have no control characters, as in JSON;
* `NvIpfix.StringContext.Unchanged` — one string is as good as another;
* `NvIpfix.StringContext.objectPairs` — the names and values in the object of the string.

Main results:

* `NvIpfix.StringContext.sameRecords_fill_iff` — among plain members only the object matters;
* `NvIpfix.StringContext.unchanged_iff` — **exactly when replacing a string changes nothing**.
-/

import NvIpfix.Forgery
import NvIpfix.RecordPairs

set_option relaxedAutoImplicit false
set_option autoImplicit false

namespace NvIpfix

/-! ### Lists that differ in one place -/

theorem forall₂_append_cons_iff {α : Type} {R : α → α → Prop} (hrefl : ∀ a, R a a)
    (before after : List α) (a b : α) :
    List.Forall₂ R (before ++ a :: after) (before ++ b :: after) ↔ R a b := by
  induction before with
  | nil =>
      rw [List.nil_append, List.nil_append, List.forall₂_cons]
      exact and_iff_left (List.forall₂_same.2 fun c _ => hrefl c)
  | cons c before ih =>
      rw [List.cons_append, List.cons_append, List.forall₂_cons, ih]
      exact and_iff_right (hrefl c)

/-! ### Records of joined items -/

/-- A text that is not trimmed from a record. -/
structure Untrimmed (item : CString) : Prop where
  head : ∃ c ∈ item.head?, inCharset recordTrimChars c = false
  last : ∃ c ∈ item.getLast?, inCharset recordTrimChars c = false

theorem Untrimmed.ne_nil {item : CString} (h : Untrimmed item) : item ≠ [] := by
  rintro rfl
  simpa using h.head

/-- Joined items are cut where they have been joined, and within. -/
theorem runs_joinComma (items : List CString) :
    Tokens.runs (inCharset (ascii ",")) (joinComma items) =
      items.flatMap (Tokens.runs (inCharset (ascii ","))) := by
  induction items with
  | nil => rfl
  | cons item items ih =>
      by_cases hne : items = []
      · rw [hne, joinComma_singleton, List.flatMap_cons, List.flatMap_nil, List.append_nil]
      · rw [joinComma_cons item hne, Tokens.runs_append_cons _ _ _ (by decide), ih,
          List.flatMap_cons]

/-- **The names and values of joined items**, with commas and braces behind them. -/
theorem recordPairs_joinComma {items : List CString} (hne : items ≠ [])
    (hitems : ∀ item ∈ items, Untrimmed item) {w : CString}
    (hw : ∀ c ∈ w, inCharset recordTrimChars c = true) :
    recordPairs (joinComma items ++ w) =
      (items.flatMap (Tokens.runs (inCharset (ascii ",")))).filterMap itemPair := by
  have hkeep : Tokens.trim (inCharset recordTrimChars) (joinComma items) = joinComma items := by
    refine Tokens.trim_eq_self _ ?_ ?_
    · -- the first character is that of the first item
      obtain ⟨item, items, rfl⟩ := List.exists_cons_of_ne_nil hne
      obtain ⟨c, hc, hkept⟩ := (hitems item (by simp)).head
      have hhead : (joinComma (item :: items)).head? = item.head? := by
        by_cases htail : items = []
        · rw [htail, joinComma_singleton]
        · rw [joinComma_cons item htail,
            List.head?_append_of_ne_nil _ (hitems item (by simp)).ne_nil]
      intro x hx
      rw [hhead, Option.mem_unique hx hc] at *
      exact hkept
    · obtain ⟨init, item, rfl⟩ : ∃ init item, items = init ++ [item] :=
        ⟨_, _, (List.dropLast_append_getLast hne).symm⟩
      obtain ⟨c, hc, hkept⟩ := (hitems item (by simp)).last
      have hlast : (joinComma (init ++ [item])).getLast? = item.getLast? := by
        rw [← List.nil_append item, ← joinComma_append,
          List.getLast?_append_of_ne_nil _ (hitems item (by simp)).ne_nil, List.nil_append]
      intro x hx
      rw [hlast] at hx
      rw [Option.mem_unique hx hc]
      exact hkept
  have hpad := Tokens.trim_pad (inCharset recordTrimChars) (l := joinComma items) (a := [])
    (by simp) hw
  rw [recordPairs, ← List.nil_append (joinComma items), hpad, hkeep, runs_joinComma]

/-! ### The members of an object -/

theorem untrimmed_member (m : Member) : Untrimmed m.text := by
  rw [← SpacedMember.ofMember_text]
  have hne := (SpacedMember.ofMember m).text_ne_nil
  refine ⟨⟨34, rfl, rfl⟩, _, List.getLast?_eq_some_getLast hne, ?_⟩
  exact (SpacedMember.ofMember m).getLast?_text _ (List.getLast?_eq_some_getLast hne)

theorem untrimmed_memberText (name t : JsonString) : Untrimmed (memberText name t) :=
  ⟨⟨34, rfl, rfl⟩, 34, by simp [memberText, List.getLast?_cons], rfl⟩

/-- A plain member is one item. -/
theorem runs_member (m : Member) : Tokens.runs (inCharset (ascii ",")) m.text = [m.text] := by
  have hfree : Free (ascii ",") m.text := m.free_text.mono (by decide)
  exact Tokens.runs_eq_singleton _ (untrimmed_member m).ne_nil hfree.inCharset_eq_false

/-- **The items of the string's member**: one of its name, and those of the string. -/
theorem filterMap_memberText {name : JsonString} (hname : Free (ascii ",:") name.text)
    (t : JsonString) : ∃ value,
      (Tokens.runs (inCharset (ascii ",")) (memberText name t)).filterMap itemPair =
        (trimName name.text, value) :: (stringItems t).filterMap itemPair := by
  have hcolon : 58 ∉ 34 :: (name.text ++ [34]) := by
    have hfree : 58 ∉ name.text := fun h => hname 58 h (by decide)
    simp [hfree]
  have htrim : trimName (34 :: (name.text ++ [34])) = trimName name.text :=
    Tokens.trim_pad (inCharset itemTrimChars) (l := name.text) (a := [34]) (b := [34]) (by decide)
      (by decide)
  -- the item of the name, with what stands in front of the first comma of the string
  have hpair : ∀ v, itemPair (34 :: (name.text ++ 34 :: 58 :: 34 :: v)) =
      some (trimName name.text, trimValue (34 :: v)) := by
    intro v
    have hitem : 34 :: (name.text ++ 34 :: 58 :: 34 :: v) =
        34 :: (name.text ++ [34]) ++ 58 :: 34 :: v := by simp
    rw [hitem, itemPair_append hcolon, if_neg (by simp), htrim]
  have hfree : ∀ v : CString, 44 ∉ v →
      ∀ c ∈ 34 :: (name.text ++ 34 :: 58 :: 34 :: v), inCharset (ascii ",") c = false := by
    intro v hv
    have hv' : Free (ascii ",") v := free_of_not_mem (by decide) hv
    have hn : Free (ascii ",") name.text := hname.mono (by decide)
    have hchars : (34 : UInt8) ∉ ascii "," ∧ (58 : UInt8) ∉ ascii "," := by decide
    refine Free.inCharset_eq_false ?_
    simp only [free_cons, free_append, hn, hv', hchars, not_false_eq_true, and_self]
  by_cases hmem : 44 ∈ t.text
  · obtain ⟨p, rest, ht, hp⟩ := List.eq_append_cons_of_mem hmem
    have htext : memberText name t =
        34 :: (name.text ++ 34 :: 58 :: 34 :: p) ++ 44 :: (rest ++ [34]) := by
      simp [memberText, ht]
    refine ⟨trimValue (34 :: p), ?_⟩
    rw [htext, Tokens.runs_append_cons_of_free _ (by simp) (hfree p hp) _ (by decide),
      List.filterMap_cons_some (hpair p), stringItems_of_append hp ht]
  · have hlast : 44 ∉ t.text ++ [34] := by simp [hmem]
    have hquote : itemPair [34] = none := rfl
    refine ⟨trimValue (34 :: (t.text ++ [34])), ?_⟩
    rw [memberText, Tokens.runs_eq_singleton _ (by simp) (hfree _ hlast),
      List.filterMap_cons_some (hpair _), stringItems_of_not_mem hmem,
      List.filterMap_cons_none hquote]

/-- A value for a name that is not in the table does not count. -/
theorem sameValues_cons_unknown {name value value' : CString} (h : importGetItem name = none)
    (before before' after after' : List (CString × CString)) :
    SameValues (before ++ (name, value) :: after) (before' ++ (name, value') :: after') ↔
      SameValues (before ++ after) (before' ++ after') := by
  have hvalues : ∀ entry ∈ importItems, ∀ (value : CString)
      (before after : List (CString × CString)),
      valuesOf entry.name (before ++ (name, value) :: after) =
        valuesOf entry.name (before ++ after) := by
    intro entry hentry value before after
    have hne : name ≠ entry.name := by
      rintro rfl
      rw [importGetItem_name entry hentry] at h
      cases h
    simp [valuesOf, List.filterMap_append, hne]
  refine forall₂_congr fun entry hentry => ?_
  rw [hvalues entry hentry, hvalues entry hentry]

/-! ### Documents with a string left open -/

/-- The characters that are controls. -/
def controls : CString := (List.range 32).map UInt8.ofNat

namespace StringContext

/-- The other members have no control characters, as in a compact JSON document. -/
def Compact (C : StringContext) : Prop :=
  ∀ m ∈ C.objectsBefore.flatten ++ C.membersBefore ++ C.membersAfter ++ C.objectsAfter.flatten,
    Free controls m

/-- Replacing one string by another changes nothing: both documents are imported, and alike. -/
def Unchanged (C : StringContext) (s t : JsonString) : Prop :=
  ∃ records, importTextChecked (C.fill s) = some records ∧
    importTextChecked (C.fill t) = some records

/-- The names and values in the object of the string: those of the members in front of it, those
that the string is cut into, and those of the members behind it. -/
def objectPairs (C : StringContext) (t : JsonString) : List (CString × CString) :=
  C.membersBefore.filterMap itemPair ++
    ((stringItems t).filterMap itemPair ++ C.membersAfter.filterMap itemPair)

variable {C : StringContext}

/-- Characters that are in no member are not in the array. -/
theorem free_objects {charset : CString} (hchars : Free charset (ascii "\x7b\x7d,:\""))
    (hname : Free charset C.name.text)
    (hC : ∀ m ∈ C.objectsBefore.flatten ++ C.membersBefore ++ C.membersAfter ++
      C.objectsAfter.flatten, Free charset m) {t : JsonString} (ht : Free charset t.text) :
    Free charset (joinComma (C.objectsBefore.map objectText ++
      objectText (C.membersBefore ++ memberText C.name t :: C.membersAfter) ::
        C.objectsAfter.map objectText)) := by
  have hcomma : 44 ∉ charset := hchars 44 (by decide)
  have hobject : ∀ o : List CString, (∀ m ∈ o, Free charset m) → Free charset (objectText o) := by
    intro o ho
    exact free_cons.2 ⟨hchars 123 (by decide), free_append.2 ⟨free_joinComma hcomma ho,
      free_cons.2 ⟨hchars 125 (by decide), free_nil _⟩⟩⟩
  have hmember : Free charset (memberText C.name t) := by
    simp only [memberText, free_cons, free_append, hname, ht, hchars 34 (by decide),
      hchars 58 (by decide), free_nil, not_false_eq_true, and_self]
  refine free_joinComma hcomma fun text htext => ?_
  simp only [List.mem_append, List.mem_map, List.mem_cons, List.mem_flatten] at htext hC
  rcases htext with ⟨o, ho, rfl⟩ | rfl | ⟨o, ho, rfl⟩
  · exact hobject o fun m hm => hC m (.inl (.inl (.inl ⟨o, ho, hm⟩)))
  · refine hobject _ fun m hm => ?_
    rcases List.mem_append.1 hm with hm | hm
    · exact hC m (.inl (.inl (.inr hm)))
    · rcases List.mem_cons.1 hm with rfl | hm
      · exact hmember
      · exact hC m (.inl (.inr hm))
  · exact hobject o fun m hm => hC m (.inr ⟨o, ho, hm⟩)

theorem not_mem_fill (hC : C.Compact) (t : JsonString) : 11 ∉ C.fill t := by
  have hcontrols : ∀ c ∈ controls, c ∈ stringStops := by decide
  have hobjects := free_objects (by decide) (C.name.free.mono hcontrols) hC
    (t.free.mono hcontrols)
  have hfree : Free controls (C.fill t) := free_append.2 ⟨by decide, free_cons.2 ⟨by decide,
    free_append.2 ⟨hobjects, by decide⟩⟩⟩
  exact fun h => hfree 11 h (by decide)

/-- The texts of the members in the object of the string. -/
theorem Flat.kept (hC : C.Flat) (t : JsonString) :
    ∀ m ∈ C.membersBefore ++ memberText C.name t :: C.membersAfter, Untrimmed m := by
  intro m hm
  have hmember : m = memberText C.name t ∨ ∃ m' : Member, m'.text = m := by
    rcases List.mem_append.1 hm with hm | hm
    · exact .inr (hC.members m (by simp [hm]))
    · rcases List.mem_cons.1 hm with rfl | hm
      · exact .inl rfl
      · exact .inr (hC.members m (by simp [hm]))
  rcases hmember with rfl | ⟨m', rfl⟩
  · exact untrimmed_memberText C.name t
  · exact untrimmed_member m'

/-- Plain members are one item each. -/
theorem flatMap_runs_members {members : List CString}
    (h : ∀ m ∈ members, ∃ m' : Member, m'.text = m) :
    members.flatMap (Tokens.runs (inCharset (ascii ","))) = members := by
  induction members with
  | nil => rfl
  | cons m members ih =>
      obtain ⟨m', rfl⟩ := h m (by simp)
      rw [List.flatMap_cons, runs_member, ih fun m hm => h m (by simp [hm]), List.singleton_append]

/-- **The names and values of the string's object**: those of the members, with that of the string's
own name. -/
theorem Flat.recordPairs_object (hC : C.Flat) (t : JsonString) {w : CString}
    (hw : ∀ c ∈ w, inCharset recordTrimChars c = true) : ∃ value,
      recordPairs (joinComma (C.membersBefore ++ memberText C.name t :: C.membersAfter) ++ w) =
        C.membersBefore.filterMap itemPair ++ (trimName C.name.text, value) ::
          ((stringItems t).filterMap itemPair ++ C.membersAfter.filterMap itemPair) := by
  obtain ⟨value, hvalue⟩ := filterMap_memberText (hC.nameFree.mono (by decide)) t
  refine ⟨value, ?_⟩
  rw [recordPairs_joinComma (by simp) (hC.kept t) hw, List.flatMap_append, List.flatMap_cons,
    flatMap_runs_members fun m hm => hC.members m (by simp [hm]),
    flatMap_runs_members fun m hm => hC.members m (by simp [hm]), List.filterMap_append,
    List.filterMap_append, hvalue, List.cons_append]

theorem Flat.free (hC : C.Flat) :
    ∀ m ∈ C.objectsBefore.flatten ++ C.membersBefore ++ C.membersAfter ++ C.objectsAfter.flatten,
      Free (ascii "[]\x7b") m := by
  intro m hm
  obtain ⟨m', rfl⟩ := hC.members m hm
  exact m'.free_text.mono (by decide)

/-- The characters at which arrays and objects are cut are in no text of the string's object. -/
theorem Flat.free_object (hC : C.Flat) {t : JsonString} (ht : Free (ascii "[]\x7b") t.text) :
    Free (ascii "[]\x7b")
      (joinComma (C.membersBefore ++ memberText C.name t :: C.membersAfter)) := by
  have hname : Free (ascii "[]\x7b") C.name.text := hC.nameFree.mono (by decide)
  have hchars : (34 : UInt8) ∉ ascii "[]\x7b" ∧ (58 : UInt8) ∉ ascii "[]\x7b" := by decide
  refine free_joinComma (by decide) fun m hm => ?_
  rcases List.mem_append.1 hm with hm | hm
  · exact hC.free m (by simp [hm])
  · rcases List.mem_cons.1 hm with rfl | hm
    · simp only [memberText, free_cons, free_append, hname, ht, hchars, free_nil,
        not_false_eq_true, and_self]
    · exact hC.free m (by simp [hm])

/-- The records of the token of an array, from an opening brace on. -/
theorem tokenPairs_append_cons {object tail : CString} (hfree : 123 ∉ object)
    (hrecord : isRecord object = true) (htail : ∀ c ∈ tail.head?, c = 123) (before : CString) :
    tokenPairs (before ++ 123 :: (object ++ tail)) =
      tokenPairs before ++ recordPairs object :: tokenPairs tail := by
  have hbrace : inCharset (ascii "\x7b") 123 = true := rfl
  have hobject : Free (ascii "\x7b") object := free_of_not_mem (by decide) hfree
  have hne : object ≠ [] := by
    rintro rfl
    cases hrecord
  have hruns : Tokens.runs (inCharset (ascii "\x7b")) (object ++ tail) =
      object :: Tokens.runs (inCharset (ascii "\x7b")) tail := by
    rw [Tokens.runs_append_of_head? _ object fun c hc => by rw [htail c hc]; exact hbrace,
      Tokens.runs_eq_singleton _ hne hobject.inCharset_eq_false, List.singleton_append]
  rw [tokenPairs, Tokens.runs_append_cons _ _ _ hbrace, hruns, List.filter_append,
    List.filter_cons_of_pos hrecord, List.map_append, List.map_cons]
  rfl

/-- The records of a document are those of its array. -/
theorem documentPairs_array {array : CString} (harray : Free (ascii "[]") array)
    (hne : array ≠ []) :
    documentPairs (documentHead ++ 91 :: (array ++ [93, 125])) = tokenPairs array := by
  have hhead : Free (ascii "[]") documentHead := by decide
  have hend : Free (ascii "[]") [125] := by decide
  have hruns : Tokens.runs (inCharset (ascii "[]")) (documentHead ++ 91 :: (array ++ [93, 125])) =
      [documentHead, array, [125]] := by
    rw [Tokens.runs_append_cons_of_free _ (by decide) hhead.inCharset_eq_false _ rfl,
      Tokens.runs_append_cons_of_free _ hne harray.inCharset_eq_false _ rfl,
      Tokens.runs_eq_singleton _ (by simp) hend.inCharset_eq_false]
  have hdata : stringTrimCopy documentHead (some tokenTrimChars) = ascii "data" := by decide
  rw [documentPairs, hruns, dataTokens, if_pos hdata, dataTokens, List.flatMap_cons,
    List.flatMap_nil, List.append_nil]

/-- **The records of a document with a string**: those of the other objects do not depend on it. -/
theorem Flat.documentPairs_fill (hC : C.Flat) : ∃ before after w,
    (∀ c ∈ w, inCharset recordTrimChars c = true) ∧
      ∀ t : JsonString, Free (ascii "[]\x7b") t.text → documentPairs (C.fill t) = before ++
        recordPairs (joinComma (C.membersBefore ++ memberText C.name t :: C.membersAfter) ++ w) ::
          after := by
  -- what stands between the members and the next opening brace is trimmed
  obtain ⟨w, tail, hw, hsplit, htail⟩ : ∃ w tail, (∀ c ∈ w, inCharset recordTrimChars c = true) ∧
      125 :: C.objectsAfter.flatMap (fun o => 44 :: objectText o) = w ++ tail ∧
        ∀ c ∈ tail.head?, c = 123 := by
    rcases C.objectsAfter with _ | ⟨o, os⟩
    · exact ⟨[125], [], by decide, rfl, by simp⟩
    · refine ⟨[125, 44], objectText o ++ os.flatMap fun o => 44 :: objectText o, by decide, rfl, ?_⟩
      intro c hc
      exact (Option.some.inj hc).symm
  have hbrace : ∀ c ∈ w, c ≠ 123 := by
    rintro c hc rfl
    exact absurd (hw 123 hc) (by decide)
  refine ⟨tokenPairs ((C.objectsBefore.map objectText).flatMap (· ++ [44])), tokenPairs tail, w, hw,
    fun t ht => ?_⟩
  have hobject := hC.free_object ht
  have hfree : 123 ∉ joinComma (C.membersBefore ++ memberText C.name t :: C.membersAfter) ++ w := by
    intro hmem
    rcases List.mem_append.1 hmem with hmem | hmem
    · exact hobject 123 hmem (by decide)
    · exact hbrace 123 hmem rfl
  have hrecord : isRecord
      (joinComma (C.membersBefore ++ memberText C.name t :: C.membersAfter) ++ w) = true := by
    refine List.any_eq_true.2 ⟨34, List.mem_append_left _ ?_, rfl⟩
    rw [joinComma_append_cons, memberText]
    simp
  have harray : joinComma (C.objectsBefore.map objectText ++
      objectText (C.membersBefore ++ memberText C.name t :: C.membersAfter) ::
        C.objectsAfter.map objectText) =
      (C.objectsBefore.map objectText).flatMap (· ++ [44]) ++
        123 :: ((joinComma (C.membersBefore ++ memberText C.name t :: C.membersAfter) ++ w) ++
          tail) := by
    rw [joinComma_append_cons, objectText, List.append_assoc _ w tail, ← hsplit]
    simp [List.flatMap_map]
  have hname : Free (ascii "[]") C.name.text := hC.nameFree.mono (by decide)
  have hothers : ∀ m ∈ C.objectsBefore.flatten ++ C.membersBefore ++ C.membersAfter ++
      C.objectsAfter.flatten, Free (ascii "[]") m := fun m hm => (hC.free m hm).mono (by decide)
  have hbrackets := free_objects (by decide) hname hothers (ht.mono (by decide))
  rw [fill, documentPairs_array hbrackets (by rw [harray]; simp), harray,
    tokenPairs_append_cons hfree hrecord htail]

/-- **Among plain members only the object of the string matters.** -/
theorem sameRecords_fill_iff (hC : C.Flat) {s t : JsonString} (hs : Free (ascii "[]\x7b") s.text)
    (ht : Free (ascii "[]\x7b") t.text) :
    SameRecords (C.fill s) (C.fill t) ↔ SameValues (C.objectPairs s) (C.objectPairs t) := by
  obtain ⟨before, after, w, hw, hfill⟩ := hC.documentPairs_fill
  obtain ⟨value, hvalue⟩ := hC.recordPairs_object s hw
  obtain ⟨value', hvalue'⟩ := hC.recordPairs_object t hw
  rw [SameRecords, hfill s hs, hfill t ht, forall₂_append_cons_iff SameValues.refl, hvalue, hvalue']
  exact sameValues_cons_unknown hC.unknown _ _ _ _

/-- Inert strings are read alike. -/
theorem sameRecords_of_inert (hcompact : C.Compact) (hC : C.Plain) {s t : JsonString}
    (hs : Inert s) (ht : Inert t) : SameRecords (C.fill s) (C.fill t) :=
  (importText_eq_iff (not_mem_fill hcompact s) (not_mem_fill hcompact t)).1
    (importText_fill_of_inert hC hs ht)

end StringContext

/-! ### A forged field -/

/-- A string with a member of its own. -/
def forgedVlan : JsonString := ⟨ascii "a,vlan:5", by decide⟩

/-- A plain string. -/
def plainString : JsonString := ⟨ascii "a", by decide⟩

end NvIpfix
