/-
**Texts that are imported alike.**

What the importer cuts out of a text, without its functions: the runs between square brackets, of
which those behind `data` hold records; the runs between opening braces of each, unless they have
commas and closing braces only; the runs between commas of each of these; and of those the name in
front of the first colon and the value behind it.  A record is what the parsers of its names make of
their values, one after another.  So two texts have the same records exactly when they are cut into
equally many, and the values that two records at the same place give to a name are read alike.

Main definitions:

* `NvIpfix.recordPairs`, `NvIpfix.documentPairs` — the names and values that a text is cut into;
* `NvIpfix.SameValues` — names and values that are read alike.

Main results:

* `NvIpfix.importText_eq_documentPairs` — **the records of a text are those of its names and
  values**;
* `NvIpfix.storePairs_eq_iff` — records are the same if their values are read alike;
* `NvIpfix.importTextChecked_eq_iff` — **exactly when two texts are imported alike**.
-/

import NvIpfix.ImportSegments
import NvIpfix.Passes
import NvIpfix.SevenBit

set_option relaxedAutoImplicit false
set_option autoImplicit false

namespace NvIpfix

/-! ### The cut of a text -/

/-- The names and values that a record token is cut into. -/
def recordPairs (record : CString) : List (CString × CString) :=
  (Tokens.runs (inCharset (ascii ","))
    (Tokens.trim (inCharset recordTrimChars) record)).filterMap itemPair

/-- The names and values of the records of a token. -/
def tokenPairs (token : CString) : List (List (CString × CString)) :=
  ((Tokens.runs (inCharset (ascii "\x7b")) token).filter isRecord).map recordPairs

/-- The names and values of the records of a text. -/
def documentPairs (text : CString) : List (List (CString × CString)) :=
  (dataTokens (Tokens.runs (inCharset (ascii "[]")) text)).flatMap tokenPairs

/-- Adding the record of some names and values. -/
def addPairs (result : Option (List DataRecord)) (pairs : List (CString × CString)) :
    Option (List DataRecord) :=
  dataListAddCopy result (storePairs pairs {})

section Passes

variable {text : CString} (result : Option (List DataRecord))

/-- A record token adds the record of its names and values, or none. -/
theorem importRecord_eq_recordPairs (h : 11 ∉ text) : importRecord result text =
    if isRecord text then addPairs result (recordPairs text) else result := by
  have hempty : ∀ data, importItem data [] = data := fun _ => rfl
  have hfree : ∀ item ∈ Tokens.runs (inCharset (ascii ","))
      (stringTrim text (some recordTrimChars)), 11 ∉ item := fun item hitem hc =>
    h (Tokens.mem_of_mem_trim _ (Tokens.mem_of_mem_runs _ hitem hc))
  rw [importRecord_eq_ite, foldl_stringSplit hempty, foldl_importItem_eq_storePairs hfree]
  rfl

theorem importRecords_eq_tokenPairs (h : 11 ∉ text) :
    importRecords result text = (tokenPairs text).foldl addPairs result := by
  have hfree : ∀ record ∈ Tokens.runs (inCharset (ascii "\x7b")) text, 11 ∉ record :=
    fun record hrecord hc => h (Tokens.mem_of_mem_runs _ hrecord hc)
  rw [importRecords_eq_runs, tokenPairs, List.foldl_map]
  generalize Tokens.runs (inCharset (ascii "\x7b")) text = records at hfree
  induction records generalizing result with
  | nil => rfl
  | cons record records ih =>
      have htail := fun record' hrecord' => hfree record' (List.mem_cons_of_mem record hrecord')
      rw [List.foldl_cons, importRecord_eq_recordPairs result (hfree record (by simp)),
        ih _ htail, List.filter_cons]
      split <;> rfl

theorem importTokens_eq_tokenPairs (tokens : List CString) (h : ∀ token ∈ tokens, 11 ∉ token) :
    importTokens result tokens =
      ((dataTokens tokens).flatMap tokenPairs).foldl addPairs result := by
  induction result, tokens using importTokens.induct with
  | case1 result => rfl
  | case2 result token => rfl
  | case3 result token next tokens hdata ih =>
      rw [importTokens, if_pos hdata, ih fun token htoken => h token (by simp [htoken]), dataTokens,
        if_pos hdata, importRecords_eq_tokenPairs result (h next (by simp)), List.flatMap_cons,
        List.foldl_append]
  | case4 result token next tokens hdata ih =>
      rw [importTokens, if_neg hdata,
        ih fun token htoken => h token (by simp [List.mem_cons.1 htoken]), dataTokens,
        if_neg hdata]

end Passes

/-- An empty token behind the last has no records, whatever the last is. -/
theorem flatMap_dataTokens_append_nil (tokens : List CString) :
    (dataTokens (tokens ++ [[]])).flatMap tokenPairs = (dataTokens tokens).flatMap tokenPairs := by
  induction tokens using dataTokens.induct with
  | case1 => rfl
  | case2 token =>
      rw [List.singleton_append, dataTokens, dataTokens]
      split <;> rfl
  | case3 token next tokens hdata ih =>
      rw [List.cons_append, List.cons_append, dataTokens, if_pos hdata, dataTokens, if_pos hdata,
        List.flatMap_cons, List.flatMap_cons, ih]
  | case4 token next tokens hdata ih =>
      rw [List.cons_append, List.cons_append, dataTokens, if_neg hdata, dataTokens, if_neg hdata]
      exact ih

/-- **The records of a text are those of the names and values that it is cut into.** -/
theorem importText_eq_documentPairs {text : CString} (h : 11 ∉ text) : importText text =
    addedRecords ((documentPairs text).map fun pairs => storePairs pairs {}) := by
  by_cases hne : text = []
  · rw [hne]
    rfl
  · obtain ⟨e, he, hor⟩ := exists_stringSplit_eq hne (ascii "[]")
    have hfree : ∀ token ∈ Tokens.runs (inCharset (ascii "[]")) text ++ e, 11 ∉ token := by
      intro token htoken hc
      rcases List.mem_append.1 htoken with htoken | htoken
      · exact h (Tokens.mem_of_mem_runs _ htoken hc)
      · rcases hor with rfl | rfl <;> simp_all
    have hlast : (dataTokens (Tokens.runs (inCharset (ascii "[]")) text ++ e)).flatMap tokenPairs =
        documentPairs text := by
      rcases hor with rfl | rfl
      · rw [List.append_nil, documentPairs]
      · exact flatMap_dataTokens_append_nil _
    rw [importText, he, addedRecords, List.foldl_map]
    exact (importTokens_eq_tokenPairs none _ hfree).trans (by rw [hlast]; rfl)

/-! ### Values that are read alike -/

/-- To every name of the table, two records give values that its parser reads alike, one after
another. -/
def SameValues (pairs pairs' : List (CString × CString)) : Prop :=
  ∀ entry ∈ importItems,
    parseAll entry.parseValue (valuesOf entry.name pairs) (({} : DataRecord).get entry.field) =
      parseAll entry.parseValue (valuesOf entry.name pairs') (({} : DataRecord).get entry.field)

theorem SameValues.refl (pairs : List (CString × CString)) : SameValues pairs pairs :=
  fun _ _ => rfl

/-- Every entry is found under its name. -/
theorem importGetItem_name : ∀ entry ∈ importItems, importGetItem entry.name = some entry := by
  intro entry hentry
  simp only [importItems, List.mem_cons, List.not_mem_nil, or_false] at hentry
  rcases hentry with rfl | rfl | rfl | rfl | rfl | rfl | rfl | rfl | rfl | rfl | rfl | rfl | rfl |
    rfl | rfl | rfl | rfl | rfl | rfl | rfl | rfl | rfl
  all_goals rfl

/-- Every field has an entry. -/
theorem exists_entry (field : DataField) : ∃ entry ∈ importItems, entry.field = field := by
  cases field <;> decide +kernel

/-- **Records are the same exactly when their values are read alike.** -/
theorem storePairs_eq_iff {pairs pairs' : List (CString × CString)} :
    storePairs pairs {} = storePairs pairs' {} ↔ SameValues pairs pairs' := by
  constructor
  · intro h entry hentry
    have hname := importGetItem_name entry hentry
    rw [← storePairs_get hname, ← storePairs_get hname, h]
  · intro h
    refine DataRecord.ext_get fun field => ?_
    obtain ⟨entry, hentry, rfl⟩ := exists_entry field
    have hname := importGetItem_name entry hentry
    rw [storePairs_get hname, storePairs_get hname]
    exact h entry hentry

/-- Two texts are cut into equally many records, and those at the same place are read alike. -/
def SameRecords (text text' : CString) : Prop :=
  List.Forall₂ SameValues (documentPairs text) (documentPairs text')

/-- **Two texts have the same records** exactly when they are cut into records that are read
alike. -/
theorem importText_eq_iff {text text' : CString} (h : 11 ∉ text) (h' : 11 ∉ text') :
    importText text = importText text' ↔ SameRecords text text' := by
  rw [importText_eq_documentPairs h, importText_eq_documentPairs h', addedRecords_inj,
    ← List.forall₂_eq_eq_eq, List.forall₂_map_left_iff, List.forall₂_map_right_iff, SameRecords]
  simp only [storePairs_eq_iff]

/-- **Exactly when two texts are imported alike**: their characters are 7-bit, and they are cut into
records that are read alike. -/
theorem importTextChecked_eq_iff {text text' : CString} (h : 11 ∉ text) (h' : 11 ∉ text') :
    (∃ records, importTextChecked text = some records ∧ importTextChecked text' = some records) ↔
      SevenBit text ∧ SevenBit text' ∧ SameRecords text text' := by
  rw [importTextChecked_eq, importTextChecked_eq, ← importText_eq_iff h h']
  by_cases htext : SevenBit text
  · by_cases htext' : SevenBit text'
    · simp only [if_pos htext, if_pos htext', Option.some_inj, and_iff_right htext,
        and_iff_right htext']
      exact ⟨fun ⟨_, hl, hr⟩ => hl.trans hr.symm, fun heq => ⟨_, heq, rfl⟩⟩
    · simp [htext']
  · simp [htext]

end NvIpfix
