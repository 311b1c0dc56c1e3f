/-
**Imports whose character maps are accessed in range.**

The passes of the importer split and trim with character maps of `SizeofCharset` entries, and a byte
from 128 on is looked up far behind such a map.  What is read there is not known, so the importer is
taken here with a check of each access: there is no result as soon as one is out of range.

The first cut looks up every byte of the text.  All texts that are cut or trimmed later are pieces
of it, with a vertical tab at most that was not there.  So the accesses are in range exactly when
the text has 7-bit characters only, and then the result is the one that the passes have without
maps.

Main definitions:

* `NvIpfix.SevenBit` — texts of 7-bit characters;
* `NvIpfix.stringSplitChecked`, `NvIpfix.stringTrimChecked` — cutting and trimming, with the check;
* `NvIpfix.valueSplits` — what the parser of a field cuts;
* `NvIpfix.importTextChecked` — the importer, with the check.

Main results:

* `NvIpfix.stringSplitChecked_eq` — the cut of a text is defined for 7-bit texts;
* `NvIpfix.importTextChecked_eq` — **the import of a text is defined for 7-bit texts**.
-/

import NvIpfix.Import
import NvIpfix.StringSplit

set_option relaxedAutoImplicit false
set_option autoImplicit false

namespace NvIpfix

/-! ### 7-bit texts -/

/-- All characters of the text are 7-bit characters. -/
def SevenBit (s : CString) : Prop := ∀ c ∈ s, c < 128

instance (s : CString) : Decidable (SevenBit s) := decidableForallMem s (· < 128)

@[simp] theorem sevenBit_nil : SevenBit [] := by simp [SevenBit]

@[simp] theorem sevenBit_cons {c : UInt8} {s : CString} :
    SevenBit (c :: s) ↔ c < 128 ∧ SevenBit s := by simp [SevenBit]

@[simp] theorem sevenBit_append {s t : CString} :
    SevenBit (s ++ t) ↔ SevenBit s ∧ SevenBit t := List.forall_mem_append

/-- What a 7-bit text is made of is 7-bit. -/
theorem SevenBit.subset {s t : CString} (hs : SevenBit s) (h : t ⊆ s) : SevenBit t :=
  fun c hc => hs c (h hc)

/-! ### Cutting and trimming with a check -/

/-- `nvipfix_string_split`, unless an access to its map is out of range. -/
def stringSplitChecked (s delimiters : CString) : Option (Option (List CString)) :=
  if (nvipfixStringSplit (fun _ => true) s delimiters {}).2.1.InRange then
    some (stringSplit s delimiters)
  else none

/-- `nvipfix_string_trim`, unless an access to its map is out of range. -/
def stringTrimChecked (s : CString) (trimChars : Option CString) : Option CString :=
  if (nvipfixStringTrim (s ++ [0]) trimChars).2.InRange then some (stringTrim s trimChars)
  else none

section Checked

variable {s charset : CString}

/-- **The cut of a text is defined for 7-bit texts**: it looks up every byte. -/
theorem stringSplitChecked_eq (h : SevenBit charset) : stringSplitChecked s charset =
    if SevenBit s then some (stringSplit s charset) else none := by
  have hrange : (nvipfixStringSplit (fun _ => true) s charset {}).2.1.InRange ↔ SevenBit s := by
    obtain ⟨result, read, h', heq, -, -, hor⟩ :=
      nvipfixStringSplit_eq (fun _ => true) s charset {}
    obtain ⟨-, n, hn⟩ | ⟨rfl, -⟩ := hor
    · cases hn
    · rw [heq, CharacterMap.inRange_reads, CharacterMap.inRange_ofCharset]
      exact and_iff_right h
  simp only [stringSplitChecked, hrange]

theorem stringSplitChecked_of_sevenBit {s : CString} (charset : CString) (h : SevenBit charset)
    (hs : SevenBit s) : stringSplitChecked s charset = some (stringSplit s charset) := by
  rw [stringSplitChecked_eq h, if_pos hs]

/-- A 7-bit text is trimmed with accesses in range. -/
theorem stringTrimChecked_of_sevenBit {s : CString} (charset : CString) (h : SevenBit charset)
    (hs : SevenBit s) :
    stringTrimChecked s (some charset) = some (stringTrim s (some charset)) := by
  have hsee : ∀ c ∈ cstringOf (s ++ [0]), c < 128 := by
    intro c hc
    have hmem := List.takeWhile_subset _ hc
    rcases List.mem_append.1 hmem with hmem | hmem
    · exact hs c hmem
    · rw [List.mem_singleton.1 hmem]
      decide
  have hcharset : (some charset).getD defaultTrimChars = charset := rfl
  refine if_pos ((nvipfixStringTrim_inRange_iff hcharset).2 ⟨h, fun c hc => ?_, fun c hc => ?_⟩)
  · exact hsee c (List.mem_reverse.1 (List.mem_of_find?_eq_some hc))
  · exact hsee c (List.mem_of_find?_eq_some hc)

/-- The tokens of a 7-bit text are 7-bit. -/
theorem SevenBit.of_mem_stringSplit (hs : SevenBit s) {tokens : List CString}
    (h : stringSplit s charset = some tokens) : ∀ token ∈ tokens, SevenBit token := by
  intro token htoken
  have hne : s ≠ [] := by
    rintro rfl
    rw [stringSplit_eq_none_iff.2 rfl] at h
    cases h
  obtain ⟨e, he, hor⟩ := exists_stringSplit_eq hne charset
  obtain rfl := Option.some.inj (he.symm.trans h)
  rcases List.mem_append.1 htoken with hrun | hempty
  · exact hs.subset fun c hc => Tokens.mem_of_mem_runs _ hrun hc
  · rcases hor with rfl | rfl
    · cases hempty
    · rw [List.mem_singleton.1 hempty]
      exact sevenBit_nil

/-- What trimming leaves of a 7-bit text is 7-bit. -/
theorem SevenBit.stringTrim (hs : SevenBit s) (charset : CString) :
    SevenBit (stringTrim s (some charset)) :=
  hs.subset fun _ hc => Tokens.mem_of_mem_trim _ hc

end Checked

/-! ### The parsers -/

/-- The texts that a date is cut into before the next cut, with the delimiters of that cut. -/
def datetimeSplits (s : CString) : List (CString × CString) :=
  (s, ascii "T") ::
    match stringSplit s (ascii "T") with
    | some [date, time] =>
        (date, ascii "-") ::
          match stringSplit date (ascii "-") with
          | some [_, _, _] => [(time, ascii ":")]
          | _ => []
    | _ => []

/-- The texts that the parser of a field cuts, with their delimiters. -/
def valueSplits : DataField → CString → List (CString × CString)
  | .sourceMac, s | .destinationMac, s => [(s, ascii ":")]
  | .sourceIp, s | .destinationIp, s => [(s, ascii ".")]
  | .flowStart, s | .flowEnd, s => datetimeSplits s
  | _, _ => []

/-- Every cut of a list is in range. -/
def SplitsInRange (splits : List (CString × CString)) : Prop :=
  ∀ split ∈ splits, (stringSplitChecked split.1 split.2).isSome

instance (splits : List (CString × CString)) : Decidable (SplitsInRange splits) :=
  inferInstanceAs (Decidable (∀ split ∈ splits, _))

/-- A date is parsed in range when it is 7-bit, and only then. -/
theorem splitsInRange_datetimeSplits {s : CString} :
    SplitsInRange (datetimeSplits s) ↔ SevenBit s := by
  have hone : ∀ {t charset : CString}, SevenBit charset →
      ((stringSplitChecked t charset).isSome ↔ SevenBit t) := by
    intro t charset hcharset
    rw [stringSplitChecked_eq hcharset]
    split <;> simp_all
  have hdelimiters : SevenBit (ascii "T") ∧ SevenBit (ascii "-") ∧ SevenBit (ascii ":") := by
    decide
  obtain ⟨hT, hdash, hcolon⟩ := hdelimiters
  constructor
  · intro h
    exact (hone hT).1 (h _ List.mem_cons_self)
  · intro hs split hsplit
    rw [datetimeSplits, List.mem_cons] at hsplit
    rcases hsplit with rfl | hsplit
    · exact (hone hT).2 hs
    · split at hsplit
      next date time hdate =>
        have hpieces := hs.of_mem_stringSplit hdate
        rw [List.mem_cons] at hsplit
        rcases hsplit with rfl | hsplit
        · exact (hone hdash).2 (hpieces date (by simp))
        · split at hsplit
          next =>
            rw [List.mem_singleton.1 hsplit]
            exact (hone hcolon).2 (hpieces time (by simp))
          next => cases hsplit
      next => cases hsplit

/-- The parser of a 7-bit value cuts in range. -/
theorem splitsInRange_valueSplits (field : DataField) {s : CString} (hs : SevenBit s) :
    SplitsInRange (valueSplits field s) := by
  have hone : ∀ charset, SevenBit charset → SplitsInRange [(s, charset)] := by
    intro charset hcharset split hsplit
    rw [List.mem_singleton.1 hsplit, stringSplitChecked_of_sevenBit charset hcharset hs]
    rfl
  cases field <;> first
    | exact hone _ (by decide)
    | exact splitsInRange_datetimeSplits.2 hs
    | exact fun _ h => absurd h List.not_mem_nil

/-! ### The passes -/

/-- Parsing a value into the record, unless its parser cuts out of range. -/
def ImportItem.parseIntoChecked (item : ImportItem) (value : CString) (data : DataRecord) :
    Option DataRecord :=
  if SplitsInRange (valueSplits item.field value) then some (item.parseInto value data) else none

/-- What an item adds to the record. -/
def importItemChecked (data : DataRecord) (item : CString) : Option DataRecord :=
  match replaceFirst 58 11 item with
  | none => some data
  | some itemText => do
      match ← stringSplitChecked itemText (ascii "\x0b") with
      | some [head, tail] =>
          let itemName ← stringTrimChecked head (some itemTrimChars)
          let itemValue ← stringTrimChecked tail (some itemTrimChars)
          match importGetItem itemName with
          | some item => item.parseIntoChecked itemValue data
          | none => some data
      | _ => some data

/-- A record token. -/
def importRecordChecked (result : Option (List DataRecord)) (record : CString) :
    Option (Option (List DataRecord)) := do
  let record ← stringTrimChecked record (some recordTrimChars)
  match ← stringSplitChecked record (ascii ",") with
  | none => some result
  | some items => do
      let data ← items.foldlM importItemChecked {}
      some (dataListAddCopy result data)

/-- The token behind `data`. -/
def importRecordsChecked (result : Option (List DataRecord)) (token : CString) :
    Option (Option (List DataRecord)) := do
  match ← stringSplitChecked token (ascii "\x7b") with
  | none => some result
  | some records => records.foldlM importRecordChecked result

/-- The loop over the tokens between square brackets. -/
def importTokensChecked :
    Option (List DataRecord) → List CString → Option (Option (List DataRecord))
  | result, [] => some result
  | result, [token] => do
      let _ ← stringTrimChecked token (some tokenTrimChars)
      some result
  | result, token :: next :: tokens => do
      let tokenCopy ← stringTrimChecked token (some tokenTrimChars)
      if tokenCopy = ascii "data" then do
        let result ← importRecordsChecked result next
        importTokensChecked result tokens
      else importTokensChecked result (next :: tokens)

/-- `nvipfix_import` from the first `nvipfix_string_split` on, unless an access to a character map
is out of range. -/
def importTextChecked (text : CString) : Option (Option (List DataRecord)) := do
  match ← stringSplitChecked text (ascii "[]") with
  | none => some none
  | some tokens => importTokensChecked none tokens

/-! ### The passes on 7-bit texts -/

/-- A fold each step of which is defined. -/
theorem foldlM_eq_some {α β : Type} {f : β → α → β} {g : β → α → Option β} {l : List α}
    (h : ∀ a ∈ l, ∀ b, g b a = some (f b a)) (b : β) : l.foldlM g b = some (l.foldl f b) := by
  induction l generalizing b with
  | nil => rfl
  | cons a l ih =>
      rw [List.foldlM_cons, h a (by simp), Option.bind_eq_bind, Option.bind_some, List.foldl_cons]
      exact ih (fun a' ha' => h a' (by simp [ha'])) _

section Passes

variable {s : CString}

theorem SevenBit.replaceFirst {t : CString} (hs : SevenBit s)
    (h : replaceFirst 58 11 s = some t) : SevenBit t := by
  induction s generalizing t with
  | nil => cases h
  | cons c s ih =>
      obtain ⟨hc, hs⟩ := sevenBit_cons.1 hs
      rw [NvIpfix.replaceFirst] at h
      split at h
      · rw [← Option.some.inj h]
        exact sevenBit_cons.2 ⟨by decide, hs⟩
      · obtain ⟨t', ht', rfl⟩ := Option.map_eq_some_iff.1 h
        exact sevenBit_cons.2 ⟨hc, ih hs ht'⟩

theorem importItemChecked_of_sevenBit (hs : SevenBit s) (data : DataRecord) :
    importItemChecked data s = some (importItem data s) := by
  rw [importItemChecked, importItem]
  cases hreplace : replaceFirst 58 11 s with
  | none => rfl
  | some itemText =>
      have htext := hs.replaceFirst hreplace
      simp only [stringSplitChecked_of_sevenBit (ascii "\x0b") (by decide) htext,
        Option.bind_eq_bind, Option.bind_some]
      rcases hsplit : stringSplit itemText (ascii "\x0b") with
        _ | (_ | ⟨head, _ | ⟨tail, _ | ⟨token, tokens⟩⟩⟩)
      case some.cons.cons.nil =>
        have hpieces := htext.of_mem_stringSplit hsplit
        have hhead := hpieces head (by simp)
        have htail := hpieces tail (by simp)
        have htrim : SevenBit itemTrimChars := by decide
        simp only [stringTrimChecked_of_sevenBit itemTrimChars htrim hhead,
          stringTrimChecked_of_sevenBit itemTrimChars htrim htail, Option.bind_some]
        cases importGetItem (stringTrim head (some itemTrimChars)) with
        | none => rfl
        | some item =>
            exact if_pos (splitsInRange_valueSplits item.field (htail.stringTrim itemTrimChars))
      all_goals rfl

theorem importRecordChecked_of_sevenBit (hs : SevenBit s) (result : Option (List DataRecord)) :
    importRecordChecked result s = some (importRecord result s) := by
  have htrim := hs.stringTrim recordTrimChars
  rw [importRecordChecked, importRecord]
  simp only [stringTrimChecked_of_sevenBit recordTrimChars (by decide) hs,
    stringSplitChecked_of_sevenBit (ascii ",") (by decide) htrim, Option.bind_eq_bind,
    Option.bind_some]
  cases hsplit : stringSplit (stringTrim s (some recordTrimChars)) (ascii ",") with
  | none => rfl
  | some items =>
      have hfold := foldlM_eq_some (fun item hitem =>
        importItemChecked_of_sevenBit (htrim.of_mem_stringSplit hsplit item hitem)) {}
      simp only [hfold, Option.bind_some]

theorem importRecordsChecked_of_sevenBit (hs : SevenBit s) (result : Option (List DataRecord)) :
    importRecordsChecked result s = some (importRecords result s) := by
  rw [importRecordsChecked, importRecords]
  simp only [stringSplitChecked_of_sevenBit (ascii "\x7b") (by decide) hs,
    Option.bind_eq_bind, Option.bind_some]
  cases hsplit : stringSplit s (ascii "\x7b") with
  | none => rfl
  | some records =>
      exact foldlM_eq_some (fun record hrecord =>
        importRecordChecked_of_sevenBit (hs.of_mem_stringSplit hsplit record hrecord)) result

theorem importTokensChecked_of_sevenBit (result : Option (List DataRecord))
    (tokens : List CString) (htokens : ∀ token ∈ tokens, SevenBit token) :
    importTokensChecked result tokens = some (importTokens result tokens) := by
  have htrim : ∀ token : CString, SevenBit token → stringTrimChecked token (some tokenTrimChars) =
      some (stringTrimCopy token (some tokenTrimChars)) := fun token htoken =>
    stringTrimChecked_of_sevenBit tokenTrimChars (by decide) htoken
  induction result, tokens using importTokens.induct with
  | case1 result => rfl
  | case2 result token =>
      rw [importTokensChecked, htrim token (htokens token (by simp))]
      rfl
  | case3 result token next tokens hdata ih =>
      rw [importTokensChecked, importTokens, if_pos hdata, htrim token (htokens token (by simp)),
        Option.bind_eq_bind, Option.bind_some, if_pos hdata,
        importRecordsChecked_of_sevenBit (htokens next (by simp)), Option.bind_eq_bind,
        Option.bind_some, ih fun token htoken => htokens token (by simp [htoken])]
  | case4 result token next tokens hdata ih =>
      rw [importTokensChecked, importTokens, if_neg hdata, htrim token (htokens token (by simp)),
        Option.bind_eq_bind, Option.bind_some, if_neg hdata,
        ih fun token htoken => htokens token (by simp [List.mem_cons.1 htoken])]

end Passes

/-- **The import of a text is defined for 7-bit texts**, and then it is what the passes make of the
text: the first cut looks up every byte. -/
theorem importTextChecked_eq (text : CString) :
    importTextChecked text = if SevenBit text then some (importText text) else none := by
  rw [importTextChecked, stringSplitChecked_eq (by decide)]
  split
  next htext =>
    rw [Option.bind_eq_bind, Option.bind_some, importText]
    cases hsplit : stringSplit text (ascii "[]") with
    | none => rfl
    | some tokens =>
        exact importTokensChecked_of_sevenBit none tokens (htext.of_mem_stringSplit hsplit)
  next => rfl

end NvIpfix
