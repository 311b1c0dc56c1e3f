/-
**The passes of the importer on any text.**

What each of the nested passes makes of a text, without assuming that the text is JSON.  The tokens
of a pass are the runs of its text (`importRecords_eq_runs`, `importRecord_eq_runs`); an item is the
pair of texts around its first colon (`importItem_eq_itemPair`); a record token adds one record as
soon as trimming leaves anything of it, so the number of records is a number of runs
(`recordsCount_importRecords`).

Main definitions:

* `NvIpfix.trimName`, `NvIpfix.trimValue`, `NvIpfix.storeMember` — an item that has been cut;
* `NvIpfix.itemPair` — the name and the value of an item;
* `NvIpfix.storePairs`, `NvIpfix.valuesOf`, `NvIpfix.parseAll` — names and values of a record;
* `NvIpfix.isRecord` — the tokens that become a record.

Main results:

* `NvIpfix.importItem_eq_itemPair` — **an item is a name, its first colon and a value**;
* `NvIpfix.storePairs_get` — a field holds what is left of the values that its name is given;
* `NvIpfix.importRecord_surround` — a stretch between quotes keeps its items to itself;
* `NvIpfix.recordsCount_importRecords` — the number of records of a token;
* `NvIpfix.importText_array` — the records of a document are those of the text of its array.
-/

import NvIpfix.Import

set_option relaxedAutoImplicit false
set_option autoImplicit false

namespace NvIpfix

/-! ### Items -/

/-- The name by which a member is looked up. -/
def trimName (name : CString) : CString := stringTrim name (some itemTrimChars)

/-- The text that a parser is given for a value. -/
def trimValue (value : CString) : CString := stringTrim value (some itemTrimChars)

/-- Storing a value under a name that has been trimmed. -/
def storeMember (name value : CString) (data : DataRecord) : DataRecord :=
  match importGetItem name with
  | some item => item.parseInto value data
  | none => data

theorem replaceFirst_append {c r : UInt8} {s : CString} (hs : c ∉ s) (t : CString) :
    replaceFirst c r (s ++ c :: t) = some (s ++ r :: t) := by
  induction s with
  | nil => simp [replaceFirst]
  | cons x s ih =>
      have hx : x ≠ c := fun h => hs (by simp [h])
      rw [List.cons_append, replaceFirst, if_neg hx, ih fun h => hs (by simp [h])]
      rfl

theorem replaceFirst_of_not_mem {c r : UInt8} {s : CString} (hs : c ∉ s) :
    replaceFirst c r s = none := by
  induction s with
  | nil => rfl
  | cons x s ih =>
      have hx : x ≠ c := fun h => hs (by simp [h])
      rw [replaceFirst, if_neg hx, ih fun h => hs (by simp [h])]
      rfl

/-- **An item is a name, its first colon and a value.** -/
theorem importItem_pair {head tail : CString} (hcolon : 58 ∉ head) (hhead : head ≠ [])
    (hheadFree : 11 ∉ head) (htail : tail ≠ []) (htailFree : 11 ∉ tail) (data : DataRecord) :
    importItem data (head ++ 58 :: tail) = storeMember (trimName head) (trimValue tail) data := by
  have hh : Free (ascii "\x0b") head := free_of_not_mem (by decide) hheadFree
  have ht : Free (ascii "\x0b") tail := free_of_not_mem (by decide) htailFree
  have hsplit : stringSplit (head ++ 11 :: tail) (ascii "\x0b") = some [head, tail] := by
    rw [stringSplit_eq_runs (by simp),
      Tokens.runs_append_cons_of_free _ hhead hh.inCharset_eq_false _ (by decide),
      Tokens.runs_eq_singleton _ htail ht.inCharset_eq_false]
    have := free_getLast?_append (s := head ++ [11]) htail ht
    simpa using this
  simp only [importItem, replaceFirst_append hcolon, hsplit]
  rfl

/-- An item without a colon adds nothing. -/
theorem importItem_of_not_mem {item : CString} (h : 58 ∉ item) (data : DataRecord) :
    importItem data item = data := by
  rw [importItem, replaceFirst_of_not_mem h]

/-- The trimmed name and value of an item; none without a colon, or when nothing stands in front of
the first colon or behind it. -/
def itemPair (item : CString) : Option (CString × CString) :=
  match item.dropWhile (· != 58) with
  | [] => none
  | _ :: tail =>
      if item.takeWhile (· != 58) = [] ∨ tail = [] then none
      else some (trimName (item.takeWhile (· != 58)), trimValue tail)

/-- An item that is cut into a single token adds nothing. -/
theorem importItem_of_single {item itemText t : CString}
    (hcolon : replaceFirst 58 11 item = some itemText)
    (hsplit : stringSplit itemText (ascii "\x0b") = some [t]) (data : DataRecord) :
    importItem data item = data := by
  simp only [importItem, hcolon, hsplit]

theorem itemPair_of_not_mem {item : CString} (h : 58 ∉ item) : itemPair item = none := by
  rw [itemPair, dropWhile_bne_of_not_mem h]

theorem itemPair_append {head : CString} (hcolon : 58 ∉ head) (tail : CString) :
    itemPair (head ++ 58 :: tail) =
      if head = [] ∨ tail = [] then none else some (trimName head, trimValue tail) := by
  rw [itemPair, dropWhile_bne_append hcolon, takeWhile_bne_append hcolon,
    List.dropWhile_cons_of_neg (by decide), List.takeWhile_cons_of_neg (by decide),
    List.append_nil]

/-- An item with nothing in front of its first colon, or nothing behind it, adds nothing. -/
theorem importItem_of_empty {head tail : CString} (hcolon : 58 ∉ head)
    (hheadFree : Free (ascii "\x0b") head) (htailFree : Free (ascii "\x0b") tail)
    (h : head = [] ∨ tail = []) (data : DataRecord) :
    importItem data (head ++ 58 :: tail) = data := by
  have hreplace : replaceFirst 58 11 (head ++ 58 :: tail) = some (head ++ 11 :: tail) :=
    replaceFirst_append hcolon tail
  by_cases ht : tail = []
  · subst ht
    by_cases hh : head = []
    · subst hh
      exact importItem_of_single hreplace rfl data
    · exact importItem_of_single hreplace
        (stringSplit_append_singleton hh hheadFree (by decide)) data
  · obtain rfl := h.resolve_right ht
    refine importItem_of_single hreplace (t := tail) ?_ data
    have hlast := free_getLast?_append (s := [11]) ht htailFree
    rw [List.singleton_append] at hlast
    rw [List.nil_append, stringSplit_eq_runs (by simp) hlast,
      Tokens.runs_cons_of_pos _ _ (by decide),
      Tokens.runs_eq_singleton _ ht htailFree.inCharset_eq_false]

/-- **What an item adds to the record**, for any text without a vertical tab. -/
theorem importItem_eq_itemPair {item : CString} (h : 11 ∉ item) (data : DataRecord) :
    importItem data item =
      match itemPair item with
      | none => data
      | some (name, value) => storeMember name value data := by
  by_cases hmem : 58 ∈ item
  · obtain ⟨head, tail, rfl, hcolon⟩ := List.eq_append_cons_of_mem hmem
    have hheadFree : 11 ∉ head := fun hm => h (List.mem_append_left _ hm)
    have htailFree : 11 ∉ tail := fun hm => h (by simp [hm])
    rw [itemPair_append hcolon]
    by_cases hempty : head = [] ∨ tail = []
    · rw [if_pos hempty]
      exact importItem_of_empty hcolon (free_of_not_mem (by decide) hheadFree)
        (free_of_not_mem (by decide) htailFree) hempty data
    · rw [if_neg hempty]
      obtain ⟨hh, ht⟩ := not_or.1 hempty
      exact importItem_pair hcolon hh hheadFree ht htailFree data
  · rw [itemPair_of_not_mem hmem, importItem_of_not_mem hmem]

/-! ### Names and values -/

/-- What is left in a field of the values that it is given, one after another. -/
def parseAll {α : Type} (parseValue : ParseValue α) (values : List CString) (old : α) : α :=
  values.foldl (fun old value => (parseValue value old).2) old

/-- Storing values under names, one after another. -/
def storePairs (pairs : List (CString × CString)) (data : DataRecord) : DataRecord :=
  pairs.foldl (fun data pair => storeMember pair.1 pair.2 data) data

/-- The values that some pairs give to a name, in order. -/
def valuesOf (name : CString) (pairs : List (CString × CString)) : List CString :=
  pairs.filterMap fun pair => if pair.1 = name then some pair.2 else none

/-- **A field holds what is left of the values that its name is given.** -/
theorem storePairs_get {name : CString} {entry : ImportItem}
    (hentry : importGetItem name = some entry) (pairs : List (CString × CString))
    (data : DataRecord) :
    (storePairs pairs data).get entry.field =
      parseAll entry.parseValue (valuesOf name pairs) (data.get entry.field) := by
  rw [storePairs, parseAll]
  induction pairs generalizing data with
  | nil => rfl
  | cons pair pairs ih =>
      rw [List.foldl_cons, ih]
      by_cases hname : pair.1 = name
      · have hvalues : valuesOf name (pair :: pairs) = pair.2 :: valuesOf name pairs :=
          List.filterMap_cons_some (if_pos hname)
        have hstore : storeMember pair.1 pair.2 data = entry.parseInto pair.2 data := by
          rw [storeMember, hname, hentry]
        rw [hvalues, List.foldl_cons, hstore, ImportItem.parseInto, DataRecord.get_set]
      · have hvalues : valuesOf name (pair :: pairs) = valuesOf name pairs :=
          List.filterMap_cons_none (if_neg hname)
        rw [hvalues]
        congr 1
        -- a value for another name is stored at another offset
        rw [storeMember]
        cases hother : importGetItem pair.1 with
        | none => rfl
        | some other =>
            obtain ⟨hmem, hothername⟩ := importGetItem_eq_some hother
            obtain ⟨hentrymem, hentryname⟩ := importGetItem_eq_some hentry
            rw [← hothername, ← hentryname] at hname
            exact DataRecord.get_set_of_ne _ (importItems_field_ne _ hmem _ hentrymem hname) _

/-- The items of a record are stored as the pairs that they are. -/
theorem foldl_importItem_eq_storePairs {items : List CString} (h : ∀ item ∈ items, 11 ∉ item)
    (data : DataRecord) :
    items.foldl importItem data = storePairs (items.filterMap itemPair) data := by
  rw [storePairs]
  induction items generalizing data with
  | nil => rfl
  | cons item items ih =>
      rw [List.foldl_cons, ih (fun item hitem => h item (by simp [hitem])),
        importItem_eq_itemPair (h item (by simp))]
      cases hpair : itemPair item with
      | none => rw [List.filterMap_cons_none hpair]
      | some pair => rw [List.filterMap_cons_some hpair, List.foldl_cons]

/-! ### Records -/

/-- An empty record token adds nothing. -/
theorem importRecord_nil (result : Option (List DataRecord)) :
    importRecord result [] = result := rfl

/-- **The record tokens of a token are its runs.** -/
theorem importRecords_eq_runs (result : Option (List DataRecord)) (token : CString) :
    importRecords result token =
      (Tokens.runs (inCharset (ascii "\x7b")) token).foldl importRecord result := by
  rw [← foldl_stringSplit importRecord_nil, importRecords]
  cases stringSplit token (ascii "\x7b") <;> rfl

/-- **The items of a record are the runs of what trimming leaves of it.** -/
theorem importRecord_eq_runs {record trimmed : CString}
    (h : stringTrim record (some recordTrimChars) = trimmed) (hne : trimmed ≠ [])
    (hlast : ∀ c ∈ trimmed.getLast?, c ∉ ascii ",") (result : Option (List DataRecord)) :
    importRecord result record =
      dataListAddCopy result
        ((Tokens.runs (inCharset (ascii ",")) trimmed).foldl importItem {}) := by
  rw [importRecord, h, stringSplit_eq_runs hne hlast]

/-- A record token that trims to comma-separated items adds the record of these items. -/
theorem importRecord_of_trim {record : CString} {items : List CString}
    (h : stringTrim record (some recordTrimChars) = joinComma items) (hne : items ≠ [])
    (hitems : ∀ item ∈ items, item ≠ []) (hfree : ∀ item ∈ items, Free (ascii ",") item)
    (result : Option (List DataRecord)) :
    importRecord result record = dataListAddCopy result (items.foldl importItem {}) := by
  rw [importRecord, h, stringSplit_joinComma hne hitems hfree]

/-- **A stretch between quotes keeps its items to itself**, when commas or nothing surround it in
what trimming leaves of the record. -/
theorem importRecord_surround {l z r : CString} (hhead : z.head? = some 34)
    (hlast : z.getLast? = some 34)
    (hl : l.dropWhile (inCharset recordTrimChars) = [] ∨
      ∃ l', l.dropWhile (inCharset recordTrimChars) = l' ++ [44])
    (hr : r.rdropWhile (inCharset recordTrimChars) = [] ∨
      ∃ r', r.rdropWhile (inCharset recordTrimChars) = 44 :: r')
    (result : Option (List DataRecord)) :
    importRecord result (l ++ (z ++ r)) = dataListAddCopy result
      ((Tokens.runs (inCharset (ascii ",")) (r.rdropWhile (inCharset recordTrimChars))).foldl
        importItem ((Tokens.runs (inCharset (ascii ",")) z).foldl importItem
          ((Tokens.runs (inCharset (ascii ",")) (l.dropWhile (inCharset recordTrimChars))).foldl
            importItem {}))) := by
  have hquote : inCharset recordTrimChars 34 = false := rfl
  have hcomma : (44 : UInt8) ∈ ascii "," := by decide
  have hz : z ≠ [] := by
    rintro rfl
    simp at hhead
  have htrim : stringTrim (l ++ (z ++ r)) (some recordTrimChars) =
      l.dropWhile (inCharset recordTrimChars) ++
        (z ++ r.rdropWhile (inCharset recordTrimChars)) := by
    rw [stringTrim_eq_trim]
    exact Tokens.trim_surround _ l r ⟨34, hhead, hquote⟩ ⟨34, hlast, hquote⟩
  rw [importRecord_eq_runs htrim (by simp [hz]) ?_ result]
  · -- the items in front of the stretch, those of the stretch, and those behind it
    have hleft : ∀ c ∈ (l.dropWhile (inCharset recordTrimChars)).getLast?,
        inCharset (ascii ",") c := by
      rcases hl with hl | ⟨l', hl⟩ <;> simp [hl, hcomma]
    have hright : ∀ c ∈ (r.rdropWhile (inCharset recordTrimChars)).head?,
        inCharset (ascii ",") c := by
      rcases hr with hr | ⟨r', hr⟩ <;> simp [hr, hcomma]
    rw [Tokens.runs_append_of_getLast? _ hleft, Tokens.runs_append_of_head? _ _ hright,
      List.foldl_append, List.foldl_append]
  · -- what is left ends in the quote or in what was not trimmed
    intro c hc
    by_cases hr₀ : r.rdropWhile (inCharset recordTrimChars) = []
    · rw [hr₀, List.append_nil, List.getLast?_append_of_ne_nil _ hz, hlast] at hc
      rw [← Option.some.inj hc]
      decide
    · rw [← List.append_assoc, List.getLast?_append_of_ne_nil _ hr₀,
        List.getLast?_eq_some_getLast hr₀, Option.mem_some_iff] at hc
      intro hmem
      have hsub : ∀ c ∈ ascii ",", inCharset recordTrimChars c = true := by decide
      exact List.rdropWhile_last_not _ r hr₀ (hc ▸ hsub c hmem)

/-! ### The number of records -/

/-- Whether a record token becomes a record: something is left of it when it is trimmed. -/
def isRecord (record : CString) : Bool := record.any fun c => !inCharset recordTrimChars c

/-- The number of records of a result, none for `NULL`. -/
def recordsCount (result : Option (List DataRecord)) : ℕ := (result.getD []).length

/-- A record token becomes a record if trimming leaves anything of it. -/
theorem isRecord_eq_true_iff {record : CString} :
    isRecord record = true ↔ stringTrim record (some recordTrimChars) ≠ [] := by
  rw [stringTrim_eq_trim, ne_eq, Tokens.trim_eq_nil_iff, isRecord]
  simp only [List.any_eq_true, Bool.not_eq_true', not_forall, Bool.not_eq_true, exists_prop]

/-- A record token adds one record, or none. -/
theorem importRecord_eq_ite (result : Option (List DataRecord)) (record : CString) :
    importRecord result record =
      if isRecord record then
        dataListAddCopy result (((stringSplit (stringTrim record (some recordTrimChars))
          (ascii ",")).getD []).foldl importItem {})
      else result := by
  rw [importRecord]
  by_cases hnil : stringTrim record (some recordTrimChars) = []
  · rw [if_neg (mt isRecord_eq_true_iff.1 (not_not.2 hnil)), hnil]
    rfl
  · rw [if_pos (isRecord_eq_true_iff.2 hnil), stringSplit_eq_some hnil, Option.getD_some]

/-- A record token without a colon adds an empty record, or none. -/
theorem importRecord_of_not_mem {record : CString} (h : 58 ∉ record)
    (result : Option (List DataRecord)) :
    importRecord result record = if isRecord record then dataListAddCopy result {} else result := by
  have hitems : ((stringSplit (stringTrim record (some recordTrimChars)) (ascii ",")).getD []).foldl
      importItem {} = {} := by
    rw [foldl_stringSplit fun data => importItem_of_not_mem List.not_mem_nil data]
    refine List.foldlRecOn (motive := fun data => data = ({} : DataRecord)) _ _ rfl ?_
    intro data hdata item hitem
    have hfree : 58 ∉ item := fun hc =>
      h (Tokens.mem_of_mem_trim _ (Tokens.mem_of_mem_runs _ hitem hc))
    rw [importItem_of_not_mem hfree, hdata]
  rw [importRecord_eq_ite, hitems]

theorem recordsCount_importRecord (result : Option (List DataRecord)) (record : CString) :
    recordsCount (importRecord result record) =
      recordsCount result + if isRecord record then 1 else 0 := by
  rw [importRecord_eq_ite]
  cases isRecord record with
  | true => simp [recordsCount, dataListAddCopy]
  | false => simp

/-- **The number of records of a token** is the number of its runs that become one. -/
theorem recordsCount_importRecords (result : Option (List DataRecord)) (token : CString) :
    recordsCount (importRecords result token) = recordsCount result +
      (Tokens.runs (inCharset (ascii "\x7b")) token).countP isRecord := by
  have hfold : ∀ (records : List CString) (result : Option (List DataRecord)),
      recordsCount (records.foldl importRecord result) =
        recordsCount result + records.countP isRecord := by
    intro records
    induction records with
    | nil => intro result; rfl
    | cons record records ih =>
        intro result
        rw [List.foldl_cons, ih, recordsCount_importRecord, List.countP_cons]
        omega
  rw [importRecords_eq_runs, hfold]

/-- A token with a quote has a record. -/
theorem countP_isRecord_pos {token : CString} (h : 34 ∈ token) :
    0 < (Tokens.runs (inCharset (ascii "\x7b")) token).countP isRecord := by
  obtain ⟨record, hrecord, hmem⟩ := Tokens.exists_mem_runs (inCharset (ascii "\x7b")) h (by decide)
  exact List.countP_pos_iff.2 ⟨record, hrecord, List.any_eq_true.2 ⟨34, hmem, rfl⟩⟩

/-! ### Tokens -/

/-- The list that records are added to, with some added to it. -/
theorem foldl_dataListAddCopy (records : List DataRecord) (result : Option (List DataRecord))
    (hne : records ≠ []) :
    records.foldl dataListAddCopy result = some (result.getD [] ++ records) := by
  induction records generalizing result with
  | nil => exact absurd rfl hne
  | cons record records ih =>
      rw [List.foldl_cons]
      by_cases h : records = []
      · subst h
        rfl
      · rw [ih _ h, dataListAddCopy]
        simp

/-- The list of some records, or `NULL`. -/
def addedRecords (records : List DataRecord) : Option (List DataRecord) :=
  records.foldl dataListAddCopy none

theorem addedRecords_of_ne_nil {records : List DataRecord} (hne : records ≠ []) :
    addedRecords records = some records := foldl_dataListAddCopy records none hne

theorem addedRecords_inj {records records' : List DataRecord} :
    addedRecords records = addedRecords records' ↔ records = records' := by
  have hget : ∀ records, (addedRecords records).getD [] = records := by
    intro records
    by_cases hnil : records = []
    · rw [hnil]
      rfl
    · rw [addedRecords_of_ne_nil hnil, Option.getD_some]
  refine ⟨fun h => ?_, congrArg addedRecords⟩
  rw [← hget records, h, hget]

/-- A token that is trimmed to `data` is not empty. -/
theorem ne_nil_of_trim_data {pre : CString}
    (hdata : stringTrimCopy pre (some tokenTrimChars) = ascii "data") : pre ≠ [] := by
  rintro rfl
  exact absurd hdata (by decide)

/-- **The token behind `data` decides**: whatever surrounds the array and follows it. -/
theorem importText_array {pre array post : CString} (hpre : Free (ascii "[]") pre)
    (hdata : stringTrimCopy pre (some tokenTrimChars) = ascii "data")
    (harray : Free (ascii "[]") array) (hne : array ≠ []) (hpost : Free (ascii "[]") post)
    (hpostNe : post ≠ []) :
    importText (pre ++ 91 :: (array ++ 93 :: post)) = importRecords none array := by
  have hpreNe := ne_nil_of_trim_data hdata
  have hopen : inCharset (ascii "[]") 91 = true := rfl
  have hclose : inCharset (ascii "[]") 93 = true := rfl
  have hlast := free_getLast?_append (s := pre ++ 91 :: (array ++ [93])) hpostNe hpost
  have hsplit : stringSplit (pre ++ 91 :: (array ++ 93 :: post)) (ascii "[]") =
      some [pre, array, post] := by
    rw [stringSplit_eq_runs (by simp) (by simpa using hlast),
      Tokens.runs_append_cons_of_free _ hpreNe hpre.inCharset_eq_false _ hopen,
      Tokens.runs_append_cons_of_free _ hne harray.inCharset_eq_false _ hclose,
      Tokens.runs_eq_singleton _ hpostNe hpost.inCharset_eq_false]
  simp only [importText, hsplit, importTokens, hdata, if_true]

/-- Behind an empty array the rest of the document takes its place. -/
theorem importText_emptyArray {pre post : CString} (hpre : Free (ascii "[]") pre)
    (hdata : stringTrimCopy pre (some tokenTrimChars) = ascii "data")
    (hpost : Free (ascii "[]") post) (hpostNe : post ≠ []) :
    importText (pre ++ 91 :: 93 :: post) = importRecords none post := by
  have hpreNe := ne_nil_of_trim_data hdata
  have hopen : inCharset (ascii "[]") 91 = true := rfl
  have hclose : inCharset (ascii "[]") 93 = true := rfl
  have hlast := free_getLast?_append (s := pre ++ [91, 93]) hpostNe hpost
  have hsplit : stringSplit (pre ++ 91 :: 93 :: post) (ascii "[]") = some [pre, post] := by
    rw [stringSplit_eq_runs (by simp) (by simpa using hlast),
      Tokens.runs_append_cons_of_free _ hpreNe hpre.inCharset_eq_false _ hopen,
      Tokens.runs_cons_of_pos _ _ hclose,
      Tokens.runs_eq_singleton _ hpostNe hpost.inCharset_eq_false]
  simp only [importText, hsplit, importTokens, hdata, if_true]

end NvIpfix
