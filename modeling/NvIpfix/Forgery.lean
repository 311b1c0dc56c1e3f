/-
**Which strings can forge fields.**

A string that is not inert changes the import of some document, and a simple one: a single object,
at most one member in front of the string, and objects of one member behind it.  There are three
ways.  A piece of the string that is an item of the table stores a value, and the member in front
of it is chosen so that the value shows (`exists_probe`).  An opening brace makes a second record
of the object.  A square bracket ends the array, so that the objects behind the string are lost, or
are found again behind a forged `data` with a phantom record in front of them.

All this is of the passes themselves.  The accesses to their character maps are in range for 7-bit
texts only (`NvIpfix.importTextChecked_eq`).

Main definitions:

* `NvIpfix.Preserves` — filling a string in is as good as filling in any inert one;
* `NvIpfix.probeContext` — the documents that tell a string from an inert one.

Main results:

* `NvIpfix.exists_probe` — a value that is stored shows behind some member;
* `NvIpfix.preserves_iff_inert` — **a string changes nothing in any document exactly when it is
  inert**.
-/

import NvIpfix.StringContext

set_option relaxedAutoImplicit false
set_option autoImplicit false

namespace NvIpfix

/-! ### Values that show -/

/-- The record of at most one member. -/
def probeRecord (probe : Option Member) : DataRecord :=
  match probe with
  | none => {}
  | some m => m.store {}

/-- What a parser stores shows when some feature of it does not depend on what was there: in an
empty record, or behind a member that stores something else. -/
theorem exists_probe_of_const {α β : Type} {parseValue : ParseValue α} {value : CString}
    (feature : α → β) {b : β} (hconst : ∀ old, feature (parseValue value old).2 = b)
    (g : DataRecord → α) (m : Member) (hm : feature (g (m.store {})) ≠ feature (g {})) :
    ∃ probe, ∀ old, (parseValue value old).2 ≠ g (probeRecord probe) := by
  by_cases h : feature (g {}) = b
  · refine ⟨some m, fun old heq => hm ?_⟩
    have hfeature := congrArg feature heq
    rw [hconst old, probeRecord] at hfeature
    rw [← hfeature, h]
  · refine ⟨none, fun old heq => h ?_⟩
    have hfeature := congrArg feature heq
    rw [hconst old, probeRecord] at hfeature
    exact hfeature.symm

/-- A state shows. -/
theorem exists_probe_of_curState {value : CString} (h : keepsField .tcpControlBits value = false) :
    ∃ probe, ∀ old,
      (importParseTcpControlFlags value old).2 ≠ (probeRecord probe).tcpControlBits := by
  refine ⟨none, fun old => ?_⟩
  rw [probeRecord]
  simp only [keepsField, ne_eq, decide_not, Bool.and_eq_false_iff, Bool.not_eq_false',
    decide_eq_true_eq] at h
  rcases h with ((h | h) | h) | h <;> subst h <;> cases old <;> decide

/-- Whether an address is stored depends on its text only. -/
theorem exists_hasValue_mac {value : CString} (h : value ≠ []) :
    ∃ b, ∀ old, (parseMacAddress value old).2.hasValue = b := by
  cases hs : stringSplit value (ascii ":") with
  | none => exact absurd (stringSplit_eq_none_iff.1 hs) h
  | some tokens =>
      by_cases hl : tokens.length = addressOctetsCountMac
      · exact ⟨true, fun old => by simp only [parseMacAddress, hs, hl, if_true]⟩
      · exact ⟨false, fun old => by simp only [parseMacAddress, hs, hl, if_false]⟩

theorem exists_hasValue_ip {value : CString} (h : value ≠ []) :
    ∃ b, ∀ old, (parseIpAddress value old).2.hasValue = b := by
  cases hs : stringSplit value (ascii ".") with
  | none => exact absurd (stringSplit_eq_none_iff.1 hs) h
  | some tokens =>
      by_cases hl : tokens.length = addressOctetsCountIpv4
      · exact ⟨true, fun old => by simp only [parseIpAddress, hs, hl, if_true]⟩
      · exact ⟨false, fun old => by simp only [parseIpAddress, hs, hl, if_false]⟩

theorem free_entryName : ∀ entry ∈ importItems, Free nameStops entry.name := by decide

/-- The member that gives an entry the value `1`. -/
def unitMember (entry : ImportItem) (h : entry ∈ importItems) : Member where
  name := ⟨entry.name, free_entryName entry h⟩
  value := .one

/-- A number or a duration of `1` is seen. -/
theorem get_store_unitMember (entry : ImportItem) (h : entry ∈ importItems)
    (hnum : entry.field.isNumeral) : ((unitMember entry h).store {}).get entry.field ≠
      ({} : DataRecord).get entry.field := by
  have hall : ∀ entry ∈ importItems, entry.field.isNumeral →
      (storeMember (trimName entry.name) (trimValue (ascii "1")) {}).get entry.field ≠
        ({} : DataRecord).get entry.field := by
    decide +kernel
  exact hall entry h hnum

/-- **A value that is stored shows behind some member.** -/
theorem exists_probe (entry : ImportItem) (hentry : entry ∈ importItems) (value : CString)
    (hkeep : keepsField entry.field value = false) :
    ∃ probe, ∀ old, (entry.parseValue value old).2 ≠ (probeRecord probe).get entry.field := by
  by_cases hnum : entry.field.isNumeral
  · have hconst : ∀ old, id (entry.parseValue value old).2 =
        (entry.parseValue value (({} : DataRecord).get entry.field)).2 := fun old => by
      rw [(numeralParser_of_isNumeral entry hentry hnum).ignoresOld value old
        (({} : DataRecord).get entry.field)]
      rfl
    exact exists_probe_of_const id hconst (·.get entry.field) (unitMember entry hentry)
      (get_store_unitMember entry hentry hnum)
  · have hmac : decide (value = []) = false →
        ∃ b, ∀ old, (parseMacAddress value old).2.hasValue = b := fun h =>
      exists_hasValue_mac (of_decide_eq_false h)
    have hip : decide (value = []) = false →
        ∃ b, ∀ old, (parseIpAddress value old).2.hasValue = b := fun h =>
      exists_hasValue_ip (of_decide_eq_false h)
    simp only [importItems, List.mem_cons, List.not_mem_nil, or_false] at hentry
    rcases hentry with rfl | rfl | rfl | rfl | rfl | rfl | rfl | rfl | rfl | rfl | rfl | rfl | rfl |
      rfl | rfl | rfl | rfl | rfl | rfl | rfl | rfl | rfl
    all_goals first
      | exact absurd rfl hnum
      | exact exists_probe_of_curState hkeep
      | skip
    · obtain ⟨b, hb⟩ := hmac hkeep
      exact exists_probe_of_const (·.hasValue) hb (·.sourceMac)
        (.mkLiteral true (ascii "src-mac") (ascii "0:0:0:0:0:0")) (by decide +kernel)
    · obtain ⟨b, hb⟩ := hmac hkeep
      exact exists_probe_of_const (·.hasValue) hb (·.destinationMac)
        (.mkLiteral true (ascii "dst-mac") (ascii "0:0:0:0:0:0")) (by decide +kernel)
    · obtain ⟨b, hb⟩ := hip hkeep
      exact exists_probe_of_const (·.hasValue) hb (·.sourceIp)
        (.mkLiteral true (ascii "src-ip") (ascii "0.0.0.0")) (by decide +kernel)
    · obtain ⟨b, hb⟩ := hip hkeep
      exact exists_probe_of_const (·.hasValue) hb (·.destinationIp)
        (.mkLiteral true (ascii "dst-ip") (ascii "0.0.0.0")) (by decide +kernel)
    · exact exists_probe_of_const (·.tzOffset) (fun _ => rfl) (·.flowStart)
        (.mkLiteral true (ascii "started-time") (ascii "0")) (by decide +kernel)
    · exact exists_probe_of_const (·.tzOffset) (fun _ => rfl) (·.flowEnd)
        (.mkLiteral true (ascii "ended-time") (ascii "0")) (by decide +kernel)
    · exact exists_probe_of_const (·.tzOffset) (fun _ => rfl) (·.flowEnd)
        (.mkLiteral true (ascii "ended-time") (ascii "0")) (by decide +kernel)

/-! ### Documents that tell -/

/-- The name of the probed member. -/
def probeName : JsonString := ⟨ascii "x", by decide⟩

/-- The empty string. -/
def emptyString : JsonString := ⟨[], by decide⟩

theorem inert_emptyString : Inert emptyString := by decide +kernel

/-- One object with at most one member in front of the string, and further objects behind it. -/
def probeContext (probe : Option Member) (k : ℕ) : StringContext where
  objectsBefore := []
  membersBefore := probe.toList.map Member.text
  name := probeName
  membersAfter := []
  objectsAfter := List.replicate k [Member.vlanOne.text]

theorem plain_probeContext (probe : Option Member) (k : ℕ) : (probeContext probe k).Plain where
  nameFree := (by decide : Free (ascii ",:[]\x7b") probeName.text)
  unknown := (by rfl : importGetItem (trimName probeName.text) = none)
  reached := Or.inr (by decide : stringTrim probeName.text (some tokenTrimChars) ∉
    [[], ascii "data"])

theorem free_memberText {t : JsonString} {charset : CString} (ht : Free charset t.text)
    (hcharset : Free charset (ascii "\"x:")) : Free charset (memberText probeName t) := by
  have hname : Free charset probeName.text :=
    free_of_forall_mem (by decide) hcharset
  have h34 : (34 : UInt8) ∉ charset := hcharset 34 (by decide)
  have h58 : (58 : UInt8) ∉ charset := hcharset 58 (by decide)
  simp only [memberText, free_cons, free_append, hname, ht, h34, h58, free_nil, not_false_eq_true,
    and_self]

/-- The text in front of the string in the array. -/
def probeText (probe : Option Member) : CString := probe.toList.flatMap fun m => m.text ++ [44]

theorem fill_probeContext (probe : Option Member) (t : JsonString) :
    (probeContext probe 0).fill t = documentHead ++
      91 :: ((123 :: (probeText probe ++ (memberText probeName t ++ [125]))) ++ 93 :: [125]) := by
  rw [StringContext.fill_eq, StringContext.left, StringContext.right]
  cases probe <;> simp [probeContext, probeText]

/-- The record of the object: the member in front of the string, and the items of the string. -/
theorem importRecord_probe (probe : Option Member) (t : JsonString)
    (result : Option (List DataRecord)) :
    importRecord result (probeText probe ++ (memberText probeName t ++ [125])) =
      dataListAddCopy result ((stringItems t).foldl importItem (probeRecord probe)) := by
  have hleft : (probeText probe).dropWhile (inCharset recordTrimChars) = probeText probe := by
    cases probe with
    | none => rfl
    | some m =>
        simp only [probeText, Option.toList_some, List.flatMap_cons, Member.text, List.cons_append]
        exact List.dropWhile_cons_of_neg (by decide)
  have hright : ([125] : CString).rdropWhile (inCharset recordTrimChars) = [] := by decide
  have hprobe : (Tokens.runs (inCharset (ascii ",")) (probeText probe)).foldl importItem {} =
      probeRecord probe := by
    cases probe with
    | none => simp [probeText, probeRecord]
    | some m =>
        have hcomma : inCharset (ascii ",") 44 = true := rfl
        have hfree : Free (ascii ",") m.text := m.free_text.mono (by decide)
        have hitem := (SpacedMember.ofMember m).importItem_text {}
        rw [SpacedMember.ofMember_text] at hitem
        simp only [probeText, Option.toList_some, List.flatMap_cons, List.flatMap_nil,
          List.append_nil]
        rw [Tokens.runs_append_singleton _ _ hcomma,
          Tokens.runs_eq_singleton _ (by simp [Member.text]) hfree.inCharset_eq_false,
          List.foldl_cons, List.foldl_nil, hitem]
        rfl
  have hlast : (memberText probeName t).getLast? = some 34 := by
    simp [memberText, List.getLast?_cons]
  have hitems : ∀ data, (Tokens.runs (inCharset (ascii ",")) (memberText probeName t)).foldl
      importItem data = (stringItems t).foldl importItem data :=
    foldl_importItem_member (by decide) rfl t
  rw [importRecord_surround rfl hlast ?_ (Or.inl hright), hleft, hright, hprobe,
    hitems, Tokens.runs_nil, List.foldl_nil]
  rw [hleft]
  cases probe with
  | none => exact Or.inl rfl
  | some m => exact Or.inr ⟨m.text, by simp [probeText]⟩

/-- **A string without brackets and opening braces adds its items to the record.** -/
theorem importText_probeContext {t : JsonString} (hfree : Free (ascii "[]\x7b") t.text)
    (probe : Option Member) : importText ((probeContext probe 0).fill t) =
      some [(stringItems t).foldl importItem (probeRecord probe)] := by
  have hmember := free_memberText hfree (by decide)
  have hprobe : Free (ascii "[]\x7b") (probeText probe) := by
    cases probe with
    | none => exact free_nil _
    | some m =>
        have hm : Free (ascii "[]\x7b") m.text := m.free_text.mono (by decide)
        simp only [probeText, Option.toList_some, List.flatMap_cons, List.flatMap_nil,
          List.append_nil, free_append, hm, true_and]
        decide
  have hrecord : Free (ascii "[]\x7b") (probeText probe ++ (memberText probeName t ++ [125])) :=
    free_append.2 ⟨hprobe, free_append.2 ⟨hmember, by decide⟩⟩
  have hbrace : Free (ascii "\x7b") (probeText probe ++ (memberText probeName t ++ [125])) :=
    hrecord.mono (by decide)
  have hdata : stringTrimCopy documentHead (some tokenTrimChars) = ascii "data" := by decide
  rw [fill_probeContext, importText_array (by decide) hdata
      (free_cons.2 ⟨by decide, hrecord.mono (by decide)⟩) (by simp) (by decide) (by simp),
    importRecords_eq_runs, Tokens.runs_cons_of_pos _ _ (by decide),
    Tokens.runs_eq_singleton _ (by simp [memberText]) hbrace.inCharset_eq_false, List.foldl_cons,
    List.foldl_nil, importRecord_probe]
  rfl

/-! ### A piece that stores something -/

/-- The last element with a property. -/
theorem exists_last {α : Type} {P : α → Prop} {l : List α} (h : ∃ x ∈ l, P x) :
    ∃ a y b, l = a ++ y :: b ∧ P y ∧ ∀ z ∈ b, ¬P z := by
  induction l with
  | nil => simp at h
  | cons c l ih =>
      by_cases htail : ∃ z ∈ l, P z
      · obtain ⟨a, y, b, rfl, hy, hb⟩ := ih htail
        exact ⟨c :: a, y, b, rfl, hy, hb⟩
      · obtain ⟨x, hx, hPx⟩ := h
        have hxc : x = c := by
          rcases List.mem_cons.1 hx with rfl | hx
          · rfl
          · exact absurd ⟨x, hx, hPx⟩ htail
        exact ⟨[], c, l, rfl, hxc ▸ hPx, fun z hz hPz => htail ⟨z, hz, hPz⟩⟩

/-- **A piece that is an item of the table tells**: the last one that stores something shows. -/
theorem exists_probe_of_item {t : JsonString} (hfree : Free (ascii "[]\x7b") t.text)
    {item : CString} (hitem : item ∈ stringItems t) (h : storesNothing item = false) :
    ∃ probe, importText ((probeContext probe 0).fill t) ≠
      importText ((probeContext probe 0).fill emptyString) := by
  obtain ⟨before, last, after, hsplit, hlast, hafter⟩ :=
    exists_last (P := fun i => storesNothing i = false) ⟨item, hitem, h⟩
  have h11 : ∀ i ∈ stringItems t, 11 ∉ i := fun i hi => not_mem_11_of_mem_stringItems hi
  -- the pair of the last item that stores something, and its entry in the table
  obtain ⟨name, value, entry, hpair, hentry, hkeep⟩ : ∃ name value entry,
      itemPair last = some (name, value) ∧ importGetItem name = some entry ∧
        keepsField entry.field value = false := by
    rw [storesNothing] at hlast
    cases hp : itemPair last with
    | none => simp [hp] at hlast
    | some pair =>
        cases he : importGetItem pair.1 with
        | none => simp [hp, he] at hlast
        | some entry => exact ⟨pair.1, pair.2, entry, rfl, he, by simpa [hp, he] using hlast⟩
  obtain ⟨probe, hprobe⟩ := exists_probe entry (importGetItem_eq_some hentry).1 value hkeep
  refine ⟨probe, ?_⟩
  have hempty : (stringItems emptyString).foldl importItem (probeRecord probe) =
      probeRecord probe := foldl_importItem_of_inert inert_emptyString _
  rw [importText_probeContext hfree, importText_probeContext inert_emptyString.1, hempty]
  intro heq
  have hrecord := (List.cons.inj (Option.some.inj heq)).1
  rw [hsplit, List.foldl_append, List.foldl_cons,
    importItem_eq_itemPair (h11 last (by rw [hsplit]; simp)), hpair] at hrecord
  have hrest : ∀ data, after.foldl importItem data = data := by
    intro data
    refine List.foldlRecOn (motive := fun d => d = data) _ _ rfl ?_
    intro d hd i hi
    rw [importItem_of_storesNothing (h11 i (by rw [hsplit]; simp [hi]))
      (by simpa using hafter i hi), hd]
  rw [hrest] at hrecord
  simp only [storeMember, hentry, ImportItem.parseInto] at hrecord
  have hget := congrArg (fun d => d.get entry.field) hrecord
  simp only [DataRecord.get_set] at hget
  exact hprobe _ hget

/-! ### An opening brace -/

/-- **An opening brace tells**: it makes a second record of the object. -/
theorem importText_brace {t : JsonString} (hfree : Free (ascii "[]") t.text)
    (hbrace : 123 ∈ t.text) :
    importText ((probeContext none 0).fill t) ≠
      importText ((probeContext none 0).fill emptyString) := by
  obtain ⟨p, q, hsplit⟩ := List.append_of_mem hbrace
  have hmember := free_memberText hfree (by decide)
  have hdata : stringTrimCopy documentHead (some tokenTrimChars) = ascii "data" := by decide
  have harray : Free (ascii "[]")
      (123 :: (probeText none ++ (memberText probeName t ++ [125]))) :=
    free_cons.2 ⟨by decide, free_append.2 ⟨free_nil _, free_append.2 ⟨hmember, by decide⟩⟩⟩
  -- both parts of the object have a quote
  have htext : 123 :: (probeText none ++ (memberText probeName t ++ [125])) =
      (123 :: 34 :: (probeName.text ++ 34 :: 58 :: 34 :: p)) ++ 123 :: (q ++ [34, 125]) := by
    simp [probeText, memberText, hsplit]
  have hcount : 2 ≤ recordsCount (importText ((probeContext none 0).fill t)) := by
    have hfirst := countP_isRecord_pos
      (show 34 ∈ 123 :: 34 :: (probeName.text ++ 34 :: 58 :: 34 :: p) by simp)
    have hsecond := countP_isRecord_pos (show 34 ∈ q ++ [34, 125] by simp)
    rw [fill_probeContext,
      importText_array (by decide) hdata harray (by simp) (by decide) (by simp),
      recordsCount_importRecords, htext, Tokens.runs_append_cons _ _ _ (by decide),
      List.countP_append]
    omega
  have hempty : recordsCount (importText ((probeContext none 0).fill emptyString)) = 1 := by
    rw [importText_probeContext inert_emptyString.1]
    rfl
  intro heq
  rw [heq, hempty] at hcount
  omega

/-! ### A bracket -/

/-- What the tokens in front of the last two do: either the token before the last is not used, or
its records are added to what was there. -/
theorem importTokens_last : ∀ (tokens : List CString) (result : Option (List DataRecord)),
    ∃ result', recordsCount result ≤ recordsCount result' ∧
      ((∀ w, importTokens result (tokens ++ [w, [125]]) = result') ∨
        ∀ w, importTokens result (tokens ++ [w, [125]]) = importRecords result' w)
  | [], result => by
      refine ⟨result, le_rfl, Or.inl fun w => ?_⟩
      simp only [List.nil_append, importTokens]
      split <;> rfl
  | [a], result => by
      by_cases ha : stringTrimCopy a (some tokenTrimChars) = ascii "data"
      · refine ⟨result, le_rfl, Or.inr fun w => ?_⟩
        simp only [List.cons_append, List.nil_append, importTokens, ha, if_true]
      · obtain ⟨result', hle, h⟩ := importTokens_last [] result
        refine ⟨result', hle, ?_⟩
        simpa only [List.cons_append, List.nil_append, importTokens, ha, if_false] using h
  | a :: b :: tokens, result => by
      by_cases ha : stringTrimCopy a (some tokenTrimChars) = ascii "data"
      · obtain ⟨result', hle, h⟩ := importTokens_last tokens (importRecords result b)
        refine ⟨result', ?_, ?_⟩
        · rw [recordsCount_importRecords] at hle
          omega
        · simpa only [List.cons_append, importTokens, ha, if_true] using h
      · obtain ⟨result', hle, h⟩ := importTokens_last (b :: tokens) result
        refine ⟨result', hle, ?_⟩
        simpa only [List.cons_append, importTokens, ha, if_false] using h

/-- The objects behind the string. -/
def nextObjects (k : ℕ) : CString :=
  (List.replicate k [Member.vlanOne.text]).flatMap fun o => 44 :: objectText o

theorem free_nextObjects (k : ℕ) : Free (ascii "[]") (nextObjects k) := by
  intro c hc
  obtain ⟨o, ho, hco⟩ := List.mem_flatMap.1 hc
  rw [List.eq_of_mem_replicate ho] at hco
  have hobject : Free (ascii "[]") (44 :: objectText [Member.vlanOne.text]) := by decide
  exact hobject c hco

/-- With the empty string there is a record for every object. -/
theorem recordsCount_probeContext_empty (k : ℕ) :
    recordsCount (importText ((probeContext none k).fill emptyString)) = k + 1 := by
  have hobject : Object.text ⟨[.mkLiteral true (ascii "x") []], by simp⟩ =
      objectText [memberText probeName emptyString] := rfl
  have hnext : Object.text ⟨[Member.vlanOne], by simp⟩ = objectText [Member.vlanOne.text] := rfl
  have hfill : (probeContext none k).fill emptyString =
      documentText (⟨[.mkLiteral true (ascii "x") []], by simp⟩ ::
        List.replicate k ⟨[Member.vlanOne], by simp⟩) := by
    rw [documentText, List.map_cons, List.map_replicate, hobject, hnext]
    simp [StringContext.fill, probeContext]
  rw [hfill, importText_documentText (by simp)]
  simp [recordsCount]

/-- The object up to the first bracket of the string. -/
def probeHead (p : CString) : CString := 123 :: 34 :: (probeName.text ++ 34 :: 58 :: 34 :: p)

/-- The array behind the last bracket of the string. -/
def probeTail (q : CString) (k : ℕ) : CString :=
  q.rtakeWhile (fun c => !inCharset (ascii "[]") c) ++ 34 :: 125 :: nextObjects k

theorem free_probeHead {p : CString} (hp : Free (ascii "[]") p) :
    Free (ascii "[]") (probeHead p) := by
  have hname : Free (ascii "[]") probeName.text := by decide
  simp only [probeHead, free_cons, free_append, hname, hp, and_true]
  decide

theorem free_probeTail (q : CString) (k : ℕ) : Free (ascii "[]") (probeTail q k) := by
  refine free_append.2 ⟨fun c hc => ?_, free_cons.2 ⟨by decide, free_cons.2 ⟨by decide,
    free_nextObjects k⟩⟩⟩
  rw [← inCharset_eq_false_iff]
  simpa only [Bool.not_eq_true'] using List.mem_rtakeWhile_imp hc

/-- The document of a string with a bracket. -/
theorem fill_bracket {t : JsonString} {p q : CString} {b : UInt8} (ht : t.text = p ++ b :: q)
    (k : ℕ) : (probeContext none k).fill t = documentHead ++
      91 :: (probeHead p ++ b :: ((q ++ 34 :: 125 :: nextObjects k) ++ 93 :: [125])) := by
  rw [StringContext.fill_eq, StringContext.left, StringContext.right]
  simp [probeContext, probeHead, memberText, nextObjects, ht]

/-- Its tokens: `data`, the object up to the bracket, those of the string, its rest, the end. -/
theorem stringSplit_bracket {t : JsonString} {p q : CString} {b : UInt8}
    (ht : t.text = p ++ b :: q) (hp : Free (ascii "[]") p) (hb : inCharset (ascii "[]") b)
    (k : ℕ) : stringSplit ((probeContext none k).fill t) (ascii "[]") =
      some (documentHead :: probeHead p ::
        (Tokens.runs (inCharset (ascii "[]")) (q.rdropWhile fun c => !inCharset (ascii "[]") c) ++
          [probeTail q k, [125]])) := by
  have hclose : Free (ascii "[]") [125] := by decide
  have hdocument : Free (ascii "[]") documentHead := by decide
  have hlast := free_getLast?_append (s := documentHead ++
    91 :: (probeHead p ++ b :: ((q ++ 34 :: 125 :: nextObjects k) ++ [93]))) (by simp) hclose
  have htail : Tokens.runs (inCharset (ascii "[]")) (probeTail q k) = [probeTail q k] :=
    Tokens.runs_eq_singleton _ (by simp [probeTail]) (free_probeTail q k).inCharset_eq_false
  rw [fill_bracket ht, stringSplit_eq_runs (by simp) (by simpa using hlast),
    Tokens.runs_append_cons_of_free _ (by decide) hdocument.inCharset_eq_false _ rfl,
    Tokens.runs_append_cons_of_free _ (by simp [probeHead])
      (free_probeHead hp).inCharset_eq_false _ hb,
    Tokens.runs_append_cons _ _ _ rfl, Tokens.runs_append, ← probeTail, htail,
    Tokens.runs_eq_singleton _ (by simp) hclose.inCharset_eq_false]
  simp

/-- What is left of the object is a record, whatever surrounds the bracket. -/
theorem recordsCount_importRecords_probeHead (p : CString) :
    0 < recordsCount (importRecords none (probeHead p)) := by
  have hcount := countP_isRecord_pos (show 34 ∈ probeHead p by simp [probeHead])
  rw [recordsCount_importRecords]
  omega

/-- **A bracket tells**: the objects behind the string are lost, or found again behind a phantom
record. -/
theorem exists_probe_of_bracket {t : JsonString} (h : ¬Free (ascii "[]") t.text) :
    ∃ k, importText ((probeContext none k).fill t) ≠
      importText ((probeContext none k).fill emptyString) := by
  -- the string up to its first bracket
  obtain ⟨c, hc, hbracket⟩ : ∃ c ∈ t.text, inCharset (ascii "[]") c := by
    simpa [Free] using h
  obtain ⟨p, b, q, ht, hp, hb⟩ := Tokens.exists_eq_append_cons _ hc hbracket
  have hpFree : Free (ascii "[]") p := fun c hc => inCharset_eq_false_iff.1 (hp c hc)
  have hdata : stringTrimCopy documentHead (some tokenTrimChars) = ascii "data" := by decide
  have himport : ∀ k, importText ((probeContext none k).fill t) = importTokens
      (importRecords none (probeHead p))
      (Tokens.runs (inCharset (ascii "[]")) (q.rdropWhile fun c => !inCharset (ascii "[]") c) ++
        [probeTail q k, [125]]) := by
    intro k
    simp only [importText, stringSplit_bracket ht hpFree hb, importTokens, hdata, if_true]
  have hpos := recordsCount_importRecords_probeHead p
  obtain ⟨result', hle, hlost | hfound⟩ := importTokens_last
    (Tokens.runs (inCharset (ascii "[]")) (q.rdropWhile fun c => !inCharset (ascii "[]") c))
    (importRecords none (probeHead p))
  · -- the objects behind the string are lost, so one can take as many as there are records
    refine ⟨recordsCount result', fun heq => ?_⟩
    have hcount := recordsCount_probeContext_empty (recordsCount result')
    rw [← heq, himport, hlost] at hcount
    omega
  · -- they are found again, but the rest of the object is a record too
    refine ⟨0, fun heq => ?_⟩
    have hcount := recordsCount_probeContext_empty 0
    have hphantom := countP_isRecord_pos (show 34 ∈ probeTail q 0 by simp [probeTail])
    rw [← heq, himport, hfound, recordsCount_importRecords] at hcount
    omega

/-! ### Strings that change nothing -/

/-- A context whose other members have scalar values without structure. -/
structure StringContext.Flat (C : StringContext) : Prop extends C.Plain where
  members : ∀ m ∈ C.objectsBefore.flatten ++ C.membersBefore ++ C.membersAfter ++
    C.objectsAfter.flatten, ∃ m' : Member, m'.text = m

/-- In every context of a kind, replacing an inert string by this one changes no record. -/
def Preserves (kind : StringContext → Prop) (t : JsonString) : Prop :=
  ∀ C, kind C → ∀ s, Inert s → importText (C.fill s) = importText (C.fill t)

theorem flat_probeContext (probe : Option Member) (k : ℕ) : (probeContext probe k).Flat where
  toPlain := plain_probeContext probe k
  members := by
    intro m hm
    simp only [probeContext, List.flatten_nil, List.nil_append, List.append_nil, List.mem_append,
      List.mem_map, List.mem_flatten] at hm
    rcases hm with ⟨m', -, rfl⟩ | ⟨o, ho, hm⟩
    · exact ⟨m', rfl⟩
    · rw [List.eq_of_mem_replicate ho, List.mem_singleton] at hm
      exact ⟨Member.vlanOne, hm.symm⟩

/-- A string that changes nothing in the simplest contexts is inert. -/
theorem inert_of_preserves_flat {t : JsonString} (h : Preserves StringContext.Flat t) :
    Inert t := by
  have hempty : ∀ probe k, importText ((probeContext probe k).fill t) =
      importText ((probeContext probe k).fill emptyString) := fun probe k =>
    (h _ (flat_probeContext probe k) _ inert_emptyString).symm
  have hbracket : Free (ascii "[]") t.text := by
    by_contra hb
    obtain ⟨k, hk⟩ := exists_probe_of_bracket hb
    exact hk (hempty none k)
  have hbrace : 123 ∉ t.text := fun hb => importText_brace hbracket hb (hempty none 0)
  have hfree : Free (ascii "[]\x7b") t.text := by
    have hall : ∀ c ∈ ascii "[]\x7b", c ∈ ascii "[]" ∨ c = 123 := by decide
    intro c hc hmem
    rcases hall c hmem with hb | rfl
    · exact hbracket c hc hb
    · exact hbrace hc
  refine ⟨hfree, fun item hitem => ?_⟩
  by_contra hstores
  obtain ⟨probe, hprobe⟩ := exists_probe_of_item hfree hitem (by simpa using hstores)
  exact hprobe (hempty probe 0)

/-- **A string changes nothing exactly when it is inert**, in documents with any other members as
in those whose other members are plain. -/
theorem preserves_iff_inert (t : JsonString) :
    (Preserves StringContext.Plain t ↔ Inert t) ∧ (Preserves StringContext.Flat t ↔ Inert t) := by
  have hplain : Inert t → Preserves StringContext.Plain t := fun ht C hC s hs =>
    StringContext.importText_fill_of_inert hC hs ht
  have hflat : Preserves StringContext.Plain t → Preserves StringContext.Flat t :=
    fun h C hC => h C hC.toPlain
  exact ⟨⟨fun h => inert_of_preserves_flat (hflat h), hplain⟩,
    ⟨inert_of_preserves_flat, fun ht => hflat (hplain ht)⟩⟩

end NvIpfix
