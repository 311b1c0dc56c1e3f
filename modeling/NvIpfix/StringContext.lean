/-
**Strings in context.**

A member whose name is not in the table, with a string for its value, in a compact document that
may hold anything else: the other members are arbitrary texts.  The importer cuts the string as if
its characters were structure.  What it makes of a string is described by `Inert`: a string that
neither opens nor closes an array or an object, and of whose comma-separated pieces behind the first
none is an item that stores something.

An inert string is passed over in every context; the argument follows the passes outside in, and
uses at each level that the member lies within one token (`Tokens.runs_surround`).

Main definitions:

* `NvIpfix.JsonString` — a JSON string without escapes;
* `NvIpfix.StringContext`, `NvIpfix.StringContext.fill` — a document with a string left open;
* `NvIpfix.storesNothing`, `NvIpfix.Inert` — the strings that are passed over.

Main results:

* `NvIpfix.foldl_importItem_member` — the items of a member are those of its string;
* `NvIpfix.StringContext.importText_fill_of_inert` — **one inert string is as good as another**.
-/

import NvIpfix.Document

set_option relaxedAutoImplicit false
set_option autoImplicit false

namespace NvIpfix

/-! ### Strings -/

/-- The characters that a JSON string without escapes does not hold: controls, the quote and the
backslash. -/
def stringStops : CString := (List.range 32).map UInt8.ofNat ++ ascii "\"\\"

/-- A JSON string without escapes, without its quotes. -/
structure JsonString where
  text : CString
  free : Free stringStops text
  deriving DecidableEq

/-- A member with a string for its value. -/
def memberText (name t : JsonString) : CString :=
  34 :: (name.text ++ 34 :: 58 :: 34 :: (t.text ++ [34]))

/-- The items that a string is cut into behind its first comma, the last with the closing quote. -/
def stringItems (t : JsonString) : List CString :=
  Tokens.runs (inCharset (ascii ",")) (t.text.dropWhile (· != 44) ++ [34])

/-- The values of which the parser of a field stores nothing. -/
def keepsField : DataField → CString → Bool
  | .tcpControlBits, value =>
      value ≠ ascii "fin" && value ≠ ascii "rst" && value ≠ ascii "syn" && value ≠ ascii "est"
  | .sourceMac, value | .sourceIp, value | .destinationMac, value | .destinationIp, value =>
      value = []
  | _, _ => false

/-- Whether an item stores nothing: it is no pair, its name is not in the table, or the parser of
its name stores nothing of its value. -/
def storesNothing (item : CString) : Bool :=
  match itemPair item with
  | none => true
  | some (name, value) =>
      match importGetItem name with
      | none => true
      | some entry => keepsField entry.field value

/-- **A string that is passed over**: it has no square bracket and no opening brace, and the items
it is cut into store nothing. -/
def Inert (t : JsonString) : Prop :=
  Free (ascii "[]\x7b") t.text ∧ ∀ item ∈ stringItems t, storesNothing item = true

instance (t : JsonString) : Decidable (Inert t) :=
  inferInstanceAs (Decidable (_ ∧ ∀ item ∈ stringItems t, storesNothing item = true))

/-! ### Items that store nothing -/

/-- The parser of an entry leaves its field as it is. -/
theorem parseValue_of_keepsField : ∀ entry ∈ importItems, ∀ value,
    keepsField entry.field value = true → ∀ old, (entry.parseValue value old).2 = old := by
  have hflags : ∀ value, keepsField .tcpControlBits value = true →
      ∀ old, (importParseTcpControlFlags value old).2 = old := by
    intro value h old
    simp only [keepsField, ne_eq, decide_not, Bool.and_eq_true, Bool.not_eq_true',
      decide_eq_false_iff_not] at h
    simp only [importParseTcpControlFlags, h.1.1.1, h.1.1.2, h.1.2, h.2, if_false]
  have hmac : ∀ value, decide (value = []) = true →
      ∀ old, (parseMacAddress value old).2 = old := by
    intro value h old
    rw [of_decide_eq_true h]
    rfl
  have hip : ∀ value, decide (value = []) = true → ∀ old, (parseIpAddress value old).2 = old := by
    intro value h old
    rw [of_decide_eq_true h]
    rfl
  intro entry hentry value
  simp only [importItems, List.mem_cons, List.not_mem_nil, or_false] at hentry
  rcases hentry with rfl | rfl | rfl | rfl | rfl | rfl | rfl | rfl | rfl | rfl | rfl | rfl | rfl |
    rfl | rfl | rfl | rfl | rfl | rfl | rfl | rfl | rfl
  all_goals first
    | exact hflags value
    | exact hmac value
    | exact hip value
    | exact fun h => absurd h (by simp [keepsField])

/-- **An item that stores nothing** leaves every record as it is. -/
theorem importItem_of_storesNothing {item : CString} (h11 : 11 ∉ item)
    (h : storesNothing item = true) (data : DataRecord) : importItem data item = data := by
  rw [importItem_eq_itemPair h11]
  rw [storesNothing] at h
  cases hpair : itemPair item with
  | none => rfl
  | some pair =>
      obtain ⟨name, value⟩ := pair
      rw [hpair] at h
      simp only [storeMember] at h ⊢
      cases hentry : importGetItem name with
      | none => rfl
      | some entry =>
          rw [hentry] at h
          simp only [ImportItem.parseInto,
            parseValue_of_keepsField entry (importGetItem_eq_some hentry).1 value h]
          exact DataRecord.set_get _ _

/-! ### The member of a string -/

theorem JsonString.not_mem_11 (t : JsonString) : 11 ∉ t.text := fun h =>
  t.free 11 h (by decide)

theorem not_mem_11_of_mem_stringItems {t : JsonString} {item : CString} (h : item ∈ stringItems t) :
    11 ∉ item := by
  intro hc
  have hmem := Tokens.mem_of_mem_runs _ h hc
  rcases List.mem_append.1 hmem with hm | hm
  · exact t.not_mem_11 ((List.dropWhile_suffix _).subset hm)
  · exact absurd hm (by decide)

/-- The first item of an unknown member adds nothing. -/
theorem importItem_unknown {name : JsonString} (hcolon : 58 ∉ name.text)
    (hunknown : importGetItem (trimName name.text) = none) {v : CString} (hv : 11 ∉ v)
    (data : DataRecord) : importItem data (34 :: (name.text ++ 34 :: 58 :: 34 :: v)) = data := by
  have hquote : ∀ c ∈ [34], inCharset itemTrimChars c = true := by decide
  have htrim : trimName (34 :: (name.text ++ [34])) = trimName name.text := by
    have h := Tokens.trim_pad (inCharset itemTrimChars) (l := name.text) hquote hquote
    exact h
  have hitem : 34 :: (name.text ++ 34 :: 58 :: 34 :: v) =
      34 :: (name.text ++ [34]) ++ 58 :: 34 :: v := by simp
  rw [hitem, importItem_pair (by simp [hcolon]) (by simp) (by simp [name.not_mem_11]) (by simp)
    (by simp [hv]) data, htrim, storeMember, hunknown]

/-- A string without a comma is one item, its closing quote. -/
theorem stringItems_of_not_mem {t : JsonString} (h : 44 ∉ t.text) : stringItems t = [[34]] := by
  rw [stringItems, dropWhile_bne_of_not_mem h, List.nil_append,
    Tokens.runs_eq_singleton _ (by simp) (by decide)]

/-- The items of a string are behind its first comma. -/
theorem stringItems_of_append {t : JsonString} {p rest : CString} (h : 44 ∉ p)
    (ht : t.text = p ++ 44 :: rest) :
    stringItems t = Tokens.runs (inCharset (ascii ",")) (rest ++ [34]) := by
  rw [stringItems, ht, dropWhile_bne_append h, List.dropWhile_cons_of_neg (by decide),
    List.cons_append, Tokens.runs_cons_of_pos _ _ (by decide)]

/-- **The items of an unknown member are those of its string.** -/
theorem foldl_importItem_member {name : JsonString} (hname : Free (ascii ",:") name.text)
    (hunknown : importGetItem (trimName name.text) = none) (t : JsonString) (data : DataRecord) :
    (Tokens.runs (inCharset (ascii ",")) (memberText name t)).foldl importItem data =
      (stringItems t).foldl importItem data := by
  have hcolon : 58 ∉ name.text := fun h => hname 58 h (by decide)
  have hcomma : inCharset (ascii ",") 44 = true := rfl
  -- the member up to a comma of its string, or all of it, is one item
  have hfree : ∀ v : CString, 44 ∉ v →
      ∀ c ∈ 34 :: (name.text ++ 34 :: 58 :: 34 :: v), inCharset (ascii ",") c = false := by
    intro v hv
    have hv' : Free (ascii ",") v := free_of_not_mem (by decide) hv
    have hn : Free (ascii ",") name.text := hname.mono (by decide)
    have h34 : (34 : UInt8) ∉ ascii "," := by decide
    have h58 : (58 : UInt8) ∉ ascii "," := by decide
    refine Free.inCharset_eq_false ?_
    simp only [free_cons, free_append, hn, hv', h34, h58, not_false_eq_true, and_self]
  by_cases hmem : 44 ∈ t.text
  · obtain ⟨p, rest, ht, hp⟩ := List.eq_append_cons_of_mem hmem
    have h11 : 11 ∉ p := fun h => t.not_mem_11 (by rw [ht]; exact List.mem_append_left _ h)
    have htext : memberText name t =
        34 :: (name.text ++ 34 :: 58 :: 34 :: p) ++ 44 :: (rest ++ [34]) := by
      simp [memberText, ht]
    rw [htext, Tokens.runs_append_cons_of_free _ (by simp) (hfree _ hp) _ hcomma, List.foldl_cons,
      importItem_unknown hcolon hunknown h11, stringItems_of_append hp ht]
  · have hlast : 44 ∉ t.text ++ [34] := by simp [hmem]
    have h11 : 11 ∉ t.text ++ [34] := by simp [t.not_mem_11]
    have hquote : importItem data [34] = data := importItem_of_not_mem (by decide) data
    rw [memberText, Tokens.runs_eq_singleton _ (by simp) (hfree _ hlast),
      stringItems_of_not_mem hmem]
    simp only [List.foldl_cons, List.foldl_nil, hquote, importItem_unknown hcolon hunknown h11]

/-- An inert string adds nothing. -/
theorem foldl_importItem_of_inert {t : JsonString} (h : Inert t) (data : DataRecord) :
    (stringItems t).foldl importItem data = data := by
  refine List.foldlRecOn (motive := fun d => d = data) _ _ rfl ?_
  intro d hd item hitem
  rw [importItem_of_storesNothing (not_mem_11_of_mem_stringItems hitem) (h.2 item hitem), hd]

/-! ### Documents with a string left open -/

/-- The text of an object whose members have the given texts. -/
def objectText (members : List CString) : CString := 123 :: (joinComma members ++ [125])

/-- A compact document with the string value of one member left open.  The other members are any
texts. -/
structure StringContext where
  objectsBefore : List (List CString)
  membersBefore : List CString
  name : JsonString
  membersAfter : List CString
  objectsAfter : List (List CString)

namespace StringContext

variable (C : StringContext)

/-- The document with the string filled in. -/
def fill (t : JsonString) : CString :=
  documentHead ++ 91 :: (joinComma (C.objectsBefore.map objectText ++
    objectText (C.membersBefore ++ memberText C.name t :: C.membersAfter) ::
      C.objectsAfter.map objectText) ++ [93, 125])

/-- The text in front of the member. -/
def left : CString :=
  documentHead ++ 91 :: ((C.objectsBefore.flatMap fun o => objectText o ++ [44]) ++
    123 :: C.membersBefore.flatMap (· ++ [44]))

/-- The text behind the member. -/
def right : CString :=
  C.membersAfter.flatMap (44 :: ·) ++
    125 :: ((C.objectsAfter.flatMap fun o => 44 :: objectText o) ++ [93, 125])

theorem fill_eq (t : JsonString) : C.fill t = C.left ++ (memberText C.name t ++ C.right) := by
  rw [fill, left, right, joinComma_append_cons, objectText, joinComma_append_cons]
  simp [List.flatMap_map, objectText]

/-- The name is free of structure and not in the table, and the member is in the array as the
importer sees it: no bracket stands in front of it, or its name cannot be taken for `data`. -/
structure Plain : Prop where
  nameFree : Free (ascii ",:[]\x7b") C.name.text
  unknown : importGetItem (trimName C.name.text) = none
  reached : (∀ m ∈ C.objectsBefore.flatten ++ C.membersBefore, Free (ascii "[]") m) ∨
    stringTrim C.name.text (some tokenTrimChars) ∉ [[], ascii "data"]

end StringContext

/-! ### Stretches that are passed over -/

/-- A stretch between quotes whose items add nothing. -/
structure Passed (z : CString) : Prop where
  head : z.head? = some 34
  last : z.getLast? = some 34
  free : Free (ascii "[]\x7b") z
  items : ∀ data, (Tokens.runs (inCharset (ascii ",")) z).foldl importItem data = data

theorem Passed.ne_nil {z : CString} (h : Passed z) : z ≠ [] := by
  rintro rfl
  simpa using h.head

/-- The member of an inert string is passed over. -/
theorem passed_memberText {C : StringContext} (hC : C.Plain) {t : JsonString} (ht : Inert t) :
    Passed (memberText C.name t) where
  head := rfl
  last := by simp [memberText, List.getLast?_cons]
  free := by
    have hname : Free (ascii "[]\x7b") C.name.text := hC.nameFree.mono (by decide)
    have h34 : (34 : UInt8) ∉ ascii "[]\x7b" := by decide
    have h58 : (58 : UInt8) ∉ ascii "[]\x7b" := by decide
    simp only [memberText, free_cons, free_append, hname, ht.1, h34, h58, free_nil,
      not_false_eq_true, and_self]
  items data := by
    rw [foldl_importItem_member (hC.nameFree.mono (by decide)) hC.unknown,
      foldl_importItem_of_inert ht]

/-- A text that ends where a member may begin. -/
def EndsOpen (l : CString) : Prop := ∃ l', l = l' ++ [123] ∨ l = l' ++ [44]

/-- A text that begins where a member may end. -/
def BeginsClosed (r : CString) : Prop :=
  (∃ r', r = 44 :: r') ∨ r = [125] ∨ ∃ r', r = 125 :: 44 :: 123 :: r'

theorem dropWhile_concat_comma (l : CString) :
    (l ++ [44]).dropWhile (inCharset recordTrimChars) = [] ∨
      ∃ l', (l ++ [44]).dropWhile (inCharset recordTrimChars) = l' ++ [44] := by
  rw [List.dropWhile_append]
  split
  · exact Or.inl rfl
  · exact Or.inr ⟨_, rfl⟩

theorem rdropWhile_comma_cons (r : CString) :
    (44 :: r).rdropWhile (inCharset recordTrimChars) = [] ∨
      ∃ r', (44 :: r).rdropWhile (inCharset recordTrimChars) = 44 :: r' := by
  by_cases h : ∀ c ∈ r, inCharset recordTrimChars c
  · have hall := Tokens.rdropWhile_append_of_all (l := [44]) (inCharset recordTrimChars) h
    exact Or.inl hall
  · have h' : ∃ c ∈ r, inCharset recordTrimChars c = false := by
      simpa only [not_forall, Bool.not_eq_true, exists_prop] using h
    have hkeep := Tokens.rdropWhile_append_of_exists (l := [44]) (inCharset recordTrimChars) h'
    exact Or.inr ⟨_, hkeep⟩

/-- **Within a record** one stretch that is passed over is as good as another. -/
theorem importRecord_passed {l r z z' : CString} (hz : Passed z) (hz' : Passed z')
    (hl : l = [] ∨ ∃ l', l = l' ++ [44])
    (hr : (∃ r', r = 44 :: r') ∨ r = [125] ∨ r = [125, 44]) (result : Option (List DataRecord)) :
    importRecord result (l ++ (z ++ r)) = importRecord result (l ++ (z' ++ r)) := by
  have hleft : l.dropWhile (inCharset recordTrimChars) = [] ∨
      ∃ l', l.dropWhile (inCharset recordTrimChars) = l' ++ [44] := by
    rcases hl with rfl | ⟨l', rfl⟩
    · exact Or.inl rfl
    · exact dropWhile_concat_comma l'
  have hright : r.rdropWhile (inCharset recordTrimChars) = [] ∨
      ∃ r', r.rdropWhile (inCharset recordTrimChars) = 44 :: r' := by
    rcases hr with ⟨r', rfl⟩ | rfl | rfl
    · exact rdropWhile_comma_cons r'
    · exact Or.inl rfl
    · exact Or.inl rfl
  rw [importRecord_surround hz.head hz.last hleft hright,
    importRecord_surround hz'.head hz'.last hleft hright, hz.items, hz'.items]

/-- **Within the token of the array** one stretch that is passed over is as good as another. -/
theorem importRecords_passed {l r z z' : CString} (hz : Passed z) (hz' : Passed z')
    (hl : EndsOpen l) (hr : BeginsClosed r) (result : Option (List DataRecord)) :
    importRecords result (l ++ (z ++ r)) = importRecords result (l ++ (z' ++ r)) := by
  have hfree : ∀ {z : CString}, Passed z → ∀ c ∈ z, inCharset (ascii "\x7b") c = false := by
    intro z hz
    have hbrace : Free (ascii "\x7b") z := hz.free.mono (by decide)
    exact hbrace.inCharset_eq_false
  rw [importRecords_eq_runs, importRecords_eq_runs,
    Tokens.runs_surround _ l r hz.ne_nil (hfree hz),
    Tokens.runs_surround _ l r hz'.ne_nil (hfree hz'), List.foldl_append, List.foldl_append,
    List.foldl_cons, List.foldl_cons]
  refine congrArg (fun record => List.foldl importRecord record _) ?_
  refine importRecord_passed hz hz' ?_ ?_ _
  · obtain ⟨l', rfl | rfl⟩ := hl
    · left
      rw [List.rtakeWhile_concat_neg]
      decide
    · right
      rw [List.rtakeWhile_concat_pos]
      · exact ⟨_, rfl⟩
      · decide
  · rcases hr with ⟨r', rfl⟩ | rfl | ⟨r', rfl⟩
    · exact Or.inl ⟨_, List.takeWhile_cons_of_pos (by decide)⟩
    · exact Or.inr (Or.inl rfl)
    · exact Or.inr (Or.inr rfl)

/-- **Among the tokens** one token is as good as another, when none of them is `data` and they have
the same records. -/
theorem importTokens_congr {w w' : CString}
    (hw : stringTrimCopy w (some tokenTrimChars) ≠ ascii "data")
    (hw' : stringTrimCopy w' (some tokenTrimChars) ≠ ascii "data")
    (hrecords : ∀ result, importRecords result w = importRecords result w') (after : List CString) :
    ∀ (before : List CString) (result : Option (List DataRecord)),
      importTokens result (before ++ w :: after) = importTokens result (before ++ w' :: after)
  | [], result => by
      cases after with
      | nil => rfl
      | cons b after => simp only [List.nil_append, importTokens, hw, hw', if_false]
  | [a], result => by
      have hrest := importTokens_congr hw hw' hrecords after [] result
      simp only [List.nil_append] at hrest
      simp only [List.cons_append, List.nil_append, importTokens, hrecords, hrest]
  | a :: a' :: before, result => by
      have hdata := importTokens_congr hw hw' hrecords after before (importRecords result a')
      have hrest := importTokens_congr hw hw' hrecords after (a' :: before) result
      simp only [List.cons_append] at hrest
      simp only [List.cons_append, importTokens, hdata, hrest]

/-! ### Tokens that are not `data` -/

/-- A list is its trimmed list between its margins. -/
theorem exists_eq_trim (s charset : CString) : ∃ a b, s = a ++ (stringTrim s (some charset) ++ b) ∧
    (∀ c ∈ a, inCharset charset c = true) ∧ ∀ c ∈ b, inCharset charset c = true := by
  refine ⟨(s.rdropWhile (inCharset charset)).takeWhile (inCharset charset),
    s.rtakeWhile (inCharset charset), ?_, fun c hc => List.mem_takeWhile_imp hc,
    fun c hc => List.mem_rtakeWhile_imp hc⟩
  rw [stringTrim_eq_trim, Tokens.trim, ← List.append_assoc, List.takeWhile_append_dropWhile,
    List.rdropWhile_append_rtakeWhile]

/-- The quote behind a text that begins with `data` stands behind `data`. -/
theorem exists_of_data_append {e q r : CString} (h : ascii "data" ++ q = e ++ 34 :: r) :
    ∃ e', e = ascii "data" ++ e' ∧ q = e' ++ 34 :: r := by
  have hquote : (34 : UInt8) ∉ ascii "data" := by decide
  rcases List.append_eq_append_iff.1 h with ⟨e', he, hq⟩ | ⟨c, hdata, hc⟩
  · exact ⟨e', he, hq⟩
  · cases c with
    | nil => exact ⟨[], by simpa using hdata.symm, by simpa using hc.symm⟩
    | cons x c =>
        have hx : x = 34 := by simpa using (List.cons.inj hc).1.symm
        exact absurd (by rw [hdata, hx]; simp) hquote

/-- **A token with a quoted name is not `data`** when the name does not trim to that, or to
nothing. -/
theorem stringTrim_ne_data {name : CString}
    (hname : stringTrim name (some tokenTrimChars) ∉ [[], ascii "data"]) (l r : CString) :
    stringTrimCopy (l ++ 34 :: (name ++ 34 :: r)) (some tokenTrimChars) ≠ ascii "data" := by
  intro hdata
  have hmargin : ∀ {s : CString}, (∀ c ∈ s, inCharset tokenTrimChars c = true) → s ≠ name := by
    rintro s hs rfl
    refine hname ?_
    rw [stringTrim_eq_trim, (Tokens.trim_eq_nil_iff _).2 hs]
    simp
  have hsub : ∀ {a b s : CString}, s = a ++ (name ++ b) →
      (∀ c ∈ s, inCharset tokenTrimChars c = true) → False := by
    intro a b s hs hall
    refine hmargin (s := name) (fun c hc => hall c ?_) rfl
    rw [hs]
    simp [hc]
  obtain ⟨a, b, hsplit, ha, hb⟩ :=
    exists_eq_trim (l ++ 34 :: (name ++ 34 :: r)) tokenTrimChars
  rw [stringTrimCopy] at hdata
  rw [hdata] at hsplit
  -- the word stands behind the opening quote of the name, or in front of it
  rcases List.append_eq_append_iff.1 hsplit with ⟨c, ha', hc⟩ | ⟨c, hl, hc⟩
  · cases c with
    | nil =>
        have h34 : (34 : UInt8) = 100 := (List.cons.inj hc).1
        exact absurd h34 (by decide)
    | cons x c =>
        have hrest : name ++ 34 :: r = c ++ (ascii "data" ++ b) := (List.cons.inj hc).2
        have hcm : ∀ y ∈ c, inCharset tokenTrimChars y = true := fun y hy =>
          ha y (by rw [ha']; simp [hy])
        rcases List.append_eq_append_iff.1 hrest with ⟨e, hce, -⟩ | ⟨e, hne, he⟩
        · exact hsub (a := []) (b := e) hce hcm
        · obtain ⟨e', rfl, hbe⟩ := exists_of_data_append he
          have htrim : stringTrim name (some tokenTrimChars) = ascii "data" := by
            have hpad := Tokens.trim_pad (inCharset tokenTrimChars) (l := ascii "data") hcm
              (b := e') fun y hy => hb y (by rw [hbe]; simp [hy])
            rw [hne, stringTrim_eq_trim, ← List.append_assoc, hpad]
            rfl
          exact hname (by rw [htrim]; simp)
  · obtain ⟨e', -, hbe⟩ := exists_of_data_append hc
    exact hsub (a := e' ++ [34]) (b := 34 :: r) (by rw [hbe]; simp) hb

/-! ### One inert string is as good as another -/

namespace StringContext

variable (C : StringContext)

theorem left_endsOpen : EndsOpen C.left := by
  rw [left]
  by_cases h : C.membersBefore = []
  · refine ⟨documentHead ++ 91 :: C.objectsBefore.flatMap fun o => objectText o ++ [44],
      Or.inl ?_⟩
    simp [h]
  · refine ⟨documentHead ++ 91 :: ((C.objectsBefore.flatMap fun o => objectText o ++ [44]) ++
      123 :: (C.membersBefore.dropLast.flatMap (· ++ [44]) ++ C.membersBefore.getLast h)),
      Or.inr ?_⟩
    conv_lhs => rw [← List.dropLast_append_getLast h]
    simp

/-- The text behind the member up to the next bracket. -/
theorem right_beginsClosed :
    BeginsClosed (C.right.takeWhile fun c => !inCharset (ascii "[]") c) := by
  rw [right]
  cases C.membersAfter with
  | cons m ms => exact Or.inl ⟨_, by
      rw [List.flatMap_cons, List.cons_append, List.cons_append,
        List.takeWhile_cons_of_pos (by decide)]⟩
  | nil =>
      cases C.objectsAfter with
      | nil => exact Or.inr (Or.inl rfl)
      | cons o os => exact Or.inr (Or.inr ⟨_, by
          rw [List.flatMap_nil, List.nil_append, List.flatMap_cons, objectText,
            List.takeWhile_cons_of_pos (by decide), List.cons_append, List.cons_append,
            List.takeWhile_cons_of_pos (by decide), List.cons_append, List.cons_append,
            List.takeWhile_cons_of_pos (by decide)]⟩)

theorem endsOpen_rtakeWhile {l : CString} (h : EndsOpen l) :
    EndsOpen (l.rtakeWhile fun c => !inCharset (ascii "[]") c) := by
  obtain ⟨l', rfl | rfl⟩ := h
  · rw [List.rtakeWhile_concat_pos _ _ _ (by decide)]
    exact ⟨_, Or.inl rfl⟩
  · rw [List.rtakeWhile_concat_pos _ _ _ (by decide)]
    exact ⟨_, Or.inr rfl⟩

/-- The tokens of a document with a stretch in the place of the member. -/
theorem stringSplit_left_right {z : CString} (hz : Passed z) :
    stringSplit (C.left ++ (z ++ C.right)) (ascii "[]") =
      some (Tokens.runs (inCharset (ascii "[]"))
          (C.left.rdropWhile fun c => !inCharset (ascii "[]") c) ++
        (C.left.rtakeWhile (fun c => !inCharset (ascii "[]") c) ++
          (z ++ C.right.takeWhile fun c => !inCharset (ascii "[]") c)) ::
        Tokens.runs (inCharset (ascii "[]"))
          (C.right.dropWhile fun c => !inCharset (ascii "[]") c)) := by
  have hfree : Free (ascii "[]") z := hz.free.mono (by decide)
  have hlast : ∀ c ∈ (C.left ++ (z ++ C.right)).getLast?, c ∉ ascii "[]" := by
    have hclose : Free (ascii "[]") [125] := by decide
    have h := free_getLast?_append (s := C.left ++ (z ++ C.membersAfter.flatMap (44 :: ·) ++
      125 :: ((C.objectsAfter.flatMap fun o => 44 :: objectText o) ++ [93]))) (by simp) hclose
    simpa [right] using h
  rw [stringSplit_eq_runs (by simp [hz.ne_nil]) hlast,
    Tokens.runs_surround _ _ _ hz.ne_nil hfree.inCharset_eq_false]

/-- Without a bracket in front of the member, `data` is the only token in front of its token. -/
theorem runs_left (hfree : ∀ m ∈ C.objectsBefore.flatten ++ C.membersBefore, Free (ascii "[]") m) :
    Tokens.runs (inCharset (ascii "[]"))
      (C.left.rdropWhile fun c => !inCharset (ascii "[]") c) = [documentHead] := by
  have hobject : ∀ o ∈ C.objectsBefore, Free (ascii "[]") (objectText o ++ [44]) := by
    intro o ho
    have hbody : Free (ascii "[]") (joinComma o) := free_joinComma (by decide) fun m hm =>
      hfree m (List.mem_append_left _ (List.mem_flatten.2 ⟨o, ho, hm⟩))
    exact free_append.2 ⟨free_cons.2 ⟨by decide, free_append.2 ⟨hbody, by decide⟩⟩, by decide⟩
  have hrest : ∀ c ∈ (C.objectsBefore.flatMap fun o => objectText o ++ [44]) ++
      123 :: C.membersBefore.flatMap (· ++ [44]), (!inCharset (ascii "[]") c) = true := by
    have hcomma : (44 : UInt8) ∉ ascii "[]" := by decide
    intro c hc
    rw [Bool.not_eq_true', inCharset_eq_false_iff]
    rcases List.mem_append.1 hc with hc | hc
    · obtain ⟨o, ho, hco⟩ := List.mem_flatMap.1 hc
      exact hobject o ho c hco
    · rcases List.mem_cons.1 hc with rfl | hc
      · decide
      · obtain ⟨m, hm, hcm⟩ := List.mem_flatMap.1 hc
        rcases List.mem_append.1 hcm with hcm | hcm
        · exact hfree m (List.mem_append_right _ hm) c hcm
        · rw [List.mem_singleton.1 hcm]
          exact hcomma
  have hdrop : C.left.rdropWhile (fun c => !inCharset (ascii "[]") c) = documentHead ++ [91] := by
    rw [left, List.append_cons, Tokens.rdropWhile_append_of_all _ hrest,
      List.rdropWhile_concat_neg _ _ _ (by decide)]
  have hhead : Free (ascii "[]") documentHead := by decide
  rw [hdrop, Tokens.runs_append_singleton _ _ (by decide),
    Tokens.runs_eq_singleton _ (by decide) hhead.inCharset_eq_false]

/-- **One inert string is as good as another**, in every context. -/
theorem importText_fill_of_inert {C : StringContext} (hC : C.Plain) {s t : JsonString}
    (hs : Inert s) (ht : Inert t) : importText (C.fill s) = importText (C.fill t) := by
  have hs := passed_memberText hC hs
  have ht := passed_memberText hC ht
  have hrecords : ∀ result, _ := fun result =>
    importRecords_passed hs ht (endsOpen_rtakeWhile C.left_endsOpen) C.right_beginsClosed result
  rw [fill_eq, fill_eq, importText, importText, C.stringSplit_left_right hs,
    C.stringSplit_left_right ht]
  simp only
  rcases hC.reached with hfree | hname
  · -- the member is in the token behind `data`
    have hdata : stringTrimCopy documentHead (some tokenTrimChars) = ascii "data" := by decide
    rw [C.runs_left hfree]
    simp only [List.cons_append, List.nil_append, importTokens, hdata, if_true, hrecords]
  · refine importTokens_congr ?_ ?_ hrecords _ _ _
    · simpa [memberText] using stringTrim_ne_data hname _ _
    · simpa [memberText] using stringTrim_ne_data hname _ _

end StringContext

end NvIpfix
