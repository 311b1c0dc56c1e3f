/-
**The importer in memory.**

`nvipfix_import` has up to five lists of strings at a time: the tokens of the text, the records of
one token, the items of one record, the two halves of one item, and what a parser splits.  It writes
to the strings of three of them while it follows their links.  Each allocation can fail, and what is
there by then is released on the way out.  The records go to another list, which is the result.

Memory is explicit here, for the strings and for the records, and so is what each allocation comes
to.  The texts of the strings are those that the passes without memory work on.

Main definitions:

* `NvIpfix.ImportMemory` — what the allocations come to;
* `NvIpfix.trimIn`, `NvIpfix.trimCopyIn` — trimming a string, or a copy of it;
* `NvIpfix.importPairIn`, `NvIpfix.importItemIn`, `NvIpfix.importRecordIn`,
  `NvIpfix.importRecordsIn`, `NvIpfix.importTokenIn`, `NvIpfix.importTokensIn` — the five passes;
* `NvIpfix.nvipfixImportIn` — the importer;
* `NvIpfix.Imported` — the list of the records as a result.

Main results:

* `NvIpfix.importTokensIn_spec` — the loop over the tokens, with its step over two of them;
* `NvIpfix.nvipfixImportIn_spec` — **the importer restores the memory of strings, whatever fails,
  and its result is the list of the records**.
-/

import NvIpfix.DataOwnership
import NvIpfix.ParseMemory
import NvIpfix.RoundTrip
import NvIpfix.StringTrim

set_option relaxedAutoImplicit false
set_option autoImplicit false

namespace NvIpfix

open LinkedList

/-! ### Trimming -/

/-- `nvipfix_string_trim` of a string in memory, or of `NULL`. -/
def trimIn (p : Option ℕ) (trimChars : Option CString) (h : StringHeap) : StringHeap :=
  match p with
  | none => h
  | some b =>
      match h.buffers b with
      | none => h.require false
      | some s => h.write b (stringTrim s trimChars)

/-- What the allocations come to: those of strings and of their lists, those that cut down a copy,
and those of records and of their lists. -/
structure ImportMemory where
  mallocs : ℕ → Bool
  reallocs : ℕ → Reallocation
  dataMallocs : ℕ → Bool

/-- No allocation fails. -/
structure ImportMemory.Succeeds (m : ImportMemory) : Prop where
  mallocs : ∀ n, m.mallocs n = true
  reallocs : ∀ n, m.reallocs n ≠ .fails
  dataMallocs : ∀ n, m.dataMallocs n = true

section Functions

variable (m : ImportMemory)

/-- `nvipfix_string_trim_copy`: a duplicate is trimmed, and cut down to what is left. -/
def trimCopyIn (p : Option ℕ) (trimChars : Option CString) (h : StringHeap) :
    Option ℕ × StringHeap :=
  match p with
  | none => (none, h)
  | some b =>
      match h.buffers b with
      | none => (none, h.require false)
      | some s =>
          let copy := h.next
          if !m.mallocs copy then (none, h.allocation)
          else
            let h := trimIn (some copy) trimChars (h.mallocBuffer s)
            match m.reallocs h.next with
            | .fails => (none, h.allocation.freeBuffer (some copy))
            | .stays => (some copy, h.allocation)
            | .moves =>
                (some h.next,
                  (h.mallocBuffer (stringTrim s trimChars)).freeBuffer (some copy))

/-! ### The passes -/

/-- The two halves of an item: both are trimmed where they are. -/
def importPairIn (list : ℕ) (data : DataRecord) (h : StringHeap) : DataRecord × StringHeap :=
  match h.lists list with
  | none => (data, h.require false)
  | some l =>
      if l.count = 2 then
        match l.head.bind h.items, l.tail.bind h.items with
        | some head, some tail =>
            let h := trimIn head.value (some itemTrimChars) h
            let h := trimIn tail.value (some itemTrimChars) h
            match head.value.bind h.buffers, tail.value.bind h.buffers with
            | some itemName, some itemValue =>
                match importGetItemIn itemName with
                | some item => item.parseIntoIn m.mallocs itemValue data h
                | none => (data, h)
            | _, _ => (data, h)
        | _, _ => (data, h.require false)
      else (data, h)

/-- An item, whose first colon is overwritten. -/
def importItemIn (value : Option ℕ) (data : DataRecord) (h : StringHeap) :
    DataRecord × StringHeap :=
  match value with
  | none => (data, h)
  | some b =>
      match h.buffers b with
      | none => (data, h.require false)
      | some text =>
          match replaceFirst 58 11 text with
          | none => (data, h)
          | some text =>
              match nvipfixStringSplit m.mallocs text (ascii "\x0b") (h.write b text) with
              | (none, _, h) => (data, h)
              | (some itemPair, _, h) =>
                  let (data, h) := importPairIn m itemPair data h
                  (data, nvipfixStringListFree (some itemPair) true h)

/-- A record, which is trimmed where it is.  If it cannot be added, the list stays what it was. -/
def importRecordIn (value : Option ℕ) (state : Option ℕ × DataHeap) (h : StringHeap) :
    (Option ℕ × DataHeap) × StringHeap :=
  let h := trimIn value (some recordTrimChars) h
  match value.bind h.buffers with
  | none => (state, h)
  | some text =>
      match visitTokens m.mallocs text (ascii ",") (importItemIn m) {} h with
      | (none, h) => (state, h)
      | (some data, h) => (dataListCollect m.dataMallocs data state, h)

/-- The token behind `data`. -/
def importRecordsIn (value : Option ℕ) (state : Option ℕ × DataHeap) (h : StringHeap) :
    (Option ℕ × DataHeap) × StringHeap :=
  match value with
  | none => (state, h)
  | some b =>
      match h.buffers b with
      | none => (state, h.require false)
      | some text =>
          let (records, h) := visitTokens m.mallocs text (ascii "\x7b") (importRecordIn m) state h
          (records.getD state, h)

/-- One turn of the loop over the tokens: the token it ends at, which is the next one if that has
been looked at for records. -/
def importTokenIn (token : ℕ) (state : Option ℕ × DataHeap) (h : StringHeap) :
    (ℕ × Option ℕ × DataHeap) × StringHeap :=
  match h.items token with
  | none => ((token, state), h.require false)
  | some node =>
      match trimCopyIn m node.value (some tokenTrimChars) h with
      | (none, h) => ((token, state), h)
      | (some tokenCopy, h) =>
          if h.buffers tokenCopy = some (ascii "data") then
            match node.next with
            | none => ((token, state), h.freeBuffer (some tokenCopy))
            | some token =>
                match h.items token with
                | none => ((token, state), h.require false)
                | some node =>
                    let (state, h) := importRecordsIn m node.value state h
                    ((token, state), h.freeBuffer (some tokenCopy))
          else ((token, state), h.freeBuffer (some tokenCopy))

/-- The loop over the tokens, which ends if they are fewer than `fuel`. -/
def importTokensIn : ℕ → Option ℕ → Option ℕ × DataHeap → StringHeap →
    (Option ℕ × DataHeap) × StringHeap
  | _, none, state, h => (state, h)
  | 0, some _, state, h => (state, h.require false)
  | fuel + 1, some token, state, h =>
      let ((token, state), h) := importTokenIn m token state h
      match h.items token with
      | none => (state, h.require false)
      | some node => importTokensIn fuel node.next state h

/-- `nvipfix_import` from the first `nvipfix_string_split` on: the text is in a buffer, which is
released. -/
def importTextIn (buffer : ℕ) (d : DataHeap) (h : StringHeap) :
    (Option ℕ × DataHeap) × StringHeap :=
  match h.buffers buffer with
  | none => ((none, d), h.require false)
  | some text =>
      match nvipfixStringSplit m.mallocs text (ascii "[]") h with
      | (none, _, h) => ((none, d), h.freeBuffer (some buffer))
      | (some tokens, _, h) =>
          match h.lists tokens with
          | none => ((none, d), h.require false)
          | some l =>
              let (state, h) := importTokensIn m h.next l.head (none, d) h
              (state, (nvipfixStringListFree (some tokens) true h).freeBuffer (some buffer))

/-- `nvipfix_import` of an open stream, with at most `fuel` iterations of the read loop.  The loop
has its own memory, of which a buffer is left when it ends with one. -/
def nvipfixImportIn (env : ImportEnv) (fuel : ℕ) (d : DataHeap) (h : StringHeap) :
    Option ((Option ℕ × DataHeap) × StringHeap) :=
  match importReadLoop env fuel 0 0 [] with
  | none => none
  | some none => some ((none, d), h)
  | some (some buffer) =>
      if 0 ∈ buffer then some (importTextIn m h.next d (h.mallocBuffer (cstringOf buffer)))
      else none

end Functions

/-! ### Strings that are written to -/

section Trim

variable {m : ImportMemory} {h h' : StringHeap} {b : ℕ} {s : CString}

theorem trimIn_some (hb : h.buffers b = some s) (trimChars : Option CString) :
    trimIn (some b) trimChars h = h.write b (stringTrim s trimChars) := by
  simp only [trimIn, hb]

/-- **A trimmed copy is a new string, or nothing.** -/
theorem trimCopyIn_spec (hfresh : h.Fresh) (hb : h.buffers b = some s)
    (trimChars : Option CString) :
    (trimCopyIn m (some b) trimChars h).2.Fresh ∧
      ((trimCopyIn m (some b) trimChars h).1 = none → ¬m.Succeeds ∧
        h.Restored (trimCopyIn m (some b) trimChars h).2) ∧
      ∀ copy ∈ (trimCopyIn m (some b) trimChars h).1, h.buffers copy = none ∧
        (h.write copy (stringTrim s trimChars)).Restored (trimCopyIn m (some b) trimChars h).2 := by
  have hcopy : h.buffers h.next = none := hfresh.buffers h.next le_rfl
  have htrim : trimIn (some h.next) trimChars (h.mallocBuffer s) =
      h.mallocBuffer (stringTrim s trimChars) := by
    rw [trimIn_some (Function.update_self _ _ _)]
    simp only [StringHeap.write, StringHeap.mallocBuffer, Function.update_idem]
  have hfresh' := hfresh.mallocBuffer (stringTrim s trimChars)
  have hwrite : (h.write h.next (stringTrim s trimChars)).Restored
      (h.mallocBuffer (stringTrim s trimChars)) := .allocation _
  cases hmalloc : m.mallocs h.next with
  | false =>
      simp only [trimCopyIn, hb, hmalloc, Bool.not_false, if_true]
      refine ⟨hfresh.allocation, fun _ => ⟨fun hall => ?_, .allocation h⟩, by simp⟩
      rw [hall.mallocs] at hmalloc
      cases hmalloc
  | true =>
      simp only [trimCopyIn, hb, hmalloc, Bool.not_true, Bool.false_eq_true, if_false, htrim]
      cases hrealloc : m.reallocs (h.mallocBuffer (stringTrim s trimChars)).next with
      | fails =>
          have hr := StringHeap.Restored.freeBuffer hcopy (hwrite.trans (.allocation _))
          exact ⟨hr.fresh hfresh, fun _ => ⟨fun hall => hall.reallocs _ hrealloc, hr⟩, by simp⟩
      | stays =>
          refine ⟨hfresh'.allocation, by simp, fun copy hsome => ?_⟩
          obtain rfl := Option.some_inj.1 hsome
          exact ⟨hcopy, hwrite.trans (.allocation _)⟩
      | moves =>
          have hmoved : (h.write (h.next + 1) (stringTrim s trimChars)).Restored
              (((h.mallocBuffer (stringTrim s trimChars)).mallocBuffer
                (stringTrim s trimChars)).freeBuffer (some h.next)) := by
            have hne : h.next + 1 ≠ h.next := Nat.succ_ne_self _
            refine .of_eq (Nat.le_add_right h.next 2) ?_ rfl rfl ?_
            · simp only [StringHeap.freeBuffer, StringHeap.mallocBuffer, StringHeap.allocation,
                StringHeap.write]
              rw [Function.update_comm hne, Function.update_idem, ← hcopy,
                Function.update_eq_self]
            · simp [StringHeap.freeBuffer, StringHeap.require, StringHeap.mallocBuffer,
                StringHeap.allocation, StringHeap.write]
          refine ⟨(hfresh'.mallocBuffer _).freeBuffer h.next, by simp, fun copy hsome => ?_⟩
          obtain rfl := Option.some_inj.1 hsome
          exact ⟨hfresh.buffers _ (Nat.le_succ _), hmoved⟩

end Trim

/-! ### Items -/

section Items

variable {m : ImportMemory} {h₀ h : StringHeap} {items : List (ℕ × Option ℕ)}
  {tokens : List CString}

/-- A list of two strings: its head and its tail are its items. -/
theorem StringHeap.Extends.pair {a : ℕ} {head tail : CString}
    (hext : h₀.Extends h (some a) items [head, tail]) :
    ∃ (l : StringList) (p q b c : ℕ) (next prev next' prev' : Option ℕ),
      items = [(p, some b), (q, some c)] ∧ h.lists a = some l ∧ l.count = 2 ∧
      l.head.bind h.items = some { value := some b, next, prev } ∧
      l.tail.bind h.items = some { value := some c, next := next', prev := prev' } ∧
      h.buffers b = some head ∧ h.buffers c = some tail := by
  obtain ⟨-, l, hl, hcount, hisList⟩ := hext.holds.list a rfl
  have hlength := hext.holds.length_eq
  obtain ⟨⟨p, value⟩, ⟨q, value'⟩, rfl⟩ := List.length_eq_two.1 hlength
  have hfirst : h₀.Extends h (some a) ([] ++ (p, value) :: [(q, value')]) ([] ++ head :: [tail]) :=
    hext
  have hsecond : h₀.Extends h (some a) ([(p, value)] ++ (q, value') :: []) ([head] ++ tail :: []) :=
    hext
  obtain ⟨b, rfl, hb⟩ := hfirst.value_eq rfl
  obtain ⟨c, rfl, hc⟩ := hsecond.value_eq rfl
  have hsegment := hisList.segment
  generalize hhead : l.head = first at hsegment
  generalize htail : l.tail = last at hsegment
  cases hsegment with
  | cons hnode hrest =>
      cases hrest with
      | cons hnode' hnil =>
          cases hnil
          exact ⟨l, p, q, b, c, _, _, _, _, rfl, hl, hcount, by rw [hhead]; exact hnode,
            by rw [htail]; exact hnode', hb, hc⟩

/-- What two halves of an item add to the record. -/
def pairValue (data : DataRecord) (tokens : List CString) : DataRecord :=
  match tokens with
  | [head, tail] =>
      match importGetItem (stringTrim head (some itemTrimChars)) with
      | some item => item.parseInto (stringTrim tail (some itemTrimChars)) data
      | none => data
  | _ => data

/-- A name that is looked up, and a value that is parsed. -/
theorem importGetItemIn_computes (name value : CString) (data : DataRecord) :
    Computes m.mallocs
      (fun h => match importGetItemIn name with
        | some item => item.parseIntoIn m.mallocs value data h
        | none => (data, h))
      (match importGetItem name with
        | some item => item.parseInto value data
        | none => data) := by
  rw [← importGetItemIn_map]
  cases importGetItemIn name with
  | none => exact .pure data
  | some item => exact item.parseIntoIn_computes value data

/-- The halves of an item stay in their list, trimmed. -/
theorem importPairIn_extends {a : ℕ} (hext : h₀.Extends h (some a) items tokens)
    (data : DataRecord) :
    (∃ tokens', h₀.Extends (importPairIn m a data h).2 (some a) items tokens') ∧
      (m.Succeeds → (importPairIn m a data h).1 = pairValue data tokens) := by
  by_cases htwo : tokens.length = 2
  · obtain ⟨head, tail, rfl⟩ := List.length_eq_two.1 htwo
    obtain ⟨l, p, q, b, c, next, prev, next', prev', rfl, hl, hcount, hhead, htail, hb, hc⟩ :=
      hext.pair
    have hne : b ≠ c := by
      have hnodup := hext.holds.nodup
      simpa using hnodup
    -- the two strings are written to, one after the other
    let h' := (h.write b (stringTrim head (some itemTrimChars))).write c
      (stringTrim tail (some itemTrimChars))
    have hfirst : h₀.Extends (h.write b (stringTrim head (some itemTrimChars))) (some a)
        ([(p, some b)] ++ (q, some c) :: [])
        ([stringTrim head (some itemTrimChars)] ++ tail :: []) :=
      StringHeap.Extends.write
        (show h₀.Extends h (some a) ([] ++ (p, some b) :: [(q, some c)]) ([] ++ head :: [tail])
          from hext) rfl _
    have hsecond : h₀.Extends h' (some a) [(p, some b), (q, some c)]
        [stringTrim head (some itemTrimChars), stringTrim tail (some itemTrimChars)] :=
      hfirst.write rfl _
    have hc' : (h.write b (stringTrim head (some itemTrimChars))).buffers c = some tail :=
      (Function.update_of_ne hne.symm _ _).trans hc
    have hname : h'.buffers b = some (stringTrim head (some itemTrimChars)) :=
      (Function.update_of_ne hne _ _).trans (h.write_buffers b _)
    have hvalue : h'.buffers c = some (stringTrim tail (some itemTrimChars)) :=
      StringHeap.write_buffers _ c _
    have hpair : importPairIn m a data h =
        match importGetItemIn (stringTrim head (some itemTrimChars)) with
        | some item =>
            item.parseIntoIn m.mallocs (stringTrim tail (some itemTrimChars)) data h'
        | none => (data, h') := by
      simp only [importPairIn, hl, hcount, if_true, hhead, htail, trimIn_some hb, trimIn_some hc',
        Option.bind_some]
      simp only [h'] at hname hvalue
      simp only [hname, hvalue, h']
    have hcomputes := importGetItemIn_computes (m := m) (stringTrim head (some itemTrimChars))
      (stringTrim tail (some itemTrimChars)) data
    rw [hpair]
    exact ⟨⟨_, hsecond.restored (hcomputes.restored h' hsecond.fresh)⟩,
      fun hall => hcomputes.result hall.mallocs h' hsecond.fresh⟩
  · obtain ⟨-, l, hl, hcount, -⟩ := hext.holds.list a rfl
    have hlength := hext.holds.length_eq
    have hpair : importPairIn m a data h = (data, h) := by
      simp only [importPairIn, hl, if_neg (hcount.trans_ne (hlength.trans_ne htwo))]
    rw [hpair]
    refine ⟨⟨tokens, hext⟩, fun _ => ?_⟩
    rw [pairValue]
    rintro head tail rfl
    exact htwo rfl

/-- **An item restores memory**, but for its first colon. -/
theorem importItemIn_spec {b : ℕ} {token : CString} (hfresh : h.Fresh)
    (hb : h.buffers b = some token) (data : DataRecord) :
    (∃ token', (h.write b token').Restored (importItemIn m (some b) data h).2) ∧
      (m.Succeeds → (importItemIn m (some b) data h).1 = importItem data token) := by
  cases hreplace : replaceFirst 58 11 token with
  | none =>
      simp only [importItemIn, hb, hreplace, importItem]
      refine ⟨⟨token, ?_⟩, fun _ => trivial⟩
      rw [StringHeap.write_eq_self hb]
      exact .refl h
  | some text =>
      simp only [importItemIn, hb, hreplace, importItem]
      obtain ⟨result, map, h', heq, hor⟩ :=
        nvipfixStringSplit_extends m.mallocs text (ascii "\x0b") (hfresh.write hb text)
      rw [heq]
      rcases hor with ⟨rfl, hr, hnone⟩ | ⟨a, items, tokens, rfl, hext, hsplit⟩
      · refine ⟨⟨text, hr⟩, fun hall => ?_⟩
        rw [hnone hall.mallocs]
      · obtain ⟨⟨tokens', hext'⟩, hresult⟩ := importPairIn_extends (m := m) hext data
        refine ⟨⟨text, hext'.free⟩, fun hall => ?_⟩
        rw [hresult hall, hsplit]
        rcases tokens with _ | ⟨head, _ | ⟨tail, _ | ⟨token, tokens⟩⟩⟩ <;> rfl

end Items

/-! ### Records -/

/-- The list of the records as the result of an import. -/
abbrev Imported (m : ImportMemory) := Collected m.dataMallocs m.Succeeds

section Records

variable {m : ImportMemory} {d₀ : DataHeap} {h : StringHeap} {state : Option ℕ × DataHeap}
  {records : Option (List DataRecord)}

/-- **A record restores the memory of strings**, but for its margins. -/
theorem importRecordIn_spec {b : ℕ} {token : CString} (hfresh : h.Fresh)
    (hb : h.buffers b = some token) (hstate : Imported m d₀ records state) :
    (∃ token', (h.write b token').Restored (importRecordIn m (some b) state h).2) ∧
      Imported m d₀ (importRecord records token) (importRecordIn m (some b) state h).1 := by
  let text := stringTrim token (some recordTrimChars)
  have htrim : trimIn (some b) (some recordTrimChars) h = h.write b text := trimIn_some hb _
  have hbody : ∀ (h : StringHeap) (b : ℕ) (token : CString) (data : DataRecord)
      (done : List CString), h.Fresh → h.buffers b = some token →
        (m.Succeeds → data = done.foldl importItem {}) →
          (∃ token', (h.write b token').Restored (importItemIn m (some b) data h).2) ∧
            (m.Succeeds → (importItemIn m (some b) data h).1 =
              (done ++ [token]).foldl importItem {}) := by
    intro h b token data done hfresh hb hdata
    obtain ⟨hrestored, hresult⟩ := importItemIn_spec (m := m) hfresh hb data
    refine ⟨hrestored, fun hall => ?_⟩
    rw [hresult hall, hdata hall, List.foldl_concat]
  have hstart : m.Succeeds → ({} : DataRecord) = [].foldl importItem {} := fun _ => rfl
  obtain ⟨hr, hnone, hsome⟩ := visitTokens_spec m.mallocs text (ascii ",") hbody
    (hfresh.write hb text) hstart
  have hread : (h.write b text).buffers b = some text := h.write_buffers b text
  simp only [importRecordIn, htrim, Option.bind_some, hread]
  rcases hvisit : visitTokens m.mallocs text (ascii ",") (importItemIn m) {} (h.write b text) with
    ⟨_ | data, h'⟩
  · rw [hvisit] at hr hnone
    refine ⟨⟨text, hr⟩, hstate.list, fun hall => ?_⟩
    rw [importRecord, hnone hall.mallocs rfl]
    exact hstate.contents hall
  · rw [hvisit] at hr hsome
    obtain ⟨tokens, hsplit, hdata⟩ := hsome data rfl
    refine ⟨⟨text, hr⟩, ?_⟩
    rw [importRecord, hsplit]
    exact hstate.add ImportMemory.Succeeds.dataMallocs hdata

/-- **The token behind `data` restores the memory of strings.** -/
theorem importRecordsIn_spec {b : ℕ} {token : CString} (hfresh : h.Fresh)
    (hb : h.buffers b = some token) (hstate : Imported m d₀ records state) :
    h.Restored (importRecordsIn m (some b) state h).2 ∧
      Imported m d₀ (importRecords records token) (importRecordsIn m (some b) state h).1 := by
  have hbody : ∀ (h : StringHeap) (b : ℕ) (token : CString) (state : Option ℕ × DataHeap)
      (done : List CString), h.Fresh → h.buffers b = some token →
        Imported m d₀ (done.foldl importRecord records) state →
          (∃ token', (h.write b token').Restored (importRecordIn m (some b) state h).2) ∧
            Imported m d₀ ((done ++ [token]).foldl importRecord records)
              (importRecordIn m (some b) state h).1 := by
    intro h b token state done hfresh hb hstate
    rw [List.foldl_concat]
    exact importRecordIn_spec hfresh hb hstate
  have hstart : Imported m d₀ ([].foldl importRecord records) state := hstate
  obtain ⟨hr, hnone, hsome⟩ := visitTokens_spec m.mallocs token (ascii "\x7b") hbody hfresh hstart
  simp only [importRecordsIn, hb]
  rcases hvisit : visitTokens m.mallocs token (ascii "\x7b") (importRecordIn m) state h with
    ⟨_ | state', h'⟩
  · rw [hvisit] at hr hnone
    refine ⟨hr, hstate.list, fun hall => ?_⟩
    rw [importRecords, hnone hall.mallocs rfl]
    exact hstate.contents hall
  · rw [hvisit] at hr hsome
    obtain ⟨tokens, hsplit, hstate'⟩ := hsome state' rfl
    refine ⟨hr, ?_⟩
    rw [importRecords, hsplit]
    exact hstate'

end Records

/-! ### The loop over the tokens -/

section Tokens

variable {m : ImportMemory} {d₀ : DataHeap} {h₀ h : StringHeap} {state : Option ℕ × DataHeap}
  {records : Option (List DataRecord)} {items before after : List (ℕ × Option ℕ)}
  {done rest : List CString}

/-- A token that is not `data` is passed over. -/
theorem importTokens_cons_of_ne {token : CString}
    (hne : stringTrimCopy token (some tokenTrimChars) ≠ ascii "data") (rest : List CString) :
    importTokens records (token :: rest) = importTokens records rest := by
  cases rest with
  | nil => rfl
  | cons next rest => rw [importTokens, if_neg hne]

/-- The items of a list of strings, from one that is visited on. -/
structure TokensFrom (h : StringHeap) (first : Option ℕ) (items : List (ℕ × Option ℕ))
    (tokens : List CString) : Prop where
  segment : ∃ prev last, Segment h.items prev first items last none
  strings : items.map (fun item => item.2.bind h.buffers) = tokens.map some

theorem TokensFrom.restored {h' : StringHeap} {first : Option ℕ}
    (hfrom : TokensFrom h first items rest) (hr : h.Restored h') :
    TokensFrom h' first items rest where
  segment := by rw [hr.items]; exact hfrom.segment
  strings := by rw [hr.buffers]; exact hfrom.strings

/-- The item that is visited, and those behind it. -/
theorem TokensFrom.cons {p : ℕ} (hfrom : TokensFrom h (some p) items rest) :
    ∃ b next prev token items' rest', h.items p = some { value := some b, next, prev } ∧
      h.buffers b = some token ∧ rest = token :: rest' ∧ TokensFrom h next items' rest' ∧
      items.length = items'.length + 1 := by
  obtain ⟨⟨prev, last, hsegment⟩, hstrings⟩ := hfrom
  cases hsegment with
  | @cons _ next _ _ _ value items' hnode hrest =>
      cases rest with
      | nil => cases hstrings
      | cons token rest' =>
          have hvalue : value.bind h.buffers = some token := List.head_eq_of_cons_eq hstrings
          obtain ⟨b, rfl, hb⟩ := Option.bind_eq_some_iff.1 hvalue
          exact ⟨b, next, prev, token, items', rest', hnode, hb, rfl,
            ⟨⟨_, last, hrest⟩, List.tail_eq_of_cons_eq hstrings⟩, rfl⟩

theorem TokensFrom.nil (hfrom : TokensFrom h none items rest) : items = [] ∧ rest = [] := by
  obtain ⟨⟨prev, last, hsegment⟩, hstrings⟩ := hfrom
  cases hsegment with
  | nil => exact ⟨rfl, (List.map_eq_nil_iff.1 hstrings.symm)⟩

/-- **One turn of the loop**: strings are as they were, and the loop goes on behind the token it has
looked at, or behind the next one. -/
theorem importTokenIn_spec {p : ℕ} (hfresh : h.Fresh) (hfrom : TokensFrom h (some p) items rest)
    (hstate : Imported m d₀ records state) :
    ∃ q state' h' node items' rest' records',
      importTokenIn m p state h = ((q, state'), h') ∧ h.Restored h' ∧ h'.items q = some node ∧
      TokensFrom h' node.next items' rest' ∧ items'.length < items.length ∧
      Imported m d₀ records' state' ∧
      (m.Succeeds → importTokens records rest = importTokens records' rest') := by
  obtain ⟨b, next, prev, token, items', rest', hnode, hb, rfl, hfrom', hlength⟩ := hfrom.cons
  obtain ⟨hfresh', hnone, hsome⟩ := trimCopyIn_spec (m := m) hfresh hb (some tokenTrimChars)
  have hlt : items'.length < items.length := by omega
  simp only [importTokenIn, hnode]
  rcases htrim : trimCopyIn m (some b) (some tokenTrimChars) h with ⟨_ | copy, h₁⟩
  · rw [htrim] at hnone
    obtain ⟨hfails, hr⟩ := hnone rfl
    exact ⟨p, state, h₁, _, items', rest', records, rfl, hr, by rw [hr.items]; exact hnode,
      hfrom'.restored hr, hlt, hstate, fun hall => absurd hall hfails⟩
  · rw [htrim] at hsome hfresh'
    obtain ⟨hcopy, hr⟩ := hsome copy rfl
    have hread : h₁.buffers copy = some (stringTrim token (some tokenTrimChars)) := by
      rw [hr.buffers]
      exact h.write_buffers copy _
    simp only [hread, Option.some_inj]
    have hfree := StringHeap.Restored.freeBuffer hcopy hr
    by_cases hdata : stringTrim token (some tokenTrimChars) = ascii "data"
    · rw [if_pos hdata]
      cases next with
      | none =>
          obtain ⟨rfl, rfl⟩ := hfrom'.nil
          exact ⟨p, state, _, _, [], [], records, rfl, hfree, by rw [hfree.items]; exact hnode,
            hfrom'.restored hfree, hlt, hstate, fun _ => rfl⟩
      | some q =>
          obtain ⟨c, next', prev', token', items'', rest'', hnode', hc, rfl, hfrom'', hlength'⟩ :=
            hfrom'.cons
          -- the copy is not the string of the next token
          have hc' : h₁.buffers c = some token' := by
            rw [hr.buffers]
            refine (Function.update_of_ne ?_ _ _).trans hc
            rintro rfl
            rw [hcopy] at hc
            cases hc
          have hnode₁ : h₁.items q = some { value := some c, next := next', prev := prev' } := by
            rw [hr.items]
            exact hnode'
          obtain ⟨hr', hstate'⟩ := importRecordsIn_spec hfresh' hc' hstate
          have hfree' := StringHeap.Restored.freeBuffer hcopy (hr.trans hr')
          simp only [hnode₁]
          refine ⟨q, _, _, _, items'', rest'', _, rfl, hfree', by rw [hfree'.items]; exact hnode',
            hfrom''.restored hfree', by omega, hstate', fun _ => ?_⟩
          rw [importTokens]
          exact if_pos hdata
    · rw [if_neg hdata]
      exact ⟨p, state, _, _, items', rest', records, rfl, hfree, by rw [hfree.items]; exact hnode,
        hfrom'.restored hfree, hlt, hstate, fun _ => importTokens_cons_of_ne hdata rest'⟩

/-- **The loop over the tokens** ends, and leaves all strings as they were. -/
theorem importTokensIn_spec {first : Option ℕ} {fuel : ℕ} (hfresh : h.Fresh)
    (hfrom : TokensFrom h first items rest) (hfuel : items.length ≤ fuel)
    (hstate : Imported m d₀ records state) :
    h.Restored (importTokensIn m fuel first state h).2 ∧
      Imported m d₀ (importTokens records rest) (importTokensIn m fuel first state h).1 := by
  induction fuel generalizing h first items rest records state with
  | zero =>
      cases first with
      | none =>
          obtain ⟨-, rfl⟩ := hfrom.nil
          exact ⟨.refl h, hstate⟩
      | some p =>
          obtain ⟨_, _, _, _, _, _, _, _, _, _, hlength⟩ := hfrom.cons
          omega
  | succ fuel ih =>
      cases first with
      | none =>
          obtain ⟨-, rfl⟩ := hfrom.nil
          exact ⟨.refl h, hstate⟩
      | some p =>
          obtain ⟨q, state', h', node, items', rest', records', htoken, hr, hnode, hfrom', hlt,
            hstate', hrecords⟩ := importTokenIn_spec hfresh hfrom hstate
          obtain ⟨hr', hstate''⟩ := ih (hr.fresh hfresh) hfrom' (by omega) hstate'
          simp only [importTokensIn, htoken, hnode]
          refine ⟨hr.trans hr', hstate''.list, fun hall => ?_⟩
          rw [hrecords hall]
          exact hstate''.contents hall

end Tokens

/-! ### The importer -/

section Importer

variable {m : ImportMemory} {d : DataHeap} {h : StringHeap} {b : ℕ} {text : CString}

/-- **The text in a buffer is imported, and the buffer is released.** -/
theorem importTextIn_spec (m : ImportMemory) (text : CString) (hfresh : h.Fresh)
    (hd : d.Fresh) :
    h.Restored (importTextIn m h.next d (h.mallocBuffer text)).2 ∧
      Imported m d (importText text) (importTextIn m h.next d (h.mallocBuffer text)).1 := by
  have hb : h.buffers h.next = none := hfresh.buffers h.next le_rfl
  have hread : (h.mallocBuffer text).buffers h.next = some text := Function.update_self _ _ _
  have hwrite : (h.write h.next text).Restored (h.mallocBuffer text) := .allocation _
  have hfresh' := hfresh.mallocBuffer text
  have hnew : Imported m d none (none, d) := .start hd
  obtain ⟨result, map, h', heq, hor⟩ :=
    nvipfixStringSplit_extends m.mallocs text (ascii "[]") hfresh'
  simp only [importTextIn, hread, heq]
  rcases hor with ⟨rfl, hr, hnone⟩ | ⟨a, items, tokens, rfl, hext, hsplit⟩
  · refine ⟨.freeBuffer hb (hwrite.trans hr), hnew.list, fun hall => ?_⟩
    rw [importText, hnone hall.mallocs]
    exact hnew.contents hall
  · obtain ⟨-, l, hl, -, hisList⟩ := hext.holds.list a rfl
    have hfrom : TokensFrom h' l.head items tokens :=
      ⟨⟨none, l.tail, hisList.segment⟩, hext.holds.strings⟩
    obtain ⟨hr, hstate⟩ :=
      importTokensIn_spec hext.fresh hfrom hext.holds.links.length_le hnew
    simp only [hl]
    refine ⟨.freeBuffer hb (hwrite.trans (hext.restored hr).free), ?_⟩
    rw [importText, hsplit]
    exact hstate

/-- The importer in memory ends with what the importer without memory ends with. -/
theorem nvipfixImportIn_imported (m : ImportMemory) (env : ImportEnv) (fuel : ℕ)
    (hfresh : h.Fresh) (hd : d.Fresh) :
    ∀ result ∈ nvipfixImportIn m env fuel d h, h.Restored result.2 ∧
      ∃ records ∈ nvipfixImport env fuel, Imported m d records result.1 := by
  simp only [nvipfixImportIn, nvipfixImport]
  have hnew : Imported m d none (none, d) := .start hd
  rcases importReadLoop env fuel 0 0 [] with _ | _ | buffer
  · simp
  · rintro _ ⟨⟩
    exact ⟨.refl h, none, rfl, hnew⟩
  · by_cases hzero : 0 ∈ buffer
    · simp only [hzero, if_true]
      rintro _ ⟨⟩
      obtain ⟨hr, hstate⟩ := importTextIn_spec m (cstringOf buffer) hfresh hd
      exact ⟨hr, _, rfl, hstate⟩
    · simp [hzero]

/-- The importer in memory ends when the importer without memory does. -/
theorem isSome_nvipfixImportIn (m : ImportMemory) (env : ImportEnv) (fuel : ℕ) :
    (nvipfixImportIn m env fuel d h).isSome ↔ (nvipfixImport env fuel).isSome := by
  simp only [nvipfixImportIn, nvipfixImport]
  rcases importReadLoop env fuel 0 0 [] with _ | _ | buffer
  · simp
  · simp
  · by_cases hzero : 0 ∈ buffer <;> simp [hzero]

/-- **The importer restores the memory of strings**, whatever fails: no string, item or list stays
behind, and none is used or released that is not live.  It ends when the importer without memory
does, with a list that is new, and with the list of the records of the text, if nothing fails. -/
theorem nvipfixImportIn_spec (m : ImportMemory) (env : ImportEnv) (fuel : ℕ) (hfresh : h.Fresh)
    (hd : d.Fresh) :
    ((nvipfixImportIn m env fuel d h).isSome ↔ (nvipfixImport env fuel).isSome) ∧
      ∀ result ∈ nvipfixImportIn m env fuel d h, h.Restored result.2 ∧
        ∃ records ∈ nvipfixImport env fuel, Imported m d records result.1 :=
  ⟨isSome_nvipfixImportIn m env fuel, nvipfixImportIn_imported m env fuel hfresh hd⟩

/-- One record, in memory where every copy moves and there is none for the list of the records. -/
def shortMemory : ImportMemory := ⟨fun _ => true, fun _ => .moves, fun n => n != 1⟩

/-- A stream of one record. -/
def oneRecordEnv : ImportEnv :=
  zeroedEnv (ascii "\x7b\"data\":[\x7b\"vlan\":7\x7d]\x7d") (by decide +kernel)

theorem nvipfixImportIn_oneRecord :
    ((nvipfixImportIn shortMemory oneRecordEnv 1 {} {}).isSome ↔
        (nvipfixImport oneRecordEnv 1).isSome) ∧
      ∀ result ∈ nvipfixImportIn shortMemory oneRecordEnv 1 {} {},
        ({} : StringHeap).Restored result.2 ∧
          ∃ records ∈ nvipfixImport oneRecordEnv 1, Imported shortMemory {} records result.1 :=
  nvipfixImportIn_spec shortMemory oneRecordEnv 1 StringHeap.fresh_empty DataHeap.fresh_empty

/-- Without memory for the list, the copy of the record stays behind. -/
example : ((importTextIn shortMemory 0 {}
    (({} : StringHeap).mallocBuffer (ascii "data[\x7bvlan:7\x7d]"))).1.2.records 0).isSome := by
  decide +kernel

end Importer

end NvIpfix
