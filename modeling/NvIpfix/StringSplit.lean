/-
**Splitting in memory.**

`nvipfix_string_split` allocates each token and adds it to a list, and either can fail: then what it
has built is released and it returns `NULL`.  `NvIpfix.stringSplit` is its loop without memory; here
the loop runs with its memory, its map and the outcome of every allocation.  Whatever these are, a
list that is returned holds the tokens of the loop without memory, and nothing that is not live is
touched.

The map has no entry for the characters from 128 on: this is what all three functions with such maps
have in common.

Main definitions:

* `NvIpfix.nvipfixStringSplit` — the function, with its map and memory;
* `NvIpfix.SplitLocals.Follows` — its locals are those without memory.

Main results:

* `NvIpfix.splitLoop_simulates` — the loop in memory follows the loop without memory;
* `NvIpfix.nvipfixStringSplit_tokens` — **splitting loses, invents and reorders nothing**;
* `NvIpfix.characterMaps_inRange_iff` — **when character maps are indexed in range**.
-/

import NvIpfix.CharacterMap
import NvIpfix.StringList

set_option relaxedAutoImplicit false
set_option autoImplicit false

namespace NvIpfix

open LinkedList

section Functions

variable (mallocs : ℕ → Bool)

/-- The locals of the splitting loop. -/
structure SplitLocals where
  tokenStart : ℕ := 0
  tokenLength : ℕ := 0
  result : Option ℕ := none

/-- A token that is ready: it is copied and added to the list, or all is released. -/
def splitToken (token : CString) (result : Option ℕ) (h : StringHeap) : Option ℕ × StringHeap :=
  let buffer := h.next
  if !mallocs buffer then (none, nvipfixStringListFree result true h.allocation)
  else
    match nvipfixStringListAdd mallocs result (some buffer) (h.mallocBuffer token) with
    | (none, h) => (none, (nvipfixStringListFree result true h).freeBuffer (some buffer))
    | (some list, h) => (some list, h)

/-- The splitting loop over some indices of `s`, which ends at the first failure. -/
def splitLoop (s : CString) :
    List ℕ → SplitLocals → CharacterMap → StringHeap → Option ℕ × CharacterMap × StringHeap
  | [], st, map, h => (st.result, map, h)
  | i :: rest, st, map, h =>
      let (isDelimiter, map) := map.get (s.getD i 0)
      let tokenStart := if isDelimiter && st.tokenLength == 0 then i + 1 else st.tokenStart
      let tokenLength := if isDelimiter then st.tokenLength else st.tokenLength + 1
      let isTokenReady := (isDelimiter && st.tokenLength != 0) || i + 1 == s.length
      if isTokenReady then
        match splitToken mallocs ((s.drop tokenStart).take tokenLength) st.result h with
        | (none, h) => (none, map, h)
        | (some list, h) =>
            splitLoop s rest { tokenStart := i + 1, tokenLength := 0, result := some list } map h
      else splitLoop s rest { st with tokenStart, tokenLength } map h

/-- `nvipfix_string_split`, with its map. -/
def nvipfixStringSplit (s delimiters : CString) (h : StringHeap) :
    Option ℕ × CharacterMap × StringHeap :=
  splitLoop mallocs s (List.range s.length) {} (.ofCharset delimiters) h

end Functions

section Simulation

variable {mallocs : ℕ → Bool} {h : StringHeap} {list : Option ℕ} {items : List (ℕ × Option ℕ)}
  {tokens : List CString}

/-- **One token**: it fails and all is released, or the list holds one more. -/
theorem splitToken_spec (mallocs : ℕ → Bool) (hold : h.Holds list items tokens) (token : CString) :
    (splitToken mallocs token list h).2.fault = h.fault ∧
      ((splitToken mallocs token list h).1 = none → ∃ n, mallocs n = false) ∧
      ∀ a ∈ (splitToken mallocs token list h).1, ∃ items',
        (splitToken mallocs token list h).2.Holds (some a) items' (tokens ++ [token]) := by
  cases hmalloc : mallocs h.next with
  | false =>
      obtain ⟨hfault, -⟩ := hold.allocation.free
      simp only [splitToken, hmalloc, Bool.not_false, if_true]
      exact ⟨hfault, fun _ => ⟨_, hmalloc⟩, by simp⟩
  | true =>
      have hnew := hold.next_not_mem.2
      have hcopy : (h.mallocBuffer token).buffers h.next = some token := Function.update_self _ _ _
      obtain ⟨hfault, hbuffers, -, hfailed, hadded⟩ :=
        (hold.mallocBuffer token).add mallocs hcopy (Nat.lt_succ_self _) hnew
      rcases hresult : nvipfixStringListAdd mallocs list (some h.next) (h.mallocBuffer token) with
        ⟨_ | a, h'⟩
      · simp only [splitToken, hmalloc, hresult, Bool.not_true, Bool.false_eq_true, if_false]
        rw [hresult] at hfault hbuffers hfailed
        obtain ⟨hfalse, hold'⟩ := hfailed rfl
        obtain ⟨hfree, hkept⟩ := hold'.free
        -- the copy is not in the list, so it is still live
        have hlive : ((nvipfixStringListFree list true h').buffers h.next).isSome := by
          rw [hkept _ hnew, hbuffers, hcopy, Option.isSome_some]
        refine ⟨?_, fun _ => hfalse, by simp⟩
        simp only [StringHeap.freeBuffer, StringHeap.require, hlive, Bool.not_true, Bool.or_false]
        exact hfree.trans hfault
      · simp only [splitToken, hmalloc, hresult, Bool.not_true, Bool.false_eq_true, if_false]
        rw [hresult] at hfault hadded
        refine ⟨hfault, by simp, fun a' ha' => ?_⟩
        obtain rfl := Option.some_inj.1 ha'
        exact ⟨_, hadded a rfl⟩

/-- The locals in memory are those without memory: the list holds the tokens. -/
structure SplitLocals.Follows (locals : SplitLocals) (h : StringHeap) (items : List (ℕ × Option ℕ))
    (st : SplitState) : Prop where
  tokenStart : locals.tokenStart = st.tokenStart
  tokenLength : locals.tokenLength = st.tokenLength
  holds : h.Holds locals.result items st.result

/-- **One iteration**: the loop ends with a failure, or its locals follow those without memory. -/
theorem splitLoop_cons (mallocs : ℕ → Bool) (s delimiters done : CString) (i : ℕ) (rest : List ℕ)
    {locals : SplitLocals} {st : SplitState} (hfollows : locals.Follows h items st) :
    ∃ h', h'.fault = h.fault ∧
      (((∃ n, mallocs n = false) ∧ splitLoop mallocs s (i :: rest) locals
          ((CharacterMap.ofCharset delimiters).reads done) h =
            (none, (CharacterMap.ofCharset delimiters).reads (done ++ [s.getD i 0]), h')) ∨
        ∃ locals' items',
          locals'.Follows h' items' (splitStep (charsetMap delimiters) s st i) ∧
          splitLoop mallocs s (i :: rest) locals
            ((CharacterMap.ofCharset delimiters).reads done) h =
              splitLoop mallocs s rest locals'
                ((CharacterMap.ofCharset delimiters).reads (done ++ [s.getD i 0])) h') := by
  obtain ⟨hstart, hlength, hold⟩ := hfollows
  have hmap : charsetMap delimiters (charsetIndex (s.getD i 0)) =
      inCharset delimiters (s.getD i 0) := rfl
  rw [splitLoop, CharacterMap.get_eq]
  simp only [splitStep, CharacterMap.entries_reads, CharacterMap.entries_ofCharset,
    CharacterMap.reads_reads, hmap, hstart, hlength]
  generalize inCharset delimiters (s.getD i 0) = isDelimiter
  generalize (if isDelimiter && st.tokenLength == 0 then i + 1 else st.tokenStart) = tokenStart
  generalize (if isDelimiter then st.tokenLength else st.tokenLength + 1) = tokenLength
  generalize (isDelimiter && st.tokenLength != 0 || i + 1 == s.length) = isTokenReady
  cases isTokenReady with
  | false =>
      simp only [Bool.false_eq_true, if_false]
      exact ⟨h, rfl, Or.inr ⟨{ locals with tokenStart, tokenLength }, items, ⟨rfl, rfl, hold⟩, rfl⟩⟩
  | true =>
      simp only [if_true]
      generalize (s.drop tokenStart).take tokenLength = token
      obtain ⟨hfault, hfailed, hadded⟩ := splitToken_spec mallocs hold token
      rcases hresult : splitToken mallocs token locals.result h with ⟨_ | a, h'⟩
      · rw [hresult] at hfault hfailed
        exact ⟨h', hfault, Or.inl ⟨hfailed rfl, rfl⟩⟩
      · rw [hresult] at hfault hadded
        obtain ⟨items', hold'⟩ := hadded a rfl
        exact ⟨h', hfault, Or.inr ⟨_, items', ⟨rfl, rfl, hold'⟩, rfl⟩⟩

/-- **The loop in memory follows the loop without memory**, up to a failure. -/
theorem splitLoop_simulates (mallocs : ℕ → Bool) (s delimiters done : CString) (indices : List ℕ)
    {locals : SplitLocals} {st : SplitState} (hfollows : locals.Follows h items st) :
    ∃ result read h', splitLoop mallocs s indices locals
        ((CharacterMap.ofCharset delimiters).reads done) h =
        (result, (CharacterMap.ofCharset delimiters).reads (done ++ read), h') ∧
      h'.fault = h.fault ∧ read <+: indices.map (fun i => s.getD i 0) ∧
      ((result = none ∧ ∃ n, mallocs n = false) ∨
        read = indices.map (fun i => s.getD i 0) ∧ ∃ items', h'.Holds result items'
          (indices.foldl (splitStep (charsetMap delimiters) s) st).result) := by
  induction indices generalizing st locals items done h with
  | nil =>
      exact ⟨_, [], h, by rw [List.append_nil, splitLoop], rfl, List.prefix_rfl,
        Or.inr ⟨rfl, items, hfollows.holds⟩⟩
  | cons i rest ih =>
      rw [List.map_cons, List.foldl_cons]
      obtain ⟨h₁, hfault, ⟨hfalse, heq⟩ | ⟨locals', items', hfollows', heq⟩⟩ :=
        splitLoop_cons mallocs s delimiters done i rest hfollows
      · exact ⟨none, [s.getD i 0], h₁, heq, hfault, by simp, Or.inl ⟨rfl, hfalse⟩⟩
      · obtain ⟨result, read, h', heq', hfault', hpre, hor⟩ := ih (done ++ [s.getD i 0]) hfollows'
        refine ⟨result, s.getD i 0 :: read, h', ?_, hfault'.trans hfault, ?_, ?_⟩
        · rw [heq, heq', List.append_assoc, List.singleton_append]
        · exact (List.prefix_cons_inj _).2 hpre
        · exact hor.imp_right (And.imp_left (congrArg _))

end Simulation

/-! ### What is returned -/

section Result

theorem map_getD_range (s : CString) : (List.range s.length).map (fun i => s.getD i 0) = s := by
  refine List.ext_getElem (by simp) fun i hi hi' => ?_
  simp [hi']

/-- **What a split does**: it fails, or it returns the list of the tokens. -/
theorem nvipfixStringSplit_eq (mallocs : ℕ → Bool) (s delimiters : CString) (h : StringHeap) :
    ∃ result read h', nvipfixStringSplit mallocs s delimiters h =
        (result, (CharacterMap.ofCharset delimiters).reads read, h') ∧
      h'.fault = h.fault ∧ read <+: s ∧
      ((result = none ∧ ∃ n, mallocs n = false) ∨
        read = s ∧ ∃ items tokens, h'.Holds result items tokens ∧
          stringSplit s delimiters = if tokens.isEmpty then none else some tokens) := by
  have hstart : SplitLocals.Follows {} h [] {} := ⟨rfl, rfl, h.holds_nil⟩
  obtain ⟨result, read, h', heq, hfault, hpre, hor⟩ :=
    splitLoop_simulates mallocs s delimiters [] (List.range s.length) hstart
  rw [CharacterMap.reads_nil, List.nil_append] at heq
  rw [map_getD_range] at hpre hor
  refine ⟨result, read, h', heq, hfault, hpre, hor.imp_right ?_⟩
  rintro ⟨hread, items, hold⟩
  exact ⟨hread, items, _, hold, rfl⟩

/-- The runs are the tokens that are not empty. -/
theorem filter_stringSplit {s delimiters : CString} {tokens : List CString}
    (h : stringSplit s delimiters = some tokens) :
    tokens.filter (fun token => !token.isEmpty) = Tokens.runs (inCharset delimiters) s := by
  have hne : s ≠ [] := by
    rintro rfl
    rw [stringSplit_eq_none_iff.2 rfl] at h
    cases h
  obtain ⟨e, he, hor⟩ := exists_stringSplit_eq hne delimiters
  obtain rfl := Option.some_inj.1 (he.symm.trans h)
  have hruns : (Tokens.runs (inCharset delimiters) s).filter (fun token => !token.isEmpty) =
      Tokens.runs (inCharset delimiters) s := by
    rw [Tokens.runs, List.filter_filter]
    simp
  rw [List.filter_append, hruns]
  rcases hor with rfl | rfl <;> simp

/-- **Splitting loses, invents and reorders nothing**: a list that is returned has as many items as
it says, and their strings that are not empty are the runs of the text.  If no allocation fails, a
text that is not empty has a list. -/
theorem nvipfixStringSplit_tokens (mallocs : ℕ → Bool) (s delimiters : CString) (h : StringHeap) :
    (∀ a ∈ (nvipfixStringSplit mallocs s delimiters h).1,
        ∃ (l : StringList) (items : List (ℕ × Option ℕ)) (tokens : List CString),
        (nvipfixStringSplit mallocs s delimiters h).2.2.lists a = some l ∧
        IsList (nvipfixStringSplit mallocs s delimiters h).2.2.items l.head l.tail items ∧
        l.count = items.length ∧
        items.map (fun item =>
          item.2.bind (nvipfixStringSplit mallocs s delimiters h).2.2.buffers) = tokens.map some ∧
        tokens.filter (fun token => !token.isEmpty) = Tokens.runs (inCharset delimiters) s) ∧
      ((∀ n, mallocs n = true) →
        (nvipfixStringSplit mallocs s delimiters h).1 = none → s = []) ∧
      (nvipfixStringSplit mallocs s delimiters h).2.2.fault = h.fault := by
  obtain ⟨result, read, h', heq, hfault, -, hor⟩ := nvipfixStringSplit_eq mallocs s delimiters h
  rw [heq]
  refine ⟨fun a ha => ?_, fun hmallocs hnone => ?_, hfault⟩
  · obtain rfl := Option.mem_def.1 ha
    obtain ⟨hnone, -⟩ | ⟨-, items, tokens, hold, htokens⟩ := hor
    · cases hnone
    · obtain ⟨hne, l, hl, hcount, hisList⟩ := hold.list a rfl
      refine ⟨l, items, tokens, hl, hisList, hcount, hold.strings, filter_stringSplit ?_⟩
      have hlength := hold.length_eq
      rw [htokens, if_neg]
      intro hempty
      rw [List.isEmpty_iff.1 hempty, List.length_nil] at hlength
      exact hne (List.eq_nil_of_length_eq_zero hlength)
  · obtain ⟨-, n, hn⟩ | ⟨-, items, tokens, hold, htokens⟩ := hor
    · rw [hmallocs n] at hn
      cases hn
    · dsimp only at hnone
      have hlength := hold.length_eq
      rw [hold.empty hnone, List.length_nil] at hlength
      rw [List.eq_nil_of_length_eq_zero hlength.symm] at htokens
      exact stringSplit_eq_none_iff.1 htokens

end Result

/-! ### Accesses to the maps -/

/-- **When splitting stays in range**, whatever allocations fail: on 7-bit texts. -/
theorem nvipfixStringSplit_inRange_iff {s delimiters : CString} :
    (∀ (mallocs : ℕ → Bool) (h : StringHeap),
        (nvipfixStringSplit mallocs s delimiters h).2.1.InRange) ↔
      ∀ c ∈ delimiters ++ s, c < 128 := by
  rw [List.forall_mem_append]
  constructor
  · intro hall
    -- if no allocation fails, the loop reads the whole text
    have hrange := hall (fun _ => true) {}
    obtain ⟨result, read, h', heq, -, -, hor⟩ :=
      nvipfixStringSplit_eq (fun _ => true) s delimiters {}
    obtain ⟨-, n, hn⟩ | ⟨rfl, -⟩ := hor
    · cases hn
    · rw [heq] at hrange
      rwa [CharacterMap.inRange_reads, CharacterMap.inRange_ofCharset] at hrange
  · rintro ⟨hdelimiters, hs⟩ mallocs h
    obtain ⟨result, read, h', heq, -, hpre, -⟩ := nvipfixStringSplit_eq mallocs s delimiters h
    rw [heq, CharacterMap.inRange_reads, CharacterMap.inRange_ofCharset]
    exact ⟨hdelimiters, fun c hc => hs c (hpre.mem hc)⟩

/-- **When character maps are indexed in range**: if no byte that is put into them or looked up is
128 or more.  Splitting looks up all bytes of the text, whereas the other functions stop at the
first byte that is not in the set, and trimming does so from both ends. -/
theorem characterMaps_inRange_iff (s charset : CString) (buffer : List UInt8)
    (trimChars : Option CString) :
    ((∀ (mallocs : ℕ → Bool) (h : StringHeap),
          (nvipfixStringSplit mallocs s charset h).2.1.InRange) ↔ ∀ c ∈ charset ++ s, c < 128) ∧
      ((nvipfixStringContainsOnly s charset).2.InRange ↔ (∀ c ∈ charset, c < 128) ∧
        ∀ c ∈ s.find? fun c => !inCharset charset c, c < 128) ∧
      ((nvipfixStringTrim buffer trimChars).2.InRange ↔
        (∀ c ∈ trimChars.getD defaultTrimChars, c < 128) ∧
        (∀ c ∈ (cstringOf buffer).reverse.find?
          fun c => !inCharset (trimChars.getD defaultTrimChars) c, c < 128) ∧
        ∀ c ∈ (cstringOf buffer).find?
          fun c => !inCharset (trimChars.getD defaultTrimChars) c, c < 128) :=
  ⟨nvipfixStringSplit_inRange_iff, nvipfixStringContainsOnly_inRange_iff,
    nvipfixStringTrim_inRange_iff rfl⟩

/-- An accented letter of a text is looked up far behind the end of each map. -/
theorem characterMaps_accent :
    ¬ (nvipfixStringSplit (fun _ => true) [195, 169] (ascii " ") {}).2.1.InRange ∧
      ¬ (nvipfixStringContainsOnly [195, 169] (ascii " ")).2.InRange ∧
      ¬ (nvipfixStringTrim [195, 169, 0] (some (ascii " "))).2.InRange ∧
      (nvipfixStringContainsOnly [195, 169] (ascii " ")).2.accessed = [32, 2 ^ 64 - 61] := by
  decide

end NvIpfix
