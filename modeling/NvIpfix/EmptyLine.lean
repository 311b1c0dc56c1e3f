/-
**Empty lines and their tokens.**

Before a line of the configuration file is split, `nvipfix_config_is_empty_line` looks for a
character that is not blank, and ends the line at the first `#`.  It has its own idea of a blank,
and so does the call of `nvipfix_string_split`.  If they differed on a line, the splitter could
return `NULL` for a line that is not empty, and the rest of the file would be abandoned.  They
agree: a line is not empty exactly when it has a token that is not empty, and then its first token
is not.

Main definitions:

* `NvIpfix.nvipfixConfigIsEmptyLine` — the test, in the buffer of the line;
* `NvIpfix.StringHeap.tokens` — the tokens that are found by following the links of a list;
* `NvIpfix.configLinesIn` — the loop over the lines, with memory, and how it ends.

Main results:

* `NvIpfix.nvipfixConfigIsEmptyLine_cut` — the line is cut at its first `#`;
* `NvIpfix.nvipfixStringSplit_of_word` — a line that is not empty has a token to begin with;
* `NvIpfix.configLinesIn_eq` — **no line stops the loop for want of tokens**;
* `NvIpfix.emptyLine_agrees` — **the test and the splitter agree**.
-/

import NvIpfix.ConfigText
import NvIpfix.StringSplit

set_option relaxedAutoImplicit false
set_option autoImplicit false

namespace NvIpfix

open LinkedList

/-! ### The test in its buffer -/

/-- The loop of `nvipfix_config_is_empty_line` over the characters of a buffer. -/
def emptyLineLoop (result : Bool) : List UInt8 → Bool × List UInt8
  | [] => (result, [])
  | c :: buffer =>
      if c = 0 then (result, c :: buffer)
      else if c ∈ ascii " \t\n\r" then
        let (result, buffer) := emptyLineLoop result buffer
        (result, c :: buffer)
      else if c = 35 then (result, 0 :: buffer)
      else
        let (result, buffer) := emptyLineLoop false buffer
        (result, c :: buffer)

/-- `nvipfix_config_is_empty_line`, on the buffer of a line. -/
def nvipfixConfigIsEmptyLine (buffer : List UInt8) : Bool × List UInt8 := emptyLineLoop true buffer

section EmptyLine

variable {line text comment rest : List UInt8}

/-- The loop over a text without a comment. -/
theorem emptyLineLoop_append (hzero : 0 ∉ text) (hsharp : 35 ∉ text) (result : Bool)
    (rest : List UInt8) : emptyLineLoop result (text ++ rest) =
      ((emptyLineLoop (result && text.all (inCharset (ascii " \t\n\r"))) rest).1,
        text ++ (emptyLineLoop (result && text.all (inCharset (ascii " \t\n\r"))) rest).2) := by
  induction text generalizing result with
  | nil => simp
  | cons c text ih =>
      simp only [List.mem_cons, not_or] at hzero hsharp
      have hc : c ≠ 0 := fun h => hzero.1 h.symm
      have hc' : c ≠ 35 := fun h => hsharp.1 h.symm
      rw [List.cons_append, emptyLineLoop, if_neg hc]
      by_cases hblank : c ∈ ascii " \t\n\r"
      · rw [if_pos hblank, ih hzero.2 hsharp.2, List.all_cons, inCharset_iff.2 hblank,
          Bool.true_and]
        rfl
      · rw [if_neg hblank, if_neg hc', ih hzero.2 hsharp.2, List.all_cons,
          inCharset_eq_false_iff.2 hblank, Bool.false_and, Bool.and_false]
        rfl

/-- A line without a comment stays as it is. -/
theorem nvipfixConfigIsEmptyLine_text (hzero : 0 ∉ line) (hsharp : 35 ∉ line)
    (rest : List UInt8) : nvipfixConfigIsEmptyLine (line ++ 0 :: rest) =
      (line.all (inCharset (ascii " \t\n\r")), line ++ 0 :: rest) := by
  rw [nvipfixConfigIsEmptyLine, emptyLineLoop_append hzero hsharp, Bool.true_and]
  rfl

/-- A terminator is written over the `#` of a comment. -/
theorem nvipfixConfigIsEmptyLine_comment (hzero : 0 ∉ text) (hsharp : 35 ∉ text)
    (rest : List UInt8) : nvipfixConfigIsEmptyLine (text ++ 35 :: rest) =
      (text.all (inCharset (ascii " \t\n\r")), text ++ 0 :: rest) := by
  rw [nvipfixConfigIsEmptyLine, emptyLineLoop_append hzero hsharp, Bool.true_and]
  rfl

/-- **The test cuts the line at its first `#`**, and its result is that on the string. -/
theorem nvipfixConfigIsEmptyLine_cut (hline : 0 ∉ line) (rest : List UInt8) :
    (nvipfixConfigIsEmptyLine (line ++ 0 :: rest)).1 = (configWords line).isEmpty ∧
      cstringOf (nvipfixConfigIsEmptyLine (line ++ 0 :: rest)).2 = configCut line := by
  have hempty := congrArg Prod.fst (configIsEmptyLine_eq_all true line)
  rw [configIsEmptyLine_eq, Bool.true_and] at hempty
  dsimp only at hempty
  by_cases hsharp : 35 ∈ line
  · obtain ⟨text, comment, rfl, htext⟩ := List.eq_append_cons_of_mem hsharp
    have hzero : 0 ∉ text := fun hmem => hline (List.mem_append_left _ hmem)
    have hcut : configCut (text ++ 35 :: comment) = text := by
      rw [configCut, takeWhile_bne_append htext, List.takeWhile_cons_of_neg (by simp),
        List.append_nil]
    rw [hempty, hcut, List.append_assoc, List.cons_append,
      nvipfixConfigIsEmptyLine_comment hzero htext]
    exact ⟨rfl, cstringOf_append hzero _⟩
  · have hcut : configCut line = line := takeWhile_bne_of_not_mem hsharp
    rw [hempty, hcut, nvipfixConfigIsEmptyLine_text hline hsharp]
    exact ⟨rfl, cstringOf_append hline _⟩

end EmptyLine

/-! ### The tokens of a line that is not empty -/

/-- The strings of a list, as the links from its head pass them. -/
def StringHeap.tokens (h : StringHeap) (list : ℕ) : Option (List CString) := do
  let l ← h.lists list
  let items ← walk h.items Node.next h.next l.head
  items.mapM fun item => item.2.bind h.buffers

section Tokens

variable {h : StringHeap} {items : List (ℕ × Option ℕ)} {tokens : List CString}

/-- Reading values of which each is there. -/
theorem mapM_eq_some {α β : Type} {f : α → Option β} {l : List α} {m : List β}
    (h : l.map f = m.map some) : l.mapM f = some m := by
  induction l generalizing m with
  | nil =>
      obtain rfl := List.map_eq_nil_iff.1 h.symm
      rfl
  | cons x l ih =>
      cases m with
      | nil => cases h
      | cons y m =>
          rw [List.map_cons, List.map_cons, List.cons.injEq] at h
          simp [h.1, ih h.2]

/-- A list that holds strings has them as its tokens. -/
theorem StringHeap.Holds.tokens_eq {a : ℕ} (hold : h.Holds (some a) items tokens) :
    h.tokens a = some tokens := by
  obtain ⟨-, l, hl, -, hisList⟩ := hold.list a rfl
  simp only [StringHeap.tokens, Option.bind_eq_bind, Option.bind_some, hl,
    hisList.walksOver.walk_next _ hold.links.length_le, mapM_eq_some hold.strings]

end Tokens

section Word

variable {s delimiters : CString}

/-- A text has a run exactly when it has a token that is not empty. -/
theorem runs_ne_nil_iff : Tokens.runs (inCharset delimiters) s ≠ [] ↔
    ∃ tokens, stringSplit s delimiters = some tokens ∧ ∃ t ∈ tokens, t ≠ [] := by
  constructor
  · intro hruns
    have hsplit : stringSplit s delimiters = some _ :=
      stringSplit_eq_some (Tokens.ne_nil_of_runs_ne_nil _ hruns)
    rw [← filter_stringSplit hsplit] at hruns
    obtain ⟨t, ht⟩ := List.exists_mem_of_ne_nil _ hruns
    obtain ⟨hmem, hne⟩ := List.mem_filter.1 ht
    exact ⟨_, hsplit, t, hmem, by simpa using hne⟩
  · rintro ⟨tokens, hsplit, t, hmem, hne⟩
    rw [← filter_stringSplit hsplit]
    exact List.ne_nil_of_mem (List.mem_filter.2 ⟨hmem, by simpa using hne⟩)

/-- The first token of a text with a run is not empty. -/
theorem exists_stringSplit_eq_cons (hruns : Tokens.runs (inCharset delimiters) s ≠ []) :
    ∃ t ts, stringSplit s delimiters = some (t :: ts) ∧ t ≠ [] := by
  obtain ⟨e, he, -⟩ := exists_stringSplit_eq (Tokens.ne_nil_of_runs_ne_nil _ hruns) delimiters
  obtain ⟨t, ts, hcons⟩ := List.exists_cons_of_ne_nil hruns
  have hmem : t ∈ Tokens.runs (inCharset delimiters) s := hcons ▸ List.mem_cons_self
  exact ⟨t, ts ++ e, by rw [he, hcons, List.cons_append], Tokens.ne_nil_of_mem_runs _ hmem⟩

/-- **A text with a run is split into a list in memory**, whose first token is not empty, if no
allocation fails. -/
theorem nvipfixStringSplit_of_word {mallocs : ℕ → Bool} (hmallocs : ∀ n, mallocs n = true)
    (hruns : Tokens.runs (inCharset delimiters) s ≠ []) (h : StringHeap) :
    ∃ a t ts map h', nvipfixStringSplit mallocs s delimiters h = (some a, map, h') ∧
      h'.fault = h.fault ∧ h'.tokens a = some (t :: ts) ∧ t ≠ [] ∧
      stringSplit s delimiters = some (t :: ts) := by
  obtain ⟨t, ts, hsplit, ht⟩ := exists_stringSplit_eq_cons hruns
  obtain ⟨result, read, h', heq, hfault, -, ⟨-, n, hn⟩ | ⟨-, items, tokens, hold, htokens⟩⟩ :=
    nvipfixStringSplit_eq mallocs s delimiters h
  · rw [hmallocs n] at hn
    cases hn
  · rw [hsplit] at htokens
    obtain rfl : tokens = t :: ts := by
      split at htokens
      · cases htokens
      · exact (Option.some_inj.1 htokens).symm
    cases result with
    | none =>
        have hlength := hold.length_eq
        rw [hold.empty rfl] at hlength
        cases hlength
    | some a => exact ⟨a, t, ts, _, h', heq, hfault, hold.tokens_eq, ht, hsplit⟩

end Word

/-! ### The loop over the lines -/

/-- How the loop over the lines ends. -/
inductive LinesEnd
  | endOfFile
  | lineTooLong
  | unableToTokenize
  deriving DecidableEq, Repr

/-- The loop over the lines, with the memory that there is when a line is split: it can be any, and
is known by the lines that are left. -/
def configLinesIn (mallocs : ℕ → Bool) (memory : List (List UInt8) → StringHeap)
    (config : ConfigState) : List (List UInt8) → LinesEnd × ConfigState
  | [] => (.endOfFile, config)
  | buffer :: buffers =>
      if 10 ∉ cstringOf buffer then (.lineTooLong, config)
      else
        let (isEmpty, line) := nvipfixConfigIsEmptyLine (buffer ++ [0])
        if isEmpty then configLinesIn mallocs memory config buffers
        else
          match nvipfixStringSplit mallocs (cstringOf line) (ascii " \t\n\r") (memory buffers) with
          | (none, _) => (.unableToTokenize, config)
          | (some tokens, _, h) => configLinesIn mallocs memory
              (configTokens config ((h.tokens tokens).getD [])) buffers

section Lines

variable {mallocs : ℕ → Bool}

theorem cstringOf_append_nul (buffer : List UInt8) :
    cstringOf (buffer ++ [0]) = cstringOf buffer := by
  induction buffer with
  | nil => rfl
  | cons c buffer ih =>
      simp only [cstringOf, List.cons_append, List.takeWhile_cons] at ih ⊢
      rw [ih]

/-- The test on what a call of `fgets` has read. -/
theorem nvipfixConfigIsEmptyLine_read (buffer : List UInt8) :
    (nvipfixConfigIsEmptyLine (buffer ++ [0])).1 = (configWords (cstringOf buffer)).isEmpty ∧
      cstringOf (nvipfixConfigIsEmptyLine (buffer ++ [0])).2 = configCut (cstringOf buffer) := by
  obtain ⟨rest, hbuffer⟩ : ∃ rest, buffer ++ [0] = cstringOf (buffer ++ [0]) ++ 0 :: rest :=
    exists_eq_cstringOf_append_cons (by simp)
  rw [hbuffer, cstringOf_append_nul]
  exact nvipfixConfigIsEmptyLine_cut (zero_not_mem_cstringOf buffer) rest

/-- **No line stops the loop for want of tokens**, if no allocation fails: it is the loop over the
lines without memory. -/
theorem configLinesIn_eq (hmallocs : ∀ n, mallocs n = true)
    (memory : List (List UInt8) → StringHeap) (config : ConfigState)
    (buffers : List (List UInt8)) :
    (configLinesIn mallocs memory config buffers).1 ≠ .unableToTokenize ∧
      (configLinesIn mallocs memory config buffers).2 = configLines config buffers := by
  induction buffers generalizing config with
  | nil => exact ⟨by simp [configLinesIn], rfl⟩
  | cons buffer buffers ih =>
      obtain ⟨hresult, hcut⟩ := nvipfixConfigIsEmptyLine_read buffer
      simp only [configLinesIn, configLines, configIsEmptyLine_eq]
      by_cases hlf : 10 ∉ cstringOf buffer
      · rw [if_pos hlf, if_pos hlf]
        exact ⟨by simp, rfl⟩
      · rw [if_neg hlf, if_neg hlf, hresult, hcut]
        cases hempty : (configWords (cstringOf buffer)).isEmpty with
        | true => exact ih config
        | false =>
            obtain ⟨a, t, ts, map, h', heq, -, htokens, -, hsplit⟩ := nvipfixStringSplit_of_word
              hmallocs (List.isEmpty_eq_false_iff.1 hempty) (memory buffers)
            simp only [heq, htokens, hsplit, Option.getD_some, Bool.false_eq_true, if_false]
            exact ih _

end Lines

/-! ### Agreement -/

/-- What the test and the splitter make of a line that has `rest` behind its terminator: the result
of the test, and the buffer that it leaves. -/
structure LineAgrees (mallocs : ℕ → Bool) (line rest : List UInt8) (result : Bool × List UInt8) :
    Prop where
  text : 35 ∉ line → result.2 = line ++ 0 :: rest
  comment : ∀ text comment, line = text ++ 35 :: comment → 35 ∉ text →
    result.2 = text ++ 0 :: (comment ++ 0 :: rest)
  token : result.1 = false ↔ ∃ tokens,
    stringSplit (cstringOf result.2) (ascii " \t\n\r") = some tokens ∧ ∃ t ∈ tokens, t ≠ []
  split : result.1 = false → ∀ h, ∃ a t ts map h',
    nvipfixStringSplit mallocs (cstringOf result.2) (ascii " \t\n\r") h = (some a, map, h') ∧
    map.InRange ∧ h'.fault = h.fault ∧ h'.tokens a = some (t :: ts) ∧ t ≠ []

/-- **The test and the splitter agree** on every 7-bit line: the test cuts it at its first `#`, and
says that it is not empty exactly when there is a token that is not empty in the rest.  The splitter
then returns a list whose first token is not empty, if no allocation fails, so that the loop over
the lines never ends for want of tokens. -/
theorem emptyLine_agrees {line rest : List UInt8} {mallocs : ℕ → Bool} (hline : 0 ∉ line)
    (hascii : ∀ c ∈ line, c < 128) (hmallocs : ∀ n, mallocs n = true) :
    LineAgrees mallocs line rest (nvipfixConfigIsEmptyLine (line ++ 0 :: rest)) ∧
      ∀ memory config buffers,
        (configLinesIn mallocs memory config buffers).1 ≠ .unableToTokenize := by
  obtain ⟨hresult, hcut⟩ := nvipfixConfigIsEmptyLine_cut hline rest
  have hwords : (nvipfixConfigIsEmptyLine (line ++ 0 :: rest)).1 = false ↔
      Tokens.runs (inCharset (ascii " \t\n\r"))
        (cstringOf (nvipfixConfigIsEmptyLine (line ++ 0 :: rest)).2) ≠ [] := by
    rw [hresult, hcut, List.isEmpty_eq_false_iff, configWords]
  refine ⟨⟨fun hsharp => ?_, fun text comment heq hsharp => ?_, ?_, fun hempty h => ?_⟩,
    fun memory config buffers => (configLinesIn_eq hmallocs _ _ _).1⟩
  · rw [nvipfixConfigIsEmptyLine_text hline hsharp]
  · subst heq
    have hzero : 0 ∉ text := fun hmem => hline (List.mem_append_left _ hmem)
    rw [List.append_assoc, List.cons_append, nvipfixConfigIsEmptyLine_comment hzero hsharp]
  · rw [hwords, runs_ne_nil_iff]
  · obtain ⟨a, t, ts, map, h', heq, hfault, htokens, ht, -⟩ :=
      nvipfixStringSplit_of_word hmallocs (hwords.1 hempty) h
    have hdelimiters : ∀ c ∈ ascii " \t\n\r", c < 128 := by decide
    have hbuffer : ∀ c ∈ cstringOf (nvipfixConfigIsEmptyLine (line ++ 0 :: rest)).2, c < 128 := by
      rw [hcut]
      exact fun c hc => hascii c ((List.takeWhile_prefix _).subset hc)
    have hrange := nvipfixStringSplit_inRange_iff.2
      (List.forall_mem_append.2 ⟨hdelimiters, hbuffer⟩) mallocs h
    rw [heq] at hrange
    exact ⟨a, t, ts, map, h', heq, hrange, hfault, htokens, ht⟩

/-- A setting with a comment behind it. -/
theorem emptyLine_agrees_comment : LineAgrees (fun _ => true) (ascii " on # off\n") [7]
      (false, ascii " on " ++ 0 :: (ascii " off\n" ++ [0, 7])) ∧
    ∀ memory config buffers,
      (configLinesIn (fun _ => true) memory config buffers).1 ≠ .unableToTokenize := by
  have hagrees := @emptyLine_agrees (ascii " on # off\n") [7] (fun _ => true) (by decide)
    (by decide) fun _ => rfl
  have hresult : nvipfixConfigIsEmptyLine (ascii " on # off\n" ++ [0, 7]) =
      (false, ascii " on " ++ 0 :: (ascii " off\n" ++ [0, 7])) := by decide
  rwa [hresult] at hagrees

end NvIpfix
