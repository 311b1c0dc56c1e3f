/-
**The lines of a configuration file and their words.**

A line that ends in a line feed and fits the buffer is read by one call of `fgets`.  It is cut at
its first `#`, and its words are what is between blanks in the rest.  A line without words is
skipped, and every other one moves the machine by its words: the splitter may add an empty token
behind them, which does nothing unless a setting still waits for its value.

Main definitions:

* `NvIpfix.configCut`, `NvIpfix.configWords` — a line before its comment, and its words;
* `NvIpfix.ReadsAs` — a line of the file and the words it is read as.

Main results:

* `NvIpfix.configIsEmptyLine_eq` — a line is empty when it has no words;
* `NvIpfix.fgetsCalls_flatten` — the calls of `fgets` return the lines;
* `NvIpfix.nvipfixConfigRead_rows` — **the file moves the machine by the words of its lines**.
-/

import NvIpfix.Config

set_option relaxedAutoImplicit false
set_option autoImplicit false

namespace NvIpfix

/-! ### Words -/

/-- A line before its first `#`. -/
def configCut (line : CString) : CString := line.takeWhile (· != 35)

/-- The words of a line. -/
def configWords (line : CString) : List CString :=
  Tokens.runs (inCharset (ascii " \t\n\r")) (configCut line)

/-- A line is empty when what is left of it is blank. -/
theorem configIsEmptyLine_eq_all (result : Bool) (line : CString) :
    configIsEmptyLine result line
      = (result && (configCut line).all (inCharset (ascii " \t\n\r")), configCut line) := by
  induction line generalizing result with
  | nil => simp [configIsEmptyLine, configCut]
  | cons c line ih =>
      by_cases hblank : c ∈ ascii " \t\n\r"
      · have hc : c ≠ 35 := by
          rintro rfl
          exact absurd hblank (by decide)
        have hcut : configCut (c :: line) = c :: configCut line := by simp [configCut, hc]
        simp [configIsEmptyLine, hblank, ih, hcut, inCharset_iff.2 hblank]
      · by_cases hc : c = 35
        · subst hc
          simp [configIsEmptyLine, hblank, configCut]
        · have hcut : configCut (c :: line) = c :: configCut line := by simp [configCut, hc]
          simp [configIsEmptyLine, hblank, hc, ih, hcut, inCharset_eq_false_iff.2 hblank]

/-- **A line is empty when it has no words.** -/
theorem configIsEmptyLine_eq (line : CString) :
    configIsEmptyLine true line = ((configWords line).isEmpty, configCut line) := by
  rw [configIsEmptyLine_eq_all, Bool.true_and]
  congr 1
  rw [Bool.eq_iff_iff, List.all_eq_true, List.isEmpty_iff]
  constructor
  · exact fun hall => Tokens.runs_eq_nil _ hall
  · intro hwords c hc
    by_contra hblank
    exact Tokens.runs_ne_nil _ hc (Bool.not_eq_true _ ▸ hblank) hwords

/-! ### Lines -/

/-- A line of the file, ended by a line feed, that fits the buffer, and its words. -/
structure ReadsAs (line : CString) (words : List CString) : Prop where
  ended : ∃ body, line = body ++ [10] ∧ 10 ∉ body
  nul : 0 ∉ line
  short : line.length < sizeofConfigBuffer
  reads : configWords line = words
  /-- No setting waits for a value at the end of the line. -/
  settled : ∀ config, (words.foldl configToken { config }).tokenIndex ≠ 1

/-- An empty token where no setting waits for a value. -/
theorem configToken_nil_config {line : ConfigLine} (h : line.tokenIndex ≠ 1) :
    (configToken line []).config = line.config := by
  have hnone : ∀ parentId, configGetSetting [] parentId = none := by
    intro parentId
    cases parentId <;> decide
  simp only [configToken, List.head?_nil, reduceCtorEq, ↓reduceIte]
  split
  · simp [configSettingToken, hnone]
  · split
    · rename_i hindex
      exact absurd (Nat.succ.inj hindex) h
    · rfl

/-- The body of the loop over the lines. -/
theorem configLines_cons {line : CString} {words : List CString} (h : ReadsAs line words)
    (config : ConfigState) (lines : List CString) :
    configLines config (line :: lines) = configLines (configTokens config words) lines := by
  obtain ⟨body, hbody, -⟩ := h.ended
  have hnul : cstringOf line = line := takeWhile_bne_of_not_mem h.nul
  have hmem : ¬ 10 ∉ line := by simp [hbody]
  simp only [configLines, hnul, hmem, ↓reduceIte, configIsEmptyLine_eq, h.reads]
  cases hempty : words.isEmpty with
  | true =>
      rw [List.isEmpty_iff.1 hempty]
      rfl
  | false =>
      have hcut : configCut line ≠ [] := by
        refine Tokens.ne_nil_of_runs_ne_nil (inCharset (ascii " \t\n\r")) ?_
        rw [← configWords, h.reads]
        exact List.isEmpty_eq_false_iff.1 hempty
      obtain ⟨e, he, hor⟩ := exists_stringSplit_eq hcut (ascii " \t\n\r")
      rw [← configWords, h.reads] at he
      simp only [he, Bool.false_eq_true, ↓reduceIte]
      rcases hor with rfl | rfl
      · rw [List.append_nil]
      · simp only [configTokens, List.foldl_append, List.foldl_cons, List.foldl_nil,
          configToken_nil_config (h.settled config)]

/-! ### Files -/

/-- A call of `fgets` returns what is left of a line. -/
theorem fgetsCalls_append (size : ℕ) (buffer body rest : CString) (hbody : 10 ∉ body)
    (hshort : buffer.length + body.length + 1 < size) :
    fgetsCalls size buffer (body ++ 10 :: rest) =
      (buffer ++ (body ++ [10])) :: fgetsCalls size [] rest := by
  induction body generalizing buffer with
  | nil => simp [fgetsCalls]
  | cons c body ih =>
      simp only [List.mem_cons, not_or] at hbody
      have hc : c ≠ 10 := fun h => hbody.1 h.symm
      simp only [List.length_cons] at hshort
      have hroom : ¬ ((buffer ++ [c]).length + 1 = size) := by
        simp only [List.length_append, List.length_cons, List.length_nil]
        omega
      rw [List.cons_append, fgetsCalls]
      simp only [hc, decide_false, Bool.false_or, beq_iff_eq, hroom, ↓reduceIte]
      have hshort' : (buffer ++ [c]).length + body.length + 1 < size := by
        simp only [List.length_append, List.length_cons, List.length_nil]
        omega
      rw [ih (buffer ++ [c]) hbody.2 hshort']
      simp

/-- The calls of `fgets` return the lines. -/
theorem fgetsCalls_flatten {rows : List (CString × List CString)}
    (h : ∀ row ∈ rows, ReadsAs row.1 row.2) :
    fgetsCalls sizeofConfigBuffer [] (rows.map Prod.fst).flatten = rows.map Prod.fst := by
  induction rows with
  | nil => rfl
  | cons row rows ih =>
      obtain ⟨body, hbody, hlf⟩ := (h row (by simp)).ended
      have hshort := (h row (by simp)).short
      rw [hbody, List.length_append, List.length_singleton] at hshort
      simp only [List.map_cons, List.flatten_cons, hbody, List.append_assoc, List.singleton_append]
      rw [fgetsCalls_append _ _ _ _ hlf (by simpa using hshort),
        ih fun row' hrow => h row' (by simp [hrow]), List.nil_append]

/-- **The file moves the machine by the words of its lines.** -/
theorem nvipfixConfigRead_rows (stack : CollectorInfo) {rows : List (CString × List CString)}
    (h : ∀ row ∈ rows, ReadsAs row.1 row.2) :
    nvipfixConfigRead stack (some (rows.map Prod.fst).flatten)
      = (rows.map Prod.snd).foldl configTokens { collector := stack } := by
  have hlines : ∀ config, configLines config (rows.map Prod.fst)
      = (rows.map Prod.snd).foldl configTokens config := by
    induction rows with
    | nil => exact fun _ => rfl
    | cons row rows ih =>
        intro config
        rw [List.map_cons, List.map_cons, List.foldl_cons, configLines_cons (h row (by simp))]
        exact ih (fun row' hrow => h row' (by simp [hrow])) _
  simp only [nvipfixConfigRead, fgetsCalls_flatten h, hlines]

end NvIpfix
