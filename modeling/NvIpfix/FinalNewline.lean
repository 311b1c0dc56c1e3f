/-
**A configuration without its final newline.**

`fgets` returns a last line without a line feed as it is, and the test that is meant for lines that
do not fit the buffer finds no line feed in it: reading stops in front of the line.  So the final
line feed is insignificant exactly when the last line is.

Main definitions:

* `NvIpfix.TextLine`, `NvIpfix.linesText` — lines that fit the buffer, and their text;
* `NvIpfix.lineTokens` — the tokens of a line, none if it is empty;
* `NvIpfix.readLines` — reading lines.

Main results:

* `NvIpfix.nvipfixConfigRead_linesText` — reading a text is reading its lines;
* `NvIpfix.nvipfixConfigRead_unterminated` — a last line without a line feed is not read;
* `NvIpfix.nvipfixConfigRead_finalNewline_iff` — **when the final line feed does not matter**.
-/

import NvIpfix.ConfigEffects

set_option relaxedAutoImplicit false
set_option autoImplicit false

namespace NvIpfix

/-! ### Lines -/

/-- A line of 7-bit characters other than NUL that fits the buffer, without its line feed. -/
structure TextLine where
  body : CString
  plain : ∀ c ∈ body, 0 < c ∧ c < 128 ∧ c ≠ 10
  short : body.length < sizeofConfigBuffer - 1

/-- A line of literal text. -/
def TextLine.ofAscii (s : String)
    (hplain : ∀ c ∈ ascii s, 0 < c ∧ c < 128 ∧ c ≠ 10 := by decide)
    (hshort : (ascii s).length < sizeofConfigBuffer - 1 := by decide) : TextLine :=
  { body := ascii s, plain := hplain, short := hshort }

/-- A line with its line feed. -/
def TextLine.text (line : TextLine) : CString := line.body ++ [10]

/-- The text of lines. -/
def linesText (lines : List TextLine) : CString := lines.flatMap TextLine.text

/-- The tokens of a line, none if it is empty. -/
def lineTokens (line : CString) : List CString :=
  if (configWords line).isEmpty then []
  else (stringSplit (configCut line) (ascii " \t\n\r")).getD []

/-- Reading lines. -/
def readLines (st : ConfigState) (lines : List TextLine) : ConfigState :=
  lines.foldl (fun st line => configTokens st (lineTokens line.text)) st

namespace TextLine

theorem lf_not_mem (line : TextLine) : 10 ∉ line.body := fun hmem => (line.plain 10 hmem).2.2 rfl

theorem nul_not_mem (line : TextLine) : 0 ∉ line.body := fun hmem =>
  absurd (line.plain 0 hmem).1 (by decide)

end TextLine

/-- One call of `fgets` returns a line. -/
theorem fgetsCalls_linesText (lines : List TextLine) (rest : CString) :
    fgetsCalls sizeofConfigBuffer [] (linesText lines ++ rest) =
      lines.map TextLine.text ++ fgetsCalls sizeofConfigBuffer [] rest := by
  induction lines with
  | nil => rfl
  | cons line lines ih =>
      have hshort : ([] : CString).length + line.body.length + 1 < sizeofConfigBuffer := by
        have h := line.short
        simp only [List.length_nil, Nat.zero_add, sizeofConfigBuffer] at h ⊢
        omega
      rw [linesText, List.flatMap_cons, TextLine.text, List.append_assoc, List.append_assoc,
        List.singleton_append, fgetsCalls_append _ _ _ _ line.lf_not_mem hshort, List.nil_append,
        ← linesText, ih]
      rfl

/-- The last call of `fgets` returns what has no line feed. -/
theorem fgetsCalls_unterminated {size : ℕ} {body : CString} (hbody : 10 ∉ body) (buffer : CString)
    (hshort : buffer.length + body.length + 1 < size) :
    fgetsCalls size buffer body =
      if (buffer ++ body).isEmpty then [] else [buffer ++ body] := by
  induction body generalizing buffer with
  | nil => rw [fgetsCalls, List.append_nil]
  | cons c body ih =>
      simp only [List.mem_cons, not_or] at hbody
      have hc : c ≠ 10 := fun h => hbody.1 h.symm
      simp only [List.length_cons] at hshort
      have hroom : ¬ ((buffer ++ [c]).length + 1 = size) := by
        simp only [List.length_append, List.length_singleton]
        omega
      rw [fgetsCalls]
      simp only [hc, decide_false, Bool.false_or, beq_iff_eq, hroom, ↓reduceIte]
      rw [ih hbody.2 (buffer ++ [c]) (by
        simp only [List.length_append, List.length_singleton]
        omega), ← List.append_cons]

/-- The body of the loop over the lines. -/
theorem configLines_text (st : ConfigState) (line : TextLine) (buffers : List (List UInt8)) :
    configLines st (line.text :: buffers) =
      configLines (configTokens st (lineTokens line.text)) buffers := by
  have hnul : cstringOf line.text = line.text := by
    refine takeWhile_bne_of_not_mem fun hmem => ?_
    rcases List.mem_append.1 hmem with hmem | hmem
    · exact line.nul_not_mem hmem
    · cases List.mem_singleton.1 hmem
  have hlf : ¬ 10 ∉ line.text := by simp [TextLine.text]
  simp only [configLines, hnul, hlf, ↓reduceIte, configIsEmptyLine_eq, lineTokens]
  cases hempty : (configWords line.text).isEmpty with
  | true => rfl
  | false =>
      have hcut : configCut line.text ≠ [] := by
        intro hnil
        simp [configWords, hnil] at hempty
      obtain ⟨e, he, -⟩ := exists_stringSplit_eq hcut (ascii " \t\n\r")
      simp only [Bool.false_eq_true, ↓reduceIte, he, Option.getD_some]

theorem configLines_map_text (st : ConfigState) (lines : List TextLine)
    (buffers : List (List UInt8)) :
    configLines st (lines.map TextLine.text ++ buffers) =
      configLines (readLines st lines) buffers := by
  induction lines generalizing st with
  | nil => rfl
  | cons line lines ih =>
      rw [List.map_cons, List.cons_append, configLines_text, ih]
      rfl

/-- **Reading a text is reading its lines.** -/
theorem nvipfixConfigRead_linesText (stack : CollectorInfo) (lines : List TextLine) :
    nvipfixConfigRead stack (some (linesText lines)) = readLines { collector := stack } lines := by
  have hcalls := fgetsCalls_linesText lines []
  rw [List.append_nil] at hcalls
  rw [nvipfixConfigRead, hcalls, configLines_map_text]
  rfl

/-- **A last line without a line feed is not read.** -/
theorem nvipfixConfigRead_unterminated (stack : CollectorInfo) (lines : List TextLine)
    (last : TextLine) : nvipfixConfigRead stack (some (linesText lines ++ last.body)) =
      readLines { collector := stack } lines := by
  have hshort : ([] : CString).length + last.body.length + 1 < sizeofConfigBuffer := by
    have h := last.short
    simp only [List.length_nil, Nat.zero_add, sizeofConfigBuffer] at h ⊢
    omega
  rw [nvipfixConfigRead, fgetsCalls_linesText, fgetsCalls_unterminated last.lf_not_mem [] hshort,
    configLines_map_text, List.nil_append]
  split
  · rfl
  · -- the test for a line feed ends the loop
    have hlf : 10 ∉ cstringOf last.body := fun hmem =>
      last.lf_not_mem ((List.takeWhile_sublist _).subset hmem)
    rw [configLines, if_pos hlf]

/-! ### The last line -/

theorem readLines_append (st : ConfigState) (lines lines' : List TextLine) :
    readLines st (lines ++ lines') = readLines (readLines st lines) lines' := List.foldl_append

theorem safe_readLines {st : ConfigState} (hs : st.Safe) (lines : List TextLine) :
    (readLines st lines).Safe := by
  induction lines generalizing st with
  | nil => exact hs
  | cons line lines ih => exact ih (hs.configTokens _)

/-- **When the final line feed does not matter**: when what the last line does, in the state that
the lines before it lead to, moves neither the variables nor the list. -/
theorem nvipfixConfigRead_finalNewline_iff (stack : CollectorInfo) (lines : List TextLine)
    (last : TextLine) :
    (nvipfixConfigRead stack (some (linesText lines ++ last.body))).view =
        (nvipfixConfigRead stack (some (linesText lines ++ (last.body ++ [10])))).view ↔
      (nvipfixConfigRead stack (some (linesText lines))).data.Unmoved
        ((nvipfixConfigRead stack (some (linesText lines))).control.actions
          (lineTokens last.text)) := by
  have htext : linesText lines ++ (last.body ++ [10]) = linesText (lines ++ [last]) := by
    simp [linesText, TextLine.text]
  have hsafe := safe_readLines (ConfigState.safe_start stack) lines
  rw [nvipfixConfigRead_unterminated, htext, nvipfixConfigRead_linesText, readLines_append,
    nvipfixConfigRead_linesText, ← run_view_eq_iff, ← configTokens_data hsafe]
  exact eq_comm

/-- The lines of a block in front of its closing brace. -/
def openBlock : List TextLine := [.ofAscii "collector c \x7b", .ofAscii "collector-hostname h"]

/-- Without the line feed behind its closing brace the collector is lost. -/
theorem nvipfixConfigRead_lostCollector :
    linesText openBlock ++ ascii "\x7d\n" =
        ascii "collector c \x7b\ncollector-hostname h\n\x7d\n" ∧
      (nvipfixConfigRead {} (some (linesText openBlock ++ ascii "\x7d"))).view.collectors = [] ∧
      (nvipfixConfigRead {} (some (linesText openBlock ++ ascii "\x7d\n"))).view.collectors =
        [{ name := some (ascii "c"), host := some (ascii "h"), port := some (ascii "4739"),
           transport := .udp }] := by
  decide +kernel

end NvIpfix
