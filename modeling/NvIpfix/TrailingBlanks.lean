/-
**Blanks and comments at the end of a line.**

The splitter adds an empty token at the end of a line unless the line ends in a token and at most
one blank.  A line of a file ends in its line feed, so the first blank in front of it makes an empty
token; a comment makes none, for the line is cut in front of it.  The empty token does something
only where a setting still waits for its value, and is then the value.

Main definitions:

* `NvIpfix.LineEnd`, `NvIpfix.TrailedLine` — blanks or a comment, and a line with them;
* `NvIpfix.TrailedLine.Dangles` — the blanks make an empty token;
* `NvIpfix.ConfigControl.waiting` — the field that waits for its value;
* `NvIpfix.TrailedLine.Insignificant` — nothing waits at the end of the line, or what an empty
  value does is not seen.

Main results:

* `NvIpfix.lineTokens_trailed` — the tokens of a line with blanks or a comment behind it;
* `NvIpfix.nvipfixConfigRead_trailed_iff` — **when blanks at the end of a line do not matter**.
-/

import NvIpfix.EmptyValue
import NvIpfix.FinalNewline

set_option relaxedAutoImplicit false
set_option autoImplicit false

namespace NvIpfix

/-! ### Tokens of a line -/

/-- A run of blanks, or a blank and a comment. -/
structure LineEnd where
  text : CString
  form : (∀ c ∈ text, c ∈ ascii " \t\r") ∨ ∃ blank comment, text = blank :: 35 :: comment ∧
    blank ∈ ascii " \t\r" ∧ ∀ c ∈ comment, 0 < c ∧ c < 128 ∧ c ≠ 10

/-- A line with blanks or a comment behind it that still fits the buffer. -/
structure TrailedLine where
  line : TextLine
  trailer : LineEnd
  short : (line.body ++ trailer.text).length < sizeofConfigBuffer - 1

theorem LineEnd.plain (trailer : LineEnd) : ∀ c ∈ trailer.text, 0 < c ∧ c < 128 ∧ c ≠ 10 := by
  have hblank : ∀ c ∈ ascii " \t\r", 0 < c ∧ c < 128 ∧ c ≠ 10 := by decide
  intro c hc
  rcases trailer.form with hblanks | ⟨blank, comment, htext, hmem, hcomment⟩
  · exact hblank c (hblanks c hc)
  · rw [htext, List.mem_cons, List.mem_cons] at hc
    rcases hc with rfl | rfl | hc
    · exact hblank c hmem
    · decide
    · exact hcomment c hc

/-- The line with what is put behind it. -/
def TrailedLine.trailed (p : TrailedLine) : TextLine where
  body := p.line.body ++ p.trailer.text
  plain c hc := (List.mem_append.1 hc).elim (p.line.plain c) (p.trailer.plain c)
  short := p.short

/-- There are blanks and no comment, behind a character that is not a blank. -/
def TrailedLine.Dangles (p : TrailedLine) : Prop :=
  p.trailer.text ≠ [] ∧ 35 ∉ p.line.body ++ p.trailer.text ∧
    p.line.body.getLast?.any (fun c => !inCharset (ascii " \t\n\r") c)

instance (p : TrailedLine) : Decidable p.Dangles := inferInstanceAs (Decidable (_ ∧ _ ∧ _))

theorem configCut_append_of_mem {s : CString} (h : 35 ∈ s) (t : CString) :
    configCut (s ++ t) = configCut s := by
  induction s with
  | nil => cases h
  | cons c s ih =>
      by_cases hc : c = 35
      · simp [configCut, hc]
      · have hs : 35 ∈ s := (List.mem_cons.1 h).resolve_left fun heq => hc heq.symm
        have hcut : ∀ s, configCut (c :: s) = c :: configCut s := fun s => by
          simp [configCut, hc]
        rw [List.cons_append, hcut, hcut, ih hs]

theorem configCut_append_of_not_mem {s : CString} (h : 35 ∉ s) (t : CString) :
    configCut (s ++ t) = s ++ configCut t := takeWhile_bne_append h t

/-- The tokens of a line with blanks behind it. -/
theorem lineTokens_blanks {s : CString} {d : UInt8} {ds : CString} (h : 35 ∉ s)
    (hd : ∀ c ∈ d :: ds, c ∈ ascii " \t\n\r") :
    lineTokens (s ++ d :: ds) =
      if (Tokens.runs (inCharset (ascii " \t\n\r")) s).isEmpty then [] else
        Tokens.runs (inCharset (ascii " \t\n\r")) s ++
          if ds = [] ∧ s.getLast?.any (fun c => !inCharset (ascii " \t\n\r") c) then []
          else [[]] := by
  have hnot : 35 ∉ d :: ds := fun hmem => absurd (hd 35 hmem) (by decide)
  have hcut : configCut (s ++ d :: ds) = s ++ d :: ds := by
    rw [configCut_append_of_not_mem h, configCut, takeWhile_bne_of_not_mem hnot]
  have hblanks : ∀ c ∈ d :: ds, inCharset (ascii " \t\n\r") c = true :=
    fun c hc => inCharset_iff.2 (hd c hc)
  have hwords : configWords (s ++ d :: ds) = Tokens.runs (inCharset (ascii " \t\n\r")) s := by
    rw [configWords, hcut, Tokens.runs_append_of_head? _ s fun c hc =>
      hblanks c (List.mem_of_mem_head? hc), Tokens.runs_eq_nil _ hblanks, List.append_nil]
  rw [lineTokens, hwords, hcut, stringSplit_append_delimiters s (hd d (by simp))
    fun c hc => hd c (List.mem_cons_of_mem d hc), Option.getD_some]

theorem lineTokens_congr {s t : CString} (h : configCut s = configCut t) :
    lineTokens s = lineTokens t := by
  rw [lineTokens, lineTokens, configWords, configWords, h]

namespace TrailedLine

variable (p : TrailedLine)

theorem trailed_text : p.trailed.text = p.line.body ++ (p.trailer.text ++ [10]) := by
  simp [TextLine.text, trailed]

/-- A comment behind a line adds no token. -/
theorem lineTokens_of_comment (hcut : 35 ∉ p.line.body) {blank : UInt8} {comment : CString}
    (htrailer : p.trailer.text = blank :: 35 :: comment) (hblank : blank ∈ ascii " \t\r") :
    lineTokens p.trailed.text = lineTokens p.line.text := by
  have hblanks : ∀ c ∈ ascii " \t\r", c ∈ ascii " \t\n\r" ∧ c ≠ 35 := by decide
  obtain ⟨hmem, hne⟩ := hblanks blank hblank
  have hcongr : lineTokens p.trailed.text = lineTokens (p.line.body ++ [blank]) := by
    refine lineTokens_congr ?_
    rw [p.trailed_text, htrailer, configCut_append_of_not_mem hcut,
      configCut_append_of_not_mem hcut]
    simp [configCut, hne]
  rw [hcongr, TextLine.text, lineTokens_blanks hcut (by simpa using hmem),
    lineTokens_blanks hcut (by decide)]

/-- Blanks behind a line add an empty token to a token. -/
theorem lineTokens_of_blanks (hcut : 35 ∉ p.line.body)
    (hblanks : ∀ c ∈ p.trailer.text, c ∈ ascii " \t\r") (hne : p.trailer.text ≠ []) :
    lineTokens p.trailed.text = lineTokens p.line.text ++ if p.Dangles then [[]] else [] := by
  obtain ⟨d, ds, htrailer⟩ := List.exists_cons_of_ne_nil hne
  have hmono : ∀ c ∈ ascii " \t\r", c ∈ ascii " \t\n\r" := by decide
  have hmem : ∀ c ∈ d :: (ds ++ [10]), c ∈ ascii " \t\n\r" := by
    intro c hc
    rw [← List.cons_append, List.mem_append] at hc
    rcases hc with hc | hc
    · exact hmono c (hblanks c (htrailer ▸ hc))
    · rw [List.mem_singleton.1 hc]
      decide
  have hnot : 35 ∉ p.line.body ++ d :: ds := by
    intro h
    have hds := (List.mem_append.1 h).resolve_left hcut
    exact absurd (hmem 35 (List.mem_append_left [10] hds)) (by decide)
  have hdangles : p.Dangles ↔
      p.line.body.getLast?.any (fun c => !inCharset (ascii " \t\n\r") c) = true := by
    simp only [Dangles, htrailer, hnot, not_false_eq_true, true_and, ne_eq, reduceCtorEq]
  rw [p.trailed_text, htrailer, TextLine.text, List.cons_append, lineTokens_blanks hcut hmem,
    lineTokens_blanks hcut (by decide)]
  by_cases hlast : p.line.body.getLast?.any (fun c => !inCharset (ascii " \t\n\r") c) = true
  · obtain ⟨c, hc, hfree⟩ := (Option.any_eq_true _ _).1 hlast
    have hwords := Tokens.runs_ne_nil (inCharset (ascii " \t\n\r"))
      (List.mem_of_getLast? hc) (by simpa using hfree)
    simp [hdangles, hlast, hwords]
  · simp [hdangles, hlast]

end TrailedLine

/-- **The tokens of a line with blanks or a comment behind it.** -/
theorem lineTokens_trailed (p : TrailedLine) : lineTokens p.trailed.text =
    lineTokens p.line.text ++ if p.Dangles then [[]] else [] := by
  by_cases hcut : 35 ∈ p.line.body
  · rw [if_neg fun h : p.Dangles => h.2.1 (List.mem_append_left _ hcut), List.append_nil]
    refine lineTokens_congr ?_
    rw [p.trailed_text, TextLine.text, configCut_append_of_mem hcut, configCut_append_of_mem hcut]
  · rcases p.trailer.form with hblanks | ⟨blank, comment, htrailer, hblank, -⟩
    · by_cases hne : p.trailer.text = []
      · rw [if_neg fun h : p.Dangles => h.1 hne, List.append_nil, p.trailed_text, hne]
        rfl
      · exact p.lineTokens_of_blanks hcut hblanks hne
    · rw [if_neg fun h : p.Dangles => h.2.1 (by simp [htrailer]), List.append_nil]
      exact p.lineTokens_of_comment hcut htrailer hblank

/-! ### Empty tokens -/

namespace ConfigControl

variable (c : ConfigControl)

/-- The field that waits for its value. -/
def waiting : Option ConfigField := if c.tokenIndex = 1 then c.destination else none

theorem actions_append (tokens tokens' : List CString) :
    c.actions (tokens ++ tokens') = c.actions tokens ++ (tokens.foldl next c).actions tokens' := by
  induction tokens generalizing c with
  | nil => rfl
  | cons token tokens ih =>
      rw [List.cons_append, actions, actions, ih, List.append_assoc, List.foldl_cons]

theorem configGetSetting_nil (parentId : SettingId) : configGetSetting [] parentId = none := by
  cases parentId <;> decide

/-- An empty token is the value of the field that waits for one. -/
theorem action_nil : c.action [] = c.waiting.map fun field => .store field [] := by
  by_cases hindex : c.tokenIndex = 0
  · simp [action, waiting, hindex, find, configGetSetting_nil]
  · by_cases hvalue : c.tokenIndex = 1 <;> simp [action, waiting, hindex, hvalue]

/-- An empty token does not matter to the next line. -/
theorem newLine_next_nil : (c.next []).newLine = c.newLine := by
  simp only [next, List.head?_nil, reduceCtorEq, ↓reduceIte, find, configGetSetting_nil]
  split <;> rfl

end ConfigControl

section Lines

variable {st : ConfigState}

/-- What an empty token behind the tokens of a line does to the values. -/
theorem configTokens_append_nil_data (hs : st.Safe) (tokens : List CString) :
    (configTokens st (tokens ++ [[]])).data =
      (((tokens.foldl ConfigControl.next st.control).waiting.map fun field =>
        (configTokens st tokens).data.store [] field)).getD (configTokens st tokens).data := by
  rw [configTokens_data hs, configTokens_data hs, ConfigControl.actions_append,
    ConfigData.run_append, ConfigControl.actions, ConfigControl.action_nil]
  cases (tokens.foldl ConfigControl.next st.control).waiting <;> rfl

theorem configTokens_append_nil_control (tokens : List CString) :
    (configTokens st (tokens ++ [[]])).control = (configTokens st tokens).control := by
  rw [configTokens_control, configTokens_control, List.foldl_append, List.foldl_cons,
    List.foldl_nil, ConfigControl.newLine_next_nil]

/-- Reading lines is running their actions. -/
theorem readLines_data (hs : st.Safe) (lines : List TextLine) :
    (readLines st lines).data =
      st.data.run (st.control.linesActions (lines.map TextLine.text)) := by
  have hlines := configLines_map_text st lines []
  rw [List.append_nil, configLines] at hlines
  rw [← hlines]
  exact configLines_data hs rfl _

end Lines

/-- Blanks behind the line make no empty token, or no field waits for its value, or the one that
waits holds what the empty value makes of it, or nothing that follows shows it. -/
def TrailedLine.Insignificant (p : TrailedLine) (st : ConfigState) (after : List TextLine) : Prop :=
  p.Dangles →
    ∀ field ∈ ((lineTokens p.line.text).foldl ConfigControl.next st.control).waiting,
      (readLines st [p.line]).data.HoldsEmpty field ∨
        shows field (readLines st [p.line]).data.reach
          ((readLines st [p.line]).control.linesActions (after.map TextLine.text)) = false

/-- **When blanks and comments at the end of a line do not matter.** -/
theorem nvipfixConfigRead_trailed_iff (stack : CollectorInfo) (before : List TextLine)
    (p : TrailedLine) (after : List TextLine) :
    (nvipfixConfigRead stack (some (linesText (before ++ p.trailed :: after)))).view =
        (nvipfixConfigRead stack (some (linesText (before ++ p.line :: after)))).view ↔
      p.Insignificant (nvipfixConfigRead stack (some (linesText before))) after := by
  rw [nvipfixConfigRead_linesText, nvipfixConfigRead_linesText, nvipfixConfigRead_linesText,
    readLines_append, readLines_append]
  have hsafe := safe_readLines (ConfigState.safe_start stack) before
  generalize readLines { collector := stack } before = st at hsafe ⊢
  have hview : ∀ tokens, (readLines (configTokens st tokens) after).view =
      ((configTokens st tokens).data.run
        ((configTokens st tokens).control.linesActions (after.map TextLine.text))).view :=
    fun tokens => congrArg ConfigData.view (readLines_data (hsafe.configTokens tokens) after)
  have hcons : ∀ line : TextLine, readLines st (line :: after) =
      readLines (configTokens st (lineTokens line.text)) after := fun _ => rfl
  rw [hcons, hcons, hview, hview, lineTokens_trailed, TrailedLine.Insignificant]
  by_cases hdangles : p.Dangles
  · rw [if_pos hdangles, configTokens_append_nil_control, configTokens_append_nil_data hsafe]
    cases ((lineTokens p.line.text).foldl ConfigControl.next st.control).waiting with
    | none => simp
    | some field =>
        rw [Option.map_some, Option.getD_some, run_store_nil_view_iff]
        exact ⟨fun h _ field' hfield => Option.some.inj hfield ▸ h, fun h => h hdangles field rfl⟩
  · rw [if_neg hdangles, List.append_nil]
    exact ⟨fun _ h => absurd h hdangles, fun _ => rfl⟩

/-- The name of a setting without its value, and a blank behind it. -/
def portLine : TrailedLine where
  line := .ofAscii "transport-port"
  trailer := { text := ascii " ", form := .inl (by decide) }
  short := by decide

/-- A blank behind the name of a setting replaces the default port by the empty one. -/
theorem nvipfixConfigRead_emptyPort :
    linesText (openBlock ++ portLine.line :: [.ofAscii "\x7d"]) =
        ascii "collector c \x7b\ncollector-hostname h\ntransport-port\n\x7d\n" ∧
      linesText (openBlock ++ portLine.trailed :: [.ofAscii "\x7d"]) =
        ascii "collector c \x7b\ncollector-hostname h\ntransport-port \n\x7d\n" ∧
      (nvipfixConfigRead {} (some (linesText
        (openBlock ++ portLine.line :: [.ofAscii "\x7d"])))).view.collectors =
        [{ name := some (ascii "c"), host := some (ascii "h"), port := some (ascii "4739"),
           transport := .udp }] ∧
      (nvipfixConfigRead {} (some (linesText
        (openBlock ++ portLine.trailed :: [.ofAscii "\x7d"])))).view.collectors =
        [{ name := some (ascii "c"), host := some (ascii "h"), port := some [],
           transport := .udp }] := by
  decide +kernel

end NvIpfix
