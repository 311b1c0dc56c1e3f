/-
**Empty tokens.**

The splitter skips a delimiter in front of a token, but at the last character it emits what it has
gathered, whatever it is.  So a text whose last character is a delimiter, with no token in front of
it to be closed, has one token more than it has fields: an empty one.  The parsers and the
configuration reader count it.

Main definitions:

* `NvIpfix.EndsIdle` — the last character is a delimiter that closes no token;
* `NvIpfix.SplitsIntoFields` — the tokens are the fields of the text.

Main results:

* `NvIpfix.stringSplit_of_not_endsIdle`, `NvIpfix.EndsIdle.stringSplit_eq` — the tokens of any text;
* `NvIpfix.splitsIntoFields_iff` — **when the tokens are the fields**.
-/

import NvIpfix.CString

set_option relaxedAutoImplicit false
set_option autoImplicit false

namespace NvIpfix

/-- The last character of the text is a delimiter, and so is the one before it, if there is one. -/
def EndsIdle (delimiters s : CString) : Prop :=
  ∃ t d, s = t ++ [d] ∧ d ∈ delimiters ∧ ∀ c ∈ t.getLast?, c ∈ delimiters

/-- No token is empty, a text of delimiters has none, and there are as many tokens as the text has
stretches without delimiters. -/
def SplitsIntoFields (delimiters s : CString) : Prop :=
  (∀ tokens, stringSplit s delimiters = some tokens → [] ∉ tokens) ∧
    ((∀ c ∈ s, c ∈ delimiters) → stringSplit s delimiters = none) ∧
    ((stringSplit s delimiters).getD []).length = (Tokens.runs (inCharset delimiters) s).length

section Tokens

variable {delimiters s : CString}

/-- A text that does not end idle splits into its runs. -/
theorem stringSplit_of_not_endsIdle (hne : s ≠ []) (h : ¬ EndsIdle delimiters s) :
    stringSplit s delimiters = some (Tokens.runs (inCharset delimiters) s) := by
  rcases List.eq_nil_or_concat' s with rfl | ⟨t, d, rfl⟩
  · exact absurd rfl hne
  · by_cases hd : d ∈ delimiters
    · -- the last character closes a token
      have hlast : t.getLast?.any (fun c => !inCharset delimiters c) = true := by
        by_contra hnone
        refine h ⟨t, d, rfl, hd, ?_⟩
        intro c hc
        by_contra hmem
        rw [Option.mem_def.1 hc, Option.any_some, inCharset_eq_false_iff.2 hmem] at hnone
        exact hnone rfl
      rw [stringSplit_append_delimiters t hd (by simp), if_pos ⟨rfl, hlast⟩, List.append_nil,
        Tokens.runs_append_singleton _ t (inCharset_iff.2 hd)]
    · refine stringSplit_eq_runs hne ?_
      intro c hc
      rw [List.getLast?_concat, Option.mem_some_iff] at hc
      rwa [← hc]

/-- A text that ends idle has an empty token behind its runs. -/
theorem EndsIdle.stringSplit_eq (h : EndsIdle delimiters s) :
    stringSplit s delimiters = some (Tokens.runs (inCharset delimiters) s ++ [[]]) := by
  obtain ⟨t, d, rfl, hd, hlast⟩ := h
  have hidle : t.getLast?.any (fun c => !inCharset delimiters c) = false := by
    cases hc : t.getLast? with
    | none => rfl
    | some c => rw [Option.any_some, inCharset_iff.2 (hlast c hc), Bool.not_true]
  rw [stringSplit_append_delimiters t hd (by simp), if_neg (by rw [hidle]; simp),
    Tokens.runs_append_singleton _ t (inCharset_iff.2 hd)]

/-- A text of delimiters ends idle. -/
theorem endsIdle_of_forall_mem (hne : s ≠ []) (h : ∀ c ∈ s, c ∈ delimiters) :
    EndsIdle delimiters s := by
  rcases List.eq_nil_or_concat' s with rfl | ⟨t, d, rfl⟩
  · exact absurd rfl hne
  · refine ⟨t, d, rfl, h d (by simp), ?_⟩
    intro c hc
    exact h c (List.mem_append_left _ (List.mem_of_getLast? hc))

/-- **When the tokens are the fields**: unless the text ends in a delimiter that closes no token. -/
theorem splitsIntoFields_iff (delimiters s : CString) :
    SplitsIntoFields delimiters s ↔ ¬ EndsIdle delimiters s := by
  constructor
  · rintro ⟨hfull, -, -⟩ hidle
    exact hfull _ hidle.stringSplit_eq (by simp)
  · intro h
    by_cases hs : s = []
    · subst hs
      have hnone : stringSplit [] delimiters = none := stringSplit_eq_none_iff.2 rfl
      refine ⟨?_, fun _ => hnone, ?_⟩
      · intro tokens htokens
        rw [hnone] at htokens
        cases htokens
      · rw [hnone, Option.getD_none, Tokens.runs_nil]
    · have hruns := stringSplit_of_not_endsIdle hs h
      refine ⟨?_, ?_, ?_⟩
      · intro tokens htokens
        rw [hruns, Option.some.injEq] at htokens
        rw [← htokens]
        exact fun hmem => Tokens.ne_nil_of_mem_runs _ hmem rfl
      · intro hall
        exact absurd (endsIdle_of_forall_mem hs hall) h
      · rw [hruns, Option.getD_some]

end Tokens

/-- A blank alone is an empty token, and two dots behind three numerals are a fourth token. -/
theorem splitsIntoFields_dots :
    stringSplit (ascii " ") (ascii " ") = some [[]] ∧
      ¬ SplitsIntoFields (ascii " ") (ascii " ") ∧
      stringSplit (ascii "1.2.3..") (ascii ".") =
        some [ascii "1", ascii "2", ascii "3", []] ∧
      ¬ SplitsIntoFields (ascii ".") (ascii "1.2.3..") := by
  have hblank : stringSplit (ascii " ") (ascii " ") = some [[]] := by decide
  have hdots : stringSplit (ascii "1.2.3..") (ascii ".") =
      some [ascii "1", ascii "2", ascii "3", []] := by decide
  refine ⟨hblank, ?_, hdots, ?_⟩
  · rintro ⟨hfull, -, -⟩
    exact hfull _ hblank (by decide)
  · rintro ⟨hfull, -, -⟩
    exact hfull _ hdots (by decide)

end NvIpfix
