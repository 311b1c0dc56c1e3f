/-
**C strings: splitting and trimming.**

A string of the program is a sequence of bytes up to a terminating NUL, modelled as the list of the
bytes before it.  This module embeds the string functions of `types.c` that do not allocate more
than their result: `nvipfix_string_split`, a single pass with a token start, a token length and a
ready flag; `nvipfix_string_trim`, which removes characters from both ends in place; and
`nvipfix_string_trim_copy`.  Character sets are 256-entry maps indexed by the character.  A byte
from 128 on has an index behind the map, where the program finds what happens to be there and the
maps of this module have no character of the set: on 7-bit texts the functions are those of the
program, and which accesses are in range is said apart (`NvIpfix.CharacterMap`).

The splitter emits what it has gathered at the last character whatever its length, so a text that
ends in a delimiter can yield an empty last token.  On a text that does not, the tokens are its runs
(`stringSplit_eq_runs`); on any other `stringSplit_eq_splitFrom` says what they are.

Main definitions:

* `NvIpfix.charsetIndex`, `NvIpfix.inCharset` — the index of a character in a map, and membership;
* `NvIpfix.splitStep`, `NvIpfix.stringSplit` — the splitter;
* `NvIpfix.stringTrim`, `NvIpfix.stringTrimCopy` — trimming.

Main results:

* `NvIpfix.stringSplit_eq_runs` — **a text that does not end in a delimiter splits into its runs**;
* `NvIpfix.stringTrim_eq_trim` — trimming removes the margins.
-/

import Mathlib.Algebra.Group.Nat.Defs
import NvIpfix.Tokens

set_option relaxedAutoImplicit false
set_option autoImplicit false

namespace NvIpfix

/-- A C string: the bytes before the terminating NUL. -/
abbrev CString := List UInt8

/-- A property of all characters of a text is decided along the text, not along all bytes. -/
instance decidableForallMem (s : CString) (p : UInt8 → Prop) [DecidablePred p] :
    Decidable (∀ c ∈ s, p c) := List.decidableBAll p s

/-- The bytes of a string literal of the source. -/
def ascii (s : String) : CString := s.toList.map Char.toUInt8

/-! ### Texts up to a character -/

theorem takeWhile_bne_append {c : UInt8} {s : CString} (h : c ∉ s) (t : CString) :
    (s ++ t).takeWhile (· != c) = s ++ t.takeWhile (· != c) :=
  List.takeWhile_append_of_pos fun x hx => by simpa using fun hxc : x = c => h (hxc ▸ hx)

theorem dropWhile_bne_append {c : UInt8} {s : CString} (h : c ∉ s) (t : CString) :
    (s ++ t).dropWhile (· != c) = t.dropWhile (· != c) :=
  List.dropWhile_append_of_pos fun x hx => by simpa using fun hxc : x = c => h (hxc ▸ hx)

theorem takeWhile_bne_of_not_mem {c : UInt8} {s : CString} (h : c ∉ s) :
    s.takeWhile (· != c) = s := by
  simpa using takeWhile_bne_append h []

theorem dropWhile_bne_of_not_mem {c : UInt8} {s : CString} (h : c ∉ s) :
    s.dropWhile (· != c) = [] := by
  simpa using dropWhile_bne_append h []

/-- What the string functions see of a buffer: everything before its first NUL. -/
def cstringOf (buffer : List UInt8) : CString := buffer.takeWhile (· != 0)

/-- A string without NUL is what is seen of any buffer that holds it NUL-terminated. -/
theorem cstringOf_append {s : CString} (hs : 0 ∉ s) (rest : List UInt8) :
    cstringOf (s ++ 0 :: rest) = s := by
  rw [cstringOf, takeWhile_bne_append hs, List.takeWhile_cons_of_neg (by decide), List.append_nil]

/-! ### Character maps -/

/-- The index `(size_t)(c)` of a character in a map.  `char` is signed, so a byte from 128 on is
converted to a huge index. -/
def charsetIndex (c : UInt8) : ℕ := if c < 128 then c.toNat else 2 ^ 64 - 256 + c.toNat

/-- The entries that the characters of `charset` set in the map. -/
def charsetMap (charset : CString) (i : ℕ) : Bool := charset.any fun c => charsetIndex c == i

/-- The map entry of a character. -/
def inCharset (charset : CString) (c : UInt8) : Bool := charsetMap charset (charsetIndex c)

theorem charsetIndex_injective : Function.Injective charsetIndex := by
  intro a b h
  have ha := a.toNat_lt
  have hb := b.toNat_lt
  simp only [charsetIndex] at h
  refine UInt8.toNat_inj.1 ?_
  split at h <;> split at h <;> omega

@[simp] theorem inCharset_iff {charset : CString} {c : UInt8} :
    inCharset charset c = true ↔ c ∈ charset := by
  simp only [inCharset, charsetMap, List.any_eq_true, beq_iff_eq, charsetIndex_injective.eq_iff]
  exact ⟨fun ⟨d, hd, h⟩ => h ▸ hd, fun h => ⟨c, h, rfl⟩⟩

theorem inCharset_eq_false_iff {charset : CString} {c : UInt8} :
    inCharset charset c = false ↔ c ∉ charset := by
  rw [← inCharset_iff, Bool.not_eq_true]

/-! ### Splitting -/

/-- The locals of the splitting loop, with the tokens added to the result list so far. -/
structure SplitState where
  tokenStart : ℕ := 0
  tokenLength : ℕ := 0
  result : List CString := []

/-- One iteration of the splitting loop, at index `i` of `s`. -/
def splitStep (delimitersMap : ℕ → Bool) (s : CString) (st : SplitState) (i : ℕ) : SplitState :=
  let isDelimiter := delimitersMap (charsetIndex (s.getD i 0))
  let tokenStart := if isDelimiter && st.tokenLength == 0 then i + 1 else st.tokenStart
  let tokenLength := if isDelimiter then st.tokenLength else st.tokenLength + 1
  -- ready at a delimiter behind a token, and always at the last character
  let isTokenReady := (isDelimiter && st.tokenLength != 0) || i + 1 == s.length
  if isTokenReady then
    { tokenStart := i + 1
      tokenLength := 0
      result := st.result ++ [(s.drop tokenStart).take tokenLength] }
  else { st with tokenStart, tokenLength }

/-- `nvipfix_string_split` (no allocation failing): the token list, or `NULL`.  A byte from 128 on
is no delimiter here; the program looks it up out of range. -/
def stringSplit (s delimiters : CString) : Option (List CString) :=
  let st := (List.range s.length).foldl (splitStep (charsetMap delimiters) s) {}
  if st.result.isEmpty then none else some st.result

/-! ### Trimming -/

/-- The trim set used when none is given. -/
def defaultTrimChars : CString := ascii " \t\r\n"

/-- `nvipfix_string_trim`: the loop from the end writes terminators over the characters of the
set, the scan from the start skips them, and the rest is moved to the front.  A byte from 128 on is
not trimmed here; the program looks it up out of range. -/
def stringTrim (s : CString) (trimChars : Option CString) : CString :=
  let charset := trimChars.getD defaultTrimChars
  (s.rdropWhile (inCharset charset)).dropWhile (inCharset charset)

/-- `nvipfix_string_trim_copy` (no allocation failing): trimming a duplicate. -/
def stringTrimCopy (s : CString) (trimChars : Option CString) : CString := stringTrim s trimChars

/-- **Trimming removes the margins.** -/
theorem stringTrim_eq_trim (s charset : CString) :
    stringTrim s (some charset) = Tokens.trim (inCharset charset) s := rfl

/-! ### What the splitter computes -/

/-- The splitter on the list of the characters still to come, with the token gathered so far. -/
def splitFrom (p : UInt8 → Bool) (token : CString) : CString → List CString
  | [] => []
  | [c] => [if p c then token else token ++ [c]]
  | c :: cs =>
      if p c then if token = [] then splitFrom p [] cs else token :: splitFrom p [] cs
      else splitFrom p (token ++ [c]) cs

theorem splitFrom_cons_cons (p : UInt8 → Bool) (token : CString) (c d : UInt8) (ds : CString) :
    splitFrom p token (c :: d :: ds) =
      if p c then if token = [] then splitFrom p [] (d :: ds) else token :: splitFrom p [] (d :: ds)
      else splitFrom p (token ++ [c]) (d :: ds) := rfl

/-- The token is what lies between its start and the current index. -/
theorem take_drop_token (done token rest : CString) :
    ((done ++ token ++ rest).drop done.length).take token.length = token := by
  rw [List.append_assoc, List.drop_left, List.take_left]

/-- One iteration on the character after the token: it is emitted, skipped or gathered. -/
theorem splitStep_eq (delimiters done token : CString) (c : UInt8) (cs : CString)
    (result : List CString) :
    splitStep (charsetMap delimiters) (done ++ token ++ c :: cs)
        { tokenStart := done.length, tokenLength := token.length, result := result }
        (done ++ token).length =
      if inCharset delimiters c then
        if token = [] ∧ cs ≠ [] then
          { tokenStart := (done ++ token ++ [c]).length, tokenLength := 0, result := result }
        else
          { tokenStart := (done ++ token ++ [c]).length, tokenLength := 0,
            result := result ++ [token] }
      else
        if cs = [] then
          { tokenStart := (done ++ token ++ [c]).length, tokenLength := 0,
            result := result ++ [token ++ [c]] }
        else
          { tokenStart := done.length, tokenLength := (token ++ [c]).length,
            result := result } := by
  have hget : (done ++ token ++ c :: cs).getD (done ++ token).length 0 = c := by
    simp [List.getD_eq_getElem?_getD]
  have hlast : ((done ++ token).length + 1 == (done ++ token ++ c :: cs).length) = cs.isEmpty := by
    cases cs <;> simp <;> omega
  have hmap : charsetMap delimiters (charsetIndex c) = inCharset delimiters c := rfl
  have htoken := take_drop_token done token (c :: cs)
  have htoken' : ((done ++ token ++ c :: cs).drop done.length).take (token.length + 1) =
      token ++ [c] := by
    simpa using take_drop_token done (token ++ [c]) cs
  simp only [splitStep, hget, hlast, hmap]
  cases hc : inCharset delimiters c with
  | true =>
      by_cases ht : token = []
      · subst ht
        cases cs <;> simp
      · have hlen : (token.length == 0) = false := by simpa using ht
        have hready : (token.length != 0) = true := by simpa using ht
        simp only [hlen, hready, Bool.true_and, Bool.true_or, Bool.false_eq_true, if_true, if_false,
          htoken, ht, false_and]
        simp [Nat.add_assoc]
  | false => cases cs <;> simp_all

/-- **The loop computes `splitFrom`**: the token gathered so far ends at the index. -/
theorem foldl_splitStep (delimiters : CString) (done token rest : CString)
    (result : List CString) :
    ((List.range' (done ++ token).length rest.length).foldl
        (splitStep (charsetMap delimiters) (done ++ token ++ rest))
        { tokenStart := done.length, tokenLength := token.length, result := result }).result =
      result ++ splitFrom (inCharset delimiters) token rest := by
  induction rest generalizing done token result with
  | nil => simp [splitFrom]
  | cons c cs ih =>
      rw [List.length_cons, List.range'_succ, List.foldl_cons, splitStep_eq]
      -- the next iteration starts after `c`, which is either done or part of the token
      have hidx : (done ++ token).length + 1 = (done ++ token ++ [c]).length := by
        simp [Nat.add_assoc]
      have hstr : done ++ token ++ c :: cs = done ++ token ++ [c] ++ cs := by simp
      have hdone := ih (done ++ token ++ [c]) []
      have htoken := ih done (token ++ [c])
      simp only [List.append_nil, List.length_nil] at hdone
      rw [← List.append_assoc] at htoken
      rw [hidx, hstr]
      cases hc : inCharset delimiters c with
      | true =>
          by_cases ht : token = []
          · subst ht
            cases cs with
            | nil => simp [splitFrom, hc]
            | cons d ds => simpa [splitFrom, hc] using hdone result
          · rw [if_pos rfl, if_neg (by simp [ht]), hdone]
            cases cs <;> simp [splitFrom, hc, ht]
      | false =>
          cases cs with
          | nil => simp [splitFrom, hc]
          | cons d ds => simpa [splitFrom, hc] using htoken result

theorem stringSplit_eq_splitFrom (s delimiters : CString) :
    stringSplit s delimiters =
      if (splitFrom (inCharset delimiters) [] s).isEmpty then none
      else some (splitFrom (inCharset delimiters) [] s) := by
  have h := foldl_splitStep delimiters [] [] s []
  simp only [List.nil_append, List.length_nil] at h
  rw [stringSplit, List.range_eq_range', h]

/-- Only the empty text has no token. -/
theorem stringSplit_eq_none_iff {s delimiters : CString} :
    stringSplit s delimiters = none ↔ s = [] := by
  have hne : ∀ (s token : CString), s ≠ [] → splitFrom (inCharset delimiters) token s ≠ [] := by
    intro s
    induction s with
    | nil => intro token h; exact absurd rfl h
    | cons c cs ih =>
        intro token _
        cases cs with
        | nil => simp [splitFrom]
        | cons d ds =>
            rw [splitFrom_cons_cons]
            split
            · split
              · exact ih _ (by simp)
              · simp
            · exact ih _ (by simp)
  rw [stringSplit_eq_splitFrom]
  constructor
  · intro h
    by_contra hs
    rw [if_neg (by simpa using hne s [] hs)] at h
    simp at h
  · rintro rfl
    rfl

/-- The tokens of any other text. -/
theorem stringSplit_eq_some {s delimiters : CString} (hs : s ≠ []) :
    stringSplit s delimiters = some (splitFrom (inCharset delimiters) [] s) := by
  have hnone : stringSplit s delimiters ≠ none := mt stringSplit_eq_none_iff.1 hs
  rw [stringSplit_eq_splitFrom] at hnone ⊢
  split
  · rename_i hempty
    exact absurd (if_pos hempty) hnone
  · rfl

/-! ### Tokens are runs -/

/-- The tokens are the runs, and one empty token when the last character is a delimiter that ends
none. -/
theorem exists_splitFrom_eq {p : UInt8 → Bool} {t : CString} (ht : ∀ x ∈ t, p x = false)
    {s : CString} (hne : s ≠ []) : ∃ e, splitFrom p t s = Tokens.runs p (t ++ s) ++ e ∧
      (e = [] ∨ e = [[]] ∧ ∃ c ∈ s.getLast?, p c) := by
  induction s generalizing t with
  | nil => exact absurd rfl hne
  | cons c cs ih =>
      have htc : p c = false → ∀ x ∈ t ++ [c], p x = false := by
        intro hc x hx
        rcases List.mem_append.1 hx with hx | hx
        · exact ht x hx
        · rw [List.mem_singleton.1 hx, hc]
      cases cs with
      | nil =>
          cases hc : p c with
          | true =>
              rw [splitFrom, hc, if_pos rfl, Tokens.runs_append_singleton p _ hc]
              by_cases hte : t = []
              · exact ⟨[[]], by simp [hte], Or.inr ⟨rfl, c, by simp, hc⟩⟩
              · exact ⟨[], by rw [Tokens.runs_eq_singleton p hte ht, List.append_nil], Or.inl rfl⟩
          | false =>
              refine ⟨[], ?_, Or.inl rfl⟩
              rw [splitFrom, hc, if_neg (by simp), Tokens.runs_eq_singleton p (by simp) (htc hc),
                List.append_nil]
      | cons d ds =>
          rw [splitFrom_cons_cons, List.getLast?_cons_cons]
          cases hc : p c with
          | true =>
              obtain ⟨e, he, hlast⟩ := ih (t := []) (by simp) (by simp)
              refine ⟨e, ?_, hlast⟩
              rw [if_pos rfl, he, List.nil_append]
              by_cases hte : t = []
              · rw [if_pos hte, hte, List.nil_append, Tokens.runs_cons_of_pos p _ hc]
              · rw [if_neg hte, Tokens.runs_append_cons_of_free p hte ht _ hc, List.cons_append]
          | false =>
              obtain ⟨e, he, hlast⟩ := ih (t := t ++ [c]) (htc hc) (by simp)
              refine ⟨e, ?_, hlast⟩
              rw [if_neg (by simp), he]
              simp

/-- The tokens of a text are its runs, with an empty one behind them at most. -/
theorem exists_stringSplit_eq {s : CString} (hne : s ≠ []) (delimiters : CString) :
    ∃ e, stringSplit s delimiters = some (Tokens.runs (inCharset delimiters) s ++ e)
      ∧ (e = [] ∨ e = [[]]) := by
  obtain ⟨e, he, hor⟩ := exists_splitFrom_eq (p := inCharset delimiters) (t := []) (by simp) hne
  rw [List.nil_append] at he
  exact ⟨e, by rw [stringSplit_eq_some hne, he], hor.imp_right And.left⟩

/-- **A text that does not end in a delimiter splits into its runs.** -/
theorem stringSplit_eq_runs {s delimiters : CString} (hne : s ≠ [])
    (hlast : ∀ c ∈ s.getLast?, c ∉ delimiters) :
    stringSplit s delimiters = some (Tokens.runs (inCharset delimiters) s) := by
  obtain ⟨e, he, hor⟩ := exists_splitFrom_eq (p := inCharset delimiters) (t := []) (by simp) hne
  rcases hor with rfl | ⟨-, c, hc, hp⟩
  · rw [stringSplit_eq_some hne, he, List.nil_append, List.append_nil]
  · exact absurd (inCharset_iff.1 hp) (hlast c hc)

/-- The tokens of a text with delimiters behind it: an empty one is the last, unless a single
delimiter closes the last run. -/
theorem splitFrom_append_delimiters {p : UInt8 → Bool} {t : CString} (ht : ∀ x ∈ t, p x = false)
    (s : CString) {d : UInt8} {ds : CString} (hd : p d) (hds : ∀ x ∈ ds, p x) :
    splitFrom p t (s ++ d :: ds) = Tokens.runs p (t ++ s) ++
      if ds = [] ∧ (t ++ s).getLast?.any (fun c => !p c) then [] else [[]] := by
  have hempty : ∀ {ds : CString} {d : UInt8}, p d → (∀ x ∈ ds, p x) →
      splitFrom p [] (d :: ds) = [[]] := by
    intro ds
    induction ds with
    | nil => intro d hd _; simp [splitFrom, hd]
    | cons e es ih =>
        intro d hd hds
        rw [splitFrom_cons_cons, hd, if_pos rfl, if_pos rfl]
        exact ih (hds e (by simp)) fun x hx => hds x (by simp [hx])
  induction s generalizing t with
  | nil =>
      rw [List.nil_append, List.append_nil]
      by_cases hte : t = []
      · rw [hte, hempty hd hds]
        simp
      · have hlast : t.getLast?.any (fun c => !p c) = true := by
          rw [List.getLast?_eq_some_getLast hte, Option.any_some, ht _ (List.getLast_mem hte)]
          rfl
        rw [Tokens.runs_eq_singleton p hte ht, hlast]
        cases ds with
        | nil => simp [splitFrom, hd]
        | cons e es =>
            rw [splitFrom_cons_cons, hd, if_pos rfl, if_neg hte,
              hempty (hds e (by simp)) fun x hx => hds x (by simp [hx])]
            simp
  | cons c cs ih =>
      obtain ⟨e, es, hes⟩ := List.exists_cons_of_ne_nil (show cs ++ d :: ds ≠ [] by simp)
      rw [List.cons_append, hes, splitFrom_cons_cons, ← hes]
      cases hc : p c with
      | false =>
          have htc : ∀ x ∈ t ++ [c], p x = false := by
            intro x hx
            rcases List.mem_append.1 hx with hx | hx
            · exact ht x hx
            · rw [List.mem_singleton.1 hx, hc]
          rw [if_neg (by simp), ih htc, ← List.append_cons]
      | true =>
          have hlast : (t ++ c :: cs).getLast?.any (fun c => !p c) =
              cs.getLast?.any (fun c => !p c) := by
            rw [List.append_cons]
            cases cs with
            | nil => simp [hc]
            | cons f fs => rw [List.getLast?_append_of_ne_nil _ (by simp)]
          rw [if_pos rfl, hlast, ih (t := []) (by simp), List.nil_append]
          by_cases hte : t = []
          · rw [if_pos hte, hte, List.nil_append, Tokens.runs_cons_of_pos p _ hc]
          · rw [if_neg hte, Tokens.runs_append_cons_of_free p hte ht _ hc, List.cons_append]

/-- The tokens of a text with delimiters behind it. -/
theorem stringSplit_append_delimiters (s : CString) {d : UInt8} {ds delimiters : CString}
    (hd : d ∈ delimiters) (hds : ∀ x ∈ ds, x ∈ delimiters) :
    stringSplit (s ++ d :: ds) delimiters = some (Tokens.runs (inCharset delimiters) s ++
      if ds = [] ∧ s.getLast?.any (fun c => !inCharset delimiters c) then [] else [[]]) := by
  rw [stringSplit_eq_some (by simp), splitFrom_append_delimiters (by simp) s (inCharset_iff.2 hd)
    fun x hx => inCharset_iff.2 (hds x hx), List.nil_append]

/-- A text closed by one delimiter is its own only token. -/
theorem stringSplit_append_singleton {s delimiters : CString} {d : UInt8} (hne : s ≠ [])
    (hfree : ∀ c ∈ s, c ∉ delimiters) (hd : d ∈ delimiters) :
    stringSplit (s ++ [d]) delimiters = some [s] := by
  have hfree' : ∀ c ∈ s, inCharset delimiters c = false :=
    fun c hc => inCharset_eq_false_iff.2 (hfree c hc)
  have hlast : s.getLast?.any (fun c => !inCharset delimiters c) = true := by
    rw [List.getLast?_eq_some_getLast hne, Option.any_some, hfree' _ (List.getLast_mem hne)]
    rfl
  rw [stringSplit_append_delimiters s hd (by simp), if_pos ⟨rfl, hlast⟩, List.append_nil,
    Tokens.runs_eq_singleton _ hne hfree']

/-- **A fold that passes over empty tokens** is the fold over the runs, for any text. -/
theorem foldl_stringSplit {β : Type*} {f : β → CString → β} (hf : ∀ b, f b [] = b)
    (s delimiters : CString) (b : β) :
    ((stringSplit s delimiters).getD []).foldl f b =
      (Tokens.runs (inCharset delimiters) s).foldl f b := by
  by_cases hs : s = []
  · rw [stringSplit_eq_none_iff.2 hs, hs]
    simp
  · obtain ⟨e, he, hor⟩ := exists_stringSplit_eq hs delimiters
    rw [he, Option.getD_some, List.foldl_append]
    rcases hor with rfl | rfl
    · rfl
    · rw [List.foldl_cons, hf, List.foldl_nil]

/-! ### Texts without the characters of a set -/

/-- No character of the text belongs to the set. -/
def Free (charset text : CString) : Prop := ∀ c ∈ text, c ∉ charset

instance (charset text : CString) : Decidable (Free charset text) :=
  decidableForallMem text (· ∉ charset)

@[simp] theorem free_nil (charset : CString) : Free charset [] := by simp [Free]

@[simp] theorem free_cons {charset text : CString} {c : UInt8} :
    Free charset (c :: text) ↔ c ∉ charset ∧ Free charset text := by simp [Free]

@[simp] theorem free_append {charset s t : CString} :
    Free charset (s ++ t) ↔ Free charset s ∧ Free charset t := by
  simp only [Free, List.mem_append]
  exact ⟨fun h => ⟨fun c hc => h c (Or.inl hc), fun c hc => h c (Or.inr hc)⟩,
    fun h c hc => hc.elim (h.1 c) (h.2 c)⟩

/-- A text without the characters of a set is without those of a smaller one. -/
theorem Free.mono {small large text : CString} (h : Free large text)
    (hsub : ∀ c ∈ small, c ∈ large) : Free small text :=
  fun c hc hs => h c hc (hsub c hs)

/-- Texts made of the characters of one set are without those of a disjoint one. -/
theorem free_of_forall_mem {charset alphabet text : CString} (h : ∀ c ∈ text, c ∈ alphabet)
    (hdis : Free charset alphabet) : Free charset text :=
  fun c hc => hdis c (h c hc)

/-- A text without a character is without a set of this character alone. -/
theorem free_of_not_mem {charset text : CString} {d : UInt8} (hset : ∀ c ∈ charset, c = d)
    (h : d ∉ text) : Free charset text :=
  fun c hc hmem => h (hset c hmem ▸ hc)

theorem Free.inCharset_eq_false {charset text : CString} (h : Free charset text) :
    ∀ c ∈ text, inCharset charset c = false :=
  fun c hc => inCharset_eq_false_iff.2 (h c hc)

/-- The last character of a text with a free ending is not in the set. -/
theorem free_getLast?_append {charset s t : CString} (hne : t ≠ []) (h : Free charset t) :
    ∀ c ∈ (s ++ t).getLast?, c ∉ charset := by
  intro c hc
  rw [List.getLast?_append_of_ne_nil _ hne] at hc
  exact h c (List.mem_of_getLast? hc)

/-- A text without delimiters is its own only token. -/
theorem stringSplit_of_free {s delimiters : CString} (hne : s ≠ []) (h : Free delimiters s) :
    stringSplit s delimiters = some [s] := by
  rw [stringSplit_eq_runs hne (by simpa using free_getLast?_append (s := []) hne h),
    Tokens.runs_eq_singleton _ hne h.inCharset_eq_false]

/-! ### Joining with commas -/

/-- The texts with commas between them. -/
def joinComma : List CString → CString
  | [] => []
  | [t] => t
  | t :: u :: ts => t ++ 44 :: joinComma (u :: ts)

@[simp] theorem joinComma_singleton (t : CString) : joinComma [t] = t := rfl

theorem joinComma_cons {ts : List CString} (t : CString) (hne : ts ≠ []) :
    joinComma (t :: ts) = t ++ 44 :: joinComma ts := by
  cases ts with
  | nil => exact absurd rfl hne
  | cons u ts => rfl

/-- What is put behind the whole is put behind the last text. -/
theorem joinComma_append (ts : List CString) (t w : CString) :
    joinComma (ts ++ [t]) ++ w = joinComma (ts ++ [t ++ w]) := by
  induction ts with
  | nil => rfl
  | cons u ts ih =>
      rw [List.cons_append, List.cons_append, joinComma_cons u (by simp),
        joinComma_cons u (by simp), List.append_assoc, List.cons_append, ih]

/-- A comma behind the whole begins a further text. -/
theorem joinComma_append_comma (ts : List CString) (t u : CString) :
    joinComma (ts ++ [t]) ++ 44 :: u = joinComma (ts ++ [t, u]) := by
  induction ts with
  | nil => rfl
  | cons v ts ih =>
      rw [List.cons_append, List.cons_append, joinComma_cons v (by simp),
        joinComma_cons v (by simp), List.append_assoc, List.cons_append, ih]

/-- The texts before one of them end in commas, and those after it begin with commas. -/
theorem joinComma_append_cons (ts us : List CString) (t : CString) :
    joinComma (ts ++ t :: us) = ts.flatMap (· ++ [44]) ++ (t ++ us.flatMap (44 :: ·)) := by
  induction ts with
  | cons v ts ih =>
      rw [List.cons_append, joinComma_cons v (by simp), ih, List.flatMap_cons]
      simp
  | nil =>
      induction us generalizing t with
      | nil => simp
      | cons u us ih =>
          have h := ih u
          simp only [List.nil_append, List.flatMap_nil] at h ⊢
          rw [joinComma_cons t (by simp), h, List.flatMap_cons]
          simp

theorem free_joinComma {charset : CString} (hcomma : 44 ∉ charset) {ts : List CString}
    (h : ∀ t ∈ ts, Free charset t) : Free charset (joinComma ts) := by
  induction ts with
  | nil => simp [joinComma]
  | cons t ts ih =>
      by_cases hne : ts = []
      · subst hne
        simpa using h t (by simp)
      · rw [joinComma_cons t hne, free_append, free_cons]
        exact ⟨h t (by simp), hcomma, ih fun u hu => h u (by simp [hu])⟩

/-- **Splitting at commas undoes joining with commas.** -/
theorem stringSplit_joinComma {ts : List CString} (hts : ts ≠ []) (hne : ∀ t ∈ ts, t ≠ [])
    (hfree : ∀ t ∈ ts, Free (ascii ",") t) : stringSplit (joinComma ts) (ascii ",") = some ts := by
  have hruns : ∀ ts : List CString, ts ≠ [] → (∀ t ∈ ts, t ≠ []) →
      (∀ t ∈ ts, Free (ascii ",") t) →
      Tokens.runs (inCharset (ascii ",")) (joinComma ts) = ts := by
    intro ts hts hne hfree
    induction ts with
    | nil => exact absurd rfl hts
    | cons t ts ih =>
        have ht := (hfree t (by simp)).inCharset_eq_false
        by_cases htail : ts = []
        · subst htail
          exact Tokens.runs_eq_singleton _ (hne t (by simp)) ht
        · rw [joinComma_cons t htail,
            Tokens.runs_append_cons_of_free _ (hne t (by simp)) ht _ (by decide),
            ih htail (fun u hu => hne u (by simp [hu])) fun u hu => hfree u (by simp [hu])]
  obtain ⟨init, last, rfl⟩ : ∃ init last, ts = init ++ [last] :=
    ⟨ts.dropLast, ts.getLast hts, (List.dropLast_append_getLast hts).symm⟩
  have hlast : last ≠ [] := hne last (by simp)
  have hjoin : joinComma (init ++ [last]) = joinComma (init ++ [[]]) ++ last := by
    rw [joinComma_append, List.nil_append]
  rw [stringSplit_eq_runs, hruns _ hts hne hfree]
  · rw [hjoin]
    simp [hlast]
  · rw [hjoin]
    exact free_getLast?_append hlast (hfree last (by simp))

end NvIpfix
