/-
**Accesses to character maps.**

`nvipfix_string_split`, `nvipfix_string_contains_only` and `nvipfix_string_trim` keep a set of
characters in an array of `SizeofCharset` entries, which is to have one for every `char`.  It is
indexed by `(size_t)` of a signed `char`: a byte from 128 on is a negative character, and its index
is far behind the array.  The maps of this module keep account of the indices that they are accessed
with.

Trimming works in place, in the buffer of its argument: a loop from the end writes terminators, a
scan from the start stops at the first one, and what lies between is moved to the front.

Main definitions:

* `NvIpfix.CharacterMap` — a map with its accesses;
* `NvIpfix.nvipfixStringContainsOnly`, `NvIpfix.nvipfixStringTrim` — the functions, with their maps.

Main results:

* `NvIpfix.cstringOf_nvipfixStringTrim` — **trimming in place removes the margins**;
* `NvIpfix.nvipfixStringContainsOnly_inRange_iff`, `NvIpfix.nvipfixStringTrim_inRange_iff` — **when
  all accesses are in range**.
-/

import NvIpfix.CString

set_option relaxedAutoImplicit false
set_option autoImplicit false

namespace NvIpfix

/-- `SizeofCharset`. -/
def sizeofCharset : ℕ := 1 <<< (1 * 8)

/-- A map and the indices that it has been accessed with. -/
structure CharacterMap where
  entries : ℕ → Bool := fun _ => false
  accessed : List ℕ := []

namespace CharacterMap

/-- Reading the entry of a character. -/
def get (map : CharacterMap) (c : UInt8) : Bool × CharacterMap :=
  (map.entries (charsetIndex c), { map with accessed := map.accessed ++ [charsetIndex c] })

/-- Setting the entry of a character. -/
def set (map : CharacterMap) (c : UInt8) : CharacterMap where
  entries := Function.update map.entries (charsetIndex c) true
  accessed := map.accessed ++ [charsetIndex c]

/-- The loop that fills a map. -/
def ofCharset (charset : CString) : CharacterMap := charset.foldl set {}

/-- The map after some characters have been read. -/
def reads (map : CharacterMap) (s : List UInt8) : CharacterMap :=
  { map with accessed := map.accessed ++ s.map charsetIndex }

/-- All accesses are to entries of the array. -/
def InRange (map : CharacterMap) : Prop := ∀ i ∈ map.accessed, i < sizeofCharset

instance (map : CharacterMap) : Decidable map.InRange :=
  inferInstanceAs (Decidable (∀ i ∈ map.accessed, i < sizeofCharset))

section Accesses

variable (map : CharacterMap)

theorem get_eq (c : UInt8) : map.get c = (map.entries (charsetIndex c), map.reads [c]) := rfl

@[simp] theorem entries_reads (s : List UInt8) : (map.reads s).entries = map.entries := rfl

@[simp] theorem reads_nil : map.reads [] = map := by simp [reads]

@[simp] theorem reads_reads (s t : List UInt8) : (map.reads s).reads t = map.reads (s ++ t) := by
  simp [reads]

end Accesses

/-- **An index is in range for the characters below 128.** -/
theorem charsetIndex_lt_iff {c : UInt8} : charsetIndex c < sizeofCharset ↔ c < 128 := by
  have hsize : sizeofCharset = 256 := rfl
  have hlt := c.toNat_lt
  rw [charsetIndex, hsize]
  split
  · rename_i h
    exact iff_of_true (by omega) h
  · rename_i h
    exact iff_of_false (by omega) h

variable {map : CharacterMap}

theorem inRange_reads {s : List UInt8} :
    (map.reads s).InRange ↔ map.InRange ∧ ∀ c ∈ s, c < 128 := by
  simp only [InRange, reads, List.mem_append, List.mem_map]
  constructor
  · intro h
    exact ⟨fun i hi => h i (Or.inl hi),
      fun c hc => charsetIndex_lt_iff.1 (h _ (Or.inr ⟨c, hc, rfl⟩))⟩
  · rintro ⟨hmap, hs⟩ i (hi | ⟨c, hc, rfl⟩)
    · exact hmap i hi
    · exact charsetIndex_lt_iff.2 (hs c hc)

/-- The filled map has the entries of its characters, and no other access was made. -/
theorem ofCharset_eq (charset : CString) : ofCharset charset =
    { entries := charsetMap charset, accessed := charset.map charsetIndex } := by
  have hloop : ∀ map : CharacterMap, charset.foldl set map =
      { entries := fun i => map.entries i || charsetMap charset i
        accessed := map.accessed ++ charset.map charsetIndex } := by
    induction charset with
    | nil =>
        intro map
        simp [charsetMap]
    | cons c cs ih =>
        intro map
        rw [List.foldl_cons, ih]
        simp only [set, charsetMap, List.any_cons, List.map_cons, List.append_assoc,
          List.singleton_append, CharacterMap.mk.injEq, and_true]
        funext i
        by_cases hi : i = charsetIndex c
        · subst hi
          simp
        · rw [Function.update_of_ne hi, beq_eq_false_iff_ne.2 (Ne.symm hi), Bool.false_or]
  rw [ofCharset, hloop]
  simp

@[simp] theorem entries_ofCharset (charset : CString) (c : UInt8) :
    (ofCharset charset).entries (charsetIndex c) = inCharset charset c := by
  rw [ofCharset_eq, inCharset]

theorem inRange_ofCharset {charset : CString} :
    (ofCharset charset).InRange ↔ ∀ c ∈ charset, c < 128 := by
  rw [ofCharset_eq, InRange]
  simp only [List.mem_map, forall_exists_index, and_imp, forall_apply_eq_imp_iff₂,
    charsetIndex_lt_iff]

end CharacterMap

/-- The first character that is not in the set, and all before it: what a scan reads. -/
def scanned (charset s : CString) : CString :=
  s.takeWhile (inCharset charset) ++ (s.find? fun c => !inCharset charset c).toList

section Scanned

variable {charset s : CString} {c : UInt8}

theorem scanned_cons_of_mem (hc : inCharset charset c = true) :
    scanned charset (c :: s) = c :: scanned charset s := by
  simp [scanned, hc]

theorem scanned_cons_of_not_mem (hc : inCharset charset c = false) :
    scanned charset (c :: s) = [c] := by
  simp [scanned, hc]

/-- Beyond the characters of the set, a scan reads one. -/
theorem forall_scanned_iff {p : UInt8 → Prop} (hcharset : ∀ c ∈ charset, p c) :
    (∀ c ∈ scanned charset s, p c) ↔ ∀ c ∈ s.find? fun c => !inCharset charset c, p c := by
  simp only [scanned, List.mem_append, Option.mem_toList]
  constructor
  · intro h c hc
    exact h c (Or.inr hc)
  · rintro h c (hc | hc)
    · exact hcharset c (inCharset_iff.1 (List.mem_takeWhile_imp hc))
    · exact h c hc

end Scanned

/-! ### `nvipfix_string_contains_only` -/

/-- The loop over the characters of the string. -/
def containsOnlyLoop (map : CharacterMap) : CString → Bool × CharacterMap
  | [] => (true, map)
  | c :: cs =>
      let (entry, map) := map.get c
      if !entry then (false, map) else containsOnlyLoop map cs

/-- `nvipfix_string_contains_only`, with its map. -/
def nvipfixStringContainsOnly (s charset : CString) : Bool × CharacterMap :=
  containsOnlyLoop (.ofCharset charset) s

theorem containsOnlyLoop_eq (charset s done : CString) :
    containsOnlyLoop ((CharacterMap.ofCharset charset).reads done) s =
      (s.all (inCharset charset),
        (CharacterMap.ofCharset charset).reads (done ++ scanned charset s)) := by
  induction s generalizing done with
  | nil => simp [containsOnlyLoop, scanned]
  | cons c cs ih =>
      rw [containsOnlyLoop, CharacterMap.get_eq]
      simp only [CharacterMap.entries_reads, CharacterMap.entries_ofCharset,
        CharacterMap.reads_reads]
      cases hc : inCharset charset c with
      | true => simp [ih, scanned_cons_of_mem hc, hc]
      | false => simp [scanned_cons_of_not_mem hc, hc]

/-- The result says whether all characters are in the set. -/
theorem nvipfixStringContainsOnly_eq (s charset : CString) :
    nvipfixStringContainsOnly s charset =
      (s.all (inCharset charset), (CharacterMap.ofCharset charset).reads (scanned charset s)) := by
  have h := containsOnlyLoop_eq charset s []
  rwa [CharacterMap.reads_nil, List.nil_append] at h

/-- **When all accesses are in range**: in the set, and up to the first character outside of it. -/
theorem nvipfixStringContainsOnly_inRange_iff {s charset : CString} :
    (nvipfixStringContainsOnly s charset).2.InRange ↔
      (∀ c ∈ charset, c < 128) ∧ ∀ c ∈ s.find? fun c => !inCharset charset c, c < 128 := by
  rw [nvipfixStringContainsOnly_eq, CharacterMap.inRange_reads, CharacterMap.inRange_ofCharset]
  exact and_congr_right fun hcharset => forall_scanned_iff hcharset

/-! ### `nvipfix_string_trim` -/

/-- The loop from the end, which writes terminators over the characters of the set. -/
def trimEndLoop (map : CharacterMap) (buffer : List UInt8) : ℕ → List UInt8 × CharacterMap
  | 0 => (buffer, map)
  | i + 1 =>
      let (entry, map) := map.get (buffer.getD i 0)
      if !entry then (buffer, map) else trimEndLoop map (buffer.set i 0) i

/-- The scan from the start: the number of characters that it skips. -/
def trimStartLoop (map : CharacterMap) : List UInt8 → ℕ × CharacterMap
  | [] => (0, map)
  | c :: cs =>
      if c = 0 then (0, map)
      else
        let (entry, map) := map.get c
        if entry then
          let (srcI, map) := trimStartLoop map cs
          (srcI + 1, map)
        else (0, map)

/-- `memmove` of the string at an index to the front of its buffer, with a terminator behind it. -/
def moveToFront (buffer : List UInt8) (srcI : ℕ) : List UInt8 :=
  if 0 < srcI then
    let sLen := (cstringOf (buffer.drop srcI)).length
    ((buffer.drop srcI).take sLen ++ buffer.drop sLen).set sLen 0
  else buffer

/-- `nvipfix_string_trim` on the buffer of a string, with its map. -/
def nvipfixStringTrim (buffer : List UInt8) (trimChars : Option CString) :
    List UInt8 × CharacterMap :=
  let map := CharacterMap.ofCharset (trimChars.getD defaultTrimChars)
  let (buffer, map) := trimEndLoop map buffer (cstringOf buffer).length
  let (srcI, map) := trimStartLoop map buffer
  (moveToFront buffer srcI, map)

section Trim

variable {charset : CString}

/-- The loop from the end reads up to a character that is not in the set, and the characters behind
that become terminators. -/
theorem trimEndLoop_eq (charset s t done : CString) :
    trimEndLoop ((CharacterMap.ofCharset charset).reads done) (s ++ t) s.length =
      (s.rdropWhile (inCharset charset) ++
          (List.replicate (s.rtakeWhile (inCharset charset)).length 0 ++ t),
        (CharacterMap.ofCharset charset).reads (done ++ scanned charset s.reverse)) := by
  induction s using List.reverseRecOn generalizing t done with
  | nil => simp [trimEndLoop, scanned]
  | append_singleton s c ih =>
      have hget : (s ++ [c] ++ t).getD s.length 0 = c := by
        simp [List.getD_eq_getElem?_getD]
      have hset : (s ++ [c] ++ t).set s.length 0 = s ++ 0 :: t := by
        simp
      rw [List.length_append, List.length_singleton, trimEndLoop, CharacterMap.get_eq, hget, hset]
      simp only [CharacterMap.entries_reads, CharacterMap.entries_ofCharset,
        CharacterMap.reads_reads]
      rw [List.reverse_append, List.reverse_singleton, List.singleton_append]
      cases hc : inCharset charset c with
      | true =>
          rw [if_neg (by simp), ih, scanned_cons_of_mem hc, List.rdropWhile_concat_pos _ _ _ hc,
            List.rtakeWhile_concat_pos _ _ _ hc, List.length_append, List.length_singleton,
            List.replicate_succ']
          simp
      | false =>
          rw [if_pos (by decide), scanned_cons_of_not_mem hc,
            List.rdropWhile_concat_neg _ _ _ (by simp [hc]),
            List.rtakeWhile_concat_neg _ _ _ (by simp [hc])]
          simp

/-- The scan from the start passes over the characters of the set. -/
theorem trimStartLoop_eq (charset done : CString) (buffer : List UInt8) :
    trimStartLoop ((CharacterMap.ofCharset charset).reads done) buffer =
      (((cstringOf buffer).takeWhile (inCharset charset)).length,
        (CharacterMap.ofCharset charset).reads (done ++ scanned charset (cstringOf buffer))) := by
  induction buffer generalizing done with
  | nil => simp [trimStartLoop, cstringOf, scanned]
  | cons c cs ih =>
      rw [trimStartLoop]
      by_cases hzero : c = 0
      · subst hzero
        simp [cstringOf, scanned]
      · have hcons : cstringOf (c :: cs) = c :: cstringOf cs := by
          rw [cstringOf, List.takeWhile_cons_of_pos (by simpa using hzero), cstringOf]
        rw [if_neg hzero, CharacterMap.get_eq, hcons]
        simp only [CharacterMap.entries_reads, CharacterMap.entries_ofCharset,
          CharacterMap.reads_reads]
        cases hc : inCharset charset c with
        | true => simp [ih, scanned_cons_of_mem hc, hc]
        | false => simp [scanned_cons_of_not_mem hc, hc]

/-- No terminator is in front of the first one. -/
theorem zero_not_mem_cstringOf (buffer : List UInt8) : 0 ∉ cstringOf buffer := by
  intro h
  have hne := List.mem_takeWhile_imp h
  simp at hne

/-- A buffer is a string and what begins with its terminator. -/
theorem exists_eq_cstringOf_append (buffer : List UInt8) :
    ∃ rest, buffer = cstringOf buffer ++ rest ∧ cstringOf rest = [] := by
  have hsplit : buffer = cstringOf buffer ++ buffer.dropWhile (· != 0) :=
    List.takeWhile_append_dropWhile.symm
  refine ⟨buffer.dropWhile (· != 0), hsplit, ?_⟩
  have hself : cstringOf buffer ++ cstringOf (buffer.dropWhile (· != 0)) = cstringOf buffer := by
    conv_rhs => rw [cstringOf, hsplit, takeWhile_bne_append (zero_not_mem_cstringOf buffer)]
    rfl
  exact List.append_right_eq_self.1 hself

/-- A buffer with a terminator. -/
theorem exists_eq_cstringOf_append_cons {buffer : List UInt8} (hzero : 0 ∈ buffer) :
    ∃ rest, buffer = cstringOf buffer ++ 0 :: rest := by
  obtain ⟨rest, hbuffer, hrest⟩ := exists_eq_cstringOf_append buffer
  rw [hbuffer] at hzero
  have hmem := (List.mem_append.1 hzero).resolve_left (zero_not_mem_cstringOf buffer)
  cases rest with
  | nil => cases hmem
  | cons c rest =>
      by_cases hc : c = 0
      · exact ⟨rest, by rw [← hc, ← hbuffer]⟩
      · rw [cstringOf, List.takeWhile_cons_of_pos (by simpa using hc)] at hrest
        cases hrest

/-- The string that is moved to the front of its buffer, and what is behind its new terminator. -/
theorem moveToFront_eq {left t : CString} (hfree : 0 ∉ t) (z : List UInt8) :
    moveToFront (left ++ t ++ 0 :: z) left.length =
      t ++ 0 :: ((left ++ t ++ [0]).drop (t.length + 1) ++ z) := by
  have hdrop : (left ++ t ++ 0 :: z).drop left.length = t ++ 0 :: z := by
    rw [List.append_assoc, List.drop_left]
  unfold moveToFront
  by_cases hpos : 0 < left.length
  · have hlt : t.length < (left ++ t ++ 0 :: z).length := by
      simp only [List.length_append, List.length_cons]
      omega
    have hle : t.length + 1 ≤ (left ++ t ++ [0]).length := by
      simp only [List.length_append, List.length_singleton]
      omega
    rw [if_pos hpos, hdrop, cstringOf_append hfree]
    dsimp only
    -- the terminator takes the place of what was behind the moved string
    rw [List.take_left, List.drop_eq_getElem_cons hlt, List.set_append_right _ _ le_rfl,
      Nat.sub_self, List.set_cons_zero, List.append_cons (left ++ t) 0 z,
      List.drop_append_of_le_length hle]
  · obtain rfl : left = [] := List.eq_nil_of_length_eq_zero (by omega)
    rw [if_neg hpos, List.nil_append, List.drop_of_length_le (by simp), List.nil_append]

/-- What is seen of the buffer between the two loops. -/
theorem cstringOf_trimEnd {s t : CString} (hs : 0 ∉ s) (hhead : cstringOf t = []) (n : ℕ)
    (p : UInt8 → Bool) :
    cstringOf (s.rdropWhile p ++ (List.replicate n 0 ++ t)) = s.rdropWhile p := by
  have hfree : 0 ∉ s.rdropWhile p := fun hmem => hs ((List.rdropWhile_prefix p s).mem hmem)
  cases n with
  | zero =>
      rw [List.replicate_zero, List.nil_append, cstringOf, takeWhile_bne_append hfree, ← cstringOf,
        hhead, List.append_nil]
  | succ n =>
      rw [List.replicate_succ, List.cons_append]
      exact cstringOf_append hfree _

/-- What trimming does to a buffer, and what it reads. -/
theorem nvipfixStringTrim_eq (buffer : List UInt8) (trimChars : Option CString)
    (hcharset : trimChars.getD defaultTrimChars = charset) :
    ∃ trimmed : List UInt8,
      cstringOf trimmed = (cstringOf buffer).rdropWhile (inCharset charset) ∧
      nvipfixStringTrim buffer trimChars =
        (moveToFront trimmed ((cstringOf trimmed).takeWhile (inCharset charset)).length,
          (CharacterMap.ofCharset charset).reads
            (scanned charset (cstringOf buffer).reverse ++
              scanned charset (cstringOf trimmed))) := by
  obtain ⟨rest, hbuffer, hrest⟩ := exists_eq_cstringOf_append buffer
  have hend := trimEndLoop_eq charset (cstringOf buffer) rest []
  rw [CharacterMap.reads_nil, ← hbuffer, List.nil_append] at hend
  refine ⟨_, cstringOf_trimEnd (zero_not_mem_cstringOf buffer) hrest
    ((cstringOf buffer).rtakeWhile (inCharset charset)).length _, ?_⟩
  rw [nvipfixStringTrim, hcharset, hend]
  dsimp only
  rw [trimStartLoop_eq]

/-- The buffer between the two loops, if it has a terminator. -/
theorem trimEndLoop_append (charset s rest : List UInt8) :
    trimEndLoop (CharacterMap.ofCharset charset) (s ++ 0 :: rest) s.length =
      (s.rdropWhile (inCharset charset) ++
          0 :: (List.replicate (s.rtakeWhile (inCharset charset)).length 0 ++ rest),
        (CharacterMap.ofCharset charset).reads (scanned charset s.reverse)) := by
  have hzeros : ∀ n, List.replicate n (0 : UInt8) ++ 0 :: rest =
      0 :: (List.replicate n 0 ++ rest) := by
    intro n
    rw [List.append_cons, ← List.replicate_succ', List.replicate_succ, List.cons_append]
  have hend := trimEndLoop_eq charset s (0 :: rest) []
  rwa [CharacterMap.reads_nil, List.nil_append, hzeros] at hend

/-- **What trimming does to a buffer with a terminator**: the trimmed string comes first, and what
was behind the terminator stays where it was. -/
theorem nvipfixStringTrim_append {s : CString} (hs : 0 ∉ s) (rest : List UInt8)
    (trimChars : Option CString) :
    ∃ middle, (stringTrim s trimChars).length + middle.length = s.length ∧
      (nvipfixStringTrim (s ++ 0 :: rest) trimChars).1 =
        stringTrim s trimChars ++ 0 :: (middle ++ rest) := by
  obtain ⟨charset, hcharset⟩ : ∃ charset, trimChars.getD defaultTrimChars = charset := ⟨_, rfl⟩
  have hend := trimEndLoop_append charset s rest
  -- the string is its margins with the trimmed string between them
  obtain ⟨left, t, hleft, ht, hinner⟩ : ∃ left t,
      (s.rdropWhile (inCharset charset)).takeWhile (inCharset charset) = left ∧
      stringTrim s trimChars = t ∧ s.rdropWhile (inCharset charset) = left ++ t := by
    refine ⟨_, _, rfl, rfl, ?_⟩
    rw [stringTrim, hcharset, List.takeWhile_append_dropWhile]
  have hsplit := List.rdropWhile_append_rtakeWhile (p := inCharset charset) (l := s)
  rw [hinner] at hsplit hleft hend
  have hfree : 0 ∉ left ++ t := fun hmem => hs (hsplit ▸ List.mem_append_left _ hmem)
  refine ⟨(left ++ t ++ [0]).drop (t.length + 1) ++
    List.replicate (s.rtakeWhile (inCharset charset)).length 0, ?_, ?_⟩
  · have hlength := congrArg List.length hsplit
    rw [ht]
    simp only [List.length_append, List.length_drop, List.length_singleton,
      List.length_replicate] at hlength ⊢
    omega
  · rw [nvipfixStringTrim, hcharset, cstringOf_append hs, hend, ht]
    dsimp only
    rw [trimStartLoop_eq, cstringOf_append hfree, hleft,
      moveToFront_eq fun hmem => hfree (List.mem_append_right _ hmem)]
    simp only [List.append_assoc]

/-- **Trimming in place removes the margins**, and the buffer stays as long as it was. -/
theorem cstringOf_nvipfixStringTrim {buffer : List UInt8} (hzero : 0 ∈ buffer)
    (trimChars : Option CString) :
    cstringOf (nvipfixStringTrim buffer trimChars).1 = stringTrim (cstringOf buffer) trimChars ∧
      (nvipfixStringTrim buffer trimChars).1.length = buffer.length := by
  have hfree := zero_not_mem_cstringOf buffer
  obtain ⟨rest, hbuffer⟩ := exists_eq_cstringOf_append_cons hzero
  obtain ⟨middle, hlength, heq⟩ := nvipfixStringTrim_append hfree rest trimChars
  rw [← hbuffer] at heq
  rw [heq]
  refine ⟨cstringOf_append (fun hmem => hfree (Tokens.mem_of_mem_trim _ hmem)) _, ?_⟩
  conv_rhs => rw [hbuffer]
  simp only [List.length_append, List.length_cons]
  omega

/-- The first character outside of the set is there after the loop from the end. -/
theorem find?_rdropWhile (p : UInt8 → Bool) (s : CString) :
    (s.rdropWhile p).find? (fun c => !p c) = s.find? fun c => !p c := by
  conv_rhs => rw [← List.rdropWhile_append_rtakeWhile (p := p) (l := s), List.find?_append]
  have hnone : (s.rtakeWhile p).find? (fun c => !p c) = none := by
    rw [List.find?_eq_none]
    intro c hc
    simp [List.mem_rtakeWhile_imp hc]
  rw [hnone, Option.or_none]

/-- **When all accesses are in range**: in the set, and up to the first character outside of it
from both ends. -/
theorem nvipfixStringTrim_inRange_iff {buffer : List UInt8} {trimChars : Option CString}
    (hcharset : trimChars.getD defaultTrimChars = charset) :
    (nvipfixStringTrim buffer trimChars).2.InRange ↔
      (∀ c ∈ charset, c < 128) ∧
        (∀ c ∈ (cstringOf buffer).reverse.find? fun c => !inCharset charset c, c < 128) ∧
        ∀ c ∈ (cstringOf buffer).find? fun c => !inCharset charset c, c < 128 := by
  obtain ⟨trimmed, hstring, heq⟩ := nvipfixStringTrim_eq buffer trimChars hcharset
  rw [heq, CharacterMap.inRange_reads, CharacterMap.inRange_ofCharset]
  refine and_congr_right fun hin => ?_
  rw [List.forall_mem_append, forall_scanned_iff hin, forall_scanned_iff hin, hstring,
    find?_rdropWhile]

end Trim

end NvIpfix
