/-
**Trimming in memory.**

`nvipfix_string_trim` works in the buffer of its argument, and `nvipfix_string_trim_copy` on a
duplicate, which it then cuts down to what is left.  Memory is explicit: a block has its bytes from
its allocation to its release, and a string is a block with a terminator.  Reading or writing where
there is no block, behind a block or behind a character map is a fault.

Main definitions:

* `NvIpfix.ByteHeap` — the blocks that are live, with no address that is still to be given out;
* `NvIpfix.nvipfixStringTrimAt`, `NvIpfix.nvipfixStringDuplicate`, `NvIpfix.nvipfixStringTrimCopy`;
* `NvIpfix.WithoutMargins` — a string without its margins;
* `NvIpfix.ByteHeap.Trims` — what trimming leaves in memory.

Main results:

* `NvIpfix.nvipfixStringTrimAt_eq`, `NvIpfix.nvipfixStringTrimAt_again` — trimming in place, once
  and again;
* `NvIpfix.nvipfixStringTrimCopy_eq`, `NvIpfix.nvipfixStringTrimCopy_failure` — trimming a copy;
* `NvIpfix.ByteHeap.trims_stringTrim` — **trimming removes exactly the margins**.
-/

import NvIpfix.CharacterMap

set_option relaxedAutoImplicit false
set_option autoImplicit false

namespace NvIpfix

/-! ### Memory -/

/-- No block has an address that is still to be given out, after a write to a block. -/
theorem update_eq_none {blocks : ℕ → Option (List UInt8)} {next a : ℕ} {block : Option (List UInt8)}
    (fresh : ∀ b, next ≤ b → blocks b = none) (h : next ≤ a → block = none) :
    ∀ b, next ≤ b → Function.update blocks a block b = none := by
  intro b hb
  by_cases hab : b = a
  · subst hab
    rw [Function.update_self, h hb]
  · rw [Function.update_of_ne hab, fresh b hb]

/-- The blocks that are live, each with its bytes.  An address is the number of the block. -/
@[ext]
structure ByteHeap where
  next : ℕ
  blocks : ℕ → Option (List UInt8)
  /-- There was an access where no byte is. -/
  fault : Bool
  /-- No block has an address that is still to be given out. -/
  fresh : ∀ a, next ≤ a → blocks a = none

/-- What comes of a call of `realloc`. -/
inductive Reallocation
  | fails
  | stays
  | moves
  deriving DecidableEq, Repr

namespace ByteHeap

variable (h : ByteHeap)

/-- A fault, unless the access is to bytes of a block. -/
def require (inside : Bool) : ByteHeap := { h with fault := h.fault || !inside }

/-- The bytes that a pointer points to. -/
def bytes (p : Option ℕ) : List UInt8 := (p.bind h.blocks).getD []

/-- `strlen`. -/
def strlen (p : Option ℕ) : ℕ := (cstringOf (h.bytes p)).length

/-- Writing to a block. -/
def store (a : ℕ) (bytes : List UInt8) : ByteHeap where
  next := h.next
  blocks := Function.update h.blocks a ((h.blocks a).map fun _ => bytes)
  fault := h.fault || (h.blocks a).isNone
  fresh := update_eq_none h.fresh fun ha => congrArg (Option.map _) (h.fresh a ha)

/-- `free`. -/
def free (a : ℕ) : ByteHeap where
  next := h.next
  blocks := Function.update h.blocks a none
  fault := h.fault || (h.blocks a).isNone
  fresh := update_eq_none h.fresh fun _ => rfl

/-- A new block. -/
def allocate (bytes : List UInt8) : ByteHeap where
  next := h.next + 1
  blocks := Function.update h.blocks h.next (some bytes)
  fault := h.fault
  fresh := update_eq_none (fun b hb => h.fresh b (Nat.le_of_succ_le hb))
    fun ha => absurd ha (Nat.not_succ_le_self h.next)

/-- `malloc`, and what is written to the block. -/
def malloc (succeeds : Bool) (bytes : List UInt8) : Option ℕ × ByteHeap :=
  if succeeds then (some h.next, h.allocate bytes) else (none, h)

/-- `realloc` to a size that is not larger. -/
def realloc (outcome : Reallocation) (p : Option ℕ) (size : ℕ) : Option ℕ × ByteHeap :=
  match p, outcome with
  | _, .fails => (none, h)
  -- a new block, of which no byte is known
  | none, _ => (some h.next, h.allocate [])
  | some a, .stays => (some a, h.store a ((h.bytes p).take size))
  | some a, .moves => (some h.next, (h.allocate ((h.bytes p).take size)).free a)

end ByteHeap

/-! ### Functions -/

/-- `nvipfix_string_trim` at a pointer.  A buffer without a terminator is left behind its end. -/
def nvipfixStringTrimAt (s : Option ℕ) (trimChars : Option CString) (h : ByteHeap) :
    Option ℕ × ByteHeap :=
  match s with
  | none => (none, h)
  | some a =>
      let buffer := h.bytes s
      let (trimmed, map) := nvipfixStringTrim buffer trimChars
      (some a, (h.require (decide (0 ∈ buffer ∧ map.InRange))).store a trimmed)

/-- `nvipfix_string_duplicate`, with the outcome of its allocation. -/
def nvipfixStringDuplicate (succeeds : Bool) (s : Option ℕ) (h : ByteHeap) : Option ℕ × ByteHeap :=
  match s with
  | none => (none, h)
  | some _ =>
      let buffer := h.bytes s
      (h.require (decide (0 ∈ buffer))).malloc succeeds (cstringOf buffer ++ [0])

/-- The duplicate is cut down to what is left of it, or released. -/
def shrinkCopy (outcome : Reallocation) (copy : ℕ) (trimmed : Option ℕ) (h : ByteHeap) :
    Option ℕ × ByteHeap :=
  match h.realloc outcome trimmed (h.strlen trimmed + 1) with
  | (none, h) => (none, h.free copy)
  | (some result, h) => (some result, h)

/-- `nvipfix_string_trim_copy`, with the outcomes of `malloc` and `realloc`. -/
def nvipfixStringTrimCopy (succeeds : Bool) (outcome : Reallocation) (s : Option ℕ)
    (trimChars : Option CString) (h : ByteHeap) : Option ℕ × ByteHeap :=
  match nvipfixStringDuplicate succeeds s h with
  | (none, h) => (none, h)
  | (some copy, h) =>
      let (trimmed, h) := nvipfixStringTrimAt (some copy) trimChars h
      shrinkCopy outcome copy trimmed h

/-! ### Trimming in place -/

namespace ByteHeap

variable {h : ByteHeap} {a : ℕ} {block bytes : List UInt8}

@[simp] theorem require_true (h : ByteHeap) : h.require true = h := by
  simp [require]

theorem bytes_some (hblock : h.blocks a = some block) : h.bytes (some a) = block := by
  rw [ByteHeap.bytes, Option.bind_some, hblock, Option.getD_some]

theorem blocks_store (hblock : h.blocks a = some block) :
    (h.store a bytes).blocks = Function.update h.blocks a (some bytes) := by
  simp [store, hblock]

theorem fault_store (hblock : h.blocks a = some block) : (h.store a bytes).fault = h.fault := by
  simp [store, hblock]

theorem block_store (hblock : h.blocks a = some block) (bytes : List UInt8) :
    (h.store a bytes).blocks a = some bytes := by
  rw [blocks_store hblock, Function.update_self]

end ByteHeap

section Trim

variable {h : ByteHeap} {a : ℕ} {s rest : List UInt8} {trimChars : Option CString}

/-- On 7-bit strings, no access is behind the map. -/
theorem nvipfixStringTrim_inRange {buffer : List UInt8}
    (hascii : ∀ c ∈ trimChars.getD defaultTrimChars ++ cstringOf buffer, c < 128) :
    (nvipfixStringTrim buffer trimChars).2.InRange := by
  rw [List.forall_mem_append] at hascii
  refine (nvipfixStringTrim_inRange_iff rfl).2 ⟨hascii.1, fun c hc => ?_, fun c hc => ?_⟩
  · exact hascii.2 c (List.mem_reverse.1 (List.mem_of_find?_eq_some hc))
  · exact hascii.2 c (List.mem_of_find?_eq_some hc)

/-- **Trimming in place**: the trimmed string, its terminator, and what is behind the old one. -/
theorem nvipfixStringTrimAt_eq (hblock : h.blocks a = some (s ++ 0 :: rest)) (hs : 0 ∉ s)
    (hascii : ∀ c ∈ trimChars.getD defaultTrimChars ++ s, c < 128) :
    ∃ middle, (stringTrim s trimChars).length + middle.length = s.length ∧
      nvipfixStringTrimAt (some a) trimChars h =
        (some a, h.store a (stringTrim s trimChars ++ 0 :: (middle ++ rest))) := by
  obtain ⟨middle, hlength, heq⟩ := nvipfixStringTrim_append hs rest trimChars
  have hrange : (nvipfixStringTrim (s ++ 0 :: rest) trimChars).2.InRange := by
    refine nvipfixStringTrim_inRange ?_
    rwa [cstringOf_append hs]
  have hinside : decide (0 ∈ s ++ 0 :: rest ∧
      (nvipfixStringTrim (s ++ 0 :: rest) trimChars).2.InRange) = true :=
    decide_eq_true ⟨by simp, hrange⟩
  refine ⟨middle, hlength, ?_⟩
  rw [nvipfixStringTrimAt, ByteHeap.bytes_some hblock]
  dsimp only
  rw [hinside, heq, ByteHeap.require_true]

/-- A trimmed string is trimmed to itself. -/
theorem stringTrim_stringTrim (s : CString) (trimChars : Option CString) :
    stringTrim (stringTrim s trimChars) trimChars = stringTrim s trimChars :=
  Tokens.trim_trim _ s

/-- **Trimming again changes nothing.** -/
theorem nvipfixStringTrimAt_again (hblock : h.blocks a = some (stringTrim s trimChars ++ 0 :: rest))
    (hs : 0 ∉ s) (hascii : ∀ c ∈ trimChars.getD defaultTrimChars ++ s, c < 128) :
    nvipfixStringTrimAt (some a) trimChars h = (some a, h) := by
  have hsubset : ∀ c ∈ stringTrim s trimChars, c ∈ s := fun c hc => Tokens.mem_of_mem_trim _ hc
  rw [List.forall_mem_append] at hascii
  obtain ⟨middle, hlength, heq⟩ := nvipfixStringTrimAt_eq hblock (fun hmem => hs (hsubset 0 hmem))
    (List.forall_mem_append.2 ⟨hascii.1, fun c hc => hascii.2 c (hsubset c hc)⟩)
  rw [stringTrim_stringTrim] at hlength heq
  obtain rfl : middle = [] := List.eq_nil_of_length_eq_zero (by omega)
  rw [heq, List.nil_append]
  have hsame : h.store a (stringTrim s trimChars ++ 0 :: rest) = h := by
    ext1
    · rfl
    · rw [ByteHeap.blocks_store hblock, ← hblock, Function.update_eq_self]
    · exact ByteHeap.fault_store hblock
  rw [hsame]

end Trim

/-! ### Trimming a copy -/

/-- Memory with one more block. -/
structure ByteHeap.Extends (h h' : ByteHeap) (p : ℕ) (bytes : List UInt8) : Prop where
  new : h.blocks p = none
  blocks : h'.blocks = Function.update h.blocks p (some bytes)
  fault : h'.fault = h.fault

namespace ByteHeap.Extends

variable {h h' : ByteHeap} {p : ℕ} {bytes : List UInt8}

theorem allocate (h : ByteHeap) (bytes : List UInt8) : h.Extends (h.allocate bytes) h.next bytes :=
  ⟨h.fresh h.next le_rfl, rfl, rfl⟩

theorem block (hnew : h.Extends h' p bytes) : h'.blocks p = some bytes := by
  rw [hnew.blocks, Function.update_self]

theorem store (hnew : h.Extends h' p bytes) (bytes' : List UInt8) :
    h.Extends (h'.store p bytes') p bytes' where
  new := hnew.new
  blocks := by rw [blocks_store hnew.block, hnew.blocks, Function.update_idem]
  fault := by rw [fault_store hnew.block, hnew.fault]

/-- Without its new block, memory is as it was. -/
theorem free (hnew : h.Extends h' p bytes) :
    (h'.free p).blocks = h.blocks ∧ (h'.free p).fault = h.fault := by
  constructor
  · simp only [ByteHeap.free, hnew.blocks, Function.update_idem]
    rw [← hnew.new, Function.update_eq_self]
  · simp only [ByteHeap.free, hnew.block, hnew.fault, Option.isNone_some, Bool.or_false]

/-- The new block moves to another address. -/
theorem move (hnew : h.Extends h' p bytes) (bytes' : List UInt8) :
    h.Extends ((h'.allocate bytes').free p) h'.next bytes' := by
  have hblock := hnew.block
  have hnone := h'.fresh h'.next le_rfl
  have hne : h'.next ≠ p := by
    rintro rfl
    rw [hblock] at hnone
    cases hnone
  rw [hnew.blocks, Function.update_of_ne hne] at hnone
  refine ⟨hnone, ?_, ?_⟩
  · simp only [ByteHeap.free, ByteHeap.allocate, hnew.blocks]
    rw [Function.update_comm hne, Function.update_idem, ← hnew.new, Function.update_eq_self]
  · simp only [ByteHeap.free, ByteHeap.allocate, Function.update_of_ne hne.symm, hblock, hnew.fault,
      Option.isNone_some, Bool.or_false]

end ByteHeap.Extends

section Copy

variable {h h' : ByteHeap} {a p : ℕ} {s t rest : List UInt8} {trimChars : Option CString}
  {outcome : Reallocation}

/-- A duplicate is a new block with the string. -/
theorem nvipfixStringDuplicate_eq (hblock : h.blocks a = some (s ++ 0 :: rest)) (hs : 0 ∉ s)
    (succeeds : Bool) :
    nvipfixStringDuplicate succeeds (some a) h = h.malloc succeeds (s ++ [0]) := by
  have hinside : decide (0 ∈ s ++ 0 :: rest) = true := decide_eq_true (by simp)
  rw [nvipfixStringDuplicate, ByteHeap.bytes_some hblock, hinside, ByteHeap.require_true,
    cstringOf_append hs]

/-- The duplicate is cut down to its string. -/
theorem shrinkCopy_eq (hnew : h.Extends h' p (t ++ 0 :: rest)) (ht : 0 ∉ t)
    (houtcome : outcome ≠ .fails) :
    ∃ q h'', shrinkCopy outcome p (some p) h' = (some q, h'') ∧ h.Extends h'' q (t ++ [0]) := by
  have hbytes := ByteHeap.bytes_some hnew.block
  have hstrlen : h'.strlen (some p) = t.length := by
    rw [ByteHeap.strlen, hbytes, cstringOf_append ht]
  have htake : (h'.bytes (some p)).take (t.length + 1) = t ++ [0] := by
    rw [hbytes, List.append_cons]
    exact List.take_left' (by simp)
  cases outcome with
  | fails => exact absurd rfl houtcome
  | stays =>
      simp only [shrinkCopy, ByteHeap.realloc, hstrlen, htake]
      exact ⟨p, _, rfl, hnew.store _⟩
  | moves =>
      simp only [shrinkCopy, ByteHeap.realloc, hstrlen, htake]
      exact ⟨h'.next, _, rfl, hnew.move _⟩

/-- The trimmed duplicate. -/
theorem nvipfixStringTrimCopy_shrink (hblock : h.blocks a = some (s ++ 0 :: rest)) (hs : 0 ∉ s)
    (hascii : ∀ c ∈ trimChars.getD defaultTrimChars ++ s, c < 128) (outcome : Reallocation) :
    ∃ middle h', h.Extends h' h.next (stringTrim s trimChars ++ 0 :: middle) ∧
      nvipfixStringTrimCopy true outcome (some a) trimChars h =
        shrinkCopy outcome h.next (some h.next) h' := by
  have hnew := ByteHeap.Extends.allocate h (s ++ [0])
  obtain ⟨middle, -, heq⟩ := nvipfixStringTrimAt_eq hnew.block hs hascii
  refine ⟨middle ++ [], _, hnew.store _, ?_⟩
  simp only [nvipfixStringTrimCopy, nvipfixStringDuplicate_eq hblock hs, ByteHeap.malloc, if_true,
    heq]

/-- **Trimming a copy**: the result is a new block with the trimmed string. -/
theorem nvipfixStringTrimCopy_eq (hblock : h.blocks a = some (s ++ 0 :: rest)) (hs : 0 ∉ s)
    (hascii : ∀ c ∈ trimChars.getD defaultTrimChars ++ s, c < 128) (houtcome : outcome ≠ .fails) :
    ∃ p h', nvipfixStringTrimCopy true outcome (some a) trimChars h = (some p, h') ∧
      h.Extends h' p (stringTrim s trimChars ++ [0]) := by
  obtain ⟨middle, h', hnew, heq⟩ := nvipfixStringTrimCopy_shrink hblock hs hascii outcome
  rw [heq]
  exact shrinkCopy_eq hnew (fun hmem => hs (Tokens.mem_of_mem_trim _ hmem)) houtcome

/-- If memory runs out, nothing stays behind. -/
theorem nvipfixStringTrimCopy_failure (hblock : h.blocks a = some (s ++ 0 :: rest)) (hs : 0 ∉ s)
    (hascii : ∀ c ∈ trimChars.getD defaultTrimChars ++ s, c < 128) {succeeds : Bool}
    (hfails : succeeds = false ∨ outcome = .fails) :
    ∃ h', nvipfixStringTrimCopy succeeds outcome (some a) trimChars h = (none, h') ∧
      h'.blocks = h.blocks ∧ h'.fault = h.fault := by
  cases succeeds with
  | false =>
      refine ⟨h, ?_, rfl, rfl⟩
      simp only [nvipfixStringTrimCopy, nvipfixStringDuplicate_eq hblock hs, ByteHeap.malloc,
        Bool.false_eq_true, if_false]
  | true =>
      obtain rfl := hfails.resolve_left (by simp)
      obtain ⟨middle, h', hnew, heq⟩ := nvipfixStringTrimCopy_shrink hblock hs hascii .fails
      exact ⟨_, heq, hnew.free⟩

end Copy

/-! ### What trimming leaves -/

/-- A string without its longest prefix and its longest suffix of characters in a set: what begins
and ends with other characters, or is empty, between characters of the set. -/
def WithoutMargins (charset s t : CString) : Prop :=
  ∃ left right, s = left ++ t ++ right ∧ (∀ c ∈ left, c ∈ charset) ∧ (∀ c ∈ right, c ∈ charset) ∧
    (∀ c ∈ t.head?, c ∉ charset) ∧ ∀ c ∈ t.getLast?, c ∉ charset

/-- There is one string without margins, and trimming computes it. -/
theorem withoutMargins_iff {s t : CString} {trimChars : Option CString} :
    WithoutMargins (trimChars.getD defaultTrimChars) s t ↔ stringTrim s trimChars = t := by
  have htrim : stringTrim s trimChars =
      Tokens.trim (inCharset (trimChars.getD defaultTrimChars)) s := rfl
  simp only [htrim, Tokens.trim_eq_iff, WithoutMargins, inCharset_iff, inCharset_eq_false_iff]

/-- What trimming leaves of the string `s` at an address, which has `rest` behind its terminator:
the string `t`, in the buffer of `s` or, by `nvipfix_string_trim_copy`, in a block of its own. -/
structure ByteHeap.Trims (h : ByteHeap) (a : ℕ) (trimChars : Option CString)
    (s rest t : List UInt8) : Prop where
  margins : WithoutMargins (trimChars.getD defaultTrimChars) s t
  nothing : (∀ c ∈ s, c ∈ trimChars.getD defaultTrimChars) → t = []
  inPlace : ∃ middle h', nvipfixStringTrimAt (some a) trimChars h = (some a, h') ∧
    t.length + middle.length = s.length ∧
    h'.blocks = Function.update h.blocks a (some (t ++ 0 :: (middle ++ rest))) ∧
    h'.fault = h.fault ∧ nvipfixStringTrimAt (some a) trimChars h' = (some a, h')
  copy : ∀ outcome, outcome ≠ .fails → ∃ p h',
    nvipfixStringTrimCopy true outcome (some a) trimChars h = (some p, h') ∧
    h.Extends h' p (t ++ [0]) ∧ nvipfixStringTrimAt (some p) trimChars h' = (some p, h')

/-- **Trimming removes exactly the margins** of a 7-bit string, in place and in a copy, and trimming
again changes nothing. -/
theorem ByteHeap.trims_stringTrim {h : ByteHeap} {a : ℕ} {s rest : List UInt8}
    {trimChars : Option CString} (hblock : h.blocks a = some (s ++ 0 :: rest)) (hs : 0 ∉ s)
    (hascii : ∀ c ∈ trimChars.getD defaultTrimChars ++ s, c < 128) :
    h.Trims a trimChars s rest (stringTrim s trimChars) where
  margins := withoutMargins_iff.2 rfl
  nothing hall := (Tokens.trim_eq_nil_iff _).2 fun c hc => inCharset_iff.2 (hall c hc)
  inPlace := by
    obtain ⟨middle, hlength, heq⟩ := nvipfixStringTrimAt_eq hblock hs hascii
    exact ⟨middle, _, heq, hlength, ByteHeap.blocks_store hblock, ByteHeap.fault_store hblock,
      nvipfixStringTrimAt_again (ByteHeap.block_store hblock _) hs hascii⟩
  copy outcome houtcome := by
    obtain ⟨p, h', heq, hnew⟩ := nvipfixStringTrimCopy_eq hblock hs hascii houtcome
    exact ⟨p, h', heq, hnew, nvipfixStringTrimAt_again hnew.block hs hascii⟩

/-- Memory in the beginning. -/
def ByteHeap.empty : ByteHeap where
  next := 0
  blocks _ := none
  fault := false
  fresh _ _ := rfl

/-- Blanks of all kinds around a text, in a buffer that is longer than the string. -/
theorem trims_blanks : (ByteHeap.empty.allocate (ascii "\t a b \n" ++ [0, 7])).Trims 0 none
    (ascii "\t a b \n") [7] (ascii "a b") := by
  have htrims : (ByteHeap.empty.allocate (ascii "\t a b \n" ++ [0, 7])).Trims 0 none
      (ascii "\t a b \n") [7] (stringTrim (ascii "\t a b \n") none) :=
    ByteHeap.trims_stringTrim rfl (by decide) (by decide)
  have htext : stringTrim (ascii "\t a b \n") none = ascii "a b" := by decide
  rwa [htext] at htrims

end NvIpfix
