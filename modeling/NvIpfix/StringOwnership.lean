/-
**What a list of strings adds to memory.**

The callers of `nvipfix_string_split` look at the list that they get, and some write to its strings.
Then they release it together with the strings.  All that the list has is new, so that memory is
then what it was before the call: nothing stays behind, and no object of others has been touched.
The same holds if an allocation fails.

Main definitions:

* `NvIpfix.StringHeap.Fresh` — no object has an address that is still to be given out;
* `NvIpfix.StringHeap.Restored` — memory as it was;
* `NvIpfix.StringHeap.Extends` — memory as it was, and a list of strings;
* `NvIpfix.withTokens`, `NvIpfix.visitItems` — what callers do with a list.

Main results:

* `NvIpfix.nvipfixStringSplit_extends` — **a split adds a list to memory, or restores it**;
* `NvIpfix.StringHeap.Extends.free` — **a list that is freed restores memory**;
* `NvIpfix.withTokens_computes` — reading the tokens of a text restores memory;
* `NvIpfix.visitItems_extends`, `NvIpfix.visitTokens_spec` — a loop over a list that writes to its
  strings.
-/

import NvIpfix.EmptyLine

set_option relaxedAutoImplicit false
set_option autoImplicit false

namespace NvIpfix

open LinkedList

/-! ### Memory as it was -/

/-- No object has an address that is still to be given out. -/
structure StringHeap.Fresh (h : StringHeap) : Prop where
  buffers : ∀ b, h.next ≤ b → h.buffers b = none
  items : ∀ p, h.next ≤ p → h.items p = none
  lists : ∀ a, h.next ≤ a → h.lists a = none

/-- Memory as it was, though addresses have been given out. -/
structure StringHeap.Restored (h h' : StringHeap) : Prop where
  next_le : h.next ≤ h'.next
  eq : h' = { h with next := h'.next }

section Restored

variable {h h' h'' : StringHeap}

theorem StringHeap.fresh_empty : ({} : StringHeap).Fresh :=
  ⟨fun _ _ => rfl, fun _ _ => rfl, fun _ _ => rfl⟩

theorem StringHeap.Fresh.allocation (hfresh : h.Fresh) : h.allocation.Fresh where
  buffers b hb := hfresh.buffers b (Nat.le_of_succ_le hb)
  items p hp := hfresh.items p (Nat.le_of_succ_le hp)
  lists a ha := hfresh.lists a (Nat.le_of_succ_le ha)

/-- A new string. -/
theorem StringHeap.Fresh.mallocBuffer (hfresh : h.Fresh) (s : CString) :
    (h.mallocBuffer s).Fresh where
  buffers b hb := by
    have hb' : h.next + 1 ≤ b := hb
    exact (Function.update_of_ne (by omega) _ _).trans (hfresh.buffers b (Nat.le_of_succ_le hb))
  items p hp := hfresh.items p (Nat.le_of_succ_le hp)
  lists a ha := hfresh.lists a (Nat.le_of_succ_le ha)

/-- A string that is written to. -/
def StringHeap.write (h : StringHeap) (b : ℕ) (s : CString) : StringHeap :=
  { h with buffers := Function.update h.buffers b (some s) }

theorem StringHeap.write_buffers (h : StringHeap) (b : ℕ) (s : CString) :
    (h.write b s).buffers b = some s := Function.update_self _ _ _

/-- Writing what is there. -/
theorem StringHeap.write_eq_self {b : ℕ} {s : CString} (hb : h.buffers b = some s) :
    h.write b s = h := by
  rw [StringHeap.write, ← hb, Function.update_eq_self]

theorem StringHeap.Fresh.write {b : ℕ} {s : CString} (hfresh : h.Fresh) (hb : h.buffers b = some s)
    (t : CString) :
    (h.write b t).Fresh where
  buffers b' hb' := by
    have hnone := hfresh.buffers b' hb'
    refine (Function.update_of_ne ?_ _ _).trans hnone
    rintro rfl
    rw [hb] at hnone
    cases hnone
  items := hfresh.items
  lists := hfresh.lists

theorem StringHeap.Fresh.freeBuffer (hfresh : h.Fresh) (b : ℕ) : (h.freeBuffer (some b)).Fresh where
  buffers b' hb' := by
    simp only [StringHeap.freeBuffer]
    by_cases hne : b' = b
    · rw [hne, Function.update_self]
    · rw [Function.update_of_ne hne, hfresh.buffers b' hb']
  items := hfresh.items
  lists := hfresh.lists

theorem StringHeap.Restored.refl (h : StringHeap) : h.Restored h := ⟨le_rfl, rfl⟩

theorem StringHeap.Restored.trans (hl : h.Restored h') (hr : h'.Restored h'') : h.Restored h'' where
  next_le := hl.next_le.trans hr.next_le
  eq := by
    have heq := hr.eq
    rwa [hl.eq] at heq

theorem StringHeap.Restored.allocation (h : StringHeap) : h.Restored h.allocation :=
  ⟨Nat.le_succ _, rfl⟩

theorem StringHeap.Restored.fault (hr : h.Restored h') : h'.fault = h.fault := by rw [hr.eq]

theorem StringHeap.Restored.buffers (hr : h.Restored h') : h'.buffers = h.buffers := by rw [hr.eq]

theorem StringHeap.Restored.items (hr : h.Restored h') : h'.items = h.items := by rw [hr.eq]

theorem StringHeap.Restored.lists (hr : h.Restored h') : h'.lists = h.lists := by rw [hr.eq]

/-- Memory is known by its objects. -/
theorem StringHeap.Restored.of_eq (hnext : h.next ≤ h'.next) (hbuffers : h'.buffers = h.buffers)
    (hitems : h'.items = h.items) (hlists : h'.lists = h.lists) (hfault : h'.fault = h.fault) :
    h.Restored h' := by
  refine ⟨hnext, ?_⟩
  obtain ⟨next, buffers, items, lists, fault⟩ := h'
  simp only at hbuffers hitems hlists hfault
  rw [hbuffers, hitems, hlists, hfault]

theorem StringHeap.Restored.fresh (hr : h.Restored h') (hfresh : h.Fresh) : h'.Fresh where
  buffers b hb := by rw [hr.buffers, hfresh.buffers b (hr.next_le.trans hb)]
  items p hp := by rw [hr.items, hfresh.items p (hr.next_le.trans hp)]
  lists a ha := by rw [hr.lists, hfresh.lists a (hr.next_le.trans ha)]

/-- A string that is written to and back again. -/
theorem StringHeap.Restored.write (hr : h.Restored h') (b : ℕ) (s : CString) :
    (h.write b s).Restored (h'.write b s) := by
  refine .of_eq hr.next_le ?_ hr.items hr.lists hr.fault
  simp only [StringHeap.write, hr.buffers]

/-- A string that is released again. -/
theorem StringHeap.Restored.freeBuffer {b : ℕ} (hb : h.buffers b = none) {s : CString}
    (hr : (h.write b s).Restored h') : h.Restored (h'.freeBuffer (some b)) := by
  have hlive : h'.buffers b = some s := by
    rw [hr.buffers]
    exact Function.update_self _ _ _
  refine .of_eq hr.next_le ?_ hr.items hr.lists ?_
  · simp only [StringHeap.freeBuffer, hr.buffers, StringHeap.write, Function.update_idem]
    rw [← hb, Function.update_eq_self]
  · simp only [StringHeap.freeBuffer, StringHeap.require, hlive, Option.isSome_some, Bool.not_true,
      Bool.or_false]
    exact hr.fault

end Restored

/-! ### Memory as it was, and a list -/

/-- Memory as it was, and a list of strings: the list, its items and their strings are new, and
everything else is as it was. -/
structure StringHeap.Extends (h₀ h : StringHeap) (list : Option ℕ) (items : List (ℕ × Option ℕ))
    (tokens : List CString) : Prop where
  holds : h.Holds list items tokens
  fresh : h.Fresh
  next_le : h₀.next ≤ h.next
  new : ∀ item ∈ items, h₀.items item.1 = none ∧ ∀ b ∈ item.2, h₀.buffers b = none
  new_list : ∀ a ∈ list, h₀.lists a = none ∧ a < h.next
  keeps_buffers : ∀ b, some b ∉ items.map Prod.snd → h.buffers b = h₀.buffers b
  keeps_items : ∀ p, p ∉ items.map Prod.fst → h.items p = h₀.items p
  keeps_lists : ∀ a, a ∉ list → h.lists a = h₀.lists a
  fault : h.fault = h₀.fault

section Extends

variable {h₀ h h' : StringHeap} {list : Option ℕ} {items : List (ℕ × Option ℕ)}
  {tokens : List CString}

/-- Nothing is added. -/
theorem StringHeap.Extends.of_restored (hfresh : h₀.Fresh) (hr : h₀.Restored h) :
    h₀.Extends h none [] [] where
  holds := h.holds_nil
  fresh := hr.fresh hfresh
  next_le := hr.next_le
  new item hitem := by cases hitem
  new_list a ha := by cases ha
  keeps_buffers b _ := by rw [hr.buffers]
  keeps_items p _ := by rw [hr.items]
  keeps_lists a _ := by rw [hr.lists]
  fault := hr.fault

/-- A list stays when all of memory is as it was. -/
theorem StringHeap.Extends.restored (hext : h₀.Extends h list items tokens) (hr : h.Restored h') :
    h₀.Extends h' list items tokens where
  holds := hext.holds.of_links (hext.holds.links.congr hr.next_le (by simp [hr.lists])
    (by simp [hr.items])) hr.next_le (by simp [hr.buffers])
  fresh := hr.fresh hext.fresh
  next_le := hext.next_le.trans hr.next_le
  new := hext.new
  new_list a ha := ⟨(hext.new_list a ha).1, (hext.new_list a ha).2.trans_le hr.next_le⟩
  keeps_buffers b hb := by rw [hr.buffers, hext.keeps_buffers b hb]
  keeps_items p hp := by rw [hr.items, hext.keeps_items p hp]
  keeps_lists a ha := by rw [hr.lists, hext.keeps_lists a ha]
  fault := hr.fault.trans hext.fault

/-- **A list that is freed restores memory.** -/
theorem StringHeap.Extends.free (hext : h₀.Extends h list items tokens) :
    h₀.Restored (nvipfixStringListFree list true h) := by
  obtain ⟨hold, -, hnext, hnew, hnewList, hbuffers, hitems, hlists, hfault⟩ := hext
  cases list with
  | none =>
      obtain rfl := hold.empty rfl
      exact .of_eq hnext (funext fun b => hbuffers b (by simp)) (funext fun p => hitems p (by simp))
        (funext fun a => hlists a (by simp)) hfault
  | some a =>
      obtain ⟨-, l, hl, -, hisList⟩ := hold.list a rfl
      rw [hold.links.free_eq, foldl_releaseItem_eq hisList.nodup hold.nodup hisList.segment.isSome
        hold.isSome]
      refine .of_eq hnext ?_ ?_ ?_ ?_
      · funext b
        simp only [StringHeap.freeList, StringHeap.require, StringHeap.without]
        split
        next hb =>
          obtain ⟨item, hitem, heq⟩ := List.mem_map.1 hb
          exact ((hnew item hitem).2 b heq).symm
        next hb => exact hbuffers b hb
      · funext p
        simp only [StringHeap.freeList, StringHeap.require, StringHeap.without]
        split
        next hp =>
          obtain ⟨item, hitem, rfl⟩ := List.mem_map.1 hp
          exact (hnew item hitem).1.symm
        next hp => exact hitems p hp
      · funext a'
        simp only [StringHeap.freeList, StringHeap.require, StringHeap.without]
        by_cases ha : a' = a
        · rw [ha, Function.update_self, (hnewList a rfl).1]
        · rw [Function.update_of_ne ha, hlists a' (by simpa using fun h => ha h.symm)]
      · simpa [StringHeap.freeList, StringHeap.require, StringHeap.without, hl] using hfault

/-- A string that is new to everything. -/
theorem StringHeap.Extends.mallocBuffer (hext : h₀.Extends h list items tokens) (s : CString) :
    (h₀.write h.next s).Extends (h.mallocBuffer s) list items tokens where
  holds := hext.holds.mallocBuffer s
  fresh := hext.fresh.mallocBuffer s
  next_le := hext.next_le.trans (Nat.le_succ _)
  new item hitem := by
    refine ⟨(hext.new item hitem).1, fun b hb => ?_⟩
    have hlt := (hext.holds.allocated item hitem).2 b hb
    exact (Function.update_of_ne (by omega) _ _).trans ((hext.new item hitem).2 b hb)
  new_list a ha := ⟨(hext.new_list a ha).1, (hext.new_list a ha).2.trans (Nat.lt_succ_self _)⟩
  keeps_buffers b hb := by
    simp only [StringHeap.mallocBuffer, StringHeap.write]
    by_cases hnext : b = h.next
    · rw [hnext, Function.update_self, Function.update_self]
    · rw [Function.update_of_ne hnext, Function.update_of_ne hnext, hext.keeps_buffers b hb]
  keeps_items := hext.keeps_items
  keeps_lists := hext.keeps_lists
  fault := hext.fault

end Extends

/-! ### Splitting -/

section Split

variable {mallocs : ℕ → Bool} {h₀ h : StringHeap} {list : Option ℕ} {items : List (ℕ × Option ℕ)}
  {tokens : List CString}

/-- An addition that fails gives back what it has allocated. -/
theorem nvipfixStringListAdd_restored (hfresh : h.Fresh) {value : Option ℕ}
    (hnone : (nvipfixStringListAdd mallocs list value h).1 = none) :
    h.Restored (nvipfixStringListAdd mallocs list value h).2 := by
  cases hfirst : mallocs h.next with
  | false =>
      rw [nvipfixStringListAdd_failure hfirst]
      exact .allocation h
  | true =>
      cases list with
      | none =>
          cases hsecond : mallocs (h.next + 1) with
          | true =>
              rw [nvipfixStringListAdd_first hfirst hsecond] at hnone
              cases hnone
          | false =>
              rw [nvipfixStringListAdd_listFailure hfirst hsecond]
              refine .of_eq (Nat.le_add_right h.next 2) rfl ?_ rfl ?_
              · simp only [StringHeap.freeItem, StringHeap.mallocItem, StringHeap.allocation,
                  Function.update_idem]
                rw [← hfresh.items h.next le_rfl, Function.update_eq_self]
              · simp [StringHeap.freeItem, StringHeap.require, StringHeap.mallocItem,
                  StringHeap.allocation]
      | some a =>
          simp only [nvipfixStringListAdd, hfirst, Bool.not_true, Bool.false_eq_true,
            if_false] at hnone
          split at hnone <;> cases hnone

/-- What an addition leaves alone. -/
structure AddFrame (h : StringHeap) (list : Option ℕ) (items : List (ℕ × Option ℕ)) (a : ℕ)
    (h' : StringHeap) : Prop where
  items : ∀ p, p ≠ h.next → p ∉ items.map Prod.fst → h'.items p = h.items p
  lists : ∀ a', a' ≠ a → h'.lists a' = h.lists a'
  next_lt : h.next < h'.next
  list : list = some a ∨ list = none ∧ h.next ≤ a ∧ a < h'.next

/-- An addition that adds something leaves the objects of others alone. -/
theorem nvipfixStringListAdd_frame (hlinks : h.Links list items) {value : Option ℕ} {a : ℕ}
    (hsome : a ∈ (nvipfixStringListAdd mallocs list value h).1) :
    AddFrame h list items a (nvipfixStringListAdd mallocs list value h).2 := by
  cases hfirst : mallocs h.next with
  | false =>
      rw [nvipfixStringListAdd_failure hfirst] at hsome
      cases hsome
  | true =>
      cases list with
      | none =>
          cases hsecond : mallocs (h.next + 1) with
          | false =>
              rw [nvipfixStringListAdd_listFailure hfirst hsecond] at hsome
              cases hsome
          | true =>
              rw [nvipfixStringListAdd_first hfirst hsecond] at hsome ⊢
              obtain rfl := Option.some_inj.1 hsome
              refine ⟨fun p hp _ => ?_, fun a' ha' => Function.update_of_ne ha' _ _, ?_,
                .inr ⟨rfl, Nat.le_succ _, ?_⟩⟩
              · exact (push_of_ne hp (Option.some_ne_none p)).trans (Function.update_of_ne hp _ _)
              · exact Nat.lt_of_lt_of_le (Nat.lt_succ_self _) (Nat.le_succ _)
              · exact Nat.lt_succ_self _
      | some a' =>
          obtain ⟨hne, l, hl, -, hisList⟩ := hlinks.list a' rfl
          rw [nvipfixStringListAdd_later hfirst hl] at hsome ⊢
          obtain rfl := Option.some_inj.1 hsome
          refine ⟨fun p hp hmem => ?_, fun a'' ha'' => Function.update_of_ne ha'' _ _,
            Nat.lt_succ_self _, .inl rfl⟩
          -- only the last item of the list is linked anew
          obtain ⟨t, htail, -, ht⟩ := hisList.isSome_tail hne
          have hpt : some p ≠ l.tail := by
            rw [htail]
            rintro heq
            exact hmem (Option.some_inj.1 heq ▸ ht)
          exact (push_of_ne hp hpt).trans (Function.update_of_ne hp _ _)

/-- A string that is new, and added to the list. -/
theorem StringHeap.Extends.add (hext : h₀.Extends h list items tokens) {s : CString} {a : ℕ}
    {h' : StringHeap} (hframe : AddFrame (h.mallocBuffer s) list items a h')
    (hadd : Added mallocs (h.mallocBuffer s) list items tokens h.next s (some a, h')) :
    h₀.Extends h' (some a) (items ++ [(h.next + 1, some h.next)]) (tokens ++ [s]) := by
  obtain ⟨hitems, hlists, hnext, hlist⟩ := hframe
  have hnew := hext.holds.next_not_mem.2
  have hnext' : h.next + 1 < h'.next := hnext
  have hold := hadd.added a rfl
  have hlist' : h₀.lists a = none ∧ a < h'.next := by
    rcases hlist with rfl | ⟨rfl, hle, hlt⟩
    · exact ⟨(hext.new_list a rfl).1, (hext.new_list a rfl).2.trans (by omega)⟩
    · have hle' : h.next + 1 ≤ a := hle
      rw [← hext.keeps_lists a (by simp), hext.fresh.lists a (by omega)]
      exact ⟨rfl, hlt⟩
  have hbuffers : ∀ b, b ≠ h.next → h'.buffers b = h.buffers b := by
    intro b hb
    rw [hadd.buffers]
    exact Function.update_of_ne hb _ _
  refine ⟨hold, ⟨?_, ?_, ?_⟩, hext.next_le.trans (by omega), ?_, ?_, ?_, ?_, ?_,
    hadd.fault.trans hext.fault⟩
  · intro b hb
    rw [hbuffers b (by omega), hext.fresh.buffers b (by omega)]
  · intro p hp
    rw [hitems p (by simp only [StringHeap.mallocBuffer, StringHeap.allocation]; omega) ?_]
    · exact hext.fresh.items p (by omega)
    · intro hmem
      obtain ⟨item, hitem, rfl⟩ := List.mem_map.1 hmem
      have hlt := (hext.holds.allocated item hitem).1
      omega
  · intro a' ha'
    rw [hlists a' (by omega)]
    exact hext.fresh.lists a' (by omega)
  · intro item hmem
    rcases List.mem_append.1 hmem with hmem | hmem
    · exact hext.new item hmem
    · obtain rfl := List.mem_singleton.1 hmem
      refine ⟨?_, fun b hb => ?_⟩
      · rw [← hext.keeps_items _ ?_, hext.fresh.items _ (Nat.le_succ _)]
        intro hmem
        obtain ⟨item, hitem, heq⟩ := List.mem_map.1 hmem
        have hlt := (hext.holds.allocated item hitem).1
        omega
      · obtain rfl := Option.some_inj.1 hb
        rw [← hext.keeps_buffers _ hnew, hext.fresh.buffers _ le_rfl]
  · intro a' ha'
    obtain rfl := Option.some_inj.1 ha'
    exact hlist'
  · intro b hb
    rw [List.map_append, List.mem_append, not_or] at hb
    rw [hbuffers b (by simpa using hb.2), hext.keeps_buffers b hb.1]
  · intro p hp
    rw [List.map_append, List.mem_append, not_or] at hp
    have hne : p ≠ h.next + 1 := by simpa using hp.2
    exact (hitems p hne hp.1).trans (hext.keeps_items p hp.1)
  · intro a' ha'
    have hne : a' ≠ a := by
      rintro rfl
      exact ha' rfl
    rw [hlists a' hne]
    refine hext.keeps_lists a' ?_
    rcases hlist with rfl | ⟨rfl, -, -⟩
    · exact ha'
    · simp

/-- **One token**: it fails and memory is restored, or the list has one more. -/
theorem splitToken_extends (mallocs : ℕ → Bool) (hext : h₀.Extends h list items tokens)
    (token : CString) :
    ((splitToken mallocs token list h).1 = none → h₀.Restored (splitToken mallocs token list h).2) ∧
      ∀ a ∈ (splitToken mallocs token list h).1, ∃ items',
        h₀.Extends (splitToken mallocs token list h).2 (some a) items' (tokens ++ [token]) := by
  cases hmalloc : mallocs h.next with
  | false =>
      simp only [splitToken, hmalloc, Bool.not_false, if_true]
      exact ⟨fun _ => (hext.restored (.allocation h)).free, by simp⟩
  | true =>
      have hnew := hext.holds.next_not_mem.2
      have hcopy : (h.mallocBuffer token).buffers h.next = some token := Function.update_self _ _ _
      have hext₁ := hext.mallocBuffer token
      rcases hresult : nvipfixStringListAdd mallocs list (some h.next) (h.mallocBuffer token) with
        ⟨_ | a, h'⟩
      · simp only [splitToken, hmalloc, hresult, Bool.not_true, Bool.false_eq_true, if_false]
        refine ⟨fun _ => ?_, by simp⟩
        have hr := nvipfixStringListAdd_restored hext₁.fresh (congrArg Prod.fst hresult)
        rw [hresult] at hr
        -- the list is freed beside the copy, which is then released as well
        refine (hext₁.restored hr).free.freeBuffer ?_
        rw [← hext.keeps_buffers _ hnew, hext.fresh.buffers _ le_rfl]
      · simp only [splitToken, hmalloc, hresult, Bool.not_true, Bool.false_eq_true, if_false]
        refine ⟨by simp, fun a' ha' => ?_⟩
        obtain rfl := Option.some_inj.1 ha'
        have hframe := nvipfixStringListAdd_frame hext₁.holds.links
          (Option.mem_def.2 (congrArg Prod.fst hresult))
        have hadd := hext₁.holds.add mallocs hcopy (Nat.lt_succ_self _) hnew
        rw [hresult] at hframe hadd
        exact ⟨_, hext.add hframe hadd⟩

/-- The locals in memory are those without memory, and the list is all that has been added. -/
structure SplitLocals.Adds (locals : SplitLocals) (h₀ h : StringHeap) (st : SplitState) : Prop where
  tokenStart : locals.tokenStart = st.tokenStart
  tokenLength : locals.tokenLength = st.tokenLength
  extended : ∃ items, h₀.Extends h locals.result items st.result

/-- **The loop adds a list to memory**, or restores it at a failure. -/
theorem splitLoop_extends (mallocs : ℕ → Bool) (s delimiters done : CString) (indices : List ℕ)
    {locals : SplitLocals} {st : SplitState} (hadds : locals.Adds h₀ h st) :
    ∃ result map h', splitLoop mallocs s indices locals
        ((CharacterMap.ofCharset delimiters).reads done) h = (result, map, h') ∧
      ((result = none ∧ (∃ n, mallocs n = false) ∧ h₀.Restored h') ∨
        ∃ items, h₀.Extends h' result items
          (indices.foldl (splitStep (charsetMap delimiters) s) st).result) := by
  induction indices generalizing st locals done h with
  | nil => exact ⟨_, _, h, rfl, .inr hadds.extended⟩
  | cons i rest ih =>
      obtain ⟨hstart, hlength, items, hext⟩ := hadds
      have hmap : charsetMap delimiters (charsetIndex (s.getD i 0)) =
          inCharset delimiters (s.getD i 0) := rfl
      rw [List.foldl_cons, splitLoop, CharacterMap.get_eq]
      simp only [splitStep, CharacterMap.entries_reads, CharacterMap.entries_ofCharset,
        CharacterMap.reads_reads, hmap, hstart, hlength]
      generalize inCharset delimiters (s.getD i 0) = isDelimiter
      generalize (if isDelimiter && st.tokenLength == 0 then i + 1 else st.tokenStart) = tokenStart
      generalize (if isDelimiter then st.tokenLength else st.tokenLength + 1) = tokenLength
      generalize (isDelimiter && st.tokenLength != 0 || i + 1 == s.length) = isTokenReady
      cases isTokenReady with
      | false =>
          simp only [Bool.false_eq_true, if_false]
          exact ih _ ⟨rfl, rfl, items, hext⟩
      | true =>
          simp only [if_true]
          generalize (s.drop tokenStart).take tokenLength = token
          obtain ⟨hrestored, hadded⟩ := splitToken_extends mallocs hext token
          have hfailed := (splitToken_spec mallocs hext.holds token).2.1
          rcases hresult : splitToken mallocs token locals.result h with ⟨_ | a, h'⟩
          · rw [hresult] at hrestored hfailed
            exact ⟨none, _, h', rfl, .inl ⟨rfl, hfailed rfl, hrestored rfl⟩⟩
          · rw [hresult] at hadded
            exact ih _ ⟨rfl, rfl, hadded a rfl⟩

/-- **A split adds a list to memory, or restores it**: a list of the tokens, or nothing, if an
allocation fails or the text is empty. -/
theorem nvipfixStringSplit_extends (mallocs : ℕ → Bool) (s delimiters : CString)
    (hfresh : h.Fresh) :
    ∃ result map h', nvipfixStringSplit mallocs s delimiters h = (result, map, h') ∧
      ((result = none ∧ h.Restored h' ∧
          ((∀ n, mallocs n = true) → stringSplit s delimiters = none)) ∨
        ∃ a items tokens, result = some a ∧ h.Extends h' (some a) items tokens ∧
          stringSplit s delimiters = some tokens) := by
  have hstart : SplitLocals.Adds {} h h {} :=
    ⟨rfl, rfl, [], .of_restored hfresh (.refl h)⟩
  obtain ⟨result, map, h', heq, hor⟩ :=
    splitLoop_extends mallocs s delimiters [] (List.range s.length) hstart
  rw [CharacterMap.reads_nil] at heq
  refine ⟨result, map, h', heq, ?_⟩
  rcases hor with ⟨rfl, ⟨n, hn⟩, hr⟩ | ⟨items, hext⟩
  · refine .inl ⟨rfl, hr, fun hall => ?_⟩
    rw [hall n] at hn
    cases hn
  · have hlength := hext.holds.length_eq
    cases result with
    | none =>
        rw [hext.holds.empty rfl, List.length_nil] at hlength
        have hnil := List.eq_nil_of_length_eq_zero hlength.symm
        have hr := hext.free
        refine .inl ⟨rfl, hr, fun _ => ?_⟩
        rw [stringSplit, hnil]
        rfl
    | some a =>
        obtain ⟨hne, -⟩ := hext.holds.list a rfl
        refine .inr ⟨a, items, _, rfl, hext, ?_⟩
        rw [stringSplit, if_neg]
        intro hempty
        rw [List.isEmpty_iff.1 hempty, List.length_nil] at hlength
        exact hne (List.eq_nil_of_length_eq_zero hlength)

end Split

/-! ### Reading the tokens -/

/-- A computation that restores memory, and has a value if no allocation fails. -/
structure Computes {β : Type} (mallocs : ℕ → Bool) (f : StringHeap → β × StringHeap) (value : β) :
    Prop where
  restored : ∀ h : StringHeap, h.Fresh → h.Restored (f h).2
  result : (∀ n, mallocs n = true) → ∀ h : StringHeap, h.Fresh → (f h).1 = value

/-- The number of items of a list, and its strings, as the links from its head pass them. -/
def StringHeap.listTokens (h : StringHeap) (list : ℕ) : Option (ℕ × List CString) := do
  let l ← h.lists list
  let tokens ← h.tokens list
  return (l.count, tokens)

/-- Splitting a text, and releasing the list after `use` has looked at it, or at `NULL`. -/
def withTokens {β : Type} (mallocs : ℕ → Bool) (s delimiters : CString)
    (use : Option (ℕ × List CString) → StringHeap → β × StringHeap) (h : StringHeap) :
    β × StringHeap :=
  match nvipfixStringSplit mallocs s delimiters h with
  | (none, _, h) => use none h
  | (some list, _, h) =>
      let tokens := h.listTokens list
      let (result, h) := use (some (tokens.getD (0, []))) (h.require tokens.isSome)
      (result, nvipfixStringListFree (some list) true h)

section Reading

variable {β : Type} {mallocs : ℕ → Bool} {h₀ h : StringHeap} {items : List (ℕ × Option ℕ)}
  {tokens : List CString}

theorem StringHeap.Holds.listTokens_eq {a : ℕ} (hold : h.Holds (some a) items tokens) :
    h.listTokens a = some (tokens.length, tokens) := by
  obtain ⟨-, l, hl, hcount, -⟩ := hold.list a rfl
  simp only [StringHeap.listTokens, hl, hold.tokens_eq, Option.bind_eq_bind, Option.bind_some,
    Option.pure_def, hcount, hold.length_eq]

@[simp] theorem StringHeap.require_true (h : StringHeap) : h.require true = h := by
  simp [StringHeap.require]

/-- A value that is known without memory. -/
theorem Computes.pure (value : β) : Computes mallocs (fun h => (value, h)) value where
  restored h _ := .refl h
  result _ _ _ := rfl

/-- **Reading the tokens of a text restores memory**, if what is done with them does. -/
theorem withTokens_computes (s delimiters : CString)
    {use : Option (ℕ × List CString) → StringHeap → β × StringHeap}
    (value : Option (List CString) → β)
    (huse : ∀ tokens : Option (List CString),
      Computes mallocs (use (tokens.map fun tokens => (tokens.length, tokens))) (value tokens)) :
    Computes mallocs (withTokens mallocs s delimiters use)
      (value (stringSplit s delimiters)) := by
  have hspec : ∀ h : StringHeap, h.Fresh →
      h.Restored (withTokens mallocs s delimiters use h).2 ∧ ((∀ n, mallocs n = true) →
        (withTokens mallocs s delimiters use h).1 = value (stringSplit s delimiters)) := by
    intro h hfresh
    obtain ⟨result, map, h', heq, hor⟩ := nvipfixStringSplit_extends mallocs s delimiters hfresh
    rw [withTokens, heq]
    rcases hor with ⟨rfl, hr, hnone⟩ | ⟨a, items, tokens, rfl, hext, hsplit⟩
    · have hcomputes := huse none
      refine ⟨hr.trans (hcomputes.restored h' (hr.fresh hfresh)), fun hall => ?_⟩
      rw [hnone hall]
      exact hcomputes.result hall h' (hr.fresh hfresh)
    · have hcomputes := huse (some tokens)
      simp only [hext.holds.listTokens_eq, Option.isSome_some, StringHeap.require_true,
        Option.getD_some]
      refine ⟨(hext.restored (hcomputes.restored h' hext.fresh)).free, fun hall => ?_⟩
      rw [hsplit]
      exact hcomputes.result hall h' hext.fresh
  exact ⟨fun h hfresh => (hspec h hfresh).1, fun hall h hfresh => (hspec h hfresh).2 hall⟩

end Reading

/-! ### Writing to the strings -/

/-- A loop over the items of a list, which ends if they are fewer than `fuel`. -/
def visitItems {σ : Type} (body : Option ℕ → σ → StringHeap → σ × StringHeap) :
    ℕ → Option ℕ → σ → StringHeap → σ × StringHeap
  | _, none, s, h => (s, h)
  | 0, some _, s, h => (s, h.require false)
  | fuel + 1, some item, s, h =>
      match h.items item with
      | none => (s, h.require false)
      | some node =>
          let (s, h) := body node.value s h
          -- the link is read when the body is done
          match h.items item with
          | none => (s, h.require false)
          | some node => visitItems body fuel node.next s h

section Writing

variable {σ : Type} {h₀ h : StringHeap} {list : Option ℕ} {items before after : List (ℕ × Option ℕ)}
  {done rest : List CString}

/-- The strings of a list are strings of different items. -/
theorem StringHeap.Extends.write {p b : ℕ} {token : CString}
    (hext : h₀.Extends h list (before ++ (p, some b) :: after) (done ++ token :: rest))
    (hlength : before.length = done.length) (token' : CString) :
    h₀.Extends (h.write b token') list (before ++ (p, some b) :: after)
      (done ++ token' :: rest) := by
  obtain ⟨hold, hfresh, hnext, hnew, hnewList, hbuffers, hitems, hlists, hfault⟩ := hext
  have hlt := (hold.allocated (p, some b) (by simp)).2 b rfl
  have hnodup := hold.nodup
  rw [List.map_append, List.map_cons, List.nodup_middle, List.nodup_cons, List.mem_append,
    not_or] at hnodup
  -- the other items have other strings
  have hother : ∀ items' : List (ℕ × Option ℕ), some b ∉ items'.map Prod.snd →
      items'.map (fun item => item.2.bind (h.write b token').buffers) =
        items'.map fun item => item.2.bind h.buffers := by
    intro items' hb
    refine List.map_congr_left fun item hitem => ?_
    cases hvalue : item.2 with
    | none => rfl
    | some b' =>
        refine Function.update_of_ne ?_ _ _
        rintro rfl
        exact hb (List.mem_map.2 ⟨item, hitem, hvalue⟩)
  have hstrings := hold.strings
  rw [List.map_append, List.map_append, List.map_cons, List.map_cons] at hstrings
  obtain ⟨hbefore, hafter⟩ := List.append_inj hstrings (by simp [hlength])
  refine ⟨⟨hold.empty, hold.list, ?_, hold.nodup, hold.allocated⟩, ⟨?_, hfresh.items, hfresh.lists⟩,
    hnext, hnew, hnewList, ?_, hitems, hlists, hfault⟩
  · rw [List.map_append, List.map_cons, hother before hnodup.1.1, hother after hnodup.1.2, hbefore,
      List.map_append, List.map_cons, List.tail_eq_of_cons_eq hafter]
    simp [StringHeap.write]
  · intro b' hb'
    have hb'' : h.next ≤ b' := hb'
    exact (Function.update_of_ne (by omega) _ _).trans (hfresh.buffers b' hb')
  · intro b' hb'
    refine (Function.update_of_ne ?_ _ _).trans (hbuffers b' hb')
    rintro rfl
    exact hb' (by simp)

/-- The string of an item that is visited. -/
theorem StringHeap.Extends.value_eq {p : ℕ} {value : Option ℕ} {token : CString}
    (hext : h₀.Extends h list (before ++ (p, value) :: after) (done ++ token :: rest))
    (hlength : before.length = done.length) : ∃ b, value = some b ∧ h.buffers b = some token := by
  have hstrings := hext.holds.strings
  rw [List.map_append, List.map_append, List.map_cons, List.map_cons] at hstrings
  obtain ⟨-, hafter⟩ := List.append_inj hstrings (by simp [hlength])
  have hvalue := List.head_eq_of_cons_eq hafter
  cases value with
  | none => cases hvalue
  | some b => exact ⟨b, rfl, hvalue⟩

/-- **A loop over a list that writes to its strings** keeps the list, if its body writes to the
string of the item and restores memory otherwise. -/
theorem visitItems_extends {body : Option ℕ → σ → StringHeap → σ × StringHeap}
    {Inv : List CString → σ → Prop}
    (hbody : ∀ (h : StringHeap) (b : ℕ) (token : CString) (s : σ) (done : List CString), h.Fresh →
      h.buffers b = some token → Inv done s →
        (∃ token', (h.write b token').Restored (body (some b) s h).2) ∧
          Inv (done ++ [token]) (body (some b) s h).1)
    {prev first last : Option ℕ} {fuel : ℕ} {s : σ} {done' : List CString}
    (hext : h₀.Extends h list (before ++ after) (done' ++ rest))
    (hlength : before.length = done'.length)
    (hsegment : Segment h.items prev first after last none) (hfuel : after.length ≤ fuel)
    (hs : Inv done s) :
    ∃ tokens, h₀.Extends (visitItems body fuel first s h).2 list (before ++ after) tokens ∧
      Inv (done ++ rest) (visitItems body fuel first s h).1 := by
  induction after generalizing before rest prev first fuel s h done done' with
  | nil =>
      have hrest := hext.holds.length_eq
      rw [List.length_append, List.length_append, hlength, List.length_nil] at hrest
      obtain rfl := List.eq_nil_of_length_eq_zero (by omega : rest.length = 0)
      cases hsegment with
      | nil =>
          have hvisit : visitItems body fuel none s h = (s, h) := by cases fuel <;> rfl
          rw [hvisit, List.append_nil done]
          exact ⟨_, hext, hs⟩
  | cons item after ih =>
      obtain ⟨fuel, rfl⟩ := Nat.exists_eq_add_of_le' (Nat.one_le_of_lt hfuel)
      cases hsegment with
      | @cons _ next _ _ p value _ hnode hsegment =>
          obtain ⟨token, rest, rfl⟩ : ∃ token rest', rest = token :: rest' := by
            refine List.exists_cons_of_ne_nil ?_
            rintro rfl
            have hrest := hext.holds.length_eq
            simp [hlength] at hrest
          obtain ⟨b, rfl, hb⟩ := hext.value_eq hlength
          obtain ⟨⟨token', hr⟩, hs'⟩ := hbody h b token s done hext.fresh hb hs
          have hext' := (hext.write hlength token').restored hr
          have hitems : (body (some b) s h).2.items = h.items := hr.items
          simp only [visitItems, hnode, hitems]
          rw [List.append_cons before, List.append_cons done'] at hext'
          rw [List.append_cons before, List.append_cons done]
          have hsegment' : Segment (body (some b) s h).2.items (some p) next after last none := by
            rwa [hitems]
          exact ih hext' (by simp [hlength]) hsegment' (Nat.le_of_succ_le_succ hfuel) hs'

end Writing

/-- Splitting a text, a loop over its tokens, and releasing them: what the loop leaves, if there is
a list. -/
def visitTokens {σ : Type} (mallocs : ℕ → Bool) (s delimiters : CString)
    (body : Option ℕ → σ → StringHeap → σ × StringHeap) (start : σ) (h : StringHeap) :
    Option σ × StringHeap :=
  match nvipfixStringSplit mallocs s delimiters h with
  | (none, _, h) => (none, h)
  | (some list, _, h) =>
      match h.lists list with
      | none => (none, h.require false)
      | some l =>
          let (state, h) := visitItems body h.next l.head start h
          (some state, nvipfixStringListFree (some list) true h)

section Visiting

variable {σ : Type} {body : Option ℕ → σ → StringHeap → σ × StringHeap}
  {Inv : List CString → σ → Prop} {start : σ} {h : StringHeap}

/-- **A loop over the tokens of a text restores memory**, if its body writes to the string of the
item and restores memory otherwise. -/
theorem visitTokens_spec (mallocs : ℕ → Bool) (s delimiters : CString)
    (hbody : ∀ (h : StringHeap) (b : ℕ) (token : CString) (s : σ) (done : List CString), h.Fresh →
      h.buffers b = some token → Inv done s →
        (∃ token', (h.write b token').Restored (body (some b) s h).2) ∧
          Inv (done ++ [token]) (body (some b) s h).1)
    (hfresh : h.Fresh) (hstart : Inv [] start) :
    h.Restored (visitTokens mallocs s delimiters body start h).2 ∧
      ((∀ n, mallocs n = true) → (visitTokens mallocs s delimiters body start h).1 = none →
        stringSplit s delimiters = none) ∧
      ∀ state ∈ (visitTokens mallocs s delimiters body start h).1,
        ∃ tokens, stringSplit s delimiters = some tokens ∧ Inv tokens state := by
  obtain ⟨result, map, h', heq, hor⟩ := nvipfixStringSplit_extends mallocs s delimiters hfresh
  rw [visitTokens, heq]
  rcases hor with ⟨rfl, hr, hnone⟩ | ⟨a, items, tokens, rfl, hext, hsplit⟩
  · exact ⟨hr, fun hall _ => hnone hall, by simp⟩
  · obtain ⟨-, l, hl, -, hisList⟩ := hext.holds.list a rfl
    have hvisit : h.Extends h' (some a) ([] ++ items) ([] ++ tokens) := hext
    obtain ⟨tokens', hext', hstate⟩ := visitItems_extends hbody hvisit rfl hisList.segment
      hext.holds.links.length_le hstart
    simp only [hl]
    refine ⟨hext'.free, by simp, fun state hmem => ?_⟩
    obtain rfl := Option.some_inj.1 hmem
    exact ⟨tokens, hsplit, hstate⟩

end Visiting

end NvIpfix
