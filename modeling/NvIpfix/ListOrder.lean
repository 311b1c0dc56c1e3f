/-
**Lists keep what is added to them.**

The importers and the tokeniser build their lists by one addition after another.  An addition that
fails returns `NULL`, and the caller goes on with the list that it has.  Whatever allocations fail,
the list has the values that were added: following the links from its head passes them in order,
following the links from its tail passes them in reverse, and both end in `NULL`.  So the loops that
free a list end, and visit each item once.

Main definitions:

* `NvIpfix.StringHeap.Keeps`, `NvIpfix.DataHeap.Keeps` — what a caller finds in its list.

Main results:

* `NvIpfix.addInTurn_string_keeps`, `NvIpfix.addInTurn_data_keeps` — additions in turn;
* `NvIpfix.lists_keep_order` — **both lists keep every value that was added, in order**.
-/

import NvIpfix.DataList
import NvIpfix.StringList

set_option relaxedAutoImplicit false
set_option autoImplicit false

namespace NvIpfix

open LinkedList

/-! ### Lists of strings -/

/-- What is found in a list of strings: some values, as many as it counts, once each and in order
from both of its ends.  The loop that frees it releases its items in turn.  A list that does not
exist has none. -/
structure StringHeap.Keeps (h : StringHeap) (list : Option ℕ) (values : List (Option ℕ)) :
    Prop where
  empty : list = none → values = []
  nonempty : list ≠ none → values ≠ []
  ordered : ∀ a ∈ list, ∃ l items, h.lists a = some l ∧ l.count = values.length ∧
    items.map Prod.snd = values ∧ WalksOver h.items l.head l.tail items ∧
    (∀ flag, nvipfixStringListFree (some a) flag h =
      (items.foldl (releaseItem flag) h).freeList a ∧
      ∀ p, (nvipfixStringListFree (some a) flag h).items p =
        if p ∈ items.map Prod.fst then none else h.items p) ∧
    (nvipfixStringListFree (some a) false h).fault = h.fault

section Strings

variable {h : StringHeap} {list : Option ℕ} {items : List (ℕ × Option ℕ)}

theorem StringHeap.Links.keeps (hold : h.Links list items) :
    h.Keeps list (items.map Prod.snd) where
  empty hnone := by rw [hold.empty hnone, List.map_nil]
  nonempty hsome := by
    obtain ⟨a, ha⟩ := Option.ne_none_iff_exists'.1 hsome
    rw [Ne, List.map_eq_nil_iff]
    exact (hold.list a ha).1
  ordered a ha := by
    obtain ⟨-, l, hl, hcount, hisList⟩ := hold.list a ha
    obtain rfl := Option.mem_def.1 ha
    exact ⟨l, items, hl, by rw [hcount, List.length_map], rfl, hisList.walksOver,
      fun flag => ⟨hold.free_eq, hold.free_items flag⟩, hold.free_fault⟩

/-- If no allocation fails, a list is returned. -/
theorem nvipfixStringListAdd_ne_none {mallocs : ℕ → Bool} (hmallocs : ∀ n, mallocs n = true)
    (list value : Option ℕ) (h : StringHeap) :
    (nvipfixStringListAdd mallocs list value h).1 ≠ none := by
  cases list with
  | none => simp [nvipfixStringListAdd, hmallocs]
  | some a =>
      simp only [nvipfixStringListAdd, hmallocs, Bool.not_true, Bool.false_eq_true, if_false]
      cases (h.mallocItem value).lists a <;> simp

/-- In a run of additions that began with the memory `start`: the list has the values added so
far. -/
structure StringHeap.Grown (start : StringHeap) (list : Option ℕ) (added : List (Option ℕ))
    (h : StringHeap) : Prop where
  links : ∃ items, h.Links list items ∧ items.map Prod.snd = added
  fault : h.fault = start.fault

theorem StringHeap.grown_nil (h : StringHeap) : h.Grown none [] h :=
  ⟨⟨[], h.links_nil, rfl⟩, rfl⟩

/-- One addition. -/
theorem StringHeap.Grown.add {start : StringHeap} {added : List (Option ℕ)} (mallocs : ℕ → Bool)
    (value : Option ℕ) (hgrown : start.Grown list added h) :
    ((nvipfixStringListAdd mallocs list value h).1 = none →
        start.Grown list added (nvipfixStringListAdd mallocs list value h).2) ∧
      ∀ a ∈ (nvipfixStringListAdd mallocs list value h).1,
        start.Grown (some a) (added ++ [value]) (nvipfixStringListAdd mallocs list value h).2 := by
  obtain ⟨⟨items, hold, rfl⟩, hfault⟩ := hgrown
  obtain ⟨hfault', -, -, hfailed, hadded⟩ := hold.add mallocs value
  refine ⟨fun hnone => ⟨⟨items, (hfailed hnone).2, rfl⟩, hfault'.trans hfault⟩, fun a ha => ?_⟩
  exact ⟨⟨_, hadded a ha, List.map_append⟩, hfault'.trans hfault⟩

/-- **A list of strings keeps what is added to it**, whatever allocations fail. -/
theorem addInTurn_string_keeps (mallocs : ℕ → Bool) (values : List (Option ℕ)) (h : StringHeap) :
    ∃ list added h', addInTurn (nvipfixStringListAdd mallocs) none values h = (list, added, h') ∧
      h'.Keeps list added ∧ h'.fault = h.fault := by
  obtain ⟨⟨items, hold, hadded⟩, hfault⟩ := addInTurn_induction (StringHeap.Grown h)
    (fun _ _ value _ hgrown => hgrown.add mallocs value) values h.grown_nil
  rw [List.nil_append] at hadded
  exact ⟨_, _, _, rfl, hadded ▸ hold.keeps, hfault⟩

end Strings

/-! ### Lists of records -/

/-- What is found in a list of records, in the same way. -/
structure DataHeap.Keeps (h : DataHeap) (list : Option ℕ) (records : List DataRecord) : Prop where
  empty : list = none → records = []
  nonempty : list ≠ none → records ≠ []
  ordered : ∀ a ∈ list, ∃ l items, h.lists a = some l ∧ items.map Prod.snd = records ∧
    WalksOver h.records l.head l.tail items ∧
    nvipfixDataListFree (some a) h = (items.foldl DataHeap.freeRecord h).freeList a ∧
    (∀ p, (nvipfixDataListFree (some a) h).records p =
      if p ∈ items.map Prod.fst then none else h.records p) ∧
    (nvipfixDataListFree (some a) h).fault = h.fault

section Records

variable {h : DataHeap} {list : Option ℕ} {items : List (ℕ × DataRecord)}

theorem DataHeap.Links.keeps (hold : h.Links list items) :
    h.Keeps list (items.map Prod.snd) where
  empty hnone := by rw [hold.empty hnone, List.map_nil]
  nonempty hsome := by
    obtain ⟨a, ha⟩ := Option.ne_none_iff_exists'.1 hsome
    rw [Ne, List.map_eq_nil_iff]
    exact (hold.list a ha).1
  ordered a ha := by
    obtain ⟨-, l, hl, hisList⟩ := hold.list a ha
    obtain rfl := Option.mem_def.1 ha
    exact ⟨l, items, hl, rfl, hisList.walksOver, hold.free_eq, hold.free_records, hold.free_fault⟩

/-- If no allocation fails, a list is returned. -/
theorem nvipfixDataListAddCopy_ne_none {mallocs : ℕ → Bool} (hmallocs : ∀ n, mallocs n = true)
    (list : Option ℕ) (record : Node ℕ DataRecord) (h : DataHeap) :
    (nvipfixDataListAddCopy mallocs list record h).1 ≠ none := by
  cases list with
  | none => simp [nvipfixDataListAddCopy, nvipfixDataListAdd, hmallocs]
  | some a =>
      simp only [nvipfixDataListAddCopy, nvipfixDataListAdd, hmallocs, reduceCtorEq, Bool.not_true,
        Bool.false_eq_true, if_false]
      cases (h.mallocRecord record).lists a <;> simp

/-- In a run of additions that began with the memory `start`: the list has the records added so
far, without the links that the caller had in them. -/
structure DataHeap.Grown (start : DataHeap) (list : Option ℕ) (added : List (Node ℕ DataRecord))
    (h : DataHeap) : Prop where
  links : ∃ items, h.Links list items ∧ items.map Prod.snd = added.map Node.value
  fault : h.fault = start.fault

theorem DataHeap.grown_nil (h : DataHeap) : h.Grown none [] h := ⟨⟨[], h.links_nil, rfl⟩, rfl⟩

/-- One addition. -/
theorem DataHeap.Grown.addCopy {start : DataHeap} {added : List (Node ℕ DataRecord)}
    (mallocs : ℕ → Bool) (record : Node ℕ DataRecord) (hgrown : start.Grown list added h) :
    ((nvipfixDataListAddCopy mallocs list record h).1 = none →
        start.Grown list added (nvipfixDataListAddCopy mallocs list record h).2) ∧
      ∀ a ∈ (nvipfixDataListAddCopy mallocs list record h).1, start.Grown (some a)
        (added ++ [record]) (nvipfixDataListAddCopy mallocs list record h).2 := by
  obtain ⟨⟨items, hold, hitems⟩, hfault⟩ := hgrown
  obtain ⟨hfault', hfailed, hadded⟩ := hold.addCopy mallocs record
  refine ⟨fun hnone => ⟨⟨items, (hfailed hnone).2, hitems⟩, hfault'.trans hfault⟩, fun a ha => ?_⟩
  refine ⟨⟨_, hadded a ha, ?_⟩, hfault'.trans hfault⟩
  rw [List.map_append, hitems, List.map_append]
  rfl

/-- **A list of records keeps what is added to it**, whatever allocations fail. -/
theorem addInTurn_data_keeps (mallocs : ℕ → Bool) (records : List (Node ℕ DataRecord))
    (h : DataHeap) : ∃ list added h',
      addInTurn (nvipfixDataListAddCopy mallocs) none records h = (list, added, h') ∧
      h'.Keeps list (added.map Node.value) ∧ h'.fault = h.fault := by
  obtain ⟨⟨items, hold, hadded⟩, hfault⟩ := addInTurn_induction (DataHeap.Grown h)
    (fun _ _ record _ hgrown => hgrown.addCopy mallocs record) records h.grown_nil
  rw [List.nil_append] at hadded
  exact ⟨_, _, _, rfl, hadded ▸ hold.keeps, hfault⟩

end Records

/-! ### Both lists -/

/-- **Both lists keep every value that was added, in order**: lists that are built from `NULL` by
any additions, of which any may fail for want of memory. -/
theorem lists_keep_order (mallocs : ℕ → Bool) :
    (∀ (values : List (Option ℕ)) (h : StringHeap), ∃ list added h',
        addInTurn (nvipfixStringListAdd mallocs) none values h = (list, added, h') ∧
        h'.Keeps list added ∧ added.Sublist values ∧
        ((∀ n, mallocs n = true) → added = values) ∧ h'.fault = h.fault) ∧
      ∀ (records : List (Node ℕ DataRecord)) (h : DataHeap), ∃ list added h',
        addInTurn (nvipfixDataListAddCopy mallocs) none records h = (list, added, h') ∧
        h'.Keeps list (added.map Node.value) ∧ added.Sublist records ∧
        ((∀ n, mallocs n = true) → added = records) ∧ h'.fault = h.fault := by
  constructor
  · intro values h
    obtain ⟨list, added, h', heq, hkeeps, hfault⟩ := addInTurn_string_keeps mallocs values h
    have hsublist := addInTurn_sublist (nvipfixStringListAdd mallocs) none values h
    refine ⟨list, added, h', heq, hkeeps, by rwa [heq] at hsublist, fun hmallocs => ?_, hfault⟩
    have hall := addInTurn_added (nvipfixStringListAdd_ne_none hmallocs) none values h
    rwa [heq] at hall
  · intro records h
    obtain ⟨list, added, h', heq, hkeeps, hfault⟩ := addInTurn_data_keeps mallocs records h
    have hsublist := addInTurn_sublist (nvipfixDataListAddCopy mallocs) none records h
    refine ⟨list, added, h', heq, hkeeps, by rwa [heq] at hsublist, fun hmallocs => ?_, hfault⟩
    have hall := addInTurn_added (nvipfixDataListAddCopy_ne_none hmallocs) none records h
    rwa [heq] at hall

end NvIpfix
