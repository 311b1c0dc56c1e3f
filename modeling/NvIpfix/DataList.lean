/-
**Lists of data records.**

`nvIPFIX_data_record_list_t` is a doubly linked list whose items are the records themselves: the
links are members of the record.  An addition copies a record, links and all, and the copy is then
linked to the end of the list.  The copy and the first list are allocated, and each allocation can
fail.  Memory is explicit, as it is for lists of strings.

Main definitions:

* `NvIpfix.DataHeap` — the records and lists that are live;
* `NvIpfix.nvipfixDataListAdd`, `NvIpfix.nvipfixDataListAddCopy`, `NvIpfix.nvipfixDataListFree`;
* `NvIpfix.DataHeap.Links` — a list has some records;
* `NvIpfix.DataHeap.contents` — the records that are found by following the links of a list.

Main results:

* `NvIpfix.DataHeap.Links.addCopy` — **an addition fails and changes nothing, or adds a record**;
* `NvIpfix.DataHeap.Links.free_eq` — **a list is freed record by record**;
* `NvIpfix.DataHeap.Links.contents_addCopy` — **with memory, an addition is an addition to the list
  of the records**.
-/

import NvIpfix.Data
import NvIpfix.LinkedList

set_option relaxedAutoImplicit false
set_option autoImplicit false

namespace NvIpfix

open LinkedList

/-- `nvIPFIX_data_record_list_t`; a pointer is an address or `NULL`. -/
structure DataList where
  head : Option ℕ
  tail : Option ℕ
  deriving DecidableEq, Repr

/-- The objects that are live, each with its content.  An address is the number of the allocation
before it. -/
structure DataHeap where
  next : ℕ := 0
  records : Heap ℕ DataRecord := fun _ => none
  lists : ℕ → Option DataList := fun _ => none
  /-- An object that was not live has been used or released. -/
  fault : Bool := false

namespace DataHeap

variable (h : DataHeap)

/-- A fault, unless the object is live. -/
def require (live : Bool) : DataHeap := { h with fault := h.fault || !live }

/-- An allocation, whatever comes of it. -/
def allocation : DataHeap := { h with next := h.next + 1 }

/-- `malloc` of a record, and the copy of another one that is written to it. -/
def mallocRecord (record : Node ℕ DataRecord) : DataHeap :=
  { h.allocation with records := Function.update h.records h.next (some record) }

/-- A write to a member of a record. -/
def write (p : Option ℕ) (f : Node ℕ DataRecord → Node ℕ DataRecord) : DataHeap :=
  match p with
  | none => h.require false
  | some a =>
      { h.require (h.records a).isSome with
        records := Function.update h.records a ((h.records a).map f) }

/-- A write to the link of a record to the next one. -/
def setNext (p next : Option ℕ) : DataHeap := h.write p fun node => { node with next := next }

/-- A write to the link of a record to the one before. -/
def setPrev (p prev : Option ℕ) : DataHeap := h.write p fun node => { node with prev := prev }

/-- `free` of a record. -/
def freeRecord (item : ℕ × DataRecord) : DataHeap :=
  { h.require (h.records item.1).isSome with records := Function.update h.records item.1 none }

/-- `free` of a list. -/
def freeList (a : ℕ) : DataHeap :=
  { h.require (h.lists a).isSome with lists := Function.update h.lists a none }

end DataHeap

section Functions

variable (mallocs : ℕ → Bool)

/-- `nvipfix_data_list_add`, with the outcome of each allocation. -/
def nvipfixDataListAdd (list record : Option ℕ) (h : DataHeap) : Option ℕ × DataHeap :=
  if record = none then (none, h)
  else
    match list with
    | none =>
        let a := h.next
        if !mallocs a then (none, h.allocation)
        else
          let h := (h.allocation.setPrev record none).setNext record none
          (some a, { h with
            lists := Function.update h.lists a (some { head := record, tail := record }) })
    | some a =>
        match h.lists a with
        | none => (some a, h.require false)
        | some l =>
            let h := ((h.setPrev record l.tail).setNext l.tail record).setNext record none
            (some a, { h with
              lists := Function.update h.lists a (some { l with tail := record }) })

/-- `nvipfix_data_list_add_copy`, of what the caller has in its record. -/
def nvipfixDataListAddCopy (list : Option ℕ) (record : Node ℕ DataRecord) (h : DataHeap) :
    Option ℕ × DataHeap :=
  let copy := h.next
  if !mallocs copy then (none, h.allocation)
  else nvipfixDataListAdd mallocs list (some copy) (h.mallocRecord record)

/-- `nvipfix_data_list_free`. -/
def nvipfixDataListFree (list : Option ℕ) (h : DataHeap) : DataHeap :=
  match list with
  | none => h
  | some a =>
      match h.lists a with
      | none => h.require false
      | some l =>
          (releaseLoop DataHeap.records DataHeap.freeRecord (DataHeap.require · false) h.next
            l.head h).freeList a

end Functions

/-! ### What a list has -/

/-- A list has some records: those of a list in memory.  A list that does not exist has none. -/
structure DataHeap.Links (h : DataHeap) (list : Option ℕ) (items : List (ℕ × DataRecord)) :
    Prop where
  empty : list = none → items = []
  list : ∀ a ∈ list, items ≠ [] ∧ ∃ l, h.lists a = some l ∧ IsList h.records l.head l.tail items
  allocated : ∀ item ∈ items, item.1 < h.next

section Links

variable {h h' : DataHeap} {list : Option ℕ} {items : List (ℕ × DataRecord)}

theorem DataHeap.links_nil (h : DataHeap) : h.Links none [] where
  empty _ := rfl
  list a ha := by cases ha
  allocated item hitem := by cases hitem

/-- A list is known by its objects. -/
theorem DataHeap.Links.congr (hold : h.Links list items) (hnext : h.next ≤ h'.next)
    (hlists : ∀ a ∈ list, h'.lists a = h.lists a)
    (hrecords : ∀ item ∈ items, h'.records item.1 = h.records item.1) : h'.Links list items where
  empty := hold.empty
  list a ha := by
    obtain ⟨hne, l, hl, hisList⟩ := hold.list a ha
    exact ⟨hne, l, (hlists a ha).trans hl, hisList.congr hrecords⟩
  allocated item hitem := (hold.allocated item hitem).trans_le hnext

theorem DataHeap.Links.allocation (hold : h.Links list items) : h.allocation.Links list items :=
  hold.congr (Nat.le_succ _) (fun _ _ => rfl) fun _ _ => rfl

/-- There are fewer records than allocations. -/
theorem DataHeap.Links.length_le (hold : h.Links list items) : items.length ≤ h.next := by
  cases hlist : list with
  | none => simp [hold.empty hlist]
  | some a =>
      obtain ⟨-, l, -, hisList⟩ := hold.list a hlist
      exact length_le_of_allocated hisList.nodup hold.allocated

end Links

/-! ### Additions -/

section Add

variable {mallocs : ℕ → Bool} {h : DataHeap} {list : Option ℕ} {items : List (ℕ × DataRecord)}
  {record : Node ℕ DataRecord}

/-- No copy. -/
theorem nvipfixDataListAddCopy_failure (hfirst : mallocs h.next = false) :
    nvipfixDataListAddCopy mallocs list record h = (none, h.allocation) := by
  simp only [nvipfixDataListAddCopy, hfirst, Bool.not_false, if_true]

/-- No list for the first record, whose copy stays behind. -/
theorem nvipfixDataListAddCopy_listFailure (hfirst : mallocs h.next = true)
    (hsecond : mallocs (h.next + 1) = false) : nvipfixDataListAddCopy mallocs none record h =
      (none, (h.mallocRecord record).allocation) := by
  have hnext : (h.mallocRecord record).next = h.next + 1 := rfl
  simp only [nvipfixDataListAddCopy, nvipfixDataListAdd, hfirst, hnext, hsecond, Bool.not_true,
    Bool.not_false, Bool.false_eq_true, reduceCtorEq, if_true, if_false]

/-- The links of a copy that becomes the only record. -/
theorem setLinks_first (h : DataHeap) (record : Node ℕ DataRecord) :
    ((h.mallocRecord record).allocation.setPrev (some h.next) none).setNext (some h.next) none =
      { (h.mallocRecord record).allocation with
        records := push h.records none h.next record.value } := by
  simp [DataHeap.setPrev, DataHeap.setNext, DataHeap.write, DataHeap.require,
    DataHeap.mallocRecord, DataHeap.allocation, push]

/-- The links of a copy behind the last record. -/
theorem setLinks_later {t : ℕ} (hlive : (h.records t).isSome) (hne : t ≠ h.next) :
    (((h.mallocRecord record).setPrev (some h.next) (some t)).setNext (some t)
        (some h.next)).setNext (some h.next) none =
      { h.mallocRecord record with
        records := push h.records (some t) h.next record.value } := by
  simp only [DataHeap.setNext, DataHeap.setPrev, DataHeap.write, DataHeap.require,
    DataHeap.mallocRecord, DataHeap.allocation, push, Function.update_self, Function.update_idem,
    Function.update_of_ne hne, Function.update_of_ne hne.symm, Option.isSome_some, Option.map_some,
    hlive, Bool.not_true, Bool.or_false]
  -- the last record is written between the two writes to the copy
  rw [Function.update_comm hne.symm, Function.update_idem]

/-- A first record and its list. -/
theorem nvipfixDataListAddCopy_first (hfirst : mallocs h.next = true)
    (hsecond : mallocs (h.next + 1) = true) : nvipfixDataListAddCopy mallocs none record h =
      (some (h.next + 1), { (h.mallocRecord record).allocation with
        records := push h.records none h.next record.value
        lists := Function.update h.lists (h.next + 1)
          (some { head := some h.next, tail := some h.next }) }) := by
  have hnext : (h.mallocRecord record).next = h.next + 1 := rfl
  simp only [nvipfixDataListAddCopy, nvipfixDataListAdd, hfirst, hnext, hsecond, Bool.not_true,
    Bool.false_eq_true, reduceCtorEq, if_false, setLinks_first]
  rfl

/-- A record of a list that exists. -/
theorem nvipfixDataListAddCopy_later {a t : ℕ} {l : DataList} (hfirst : mallocs h.next = true)
    (hl : h.lists a = some l) (htail : l.tail = some t) (hlive : (h.records t).isSome)
    (hne : t ≠ h.next) : nvipfixDataListAddCopy mallocs (some a) record h =
      (some a, { h.mallocRecord record with
        records := push h.records l.tail h.next record.value
        lists := Function.update h.lists a (some { l with tail := some h.next }) }) := by
  have hlists : (h.mallocRecord record).lists a = some l := hl
  simp only [nvipfixDataListAddCopy, nvipfixDataListAdd, hfirst, hlists, htail, Bool.not_true,
    Bool.false_eq_true, reduceCtorEq, if_false, setLinks_later hlive hne]
  rfl

/-- What comes of an addition: nothing, if an allocation fails, or one more record. -/
structure RecordAdded (mallocs : ℕ → Bool) (h : DataHeap) (list : Option ℕ)
    (items : List (ℕ × DataRecord)) (value : DataRecord) (result : Option ℕ × DataHeap) :
    Prop where
  fault : result.2.fault = h.fault
  failed : result.1 = none → (∃ n, mallocs n = false) ∧ result.2.Links list items
  added : ∀ a ∈ result.1, result.2.Links (some a) (items ++ [(h.next, value)])

/-- A record that is new to a list. -/
theorem DataHeap.Links.append (hold : h.Links list items) {h' : DataHeap} {a : ℕ}
    {value : DataRecord} (hnext : h.next < h'.next)
    (hlist : ∃ l, h'.lists a = some l ∧
      IsList h'.records l.head l.tail (items ++ [(h.next, value)])) :
    h'.Links (some a) (items ++ [(h.next, value)]) where
  empty heq := by cases heq
  list a' ha' := by
    obtain rfl := Option.some_inj.1 ha'
    exact ⟨by simp, hlist⟩
  allocated := allocated_append hold.allocated hnext value

/-- The addition that makes the list. -/
theorem DataHeap.Links.addCopy_first (hold : h.Links none items) :
    RecordAdded mallocs h none items record.value
      (nvipfixDataListAddCopy mallocs none record h) := by
  obtain rfl := hold.empty rfl
  have hnext : h.next < (h.mallocRecord record).allocation.next := by
    simp only [DataHeap.mallocRecord, DataHeap.allocation]
    omega
  cases hfirst : mallocs h.next with
  | false =>
      rw [nvipfixDataListAddCopy_failure hfirst]
      exact ⟨rfl, fun _ => ⟨⟨_, hfirst⟩, hold.allocation⟩, by simp⟩
  | true =>
      cases hsecond : mallocs (h.next + 1) with
      | false =>
          rw [nvipfixDataListAddCopy_listFailure hfirst hsecond]
          refine ⟨rfl, fun _ => ⟨⟨_, hsecond⟩, ?_⟩, by simp⟩
          exact hold.congr hnext.le (by simp) (by simp)
      | true =>
          rw [nvipfixDataListAddCopy_first hfirst hsecond]
          refine ⟨rfl, by simp, fun a ha => ?_⟩
          obtain rfl := Option.some_inj.1 ha
          exact hold.append hnext
            ⟨_, Function.update_self _ _ _, (IsList.nil _).push record.value (by simp)⟩

/-- An addition to a list that exists. -/
theorem DataHeap.Links.addCopy_later {a : ℕ} (hold : h.Links (some a) items) :
    RecordAdded mallocs h (some a) items record.value
      (nvipfixDataListAddCopy mallocs (some a) record h) := by
  obtain ⟨hne, l, hl, hisList⟩ := hold.list a rfl
  have hitem := not_mem_of_allocated hold.allocated
  cases hfirst : mallocs h.next with
  | false =>
      rw [nvipfixDataListAddCopy_failure hfirst]
      exact ⟨rfl, fun _ => ⟨⟨_, hfirst⟩, hold.allocation⟩, by simp⟩
  | true =>
      obtain ⟨t, htail, hlive, hmem⟩ := hisList.isSome_tail hne
      have htne : t ≠ h.next := fun heq => hitem (heq ▸ hmem)
      rw [nvipfixDataListAddCopy_later hfirst hl htail hlive htne]
      refine ⟨rfl, by simp, fun a' ha' => ?_⟩
      obtain rfl := Option.some_inj.1 ha'
      refine hold.append (Nat.lt_succ_self _) ⟨_, Function.update_self _ _ _, ?_⟩
      have hpush := hisList.push record.value hitem
      rwa [if_neg hne] at hpush

/-- **An addition fails and changes nothing, or adds a record.** -/
theorem DataHeap.Links.addCopy (mallocs : ℕ → Bool) (hold : h.Links list items)
    (record : Node ℕ DataRecord) : RecordAdded mallocs h list items record.value
      (nvipfixDataListAddCopy mallocs list record h) := by
  cases list with
  | none => exact hold.addCopy_first
  | some a => exact hold.addCopy_later

end Add

/-! ### Releasing a list -/

section Release

variable {h : DataHeap} {items : List (ℕ × DataRecord)} {a : ℕ}

theorem DataHeap.records_freeRecord (h : DataHeap) (item : ℕ × DataRecord) :
    (h.freeRecord item).records = Function.update h.records item.1 none := rfl

/-- **A list is freed record by record.** -/
theorem DataHeap.Links.free_eq (hold : h.Links (some a) items) :
    nvipfixDataListFree (some a) h = (items.foldl DataHeap.freeRecord h).freeList a := by
  obtain ⟨-, l, hl, hisList⟩ := hold.list a rfl
  simp only [nvipfixDataListFree, hl,
    hisList.segment.releaseLoop_eq _ DataHeap.records_freeRecord hisList.nodup hold.length_le]

/-- The records of a list that is freed are gone, and no other. -/
theorem DataHeap.Links.free_records (hold : h.Links (some a) items) (p : ℕ) :
    (nvipfixDataListFree (some a) h).records p =
      if p ∈ items.map Prod.fst then none else h.records p := by
  rw [hold.free_eq]
  exact heapOf_foldl_release DataHeap.records_freeRecord items h p

/-- A list is freed without a fault. -/
theorem DataHeap.Links.free_fault (hold : h.Links (some a) items) :
    (nvipfixDataListFree (some a) h).fault = h.fault := by
  obtain ⟨-, l, hl, hisList⟩ := hold.list a rfl
  have hlive := hisList.segment.isSome
  have hlists : (items.foldl DataHeap.freeRecord h).lists = h.lists :=
    foldl_release_keeps DataHeap.records_freeRecord (fun _ _ _ => rfl) hisList.nodup hlive
  have hfault : (items.foldl DataHeap.freeRecord h).fault = h.fault := by
    refine foldl_release_keeps DataHeap.records_freeRecord (fun h item hitem => ?_) hisList.nodup
      hlive
    simp [DataHeap.freeRecord, DataHeap.require, hitem]
  rw [hold.free_eq, DataHeap.freeList, DataHeap.require, hlists, hfault, hl]
  simp

end Release

/-! ### The records of a list -/

/-- The records of a list, as the links from its head pass them; there are none without a list. -/
def DataHeap.contents (h : DataHeap) (list : Option ℕ) : Option (List DataRecord) := do
  let a ← list
  let l ← h.lists a
  let items ← walk h.records Node.next h.next l.head
  return items.map Prod.snd

section Contents

variable {h : DataHeap} {list : Option ℕ} {items : List (ℕ × DataRecord)}

theorem DataHeap.contents_none (h : DataHeap) : h.contents none = none := rfl

theorem DataHeap.Links.contents_some {a : ℕ} (hold : h.Links (some a) items) :
    h.contents (some a) = some (items.map Prod.snd) := by
  obtain ⟨-, l, hl, hisList⟩ := hold.list a rfl
  simp only [DataHeap.contents, Option.bind_eq_bind, Option.bind_some, hl,
    hisList.walksOver.walk_next _ hold.length_le, Option.pure_def]

/-- The list of the records, which is empty without a list. -/
theorem DataHeap.Links.contents_getD (hold : h.Links list items) :
    (h.contents list).getD [] = items.map Prod.snd := by
  cases list with
  | none => rw [h.contents_none, hold.empty rfl, Option.getD_none, List.map_nil]
  | some a => rw [hold.contents_some, Option.getD_some]

/-- **With memory, an addition is an addition to the list of the records.** -/
theorem DataHeap.Links.contents_addCopy {mallocs : ℕ → Bool} (hmallocs : ∀ n, mallocs n = true)
    (hold : h.Links list items) (record : Node ℕ DataRecord) :
    (nvipfixDataListAddCopy mallocs list record h).2.contents
        (nvipfixDataListAddCopy mallocs list record h).1 =
      dataListAddCopy (h.contents list) record.value := by
  obtain ⟨-, hfailed, hadded⟩ := hold.addCopy mallocs record
  rcases hresult : nvipfixDataListAddCopy mallocs list record h with ⟨_ | a, h'⟩
  · rw [hresult] at hfailed
    obtain ⟨⟨n, hn⟩, -⟩ := hfailed rfl
    rw [hmallocs n] at hn
    cases hn
  · rw [hresult] at hadded
    dsimp only
    rw [(hadded a rfl).contents_some, dataListAddCopy, hold.contents_getD, List.map_append,
      List.map_singleton]

end Contents

end NvIpfix
