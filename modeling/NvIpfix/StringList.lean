/-
**Lists of strings.**

`nvIPFIX_string_list_t` is a doubly linked list of pointers to strings, with the number of its
items.  An addition allocates an item, and a first one the list as well; each allocation can fail.
Memory is explicit: an object is live between its allocation and its release, and using or releasing
one that is not live is a fault.

Main definitions:

* `NvIpfix.StringHeap` — the objects that are live;
* `NvIpfix.nvipfixStringListAdd`, `NvIpfix.nvipfixStringListFree`;
* `NvIpfix.StringHeap.Links` — a list has some items, whatever their values are;
* `NvIpfix.StringHeap.Holds` — a list holds some strings.

Main results:

* `NvIpfix.StringHeap.Links.add` — **an addition fails and changes nothing, or adds an item**;
* `NvIpfix.StringHeap.Links.free_eq` — **a list is freed item by item**;
* `NvIpfix.StringHeap.Holds.add`, `NvIpfix.StringHeap.Holds.free` — the same for strings, without a
  fault.
-/

import NvIpfix.CString
import NvIpfix.LinkedList

set_option relaxedAutoImplicit false
set_option autoImplicit false

namespace NvIpfix

open LinkedList

/-- `nvIPFIX_string_list_t`; a pointer is an address or `NULL`. -/
structure StringList where
  head : Option ℕ
  tail : Option ℕ
  count : ℕ
  deriving DecidableEq, Repr

/-- The objects that are live, each with its content: strings, and `nvIPFIX_string_list_item_t` and
`nvIPFIX_string_list_t` of the lists.  An address is the number of the allocation before it. -/
structure StringHeap where
  next : ℕ := 0
  buffers : ℕ → Option CString := fun _ => none
  items : Heap ℕ (Option ℕ) := fun _ => none
  lists : ℕ → Option StringList := fun _ => none
  /-- An object that was not live has been used or released. -/
  fault : Bool := false

namespace StringHeap

variable (h : StringHeap)

/-- A fault, unless the object is live. -/
def require (live : Bool) : StringHeap := { h with fault := h.fault || !live }

/-- An allocation, whatever comes of it. -/
def allocation : StringHeap := { h with next := h.next + 1 }

/-- `malloc` of a string and what is written to it. -/
def mallocBuffer (s : CString) : StringHeap :=
  { h.allocation with buffers := Function.update h.buffers h.next (some s) }

/-- `malloc` of an item that has its value, but no links yet. -/
def mallocItem (value : Option ℕ) : StringHeap :=
  { h.allocation with
    items := Function.update h.items h.next (some { value, next := none, prev := none }) }

/-- `free` of a string, or of `NULL`. -/
def freeBuffer (p : Option ℕ) : StringHeap :=
  match p with
  | none => h
  | some a =>
      { h.require (h.buffers a).isSome with buffers := Function.update h.buffers a none }

/-- `free` of an item. -/
def freeItem (a : ℕ) : StringHeap :=
  { h.require (h.items a).isSome with items := Function.update h.items a none }

/-- `free` of a list. -/
def freeList (a : ℕ) : StringHeap :=
  { h.require (h.lists a).isSome with lists := Function.update h.lists a none }

end StringHeap

section Functions

variable (mallocs : ℕ → Bool)

/-- `nvipfix_string_list_add`, with the outcome of each allocation. -/
def nvipfixStringListAdd (list : Option ℕ) (value : Option ℕ) (h : StringHeap) :
    Option ℕ × StringHeap :=
  let item := h.next
  if !mallocs item then (none, h.allocation)
  else
    let h := h.mallocItem value
    match list with
    | none =>
        let a := h.next
        if !mallocs a then (none, h.allocation.freeItem item)
        else
          (some a, { h.allocation with
            items := push h.items none item value
            lists := Function.update h.lists a
              (some { head := some item, tail := some item, count := 1 }) })
    | some a =>
        match h.lists a with
        | none => (some a, h.require false)
        | some l =>
            (some a, { h.require (l.tail.bind h.items).isSome with
              items := push h.items l.tail item value
              lists := Function.update h.lists a
                (some { l with tail := some item, count := l.count + 1 }) })

/-- The loop over the items of a list that is freed, which ends if they are fewer than `fuel`. -/
def freeItems (shouldFreeValues : Bool) : ℕ → Option ℕ → StringHeap → StringHeap
  | _, none, h => h
  | 0, some _, h => h.require false
  | fuel + 1, some item, h =>
      match h.items item with
      | none => h.require false
      | some node =>
          let h := if shouldFreeValues then h.freeBuffer node.value else h
          freeItems shouldFreeValues fuel node.next (h.freeItem item)

/-- `nvipfix_string_list_free`. -/
def nvipfixStringListFree (list : Option ℕ) (shouldFreeValues : Bool) (h : StringHeap) :
    StringHeap :=
  match list with
  | none => h
  | some a =>
      match h.lists a with
      | none => h.require false
      | some l => (freeItems shouldFreeValues h.next l.head h).freeList a

end Functions

/-! ### What a list holds -/

/-- A list has some items: those of a list in memory, whose number it has.  A list that does not
exist has none. -/
structure StringHeap.Links (h : StringHeap) (list : Option ℕ) (items : List (ℕ × Option ℕ)) :
    Prop where
  empty : list = none → items = []
  list : ∀ a ∈ list, items ≠ [] ∧ ∃ l, h.lists a = some l ∧ l.count = items.length ∧
    IsList h.items l.head l.tail items
  allocated : ∀ item ∈ items, item.1 < h.next

section Links

variable {h h' : StringHeap} {list : Option ℕ} {items : List (ℕ × Option ℕ)}

theorem StringHeap.links_nil (h : StringHeap) : h.Links none [] where
  empty _ := rfl
  list a ha := by cases ha
  allocated item hitem := by cases hitem

/-- A list is known by its objects. -/
theorem StringHeap.Links.congr (hold : h.Links list items) (hnext : h.next ≤ h'.next)
    (hlists : ∀ a ∈ list, h'.lists a = h.lists a)
    (hitems : ∀ item ∈ items, h'.items item.1 = h.items item.1) : h'.Links list items where
  empty := hold.empty
  list a ha := by
    obtain ⟨hne, l, hl, hcount, hisList⟩ := hold.list a ha
    exact ⟨hne, l, (hlists a ha).trans hl, hcount, hisList.congr hitems⟩
  allocated item hitem := (hold.allocated item hitem).trans_le hnext

/-- There are fewer items than allocations. -/
theorem StringHeap.Links.length_le (hold : h.Links list items) : items.length ≤ h.next := by
  cases hlist : list with
  | none => simp [hold.empty hlist]
  | some a =>
      obtain ⟨-, l, -, -, hisList⟩ := hold.list a hlist
      exact length_le_of_allocated hisList.nodup hold.allocated

end Links

/-- A list holds some strings: the items of a list in memory, whose number it has, point to strings
of their own.  A list that does not exist holds none. -/
structure StringHeap.Holds (h : StringHeap) (list : Option ℕ) (items : List (ℕ × Option ℕ))
    (tokens : List CString) : Prop where
  empty : list = none → items = []
  list : ∀ a ∈ list, items ≠ [] ∧ ∃ l, h.lists a = some l ∧ l.count = items.length ∧
    IsList h.items l.head l.tail items
  strings : items.map (fun item => item.2.bind h.buffers) = tokens.map some
  nodup : (items.map Prod.snd).Nodup
  allocated : ∀ item ∈ items, item.1 < h.next ∧ ∀ b ∈ item.2, b < h.next

section Holds

variable {h : StringHeap} {list : Option ℕ} {items : List (ℕ × Option ℕ)} {tokens : List CString}

theorem StringHeap.holds_nil (h : StringHeap) : h.Holds none [] [] where
  empty _ := rfl
  list a ha := by cases ha
  strings := rfl
  nodup := List.nodup_nil
  allocated item hitem := by cases hitem

theorem StringHeap.Holds.links (hold : h.Holds list items tokens) : h.Links list items where
  empty := hold.empty
  list := hold.list
  allocated item hitem := (hold.allocated item hitem).1

/-- The strings of a list that stay as they are. -/
theorem StringHeap.Holds.of_links {h' : StringHeap} {list' : Option ℕ}
    (hold : h.Holds list items tokens) (hlinks : h'.Links list' items) (hnext : h.next ≤ h'.next)
    (hbuffers : ∀ item ∈ items, ∀ b ∈ item.2, h'.buffers b = h.buffers b) :
    h'.Holds list' items tokens where
  empty := hlinks.empty
  list := hlinks.list
  strings := by
    rw [← hold.strings]
    refine List.map_congr_left fun item hitem => ?_
    cases hvalue : item.2 with
    | none => rfl
    | some b => exact hbuffers item hitem b hvalue
  nodup := hold.nodup
  allocated item hitem :=
    ⟨hlinks.allocated item hitem, fun b hb => ((hold.allocated item hitem).2 b hb).trans_le hnext⟩

/-- The strings of a list are live. -/
theorem StringHeap.Holds.isSome (hold : h.Holds list items tokens) :
    ∀ item ∈ items, (item.2.bind h.buffers).isSome := by
  intro item hitem
  have hmem := List.mem_map_of_mem (f := fun item => item.2.bind h.buffers) hitem
  rw [hold.strings] at hmem
  obtain ⟨token, -, htoken⟩ := List.mem_map.1 hmem
  rw [← htoken, Option.isSome_some]

/-- A list has one string for each item. -/
theorem StringHeap.Holds.length_eq (hold : h.Holds list items tokens) :
    items.length = tokens.length := by
  have hlength := congrArg List.length hold.strings
  rwa [List.length_map, List.length_map] at hlength

/-- The next address is that of no item and no string. -/
theorem StringHeap.Holds.next_not_mem (hold : h.Holds list items tokens) :
    h.next ∉ items.map Prod.fst ∧ some h.next ∉ items.map Prod.snd := by
  refine ⟨not_mem_of_allocated hold.links.allocated, fun hmem => ?_⟩
  obtain ⟨item, hitem, heq⟩ := List.mem_map.1 hmem
  have hlt := (hold.allocated item hitem).2 h.next heq
  omega

end Holds

/-! ### Allocations -/

section Allocation

variable {mallocs : ℕ → Bool} {h : StringHeap} {list : Option ℕ} {items : List (ℕ × Option ℕ)}
  {tokens : List CString}

theorem StringHeap.Links.allocation (hold : h.Links list items) : h.allocation.Links list items :=
  hold.congr (Nat.le_succ _) (fun _ _ => rfl) fun _ _ => rfl

theorem StringHeap.Holds.allocation (hold : h.Holds list items tokens) :
    h.allocation.Holds list items tokens :=
  hold.of_links hold.links.allocation (Nat.le_succ _) fun _ _ _ _ => rfl

/-- A new string is not one of the list. -/
theorem StringHeap.Holds.mallocBuffer (hold : h.Holds list items tokens) (s : CString) :
    (h.mallocBuffer s).Holds list items tokens := by
  refine hold.of_links (hold.links.congr (Nat.le_succ _) (fun _ _ => rfl) fun _ _ => rfl)
    (Nat.le_succ _) fun item hitem b hb => ?_
  have hlt := (hold.allocated item hitem).2 b hb
  exact Function.update_of_ne (by omega) _ _

/-- No item. -/
theorem nvipfixStringListAdd_failure {value : Option ℕ} (hfirst : mallocs h.next = false) :
    nvipfixStringListAdd mallocs list value h = (none, h.allocation) := by
  simp only [nvipfixStringListAdd, hfirst, Bool.not_false, if_true]

/-- No list for the first item. -/
theorem nvipfixStringListAdd_listFailure {value : Option ℕ} (hfirst : mallocs h.next = true)
    (hsecond : mallocs (h.next + 1) = false) : nvipfixStringListAdd mallocs none value h =
      (none, (h.mallocItem value).allocation.freeItem h.next) := by
  have hnext : (h.mallocItem value).next = h.next + 1 := rfl
  simp only [nvipfixStringListAdd, hfirst, hnext, hsecond, Bool.not_true, Bool.not_false,
    Bool.false_eq_true, if_true, if_false]

/-- A first item and its list. -/
theorem nvipfixStringListAdd_first {value : Option ℕ} (hfirst : mallocs h.next = true)
    (hsecond : mallocs (h.next + 1) = true) : nvipfixStringListAdd mallocs none value h =
      (some (h.next + 1), { (h.mallocItem value).allocation with
        items := push (h.mallocItem value).items none h.next value
        lists := Function.update h.lists (h.next + 1)
          (some { head := some h.next, tail := some h.next, count := 1 }) }) := by
  have hnext : (h.mallocItem value).next = h.next + 1 := rfl
  simp only [nvipfixStringListAdd, hfirst, hnext, hsecond, Bool.not_true, Bool.false_eq_true,
    if_false]
  rfl

/-- An item of a list that exists. -/
theorem nvipfixStringListAdd_later {value : Option ℕ} {a : ℕ} {l : StringList}
    (hfirst : mallocs h.next = true) (hl : h.lists a = some l) :
    nvipfixStringListAdd mallocs (some a) value h =
      (some a, { (h.mallocItem value).require (l.tail.bind (h.mallocItem value).items).isSome with
        items := push (h.mallocItem value).items l.tail h.next value
        lists := Function.update h.lists a
          (some { l with tail := some h.next, count := l.count + 1 }) }) := by
  have hlists : (h.mallocItem value).lists a = some l := hl
  simp only [nvipfixStringListAdd, hfirst, hlists, Bool.not_true, Bool.false_eq_true, if_false]
  rfl

/-- What comes of an addition: nothing, if an allocation fails, or one more item. -/
structure Extended (mallocs : ℕ → Bool) (h : StringHeap) (list : Option ℕ)
    (items : List (ℕ × Option ℕ)) (value : Option ℕ) (result : Option ℕ × StringHeap) : Prop where
  fault : result.2.fault = h.fault
  buffers : result.2.buffers = h.buffers
  next : h.next < result.2.next
  failed : result.1 = none → (∃ n, mallocs n = false) ∧ result.2.Links list items
  added : ∀ a ∈ result.1, result.2.Links (some a) (items ++ [(h.next, value)])

/-- An item that is new to a list. -/
theorem StringHeap.Links.append (hold : h.Links list items) {h' : StringHeap} {a : ℕ}
    {value : Option ℕ} (hnext : h.next < h'.next)
    (hlist : ∃ l, h'.lists a = some l ∧ l.count = items.length + 1 ∧
      IsList h'.items l.head l.tail (items ++ [(h.next, value)])) :
    h'.Links (some a) (items ++ [(h.next, value)]) where
  empty heq := by cases heq
  list a' ha' := by
    obtain rfl := Option.some_inj.1 ha'
    obtain ⟨l, hl, hcount, hisList⟩ := hlist
    exact ⟨by simp, l, hl, by rw [hcount, List.length_append, List.length_singleton], hisList⟩
  allocated := allocated_append hold.allocated hnext value

/-- The addition that makes the list. -/
theorem StringHeap.Links.add_first (hold : h.Links none items) (value : Option ℕ) :
    Extended mallocs h none items value (nvipfixStringListAdd mallocs none value h) := by
  obtain rfl := hold.empty rfl
  have hnext : h.next < (h.mallocItem value).allocation.next := by
    simp only [StringHeap.mallocItem, StringHeap.allocation]
    omega
  cases hfirst : mallocs h.next with
  | false =>
      rw [nvipfixStringListAdd_failure hfirst]
      exact ⟨rfl, rfl, Nat.lt_succ_self _, fun _ => ⟨⟨_, hfirst⟩, hold.allocation⟩, by simp⟩
  | true =>
      cases hsecond : mallocs (h.next + 1) with
      | false =>
          -- the item is released again
          rw [nvipfixStringListAdd_listFailure hfirst hsecond]
          refine ⟨?_, rfl, hnext, fun _ => ⟨⟨_, hsecond⟩, ?_⟩, by simp⟩
          · simp [StringHeap.freeItem, StringHeap.mallocItem, StringHeap.allocation,
              StringHeap.require]
          · exact hold.congr hnext.le (by simp) (by simp)
      | true =>
          rw [nvipfixStringListAdd_first hfirst hsecond]
          refine ⟨rfl, rfl, hnext, by simp, fun a ha => ?_⟩
          obtain rfl := Option.some_inj.1 ha
          exact hold.append hnext
            ⟨_, Function.update_self _ _ _, rfl, (IsList.nil _).push value (by simp)⟩

/-- An addition to a list that exists. -/
theorem StringHeap.Links.add_later {a : ℕ} (hold : h.Links (some a) items) (value : Option ℕ) :
    Extended mallocs h (some a) items value (nvipfixStringListAdd mallocs (some a) value h) := by
  obtain ⟨hne, l, hl, hcount, hisList⟩ := hold.list a rfl
  have hitem := not_mem_of_allocated hold.allocated
  cases hfirst : mallocs h.next with
  | false =>
      rw [nvipfixStringListAdd_failure hfirst]
      exact ⟨rfl, rfl, Nat.lt_succ_self _, fun _ => ⟨⟨_, hfirst⟩, hold.allocation⟩, by simp⟩
  | true =>
      rw [nvipfixStringListAdd_later hfirst hl]
      -- the new item is not one of the list, whose last one is live
      have hisList' : IsList (h.mallocItem value).items l.head l.tail items := by
        refine hisList.congr fun item hmem => Function.update_of_ne ?_ _ _
        intro heq
        exact hitem (List.mem_map.2 ⟨item, hmem, heq⟩)
      obtain ⟨t, htail, hlive, -⟩ := hisList'.isSome_tail hne
      refine ⟨?_, rfl, Nat.lt_succ_self _, by simp, fun a' ha' => ?_⟩
      · simp [StringHeap.require, StringHeap.mallocItem, StringHeap.allocation, htail, hlive] at *
      · obtain rfl := Option.some_inj.1 ha'
        refine hold.append (Nat.lt_succ_self _) ⟨_, Function.update_self _ _ _, by rw [hcount], ?_⟩
        have hpush := hisList'.push value hitem
        rwa [if_neg hne] at hpush

/-- **An addition fails and changes nothing, or adds an item**, whatever its value is. -/
theorem StringHeap.Links.add (mallocs : ℕ → Bool) (hold : h.Links list items) (value : Option ℕ) :
    Extended mallocs h list items value (nvipfixStringListAdd mallocs list value h) := by
  cases list with
  | none => exact hold.add_first value
  | some a => exact hold.add_later value

/-- What comes of adding a string to a list: nothing, if an allocation fails, or one more item. -/
structure Added (mallocs : ℕ → Bool) (h : StringHeap) (list : Option ℕ)
    (items : List (ℕ × Option ℕ)) (tokens : List CString) (b : ℕ) (s : CString)
    (result : Option ℕ × StringHeap) : Prop where
  fault : result.2.fault = h.fault
  buffers : result.2.buffers = h.buffers
  next : h.next ≤ result.2.next
  failed : result.1 = none → (∃ n, mallocs n = false) ∧ result.2.Holds list items tokens
  added : ∀ a ∈ result.1,
    result.2.Holds (some a) (items ++ [(h.next, some b)]) (tokens ++ [s])

section Add

variable {b : ℕ} {s : CString}

/-- A string that is new to a list. -/
theorem StringHeap.Holds.append (hold : h.Holds list items tokens) (hb : h.buffers b = some s)
    (hlt : b < h.next) (hnew : some b ∉ items.map Prod.snd) {h' : StringHeap} {a : ℕ}
    (hnext : h.next < h'.next) (hbuffers : h'.buffers = h.buffers)
    (hlinks : h'.Links (some a) (items ++ [(h.next, some b)])) :
    h'.Holds (some a) (items ++ [(h.next, some b)]) (tokens ++ [s]) where
  empty := hlinks.empty
  list := hlinks.list
  strings := by
    rw [List.map_append, List.map_append, hbuffers, hold.strings]
    simp [hb]
  nodup := by
    rw [List.map_append, List.map_singleton, List.nodup_append']
    exact ⟨hold.nodup, List.nodup_singleton _, by simpa using hnew⟩
  allocated := by
    intro item hmem
    refine ⟨hlinks.allocated item hmem, fun b' hb' => ?_⟩
    rcases List.mem_append.1 hmem with hmem | hmem
    · exact ((hold.allocated item hmem).2 b' hb').trans hnext
    · obtain rfl := List.mem_singleton.1 hmem
      obtain rfl := Option.some_inj.1 hb'
      exact hlt.trans hnext

/-- **An addition fails and changes nothing, or adds a string.** -/
theorem StringHeap.Holds.add (mallocs : ℕ → Bool) (hold : h.Holds list items tokens)
    (hb : h.buffers b = some s) (hlt : b < h.next) (hnew : some b ∉ items.map Prod.snd) :
    Added mallocs h list items tokens b s (nvipfixStringListAdd mallocs list (some b) h) := by
  obtain ⟨hfault, hbuffers, hnext, hfailed, hadded⟩ := hold.links.add mallocs (some b)
  refine ⟨hfault, hbuffers, hnext.le, fun hnone => ?_, fun a ha => ?_⟩
  · obtain ⟨hfalse, hlinks⟩ := hfailed hnone
    exact ⟨hfalse, hold.of_links hlinks hnext.le fun _ _ _ _ => by rw [hbuffers]⟩
  · exact hold.append hb hlt hnew hnext hbuffers (hadded a ha)

end Add

/-! ### Releasing a list -/

/-- The body of the loop over the items of a list that is freed. -/
def releaseItem (shouldFreeValues : Bool) (h : StringHeap) (item : ℕ × Option ℕ) : StringHeap :=
  (if shouldFreeValues then h.freeBuffer item.2 else h).freeItem item.1

section Release

variable {flag : Bool}

@[simp] theorem StringHeap.items_freeBuffer (h : StringHeap) (p : Option ℕ) :
    (h.freeBuffer p).items = h.items := by cases p <;> rfl

@[simp] theorem StringHeap.lists_freeBuffer (h : StringHeap) (p : Option ℕ) :
    (h.freeBuffer p).lists = h.lists := by cases p <;> rfl

@[simp] theorem items_releaseItem (h : StringHeap) (item : ℕ × Option ℕ) :
    (releaseItem flag h item).items = Function.update h.items item.1 none := by
  cases flag <;> simp [releaseItem, StringHeap.freeItem]

@[simp] theorem lists_releaseItem (h : StringHeap) (item : ℕ × Option ℕ) :
    (releaseItem flag h item).lists = h.lists := by
  cases flag <;> simp [releaseItem, StringHeap.freeItem, StringHeap.require]

theorem freeItems_eq_releaseLoop (fuel : ℕ) (first : Option ℕ) (h : StringHeap) :
    freeItems flag fuel first h = releaseLoop StringHeap.items (releaseItem flag)
      (StringHeap.require · false) fuel first h := by
  induction fuel generalizing first h with
  | zero => cases first <;> rfl
  | succ fuel ih =>
      cases first with
      | none => rfl
      | some p =>
          simp only [freeItems, releaseLoop]
          cases h.items p with
          | none => rfl
          | some node => exact ih _ _

/-- **The loop releases each item once**, in order. -/
theorem freeItems_eq_foldl {prev first last : Option ℕ} {fuel : ℕ}
    (hsegment : Segment h.items prev first items last none) (hnodup : (items.map Prod.fst).Nodup)
    (hfuel : items.length ≤ fuel) :
    freeItems flag fuel first h = items.foldl (releaseItem flag) h := by
  rw [freeItems_eq_releaseLoop]
  exact hsegment.releaseLoop_eq _ items_releaseItem hnodup hfuel

/-- **A list is freed item by item.** -/
theorem StringHeap.Links.free_eq {a : ℕ} (hold : h.Links (some a) items) :
    nvipfixStringListFree (some a) flag h = (items.foldl (releaseItem flag) h).freeList a := by
  obtain ⟨-, l, hl, -, hisList⟩ := hold.list a rfl
  simp only [nvipfixStringListFree, hl,
    freeItems_eq_foldl hisList.segment hisList.nodup hold.length_le]

/-- The items of a list that is freed are gone, and no other. -/
theorem StringHeap.Links.free_items {a : ℕ} (hold : h.Links (some a) items) (flag : Bool) (p : ℕ) :
    (nvipfixStringListFree (some a) flag h).items p =
      if p ∈ items.map Prod.fst then none else h.items p := by
  rw [hold.free_eq]
  exact heapOf_foldl_release items_releaseItem items h p

/-- A list that is freed item by item, its values being kept, makes no fault. -/
theorem StringHeap.Links.free_fault {a : ℕ} (hold : h.Links (some a) items) :
    (nvipfixStringListFree (some a) false h).fault = h.fault := by
  obtain ⟨-, l, hl, -, hisList⟩ := hold.list a rfl
  have hlive := hisList.segment.isSome
  have hlists : (items.foldl (releaseItem false) h).lists = h.lists :=
    foldl_release_keeps items_releaseItem (fun h item _ => lists_releaseItem h item) hisList.nodup
      hlive
  have hfault : (items.foldl (releaseItem false) h).fault = h.fault := by
    refine foldl_release_keeps items_releaseItem (fun h item hitem => ?_) hisList.nodup hlive
    simp [releaseItem, StringHeap.freeItem, StringHeap.require, hitem]
  rw [hold.free_eq, StringHeap.freeList, StringHeap.require, hlists, hfault, hl]
  simp

/-- Memory without some items and the strings that they point to. -/
def StringHeap.without (h : StringHeap) (items : List (ℕ × Option ℕ)) : StringHeap :=
  { h with
    items := fun p => if p ∈ items.map Prod.fst then none else h.items p
    buffers := fun b => if some b ∈ items.map Prod.snd then none else h.buffers b }

/-- One item is released, and its string. -/
theorem StringHeap.without_cons (h : StringHeap) {p b : ℕ} (rest : List (ℕ × Option ℕ))
    (hitem : (h.items p).isSome) (hbuffer : (h.buffers b).isSome) :
    ((h.freeBuffer (some b)).freeItem p).without rest = h.without ((p, some b) :: rest) := by
  simp only [StringHeap.without, StringHeap.freeItem, StringHeap.freeBuffer, StringHeap.require,
    hitem, hbuffer, Bool.not_true, Bool.or_false, List.map_cons, List.mem_cons,
    StringHeap.mk.injEq, true_and, and_true]
  constructor
  · funext b'
    by_cases hb : b' = b
    · simp [hb]
    · have hiff : some b' = some b ∨ some b' ∈ rest.map Prod.snd ↔
          some b' ∈ rest.map Prod.snd := by
        simp [hb]
      rw [Function.update_of_ne hb]
      exact if_congr hiff.symm rfl rfl
  · funext p'
    by_cases hp : p' = p
    · simp [hp]
    · have hiff : p' = p ∨ p' ∈ rest.map Prod.fst ↔ p' ∈ rest.map Prod.fst := by
        simp [hp]
      rw [Function.update_of_ne hp]
      exact if_congr hiff.symm rfl rfl

/-- The other items and strings stay. -/
theorem StringHeap.freed_of_ne (h : StringHeap) {p b : ℕ} {item : ℕ × Option ℕ} (hp : item.1 ≠ p)
    (hb : item.2 ≠ some b) :
    ((h.freeBuffer (some b)).freeItem p).items item.1 = h.items item.1 ∧
      item.2.bind ((h.freeBuffer (some b)).freeItem p).buffers = item.2.bind h.buffers := by
  refine ⟨Function.update_of_ne hp _ _, ?_⟩
  cases hvalue : item.2 with
  | none => rfl
  | some b' =>
      have hne : b' ≠ b := fun heq => hb (hvalue.trans (congrArg some heq))
      exact Function.update_of_ne hne _ _

/-- Items are released without a fault if each has a string of its own. -/
theorem foldl_releaseItem_eq (hitems : (items.map Prod.fst).Nodup)
    (hvalues : (items.map Prod.snd).Nodup) (hlive : ∀ item ∈ items, (h.items item.1).isSome)
    (hstrings : ∀ item ∈ items, (item.2.bind h.buffers).isSome) :
    items.foldl (releaseItem true) h = h.without items := by
  induction items generalizing h with
  | nil => simp [StringHeap.without]
  | cons item rest ih =>
      obtain ⟨p, value⟩ := item
      have hvalue := hstrings _ List.mem_cons_self
      obtain ⟨b, rfl⟩ : ∃ b, value = some b := by
        cases value with
        | none => cases hvalue
        | some b => exact ⟨b, rfl⟩
      rw [List.map_cons, List.nodup_cons] at hitems hvalues
      -- the rest of the list has other items and other strings
      have hfreed : ∀ item ∈ rest, _ := fun item hmem => h.freed_of_ne
        (fun heq => hitems.1 (List.mem_map.2 ⟨item, hmem, heq⟩))
        (fun heq => hvalues.1 (List.mem_map.2 ⟨item, hmem, heq⟩))
      have hrelease : releaseItem true h (p, some b) = (h.freeBuffer (some b)).freeItem p := rfl
      rw [List.foldl_cons, hrelease, ih hitems.2 hvalues.2,
        StringHeap.without_cons h rest (hlive _ List.mem_cons_self) hvalue]
      · intro item hmem
        rw [(hfreed item hmem).1]
        exact hlive item (List.mem_cons_of_mem _ hmem)
      · intro item hmem
        rw [(hfreed item hmem).2]
        exact hstrings item (List.mem_cons_of_mem _ hmem)

/-- **A list is freed without a fault**, and strings of others stay. -/
theorem StringHeap.Holds.free (hold : h.Holds list items tokens) :
    (nvipfixStringListFree list true h).fault = h.fault ∧
      ∀ b, some b ∉ items.map Prod.snd →
        (nvipfixStringListFree list true h).buffers b = h.buffers b := by
  cases list with
  | none => exact ⟨rfl, fun _ _ => rfl⟩
  | some a =>
      obtain ⟨hne, l, hl, hcount, hisList⟩ := hold.list a rfl
      rw [hold.links.free_eq, foldl_releaseItem_eq hisList.nodup hold.nodup hisList.segment.isSome
        hold.isSome]
      refine ⟨?_, fun b hb => ?_⟩
      · simp [StringHeap.freeList, StringHeap.require, StringHeap.without, hl]
      · simp only [StringHeap.freeList, StringHeap.require, StringHeap.without]
        exact if_neg hb

end Release

end Allocation

end NvIpfix
