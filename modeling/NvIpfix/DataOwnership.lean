/-
**What a list of records adds to memory.**

A list of records is built by additions, and released when it has been exported.  All that it has is
new, so that its release restores memory, but for one thing: if there is no memory for the list
itself, the copy of its first record stays behind.  `nvipfix_string_list_add` releases its item in
that case.

Main definitions:

* `NvIpfix.DataHeap.Fresh`, `NvIpfix.DataHeap.Restored` — as for strings;
* `NvIpfix.DataHeap.Extends` — memory as it was, a list of records, and copies that stay behind;
* `NvIpfix.DataHeap.Leaks` — what is left when the list is released;
* `NvIpfix.dataListCollect`, `NvIpfix.Collected` — a list as the result of additions.

Main results:

* `NvIpfix.DataHeap.Extends.addCopy`, `NvIpfix.Collected.add` — one addition;
* `NvIpfix.DataHeap.Extends.leaks_free` — **a list that is freed leaves only those copies**;
* `NvIpfix.DataHeap.Leaks.trans`, `NvIpfix.DataHeap.Leaks.restored`.
-/

import NvIpfix.DataList

set_option relaxedAutoImplicit false
set_option autoImplicit false

namespace NvIpfix

open LinkedList

/-- No object has an address that is still to be given out. -/
structure DataHeap.Fresh (d : DataHeap) : Prop where
  records : ∀ p, d.next ≤ p → d.records p = none
  lists : ∀ a, d.next ≤ a → d.lists a = none

theorem DataHeap.fresh_empty : ({} : DataHeap).Fresh := ⟨fun _ _ => rfl, fun _ _ => rfl⟩

/-- Memory as it was, though addresses have been given out. -/
structure DataHeap.Restored (d d' : DataHeap) : Prop where
  next_le : d.next ≤ d'.next
  eq : d' = { d with next := d'.next }

/-- Memory as it was, a list of records, and the copies that stay behind when there is no memory for
their list. -/
structure DataHeap.Extends (mallocs : ℕ → Bool) (d₀ d : DataHeap) (list : Option ℕ)
    (items : List (ℕ × DataRecord)) (leaked : List ℕ) : Prop where
  links : d.Links list items
  fresh : d.Fresh
  next_le : d₀.next ≤ d.next
  new : ∀ item ∈ items, d₀.records item.1 = none
  new_list : ∀ a ∈ list, d₀.lists a = none ∧ a < d.next
  leaks : ∀ p ∈ leaked, mallocs (p + 1) = false ∧ d₀.records p = none ∧ (d.records p).isSome ∧
    p ∉ items.map Prod.fst
  keeps_records : ∀ p, p ∉ items.map Prod.fst → p ∉ leaked → d.records p = d₀.records p
  keeps_lists : ∀ a, a ∉ list → d.lists a = d₀.lists a
  fault : d.fault = d₀.fault

section Extends

variable {mallocs : ℕ → Bool} {d₀ d : DataHeap} {list : Option ℕ} {items : List (ℕ × DataRecord)}
  {leaked : List ℕ}

/-- Memory is known by its objects. -/
theorem DataHeap.Restored.of_eq {d' : DataHeap} (hnext : d.next ≤ d'.next)
    (hrecords : d'.records = d.records) (hlists : d'.lists = d.lists)
    (hfault : d'.fault = d.fault) : d.Restored d' := by
  refine ⟨hnext, ?_⟩
  obtain ⟨next, records, lists, fault⟩ := d'
  simp only at hrecords hlists hfault
  rw [hrecords, hlists, hfault]

/-- Nothing is added. -/
theorem DataHeap.extends_nil (hfresh : d.Fresh) : d.Extends mallocs d none [] [] where
  links := d.links_nil
  fresh := hfresh
  next_le := le_rfl
  new item hitem := by cases hitem
  new_list a ha := by cases ha
  leaks p hp := by cases hp
  keeps_records p _ _ := rfl
  keeps_lists a _ := rfl
  fault := rfl

/-! ### Additions -/

/-- An address that is still to be given out is that of no object. -/
theorem DataHeap.Extends.next_new (hext : d₀.Extends mallocs d list items leaked) {p : ℕ}
    (hp : d.next ≤ p) : d₀.records p = none ∧ p ∉ items.map Prod.fst ∧ p ∉ leaked := by
  have hnone := hext.fresh.records p hp
  have hitem : p ∉ items.map Prod.fst := by
    intro hmem
    obtain ⟨item, hitem, rfl⟩ := List.mem_map.1 hmem
    have hlt := hext.links.allocated item hitem
    omega
  have hleaked : p ∉ leaked := by
    intro hmem
    have hsome := (hext.leaks p hmem).2.2.1
    rw [hnone] at hsome
    cases hsome
  exact ⟨by rw [← hext.keeps_records p hitem hleaked, hnone], hitem, hleaked⟩

/-- There is no memory for the copy. -/
theorem DataHeap.Extends.allocation (hext : d₀.Extends mallocs d list items leaked) :
    d₀.Extends mallocs d.allocation list items leaked where
  links := hext.links.allocation
  fresh := ⟨fun p hp => hext.fresh.records p (Nat.le_of_succ_le hp),
    fun a ha => hext.fresh.lists a (Nat.le_of_succ_le ha)⟩
  next_le := hext.next_le.trans (Nat.le_succ _)
  new := hext.new
  new_list a ha := ⟨(hext.new_list a ha).1, (hext.new_list a ha).2.trans (Nat.lt_succ_self _)⟩
  leaks := hext.leaks
  keeps_records := hext.keeps_records
  keeps_lists := hext.keeps_lists
  fault := hext.fault

/-- There is memory for the first copy, but not for its list. -/
theorem DataHeap.Extends.leak (hext : d₀.Extends mallocs d none items leaked)
    (hsecond : mallocs (d.next + 1) = false) (record : Node ℕ DataRecord) :
    d₀.Extends mallocs (d.mallocRecord record).allocation none items (d.next :: leaked) := by
  obtain rfl := hext.links.empty rfl
  have hrecords : ∀ p, p ≠ d.next →
      (d.mallocRecord record).allocation.records p = d.records p :=
    fun p hp => Function.update_of_ne hp _ _
  have hnext : (d.mallocRecord record).allocation.next = d.next + 2 := rfl
  refine ⟨⟨fun _ => rfl, by simp, by simp⟩, ⟨fun p hp => ?_, fun a ha => ?_⟩,
    hext.next_le.trans (by omega), by simp, by simp, fun p hp => ?_, fun p _ hp => ?_,
    hext.keeps_lists, hext.fault⟩
  · rw [hrecords p (by omega), hext.fresh.records p (by omega)]
  · exact hext.fresh.lists a (by omega)
  · rcases List.mem_cons.1 hp with rfl | hmem
    · refine ⟨hsecond, (hext.next_new le_rfl).1, ?_, by simp⟩
      simp [DataHeap.mallocRecord, DataHeap.allocation]
    · have hne : p ≠ d.next := by
        rintro rfl
        exact (hext.next_new le_rfl).2.2 hmem
      rw [hrecords p hne]
      exact hext.leaks p hmem
  · rw [List.mem_cons, not_or] at hp
    rw [hrecords p hp.1, hext.keeps_records p (by simp) hp.2]

/-- A record that is new to the list. -/
theorem DataHeap.Extends.append (hext : d₀.Extends mallocs d list items leaked) {d' : DataHeap}
    {a : ℕ} {value : DataRecord} (hlinks : d'.Links (some a) (items ++ [(d.next, value)]))
    (hnext : d.next < d'.next)
    (hrecords : ∀ p, p ≠ d.next → p ∉ items.map Prod.fst → d'.records p = d.records p)
    (hlists : ∀ a', a' ≠ a → d'.lists a' = d.lists a')
    (hlist : list = some a ∨ list = none ∧ d.next ≤ a) (ha : a < d'.next)
    (hfault : d'.fault = d.fault) :
    d₀.Extends mallocs d' (some a) (items ++ [(d.next, value)]) leaked := by
  have hitems : ∀ p, p ∉ (items ++ [(d.next, value)]).map Prod.fst →
      p ≠ d.next ∧ p ∉ items.map Prod.fst := by
    intro p hp
    rw [List.map_append, List.mem_append, not_or] at hp
    exact ⟨by simpa using hp.2, hp.1⟩
  refine ⟨hlinks, ⟨fun p hp => ?_, fun a' ha' => ?_⟩, hext.next_le.trans hnext.le,
    fun item hmem => ?_, fun a' ha' => ?_, fun p hp => ?_, fun p hp hleaked => ?_,
    fun a' ha' => ?_, hfault.trans hext.fault⟩
  · rw [hrecords p (by omega) (hext.next_new (by omega)).2.1, hext.fresh.records p (by omega)]
  · rw [hlists a' (by omega)]
    exact hext.fresh.lists a' (by omega)
  · rcases List.mem_append.1 hmem with hmem | hmem
    · exact hext.new item hmem
    · obtain rfl := List.mem_singleton.1 hmem
      exact (hext.next_new le_rfl).1
  · obtain rfl := Option.some_inj.1 ha'
    rcases hlist with rfl | ⟨rfl, hle⟩
    · exact ⟨(hext.new_list a rfl).1, ha⟩
    · rw [← hext.keeps_lists a (by simp), hext.fresh.lists a hle]
      exact ⟨rfl, ha⟩
  · obtain ⟨hfalse, hnone, hsome, hnot⟩ := hext.leaks p hp
    have hne : p ≠ d.next := by
      rintro rfl
      exact (hext.next_new le_rfl).2.2 hp
    rw [hrecords p hne hnot, List.map_append, List.mem_append, not_or]
    exact ⟨hfalse, hnone, hsome, hnot, by simpa using hne⟩
  · rw [hrecords p (hitems p hp).1 (hitems p hp).2, hext.keeps_records p (hitems p hp).2 hleaked]
  · have hne : a' ≠ a := by
      rintro rfl
      exact ha' rfl
    rw [hlists a' hne]
    refine hext.keeps_lists a' ?_
    rcases hlist with rfl | ⟨rfl, -⟩
    · exact ha'
    · simp

/-- **One addition**: the list has one more record, or it is what it was, and at most a copy stays
behind. -/
theorem DataHeap.Extends.addCopy (hext : d₀.Extends mallocs d list items leaked)
    (record : Node ℕ DataRecord) :
    ((nvipfixDataListAddCopy mallocs list record d).1 = none → ∃ leaked',
        d₀.Extends mallocs (nvipfixDataListAddCopy mallocs list record d).2 list items leaked') ∧
      ∀ a ∈ (nvipfixDataListAddCopy mallocs list record d).1,
        d₀.Extends mallocs (nvipfixDataListAddCopy mallocs list record d).2 (some a)
          (items ++ [(d.next, record.value)]) leaked := by
  have hadd := hext.links.addCopy mallocs record
  cases hfirst : mallocs d.next with
  | false =>
      rw [nvipfixDataListAddCopy_failure hfirst]
      exact ⟨fun _ => ⟨leaked, hext.allocation⟩, by simp⟩
  | true =>
      cases list with
      | none =>
          cases hsecond : mallocs (d.next + 1) with
          | false =>
              rw [nvipfixDataListAddCopy_listFailure hfirst hsecond]
              exact ⟨fun _ => ⟨_, hext.leak hsecond record⟩, by simp⟩
          | true =>
              rw [nvipfixDataListAddCopy_first hfirst hsecond] at hadd ⊢
              refine ⟨by simp, fun a ha => ?_⟩
              obtain rfl := Option.some_inj.1 ha
              refine hext.append (hadd.added _ rfl) (Nat.lt_add_of_pos_right Nat.zero_lt_two)
                (fun p hp _ => ?_) (fun a' ha' => Function.update_of_ne ha' _ _)
                (.inr ⟨rfl, Nat.le_succ _⟩) (Nat.lt_succ_self _) rfl
              exact push_of_ne hp (Option.some_ne_none p)
      | some a' =>
          obtain ⟨hne, l, hl, hisList⟩ := hext.links.list a' rfl
          obtain ⟨t, htail, hlive, hmem⟩ := hisList.isSome_tail hne
          have htne : t ≠ d.next := by
            rintro rfl
            exact (hext.next_new le_rfl).2.1 hmem
          rw [nvipfixDataListAddCopy_later hfirst hl htail hlive htne] at hadd ⊢
          refine ⟨by simp, fun a ha => ?_⟩
          obtain rfl := Option.some_inj.1 ha
          refine hext.append (hadd.added _ rfl) (Nat.lt_succ_self _) (fun p hp hnot => ?_)
            (fun a'' ha'' => Function.update_of_ne ha'' _ _) (.inl rfl)
            ((hext.new_list a' rfl).2.trans (Nat.lt_succ_self _)) rfl
          -- only the last record of the list is linked anew
          refine push_of_ne hp ?_
          rw [htail]
          rintro heq
          exact hnot (Option.some_inj.1 heq ▸ hmem)

/-! ### Releasing the list -/

/-- The release of a list, record by record. -/
theorem DataHeap.Extends.free (hext : d₀.Extends mallocs d list items leaked) :
    (nvipfixDataListFree list d).next = d.next ∧
      (nvipfixDataListFree list d).fault = d₀.fault ∧
      (nvipfixDataListFree list d).lists = d₀.lists ∧
      ∀ p, p ∉ leaked → (nvipfixDataListFree list d).records p = d₀.records p := by
  cases list with
  | none =>
      obtain rfl := hext.links.empty rfl
      exact ⟨rfl, hext.fault, funext fun a => hext.keeps_lists a (by simp),
        fun p hp => hext.keeps_records p (by simp) hp⟩
  | some a =>
      obtain ⟨-, l, hl, hisList⟩ := hext.links.list a rfl
      have hlists : (items.foldl DataHeap.freeRecord d).lists = d.lists :=
        foldl_release_keeps DataHeap.records_freeRecord (fun _ _ _ => rfl) hisList.nodup
          hisList.segment.isSome
      have hnext : (items.foldl DataHeap.freeRecord d).next = d.next :=
        foldl_release_keeps DataHeap.records_freeRecord (fun _ _ _ => rfl) hisList.nodup
          hisList.segment.isSome
      refine ⟨?_, hext.links.free_fault.trans hext.fault, ?_, fun p hp => ?_⟩
      · rw [hext.links.free_eq]
        exact hnext
      · rw [hext.links.free_eq]
        funext a'
        simp only [DataHeap.freeList, DataHeap.require, hlists]
        by_cases ha : a' = a
        · rw [ha, Function.update_self, (hext.new_list a rfl).1]
        · rw [Function.update_of_ne ha]
          exact hext.keeps_lists a' (by simpa using fun h => ha h.symm)
      · rw [hext.links.free_records]
        split
        next hmem =>
          obtain ⟨item, hitem, rfl⟩ := List.mem_map.1 hmem
          exact (hext.new item hitem).symm
        next hmem => exact hext.keeps_records p hmem hp

/-- What is left when a list is released: memory as it was, and copies of records for which there
was no list. -/
structure DataHeap.Leaks (mallocs : ℕ → Bool) (d d' : DataHeap) : Prop where
  next_le : d.next ≤ d'.next
  fresh : d'.Fresh
  lists : d'.lists = d.lists
  records : ∀ p, d'.records p ≠ d.records p →
    mallocs (p + 1) = false ∧ d.records p = none ∧ (d'.records p).isSome
  fault : d'.fault = d.fault

/-- **A list that is freed leaves only the copies that stayed behind**, and these are still live. -/
theorem DataHeap.Extends.leaks_free (hext : d₀.Extends mallocs d list items leaked) :
    d₀.Leaks mallocs (nvipfixDataListFree list d) := by
  obtain ⟨hnext, hfault, hlists, hrecords⟩ := hext.free
  have hlive : ∀ p ∈ leaked, ((nvipfixDataListFree list d).records p).isSome := by
    intro p hp
    obtain ⟨-, -, hsome, hitem⟩ := hext.leaks p hp
    cases list with
    | none => exact hsome
    | some a =>
        rw [hext.links.free_records, if_neg hitem]
        exact hsome
  refine ⟨hext.next_le.trans hnext.ge, ⟨fun p hp => ?_, fun a ha => ?_⟩, hlists, fun p hp => ?_,
    hfault⟩
  · have hp' : d.next ≤ p := hnext.ge.trans hp
    rw [hrecords p (hext.next_new hp').2.2, (hext.next_new hp').1]
  · have ha' : d.next ≤ a := hnext.ge.trans ha
    rw [hlists]
    by_cases hmem : a ∈ list
    · exact (hext.new_list a hmem).1
    · rw [← hext.keeps_lists a hmem]
      exact hext.fresh.lists a ha'
  · have hleaked : p ∈ leaked := by
      by_contra hnot
      exact hp (hrecords p hnot)
    obtain ⟨hfalse, hnone, -⟩ := hext.leaks p hleaked
    exact ⟨hfalse, hnone, hlive p hleaked⟩

end Extends

/-! ### A list as a result -/

/-- `nvipfix_data_list_add_copy` by a caller that keeps its list when there is no memory. -/
def dataListCollect (mallocs : ℕ → Bool) (data : DataRecord) (state : Option ℕ × DataHeap) :
    Option ℕ × DataHeap :=
  let (result, d) := state
  let (list, d) :=
    nvipfixDataListAddCopy mallocs result { value := data, next := none, prev := none } d
  (list.or result, d)

/-- A list as a result: it is new, and it has these records if the memory is there. -/
structure Collected (mallocs : ℕ → Bool) (succeeds : Prop) (d₀ : DataHeap)
    (records : Option (List DataRecord)) (state : Option ℕ × DataHeap) : Prop where
  list : ∃ items leaked, d₀.Extends mallocs state.2 state.1 items leaked
  contents : succeeds → state.2.contents state.1 = records

section Collected

variable {mallocs : ℕ → Bool} {succeeds : Prop} {d₀ : DataHeap} {state : Option ℕ × DataHeap}
  {records : Option (List DataRecord)}

theorem Collected.start (hfresh : d₀.Fresh) : Collected mallocs succeeds d₀ none (none, d₀) :=
  ⟨⟨[], [], DataHeap.extends_nil hfresh⟩, fun _ => d₀.contents_none⟩

/-- **One more record, or the same list.** -/
theorem Collected.add (hstate : Collected mallocs succeeds d₀ records state)
    (hall : succeeds → ∀ n, mallocs n = true) {data data' : DataRecord}
    (hdata : succeeds → data = data') :
    Collected mallocs succeeds d₀ (dataListAddCopy records data')
      (dataListCollect mallocs data state) := by
  obtain ⟨⟨items, leaked, hext⟩, hcontents⟩ := hstate
  obtain ⟨hfailed, hadded⟩ := hext.addCopy { value := data, next := none, prev := none }
  have hadd := hext.links.addCopy mallocs { value := data, next := none, prev := none }
  rw [dataListCollect]
  rcases hresult : nvipfixDataListAddCopy mallocs state.1
    { value := data, next := none, prev := none } state.2 with ⟨_ | a, d'⟩
  · rw [hresult] at hfailed hadd
    obtain ⟨leaked', hext'⟩ := hfailed rfl
    refine ⟨⟨items, leaked', hext'⟩, fun hsucceeds => ?_⟩
    obtain ⟨n, hn⟩ := (hadd.failed rfl).1
    rw [hall hsucceeds n] at hn
    cases hn
  · rw [hresult] at hadded
    refine ⟨⟨_, leaked, hadded a rfl⟩, fun hsucceeds => ?_⟩
    have hcopy := hext.links.contents_addCopy (hall hsucceeds)
      { value := data, next := none, prev := none }
    rw [hresult, hcontents hsucceeds] at hcopy
    rw [← hdata hsucceeds]
    exact hcopy

/-- **The result is released.** -/
theorem Collected.leaks_free (hstate : Collected mallocs succeeds d₀ records state) :
    d₀.Leaks mallocs (nvipfixDataListFree state.1 state.2) := by
  obtain ⟨items, leaked, hext⟩ := hstate.list
  exact hext.leaks_free

end Collected

/-! ### What stays behind -/

section Leaks

variable {mallocs : ℕ → Bool} {d d' d'' : DataHeap}

theorem DataHeap.Leaks.refl (hfresh : d.Fresh) : d.Leaks mallocs d :=
  ⟨le_rfl, hfresh, rfl, fun _ hp => absurd rfl hp, rfl⟩

/-- A copy that stayed behind stays there. -/
theorem DataHeap.Leaks.trans (hl : d.Leaks mallocs d') (hr : d'.Leaks mallocs d'') :
    d.Leaks mallocs d'' where
  next_le := hl.next_le.trans hr.next_le
  fresh := hr.fresh
  lists := hr.lists.trans hl.lists
  records p hp := by
    by_cases hlater : d''.records p = d'.records p
    · rw [hlater] at hp ⊢
      exact hl.records p hp
    · obtain ⟨hfalse, hnone, hsome⟩ := hr.records p hlater
      by_cases hsooner : d'.records p = d.records p
      · exact ⟨hfalse, hsooner ▸ hnone, hsome⟩
      · have hlive := (hl.records p hsooner).2.2
        rw [hnone] at hlive
        cases hlive
  fault := hr.fault.trans hl.fault

/-- **With memory, nothing stays behind.** -/
theorem DataHeap.Leaks.restored (hleaks : d.Leaks mallocs d') (hall : ∀ n, mallocs n = true) :
    d.Restored d' := by
  refine .of_eq hleaks.next_le (funext fun p => ?_) hleaks.lists hleaks.fault
  by_contra hp
  have hfalse := (hleaks.records p hp).1
  rw [hall] at hfalse
  cases hfalse

end Leaks

end NvIpfix
