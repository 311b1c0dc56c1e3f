/-
**Additions that fail.**

`nvipfix_hashtable8_add` returns `NULL` when it gets no memory, or when a value was to be copied and
there is no copy.  By then the node has been found or made, the value it had has been freed, and
the missing copy stored in its place.  A key that was not there is still not there; one that was has
lost its value.

Main definitions:

* `Hashtable8.SameContent` — lookups are answered as before, and nothing was freed;
* `Hashtable8.LeftOver` — a free root has a value.

Main results:

* `HashAdd.failed_iff` — **when a failed addition changes nothing**.
-/

import NvIpfix.HashChanges

set_option relaxedAutoImplicit false
set_option autoImplicit false

namespace NvIpfix

/-- Every lookup is answered as before, and nothing was passed to `freeValue`. -/
structure Hashtable8.SameContent (table table' : Hashtable8) : Prop where
  get : ∀ key memory, nvipfixHashtable8Get (some table') (some key) memory =
    nvipfixHashtable8Get (some table) (some key) memory
  freed : table'.freed = table.freed

/-- The root of a bucket is free and has a value. -/
def Hashtable8.LeftOver (table : Hashtable8) (hash : UInt8) : Prop :=
  ∃ root, table.nodes (.embedded hash) = some root ∧ root.key = [] ∧ root.value ≠ none

/-- A root that is taken has nothing left over. -/
theorem Hashtable8.not_leftOver {table : Hashtable8} {hash : UInt8} {root : HashNode}
    (hroot : table.nodes (.embedded hash) = some root) (hkey : root.key ≠ []) :
    ¬ table.LeftOver hash := by
  rintro ⟨root', hroot', hfree, -⟩
  rw [Option.some.inj (hroot'.symm.trans hroot)] at hfree
  exact hkey hfree

namespace Hashtable8.Grown

variable {table table' : Hashtable8} {a : NodeAddress} {node : HashNode} {value : Option Address}

/-- A copy that is missing at a node which no lookup found before goes unseen. -/
theorem sameContent_of_new (h : table.Grown table' a node)
    (hnew : ∀ key memory, table.locate key memory ≠ some (some a))
    (hstored : table.storedValue value = none) :
    table.SameContent (table'.setValue a node value) ↔
      ¬ (node.value ≠ none ∧ table.freeValue = true) := by
  have hget : ∀ key memory,
      nvipfixHashtable8Get (some (table'.setValue a node value)) (some key) memory =
        nvipfixHashtable8Get (some table) (some key) memory := by
    intro key memory
    rw [h.get_setValue, hstored]
    split
    · next hfound =>
        rcases h.locate key memory with hsame | ⟨hmissing, -⟩
        · exact absurd (hsame.symm.trans hfound) (hnew key memory)
        · rw [get_eq_locate, hmissing]
          rfl
    · rfl
  constructor
  · rintro ⟨-, hfreed⟩ hvalue
    rw [h.freed_setValue, if_pos hvalue] at hfreed
    simp at hfreed
  · intro hvalue
    exact ⟨hget, by rw [h.freed_setValue, if_neg hvalue, List.append_nil]⟩

/-- A copy that is missing at a node which was found takes the place of its value. -/
theorem sameContent_of_found {key : List UInt8} {memory : CallMemory}
    (h : table.Grown table a node) (hlocate : table.locate key memory = some (some a))
    (hstored : table.storedValue value = none) :
    table.SameContent (table.setValue a node value) ↔ node.value = none := by
  have hbefore : ∀ key memory, table.locate key memory = some (some a) →
      nvipfixHashtable8Get (some table) (some key) memory = some node.value := by
    intro key memory hfound
    rw [get_eq_locate, hfound]
    simp [h.node_eq]
  constructor
  · rintro ⟨hget, -⟩
    have hafter := hget key memory
    rw [h.get_setValue, if_pos hlocate, hbefore key memory hlocate, hstored] at hafter
    exact (Option.some.inj hafter).symm
  · intro hvalue
    refine ⟨fun key memory => ?_, by simp [h.freed_setValue, hvalue]⟩
    rw [h.get_setValue]
    split
    · next hfound => rw [hbefore key memory hfound, hstored, hvalue]
    · rfl

end Hashtable8.Grown

/-- **When a failed addition changes nothing**: its key had no value, and no value was left at a
free root that the addition takes. -/
theorem HashAdd.failed_iff {table : Hashtable8} (hreach : Hashtable8.Reachable (some table))
    {call : HashAdd} {result : AddResult} (hrun : call.run (some table) = some result)
    (hfailed : result.returned = false) :
    (∃ table', result.table = some table' ∧ table.SameContent table') ↔
      nvipfixHashtable8Get (some table) (some call.key) call.memory = some none ∧
        ¬ (table.LeftOver (nvipfixHashtable8Hash call.key) ∧ table.freeValue = true ∧
          call.memory.mallocNode = true) := by
  have h : table.Linked := hreach.linked table rfl
  obtain ⟨root, hroot, ⟨hmalloc, hlocate, rfl⟩ |
    ⟨table', a, node, hgrown, horigin, htable, hreturned⟩⟩ := call.run_cases h hrun
  · refine iff_of_true ⟨table, rfl, fun _ _ => rfl, rfl⟩ ⟨?_, by simp [hmalloc]⟩
    rw [get_eq_locate, hlocate]
    rfl
  · have hstored : table.storedValue call.value = none := by
      rw [hfailed] at hreturned
      exact (not_not.1 fun hnot => Bool.false_ne_true (hreturned.2 hnot)).2
    have hresult : (∃ table', result.table = some table' ∧ table.SameContent table') ↔
        table.SameContent (table'.setValue a node call.value) := by
      rw [htable]
      simp
    rw [hresult]
    cases horigin with
    | found hkey hlocate hnode hequal hsame =>
        subst hsame
        rw [hgrown.sameContent_of_found hlocate hstored, get_eq_locate, hlocate]
        simp [hnode, Hashtable8.not_leftOver hroot hkey]
    | taken hmalloc hkey hmissing haddress hnode =>
        have hvalue : node.value = root.value := by rw [hnode]
        -- no lookup ends at a free root
        have hnew : ∀ key memory, table.locate key memory ≠ some (some a) := by
          intro key memory hfound
          obtain ⟨root', hroot', -, hfree⟩ := h.exists_of_locate hfound
          rw [haddress] at hroot'
          obtain rfl := Option.some.inj (hroot.symm.trans hroot')
          exact hfree _ haddress hkey
        have hleft : table.LeftOver (nvipfixHashtable8Hash call.key) ↔ root.value ≠ none := by
          simp [Hashtable8.LeftOver, hroot, hkey]
        rw [hgrown.sameContent_of_new hnew hstored, get_eq_locate, hmissing, hvalue, hleft]
        simp [hmalloc]
    | hung hmalloc hkey hmissing hnone hnode hlocated =>
        -- nor at a node that is not in memory yet
        have hnew : ∀ key memory, table.locate key memory ≠ some (some a) := by
          intro key memory hfound
          obtain ⟨node', hnode', -⟩ := h.exists_of_locate hfound
          rw [hnone] at hnode'
          cases hnode'
        rw [hgrown.sameContent_of_new hnew hstored, get_eq_locate, hmissing, hnode]
        simp [Hashtable8.not_leftOver hroot hkey]

/-- A first addition, whose table copies the first value only. -/
def copiesOnce : HashAdd where
  key := [97]
  value := some 1
  copyF := some fun i value => if i = 0 then value else none
  freeF := true

theorem HashAdd.failed_noMemory : ∃ table table',
    copiesOnce.run none = some ⟨some table, true⟩ ∧
      HashAdd.run { key := [98], value := some 2, memory := { mallocNode := false } }
        (some table) = some ⟨some table', false⟩ ∧ table.SameContent table' := by
  obtain ⟨result, hrun⟩ : ∃ result, copiesOnce.run none = some result := ⟨_, rfl⟩
  have hreach := Hashtable8.Reachable.add Hashtable8.Reachable.null hrun
  obtain rfl := Option.some.inj hrun
  obtain ⟨table', htable, hsame⟩ := (@HashAdd.failed_iff _ hreach
    { key := [98], value := some 2, memory := { mallocNode := false } } _ rfl rfl).2
    ⟨rfl, fun h => Bool.false_ne_true h.2.2⟩
  obtain rfl := Option.some.inj htable
  exact ⟨_, _, rfl, rfl, hsame⟩

/-- The second addition of a key, whose value is not copied, loses the value that there was. -/
theorem HashAdd.failed_lostValue : ∃ table table',
    copiesOnce.run none = some ⟨some table, true⟩ ∧
      HashAdd.run { key := [97], value := some 2 } (some table) = some ⟨some table', false⟩ ∧
      nvipfixHashtable8Get (some table) (some [97]) {} = some (some 1) ∧
      nvipfixHashtable8Get (some table') (some [97]) {} = some none ∧
      table'.freed = [some 1] :=
  ⟨_, _, rfl, rfl, rfl, rfl, rfl⟩

end NvIpfix
