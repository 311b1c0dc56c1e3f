/-
**The hash table under any addition.**

Keys of any length, values that may be `NULL`, allocations and copies that may fail: whatever the
additions were, the pointers of a table lead from a node to one that was allocated later, and a
bucket's root that is free hangs no node.  So a walk ends, and an addition does one of four things:
it gets no memory, it finds a node, it takes a free root, or it hangs a node where the walk fell
off.

Main definitions:

* `HashAdd`, `Hashtable8.Reachable` — any addition, the tables that additions lead to;
* `Hashtable8.Linked` — the invariant of their nodes;
* `Hashtable8.locate` — the node that a lookup ends at.

Main results:

* `Hashtable8.Linked.exists_hashWalk` — **a walk ends**, at a node or at a pointer to hang one from;
* `Hashtable8.Linked.getOrAdd_cases` — the four things that an addition does.
-/

import NvIpfix.HashBuckets

set_option relaxedAutoImplicit false
set_option autoImplicit false

namespace NvIpfix

/-! ### Additions of any kind -/

/-- A call of `nvipfix_hashtable8_add`. -/
structure HashAdd where
  key : List UInt8
  value : Option Address
  copyF : Option CopyFunction := none
  freeF : Bool := false
  memory : CallMemory := {}

/-- The call on a table. -/
def HashAdd.run (call : HashAdd) (hashtable : Option Hashtable8) : Option AddResult :=
  nvipfixHashtable8Add hashtable (some call.key) call.value call.copyF call.freeF call.memory

/-- The tables that additions lead to from `NULL`; one that fails leaves the table it was given. -/
inductive Hashtable8.Reachable : Option Hashtable8 → Prop
  | null : Reachable none
  | add {hashtable : Option Hashtable8} {call : HashAdd} {result : AddResult} :
      Reachable hashtable → call.run hashtable = some result → Reachable result.table

/-! ### Nodes and pointers -/

/-- The place of a node in the order of the allocations; the roots come first. -/
def NodeAddress.rank : NodeAddress → ℕ
  | .embedded _ => 0
  | .allocated n => n + 1

/-- The pointer of a node. -/
def HashNode.child (node : HashNode) : NodeLink → Option NodeAddress
  | .lt => node.lt
  | .gt => node.gt

/-- A node without its value. -/
def HashNode.shape (node : HashNode) : HashNode := { node with value := none }

/-- The pointers of a table lead to nodes that were allocated later, and a free root hangs none.
Only the free root of the hash 0, which is that of the key of length 0, may have a value. -/
structure Hashtable8.Linked (table : Hashtable8) : Prop where
  root : ∀ hash, (table.nodes (.embedded hash)).isSome ↔ hash < 255
  known : ∀ n, (table.nodes (.allocated n)).isSome ↔ n < table.allocations
  child : ∀ a node, table.nodes a = some node → ∀ link b, node.child link = some b →
    ∃ n < table.allocations, b = .allocated n ∧ a.rank ≤ n
  free : ∀ hash root, table.nodes (.embedded hash) = some root → root.key = [] →
    (∀ link, root.child link = none) ∧ (hash ≠ 0 → root.value = none)

theorem Hashtable8.linked_zeroed (copyF : Option CopyFunction) (freeF : Bool) :
    (Hashtable8.zeroed copyF freeF).Linked where
  root hash := by
    by_cases h : hash < 255 <;> simp [Hashtable8.zeroed, h]
  known n := by simp [Hashtable8.zeroed]
  child a node hnode link b hb := by
    cases a with
    | embedded hash =>
        by_cases h : hash < 255
        · obtain rfl : ({} : HashNode) = node := by simpa [Hashtable8.zeroed, h] using hnode
          cases link <;> cases hb
        · simp [Hashtable8.zeroed, h] at hnode
    | allocated n => simp [Hashtable8.zeroed] at hnode
  free hash root hroot _ := by
    by_cases h : hash < 255
    · obtain rfl : ({} : HashNode) = root := by simpa [Hashtable8.zeroed, h] using hroot
      exact ⟨fun link => by cases link <;> rfl, fun _ => rfl⟩
    · simp [Hashtable8.zeroed, h] at hroot

/-- **One turn of the walk**: it ends where the key compares equal, and goes on through a pointer
elsewhere.  Which of the two is a matter of the node's key alone. -/
theorem hashWalk_turn (memory : CallMemory) (key : List UInt8) (a : NodeAddress)
    (nodeKey : List UInt8) :
    (keyCompare (memory.beyond a) key nodeKey = .eq ∧ ∀ {table : Hashtable8} {node : HashNode},
        table.nodes a = some node → node.key = nodeKey → ∀ fuel parent,
          hashWalk table memory key (fuel + 1) (some a) parent = some (some a, parent)) ∨
      ∃ link, ∀ {table : Hashtable8} {node : HashNode},
        table.nodes a = some node → node.key = nodeKey → ∀ fuel parent,
          hashWalk table memory key (fuel + 1) (some a) parent =
            hashWalk table memory key fuel (node.child link) (some (a, link)) := by
  cases hcompare : keyCompare (memory.beyond a) key nodeKey with
  | eq =>
      refine .inl ⟨rfl, fun hnode hkey fuel parent => ?_⟩
      simp only [hashWalk, hnode, hkey, hcompare, Option.bind_eq_bind, Option.bind_some]
  | lt =>
      refine .inr ⟨.lt, fun hnode hkey fuel parent => ?_⟩
      simp only [hashWalk, hnode, hkey, hcompare, Option.bind_eq_bind, Option.bind_some]
      rfl
  | gt =>
      refine .inr ⟨.gt, fun hnode hkey fuel parent => ?_⟩
      simp only [hashWalk, hnode, hkey, hcompare, Option.bind_eq_bind, Option.bind_some]
      rfl

namespace Hashtable8.Linked

variable {table : Hashtable8} {a b : NodeAddress} {node : HashNode}

/-- A node in memory is among those that were allocated. -/
theorem rank_le (h : table.Linked) (hnode : table.nodes a = some node) :
    a.rank ≤ table.allocations := by
  cases a with
  | embedded hash => exact Nat.zero_le _
  | allocated n => exact (h.known n).1 (by rw [hnode]; rfl)

/-- A pointer leads to a node further on. -/
theorem child_lt (h : table.Linked) (hnode : table.nodes a = some node) {link : NodeLink}
    (hb : node.child link = some b) :
    a.rank < b.rank ∧ (∃ node', table.nodes b = some node') ∧ ∀ hash, b ≠ .embedded hash := by
  obtain ⟨n, hn, rfl, hle⟩ := h.child a node hnode link b hb
  exact ⟨Nat.lt_succ_of_le hle, Option.isSome_iff_exists.1 ((h.known n).2 hn), by simp⟩

/-- **A walk ends**, at a node or at a pointer to hang one from. -/
theorem exists_hashWalk (h : table.Linked) (memory : CallMemory) (key : List UInt8) {fuel : ℕ}
    (hnode : table.nodes a = some node) (hfuel : table.allocations + 2 ≤ fuel + a.rank)
    (parent : Option (NodeAddress × NodeLink)) :
    (∃ b node' parent', hashWalk table memory key fuel (some a) parent = some (some b, parent') ∧
        table.nodes b = some node' ∧ keyCompare (memory.beyond b) key node'.key = .eq ∧
        (b = a ∨ ∀ hash, b ≠ .embedded hash)) ∨
      ∃ place node', hashWalk table memory key fuel (some a) parent = some (none, some place) ∧
        table.nodes place.1 = some node' ∧ node'.child place.2 = none ∧
        (place.1 = a ∨ ∀ hash, place.1 ≠ .embedded hash) := by
  induction fuel generalizing a node parent with
  | zero =>
      have hrank := h.rank_le hnode
      omega
  | succ fuel ih =>
      have hrank := h.rank_le hnode
      obtain ⟨fuel', rfl⟩ := Nat.exists_eq_succ_of_ne_zero (by omega : fuel ≠ 0)
      -- each turn goes up in rank, and there are no more ranks than there is fuel
      rcases hashWalk_turn memory key a node.key with ⟨hcompare, hstop⟩ | ⟨link, hgo⟩
      · exact .inl ⟨a, node, parent, hstop hnode rfl _ _, hnode, hcompare, .inl rfl⟩
      · rw [hgo hnode rfl]
        cases hchild : node.child link with
        | none => exact .inr ⟨(a, link), node, rfl, hnode, hchild, .inl rfl⟩
        | some b =>
            obtain ⟨hlt, ⟨node', hnode'⟩, hallocated⟩ := h.child_lt hnode hchild
            have hwhere : ∀ c, (c = b ∨ ∀ hash, c ≠ .embedded hash) →
                c = a ∨ ∀ hash, c ≠ .embedded hash := by
              rintro c (rfl | hc)
              · exact .inr hallocated
              · exact .inr hc
            rcases ih hnode' (by omega) (some (a, link)) with
              ⟨c, node'', parent', hwalk, hc, hcompare, hend⟩ |
              ⟨place, node'', hwalk, hc, hnone, hend⟩
            · exact .inl ⟨c, node'', parent', hwalk, hc, hcompare, hwhere c hend⟩
            · exact .inr ⟨place, node'', hwalk, hc, hnone, hwhere place.1 hend⟩

end Hashtable8.Linked

/-! ### Lookups and additions -/

/-- The node that a lookup ends at. -/
def Hashtable8.locate (table : Hashtable8) (key : List UInt8) (memory : CallMemory) :
    Option (Option NodeAddress) :=
  (nvipfixHashtable8GetOrAdd table key false memory).map Prod.snd

/-- The table with a node for a key hung from the pointer `place`, which is one of `parent`. -/
def Hashtable8.hang (table : Hashtable8) (key : List UInt8) (place : NodeAddress × NodeLink)
    (parent : HashNode) : Hashtable8 :=
  { (table.write (.allocated table.allocations) { key }).write place.1
      (parent.link place.2 (.allocated table.allocations)) with
    allocations := table.allocations + 1 }

section Cases

variable {table : Hashtable8} {memory : CallMemory} {key : List UInt8} {a : NodeAddress}
  {node root parent : HashNode} {place : NodeAddress × NodeLink}

/-- The call behind a lookup of a key that has a bucket. -/
theorem getOrAdd_false_of_root
    (hroot : table.nodes (.embedded (nvipfixHashtable8Hash key)) = some root) :
    nvipfixHashtable8GetOrAdd table key false memory =
      if root.key = [] then some (table, none)
      else (hashWalk table memory key table.fuel (some (.embedded (nvipfixHashtable8Hash key)))
        none).map fun walked => (table, walked.1) := by
  unfold nvipfixHashtable8GetOrAdd
  by_cases hkey : root.key = []
  · simp [hroot, hkey]
  · simp only [hroot, Option.bind_eq_bind, Option.bind_some, ne_eq, hkey, not_false_eq_true,
      ↓reduceIte, Bool.false_eq_true, and_false]
    cases hashWalk table memory key table.fuel
      (some (.embedded (nvipfixHashtable8Hash key))) none <;> rfl

/-- A lookup of a key that has a bucket. -/
theorem locate_eq (hroot : table.nodes (.embedded (nvipfixHashtable8Hash key)) = some root) :
    table.locate key memory =
      if root.key = [] then some none
      else (hashWalk table memory key table.fuel
        (some (.embedded (nvipfixHashtable8Hash key))) none).map Prod.fst := by
  rw [Hashtable8.locate, getOrAdd_false_of_root hroot]
  split
  · rfl
  · rw [Option.map_map]
    rfl

/-- A lookup leaves the table as it is. -/
theorem getOrAdd_false_eq (table : Hashtable8) (key : List UInt8) (memory : CallMemory) :
    nvipfixHashtable8GetOrAdd table key false memory =
      (table.locate key memory).map fun found => (table, found) := by
  cases hroot : table.nodes (.embedded (nvipfixHashtable8Hash key)) with
  | none => simp [Hashtable8.locate, nvipfixHashtable8GetOrAdd, hroot]
  | some root =>
      rw [locate_eq hroot, getOrAdd_false_of_root hroot]
      split
      · rfl
      · rw [Option.map_map]
        rfl

theorem get_eq_locate (table : Hashtable8) (key : List UInt8) (memory : CallMemory) :
    nvipfixHashtable8Get (some table) (some key) memory =
      (table.locate key memory).bind fun found => match found with
        | some a => (table.nodes a).map HashNode.value
        | none => some none := by
  simp only [nvipfixHashtable8Get, getOrAdd_false_eq]
  cases table.locate key memory with
  | none => rfl
  | some found =>
      cases found with
      | none => rfl
      | some a => cases h : table.nodes a <;> simp [h]

/-- The nodes of a table with one hung. -/
theorem hang_nodes (key : List UInt8) (parent : HashNode)
    (hne : place.1 ≠ .allocated table.allocations) (b : NodeAddress) :
    (table.hang key place parent).nodes b =
      if b = .allocated table.allocations then some { key }
      else if b = place.1 then some (parent.link place.2 (.allocated table.allocations))
      else table.nodes b := by
  unfold Hashtable8.hang Hashtable8.write
  by_cases hnew : b = .allocated table.allocations
  · subst hnew
    rw [if_pos rfl]
    exact (Function.update_of_ne hne.symm _ _).trans (Function.update_self _ _ _)
  · rw [if_neg hnew]
    by_cases hplace : b = place.1
    · subst hplace
      rw [if_pos rfl]
      exact Function.update_self _ _ _
    · rw [if_neg hplace]
      exact (Function.update_of_ne hplace _ _).trans (Function.update_of_ne hnew _ _)

namespace Hashtable8.Linked

/-- The next node to be allocated is not in memory yet. -/
theorem fresh (h : table.Linked) : table.nodes (.allocated table.allocations) = none := by
  rw [← Option.not_isSome_iff_eq_none, h.known]
  exact Nat.lt_irrefl _

theorem ne_fresh (h : table.Linked) (hnode : table.nodes a = some node) :
    a ≠ .allocated table.allocations := by
  rintro rfl
  rw [h.fresh] at hnode
  cases hnode

/-- **What an addition does with its key**: it gets no memory, finds a node, takes a free root or
hangs a node. -/
theorem getOrAdd_cases (h : table.Linked) (memory : CallMemory)
    (hroot : table.nodes (.embedded (nvipfixHashtable8Hash key)) = some root) :
    (memory.mallocNode = false ∧ table.locate key memory = some none ∧
      nvipfixHashtable8GetOrAdd table key true memory = some (table, none)) ∨
    (∃ a node, root.key ≠ [] ∧ table.locate key memory = some (some a) ∧
      table.nodes a = some node ∧ keyCompare (memory.beyond a) key node.key = .eq ∧
      (∀ hash, a = .embedded hash → node.key ≠ []) ∧
      nvipfixHashtable8GetOrAdd table key true memory = some (table, some a)) ∨
    (memory.mallocNode = true ∧ root.key = [] ∧ table.locate key memory = some none ∧
      nvipfixHashtable8GetOrAdd table key true memory =
        some (table.write (.embedded (nvipfixHashtable8Hash key)) { root with key },
          some (.embedded (nvipfixHashtable8Hash key)))) ∨
    (memory.mallocNode = true ∧ root.key ≠ [] ∧ table.locate key memory = some none ∧
      ∃ place parent, table.nodes place.1 = some parent ∧ parent.child place.2 = none ∧
        (∀ hash, place.1 = .embedded hash → parent.key ≠ []) ∧
        hashWalk table memory key table.fuel (some (.embedded (nvipfixHashtable8Hash key))) none =
          some (none, some place) ∧
        nvipfixHashtable8GetOrAdd table key true memory =
          some (table.hang key place parent, some (.allocated table.allocations))) := by
  by_cases hkey : root.key = []
  · have hlocate : table.locate key memory = some none := by
      rw [locate_eq hroot, if_pos hkey]
    cases hmalloc : memory.mallocNode with
    | false =>
        refine .inl ⟨rfl, hlocate, ?_⟩
        simp [nvipfixHashtable8GetOrAdd, hroot, hkey, hmalloc]
    | true =>
        refine .inr (.inr (.inl ⟨rfl, hkey, hlocate, ?_⟩))
        simp [nvipfixHashtable8GetOrAdd, hroot, hkey, hmalloc]
  · have hadd : nvipfixHashtable8GetOrAdd table key true memory =
        (hashWalk table memory key table.fuel (some (.embedded (nvipfixHashtable8Hash key)))
          none).bind fun r =>
            if r.1 = none then hashAddNode table memory key r.2 else some (table, r.1) := by
      simp [nvipfixHashtable8GetOrAdd, hroot, hkey]
    have hlocate := @locate_eq table memory key root hroot
    rw [if_neg hkey] at hlocate
    have hfuel : table.allocations + 2 ≤ table.fuel +
        (NodeAddress.embedded (nvipfixHashtable8Hash key)).rank := Nat.le_add_right _ _
    -- a walk meets no root but its own, which is not free
    have hnotFree : ∀ {b : NodeAddress} {node : HashNode}, table.nodes b = some node →
        (b = .embedded (nvipfixHashtable8Hash key) ∨ ∀ hash, b ≠ .embedded hash) →
          ∀ hash, b = .embedded hash → node.key ≠ [] := by
      rintro b node hnode (rfl | hallocated) hash hb
      · rwa [← Option.some.inj (hroot.symm.trans hnode)]
      · exact absurd hb (hallocated hash)
    rcases h.exists_hashWalk memory key hroot hfuel none with
      ⟨b, node, parent, hwalk, hnode, hcompare, hwhere⟩ |
      ⟨place, parent, hwalk, hparent, hchild, hwhere⟩
    · refine .inr (.inl ⟨b, node, hkey, by rw [hlocate, hwalk]; rfl, hnode, hcompare,
        hnotFree hnode hwhere, ?_⟩)
      simp [hadd, hwalk]
    · have hmissing : table.locate key memory = some none := by
        rw [hlocate, hwalk]
        rfl
      cases hmalloc : memory.mallocNode with
      | false =>
          refine .inl ⟨rfl, hmissing, ?_⟩
          simp [hadd, hwalk, hashAddNode, hmalloc]
      | true =>
          refine .inr (.inr (.inr ⟨rfl, hkey, hmissing, place, parent, hparent, hchild,
            hnotFree hparent hwhere, hwalk, ?_⟩))
          have hne := h.ne_fresh hparent
          simp [hadd, hwalk, hashAddNode, hmalloc, Hashtable8.write, Function.update_of_ne hne,
            hparent, Hashtable8.hang]

/-- **What a lookup ends at**: a node in memory that the key compares equal to, and no free
root. -/
theorem exists_of_locate (h : table.Linked) (hlocate : table.locate key memory = some (some a)) :
    ∃ node, table.nodes a = some node ∧ keyCompare (memory.beyond a) key node.key = .eq ∧
      ∀ hash, a = .embedded hash → node.key ≠ [] := by
  cases hroot : table.nodes (.embedded (nvipfixHashtable8Hash key)) with
  | none => simp [Hashtable8.locate, nvipfixHashtable8GetOrAdd, hroot] at hlocate
  | some root =>
      rcases h.getOrAdd_cases memory hroot with
        ⟨-, hnone, -⟩ | ⟨b, node, -, hsome, hnode, hequal, hfree, -⟩ | ⟨-, -, hnone, -⟩ |
        ⟨-, -, hnone, -⟩
      · rw [hnone] at hlocate
        cases hlocate
      · obtain rfl : b = a := Option.some.inj (Option.some.inj (hsome.symm.trans hlocate))
        exact ⟨node, hnode, hequal, hfree⟩
      · rw [hnone] at hlocate
        cases hlocate
      · rw [hnone] at hlocate
        cases hlocate

end Hashtable8.Linked

end Cases

end NvIpfix
