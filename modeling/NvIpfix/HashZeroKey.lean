/-
**Keys of length zero.**

A bucket's root is free as long as its key has length 0.  A key of length 0 that finds the root of
its bucket free is stored there, and leaves it free: no lookup sees it.  In a bucket whose root is
taken such a key is found or hung like any other, and further additions leave it where it is.

Main definitions:

* `LaterAdd`, `HashAdd.Spares` — a further addition, and when it lets a value be;
* `KeepsZeroKey` — the key of length 0 has a value, now and from now on.

Main results:

* `keyLenDifference_eq_zero_iff` — which key lengths compare equal;
* `HashAdd.zeroLength_iff` — **when the key of length zero is an ordinary key**.
-/

import NvIpfix.GuardedRun
import NvIpfix.HashChanges

set_option relaxedAutoImplicit false
set_option autoImplicit false

namespace NvIpfix

/-! ### Lengths -/

/-- Lengths compare equal when they differ by a multiple of `2^32`. -/
theorem keyLenDifference_eq_zero_iff (m n : ℕ) :
    keyLenDifference m n = 0 ↔ m % 2 ^ 32 = n % 2 ^ 32 := by
  have hzero : keyLenDifference m n = 0 ↔
      (UInt64.ofNat m - UInt64.ofNat n).toUInt32.toNat = 0 := by
    constructor
    · intro h
      have hbits := congrArg (fun x : Int32 => x.toUInt32.toNat) h
      exact hbits
    · intro h
      have hx : (UInt64.ofNat m - UInt64.ofNat n).toUInt32 = 0 := UInt32.toNat_inj.1 h
      rw [keyLenDifference, hx]
      rfl
  rw [hzero, UInt64.toNat_toUInt32, UInt64.toNat_sub, UInt64.toNat_ofNat', UInt64.toNat_ofNat']
  omega

/-- The key of length 0 compares the same whatever stands behind a node's key. -/
theorem keyCompare_nil (beyond beyond' : ℕ → UInt8) (nodeKey : List UInt8) :
    keyCompare beyond [] nodeKey = keyCompare beyond' [] nodeKey := rfl

/-- Keys that compare equal have lengths that do. -/
theorem mod_length_of_keyCompare_eq {beyond : ℕ → UInt8} {key nodeKey : List UInt8}
    (h : keyCompare beyond key nodeKey = .eq) :
    key.length % 2 ^ 32 = nodeKey.length % 2 ^ 32 := by
  rw [← keyLenDifference_eq_zero_iff]
  unfold keyCompare at h
  by_contra hne
  simp only [hne, ↓reduceIte] at h
  split at h <;> cases h

/-- The walk for the key of length 0 reads no memory behind a key. -/
theorem hashWalk_nil (table : Hashtable8) (memory memory' : CallMemory) (fuel : ℕ)
    (p : Option NodeAddress) (q : Option (NodeAddress × NodeLink)) :
    hashWalk table memory [] fuel p q = hashWalk table memory' [] fuel p q := by
  induction fuel generalizing p q with
  | zero => rfl
  | succ fuel ih =>
      cases p with
      | none => rfl
      | some a =>
          simp only [hashWalk, ih,
            keyCompare_nil (memory.beyond a) (memory'.beyond a)]

theorem locate_nil (table : Hashtable8) (memory memory' : CallMemory) :
    table.locate [] memory = table.locate [] memory' := by
  unfold Hashtable8.locate nvipfixHashtable8GetOrAdd
  simp [hashWalk_nil table memory memory']

/-! ### Later additions -/

/-- A further addition of a key of length 1 at least, which may fail. -/
def LaterAdd (table : Hashtable8) (call : HashAdd) (table' : Hashtable8) : Prop :=
  call.key ≠ [] ∧ ∃ returned, call.run (some table) = some ⟨some table', returned⟩

/-- The length of the key is no multiple of `2^32`, and where values are freed the key does not
have this very value, which it would free. -/
def HashAdd.Spares (value : Address) (table : Hashtable8) (call : HashAdd) : Prop :=
  call.key.length % 2 ^ 32 ≠ 0 ∧ (table.freeValue = true →
    nvipfixHashtable8Get (some table) (some call.key) call.memory ≠ some (some value))

/-- The key of length 0 has the value, which was not freed after `freed`. -/
structure HasZeroKey (value : Address) (freed : List (Option Address)) (table : Hashtable8) :
    Prop where
  get : ∀ memory, nvipfixHashtable8Get (some table) (some []) memory = some (some value)
  spared : ∃ new, table.freed = freed ++ new ∧ some value ∉ new

/-- The key of length 0 has the value, and keeps it in every run of additions that spare it. -/
def KeepsZeroKey (value : Address) (table : Hashtable8) : Prop :=
  HasZeroKey value table.freed table ∧ ∀ run, GuardedRun.IsRun LaterAdd table run →
    GuardedRun.Guarded (HashAdd.Spares value) table run →
      ∀ p ∈ run, HasZeroKey value table.freed p.2

/-- The value is at the node that a lookup of the key of length 0 ends at. -/
structure ZeroKeyAt (value : Address) (freed : List (Option Address)) (a : NodeAddress)
    (table : Hashtable8) : Prop where
  linked : table.Linked
  locate : ∀ memory, table.locate [] memory = some (some a)
  value_eq : (table.nodes a).map HashNode.value = some (some value)
  spared : ∃ new, table.freed = freed ++ new ∧ some value ∉ new

section Runs

variable {value : Address} {freed : List (Option Address)} {a : NodeAddress} {table : Hashtable8}

theorem ZeroKeyAt.hasZeroKey (h : ZeroKeyAt value freed a table) :
    HasZeroKey value freed table := by
  refine ⟨fun memory => ?_, h.spared⟩
  rw [get_eq_locate, h.locate]
  exact h.value_eq

/-- The node of the key of length 0 has a length that compares equal to 0. -/
theorem ZeroKeyAt.exists_node (h : ZeroKeyAt value freed a table) :
    ∃ node, table.nodes a = some node ∧ node.key.length % 2 ^ 32 = 0 ∧
      ∀ hash, a = .embedded hash → node.key ≠ [] := by
  obtain ⟨node, hnode, hequal, hfree⟩ := h.linked.exists_of_locate (h.locate {})
  exact ⟨node, hnode, (mod_length_of_keyCompare_eq hequal).symm, hfree⟩

/-- An addition that spares the value writes another node, and frees another value. -/
theorem ZeroKeyAt.writes_elsewhere (h : ZeroKeyAt value freed a table) {call : HashAdd}
    (hspares : call.Spares value table) {root node : HashNode} {grown : Hashtable8}
    {b : NodeAddress}
    (hroot : table.nodes (.embedded (nvipfixHashtable8Hash call.key)) = some root)
    (horigin : NodeOrigin table grown call.key call.memory root node b) :
    b ≠ a ∧ (node.value ≠ none ∧ table.freeValue = true → node.value ≠ some value) := by
  obtain ⟨hlength, hother⟩ := hspares
  obtain ⟨zero, hzero, hmod, hnotFree⟩ := h.exists_node
  cases horigin with
  | found hkey hlocated hnode hequal hsame =>
      constructor
      · rintro rfl
        obtain rfl := Option.some.inj (hzero.symm.trans hnode)
        exact hlength ((mod_length_of_keyCompare_eq hequal).trans hmod)
      · rintro ⟨-, hfreeValue⟩ hvalue
        refine hother hfreeValue ?_
        rw [get_eq_locate, hlocated]
        simp [hnode, hvalue]
  | taken hmalloc hkey hmissing haddress hnode =>
      constructor
      · rintro rfl
        rw [haddress, hroot] at hzero
        obtain rfl := Option.some.inj hzero
        exact hnotFree _ haddress hkey
      · rintro ⟨hvalue, -⟩
        -- only the root of bucket 0 can hold a value and be free, and then `a` is not found
        by_cases hhash : nvipfixHashtable8Hash call.key = 0
        · rw [hhash] at hroot
          have hfree := @locate_eq table {} [] root hroot
          rw [if_pos hkey, h.locate] at hfree
          cases hfree
        · rw [hnode] at hvalue
          exact absurd ((h.linked.free _ root hroot hkey).2 hhash) hvalue
  | hung hmalloc hkey hmissing hnone hnode hlocated =>
      constructor
      · rintro rfl
        rw [hnone] at hzero
        cases hzero
      · rintro ⟨hvalue, -⟩
        rw [hnode] at hvalue
        exact absurd rfl hvalue

/-- **A further addition leaves the key of length 0 where it is.** -/
theorem ZeroKeyAt.laterAdd (h : ZeroKeyAt value freed a table) {call : HashAdd}
    {table' : Hashtable8} (hspares : call.Spares value table) (hstep : LaterAdd table call table') :
    ZeroKeyAt value freed a table' := by
  obtain ⟨-, returned, hrun⟩ := hstep
  obtain ⟨root, hroot, ⟨-, -, heq⟩ | ⟨grown, b, node, hgrown, horigin, htable, -⟩⟩ :=
    call.run_cases h.linked hrun
  · obtain rfl : table' = table := by simpa using congrArg AddResult.table heq
    exact h
  · obtain rfl : table' = grown.setValue b node call.value := Option.some.inj htable
    have hlocate : ∀ memory, grown.locate [] memory = some (some a) := by
      intro memory
      rcases hgrown.locate [] memory with hsame | ⟨hnone, -⟩
      · rw [hsame, h.locate]
      · rw [h.locate] at hnone
        cases hnone
    obtain ⟨hne, hfrees⟩ := h.writes_elsewhere hspares hroot horigin
    refine ⟨hgrown.linked_setValue _, fun memory => ?_, ?_, ?_⟩
    · rw [hgrown.locate_setValue, hlocate]
    · rw [Hashtable8.setValue_eq]
      exact (congrArg (Option.map HashNode.value) (Function.update_of_ne hne.symm _ _)).trans
        ((hgrown.value a hne.symm).trans h.value_eq)
    · obtain ⟨new, hnew, hspared⟩ := h.spared
      refine ⟨new ++ if node.value ≠ none ∧ table.freeValue then [node.value] else [], ?_, ?_⟩
      · rw [hgrown.freed_setValue, hnew, List.append_assoc]
      · rw [List.mem_append, not_or]
        refine ⟨hspared, ?_⟩
        split
        · next hreleased =>
            rw [List.mem_singleton]
            exact (hfrees hreleased).symm
        · exact List.not_mem_nil

/-- A value at the node of the key of length 0 stays there. -/
theorem ZeroKeyAt.keepsZeroKey (h : ZeroKeyAt value table.freed a table) :
    KeepsZeroKey value table := by
  refine ⟨h.hasZeroKey, fun run hrun hguarded p hp => ?_⟩
  have hinv := hrun.invariant_of_guarded
    (fun s call s' hs hspares hstep => ZeroKeyAt.laterAdd hs hspares hstep) hguarded h p hp
  exact hinv.hasZeroKey

end Runs

/-! ### Adding a key of length zero -/

/-- What a call stores. -/
def HashAdd.stored (call : HashAdd) (hashtable : Option Hashtable8) : Option Address :=
  (tableOrNew hashtable call.copyF call.freeF call.memory).bind fun table =>
    table.storedValue call.value

section Zero

variable {table table' : Hashtable8} {call : HashAdd} {root : HashNode}

/-- In a free root no lookup sees the key of length 0. -/
theorem HashAdd.get_of_free (h : table.Linked) (hkey : call.key = [])
    (hrun : call.run (some table) = some ⟨some table', true⟩)
    (hroot : table.nodes (.embedded 0) = some root) (hfree : root.key = []) (memory : CallMemory) :
    nvipfixHashtable8Get (some table') (some []) memory = some none := by
  obtain ⟨root', hroot', hcases⟩ := call.run_cases h hrun
  rw [hkey] at hroot'
  obtain rfl : root = root' := Option.some.inj (hroot.symm.trans hroot')
  rcases hcases with ⟨-, -, heq⟩ | ⟨grown, a, node, hgrown, horigin, htable, -⟩
  · cases heq
  · obtain rfl := Option.some.inj htable
    cases horigin with
    | found hrootKey => exact absurd hfree hrootKey
    | hung hmalloc hrootKey => exact absurd hfree hrootKey
    | taken hmalloc hrootKey hmissing haddress hnode =>
        have hnot : grown.locate [] memory ≠ some (some a) := by
          intro hlocate
          obtain ⟨node', hnode', -, hnotFree⟩ := hgrown.linked.exists_of_locate hlocate
          obtain rfl := Option.some.inj (hgrown.node_eq.symm.trans hnode')
          refine hnotFree _ haddress ?_
          rw [hnode]
          exact hkey
        have hbefore := @locate_eq table memory [] root hroot
        rw [if_pos hfree] at hbefore
        rw [hgrown.get_setValue, if_neg hnot, get_eq_locate, hbefore]
        rfl

/-- In a bucket whose root is taken the key of length 0 keeps its value. -/
theorem HashAdd.keepsZeroKey_of_taken (h : table.Linked) (hkey : call.key = [])
    (hvalue : call.value ≠ none) (hrun : call.run (some table) = some ⟨some table', true⟩)
    (hroot : table.nodes (.embedded 0) = some root) (htaken : root.key ≠ []) :
    ∃ value, table.storedValue call.value = some value ∧ KeepsZeroKey value table' := by
  obtain ⟨root', hroot', hcases⟩ := call.run_cases h hrun
  rw [hkey] at hroot'
  obtain rfl : root = root' := Option.some.inj (hroot.symm.trans hroot')
  rcases hcases with ⟨-, -, heq⟩ | ⟨grown, a, node, hgrown, horigin, htable, hreturned⟩
  · cases heq
  · obtain rfl := Option.some.inj htable
    have hstored : table.storedValue call.value ≠ none := by
      intro hnone
      exact hreturned.1 rfl ⟨hvalue, hnone⟩
    obtain ⟨value, hvalue⟩ := Option.ne_none_iff_exists'.1 hstored
    have hlocate : grown.locate [] call.memory = some (some a) := by
      cases horigin with
      | found hrootKey hlocated hnode hequal hsame => rw [← hkey, hsame, hlocated]
      | taken hmalloc hrootKey => exact absurd hrootKey htaken
      | hung hmalloc hrootKey hmissing hnone hnode hlocated => rw [← hkey, hlocated]
    refine ⟨value, hvalue, ZeroKeyAt.keepsZeroKey (a := a) ⟨hgrown.linked_setValue _, ?_, ?_, ?_⟩⟩
    · intro memory
      rw [hgrown.locate_setValue, locate_nil grown memory call.memory, hlocate]
    · rw [Hashtable8.setValue_eq, hgrown.storedValue, hvalue]
      simp
    · exact ⟨[], by simp, List.not_mem_nil⟩

/-- **When the key of length 0 is an ordinary key**: the root of its bucket was taken before. -/
theorem HashAdd.zeroLength_iff {hashtable : Option Hashtable8}
    (hreach : Hashtable8.Reachable hashtable) (hkey : call.key = []) (hvalue : call.value ≠ none)
    (hrun : call.run hashtable = some ⟨some table', true⟩) :
    (∃ value, call.stored hashtable = some value ∧ KeepsZeroKey value table') ↔
      ∃ table root, hashtable = some table ∧ table.nodes (.embedded 0) = some root ∧
        root.key ≠ [] := by
  constructor
  · rintro ⟨value, -, hkeeps⟩
    have hget := hkeeps.1.get {}
    cases hashtable with
    | none =>
        rcases call.run_none hrun with hnone | hrun
        · cases hnone
        · rw [HashAdd.get_of_free (Hashtable8.linked_zeroed _ _) hkey hrun rfl rfl] at hget
          cases hget
    | some table =>
        have h : table.Linked := hreach.linked table rfl
        obtain ⟨root, hroot⟩ := Option.isSome_iff_exists.1 ((h.root 0).2 (by decide))
        refine ⟨table, root, rfl, hroot, fun hfree => ?_⟩
        rw [HashAdd.get_of_free h hkey hrun hroot hfree] at hget
        cases hget
  · rintro ⟨table, root, rfl, hroot, htaken⟩
    exact HashAdd.keepsZeroKey_of_taken (hreach.linked table rfl) hkey hvalue hrun hroot htaken

end Zero

/-- An addition of a key of the bucket of hash 0, before one of the key of length 0. -/
theorem HashAdd.zeroLength_behindOther : ∃ table table',
    HashAdd.run { key := [0], value := some 1 } none = some ⟨some table, true⟩ ∧
      HashAdd.run { key := [], value := some 2 } (some table) = some ⟨some table', true⟩ ∧
      KeepsZeroKey 2 table' := by
  obtain ⟨result, hrun⟩ : ∃ result,
      HashAdd.run { key := [0], value := some 1 } none = some result := ⟨_, rfl⟩
  have hreach := Hashtable8.Reachable.add Hashtable8.Reachable.null hrun
  obtain rfl := Option.some.inj hrun
  obtain ⟨value, hvalue, hkeeps⟩ := (@HashAdd.zeroLength_iff _ { key := [], value := some 2 } _
    hreach rfl (by simp) rfl).2 ⟨_, _, rfl, rfl, by simp⟩
  obtain rfl : 2 = value := Option.some.inj hvalue
  exact ⟨_, _, rfl, rfl, hkeeps⟩

/-- A first addition of the key of length 0 stores a value that no lookup finds. -/
theorem HashAdd.zeroLength_first : ∃ table,
    HashAdd.run { key := [], value := some 1 } none = some ⟨some table, true⟩ ∧
      nvipfixHashtable8Get (some table) (some []) {} = some none ∧
      (table.nodes (.embedded 0)).map HashNode.value = some (some 1) :=
  ⟨_, rfl, rfl, rfl⟩

end NvIpfix
