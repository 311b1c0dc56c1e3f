/-
**The hash table is a finite map.**

The walk compares key lengths by the sign of a difference cut down to 32 bits.  As long as the keys
are shorter than `2^31` octets that sign is the right one, equal lengths are the only ones whose
octets are compared, and the walk stops at a node exactly when the key is the node's key.  The trees
grow at their leaves and a leaf is in the way of no other key, so after any sequence of additions a
lookup returns what the last addition of its key stored, whatever else shares the key's hash.

Main definitions:

* `lastAdded` — what the last addition of a key stored.

Main results:

* `keyCompare_eq_iff` — short keys compare equal only to themselves;
* `foundValue_putValue_self`, `foundValue_putValue_of_ne` — one addition, seen by the lookups;
* `nvipfixHashtable8Get_addAll` — **a lookup returns what the last addition of its key stored**.
-/

import NvIpfix.HashBuckets

set_option relaxedAutoImplicit false
set_option autoImplicit false

namespace NvIpfix

open SearchTree

/-! ### Short keys -/

/-- The length difference of short keys is the difference. -/
theorem toInt_keyLenDifference {m n : ℕ} (hm : m < 2 ^ 31) (hn : n < 2 ^ 31) :
    (keyLenDifference m n).toInt = (m : ℤ) - n := by
  have htoNat : (UInt64.ofNat m - UInt64.ofNat n).toUInt32.toNat = (2 ^ 64 - n + m) % 2 ^ 32 := by
    rw [UInt64.toNat_toUInt32, UInt64.toNat_sub,
      UInt64.toNat_ofNat_of_lt' (by rw [UInt64.size]; omega),
      UInt64.toNat_ofNat_of_lt' (by rw [UInt64.size]; omega)]
    omega
  have htoInt : (keyLenDifference m n).toInt =
      (UInt64.ofNat m - UInt64.ofNat n).toUInt32.toBitVec.toInt := rfl
  rw [htoInt, BitVec.toInt_eq_toNat_cond, UInt32.toNat_toBitVec, htoNat]
  split <;> omega

section Keys

variable {key nodeKey : List UInt8}

/-- **Short keys are ordered by length, then by their octets**, whatever stands behind them. -/
theorem keyCompare_of_short (beyond : ℕ → UInt8) (hkey : key.length < 2 ^ 31)
    (hnode : nodeKey.length < 2 ^ 31) :
    keyCompare beyond key nodeKey =
      if key.length = nodeKey.length then compare key nodeKey
      else if key.length < nodeKey.length then .lt else .gt := by
  have hdifference := toInt_keyLenDifference hkey hnode
  have hzero : keyLenDifference key.length nodeKey.length = 0 ↔ key.length = nodeKey.length := by
    rw [← Int32.toInt_inj, hdifference, Int32.toInt_zero]
    omega
  have hneg : keyLenDifference key.length nodeKey.length < 0 ↔ key.length < nodeKey.length := by
    rw [Int32.lt_iff_toInt_lt, hdifference, Int32.toInt_zero]
    omega
  simp only [keyCompare, hzero, hneg]
  by_cases hlength : key.length = nodeKey.length
  · rw [if_pos hlength, if_pos hlength, hlength, keyOctets_self]
  · rw [if_neg hlength, if_neg hlength]

/-- **Short keys compare equal only to themselves.** -/
theorem keyCompare_eq_iff (beyond : ℕ → UInt8) (hkey : key.length < 2 ^ 31)
    (hnode : nodeKey.length < 2 ^ 31) :
    keyCompare beyond key nodeKey = .eq ↔ key = nodeKey := by
  rw [keyCompare_of_short beyond hkey hnode]
  split
  · exact Std.compare_eq_iff_eq
  · rename_i hlength
    have hne : key ≠ nodeKey := fun h => hlength (congrArg List.length h)
    split <;> simp [hne]

end Keys

/-! ### One addition -/

section Addition

variable {key other : List UInt8} {memory memory' : CallMemory} {leaf : HashEntry}
  {t : BinaryTree HashEntry} {value : Option Address}

/-- The keys of a tree are short. -/
def ShortKeys (t : BinaryTree HashEntry) : Prop :=
  ∀ e ∈ postorder t, e.key.length < 2 ^ 31

theorem keyDir_eq_iff {e : HashEntry} (hkey : key.length < 2 ^ 31) (he : e.key.length < 2 ^ 31) :
    keyDir memory key e = .eq ↔ key = e.key :=
  keyCompare_eq_iff _ hkey he

/-- The memory behind short keys does not matter to a search. -/
theorem find_keyDir_congr (memory memory' : CallMemory) (hkey : key.length < 2 ^ 31)
    (ht : ShortKeys t) : find (keyDir memory' key) t = find (keyDir memory key) t := by
  refine find_congr fun e he => ?_
  rw [keyDir, keyDir, keyCompare_of_short _ hkey (ht e he), keyCompare_of_short _ hkey (ht e he)]

theorem ShortKeys.insert {dir : HashEntry → Ordering} (ht : ShortKeys t)
    (hleaf : leaf.key.length < 2 ^ 31) : ShortKeys (SearchTree.insert dir leaf t) := by
  intro e he
  cases hfind : find dir t with
  | some found =>
      rw [insert_of_find hfind] at he
      exact ht e he
  | none =>
      rcases List.mem_cons.1 ((postorder_insert hfind).mem_iff.1 he) with rfl | he
      · exact hleaf
      · exact ht e he

theorem ShortKeys.putValue {dir : HashEntry → Ordering} (ht : ShortKeys t)
    (hleaf : leaf.key.length < 2 ^ 31) : ShortKeys (putValue dir leaf value t) := by
  intro e he
  rw [NvIpfix.putValue, postorder_map] at he
  obtain ⟨b, hb, rfl⟩ := List.mem_map.1 he
  rw [HashEntry.setValue_key]
  exact ht.insert hleaf b hb

/-- The search for a key after an addition. -/
theorem foundValue_putValue (dir : HashEntry → Ordering) :
    foundValue (keyDir memory' other) (putValue dir leaf value t) =
      ((find (keyDir memory' other) (SearchTree.insert dir leaf t)).map
        (HashEntry.setValue ((find dir t).getD leaf).address value)).bind HashEntry.value := by
  rw [foundValue, putValue, find_map (keyDir_setValue memory' other _ value)]

/-- **The key of an addition has its value.** -/
theorem foundValue_putValue_self (hkey : key.length < 2 ^ 31) (ht : ShortKeys t)
    (hleaf : leaf.key = key) :
    foundValue (keyDir memory' key) (putValue (keyDir memory key) leaf value t) = value := by
  have hself : keyDir memory key leaf = .eq := by rw [keyDir, hleaf, keyCompare_self]
  have hshort : ShortKeys (SearchTree.insert (keyDir memory key) leaf t) :=
    ht.insert (hleaf ▸ hkey)
  rw [foundValue_putValue, find_keyDir_congr memory memory' hkey hshort, find_insert_self hself]
  simp [HashEntry.setValue]

/-- **No other key is affected.** -/
theorem foundValue_putValue_of_ne (hne : other ≠ key) (hother : other.length < 2 ^ 31)
    (hkey : key.length < 2 ^ 31) (ht : ShortKeys t) (hleaf : leaf.key = key)
    (hnodup : (addresses t).Nodup) (hfresh : leaf.address ∉ addresses t) :
    foundValue (keyDir memory' other) (putValue (keyDir memory key) leaf value t) =
      foundValue (keyDir memory' other) t := by
  have hmiss : keyDir memory' other leaf ≠ .eq := by
    rw [ne_eq, keyDir_eq_iff hother (hleaf ▸ hkey), hleaf]
    exact hne
  rw [foundValue_putValue, find_insert_of_ne hmiss, foundValue]
  cases hfind : find (keyDir memory' other) t with
  | none => rfl
  | some e =>
      obtain ⟨he, hdir⟩ := mem_of_find hfind
      have heKey := (keyDir_eq_iff hother (ht e he)).1 hdir
      -- the node that is written has another key, so it is at another address
      have haddress : e.address ≠ ((find (keyDir memory key) t).getD leaf).address := by
        intro heq
        cases hfind' : find (keyDir memory key) t with
        | none =>
            rw [hfind'] at heq
            exact hfresh (heq ▸ List.mem_map_of_mem he)
        | some b =>
            obtain ⟨hb, hdir'⟩ := mem_of_find hfind'
            rw [hfind'] at heq
            obtain rfl := List.inj_on_of_nodup_map hnodup he hb heq
            exact hne (heKey.trans ((keyDir_eq_iff hkey (ht e he)).1 hdir').symm)
      simp [HashEntry.setValue, haddress]

end Addition

/-! ### Sequences of additions -/

/-- What the last addition of a key stored; `NULL` when there is none. -/
def lastAdded (copyF : Option CopyFunction) (calls : List AddCall) (key : HashKey) :
    Option Address :=
  (calls.zipIdx.reverse.find? fun p => p.1.key = key).bind fun p => p.1.stored copyF p.2

theorem lastAdded_append (copyF : Option CopyFunction) (calls : List AddCall) (call : AddCall)
    (key : HashKey) :
    lastAdded copyF (calls ++ [call]) key =
      if call.key = key then call.stored copyF calls.length else lastAdded copyF calls key := by
  by_cases h : call.key = key <;> simp [lastAdded, List.zipIdx_append, h]

section Additions

variable {copyF : Option CopyFunction} {freeF : Bool} {calls : List AddCall} {call : AddCall}
  {table : Hashtable8} {buckets : UInt8 → BinaryTree HashEntry}

/-- What the trees say is what the additions stored last. -/
structure AnswersLast (copyF : Option CopyFunction) (calls : List AddCall)
    (buckets : UInt8 → BinaryTree HashEntry) : Prop where
  short : ∀ hash, ShortKeys (buckets hash)
  lookup : ∀ (key : HashKey) (memory : CallMemory), key.octets.length < 2 ^ 31 →
    foundValue (keyDir memory key.octets) (buckets (nvipfixHashtable8Hash key.octets)) =
      lastAdded copyF calls key

theorem answersLast_nil (copyF : Option CopyFunction) :
    AnswersLast copyF [] fun _ => .nil where
  short _ e he := by simp at he
  lookup _ _ _ := rfl

/-- **One more addition is answered too.** -/
theorem AnswersLast.put (h : AnswersLast copyF calls buckets) (hmodels : table.Models buckets)
    (hcall : call.key.octets.length < 2 ^ 31) :
    AnswersLast copyF (calls ++ [call])
      (call.put table (call.stored copyF calls.length) buckets) where
  short hash := by
    by_cases hhash : hash = nvipfixHashtable8Hash call.key.octets
    · rw [AddCall.put, hhash, Function.update_self]
      exact (h.short _).putValue (by rwa [Hashtable8.leaf_key])
    · rw [AddCall.put, Function.update_of_ne hhash]
      exact h.short hash
  lookup key memory hkey := by
    rw [lastAdded_append]
    by_cases heq : call.key = key
    · subst heq
      rw [if_pos rfl, AddCall.put, Function.update_self]
      exact foundValue_putValue_self hcall (h.short _) (Hashtable8.leaf_key _)
    · rw [if_neg heq, ← h.lookup key memory hkey, AddCall.put]
      have hne : key.octets ≠ call.key.octets := fun hoctets => heq (HashKey.ext hoctets.symm)
      by_cases hhash : nvipfixHashtable8Hash key.octets = nvipfixHashtable8Hash call.key.octets
      · rw [hhash, Function.update_self]
        exact foundValue_putValue_of_ne hne hkey hcall (h.short _) (Hashtable8.leaf_key _)
          (hmodels.nodup _) (hmodels.leaf_notMem _)
      · rw [Function.update_of_ne hhash]

end Additions

/-- Additions of values store no `NULL`, unless `copyValue` returns it. -/
theorem none_notMem_storedValues {copyF : Option CopyFunction}
    (hcopy : ∀ copy ∈ copyF, ∀ i value, copy i (some value) ≠ none) (calls : List AddCall) :
    none ∉ storedValues copyF calls := by
  intro hmem
  obtain ⟨⟨call, i⟩, -, hstored⟩ := List.mem_map.1 hmem
  cases copyF with
  | none => simp [AddCall.stored] at hstored
  | some copy => exact hcopy copy rfl i call.value hstored

/-- **A lookup returns what the last addition of its key stored**, whatever the other keys are and
in whatever order they were added. -/
theorem nvipfixHashtable8Get_addAll {calls : List AddCall}
    (hshort : ∀ call ∈ calls, call.key.octets.length < 2 ^ 31)
    (hcopy : ∀ copy ∈ tableCopy calls, ∀ i value, copy i (some value) ≠ none) :
    ∃ hashtable, addAll calls none = some hashtable ∧
      ∀ (key : HashKey) (memory : CallMemory), key.octets.length < 2 ^ 31 →
        nvipfixHashtable8Get hashtable (some key.octets) memory =
          some (lastAdded (tableCopy calls) calls key) := by
  by_cases hne : calls = []
  · subst hne
    exact ⟨none, rfl, fun _ _ _ => rfl⟩
  · have hstep : ∀ done call table (table' : Hashtable8) buckets,
        table.Built (tableCopy calls) (tableFree calls) done buckets →
        table'.Built (tableCopy calls) (tableFree calls) (done ++ [call])
          (call.put table (call.stored (tableCopy calls) done.length) buckets) →
        table'.freed = table.freed ++ call.released (tableFree calls) buckets →
        ((∀ call ∈ done, call.key.octets.length < 2 ^ 31) →
          AnswersLast (tableCopy calls) done buckets) →
        (∀ c ∈ done ++ [call], c.key.octets.length < 2 ^ 31) →
          AnswersLast (tableCopy calls) (done ++ [call])
            (call.put table (call.stored (tableCopy calls) done.length) buckets) := by
      intro done call table table' buckets hbuilt _ _ hanswers hshort
      have hdone := hanswers fun c hc => hshort c (List.mem_append_left _ hc)
      exact hdone.put hbuilt.models (hshort call (by simp))
    obtain ⟨table, buckets, hrun, hbuilt, hanswers⟩ := addAll_induction
      (fun _ => answersLast_nil _) hstep hne (first_functions calls)
      (none_notMem_storedValues hcopy calls)
    refine ⟨some table, hrun, fun key memory hkey => ?_⟩
    rw [hbuilt.models.get key.hash_lt, (hanswers hshort).lookup key memory hkey]

theorem nvipfixHashtable8Get_collidingCalls :
    ∃ hashtable, addAll (collidingCalls none false) none = some hashtable ∧
      nvipfixHashtable8Get hashtable (some [97]) {} = some (some 3) ∧
      nvipfixHashtable8Get hashtable (some [0, 96]) {} = some (some 2) ∧
      nvipfixHashtable8Get hashtable (some [2, 98]) {} = some none := by
  have hcopy : ∀ copy ∈ tableCopy (collidingCalls none false), ∀ i value,
      copy i (some value) ≠ none := by
    intro copy h
    cases h
  obtain ⟨hashtable, hrun, hget⟩ := nvipfixHashtable8Get_addAll (by decide) hcopy
  exact ⟨hashtable, hrun, hget ⟨[97], by decide, by decide⟩ {} (by decide),
    hget ⟨[0, 96], by decide, by decide⟩ {} (by decide),
    hget ⟨[2, 98], by decide, by decide⟩ {} (by decide)⟩

end NvIpfix
