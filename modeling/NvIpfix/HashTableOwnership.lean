/-
**Who owns the values of the hash table.**

A table with a copy and a free function owns the copies in its nodes.  An addition makes one copy
and frees the one that the node held before, if there was any; freeing the table goes through all
buckets and frees what is left.  At every moment the copies made are those freed and those held,
each as often as it was made: copies that differ from one another are therefore freed at most once
while the table is in use, never while a node holds them, and once in the end.

Nothing here depends on how two keys compare: whether the walk finds a node or falls off the tree,
the copy that leaves the table is freed and the new one is held.

Main definitions:

* `treeValues`, `heldValues` — the values in a tree, in all buckets;
* `Accounted` — the copies made are those freed and those held.

Main results:

* `Accounted.put` — **an addition keeps the account**;
* `nvipfixHashtable8Free_eq` — freeing a table frees what it holds;
* `nvipfixHashtable8Free_exactlyOnce` — **every copy is freed exactly once and nothing else is, and
  no lookup returns a freed value**.
-/

import NvIpfix.HashBuckets

set_option relaxedAutoImplicit false
set_option autoImplicit false

namespace NvIpfix

open SearchTree

/-! ### The values in a tree -/

/-- The values of the nodes of a tree. -/
def treeValues (t : BinaryTree HashEntry) : List (Option Address) :=
  (postorder t).map HashEntry.value

/-- Writing values at an address that is not there changes nothing. -/
theorem map_setValue_of_notMem {address : NodeAddress} {value : Option Address}
    {l : List HashEntry} (h : address ∉ l.map HashEntry.address) :
    l.map (HashEntry.setValue address value) = l := by
  refine (List.map_congr_left fun e he => ?_).trans (List.map_id l)
  have hne : e.address ≠ address := fun heq => h (heq ▸ List.mem_map_of_mem he)
  simp [HashEntry.setValue, hne]

/-- A value written takes the place of another. -/
theorem treeValues_setValue {t : BinaryTree HashEntry} (hnodup : (addresses t).Nodup)
    {e : HashEntry} (he : e ∈ postorder t) (value : Option Address) :
    (e.value :: treeValues (t.map (HashEntry.setValue e.address value))).Perm
      (value :: treeValues t) := by
  obtain ⟨before, after, hsplit⟩ := List.append_of_mem he
  rw [addresses, hsplit, List.map_append, List.map_cons, List.nodup_middle, List.nodup_cons,
    List.mem_append, not_or] at hnodup
  have hset : (postorder t).map (HashEntry.setValue e.address value) =
      before ++ { e with value } :: after := by
    rw [hsplit, List.map_append, List.map_cons, map_setValue_of_notMem hnodup.1.1,
      map_setValue_of_notMem hnodup.1.2]
    simp [HashEntry.setValue]
  rw [treeValues, treeValues, postorder_map, hset, hsplit, List.map_append, List.map_append,
    List.map_cons, List.map_cons]
  have hold : (before.map HashEntry.value ++ e.value :: after.map HashEntry.value).Perm
      (e.value :: (before.map HashEntry.value ++ after.map HashEntry.value)) := List.perm_middle
  exact (List.perm_middle.cons _).trans ((List.Perm.swap _ _ _).trans (hold.symm.cons _))

/-- **One addition in a tree**: the value that was found leaves, the new one is there. -/
theorem treeValues_putValue (dir : HashEntry → Ordering) {leaf : HashEntry}
    {t : BinaryTree HashEntry} (hnodup : (addresses t).Nodup)
    (hfresh : leaf.address ∉ addresses t) (value : Option Address) :
    ((find dir t).toList.map HashEntry.value ++ treeValues (putValue dir leaf value t)).Perm
      (value :: treeValues t) := by
  rw [putValue]
  cases hfind : find dir t with
  | some e =>
      rw [insert_of_find hfind]
      exact treeValues_setValue hnodup (mem_of_find hfind).1 value
  | none =>
      have hperm : (postorder (SearchTree.insert dir leaf t)).Perm (leaf :: postorder t) :=
        postorder_insert hfind
      have hnodup' : (addresses (SearchTree.insert dir leaf t)).Nodup :=
        (addresses_insert hfind).nodup_iff.2 (List.nodup_cons.2 ⟨hfresh, hnodup⟩)
      have hset := treeValues_setValue hnodup' (hperm.mem_iff.2 List.mem_cons_self) value
      have hvalues := (hperm.map HashEntry.value).cons value
      exact ((hset.trans hvalues).trans (List.Perm.swap _ _ _)).cons_inv

/-! ### The values in all buckets -/

@[simp] theorem mem_bucketHashes {hash : UInt8} : hash ∈ bucketHashes ↔ hash < 255 := by
  rw [bucketHashes, List.mem_map]
  constructor
  · rintro ⟨i, hi, rfl⟩
    rw [List.mem_range] at hi
    rw [UInt8.lt_iff_toNat_lt, UInt8.toNat_ofNat_of_lt' (by rw [UInt8.size]; omega)]
    exact hi
  · intro hhash
    exact ⟨hash.toNat, List.mem_range.2 hhash, UInt8.ofNat_toNat⟩

theorem nodup_bucketHashes : bucketHashes.Nodup := by
  refine List.Nodup.map_on (fun i hi j hj heq => ?_) List.nodup_range
  rw [List.mem_range] at hi hj
  have htoNat := congrArg UInt8.toNat heq
  rwa [UInt8.toNat_ofNat_of_lt' (by rw [UInt8.size]; omega),
    UInt8.toNat_ofNat_of_lt' (by rw [UInt8.size]; omega)] at htoNat

/-- The values in all buckets. -/
def heldValues (buckets : UInt8 → BinaryTree HashEntry) : List (Option Address) :=
  bucketHashes.flatMap fun hash => treeValues (buckets hash)

/-- The values of one bucket and those of the others, which stay as they are. -/
theorem heldValues_update (buckets : UInt8 → BinaryTree HashEntry) {hash : UInt8}
    (hhash : hash < 255) (t : BinaryTree HashEntry) :
    ∃ others, (heldValues buckets).Perm (treeValues (buckets hash) ++ others) ∧
      (heldValues (Function.update buckets hash t)).Perm (treeValues t ++ others) := by
  have hperm := List.perm_cons_erase (mem_bucketHashes.2 hhash)
  refine ⟨(bucketHashes.erase hash).flatMap fun hash => treeValues (buckets hash),
    hperm.flatMap_right _, ?_⟩
  refine (hperm.flatMap_right _).trans (List.Perm.of_eq ?_)
  rw [List.flatMap_cons, Function.update_self]
  congr 1
  refine List.flatMap_congr fun hash' hhash' => ?_
  have hne : hash' ≠ hash := fun heq => nodup_bucketHashes.not_mem_erase (heq ▸ hhash')
  rw [Function.update_of_ne hne]

/-! ### The account -/

/-- **The copies made are those freed and those held.** -/
def Accounted (table : Hashtable8) (buckets : UInt8 → BinaryTree HashEntry) : Prop :=
  (table.freed ++ heldValues buckets).Perm table.copied

theorem Accounted.none_notMem {table : Hashtable8} {buckets : UInt8 → BinaryTree HashEntry}
    (h : Accounted table buckets) (hcopied : none ∉ table.copied) {hash : UInt8}
    (hhash : hash < 255) : none ∉ treeValues (buckets hash) := by
  intro hmem
  refine hcopied (h.mem_iff.1 (List.mem_append_right _ ?_))
  exact List.mem_flatMap.2 ⟨hash, mem_bucketHashes.2 hhash, hmem⟩

/-- What a call passes to `freeValue` is what it found. -/
theorem AddCall.released_eq (call : AddCall) {buckets : UInt8 → BinaryTree HashEntry}
    (hnone : none ∉ treeValues (call.bucket buckets)) :
    call.released true buckets =
      (find call.dir (call.bucket buckets)).toList.map HashEntry.value := by
  rw [AddCall.released, foundValue]
  cases hfind : find call.dir (call.bucket buckets) with
  | none => simp
  | some e =>
      have hvalue : e.value ≠ none := fun heq =>
        hnone (heq ▸ List.mem_map_of_mem (mem_of_find hfind).1)
      simp [hvalue]

/-- **An addition keeps the account.** -/
theorem Accounted.put {table table' : Hashtable8} {buckets : UInt8 → BinaryTree HashEntry}
    (h : Accounted table buckets) (hmodels : table.Models buckets) (hcopied : none ∉ table.copied)
    (call : AddCall) (value : Option Address)
    (hcopied' : table'.copied = table.copied ++ [value])
    (hfreed : table'.freed = table.freed ++ call.released true buckets) :
    Accounted table' (call.put table value buckets) := by
  have htree := treeValues_putValue call.dir
    (hmodels.nodup (nvipfixHashtable8Hash call.key.octets))
    (hmodels.leaf_notMem call.key.octets) value
  obtain ⟨others, hheld, hheld'⟩ := heldValues_update buckets call.key.hash_lt
    (putValue call.dir (table.leaf call.key.octets (call.bucket buckets)) value
      (call.bucket buckets))
  rw [Accounted, hfreed, hcopied',
    call.released_eq (h.none_notMem hcopied call.key.hash_lt), AddCall.put]
  rw [Accounted] at h
  simp only [AddCall.bucket, List.perm_iff_count, List.count_append] at *
  intro a
  have hold := h a
  have hput := htree a
  rw [List.count_cons] at hput
  rw [hheld a] at hold
  rw [hheld' a, List.count_singleton]
  omega

/-! ### Freeing a table -/

/-- A bucket freed gives up its values. -/
theorem hashFreeBucket_eq {table : Hashtable8} {t : BinaryTree HashEntry} {hash : UInt8}
    (hfree : table.freeValue = true) (hroot : RootRepresents table.nodes hash t)
    (hnodup : (addresses t).Nodup) (hfuel : t.numNodes < table.fuel) :
    ∃ nodes', hashFreeBucket table hash = some { table with
        nodes := nodes'
        freed := table.freed ++ treeValues t } ∧
      ∀ a, a ∉ addresses t → nodes' a = table.nodes a := by
  cases t with
  | nil =>
      have hnode : table.nodes (.embedded hash) = some {} := hroot
      exact ⟨table.nodes, by simp [hashFreeBucket, hnode, treeValues], fun _ _ => rfl⟩
  | node e left right =>
      obtain ⟨hrepresents, hkey⟩ := hroot
      obtain ⟨nodes', heq, hsame⟩ :=
        nvipfixHashtable8FreeNode_eq hfree hrepresents hnodup hfuel true
      obtain ⟨haddress, lt, gt, hnode, -⟩ := hrepresents
      rw [← Option.some.inj haddress] at hnode
      refine ⟨nodes', ?_, hsame⟩
      simpa [hashFreeBucket, hnode, hkey, treeValues] using heq

/-- **The loop over the buckets** gives up the values of those it goes through. -/
theorem foldlM_hashFreeBucket_eq {table : Hashtable8} {buckets : UInt8 → BinaryTree HashEntry}
    (h : table.Models buckets) {hashes : List UInt8} (hnodup : hashes.Nodup) {nodes freed}
    (hfree : table.freeValue = true)
    (hroots : ∀ hash ∈ hashes, RootRepresents nodes hash (buckets hash)) :
    ∃ nodes', hashes.foldlM hashFreeBucket { table with nodes, freed } = some { table with
      nodes := nodes'
      freed := freed ++ hashes.flatMap fun hash => treeValues (buckets hash) } := by
  induction hashes generalizing nodes freed with
  | nil => exact ⟨nodes, by simp⟩
  | cons hash hashes ih =>
      rw [List.nodup_cons] at hnodup
      obtain ⟨nodes', heq, hsame⟩ := @hashFreeBucket_eq { table with nodes, freed } (buckets hash)
        hash hfree (hroots hash List.mem_cons_self) (h.nodup hash) (h.numNodes_lt_fuel hash)
      have hroots' : ∀ hash' ∈ hashes, RootRepresents nodes' hash' (buckets hash') := by
        intro hash' hhash'
        have hne : hash' ≠ hash := fun heq => hnodup.1 (heq ▸ hhash')
        exact (hroots hash' (List.mem_cons_of_mem _ hhash')).congr
          (hsame _ (h.embedded_notMem hne)) fun a ha => hsame a (h.apart hash' hash hne ha)
      obtain ⟨nodes'', heq'⟩ := @ih hnodup.2 nodes' (freed ++ treeValues (buckets hash)) hroots'
      refine ⟨nodes'', ?_⟩
      rw [List.foldlM_cons, heq]
      simpa using heq'

/-- **Freeing a table frees what it holds.** -/
theorem nvipfixHashtable8Free_eq {table : Hashtable8} {buckets : UInt8 → BinaryTree HashEntry}
    (h : table.Models buckets) (hfree : table.freeValue = true) :
    ∃ nodes', nvipfixHashtable8Free (some table) = some (some { table with
      nodes := nodes'
      freed := table.freed ++ heldValues buckets }) := by
  obtain ⟨nodes', heq⟩ := @foldlM_hashFreeBucket_eq table buckets h bucketHashes
    nodup_bucketHashes table.nodes table.freed hfree
    fun hash hhash => h.root hash (mem_bucketHashes.1 hhash)
  exact ⟨nodes', congrArg (Option.map some) heq⟩

/-! ### Sequences of additions -/

section Additions

variable {copy : CopyFunction} {calls prior : List AddCall}

/-- The values stored by the first calls come first. -/
theorem storedValues_prefix (copyF : Option CopyFunction) (h : prior <+: calls) :
    storedValues copyF prior <+: storedValues copyF calls := by
  obtain ⟨rest, rfl⟩ := h
  rw [storedValues, storedValues, List.zipIdx_append, List.map_append]
  exact List.prefix_append _ _

/-- **The account of a table**, whatever was added. -/
theorem addAll_accounted (hne : calls ≠ [])
    (hfirst : ∀ call ∈ calls.head?, call.copyF = some copy ∧ call.freeF = true)
    (hnull : none ∉ storedValues (some copy) calls) :
    ∃ table buckets, addAll calls none = some (some table) ∧
      table.Built (some copy) true calls buckets ∧ Accounted table buckets := by
  have hstart : Accounted (Hashtable8.zeroed (some copy) true) fun _ => .nil := by
    have hheld : heldValues (fun _ => .nil) = [] := List.flatMap_eq_nil_iff.2 fun _ _ => rfl
    rw [Accounted, hheld]
    exact List.Perm.refl _
  have hstep : ∀ done call (table table' : Hashtable8) buckets,
      table.Built (some copy) true done buckets →
      table'.Built (some copy) true (done ++ [call])
        (call.put table (call.stored (some copy) done.length) buckets) →
      table'.freed = table.freed ++ call.released true buckets →
      (none ∉ storedValues (some copy) done → Accounted table buckets) →
      none ∉ storedValues (some copy) (done ++ [call]) →
        Accounted table' (call.put table (call.stored (some copy) done.length) buckets) := by
    intro done call table table' buckets hbuilt hbuilt' hfreed haccounted hnull
    have hcopied : table.copied = storedValues (some copy) done := hbuilt.copied
    have hcopied' : table'.copied = storedValues (some copy) (done ++ [call]) := hbuilt'.copied
    rw [storedValues_append] at hnull hcopied'
    have hdone : none ∉ storedValues (some copy) done :=
      fun hmem => hnull (List.mem_append_left _ hmem)
    exact (haccounted hdone).put hbuilt.models (hcopied ▸ hdone) call _ (hcopied ▸ hcopied') hfreed
  obtain ⟨table, buckets, hrun, hbuilt, haccounted⟩ :=
    addAll_induction (fun _ => hstart) hstep hne hfirst hnull
  exact ⟨table, buckets, hrun, hbuilt, haccounted hnull⟩

/-- **A value that a lookup returns has not been freed.** -/
theorem Accounted.get_notMem_freed {table : Hashtable8} {buckets : UInt8 → BinaryTree HashEntry}
    (h : Accounted table buckets) (hmodels : table.Models buckets)
    (hnull : none ∉ table.copied) (hdistinct : table.copied.Nodup) {key : List UInt8}
    (hhash : nvipfixHashtable8Hash key < 255) (memory : CallMemory) :
    ∃ value, nvipfixHashtable8Get (some table) (some key) memory = some value ∧
      value ∉ table.freed := by
  refine ⟨_, hmodels.get hhash memory, ?_⟩
  rw [foundValue]
  cases hfind : find (keyDir memory key) (buckets (nvipfixHashtable8Hash key)) with
  | none => exact fun hmem => hnull (h.mem_iff.1 (List.mem_append_left _ hmem))
  | some e =>
      have hheld : e.value ∈ heldValues buckets :=
        List.mem_flatMap.2 ⟨_, mem_bucketHashes.2 hhash,
          List.mem_map_of_mem (mem_of_find hfind).1⟩
      exact fun hmem =>
        (List.disjoint_of_nodup_append (h.nodup_iff.2 hdistinct)) hmem hheld

/-- **Every copy is freed exactly once**, nothing else is, and no lookup after any of the additions
returns a freed value. -/
theorem nvipfixHashtable8Free_exactlyOnce (hcopy : tableCopy calls = some copy)
    (hfree : tableFree calls = true) (hnull : none ∉ storedValues (some copy) calls)
    (hdistinct : (storedValues (some copy) calls).Nodup) :
    (∃ table freedTable, addAll calls none = some (some table) ∧
      nvipfixHashtable8Free (some table) = some (some freedTable) ∧
      freedTable.copied = storedValues (some copy) calls ∧
      (∀ value ∈ freedTable.copied, freedTable.freed.count value = 1) ∧
      ∀ value ∈ freedTable.freed, value ≠ none → value ∈ freedTable.copied) ∧
    ∀ prior, prior <+: calls → ∃ hashtable, addAll prior none = some hashtable ∧
      ∀ key memory, nvipfixHashtable8Hash key < 255 →
        ∃ value, nvipfixHashtable8Get hashtable (some key) memory = some value ∧
          ∀ table ∈ hashtable, value ∉ table.freed := by
  have hfirst := first_functions calls
  rw [hcopy, hfree] at hfirst
  constructor
  · have hne : calls ≠ [] := by
      rintro rfl
      cases hcopy
    obtain ⟨table, buckets, hrun, hbuilt, haccounted⟩ := addAll_accounted hne hfirst hnull
    obtain ⟨nodes', hfreeEq⟩ := nvipfixHashtable8Free_eq hbuilt.models hbuilt.freeValue
    have hcopied : table.copied = storedValues (some copy) calls := hbuilt.copied
    refine ⟨table, _, hrun, hfreeEq, hcopied, ?_, ?_⟩
    · intro value hvalue
      rw [haccounted.count_eq value]
      exact List.count_eq_one_of_mem (hcopied ▸ hdistinct) hvalue
    · intro value hvalue _
      exact haccounted.mem_iff.1 hvalue
  · intro prior hprior
    by_cases hne : prior = []
    · subst hne
      exact ⟨none, rfl, fun _ _ _ => ⟨none, rfl, fun _ h => by cases h⟩⟩
    · have hsub := storedValues_prefix (some copy) hprior
      have hfirst' : ∀ call ∈ prior.head?, call.copyF = some copy ∧ call.freeF = true := by
        obtain ⟨rest, rfl⟩ := hprior
        rwa [List.head?_append_of_ne_nil _ hne] at hfirst
      have hnull' : none ∉ storedValues (some copy) prior := fun hmem => hnull (hsub.subset hmem)
      obtain ⟨table, buckets, hrun, hbuilt, haccounted⟩ := addAll_accounted hne hfirst' hnull'
      have hcopied : table.copied = storedValues (some copy) prior := hbuilt.copied
      refine ⟨some table, hrun, fun key memory hhash => ?_⟩
      obtain ⟨value, hget, hvalue⟩ := haccounted.get_notMem_freed hbuilt.models
        (hcopied ▸ hnull') (hcopied ▸ hsub.sublist.nodup hdistinct) hhash memory
      refine ⟨value, hget, fun t ht => ?_⟩
      cases ht
      exact hvalue

end Additions

/-- A copy at an address of its own for every call. -/
def separateCopy : CopyFunction := fun i _ => some i

theorem nvipfixHashtable8Free_collidingCalls : ∃ table freedTable,
    addAll (collidingCalls (some separateCopy) true) none = some (some table) ∧
      nvipfixHashtable8Free (some table) = some (some freedTable) ∧
      ∀ value ∈ [some 0, some 1, some 2], freedTable.freed.count value = 1 := by
  have hcopy : tableCopy (collidingCalls (some separateCopy) true) = some separateCopy := rfl
  obtain ⟨⟨table, freedTable, hrun, hfree, hcopied, hcount, -⟩, -⟩ :=
    nvipfixHashtable8Free_exactlyOnce hcopy rfl (by decide) (by decide)
  refine ⟨table, freedTable, hrun, hfree, fun value hvalue => hcount value ?_⟩
  rw [hcopied]
  exact hvalue

end NvIpfix
