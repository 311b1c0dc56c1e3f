/-
**The invariant of the hash table.**

A table models a family of trees, one for each hash: the root of a bucket is its embedded node, free
as long as the tree is empty; the nodes of all trees are at different addresses, and those that are
not roots were allocated before.  A lookup searches the tree of its key's hash, an addition inserts
there and relabels the node it finds, and neither sees the other trees.

Main definitions:

* `Hashtable8.Models` — the invariant;
* `Hashtable8.leaf`, `putValue` — the node that an addition may need, the tree it leaves;
* `foundValue` — the value that a search finds;
* `Hashtable8.Built` — what is known of a table after a sequence of additions.

Main results:

* `Hashtable8.Models.getOrAdd_false`, `Hashtable8.Models.getOrAdd_true` — the shared walk;
* `Hashtable8.Models.add` — **an addition puts its value into the tree of its key's hash**;
* `Hashtable8.Models.get` — **a lookup returns what the search finds**;
* `addAll_induction` — the induction over a sequence of additions.
-/

import NvIpfix.HashTree

set_option relaxedAutoImplicit false
set_option autoImplicit false

namespace NvIpfix

open SearchTree

/-! ### The invariant -/

/-- The embedded node of a bucket is free, or the root of its tree. -/
def RootRepresents (nodes : NodeAddress → Option HashNode) (hash : UInt8) :
    BinaryTree HashEntry → Prop
  | .nil => nodes (.embedded hash) = some {}
  | .node e left right =>
      Represents nodes (.node e left right) (some (.embedded hash)) ∧ e.key ≠ []

/-- Only the embedded node and the nodes of the tree are read. -/
theorem RootRepresents.congr {nodes nodes' : NodeAddress → Option HashNode} {hash : UInt8}
    {t : BinaryTree HashEntry} (h : RootRepresents nodes hash t)
    (hroot : nodes' (.embedded hash) = nodes (.embedded hash))
    (hsame : ∀ a ∈ addresses t, nodes' a = nodes a) : RootRepresents nodes' hash t := by
  cases t with
  | nil => exact hroot.trans h
  | node e left right => exact ⟨h.1.congr hsame, h.2⟩

/-- An insertion below a root leaves the root in its place. -/
theorem rootRepresents_insert {nodes : NodeAddress → Option HashNode} {hash : UInt8}
    {dir : HashEntry → Ordering} {new e : HashEntry} {left right : BinaryTree HashEntry}
    (h : Represents nodes (SearchTree.insert dir new (.node e left right))
      (some (.embedded hash))) (hkey : e.key ≠ []) :
    RootRepresents nodes hash (SearchTree.insert dir new (.node e left right)) := by
  cases hdir : dir e <;> simp only [SearchTree.insert, hdir] at h ⊢ <;> exact ⟨h, hkey⟩

/-- Every node of a bucket's tree is in memory under its key and value. -/
theorem RootRepresents.node_mem {nodes : NodeAddress → Option HashNode} {hash : UInt8}
    {t : BinaryTree HashEntry} (h : RootRepresents nodes hash t) {e : HashEntry}
    (he : e ∈ postorder t) : ∃ lt gt, nodes e.address = some ⟨e.key, e.value, lt, gt⟩ := by
  cases t with
  | nil => simp at he
  | node b left right => exact h.1.node_mem he

/-- **The table's nodes are those of the trees.** -/
structure Hashtable8.Models (table : Hashtable8) (buckets : UInt8 → BinaryTree HashEntry) :
    Prop where
  root : ∀ hash, hash < 255 → RootRepresents table.nodes hash (buckets hash)
  nodup : ∀ hash, (addresses (buckets hash)).Nodup
  apart : ∀ hash hash', hash ≠ hash' →
    (addresses (buckets hash)).Disjoint (addresses (buckets hash'))
  known : ∀ hash, ∀ a ∈ addresses (buckets hash),
    a = .embedded hash ∨ ∃ n < table.allocations, a = .allocated n

/-- A table without values models empty trees. -/
theorem Hashtable8.models_zeroed (copyF : Option CopyFunction) (freeF : Bool) :
    (Hashtable8.zeroed copyF freeF).Models fun _ => .nil where
  root hash hhash := by simp [RootRepresents, Hashtable8.zeroed, hhash]
  nodup hash := List.nodup_nil
  apart hash hash' hne := List.disjoint_nil_left _
  known hash a ha := by simp at ha

/-- The node that an addition may need: the root of an empty bucket, or the next allocated one. -/
def Hashtable8.leaf (table : Hashtable8) (key : List UInt8) : BinaryTree HashEntry → HashEntry
  | .nil => { address := .embedded (nvipfixHashtable8Hash key), key, value := none }
  | .node .. => { address := .allocated table.allocations, key, value := none }

namespace Hashtable8.Models

variable {table table' : Hashtable8} {buckets : UInt8 → BinaryTree HashEntry} {hash : UInt8}

/-- The walk from a root has turns enough. -/
theorem numNodes_lt_fuel (h : table.Models buckets) (hash : UInt8) :
    (buckets hash).numNodes < table.fuel := by
  have hsubset : addresses (buckets hash) ⊆
      .embedded hash :: (List.range table.allocations).map .allocated := by
    intro a ha
    rcases h.known hash a ha with rfl | ⟨n, hn, rfl⟩
    · exact List.mem_cons_self
    · exact List.mem_cons_of_mem _ (List.mem_map_of_mem (List.mem_range.2 hn))
  have hlength := (List.subperm_of_subset (h.nodup hash) hsubset).length_le
  rw [length_addresses, List.length_cons, List.length_map, List.length_range] at hlength
  rw [Hashtable8.fuel]
  omega

/-- The roots are where no other bucket is. -/
theorem embedded_notMem (h : table.Models buckets) {hash hash' : UInt8} (hne : hash ≠ hash') :
    .embedded hash ∉ addresses (buckets hash') := by
  intro hmem
  rcases h.known hash' _ hmem with heq | ⟨n, -, heq⟩
  · exact hne (NodeAddress.embedded.inj heq)
  · cases heq

/-- A node still to be allocated is nowhere yet. -/
theorem allocated_notMem (h : table.Models buckets) (hash : UInt8) :
    .allocated table.allocations ∉ addresses (buckets hash) := by
  intro hmem
  rcases h.known hash _ hmem with heq | ⟨n, hn, heq⟩
  · cases heq
  · cases heq
    exact Nat.lt_irrefl _ hn

/-- The node that an addition may need is nowhere yet. -/
theorem leaf_notMem (h : table.Models buckets) (key : List UInt8) :
    (table.leaf key (buckets hash)).address ∉ addresses (buckets hash) := by
  cases ht : buckets hash with
  | nil => simp
  | node e left right =>
      have hnotMem := h.allocated_notMem hash
      rwa [ht] at hnotMem

/-- **A step within one bucket keeps the invariant.** -/
theorem update (h : table.Models buckets) {t : BinaryTree HashEntry}
    (hallocations : table.allocations ≤ table'.allocations)
    (hroot : RootRepresents table'.nodes hash t) (hnodup : (addresses t).Nodup)
    (hknown : ∀ a ∈ addresses t, a ∈ addresses (buckets hash) ∨ a = .embedded hash ∨
      a = .allocated table.allocations ∧ table.allocations < table'.allocations)
    (hsame : ∀ a, a ∉ addresses (buckets hash) → a ≠ .embedded hash →
      a ≠ .allocated table.allocations → table'.nodes a = table.nodes a) :
    table'.Models (Function.update buckets hash t) := by
  have hother : ∀ hash', hash' ≠ hash → ∀ a ∈ addresses (buckets hash'), a ∉ addresses t := by
    intro hash' hne a ha hat
    rcases hknown a hat with hmem | rfl | ⟨rfl, -⟩
    · exact h.apart hash' hash hne ha hmem
    · exact h.embedded_notMem hne.symm ha
    · exact h.allocated_notMem hash' ha
  refine ⟨?_, ?_, ?_, ?_⟩
  · refine (Function.forall_update_iff buckets fun hash' t =>
      hash' < 255 → RootRepresents table'.nodes hash' t).2 ⟨fun _ => hroot, ?_⟩
    intro hash' hne hhash'
    refine (h.root hash' hhash').congr ?_ fun a ha => ?_
    · exact hsame _ (h.embedded_notMem hne) (fun heq => hne (NodeAddress.embedded.inj heq))
        (by simp)
    · refine hsame a (h.apart hash' hash hne ha) ?_ ?_
      · rintro rfl
        exact h.embedded_notMem (Ne.symm hne) ha
      · rintro rfl
        exact h.allocated_notMem hash' ha
  · exact (Function.forall_update_iff buckets fun _ t => (addresses t).Nodup).2
      ⟨hnodup, fun hash' _ => h.nodup hash'⟩
  · intro hash₁ hash₂ hne
    by_cases hne₁ : hash₁ = hash
    · subst hne₁
      rw [Function.update_self, Function.update_of_ne hne.symm]
      exact fun a ha ha' => hother hash₂ hne.symm a ha' ha
    · rw [Function.update_of_ne hne₁]
      by_cases hne₂ : hash₂ = hash
      · subst hne₂
        rw [Function.update_self]
        exact hother hash₁ hne₁
      · rw [Function.update_of_ne hne₂]
        exact h.apart hash₁ hash₂ hne
  · have hmono : ∀ hash', ∀ a ∈ addresses (buckets hash'),
        a = .embedded hash' ∨ ∃ n < table'.allocations, a = .allocated n := by
      intro hash' a ha
      rcases h.known hash' a ha with rfl | ⟨n, hn, rfl⟩
      · exact .inl rfl
      · exact .inr ⟨n, by omega, rfl⟩
    refine (Function.forall_update_iff buckets fun hash' t => ∀ a ∈ addresses t,
      a = .embedded hash' ∨ ∃ n < table'.allocations, a = .allocated n).2
      ⟨fun a ha => ?_, fun hash' _ => hmono hash'⟩
    rcases hknown a ha with hmem | rfl | ⟨rfl, hlt⟩
    · exact hmono hash a hmem
    · exact .inl rfl
    · exact .inr ⟨_, hlt, rfl⟩

/-! ### The shared walk -/

section GetOrAdd

variable {key : List UInt8}

/-- The embedded node of a tree's root, as the walk meets it. -/
theorem root_node (h : table.Models buckets) {e : HashEntry} {left right : BinaryTree HashEntry}
    (hhash : hash < 255) (ht : buckets hash = .node e left right) :
    Represents table.nodes (buckets hash) (some (.embedded hash)) ∧ e.key ≠ [] ∧
      ∃ lt gt, table.nodes (.embedded hash) = some ⟨e.key, e.value, lt, gt⟩ := by
  have hroot := h.root hash hhash
  rw [ht] at hroot
  obtain ⟨haddress, lt, gt, hnode, -⟩ := hroot.1
  rw [← Option.some.inj haddress] at hnode
  exact ⟨ht ▸ hroot.1, hroot.2, lt, gt, hnode⟩

/-- **A lookup finds what the search finds**, and leaves the table as it is. -/
theorem getOrAdd_false (h : table.Models buckets) (hhash : nvipfixHashtable8Hash key < 255)
    (memory : CallMemory) :
    nvipfixHashtable8GetOrAdd table key false memory = some (table,
      (find (keyDir memory key) (buckets (nvipfixHashtable8Hash key))).map HashEntry.address) := by
  generalize hhash' : nvipfixHashtable8Hash key = hash at hhash
  cases ht : buckets hash with
  | nil =>
      have hroot := h.root hash hhash
      rw [ht] at hroot
      have hnode : table.nodes (.embedded hash) = some {} := hroot
      simp [nvipfixHashtable8GetOrAdd, hhash', hnode]
  | node e left right =>
      obtain ⟨hrepresents, hkey, lt, gt, hnode⟩ := h.root_node hhash ht
      have hfuel := h.numNodes_lt_fuel hash
      rw [← ht]
      simp only [nvipfixHashtable8GetOrAdd, hhash', Option.bind_eq_bind, hnode, Option.bind_some,
        ne_eq, hkey, not_false_eq_true, ↓reduceIte, Bool.false_eq_true, and_false]
      cases hfind : find (keyDir memory key) (buckets hash) with
      | none =>
          obtain ⟨place, hwalk, -⟩ := hashWalk_missing hrepresents (h.nodup hash) hfind
            (by simp [ht]) hfuel none
          rw [hwalk]
          rfl
      | some found =>
          obtain ⟨parent, hwalk⟩ := hashWalk_found hrepresents hfind hfuel none
          rw [hwalk]
          rfl

/-- **A node hung from the place of a leaf** is inserted into its tree. -/
theorem hang (h : table.Models buckets) {dir : HashEntry → Ordering} {e : HashEntry}
    {left right : BinaryTree HashEntry} (ht : buckets hash = .node e left right)
    (hfind : find dir (.node e left right) = none)
    (hkey : e.key ≠ []) {memory : CallMemory} (hmalloc : memory.mallocNode = true)
    {place : NodeAddress × NodeLink}
    (hplace : LeafPlace table.nodes key (.node e left right) (some (.embedded hash))
      (fun new => SearchTree.insert dir ⟨new, key, none⟩ (.node e left right)) place) :
    ∃ nodes, hashAddNode table memory key (some place) = some
        ({ table with nodes, allocations := table.allocations + 1 },
          some (.allocated table.allocations)) ∧
      ({ table with nodes, allocations := table.allocations + 1 } : Hashtable8).Models
        (Function.update buckets hash (SearchTree.insert dir
          ⟨.allocated table.allocations, key, none⟩ (.node e left right))) := by
  obtain ⟨haddress, parent, hparent, hhang⟩ := hplace
  have hnodup := h.nodup hash
  have hfresh := h.allocated_notMem hash
  rw [ht] at hnodup hfresh
  have hne : place.1 ≠ .allocated table.allocations := ne_of_mem_of_not_mem haddress hfresh
  have hperm : (addresses (SearchTree.insert dir ⟨.allocated table.allocations, key, none⟩
      (.node e left right))).Perm
        (.allocated table.allocations :: addresses (.node e left right)) :=
    addresses_insert hfind
  refine ⟨Function.update (Function.update table.nodes (.allocated table.allocations)
    (some { key })) place.1 (some (parent.link place.2 (.allocated table.allocations))), ?_, ?_⟩
  · simp only [hashAddNode, hmalloc, ↓reduceIte, Hashtable8.write, Function.update_of_ne hne,
      hparent, Option.bind_eq_bind, Option.bind_some]
  · refine h.update (Nat.le_succ _) (rootRepresents_insert (hhang _ _ ?_ ?_ ?_) hkey) ?_ ?_ ?_
    · exact (Function.update_of_ne hne.symm _ _).trans (Function.update_self _ _ _)
    · exact Function.update_self _ _ _
    · intro a ha hne'
      exact (Function.update_of_ne hne' _ _).trans
        (Function.update_of_ne (ne_of_mem_of_not_mem ha hfresh) _ _)
    · exact hperm.nodup_iff.2 (List.nodup_cons.2 ⟨hfresh, hnodup⟩)
    · intro a ha
      rcases List.mem_cons.1 (hperm.mem_iff.1 ha) with rfl | ha
      · exact .inr (.inr ⟨rfl, Nat.lt_succ_self _⟩)
      · exact .inl (ht ▸ ha)
    · intro a ha _ hnew
      rw [ht] at ha
      exact (Function.update_of_ne (ne_of_mem_of_not_mem haddress ha).symm _ _).trans
        (Function.update_of_ne hnew _ _)

/-- **An addition finds or inserts a node for its key.** -/
theorem getOrAdd_true (h : table.Models buckets) (hkey : key ≠ [])
    (hhash : nvipfixHashtable8Hash key < 255) {memory : CallMemory}
    (hmalloc : memory.mallocNode = true) {t : BinaryTree HashEntry}
    (ht : buckets (nvipfixHashtable8Hash key) = t) :
    ∃ nodes allocations,
      nvipfixHashtable8GetOrAdd table key true memory = some ({ table with nodes, allocations },
        some ((find (keyDir memory key) t).getD (table.leaf key t)).address) ∧
      ({ table with nodes, allocations } : Hashtable8).Models
        (Function.update buckets (nvipfixHashtable8Hash key)
          (SearchTree.insert (keyDir memory key) (table.leaf key t) t)) := by
  generalize hhash' : nvipfixHashtable8Hash key = hash at hhash ht
  cases t with
  | nil =>
      have hroot := h.root hash hhash
      rw [ht] at hroot
      have hnode : table.nodes (.embedded hash) = some {} := hroot
      refine ⟨Function.update table.nodes (.embedded hash) (some { key }), table.allocations,
        ?_, ?_⟩
      · simp [nvipfixHashtable8GetOrAdd, hhash', hnode, hmalloc, Hashtable8.leaf,
          Hashtable8.write]
      refine h.update (Nat.le_refl _) ?_ ?_ ?_ ?_
      · exact ⟨⟨by simp [Hashtable8.leaf, hhash'], none, none,
          by simp [Hashtable8.leaf, hhash'], rfl, rfl⟩, hkey⟩
      · simp [addresses_node]
      · intro a ha
        rw [SearchTree.insert_nil, addresses_node] at ha
        simp_all [Hashtable8.leaf]
      · intro a _ ha _
        exact Function.update_of_ne ha _ _
  | node e left right =>
      obtain ⟨hrepresents, hroot, lt, gt, hnode⟩ := h.root_node hhash ht
      have hfuel := h.numNodes_lt_fuel hash
      simp only [nvipfixHashtable8GetOrAdd, hhash', Option.bind_eq_bind, hnode, Option.bind_some,
        ne_eq, hroot, not_false_eq_true, ↓reduceIte, and_true]
      rw [ht] at hrepresents hfuel
      cases hfind : find (keyDir memory key) (.node e left right) with
      | some found =>
          obtain ⟨parent, hwalk⟩ := hashWalk_found hrepresents hfind hfuel none
          refine ⟨table.nodes, table.allocations, by rw [hwalk]; rfl, ?_⟩
          rwa [insert_of_find hfind, ← ht, Function.update_eq_self]
      | none =>
          obtain ⟨place, hwalk, hplace⟩ := hashWalk_missing hrepresents (ht ▸ h.nodup hash) hfind
            (by simp) hfuel none
          obtain ⟨nodes, hadd, hmodels⟩ := h.hang ht hfind hroot hmalloc hplace
          exact ⟨nodes, table.allocations + 1, by rw [hwalk]; exact hadd, hmodels⟩

end GetOrAdd

/-! ### Values -/

end Hashtable8.Models

namespace Hashtable8

variable {table : Hashtable8}

/-- What an addition stores: the value, or what the next call of `copyValue` makes of it. -/
def storedValue (table : Hashtable8) (value : Option Address) : Option Address :=
  match table.copyValue with
  | some copy => copy table.copied.length value
  | none => value

section SetValue

variable (table) (address : NodeAddress) (node : HashNode) (value : Option Address)

/-- The memory after a value is written. -/
theorem setValue_eq : table.setValue address node value = { table with
    nodes := Function.update table.nodes address
      (some { node with value := table.storedValue value })
    copied := table.copied ++ if table.copyValue.isSome then [table.storedValue value] else []
    freed := table.freed ++
      if node.value ≠ none ∧ table.freeValue then [node.value] else [] } := by
  obtain ⟨nodes, allocations, freeValue, copyValue, copied, freed⟩ := table
  by_cases hvalue : node.value = none <;> cases freeValue <;> cases copyValue <;>
    simp [setValue, releaseValue, storedValue, write, hvalue]

end SetValue

/-- **A value written keeps the invariant.** -/
theorem Models.setValue {buckets : UInt8 → BinaryTree HashEntry} (h : table.Models buckets)
    {hash : UInt8} (hhash : hash < 255) {e : HashEntry} {node : HashNode}
    (he : e ∈ postorder (buckets hash)) (hnode : table.nodes e.address = some node)
    (value : Option Address) :
    (table.setValue e.address node value).Models (Function.update buckets hash
      ((buckets hash).map (HashEntry.setValue e.address (table.storedValue value)))) := by
  rw [setValue_eq]
  have haddress : e.address ∈ addresses (buckets hash) := List.mem_map_of_mem he
  refine h.update (Nat.le_refl _) ?_ ?_ ?_ ?_
  · have hroot := h.root hash hhash
    cases ht : buckets hash with
    | nil => simp [ht] at he
    | node b left right =>
        rw [ht] at hroot
        have hset := hroot.1.setValue hnode (table.storedValue value)
        refine ⟨hset, ?_⟩
        rw [HashEntry.setValue_key]
        exact hroot.2
  · rw [addresses_setValue]
    exact h.nodup hash
  · intro a ha
    rw [addresses_setValue] at ha
    exact .inl ha
  · intro a ha _ _
    exact Function.update_of_ne (ne_of_mem_of_not_mem haddress ha).symm _ _

end Hashtable8

/-- The value at the node that a search finds. -/
def foundValue (dir : HashEntry → Ordering) (t : BinaryTree HashEntry) : Option Address :=
  (find dir t).bind HashEntry.value

/-- The tree with a value at the node that a search finds, or at a leaf inserted for it. -/
def putValue (dir : HashEntry → Ordering) (leaf : HashEntry) (value : Option Address)
    (t : BinaryTree HashEntry) : BinaryTree HashEntry :=
  (SearchTree.insert dir leaf t).map
    (HashEntry.setValue ((find dir t).getD leaf).address value)

namespace Hashtable8

variable {table : Hashtable8} {buckets : UInt8 → BinaryTree HashEntry} {key : List UInt8}

theorem keyDir_leaf (table : Hashtable8) (key : List UInt8) (memory : CallMemory)
    (t : BinaryTree HashEntry) : keyDir memory key (table.leaf key t) = .eq := by
  cases t <;> simp [keyDir, leaf]

@[simp] theorem leaf_value (t : BinaryTree HashEntry) : (table.leaf key t).value = none := by
  cases t <;> rfl

@[simp] theorem leaf_key (t : BinaryTree HashEntry) : (table.leaf key t).key = key := by
  cases t <;> rfl

/-- **An addition puts its value into the tree of its key's hash** and frees the one it
replaces. -/
theorem Models.add (h : table.Models buckets) (hkey : key ≠ [])
    (hhash : nvipfixHashtable8Hash key < 255) {hashtable : Option Hashtable8}
    {copyF : Option CopyFunction} {freeF : Bool}
    {memory : CallMemory} (htable : tableOrNew hashtable copyF freeF memory = some table)
    (hmalloc : memory.mallocNode = true)
    {value : Option Address} (hstored : table.storedValue value ≠ none)
    {t : BinaryTree HashEntry} (ht : buckets (nvipfixHashtable8Hash key) = t) :
    ∃ table', nvipfixHashtable8Add hashtable (some key) value copyF freeF memory =
        some ⟨some table', true⟩ ∧
      table'.Models (Function.update buckets (nvipfixHashtable8Hash key)
        (putValue (keyDir memory key) (table.leaf key t) (table.storedValue value) t)) ∧
      table'.copyValue = table.copyValue ∧ table'.freeValue = table.freeValue ∧
      table'.copied = table.copied ++
        (if table.copyValue.isSome then [table.storedValue value] else []) ∧
      table'.freed = table.freed ++
        (if foundValue (keyDir memory key) t ≠ none ∧ table.freeValue then
          [foundValue (keyDir memory key) t] else []) := by
  obtain ⟨nodes, allocations, hgetOrAdd, hmodels⟩ := h.getOrAdd_true hkey hhash hmalloc ht
  generalize hnew : ({ table with nodes, allocations } : Hashtable8) = table₁ at hgetOrAdd hmodels
  have hstored₁ : table₁.storedValue value = table.storedValue value := by
    subst hnew
    rfl
  have hfound : ((find (keyDir memory key) t).getD (table.leaf key t)).value =
      foundValue (keyDir memory key) t := by
    cases hfind : find (keyDir memory key) t <;> simp [foundValue, hfind]
  have hentry := (mem_of_find (find_insert_self (t := t) (keyDir_leaf table key memory t))).1
  rw [putValue]
  generalize (find (keyDir memory key) t).getD (table.leaf key t) = e at hgetOrAdd hfound hentry ⊢
  have hroot := hmodels.root _ hhash
  rw [Function.update_self] at hroot
  obtain ⟨lt, gt, hnode⟩ := hroot.node_mem hentry
  have hset := hmodels.setValue hhash (by rwa [Function.update_self]) hnode value
  rw [Function.update_self, Function.update_idem, hstored₁] at hset
  refine ⟨table₁.setValue e.address ⟨e.key, e.value, lt, gt⟩ value, ?_, hset, ?_⟩
  · simp only [nvipfixHashtable8Add, htable, Option.bind_eq_bind, hgetOrAdd, Option.bind_some,
      hnode, setValue_eq, Function.update_self, hstored₁, hstored, and_false, ↓reduceIte]
  · rw [setValue_eq, hstored₁, hfound]
    subst hnew
    exact ⟨rfl, rfl, rfl, rfl⟩

/-- **A lookup returns what the search finds.** -/
theorem Models.get (h : table.Models buckets) (hhash : nvipfixHashtable8Hash key < 255)
    (memory : CallMemory) :
    nvipfixHashtable8Get (some table) (some key) memory =
      some (foundValue (keyDir memory key) (buckets (nvipfixHashtable8Hash key))) := by
  simp only [nvipfixHashtable8Get, h.getOrAdd_false hhash, Option.bind_eq_bind, Option.bind_some]
  cases hfind : find (keyDir memory key) (buckets (nvipfixHashtable8Hash key)) with
  | none => simp [foundValue, hfind]
  | some e =>
      obtain ⟨lt, gt, hnode⟩ := (h.root _ hhash).node_mem (mem_of_find hfind).1
      simp [foundValue, hfind, hnode]

end Hashtable8

/-! ### Sequences of additions -/

/-- What the `i`-th addition to a table stores. -/
def AddCall.stored (copyF : Option CopyFunction) (i : ℕ) (call : AddCall) : Option Address :=
  match copyF with
  | some copy => copy i (some call.value)
  | none => some call.value

/-- What the additions to a table store, in order. -/
def storedValues (copyF : Option CopyFunction) (calls : List AddCall) : List (Option Address) :=
  calls.zipIdx.map fun p => p.1.stored copyF p.2

/-- The memory that a call meets. -/
def AddCall.memory (call : AddCall) : CallMemory := { beyond := call.beyond }

/-- The tree that a call looks into. -/
def AddCall.bucket (call : AddCall) (buckets : UInt8 → BinaryTree HashEntry) :
    BinaryTree HashEntry :=
  buckets (nvipfixHashtable8Hash call.key.octets)

/-- The directions of a call's walk. -/
def AddCall.dir (call : AddCall) : HashEntry → Ordering := keyDir call.memory call.key.octets

/-- What a call passes to `freeValue`. -/
def AddCall.released (call : AddCall) (freeF : Bool)
    (buckets : UInt8 → BinaryTree HashEntry) : List (Option Address) :=
  if foundValue call.dir (call.bucket buckets) ≠ none ∧ freeF then
    [foundValue call.dir (call.bucket buckets)]
  else []

/-- The trees after a call that stores `value`. -/
def AddCall.put (call : AddCall) (table : Hashtable8) (value : Option Address)
    (buckets : UInt8 → BinaryTree HashEntry) : UInt8 → BinaryTree HashEntry :=
  Function.update buckets (nvipfixHashtable8Hash call.key.octets)
    (putValue call.dir (table.leaf call.key.octets (call.bucket buckets)) value
      (call.bucket buckets))

/-- What is known of a table after some additions. -/
structure Hashtable8.Built (copyF : Option CopyFunction) (freeF : Bool) (calls : List AddCall)
    (table : Hashtable8) (buckets : UInt8 → BinaryTree HashEntry) : Prop where
  models : table.Models buckets
  copyValue : table.copyValue = copyF
  freeValue : table.freeValue = freeF
  copied : table.copied = if copyF.isSome then storedValues copyF calls else []

@[simp] theorem storedValues_append (copyF : Option CopyFunction) (calls : List AddCall)
    (call : AddCall) :
    storedValues copyF (calls ++ [call]) =
      storedValues copyF calls ++ [call.stored copyF calls.length] := by
  simp [storedValues, List.zipIdx_append]

@[simp] theorem length_storedValues (copyF : Option CopyFunction) (calls : List AddCall) :
    (storedValues copyF calls).length = calls.length := by
  simp [storedValues]

/-- The first call gives the table its functions. -/
theorem first_functions (calls : List AddCall) :
    ∀ call ∈ calls.head?, call.copyF = tableCopy calls ∧ call.freeF = tableFree calls := by
  intro call hcall
  simp only [Option.mem_def] at hcall
  simp [tableCopy, tableFree, hcall]

section Additions

variable {copyF : Option CopyFunction} {freeF : Bool} {calls : List AddCall} {call : AddCall}
  {table : Hashtable8} {buckets : UInt8 → BinaryTree HashEntry}

/-- A table stores what the number of additions before says. -/
theorem Hashtable8.Built.storedValue (h : table.Built copyF freeF calls buckets) :
    table.storedValue (some call.value) = call.stored copyF calls.length := by
  cases copyF with
  | none => simp [Hashtable8.storedValue, AddCall.stored, h.copyValue]
  | some copy => simp [Hashtable8.storedValue, AddCall.stored, h.copyValue, h.copied]

/-- **One more addition.** -/
theorem Hashtable8.Built.add (h : table.Built copyF freeF calls buckets)
    {hashtable : Option Hashtable8}
    (htable : tableOrNew hashtable call.copyF call.freeF call.memory = some table)
    (hstored : call.stored copyF calls.length ≠ none) :
    ∃ table', call.run hashtable = some ⟨some table', true⟩ ∧
      table'.Built copyF freeF (calls ++ [call])
        (call.put table (call.stored copyF calls.length) buckets) ∧
      table'.freed = table.freed ++ call.released freeF buckets := by
  rw [← h.storedValue] at hstored ⊢
  obtain ⟨table', hrun, hmodels, hcopy, hfree, hcopied, hfreed⟩ :=
    h.models.add call.key.ne_nil call.key.hash_lt htable rfl hstored rfl
  refine ⟨table', hrun, ⟨hmodels, hcopy.trans h.copyValue, hfree.trans h.freeValue, ?_⟩, ?_⟩
  · rw [hcopied, h.copied, h.copyValue, h.storedValue]
    cases copyF <;> simp
  · rw [hfreed, h.freeValue]
    rfl

theorem addAll_append (calls : List AddCall) (call : AddCall) (hashtable : Option Hashtable8) :
    addAll (calls ++ [call]) hashtable = (addAll calls hashtable).bind fun hashtable =>
      (call.run hashtable).bind fun result =>
        if result.returned then some result.table else none := by
  simp [addAll, List.foldlM_append]

theorem built_zeroed (copyF : Option CopyFunction) (freeF : Bool) :
    (Hashtable8.zeroed copyF freeF).Built copyF freeF [] fun _ => .nil where
  models := Hashtable8.models_zeroed copyF freeF
  copyValue := rfl
  freeValue := rfl
  copied := by cases copyF <;> rfl

/-- **The induction over a sequence of additions** that starts without a table. -/
theorem addAll_induction
    {P : List AddCall → Hashtable8 → (UInt8 → BinaryTree HashEntry) → Prop}
    (hstart : P [] (Hashtable8.zeroed copyF freeF) fun _ => .nil)
    (hstep : ∀ calls call table table' buckets, table.Built copyF freeF calls buckets →
      table'.Built copyF freeF (calls ++ [call])
        (call.put table (call.stored copyF calls.length) buckets) →
      table'.freed = table.freed ++ call.released freeF buckets → P calls table buckets →
      P (calls ++ [call]) table' (call.put table (call.stored copyF calls.length) buckets))
    {calls : List AddCall} (hne : calls ≠ [])
    (hfirst : ∀ call ∈ calls.head?, call.copyF = copyF ∧ call.freeF = freeF)
    (hstored : none ∉ storedValues copyF calls) :
    ∃ table buckets, addAll calls none = some (some table) ∧
      table.Built copyF freeF calls buckets ∧ P calls table buckets := by
  induction calls using List.reverseRecOn with
  | nil => exact absurd rfl hne
  | append_singleton calls call ih =>
      rw [storedValues_append, List.mem_append, not_or, List.mem_singleton] at hstored
      by_cases hcalls : calls = []
      · subst hcalls
        obtain ⟨hcopy, hfree⟩ := hfirst call rfl
        have htable : tableOrNew none call.copyF call.freeF call.memory =
            some (Hashtable8.zeroed copyF freeF) := by
          rw [hcopy, hfree]
          rfl
        have hbuilt := built_zeroed copyF freeF
        obtain ⟨table', hcall, hbuilt', hfreed⟩ := hbuilt.add htable (Ne.symm hstored.2)
        refine ⟨table', _, ?_, hbuilt', hstep _ _ _ _ _ hbuilt hbuilt' hfreed hstart⟩
        simp [addAll, hcall]
      · rw [List.head?_append_of_ne_nil _ hcalls] at hfirst
        obtain ⟨table, buckets, hrun, hbuilt, hP⟩ := ih hcalls hfirst hstored.1
        have htable : tableOrNew (some table) call.copyF call.freeF call.memory = some table := rfl
        obtain ⟨table', hcall, hbuilt', hfreed⟩ := hbuilt.add htable (Ne.symm hstored.2)
        refine ⟨table', _, ?_, hbuilt', hstep _ _ _ _ _ hbuilt hbuilt' hfreed hP⟩
        simp [addAll_append, hrun, hcall]

end Additions

end NvIpfix
