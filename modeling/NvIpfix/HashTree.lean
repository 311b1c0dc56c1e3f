/-
**The buckets of the hash table as trees.**

The nodes of a bucket hang together by pointers; what they represent is a binary tree whose nodes
carry their address, key and value.  The walk of `nvipfix_hashtable8_get_or_add` is a search in that
tree (`NvIpfix/SearchTree.lean`), hanging an allocated node from the pointer it came through is an
insertion, writing a value relabels one node, and freeing a bucket goes through the tree in
postorder.  Each of the four needs the addresses of the tree to be different from one another, and
says which memory it leaves alone.

Main definitions:

* `HashEntry`, `Represents` — the node of a tree, a pointer to a tree in memory;
* `keyDir`, `LeafPlace` — the directions of the walk for a key, a pointer to hang a leaf from.

Main results:

* `Represents.congr` — only the nodes of the tree are read;
* `hashWalk_found`, `hashWalk_missing` — **the walk is a search, and it ends where the leaf goes**;
* `Represents.setValue` — a value written is a node relabelled;
* `nvipfixHashtable8FreeNode_eq` — **a freed bucket gives up its values in postorder**.
-/

import NvIpfix.HashTable
import NvIpfix.SearchTree

set_option relaxedAutoImplicit false
set_option autoImplicit false

namespace NvIpfix

open SearchTree

/-! ### Trees in memory -/

/-- A node of a bucket's tree. -/
structure HashEntry where
  address : NodeAddress
  key : List UInt8
  value : Option Address
deriving DecidableEq, Repr

/-- The addresses of the nodes of a tree. -/
def addresses (t : BinaryTree HashEntry) : List NodeAddress :=
  (postorder t).map HashEntry.address

/-- The pointer leads to the tree. -/
def Represents (nodes : NodeAddress → Option HashNode) :
    BinaryTree HashEntry → Option NodeAddress → Prop
  | .nil, p => p = none
  | .node e left right, p => p = some e.address ∧ ∃ lt gt,
      nodes e.address = some { key := e.key, value := e.value, lt, gt } ∧
        Represents nodes left lt ∧ Represents nodes right gt

@[simp] theorem addresses_nil : addresses .nil = [] := rfl

theorem addresses_node (e : HashEntry) (left right : BinaryTree HashEntry) :
    addresses (.node e left right) = addresses left ++ addresses right ++ [e.address] := by
  simp [addresses]

theorem length_addresses (t : BinaryTree HashEntry) : (addresses t).length = t.numNodes := by
  rw [addresses, List.length_map, length_postorder]

/-- An insertion adds the address of its node. -/
theorem addresses_insert {dir : HashEntry → Ordering} {new : HashEntry}
    {t : BinaryTree HashEntry} (h : find dir t = none) :
    (addresses (SearchTree.insert dir new t)).Perm (new.address :: addresses t) :=
  (postorder_insert h).map HashEntry.address

/-- What different addresses mean at a node. -/
theorem nodup_addresses_node {e : HashEntry} {left right : BinaryTree HashEntry} :
    (addresses (.node e left right)).Nodup ↔
      (addresses left).Nodup ∧ (addresses right).Nodup ∧
        e.address ∉ addresses left ∧ e.address ∉ addresses right ∧
          (addresses left).Disjoint (addresses right) := by
  rw [addresses_node, List.nodup_append', List.nodup_append', List.disjoint_append_left]
  simp only [List.nodup_singleton, List.disjoint_singleton]
  tauto

section Memory

variable {nodes nodes' : NodeAddress → Option HashNode} {t : BinaryTree HashEntry}
  {p : Option NodeAddress}

/-- **Only the nodes of the tree are read.** -/
theorem Represents.congr (h : Represents nodes t p)
    (hsame : ∀ a ∈ addresses t, nodes' a = nodes a) : Represents nodes' t p := by
  induction t generalizing p with
  | nil => exact h
  | node e left right ihl ihr =>
      obtain ⟨hp, lt, gt, hnode, hl, hr⟩ := h
      simp only [addresses_node, List.mem_append, List.mem_singleton] at hsame
      refine ⟨hp, lt, gt, ?_, ihl hl ?_, ihr hr ?_⟩
      · rw [hsame _ (.inr rfl), hnode]
      · intro a ha
        exact hsame a (.inl (.inl ha))
      · intro a ha
        exact hsame a (.inl (.inr ha))

/-- Every node of a represented tree is in memory under its key and value. -/
theorem Represents.node_mem (h : Represents nodes t p) {e : HashEntry} (he : e ∈ postorder t) :
    ∃ lt gt, nodes e.address = some { key := e.key, value := e.value, lt, gt } := by
  induction t generalizing p with
  | nil => simp at he
  | node b left right ihl ihr =>
      obtain ⟨-, lt, gt, hnode, hl, hr⟩ := h
      simp only [postorder_node, List.mem_append, List.mem_singleton] at he
      rcases he with (he | he) | rfl
      · exact ihl hl he
      · exact ihr hr he
      · exact ⟨lt, gt, hnode⟩

/-- The node with a new value, if it is the one at the address. -/
def HashEntry.setValue (address : NodeAddress) (value : Option Address) (e : HashEntry) :
    HashEntry :=
  if e.address = address then { e with value } else e

@[simp] theorem HashEntry.setValue_address (address : NodeAddress) (value : Option Address)
    (e : HashEntry) : (e.setValue address value).address = e.address := by
  unfold setValue
  split <;> rfl

@[simp] theorem HashEntry.setValue_key (address : NodeAddress) (value : Option Address)
    (e : HashEntry) : (e.setValue address value).key = e.key := by
  unfold setValue
  split <;> rfl

theorem addresses_setValue (address : NodeAddress) (value : Option Address)
    (t : BinaryTree HashEntry) :
    addresses (t.map (HashEntry.setValue address value)) = addresses t := by
  simp [addresses, postorder_map]

/-- **A value written is a node relabelled.** -/
theorem Represents.setValue (h : Represents nodes t p) {address : NodeAddress} {node : HashNode}
    (hnode : nodes address = some node) (value : Option Address) :
    Represents (Function.update nodes address (some { node with value }))
      (t.map (HashEntry.setValue address value)) p := by
  induction t generalizing p with
  | nil => exact h
  | node e left right ihl ihr =>
      obtain ⟨hp, lt, gt, he, hl, hr⟩ := h
      refine ⟨by rw [hp, HashEntry.setValue_address], lt, gt, ?_, ihl hl, ihr hr⟩
      rw [HashEntry.setValue_address, HashEntry.setValue_key]
      by_cases haddress : e.address = address
      · obtain rfl : node = _ := Option.some.inj ((haddress ▸ hnode).symm.trans he)
        simp [HashEntry.setValue, haddress]
      · simp [HashEntry.setValue, haddress, he]

end Memory

/-! ### The walk -/

/-- A key is its own octets, whatever stands behind it. -/
theorem keyOctets_self (key : List UInt8) (beyond : ℕ → UInt8) :
    keyOctets key beyond key.length = key := by
  refine List.ext_getElem (by simp [keyOctets]) fun i hi _ => ?_
  have hlt : i < key.length := by simpa [keyOctets] using hi
  simp [keyOctets, hlt]

/-- A key compares equal to itself. -/
@[simp] theorem keyCompare_self (beyond : ℕ → UInt8) (key : List UInt8) :
    keyCompare beyond key key = .eq := by
  have hcmp : keyLenDifference key.length key.length = 0 := by
    rw [keyLenDifference, UInt64.sub_self]
    rfl
  rw [keyCompare, hcmp, keyOctets_self]
  exact Std.ReflOrd.compare_self

/-- The directions of the walk for a key. -/
def keyDir (memory : CallMemory) (key : List UInt8) (e : HashEntry) : Ordering :=
  keyCompare (memory.beyond e.address) key e.key

@[simp] theorem keyDir_setValue (memory : CallMemory) (key : List UInt8) (address : NodeAddress)
    (value : Option Address) (e : HashEntry) :
    keyDir memory key (e.setValue address value) = keyDir memory key e := by
  simp [keyDir]

section Walk

variable {table : Hashtable8} {memory : CallMemory} {key : List UInt8}
  {t : BinaryTree HashEntry} {p : Option NodeAddress} {fuel : ℕ}

/-- **A search that ends at a node is a walk that stops there.** -/
theorem hashWalk_found {e : HashEntry} (h : Represents table.nodes t p)
    (hfind : find (keyDir memory key) t = some e) (hfuel : t.numNodes < fuel)
    (parent : Option (NodeAddress × NodeLink)) :
    ∃ parent', hashWalk table memory key fuel p parent = some (some e.address, parent') := by
  induction t generalizing p fuel parent with
  | nil => simp at hfind
  | node b left right ihl ihr =>
      obtain ⟨rfl, lt, gt, hnode, hl, hr⟩ := h
      obtain ⟨fuel, rfl⟩ := Nat.exists_eq_succ_of_ne_zero (by omega : fuel ≠ 0)
      rw [BinaryTree.numNodes] at hfuel
      simp only [hashWalk, hnode, Option.bind_eq_bind, Option.bind_some]
      change find _ _ = some e at hfind
      cases hb : keyDir memory key b with
      | lt =>
          simp only [find, hb] at hfind
          rw [keyDir] at hb
          simpa only [hb] using ihl hl hfind (by omega) _
      | gt =>
          simp only [find, hb] at hfind
          rw [keyDir] at hb
          simpa only [hb] using ihr hr hfind (by omega) _
      | eq =>
          simp only [find, hb, Option.some.injEq] at hfind
          rw [keyDir] at hb
          subst hfind
          exact ⟨parent, by simp only [hb]⟩

/-- A pointer to hang a leaf from: with a new node there, the memory represents another tree. -/
def LeafPlace (nodes : NodeAddress → Option HashNode) (key : List UInt8)
    (t : BinaryTree HashEntry) (p : Option NodeAddress)
    (t' : NodeAddress → BinaryTree HashEntry) (place : NodeAddress × NodeLink) : Prop :=
  place.1 ∈ addresses t ∧ ∃ node, nodes place.1 = some node ∧
    ∀ new nodes', nodes' new = some { key } → nodes' place.1 = some (node.link place.2 new) →
      (∀ a ∈ addresses t, a ≠ place.1 → nodes' a = nodes a) → Represents nodes' (t' new) p

section LeafPlace

variable {nodes : NodeAddress → Option HashNode} {e : HashEntry}
  {left right : BinaryTree HashEntry} {lt gt : Option NodeAddress}
  {t' : NodeAddress → BinaryTree HashEntry} {place : NodeAddress × NodeLink}

theorem mem_addresses_node {a : NodeAddress} : a ∈ addresses (.node e left right) ↔
    a ∈ addresses left ∨ a ∈ addresses right ∨ a = e.address := by
  simp only [addresses_node, List.mem_append, List.mem_singleton, or_assoc]

/-- The pointer of a node without a left subtree. -/
theorem leafPlace_lt (hnodup : (addresses (.node e .nil right)).Nodup)
    (hnode : nodes e.address = some ⟨e.key, e.value, none, gt⟩) (hr : Represents nodes right gt) :
    LeafPlace nodes key (.node e .nil right) (some e.address)
      (fun new => .node e (.node ⟨new, key, none⟩ .nil .nil) right) (e.address, .lt) := by
  obtain ⟨-, -, -, her, -⟩ := nodup_addresses_node.1 hnodup
  refine ⟨mem_addresses_node.2 (.inr (.inr rfl)), _, hnode, ?_⟩
  intro new nodes' hnew hlink hsame
  refine ⟨rfl, some new, gt, hlink, ⟨rfl, none, none, hnew, rfl, rfl⟩, hr.congr ?_⟩
  intro a ha
  exact hsame a (mem_addresses_node.2 (.inr (.inl ha))) (ne_of_mem_of_not_mem ha her)

/-- The pointer of a node without a right subtree. -/
theorem leafPlace_gt (hnodup : (addresses (.node e left .nil)).Nodup)
    (hnode : nodes e.address = some ⟨e.key, e.value, lt, none⟩) (hl : Represents nodes left lt) :
    LeafPlace nodes key (.node e left .nil) (some e.address)
      (fun new => .node e left (.node ⟨new, key, none⟩ .nil .nil)) (e.address, .gt) := by
  obtain ⟨-, -, hel, -, -⟩ := nodup_addresses_node.1 hnodup
  refine ⟨mem_addresses_node.2 (.inr (.inr rfl)), _, hnode, ?_⟩
  intro new nodes' hnew hlink hsame
  refine ⟨rfl, lt, some new, hlink, hl.congr ?_, ⟨rfl, none, none, hnew, rfl, rfl⟩⟩
  intro a ha
  exact hsame a (mem_addresses_node.2 (.inl ha)) (ne_of_mem_of_not_mem ha hel)

/-- A pointer within the left subtree. -/
theorem LeafPlace.inLeft (h : LeafPlace nodes key left lt t' place)
    (hnodup : (addresses (.node e left right)).Nodup)
    (hnode : nodes e.address = some ⟨e.key, e.value, lt, gt⟩) (hr : Represents nodes right gt) :
    LeafPlace nodes key (.node e left right) (some e.address)
      (fun new => .node e (t' new) right) place := by
  obtain ⟨-, -, hel, -, hdisjoint⟩ := nodup_addresses_node.1 hnodup
  obtain ⟨hplace, node, hnode', hhang⟩ := h
  refine ⟨mem_addresses_node.2 (.inl hplace), node, hnode', ?_⟩
  intro new nodes' hnew hlink hsame
  refine ⟨rfl, lt, gt, ?_, hhang new nodes' hnew hlink ?_, hr.congr ?_⟩
  · rw [hsame _ (mem_addresses_node.2 (.inr (.inr rfl)))
      (ne_of_mem_of_not_mem hplace hel).symm, hnode]
  · intro a ha hne
    exact hsame a (mem_addresses_node.2 (.inl ha)) hne
  · intro a ha
    exact hsame a (mem_addresses_node.2 (.inr (.inl ha)))
      (ne_of_mem_of_not_mem ha (hdisjoint hplace))

/-- A pointer within the right subtree. -/
theorem LeafPlace.inRight (h : LeafPlace nodes key right gt t' place)
    (hnodup : (addresses (.node e left right)).Nodup)
    (hnode : nodes e.address = some ⟨e.key, e.value, lt, gt⟩) (hl : Represents nodes left lt) :
    LeafPlace nodes key (.node e left right) (some e.address)
      (fun new => .node e left (t' new)) place := by
  obtain ⟨-, -, -, her, hdisjoint⟩ := nodup_addresses_node.1 hnodup
  obtain ⟨hplace, node, hnode', hhang⟩ := h
  refine ⟨mem_addresses_node.2 (.inr (.inl hplace)), node, hnode', ?_⟩
  intro new nodes' hnew hlink hsame
  refine ⟨rfl, lt, gt, ?_, hl.congr ?_, hhang new nodes' hnew hlink ?_⟩
  · rw [hsame _ (mem_addresses_node.2 (.inr (.inr rfl)))
      (ne_of_mem_of_not_mem hplace her).symm, hnode]
  · intro a ha
    exact hsame a (mem_addresses_node.2 (.inl ha))
      (ne_of_mem_of_not_mem hplace (hdisjoint ha)).symm
  · intro a ha hne
    exact hsame a (mem_addresses_node.2 (.inr (.inl ha))) hne

end LeafPlace

/-- **A search that falls off the tree is a walk to the pointer that a new leaf hangs from.** -/
theorem hashWalk_missing (h : Represents table.nodes t p) (hnodup : (addresses t).Nodup)
    (hfind : find (keyDir memory key) t = none) (hne : t ≠ .nil) (hfuel : t.numNodes < fuel)
    (parent : Option (NodeAddress × NodeLink)) :
    ∃ place, hashWalk table memory key fuel p parent = some (none, some place) ∧
      LeafPlace table.nodes key t p
        (fun new => SearchTree.insert (keyDir memory key) ⟨new, key, none⟩ t) place := by
  induction t generalizing p fuel parent with
  | nil => exact absurd rfl hne
  | node b left right ihl ihr =>
      obtain ⟨rfl, lt, gt, hnode, hl, hr⟩ := h
      obtain ⟨hnodupl, hnodupr, -⟩ := nodup_addresses_node.1 hnodup
      obtain ⟨fuel, rfl⟩ := Nat.exists_eq_succ_of_ne_zero (by omega : fuel ≠ 0)
      rw [BinaryTree.numNodes] at hfuel
      have hfuell : left.numNodes < fuel := by omega
      have hfuelr : right.numNodes < fuel := by omega
      simp only [hashWalk, hnode, Option.bind_eq_bind, Option.bind_some]
      cases hb : keyDir memory key b with
      | lt =>
          have hcompare : keyCompare (memory.beyond b.address) key b.key = .lt := hb
          simp only [find, hb] at hfind
          simp only [hcompare, SearchTree.insert, hb]
          by_cases hleft : left = .nil
          · subst hleft
            obtain rfl : lt = none := hl
            obtain ⟨fuel, rfl⟩ := Nat.exists_eq_succ_of_ne_zero (by omega : fuel ≠ 0)
            exact ⟨_, rfl, leafPlace_lt hnodup hnode hr⟩
          · obtain ⟨place, hwalk, hplace⟩ := ihl hl hnodupl hfind hleft hfuell _
            exact ⟨place, hwalk, hplace.inLeft hnodup hnode hr⟩
      | gt =>
          have hcompare : keyCompare (memory.beyond b.address) key b.key = .gt := hb
          simp only [find, hb] at hfind
          simp only [hcompare, SearchTree.insert, hb]
          by_cases hright : right = .nil
          · subst hright
            obtain rfl : gt = none := hr
            obtain ⟨fuel, rfl⟩ := Nat.exists_eq_succ_of_ne_zero (by omega : fuel ≠ 0)
            exact ⟨_, rfl, leafPlace_gt hnodup hnode hl⟩
          · obtain ⟨place, hwalk, hplace⟩ := ihr hr hnodupr hfind hright hfuelr _
            exact ⟨place, hwalk, hplace.inRight hnodup hnode hl⟩
      | eq => simp [find, hb] at hfind

end Walk

/-! ### Freeing a bucket -/

/-- **A freed bucket gives up its values in postorder.** -/
theorem nvipfixHashtable8FreeNode_eq {table : Hashtable8} {t : BinaryTree HashEntry}
    {p : Option NodeAddress} {fuel : ℕ} (hfree : table.freeValue = true)
    (h : Represents table.nodes t p) (hnodup : (addresses t).Nodup) (hfuel : t.numNodes < fuel)
    (isRoot : Bool) :
    ∃ nodes', nvipfixHashtable8FreeNode fuel table p isRoot = some { table with
        nodes := nodes'
        freed := table.freed ++ (postorder t).map HashEntry.value } ∧
      ∀ a, a ∉ addresses t → nodes' a = table.nodes a := by
  induction t generalizing p fuel table isRoot with
  | nil =>
      obtain ⟨fuel, rfl⟩ := Nat.exists_eq_succ_of_ne_zero (by omega : fuel ≠ 0)
      obtain rfl : p = none := h
      exact ⟨table.nodes, by simp [nvipfixHashtable8FreeNode], fun _ _ => rfl⟩
  | node e left right ihl ihr =>
      obtain ⟨rfl, lt, gt, hnode, hl, hr⟩ := h
      obtain ⟨hnodupl, hnodupr, hel, her, hdisjoint⟩ := nodup_addresses_node.1 hnodup
      obtain ⟨fuel, rfl⟩ := Nat.exists_eq_succ_of_ne_zero (by omega : fuel ≠ 0)
      rw [BinaryTree.numNodes] at hfuel
      have hfuell : left.numNodes < fuel := by omega
      have hfuelr : right.numNodes < fuel := by omega
      obtain ⟨nodesl, hfreel, hsamel⟩ := ihl hfree hl hnodupl hfuell false
      have hr' : Represents nodesl right gt :=
        hr.congr fun a ha => hsamel a fun ha' => hdisjoint ha' ha
      obtain ⟨nodesr, hfreer, hsamer⟩ := @ihr { table with
        nodes := nodesl
        freed := table.freed ++ (postorder left).map HashEntry.value } gt fuel hfree hr' hnodupr
        hfuelr false
      have hnodel : nodesl e.address = _ := (hsamel _ hel).trans hnode
      have hnoder : nodesr e.address = _ := (hsamer _ her).trans hnodel
      have hsame : ∀ a, a ∉ addresses (.node e left right) →
          nodesr a = table.nodes a ∧ a ≠ e.address := by
        intro a ha
        simp only [addresses_node, List.mem_append, List.mem_singleton, not_or] at ha
        exact ⟨(hsamer a ha.1.2).trans (hsamel a ha.1.1), ha.2⟩
      simp only [nvipfixHashtable8FreeNode, Option.bind_eq_bind, hnode, Option.bind_some, hfreel,
        hnodel, hfreer, hnoder]
      simp only [Hashtable8.releaseValue, hfree, ↓reduceIte, postorder_node, List.map_append,
        List.append_assoc, List.map_cons, List.map_nil]
      cases isRoot with
      | true => exact ⟨nodesr, rfl, fun a ha => (hsame a ha).1⟩
      | false =>
          refine ⟨Function.update nodesr e.address none, rfl, ?_⟩
          intro a ha
          rw [Function.update_of_ne (hsame a ha).2, (hsame a ha).1]

end NvIpfix
