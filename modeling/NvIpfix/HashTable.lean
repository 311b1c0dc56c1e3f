/-
**The hash table of `types.c`.**

A table has `UINT8_MAX` bucket roots embedded in it, one for each hash from 0 to 254.  A bucket is a
binary tree: its root is taken once its key length is not zero, and every further node is allocated
and hung from the `lt` or `gt` pointer where the walk for its key fell off the tree.  Nodes are read
and written through their addresses here, as the code does it.

A result `none` of these functions stands for a step outside the memory that the code may use: a
node that does not exist (the bucket of hash 255 is the first one behind the array), one that was
freed, or a walk without end.

What an allocation returns and what `memcmp` finds behind the end of a node's key are not the
table's to decide; they are arguments.  The functions that copy and free values are the caller's:
what the table gave to `freeValue` and what it got from `copyValue` is kept in order.

Main definitions:

* `nvipfixHashtable8Hash`, `keyCompare` — the bucket of a key, the order of two keys;
* `HashNode`, `Hashtable8` — a node, the table with its nodes;
* `hashWalk`, `nvipfixHashtable8GetOrAdd` — the walk that a lookup and an insertion share;
* `nvipfixHashtable8Add`, `nvipfixHashtable8Get`, `nvipfixHashtable8Free` — the operations;
* `HashKey`, `AddCall`, `addAll` — the sequences of additions that build a table.
-/

import NvIpfix.Config

set_option relaxedAutoImplicit false
set_option autoImplicit false

namespace NvIpfix

/-! ### Keys -/

/-- `nvipfix_hashtable8_hash`.  The sum `value[i] + i` is taken in `size_t`; the hash keeps its low
octet. -/
def nvipfixHashtable8Hash (value : List UInt8) : UInt8 :=
  value.zipIdx.foldl (fun result p => result ^^^ (p.1 + UInt8.ofNat p.2)) 0

/-- `int cmp = a_keyLen - node->keyLen`: a difference of two `size_t` cut down to 32 bits. -/
def keyLenDifference (keyLen nodeKeyLen : ℕ) : Int32 :=
  (UInt64.ofNat keyLen - UInt64.ofNat nodeKeyLen).toUInt32.toInt32

/-- The `count` octets at a node's key; those behind its end are whatever stands there. -/
def keyOctets (key : List UInt8) (beyond : ℕ → UInt8) (count : ℕ) : List UInt8 :=
  (List.range count).map fun i => key.getD i (beyond i)

/-- The sign of `cmp` in the walk: that of the length difference, then that of `memcmp`. -/
def keyCompare (beyond : ℕ → UInt8) (key nodeKey : List UInt8) : Ordering :=
  let cmp := keyLenDifference key.length nodeKey.length
  if cmp = 0 then compare key (keyOctets nodeKey beyond key.length)
  else if cmp < 0 then .lt
  else .gt

/-! ### Nodes -/

/-- Where a node is: the embedded root `nodes[hash]` of a table, or the `n`-th allocated node. -/
inductive NodeAddress
  | embedded (hash : UInt8)
  | allocated (n : ℕ)
deriving DecidableEq, Repr

/-- `nvIPFIX_hashnode_t`; `keyLen` is the length of `key`. -/
structure HashNode where
  key : List UInt8 := []
  value : Option Address := none
  lt : Option NodeAddress := none
  gt : Option NodeAddress := none
deriving DecidableEq, Repr

/-- The pointer of a node through which a walk went on. -/
inductive NodeLink
  | lt
  | gt
deriving DecidableEq, Repr

/-- `*parentNodePtr = node`. -/
def HashNode.link (node : HashNode) : NodeLink → NodeAddress → HashNode
  | .lt, address => { node with lt := some address }
  | .gt, address => { node with gt := some address }

/-- A function that copies values: what its `i`-th call returns for a pointer. -/
abbrev CopyFunction := ℕ → Option Address → Option Address

/-- `nvIPFIX_hashtable8_t` with its nodes, and what went through its two functions so far. -/
structure Hashtable8 where
  /-- The nodes in memory. -/
  nodes : NodeAddress → Option HashNode
  /-- How many nodes were allocated. -/
  allocations : ℕ := 0
  /-- Whether `freeValue` is set. -/
  freeValue : Bool := false
  copyValue : Option CopyFunction := none
  /-- What `copyValue` returned, in order. -/
  copied : List (Option Address) := []
  /-- What was passed to `freeValue`, in order. -/
  freed : List (Option Address) := []

/-- A table after `memset`, with the functions of its first value. -/
def Hashtable8.zeroed (copyF : Option CopyFunction) (freeF : Bool) : Hashtable8 where
  nodes
    | .embedded hash => if hash < 255 then some {} else none
    | .allocated _ => none
  freeValue := freeF
  copyValue := copyF

/-- The table with a node written. -/
def Hashtable8.write (table : Hashtable8) (address : NodeAddress) (node : HashNode) : Hashtable8 :=
  { table with nodes := Function.update table.nodes address (some node) }

/-- What a call meets in memory: whether `malloc` gives a table and the memory of a node (or of an
embedded root's key), and the octets behind the end of the keys. -/
structure CallMemory where
  mallocTable : Bool := true
  mallocNode : Bool := true
  beyond : NodeAddress → ℕ → UInt8 := fun _ _ => 0

/-! ### The walk -/

/-- The `while` loop of `nvipfix_hashtable8_get_or_add`: the node it stops at and the pointer it
came through.  The first argument bounds the number of turns. -/
def hashWalk (table : Hashtable8) (memory : CallMemory) (key : List UInt8) :
    ℕ → Option NodeAddress → Option (NodeAddress × NodeLink) →
      Option (Option NodeAddress × Option (NodeAddress × NodeLink))
  | 0, _, _ => none
  | _ + 1, none, parentNodePtr => some (none, parentNodePtr)
  | fuel + 1, some address, parentNodePtr => do
      let node ← table.nodes address
      match keyCompare (memory.beyond address) key node.key with
      | .eq => some (some address, parentNodePtr)
      | .lt => hashWalk table memory key fuel node.lt (some (address, .lt))
      | .gt => hashWalk table memory key fuel node.gt (some (address, .gt))

/-- Turns enough for a walk from a root: the root, the allocated nodes and the end. -/
def Hashtable8.fuel (table : Hashtable8) : ℕ := table.allocations + 2

/-- The second half of `nvipfix_hashtable8_get_or_add`: a node is allocated and hung from the
pointer that the walk came through. -/
def hashAddNode (table : Hashtable8) (memory : CallMemory) (key : List UInt8)
    (parentNodePtr : Option (NodeAddress × NodeLink)) :
    Option (Hashtable8 × Option NodeAddress) :=
  if memory.mallocNode then
    let address := NodeAddress.allocated table.allocations
    let table := { table.write address { key } with allocations := table.allocations + 1 }
    match parentNodePtr with
    | some (parent, link) => do
        let node ← table.nodes parent
        some (table.write parent (node.link link address), some address)
    | none => some (table, some address)
  else some (table, none)

/-- `nvipfix_hashtable8_get_or_add`: the table after the call and the node it returns. -/
def nvipfixHashtable8GetOrAdd (table : Hashtable8) (key : List UInt8) (shouldAdd : Bool)
    (memory : CallMemory) : Option (Hashtable8 × Option NodeAddress) := do
  let root := NodeAddress.embedded (nvipfixHashtable8Hash key)
  let node ← table.nodes root
  if node.key ≠ [] then
    let (found, parentNodePtr) ← hashWalk table memory key table.fuel (some root) none
    if found = none ∧ shouldAdd then hashAddNode table memory key parentNodePtr
    else some (table, found)
  else if shouldAdd then
    -- a root's key has memory of its own; without it `a_shouldAdd` is cleared
    if memory.mallocNode then some (table.write root { node with key }, some root)
    else some (table, none)
  else some (table, none)

/-! ### The operations -/

/-- `if (a_hashtable->freeValue != NULL) a_hashtable->freeValue( value )`. -/
def Hashtable8.releaseValue (table : Hashtable8) (value : Option Address) : Hashtable8 :=
  if table.freeValue then { table with freed := table.freed ++ [value] } else table

/-- The old value of a node is freed and a copy of the new one takes its place. -/
def Hashtable8.setValue (table : Hashtable8) (address : NodeAddress) (node : HashNode)
    (value : Option Address) : Hashtable8 :=
  let table := if node.value ≠ none then table.releaseValue node.value else table
  match table.copyValue with
  | some copy =>
      let copied := copy table.copied.length value
      { table.write address { node with value := copied } with
        copied := table.copied ++ [copied] }
  | none => table.write address { node with value }

/-- What an addition leaves: the table in memory, if there is one, and whether it was returned. -/
structure AddResult where
  table : Option Hashtable8
  returned : Bool

/-- `result = NULL`: the memory of a table that the call itself made is freed. -/
def AddResult.failure (hashtable : Option Hashtable8) (table : Hashtable8) : AddResult where
  table := hashtable.map fun _ => table
  returned := false

/-- `result` before the walk: the given table or, for `NULL`, a new one. -/
def tableOrNew (hashtable : Option Hashtable8) (copyF : Option CopyFunction) (freeF : Bool)
    (memory : CallMemory) : Option Hashtable8 :=
  match hashtable with
  | some table => some table
  | none => if memory.mallocTable then some (Hashtable8.zeroed copyF freeF) else none

/-- `nvipfix_hashtable8_add`. -/
def nvipfixHashtable8Add (hashtable : Option Hashtable8) (key : Option (List UInt8))
    (value : Option Address) (copyF : Option CopyFunction) (freeF : Bool) (memory : CallMemory) :
    Option AddResult :=
  match key with
  | none => some { table := hashtable, returned := false }
  | some key =>
      match tableOrNew hashtable copyF freeF memory with
      | none => some { table := none, returned := false }
      | some table => do
          let (table, node) ← nvipfixHashtable8GetOrAdd table key true memory
          match node with
          | none => some (AddResult.failure hashtable table)
          | some address => do
              let node ← table.nodes address
              let table := table.setValue address node value
              let stored ← table.nodes address
              if value ≠ none ∧ stored.value = none then
                some (AddResult.failure hashtable table)
              else some { table := some table, returned := true }

/-- `nvipfix_hashtable8_get`. -/
def nvipfixHashtable8Get (hashtable : Option Hashtable8) (key : Option (List UInt8))
    (memory : CallMemory) : Option (Option Address) :=
  match hashtable, key with
  | some table, some key => do
      let (table, node) ← nvipfixHashtable8GetOrAdd table key false memory
      match node with
      | some address => do
          let node ← table.nodes address
          some node.value
      | none => some none
  | _, _ => some none

/-- `nvipfix_hashtable8_free_node`.  A root is part of the table and stays; only its key is freed.
The first argument bounds the depth of the recursion. -/
def nvipfixHashtable8FreeNode :
    ℕ → Hashtable8 → Option NodeAddress → Bool → Option Hashtable8
  | 0, _, _, _ => none
  | _ + 1, table, none, _ => some table
  | fuel + 1, table, some address, isRoot => do
      let node ← table.nodes address
      let table ← nvipfixHashtable8FreeNode fuel table node.lt false
      let node ← table.nodes address
      let table ← nvipfixHashtable8FreeNode fuel table node.gt false
      let node ← table.nodes address
      let table := table.releaseValue node.value
      if isRoot then some table
      else some { table with nodes := Function.update table.nodes address none }

/-- The hashes that have a bucket: `i < UINT8_MAX`. -/
def bucketHashes : List UInt8 := (List.range 255).map UInt8.ofNat

/-- One turn of the loop of `nvipfix_hashtable8_free`. -/
def hashFreeBucket (table : Hashtable8) (hash : UInt8) : Option Hashtable8 := do
  let root ← table.nodes (.embedded hash)
  if root.key ≠ [] then
    nvipfixHashtable8FreeNode table.fuel table (some (.embedded hash)) true
  else some table

/-- `nvipfix_hashtable8_free`.  The table itself is not freed. -/
def nvipfixHashtable8Free : Option Hashtable8 → Option (Option Hashtable8)
  | none => some none
  | some table => (bucketHashes.foldlM hashFreeBucket table).map some

/-! ### Sequences of additions -/

/-- A key that has a bucket. -/
@[ext] structure HashKey where
  octets : List UInt8
  ne_nil : octets ≠ []
  hash_lt : nvipfixHashtable8Hash octets < 255
deriving DecidableEq

/-- A call of `nvipfix_hashtable8_add` with a value, in which no allocation fails. -/
structure AddCall where
  key : HashKey
  value : Address
  copyF : Option CopyFunction := none
  freeF : Bool := false
  beyond : NodeAddress → ℕ → UInt8 := fun _ _ => 0

/-- The call on a table. -/
def AddCall.run (call : AddCall) (hashtable : Option Hashtable8) : Option AddResult :=
  nvipfixHashtable8Add hashtable (some call.key.octets) (some call.value) call.copyF call.freeF
    { beyond := call.beyond }

/-- Calls in order, each on the table that the call before returned. -/
def addAll (calls : List AddCall) (hashtable : Option Hashtable8) : Option (Option Hashtable8) :=
  calls.foldlM (fun hashtable call => do
    let result ← call.run hashtable
    if result.returned then some result.table else none) hashtable

/-- The copy function of a table: the one of the first call. -/
def tableCopy (calls : List AddCall) : Option CopyFunction := calls.head?.bind AddCall.copyF

/-- Whether a table has a free function: whether the first call gives one. -/
def tableFree (calls : List AddCall) : Bool := (calls.head?.map AddCall.freeF).getD false

/-- Additions under two keys of one hash, the first added twice. -/
def collidingCalls (copyF : Option CopyFunction) (freeF : Bool) : List AddCall :=
  [{ key := ⟨[97], by decide, by decide⟩, value := 1, copyF, freeF },
    { key := ⟨[0, 96], by decide, by decide⟩, value := 2 },
    { key := ⟨[97], by decide, by decide⟩, value := 3 }]

end NvIpfix
