/-
**What an addition changes.**

An addition writes one node: the one it found, a free root or a node that it hangs from another.
The lookups of all other keys end where they did before, and a key that was not found before is
found at that node or still not found.  Nothing else has a new value, and the invariant of the
pointers is kept.

Main definitions:

* `Hashtable8.Grown` — a table in which one node may be new.

Main results:

* `Hashtable8.Linked.locate_take`, `Hashtable8.Linked.locate_hang` — a node that is taken or hung;
* `Hashtable8.Linked.exists_grown` — **what an addition leaves before it writes its value**;
* `HashAdd.run_cases` — whole additions;
* `Hashtable8.Reachable.linked` — the invariant holds whatever was added.
-/

import NvIpfix.HashLinks

set_option relaxedAutoImplicit false
set_option autoImplicit false

namespace NvIpfix

/-! ### What a change of the nodes does to lookups -/

section Changes

variable {table table' : Hashtable8} {memory : CallMemory} {key other : List UInt8}
  {a : NodeAddress} {node root parent : HashNode} {place : NodeAddress × NodeLink}

@[simp] theorem HashNode.shape_key (node : HashNode) : node.shape.key = node.key := rfl

@[simp] theorem HashNode.shape_child (node : HashNode) (link : NodeLink) :
    node.shape.child link = node.child link := by
  cases link <;> rfl

/-- A walk among nodes that keep their keys and pointers stays the same. -/
theorem hashWalk_congr {S : NodeAddress → Prop}
    (hsame : ∀ a, S a → (table'.nodes a).map HashNode.shape = (table.nodes a).map HashNode.shape)
    (hclosed : ∀ a node, S a → table.nodes a = some node → ∀ link b, node.child link = some b → S b)
    {fuel : ℕ} {p : Option NodeAddress} (hp : ∀ a ∈ p, S a)
    (q : Option (NodeAddress × NodeLink)) :
    hashWalk table' memory key fuel p q = hashWalk table memory key fuel p q := by
  induction fuel generalizing p q with
  | zero => rfl
  | succ fuel ih =>
      cases p with
      | none => rfl
      | some a =>
          have ha := hsame a (hp a rfl)
          cases hnode : table.nodes a with
          | none =>
              rw [hnode, Option.map_none, Option.map_eq_none_iff] at ha
              simp [hashWalk, ha, hnode]
          | some node =>
              rw [hnode, Option.map_some, Option.map_eq_some_iff] at ha
              obtain ⟨node', hnode', hshape⟩ := ha
              have hkey : node'.key = node.key := by
                rw [← HashNode.shape_key, hshape, HashNode.shape_key]
              have hchild : ∀ link, node'.child link = node.child link := by
                intro link
                rw [← HashNode.shape_child, hshape, HashNode.shape_child]
              rcases hashWalk_turn memory key a node.key with ⟨-, hstop⟩ | ⟨link, hgo⟩
              · rw [hstop hnode' hkey, hstop hnode rfl]
              · rw [hgo hnode' hkey, hgo hnode rfl, hchild]
                exact ih (fun b hb => hclosed a node (hp a rfl) hnode link b hb) _

/-- A lookup among nodes that keep their keys and pointers stays the same. -/
theorem locate_congr {S : NodeAddress → Prop}
    (hallocations : table'.allocations = table.allocations)
    (hsame : ∀ a, S a → (table'.nodes a).map HashNode.shape = (table.nodes a).map HashNode.shape)
    (hclosed : ∀ a node, S a → table.nodes a = some node → ∀ link b, node.child link = some b → S b)
    (hroot : S (.embedded (nvipfixHashtable8Hash key))) :
    table'.locate key memory = table.locate key memory := by
  have hshape := hsame _ hroot
  cases hnode : table.nodes (.embedded (nvipfixHashtable8Hash key)) with
  | none =>
      rw [hnode, Option.map_none, Option.map_eq_none_iff] at hshape
      simp [Hashtable8.locate, nvipfixHashtable8GetOrAdd, hnode, hshape]
  | some root =>
      rw [hnode, Option.map_some, Option.map_eq_some_iff] at hshape
      obtain ⟨root', hnode', hshape⟩ := hshape
      have hkey : root'.key = root.key := by
        rw [← HashNode.shape_key, hshape, HashNode.shape_key]
      have hfuel : table'.fuel = table.fuel := by rw [Hashtable8.fuel, hallocations]; rfl
      rw [locate_eq hnode, locate_eq hnode', hkey, hfuel,
        hashWalk_congr hsame hclosed (fun a ha => Option.some.inj ha ▸ hroot)]

/-- A value that is written is not seen by a walk. -/
theorem locate_setValue (hnode : table.nodes a = some node) (value : Option Address) :
    (table.setValue a node value).locate key memory = table.locate key memory := by
  rw [Hashtable8.setValue_eq]
  refine locate_congr (S := fun _ => True) rfl ?_ (fun _ _ _ _ _ _ _ => trivial) trivial
  intro b _
  by_cases hb : b = a
  · subst hb
    simp [hnode, HashNode.shape]
  · simp [Function.update_of_ne hb]

/-- **A free root that is taken** is seen by lookups that found nothing. -/
theorem Hashtable8.Linked.locate_take (h : table.Linked)
    (hroot : table.nodes (.embedded (nvipfixHashtable8Hash key)) = some root)
    (hfree : root.key = []) (other : List UInt8) (memory : CallMemory) :
    (table.write (.embedded (nvipfixHashtable8Hash key)) { root with key }).locate other memory =
        table.locate other memory ∨
      table.locate other memory = some none ∧
        (table.write (.embedded (nvipfixHashtable8Hash key)) { root with key }).locate other
          memory = some (some (.embedded (nvipfixHashtable8Hash key))) := by
  by_cases hhash : nvipfixHashtable8Hash other = nvipfixHashtable8Hash key
  · have hchild := (h.free _ root hroot hfree).1
    obtain ⟨rootKey, value, lt, gt⟩ := root
    obtain rfl : lt = none := hchild .lt
    obtain rfl : gt = none := hchild .gt
    have hnode : (table.write (.embedded (nvipfixHashtable8Hash key))
        { key, value, lt := none, gt := none }).nodes (.embedded (nvipfixHashtable8Hash other)) =
          some { key, value, lt := none, gt := none } := by
      rw [hhash]
      exact Function.update_self _ _ _
    have hbefore : table.locate other memory = some none := by
      rw [locate_eq (hhash ▸ hroot), if_pos hfree]
    rw [locate_eq hnode, hbefore]
    by_cases hkey : key = []
    · exact .inl (if_pos hkey)
    · rw [if_neg hkey, Hashtable8.fuel]
      rcases hashWalk_turn memory other (.embedded (nvipfixHashtable8Hash other)) key with
        ⟨-, hstop⟩ | ⟨link, hgo⟩
      · rw [hstop hnode rfl, hhash]
        exact .inr ⟨rfl, rfl⟩
      · rw [hgo hnode rfl]
        cases link <;> exact .inl rfl
  · -- walks of another bucket do not come by the root
    refine .inl (locate_congr (S := fun b => b ≠ .embedded (nvipfixHashtable8Hash key)) rfl ?_ ?_
      fun heq => hhash (NodeAddress.embedded.inj heq))
    · intro b hb
      exact congrArg (Option.map HashNode.shape) (Function.update_of_ne hb _ _)
    · intro b node _ hnode link c hc
      exact (h.child_lt hnode hc).2.2 _

theorem HashNode.link_child (node : HashNode) (link link' : NodeLink) (a : NodeAddress) :
    (node.link link a).child link' = if link' = link then some a else node.child link' := by
  cases link <;> cases link' <;> rfl

@[simp] theorem HashNode.link_key (node : HashNode) (link : NodeLink) (a : NodeAddress) :
    (node.link link a).key = node.key := by
  cases link <;> rfl

@[simp] theorem HashNode.link_value (node : HashNode) (link : NodeLink) (a : NodeAddress) :
    (node.link link a).value = node.value := by
  cases link <;> rfl

/-- The end of a walk, at no node or at a new one. -/
theorem hashWalk_new (memory : CallMemory) (other : List UInt8) {new : NodeAddress}
    (hnew : table.nodes new = some { key }) {fuel : ℕ}
    (hfuel : fuel ≠ 0) (q : Option (NodeAddress × NodeLink)) :
    ∃ q', hashWalk table memory other (fuel + 1) (some new) q = some (none, q') ∨
      hashWalk table memory other (fuel + 1) (some new) q = some (some new, q') := by
  obtain ⟨fuel, rfl⟩ := Nat.exists_eq_succ_of_ne_zero hfuel
  rcases hashWalk_turn memory other new key with ⟨-, hstop⟩ | ⟨link, hgo⟩
  · exact ⟨q, .inr (hstop hnew rfl _ _)⟩
  · rw [hgo hnew rfl]
    cases link <;> exact ⟨_, .inl rfl⟩

/-- What hanging a node does to an old one. -/
theorem hang_node (key : List UInt8) (h : table.Linked)
    (hparent : table.nodes place.1 = some parent)
    (hchild : parent.child place.2 = none) (hnode : table.nodes a = some node) :
    ∃ node', (table.hang key place parent).nodes a = some node' ∧ node'.key = node.key ∧
      ∀ link, node'.child link = node.child link ∨
        node.child link = none ∧ node'.child link = some (.allocated table.allocations) := by
  rw [hang_nodes _ _ (h.ne_fresh hparent), if_neg (h.ne_fresh hnode)]
  by_cases ha : a = place.1
  · subst ha
    obtain rfl : parent = node := Option.some.inj (hparent.symm.trans hnode)
    rw [if_pos rfl]
    refine ⟨_, rfl, HashNode.link_key .., fun link => ?_⟩
    rw [HashNode.link_child]
    by_cases hlink : link = place.2
    · subst hlink
      exact .inr ⟨hchild, if_pos rfl⟩
    · exact .inl (if_neg hlink)
  · rw [if_neg ha]
    exact ⟨node, hnode, rfl, fun _ => .inl rfl⟩

/-- A walk in a table with a node hung ends where it did, or at the new node where it fell off. -/
theorem hashWalk_hang (key : List UInt8) (h : table.Linked)
    (hparent : table.nodes place.1 = some parent)
    (hchild : parent.child place.2 = none) {fuel : ℕ} {p : Option NodeAddress}
    (hp : p ≠ some (.allocated table.allocations)) {found : Option NodeAddress}
    {q q' : Option (NodeAddress × NodeLink)}
    (hwalk : hashWalk table memory other fuel p q = some (found, q')) :
    ∃ q'', hashWalk (table.hang key place parent) memory other (fuel + 1) p q = some (found, q'') ∨
      found = none ∧ hashWalk (table.hang key place parent) memory other (fuel + 1) p q =
        some (some (.allocated table.allocations), q'') := by
  have hnodes := hang_nodes key parent (h.ne_fresh hparent)
  induction fuel generalizing p q with
  | zero => simp [hashWalk] at hwalk
  | succ fuel ih =>
      cases p with
      | none =>
          obtain ⟨rfl, rfl⟩ : none = found ∧ q = q' := by simpa [hashWalk] using hwalk
          exact ⟨q, .inl rfl⟩
      | some a =>
          cases hnode : table.nodes a with
          | none => simp [hashWalk, hnode] at hwalk
          | some node =>
              obtain ⟨node', hnode', hkey, hlink⟩ :=
                hang_node key h hparent hchild hnode
              rcases hashWalk_turn memory other a node.key with ⟨-, hstop⟩ | ⟨link, hgo⟩
              · rw [hstop hnode rfl] at hwalk
                rw [hstop hnode' hkey]
                exact ⟨q', .inl hwalk⟩
              · rw [hgo hnode rfl] at hwalk
                rw [hgo hnode' hkey]
                rcases hlink link with hsame | ⟨hnone, hsome⟩
                · rw [hsame]
                  refine ih (fun heq => ?_) hwalk
                  obtain ⟨-, ⟨b, hb⟩, -⟩ := h.child_lt hnode heq
                  exact h.ne_fresh hb rfl
                · -- the walk fell off here, where the new node is now
                  rw [hnone] at hwalk
                  cases fuel with
                  | zero => simp [hashWalk] at hwalk
                  | succ fuel =>
                      obtain ⟨rfl, -⟩ : none = found ∧ some (a, link) = q' := by
                        simpa [hashWalk] using hwalk
                      obtain ⟨q'', hend⟩ := hashWalk_new memory other
                        (by rw [hnodes, if_pos rfl] : (table.hang key place parent).nodes _ = _)
                        (Nat.succ_ne_zero fuel) (some (a, link))
                      rw [hsome]
                      exact ⟨q'', hend.imp_right fun hfound => ⟨rfl, hfound⟩⟩

/-- The walk that a node was hung for finds it. -/
theorem hashWalk_hang_self (h : table.Linked) (hparent : table.nodes place.1 = some parent)
    (hchild : parent.child place.2 = none) {fuel : ℕ} {p : Option NodeAddress} (hp : p ≠ none)
    {q : Option (NodeAddress × NodeLink)}
    (hwalk : hashWalk table memory key fuel p q = some (none, some place)) :
    hashWalk (table.hang key place parent) memory key (fuel + 1) p q =
      some (some (.allocated table.allocations), some place) := by
  have hnodes := hang_nodes key parent (h.ne_fresh hparent)
  induction fuel generalizing p q with
  | zero => simp [hashWalk] at hwalk
  | succ fuel ih =>
      obtain ⟨a, rfl⟩ := Option.ne_none_iff_exists'.1 hp
      cases hnode : table.nodes a with
      | none => simp [hashWalk, hnode] at hwalk
      | some node =>
          obtain ⟨node', hnode', hkey, hlink⟩ := hang_node key h hparent hchild hnode
          rcases hashWalk_turn memory key a node.key with ⟨-, hstop⟩ | ⟨link, hgo⟩
          · rw [hstop hnode rfl] at hwalk
            simp at hwalk
          · rw [hgo hnode rfl] at hwalk
            rw [hgo hnode' hkey]
            -- the walk falls off at the pointer that the node was hung from, and nowhere else
            have hplace : node.child link = none → (a, link) = place := by
              intro hnone
              rw [hnone] at hwalk
              cases fuel with
              | zero => simp [hashWalk] at hwalk
              | succ fuel => simpa [hashWalk] using hwalk
            rcases hlink link with hsame | ⟨hnone, hsome⟩
            · have hne : node.child link ≠ none := by
                intro hnone
                obtain rfl := hplace hnone
                rw [hnodes, if_neg (h.ne_fresh hnode), if_pos rfl] at hnode'
                obtain rfl := Option.some.inj hnode'
                rw [HashNode.link_child, if_pos rfl, hnone] at hsame
                cases hsame
              rw [hsame]
              exact ih hne hwalk
            · obtain rfl := hplace hnone
              have hnew : (table.hang key (a, link) parent).nodes
                  (.allocated table.allocations) = some { key } := by
                rw [hnodes, if_pos rfl]
              cases fuel with
              | zero =>
                  rw [hnone] at hwalk
                  simp [hashWalk] at hwalk
              | succ fuel => simp [hsome, hashWalk, hnew]

/-- **A node that is hung** is seen by lookups that found nothing. -/
theorem Hashtable8.Linked.locate_hang (h : table.Linked)
    (hparent : table.nodes place.1 = some parent) (hchild : parent.child place.2 = none)
    (other : List UInt8) (memory : CallMemory) :
    (table.hang key place parent).locate other memory = table.locate other memory ∨
      table.locate other memory = some none ∧
        (table.hang key place parent).locate other memory =
          some (some (.allocated table.allocations)) := by
  cases hroot : table.nodes (.embedded (nvipfixHashtable8Hash other)) with
  | none =>
      have hroot' : (table.hang key place parent).nodes
          (.embedded (nvipfixHashtable8Hash other)) = none := by
        rw [hang_nodes _ _ (h.ne_fresh hparent), if_neg (by simp), if_neg, hroot]
        intro heq
        rw [heq, hparent] at hroot
        cases hroot
      simp [Hashtable8.locate, nvipfixHashtable8GetOrAdd, hroot, hroot']
  | some root =>
      obtain ⟨root', hroot', hkey, -⟩ := hang_node key h hparent hchild hroot
      rw [locate_eq hroot, locate_eq hroot', hkey]
      by_cases hfree : root.key = []
      · exact .inl (by rw [if_pos hfree, if_pos hfree])
      · rw [if_neg hfree, if_neg hfree]
        have hwalk : ∃ found q, hashWalk table memory other table.fuel
            (some (.embedded (nvipfixHashtable8Hash other))) none = some (found, q) := by
          have hfuel : table.allocations + 2 ≤ table.fuel +
              (NodeAddress.embedded (nvipfixHashtable8Hash other)).rank := Nat.le_add_right _ _
          rcases h.exists_hashWalk memory other hroot hfuel none with
            ⟨b, node, q, hwalk, -⟩ | ⟨place, node, hwalk, -⟩
          · exact ⟨some b, q, hwalk⟩
          · exact ⟨none, some place, hwalk⟩
        obtain ⟨found, q, hwalk⟩ := hwalk
        have hfuel : (table.hang key place parent).fuel = table.fuel + 1 := rfl
        obtain ⟨q', hhang⟩ := hashWalk_hang key h hparent hchild (by simp) hwalk
        rw [hwalk, hfuel]
        rcases hhang with hsame | ⟨rfl, hnew⟩
        · rw [hsame]
          exact .inl rfl
        · rw [hnew]
          exact .inr ⟨rfl, rfl⟩

/-! ### The invariant -/

/-- A node that is written over with its pointers left keeps the invariant. -/
theorem Hashtable8.Linked.rewrite (h : table.Linked) (hnode : table.nodes a = some node)
    {node' : HashNode} (hnodes : table'.nodes = Function.update table.nodes a (some node'))
    (hallocations : table'.allocations = table.allocations)
    (hchild : ∀ link, node'.child link = node.child link)
    (hfree : ∀ hash, a = .embedded hash → node'.key = [] →
      (∀ link, node.child link = none) ∧ (hash ≠ 0 → node'.value = none)) : table'.Linked := by
  have hsome : ∀ b, (table'.nodes b).isSome = (table.nodes b).isSome := by
    intro b
    rw [hnodes, Function.update_apply]
    split
    · next hb => simp [hb, hnode]
    · rfl
  refine ⟨?_, ?_, ?_, ?_⟩
  · intro hash
    rw [hsome, h.root]
  · intro n
    rw [hsome, h.known, hallocations]
  · intro b node'' hb link c hc
    rw [hnodes, Function.update_apply] at hb
    rw [hallocations]
    split at hb
    · next heq =>
        obtain rfl : node' = node'' := Option.some.inj hb
        rw [hchild] at hc
        exact heq ▸ h.child a node hnode link c hc
    · exact h.child b node'' hb link c hc
  · intro hash root hroot hkey
    rw [hnodes, Function.update_apply] at hroot
    split at hroot
    · next heq =>
        obtain rfl : node' = root := Option.some.inj hroot
        obtain ⟨hnone, hvalue⟩ := hfree hash heq.symm hkey
        exact ⟨fun link => (hchild link).trans (hnone link), hvalue⟩
    · exact h.free hash root hroot hkey

/-- A free root that is taken keeps the invariant. -/
theorem Hashtable8.Linked.take (h : table.Linked)
    (hroot : table.nodes (.embedded (nvipfixHashtable8Hash key)) = some root)
    (hfree : root.key = []) :
    (table.write (.embedded (nvipfixHashtable8Hash key)) { root with key }).Linked := by
  refine h.rewrite hroot rfl rfl (fun link => by cases link <;> rfl) ?_
  intro hash heq _
  obtain rfl : nvipfixHashtable8Hash key = hash := NodeAddress.embedded.inj heq
  exact h.free _ root hroot hfree

/-- A value that is written keeps the invariant, unless it is that of a free root. -/
theorem Hashtable8.Linked.setValue (h : table.Linked) (hnode : table.nodes a = some node)
    (hfree : ∀ hash, a = .embedded hash → node.key = [] → hash = 0) (value : Option Address) :
    (table.setValue a node value).Linked := by
  rw [Hashtable8.setValue_eq]
  refine h.rewrite hnode rfl rfl (fun link => by cases link <;> rfl) ?_
  rintro hash rfl hkey
  refine ⟨(h.free hash node hnode hkey).1, fun hhash => ?_⟩
  exact absurd (hfree hash rfl hkey) hhash

/-- A node that is hung keeps the invariant. -/
theorem Hashtable8.Linked.hang (h : table.Linked) (hparent : table.nodes place.1 = some parent)
    (hparentKey : ∀ hash, place.1 = .embedded hash → parent.key ≠ []) :
    (table.hang key place parent).Linked := by
  have hnodes := hang_nodes key parent (h.ne_fresh hparent)
  have hallocations : (table.hang key place parent).allocations = table.allocations + 1 := rfl
  refine ⟨?_, ?_, ?_, ?_⟩
  · intro hash
    rw [hnodes, if_neg (by simp), ← h.root]
    split
    · next heq => simp [heq, hparent]
    · rfl
  · intro n
    rw [hnodes, hallocations]
    by_cases hnew : n = table.allocations
    · simp [hnew]
    · rw [if_neg (by simpa using hnew)]
      have hold := h.known n
      split
      · next heq =>
          rw [heq, hparent] at hold
          simp only [Option.isSome_some, true_iff] at hold ⊢
          omega
      · rw [hold]
        omega
  · intro b node hb link c hc
    rw [hnodes] at hb
    rw [hallocations]
    split at hb
    · obtain rfl : ({ key } : HashNode) = node := Option.some.inj hb
      cases link <;> cases hc
    · split at hb
      · next heq =>
          obtain rfl := Option.some.inj hb
          rw [HashNode.link_child] at hc
          split at hc
          · obtain rfl := Option.some.inj hc
            exact ⟨_, Nat.lt_succ_self _, rfl, heq ▸ h.rank_le hparent⟩
          · obtain ⟨n, hn, rfl, hle⟩ := h.child _ parent hparent link c hc
            exact ⟨n, Nat.lt_succ_of_lt hn, rfl, heq ▸ hle⟩
      · obtain ⟨n, hn, rfl, hle⟩ := h.child b node hb link c hc
        exact ⟨n, Nat.lt_succ_of_lt hn, rfl, hle⟩
  · intro hash root hroot hkey
    rw [hnodes, if_neg (by simp)] at hroot
    split at hroot
    · next heq =>
        obtain rfl := Option.some.inj hroot
        rw [HashNode.link_key] at hkey
        exact absurd hkey (hparentKey hash heq.symm)
    · exact h.free hash root hroot hkey

end Changes

/-! ### Additions -/

/-- The table in which the node at `a` may be new: all other nodes keep their values, and a lookup
ends where it did, or at `a` where it found nothing. -/
structure Hashtable8.Grown (table table' : Hashtable8) (a : NodeAddress) (node : HashNode) :
    Prop where
  linked : table'.Linked
  rest : table' = { table with nodes := table'.nodes, allocations := table'.allocations }
  node_eq : table'.nodes a = some node
  value : ∀ b ≠ a, (table'.nodes b).map HashNode.value = (table.nodes b).map HashNode.value
  locate : ∀ key memory, table'.locate key memory = table.locate key memory ∨
    table.locate key memory = some none ∧ table'.locate key memory = some (some a)
  root : ∀ hash, a = .embedded hash → node.key = [] → hash = 0

/-- How an addition of a key comes to its node; `root` is the root of the key's bucket. -/
inductive NodeOrigin (table table' : Hashtable8) (key : List UInt8) (memory : CallMemory)
    (root node : HashNode) (a : NodeAddress) : Prop
  | found (rootKey : root.key ≠ []) (located : table.locate key memory = some (some a))
      (old : table.nodes a = some node)
      (equal : keyCompare (memory.beyond a) key node.key = .eq) (same : table' = table)
  | taken (malloc : memory.mallocNode = true) (rootKey : root.key = [])
      (missing : table.locate key memory = some none)
      (address : a = .embedded (nvipfixHashtable8Hash key)) (node_eq : node = { root with key })
  | hung (malloc : memory.mallocNode = true) (rootKey : root.key ≠ [])
      (missing : table.locate key memory = some none) (new : table.nodes a = none)
      (node_eq : node = { key }) (located : table'.locate key memory = some (some a))

section Additions

variable {table : Hashtable8} {key : List UInt8} {root : HashNode}

/-- **What an addition leaves before it writes its value.** -/
theorem Hashtable8.Linked.exists_grown (h : table.Linked) (memory : CallMemory)
    (hroot : table.nodes (.embedded (nvipfixHashtable8Hash key)) = some root) :
    (memory.mallocNode = false ∧ table.locate key memory = some none ∧
      nvipfixHashtable8GetOrAdd table key true memory = some (table, none)) ∨
    ∃ table' a node, table.Grown table' a node ∧
      NodeOrigin table table' key memory root node a ∧
      nvipfixHashtable8GetOrAdd table key true memory = some (table', some a) := by
  rcases h.getOrAdd_cases memory hroot with
    hnone | ⟨a, node, hkey, hlocate, hnode, hequal, hfree, hadd⟩ |
    ⟨hmalloc, hkey, hlocate, hadd⟩ |
    ⟨hmalloc, hkey, hlocate, place, parent, hparent, hchild, hfree, hwalk, hadd⟩
  · exact .inl hnone
  · refine .inr ⟨table, a, node, ⟨h, rfl, hnode, fun _ _ => rfl, fun _ _ => .inl rfl, ?_⟩,
      .found hkey hlocate hnode hequal rfl, hadd⟩
    intro hash ha hnil
    exact absurd hnil (hfree hash ha)
  · refine .inr ⟨_, _, { root with key }, ⟨h.take hroot hkey, rfl, Function.update_self .., ?_,
      h.locate_take hroot hkey, ?_⟩, .taken hmalloc hkey hlocate rfl rfl, hadd⟩
    · intro b hb
      exact congrArg (Option.map HashNode.value) (Function.update_of_ne hb _ _)
    · rintro hash heq (rfl : key = [])
      exact (NodeAddress.embedded.inj heq).symm
  · have hne := h.ne_fresh hparent
    obtain ⟨root', hroot', hrootKey, -⟩ := hang_node key h hparent hchild hroot
    have hfuel : (table.hang key place parent).fuel = table.fuel + 1 := rfl
    have hlocated : (table.hang key place parent).locate key memory =
        some (some (.allocated table.allocations)) := by
      rw [locate_eq hroot', hrootKey, if_neg hkey, hfuel,
        hashWalk_hang_self h hparent hchild (by simp) hwalk]
      rfl
    refine .inr ⟨_, _, { key }, ⟨h.hang hparent hfree, rfl, ?_, ?_, h.locate_hang hparent hchild,
      by simp⟩, .hung hmalloc hkey hlocate h.fresh rfl hlocated, hadd⟩
    · rw [hang_nodes _ _ hne, if_pos rfl]
    · intro b hb
      rw [hang_nodes _ _ hne, if_neg hb]
      split
      · next heq => rw [heq, hparent, Option.map_some, Option.map_some, HashNode.link_value]
      · rfl

namespace Hashtable8.Grown

variable {table' : Hashtable8} {a : NodeAddress} {node : HashNode}

theorem storedValue (h : table.Grown table' a node) (value : Option Address) :
    table'.storedValue value = table.storedValue value := by
  rw [h.rest]
  rfl

theorem freed_setValue (h : table.Grown table' a node) (value : Option Address) :
    (table'.setValue a node value).freed =
      table.freed ++ if node.value ≠ none ∧ table.freeValue then [node.value] else [] := by
  rw [setValue_eq, h.rest]

theorem locate_setValue (h : table.Grown table' a node) (value : Option Address)
    (key : List UInt8) (memory : CallMemory) :
    (table'.setValue a node value).locate key memory = table'.locate key memory :=
  NvIpfix.locate_setValue h.node_eq value

theorem linked_setValue (h : table.Grown table' a node) (value : Option Address) :
    (table'.setValue a node value).Linked :=
  h.linked.setValue h.node_eq h.root value

/-- **Lookups behind an addition**: at its node there is its value, elsewhere what there was. -/
theorem get_setValue (h : table.Grown table' a node) (value : Option Address) (key : List UInt8)
    (memory : CallMemory) :
    nvipfixHashtable8Get (some (table'.setValue a node value)) (some key) memory =
      if table'.locate key memory = some (some a) then some (table.storedValue value)
      else nvipfixHashtable8Get (some table) (some key) memory := by
  have hnodes : (table'.setValue a node value).nodes =
      Function.update table'.nodes a (some { node with value := table.storedValue value }) := by
    rw [setValue_eq, h.storedValue]
  rw [get_eq_locate, h.locate_setValue, hnodes]
  by_cases hfound : table'.locate key memory = some (some a)
  · rw [hfound, if_pos rfl]
    simp
  · rw [if_neg hfound, get_eq_locate]
    rcases h.locate key memory with hsame | ⟨-, hnew⟩
    · rw [hsame]
      rw [hsame] at hfound
      cases hlocate : table.locate key memory with
      | none => rfl
      | some found =>
          cases found with
          | none => rfl
          | some b =>
              have hb : b ≠ a := fun heq => hfound (by rw [hlocate, heq])
              have hvalue := h.value b hb
              simpa [Function.update_of_ne hb] using hvalue
    · exact absurd hnew hfound

end Hashtable8.Grown

/-- **A whole addition.** -/
theorem HashAdd.run_cases (h : table.Linked) (call : HashAdd) {result : AddResult}
    (hrun : call.run (some table) = some result) :
    ∃ root, table.nodes (.embedded (nvipfixHashtable8Hash call.key)) = some root ∧
      (call.memory.mallocNode = false ∧ table.locate call.key call.memory = some none ∧
          result = ⟨some table, false⟩ ∨
        ∃ table' a node, table.Grown table' a node ∧
          NodeOrigin table table' call.key call.memory root node a ∧
          result.table = some (table'.setValue a node call.value) ∧
          (result.returned = true ↔
            ¬ (call.value ≠ none ∧ table.storedValue call.value = none))) := by
  cases hroot : table.nodes (.embedded (nvipfixHashtable8Hash call.key)) with
  | none =>
      simp [HashAdd.run, nvipfixHashtable8Add, tableOrNew, nvipfixHashtable8GetOrAdd,
        hroot] at hrun
  | some root =>
      refine ⟨root, rfl, ?_⟩
      rcases h.exists_grown call.memory hroot with
        ⟨hmalloc, hlocate, hadd⟩ | ⟨table', a, node, hgrown, horigin, hadd⟩
      · refine .inl ⟨hmalloc, hlocate, ?_⟩
        simpa [HashAdd.run, nvipfixHashtable8Add, tableOrNew, hadd, AddResult.failure]
          using hrun.symm
      · refine .inr ⟨table', a, node, hgrown, horigin, ?_⟩
        have hstored : (table'.setValue a node call.value).nodes a =
            some { node with value := table.storedValue call.value } := by
          rw [Hashtable8.setValue_eq, hgrown.storedValue]
          exact Function.update_self ..
        simp only [HashAdd.run, nvipfixHashtable8Add, tableOrNew, hadd, Option.bind_eq_bind,
          Option.bind_some, hgrown.node_eq, hstored] at hrun
        split at hrun
        · next hfailed =>
            obtain rfl := Option.some.inj hrun
            exact ⟨rfl, by simpa [AddResult.failure] using hfailed⟩
        · next hdone =>
            obtain rfl := Option.some.inj hrun
            exact ⟨rfl, iff_of_true rfl hdone⟩

/-- An addition keeps the invariant. -/
theorem HashAdd.linked_run (h : table.Linked) (call : HashAdd) {result : AddResult}
    (hrun : call.run (some table) = some result) : ∀ table' ∈ result.table, table'.Linked := by
  obtain ⟨root, -, ⟨-, -, rfl⟩ | ⟨table', a, node, hgrown, -, htable, -⟩⟩ := call.run_cases h hrun
  · rintro table' ⟨⟩
    exact h
  · rw [htable]
    rintro table'' ⟨⟩
    exact hgrown.linked_setValue call.value

end Additions

/-- A first addition makes its table. -/
theorem HashAdd.run_none (call : HashAdd) {result : AddResult}
    (hrun : call.run none = some result) : result.table = none ∨
      call.run (some (Hashtable8.zeroed call.copyF call.freeF)) = some result := by
  unfold HashAdd.run nvipfixHashtable8Add at hrun ⊢
  cases hmalloc : call.memory.mallocTable with
  | false =>
      simp only [tableOrNew, hmalloc] at hrun
      exact .inl (Option.some.inj hrun ▸ rfl)
  | true =>
      simp only [tableOrNew, hmalloc, ↓reduceIte, Option.bind_eq_bind] at hrun ⊢
      obtain ⟨⟨table, found⟩, hadd, hrun⟩ := Option.bind_eq_some_iff.1 hrun
      rw [hadd]
      cases found with
      | none => exact .inl (Option.some.inj hrun ▸ rfl)
      | some a =>
          obtain ⟨node, hnode, hrun⟩ := Option.bind_eq_some_iff.1 hrun
          obtain ⟨stored, hstored, hrun⟩ := Option.bind_eq_some_iff.1 hrun
          by_cases hfailed : call.value ≠ none ∧ stored.value = none
          · rw [if_pos hfailed] at hrun
            exact .inl (Option.some.inj hrun ▸ rfl)
          · rw [if_neg hfailed] at hrun
            dsimp only at hnode hstored
            simp only [Option.bind_some, hnode, hstored, if_neg hfailed]
            exact .inr hrun

/-- **The invariant holds whatever was added.** -/
theorem Hashtable8.Reachable.linked {hashtable : Option Hashtable8}
    (h : Hashtable8.Reachable hashtable) : ∀ table ∈ hashtable, table.Linked := by
  induction h with
  | null => simp
  | @add hashtable call result _ hrun ih =>
      cases hashtable with
      | some table => exact HashAdd.linked_run (ih table rfl) call hrun
      | none =>
          rcases call.run_none hrun with hnone | hrun
          · simp [hnone]
          · exact HashAdd.linked_run (Hashtable8.linked_zeroed _ _) call hrun

end NvIpfix
