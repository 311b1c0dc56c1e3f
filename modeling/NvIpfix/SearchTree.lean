/-
**Binary trees searched by directions.**

A search in a binary tree asks at every node which way to go: `dir : α → Ordering` answers `lt` or
`gt` for a subtree and `eq` for the node itself.  Insertion follows the same directions and hangs a
new leaf where the search fell off the tree; a node that is found stays as it is.  Trees that grow
this way need no order among their nodes for a search to stay right: a leaf is in the way of no
other search.

Main definitions:

* `SearchTree.find`, `SearchTree.insert` — the walk and the insertion along directions;
* `SearchTree.postorder` — the nodes, subtrees first.

Main results:

* `SearchTree.find_insert_self` — **what is inserted is found, unless its place was taken**;
* `SearchTree.find_insert_of_ne` — **an insertion changes no search that does not look for it**;
* `SearchTree.postorder_insert` — an insertion adds its node and nothing else.
-/

import Mathlib.Data.Tree.Basic
import Mathlib.Data.List.Nodup
import Mathlib.Data.List.Perm.Basic

set_option relaxedAutoImplicit false
set_option autoImplicit false

namespace SearchTree

variable {α β : Type*}

/-! ### The walk -/

/-- The node that a search along `dir` ends at. -/
def find (dir : α → Ordering) : BinaryTree α → Option α
  | .nil => none
  | .node a left right =>
      match dir a with
      | .lt => find dir left
      | .gt => find dir right
      | .eq => some a

/-- The tree with a leaf for `new` where the search along `dir` falls off it. -/
def insert (dir : α → Ordering) (new : α) : BinaryTree α → BinaryTree α
  | .nil => .node new .nil .nil
  | .node a left right =>
      match dir a with
      | .lt => .node a (insert dir new left) right
      | .gt => .node a left (insert dir new right)
      | .eq => .node a left right

/-- The nodes of a tree, those of its subtrees first. -/
def postorder : BinaryTree α → List α
  | .nil => []
  | .node a left right => postorder left ++ postorder right ++ [a]

variable {dir dir' : α → Ordering} {new a : α} {t : BinaryTree α}

@[simp] theorem find_nil : find dir .nil = none := rfl

theorem find_node (left right : BinaryTree α) :
    find dir (.node a left right) =
      match dir a with
      | .lt => find dir left
      | .gt => find dir right
      | .eq => some a := rfl

@[simp] theorem insert_nil : insert dir new .nil = .node new .nil .nil := rfl

theorem insert_node (left right : BinaryTree α) :
    insert dir new (.node a left right) =
      match dir a with
      | .lt => .node a (insert dir new left) right
      | .gt => .node a left (insert dir new right)
      | .eq => .node a left right := rfl

@[simp] theorem postorder_nil : postorder (.nil : BinaryTree α) = [] := rfl

@[simp] theorem postorder_node (left right : BinaryTree α) :
    postorder (.node a left right) = postorder left ++ postorder right ++ [a] := rfl

/-- A node that is found is in the tree, and the directions stop at it. -/
theorem mem_of_find (h : find dir t = some a) : a ∈ postorder t ∧ dir a = .eq := by
  induction t with
  | nil => simp at h
  | node b left right ihl ihr =>
      cases hb : dir b with
      | lt =>
          simp only [find_node, hb] at h
          simp [ihl h]
      | gt =>
          simp only [find_node, hb] at h
          simp [ihr h]
      | eq =>
          simp only [find_node, hb, Option.some.injEq] at h
          subst h
          simp [hb]

/-- Directions that agree on the nodes of a tree find the same. -/
theorem find_congr (h : ∀ a ∈ postorder t, dir a = dir' a) : find dir t = find dir' t := by
  induction t with
  | nil => rfl
  | node b left right ihl ihr =>
      simp only [postorder_node, List.mem_append, List.mem_singleton] at h
      rw [find_node, find_node, h b (.inr rfl), ihl fun a ha => h a (.inl (.inl ha)),
        ihr fun a ha => h a (.inl (.inr ha))]

/-! ### Insertion -/

/-- Inserting what is found changes nothing. -/
theorem insert_of_find (h : find dir t = some a) : insert dir new t = t := by
  induction t with
  | nil => simp at h
  | node b left right ihl ihr =>
      cases hb : dir b with
      | lt =>
          simp only [find_node, hb] at h
          simp only [insert_node, hb, ihl h]
      | gt =>
          simp only [find_node, hb] at h
          simp only [insert_node, hb, ihr h]
      | eq => simp only [insert_node, hb]

/-- **What is inserted is found, unless its place was taken.** -/
theorem find_insert_self (hnew : dir new = .eq) :
    find dir (insert dir new t) = some ((find dir t).getD new) := by
  induction t with
  | nil => simp [find_node, hnew]
  | node b left right ihl ihr =>
      cases hb : dir b with
      | lt => simp only [insert_node, find_node, hb, ihl]
      | gt => simp only [insert_node, find_node, hb, ihr]
      | eq => simp only [insert_node, find_node, hb, Option.getD_some]

/-- **An insertion changes no search that does not look for it.** -/
theorem find_insert_of_ne (hnew : dir' new ≠ .eq) :
    find dir' (insert dir new t) = find dir' t := by
  induction t with
  | nil => cases h : dir' new <;> simp_all [find_node]
  | node b left right ihl ihr =>
      cases hb : dir b <;> simp only [insert_node, hb, find_node, ihl, ihr]

/-- An insertion adds its node and nothing else. -/
theorem postorder_insert (h : find dir t = none) :
    (postorder (insert dir new t)).Perm (new :: postorder t) := by
  induction t with
  | nil => simp
  | node b left right ihl ihr =>
      cases hb : dir b with
      | lt =>
          simp only [find_node, hb] at h
          simpa only [insert_node, hb, postorder_node, List.append_assoc, List.cons_append]
            using (ihl h).append_right (postorder right ++ [b])
      | gt =>
          simp only [find_node, hb] at h
          simp only [insert_node, hb, postorder_node, List.append_assoc]
          have hright := ((ihr h).append_right [b]).append_left (postorder left)
          exact hright.trans List.perm_middle
      | eq => simp [find_node, hb] at h

/-! ### Relabelled nodes -/

/-- Relabelling the nodes relabels their traversal. -/
theorem postorder_map (f : α → β) (t : BinaryTree α) :
    postorder (t.map f) = (postorder t).map f := by
  induction t with
  | nil => rfl
  | node b left right ihl ihr => simp [BinaryTree.map, ihl, ihr]

/-- A relabelling that no direction sees relabels what is found. -/
theorem find_map {dir' : β → Ordering} {f : α → β} (hf : ∀ b, dir' (f b) = dir b) :
    find dir' (t.map f) = (find dir t).map f := by
  induction t with
  | nil => rfl
  | node b left right ihl ihr =>
      cases hb : dir b with
      | lt => simp only [BinaryTree.map, find_node, hf, hb, ihl]
      | gt => simp only [BinaryTree.map, find_node, hf, hb, ihr]
      | eq => simp only [BinaryTree.map, find_node, hf, hb, Option.map_some]

/-- A tree has as many nodes as its traversal lists. -/
theorem length_postorder (t : BinaryTree α) : (postorder t).length = t.numNodes := by
  induction t with
  | nil => rfl
  | node b left right ihl ihr =>
      simp only [postorder_node, List.length_append, List.length_singleton, BinaryTree.numNodes,
        ihl, ihr]

end SearchTree
