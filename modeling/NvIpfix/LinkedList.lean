/-
**Doubly linked lists in memory.**

An item has a value and two links, and a list is known by its first and its last item.  Memory is a
function of addresses, and a stretch of a list is a walk through it: each item links to the next one
and back to the one before.  An item that is put behind the last one changes one link of one other
item.

A program only follows links: a walk over a list passes its items in order, or in reverse, and ends.
A loop that releases the items reads a link before the item is gone.  A caller that adds values in
turn keeps the list that it has whenever an addition fails.

Main definitions:

* `LinkedList.Node`, `LinkedList.Heap` — an item, and the items in memory;
* `LinkedList.Segment` — a stretch of a list;
* `LinkedList.IsList` — a whole list, whose items are different;
* `LinkedList.push` — putting an item behind the last one;
* `LinkedList.walk`, `LinkedList.releaseLoop` — loops that follow links;
* `LinkedList.WalksOver` — what the walks from both ends of a list pass;
* `LinkedList.addInTurn` — a caller that adds values in turn.

Main results:

* `LinkedList.Segment.congr` — a stretch depends on its own items only;
* `LinkedList.Segment.snoc_iff` — the last item of a stretch;
* `LinkedList.IsList.push` — **an item that is pushed is the last of the list**;
* `LinkedList.IsList.walksOver` — **walks pass all items once**;
* `LinkedList.Segment.releaseLoop_eq` — **each item is released once**;
* `LinkedList.addInTurn_induction` — what each addition keeps is kept by all.
-/

import Mathlib.Data.List.Induction
import Mathlib.Data.List.Nodup
import Mathlib.Data.List.Perm.Subperm
import Mathlib.Logic.Function.Basic

set_option relaxedAutoImplicit false
set_option autoImplicit false

namespace LinkedList

variable {Loc α : Type*}

/-- An item with its links. -/
structure Node (Loc α : Type*) where
  value : α
  next : Option Loc
  prev : Option Loc

/-- The items in memory. -/
abbrev Heap (Loc α : Type*) := Loc → Option (Node Loc α)

/-- A stretch of a list, given by the addresses and values of its items: the item before it, its
first item, and its last item, the item behind it. -/
inductive Segment (heap : Heap Loc α) :
    Option Loc → Option Loc → List (Loc × α) → Option Loc → Option Loc → Prop
  | nil (prev next : Option Loc) : Segment heap prev next [] prev next
  | cons {prev next last after : Option Loc} {p : Loc} {v : α} {items : List (Loc × α)} :
      heap p = some { value := v, next, prev } → Segment heap (some p) next items last after →
        Segment heap prev (some p) ((p, v) :: items) last after

/-! ### Stretches -/

section Segment

variable {heap heap' : Heap Loc α} {prev first last after : Option Loc} {items : List (Loc × α)}

/-- A stretch depends on its own items only. -/
theorem Segment.congr (h : Segment heap prev first items last after)
    (hsame : ∀ item ∈ items, heap' item.1 = heap item.1) :
    Segment heap' prev first items last after := by
  induction h with
  | nil prev next => exact .nil prev next
  | cons hnode _ ih =>
      refine .cons ?_ (ih fun item hitem => hsame item (List.mem_cons_of_mem _ hitem))
      rw [hsame _ List.mem_cons_self, hnode]

/-- The items of a stretch are in memory. -/
theorem Segment.exists_node (h : Segment heap prev first items last after) :
    ∀ item ∈ items, ∃ next prev, heap item.1 = some { value := item.2, next, prev } := by
  induction h with
  | nil prev next =>
      intro item hitem
      cases hitem
  | @cons prev next _ _ p v _ hnode _ ih =>
      intro item hitem
      rcases List.mem_cons.1 hitem with rfl | hitem
      · exact ⟨next, prev, hnode⟩
      · exact ih item hitem

theorem Segment.isSome (h : Segment heap prev first items last after) :
    ∀ item ∈ items, (heap item.1).isSome := by
  intro item hitem
  obtain ⟨next, prev, hnode⟩ := h.exists_node item hitem
  rw [hnode, Option.isSome_some]

/-- The last item of a stretch is linked to what is behind the stretch. -/
theorem Segment.snoc_iff {p : Loc} {v : α} :
    Segment heap prev first (items ++ [(p, v)]) last after ↔
      last = some p ∧ ∃ before, heap p = some { value := v, next := after, prev := before } ∧
        Segment heap prev first items before (some p) := by
  constructor
  · intro h
    induction items generalizing prev first with
    | nil =>
        cases h with
        | cons hnode hrest =>
            cases hrest with
            | nil => exact ⟨rfl, prev, hnode, .nil prev _⟩
    | cons item items ih =>
        cases h with
        | cons hnode hrest =>
            obtain ⟨hlast, before, hlastNode, hsegment⟩ := ih hrest
            exact ⟨hlast, before, hlastNode, .cons hnode hsegment⟩
  · rintro ⟨rfl, before, hnode, h⟩
    induction items generalizing prev first with
    | nil =>
        cases h with
        | nil => exact .cons hnode (.nil _ _)
    | cons item items ih =>
        cases h with
        | cons hfirst hrest => exact .cons hfirst (ih hrest)

end Segment

/-! ### Lists -/

/-- A whole list, from its first item to its last one. -/
structure IsList (heap : Heap Loc α) (head tail : Option Loc) (items : List (Loc × α)) : Prop where
  segment : Segment heap none head items tail none
  nodup : (items.map Prod.fst).Nodup

section IsList

variable {heap : Heap Loc α} {head tail : Option Loc} {items : List (Loc × α)}

/-- The empty list. -/
theorem IsList.nil (heap : Heap Loc α) : IsList heap none none [] :=
  ⟨.nil none none, List.nodup_nil⟩

/-- A list depends on its own items only. -/
theorem IsList.congr {heap' : Heap Loc α} (h : IsList heap head tail items)
    (hsame : ∀ item ∈ items, heap' item.1 = heap item.1) : IsList heap' head tail items :=
  ⟨h.segment.congr hsame, h.nodup⟩

/-- The last item is in memory. -/
theorem IsList.isSome_tail (h : IsList heap head tail items) (hne : items ≠ []) :
    ∃ t, tail = some t ∧ (heap t).isSome ∧ t ∈ items.map Prod.fst := by
  obtain ⟨init, ⟨t, v⟩, rfl⟩ := List.eq_nil_or_concat' items |>.resolve_left hne
  obtain ⟨htail, before, hnode, -⟩ := Segment.snoc_iff.1 h.segment
  exact ⟨t, htail, by rw [hnode, Option.isSome_some], by simp⟩

/-- An address from `n` on is that of no item, if all items have addresses below. -/
theorem not_mem_of_allocated {items : List (ℕ × α)} {n : ℕ} (h : ∀ item ∈ items, item.1 < n) :
    n ∉ items.map Prod.fst := by
  intro hmem
  obtain ⟨item, hitem, heq⟩ := List.mem_map.1 hmem
  have hlt := h item hitem
  omega

/-- Items at different addresses below `n` are not more than `n`. -/
theorem length_le_of_allocated {items : List (ℕ × α)} {n : ℕ} (hnodup : (items.map Prod.fst).Nodup)
    (h : ∀ item ∈ items, item.1 < n) : items.length ≤ n := by
  have hsubset : items.map Prod.fst ⊆ List.range n := by
    intro p hp
    obtain ⟨item, hitem, rfl⟩ := List.mem_map.1 hp
    exact List.mem_range.2 (h item hitem)
  have hle := (List.subperm_of_subset hnodup hsubset).length_le
  rwa [List.length_map, List.length_range] at hle

/-- One more item, at an address from which on there was none. -/
theorem allocated_append {items : List (ℕ × α)} {n m : ℕ} (h : ∀ item ∈ items, item.1 < n)
    (hlt : n < m) (value : α) : ∀ item ∈ items ++ [(n, value)], item.1 < m := by
  intro item hmem
  rcases List.mem_append.1 hmem with hmem | hmem
  · exact Nat.lt_trans (h item hmem) hlt
  · obtain rfl := List.mem_singleton.1 hmem
    exact hlt

variable [DecidableEq Loc]

/-- Putting an item behind the last one: its link back, and the link of the last one to it. -/
def push (heap : Heap Loc α) (tail : Option Loc) (p : Loc) (value : α) : Heap Loc α :=
  let heap := match tail with
    | none => heap
    | some t => Function.update heap t ((heap t).map fun node => { node with next := some p })
  Function.update heap p (some { value, next := none, prev := tail })

/-- Other items stay as they are. -/
theorem push_of_ne {p q : Loc} {value : α} (hp : q ≠ p) (htail : some q ≠ tail) :
    push heap tail p value q = heap q := by
  unfold push
  rw [Function.update_of_ne hp]
  cases tail with
  | none => rfl
  | some t => exact Function.update_of_ne (fun heq => htail (congrArg some heq)) _ _

/-- **An item that is pushed is the last of the list.** -/
theorem IsList.push (h : IsList heap head tail items) {p : Loc} (value : α)
    (hfresh : p ∉ items.map Prod.fst) :
    IsList (push heap tail p value) (if items = [] then some p else head) (some p)
      (items ++ [(p, value)]) := by
  obtain ⟨hsegment, hnodup⟩ := h
  refine ⟨Segment.snoc_iff.2 ⟨rfl, tail, ?_, ?_⟩, ?_⟩
  · exact Function.update_self p _ _
  · rcases List.eq_nil_or_concat' items with rfl | ⟨init, ⟨t, v⟩, rfl⟩
    · cases hsegment with
      | nil => exact .nil none (some p)
    · -- only the last item has changed
      rw [if_neg (by simp)]
      obtain ⟨rfl, before, hnode, hinit⟩ := Segment.snoc_iff.1 hsegment
      rw [List.map_append, List.map_singleton] at hfresh hnodup
      have htp : t ≠ p := by
        rintro rfl
        exact hfresh (List.mem_append_right _ List.mem_cons_self)
      refine Segment.snoc_iff.2 ⟨rfl, before, ?_, hinit.congr ?_⟩
      · rw [LinkedList.push, Function.update_of_ne htp, Function.update_self, hnode,
          Option.map_some]
      · intro item hitem
        have hmem := List.mem_map_of_mem (f := Prod.fst) hitem
        refine push_of_ne ?_ ?_
        · rintro rfl
          exact hfresh (List.mem_append_left _ hmem)
        · intro heq
          have hdisjoint := (List.nodup_append'.1 hnodup).2.2
          exact hdisjoint hmem (List.mem_singleton.2 (Option.some_inj.1 heq))
  · rw [List.map_append, List.map_singleton, List.nodup_append']
    exact ⟨hnodup, List.nodup_singleton p, by simpa using hfresh⟩

end IsList

/-! ### Walks -/

/-- The items on a walk that follows one link of each item, if it ends within `fuel` items. -/
def walk (heap : Heap Loc α) (link : Node Loc α → Option Loc) :
    ℕ → Option Loc → Option (List (Loc × α))
  | _, none => some []
  | 0, some _ => none
  | fuel + 1, some p =>
      match heap p with
      | none => none
      | some node => (walk heap link fuel (link node)).map ((p, node.value) :: ·)

section Walk

variable {heap : Heap Loc α} {link : Node Loc α → Option Loc} {prev first last after : Option Loc}
  {items : List (Loc × α)} {fuel : ℕ}

@[simp] theorem walk_none : walk heap link fuel none = some [] := by cases fuel <;> rfl

/-- One item of a walk. -/
theorem walk_some {p : Loc} {node : Node Loc α} {rest : List (Loc × α)} (hnode : heap p = some node)
    (hrest : walk heap link fuel (link node) = some rest) :
    walk heap link (fuel + 1) (some p) = some ((p, node.value) :: rest) := by
  simp only [walk, hnode, hrest, Option.map_some]

/-- The walk from the first item of a stretch with nothing behind it. -/
theorem Segment.walk_next (h : Segment heap prev first items last none)
    (hfuel : items.length ≤ fuel) : walk heap Node.next fuel first = some items := by
  induction items generalizing prev first fuel with
  | nil =>
      cases h with
      | nil => exact walk_none
  | cons item rest ih =>
      cases h with
      | cons hnode hrest =>
          obtain ⟨fuel, rfl⟩ := Nat.exists_eq_add_of_le' (Nat.one_le_of_lt hfuel)
          exact walk_some hnode (ih hrest (Nat.le_of_succ_le_succ hfuel))

/-- The walk from the last item of a stretch with nothing before it. -/
theorem Segment.walk_prev (h : Segment heap none first items last after)
    (hfuel : items.length ≤ fuel) : walk heap Node.prev fuel last = some items.reverse := by
  induction items using List.reverseRecOn generalizing last after fuel with
  | nil =>
      cases h with
      | nil => exact walk_none
  | append_singleton items item ih =>
      rw [List.length_append, List.length_singleton] at hfuel
      obtain ⟨rfl, before, hnode, hrest⟩ := Segment.snoc_iff.1 h
      obtain ⟨fuel, rfl⟩ := Nat.exists_eq_add_of_le' (Nat.le_of_add_left_le hfuel)
      rw [List.reverse_append, List.reverse_singleton, List.singleton_append]
      exact walk_some hnode (ih hrest (Nat.le_of_succ_le_succ hfuel))

variable {head tail : Option Loc}

/-- The walks from both ends of a list pass some items, each once, and end behind them. -/
structure WalksOver (heap : Heap Loc α) (head tail : Option Loc) (items : List (Loc × α)) :
    Prop where
  nodup : (items.map Prod.fst).Nodup
  walk_next : ∀ fuel, items.length ≤ fuel → walk heap Node.next fuel head = some items
  walk_prev : ∀ fuel, items.length ≤ fuel → walk heap Node.prev fuel tail = some items.reverse

/-- **The walks over a list** pass its items, in order from the head and in reverse from the
tail. -/
theorem IsList.walksOver (h : IsList heap head tail items) : WalksOver heap head tail items where
  nodup := h.nodup
  walk_next _ hfuel := h.segment.walk_next hfuel
  walk_prev _ hfuel := h.segment.walk_prev hfuel

end Walk

/-! ### Releasing the items -/

section Release

variable {σ : Type*} (heapOf : σ → Heap Loc α) (release : σ → Loc × α → σ) (stuck : σ → σ)

/-- A loop that reads the link of an item to the next one before it releases the item, and is stuck
at an item that is not there. -/
def releaseLoop : ℕ → Option Loc → σ → σ
  | _, none, s => s
  | 0, some _, s => stuck s
  | fuel + 1, some p, s =>
      match heapOf s p with
      | none => stuck s
      | some node => releaseLoop fuel node.next (release s (p, node.value))

variable {heapOf release} [DecidableEq Loc]

/-- **Each item is released once**, in order, if its release takes it away and no other. -/
theorem Segment.releaseLoop_eq {prev first last : Option Loc} {items : List (Loc × α)} {fuel : ℕ}
    (hrelease : ∀ s item, heapOf (release s item) = Function.update (heapOf s) item.1 none) {s : σ}
    (h : Segment (heapOf s) prev first items last none) (hnodup : (items.map Prod.fst).Nodup)
    (hfuel : items.length ≤ fuel) :
    releaseLoop heapOf release stuck fuel first s = items.foldl release s := by
  induction items generalizing prev first fuel s with
  | nil =>
      cases h with
      | nil => cases fuel <;> rfl
  | cons item rest ih =>
      obtain ⟨fuel, rfl⟩ := Nat.exists_eq_add_of_le' (Nat.one_le_of_lt hfuel)
      rw [List.map_cons, List.nodup_cons] at hnodup
      cases h with
      | @cons _ next _ _ p value _ hnode hrest =>
          have hrest' : Segment (heapOf (release s (p, value))) (some p) next rest last none := by
            refine hrest.congr fun other hother => ?_
            rw [hrelease]
            refine Function.update_of_ne (fun heq => ?_) _ _
            exact hnodup.1 (List.mem_map.2 ⟨other, hother, heq⟩)
          simp only [releaseLoop, hnode, List.foldl_cons]
          exact ih hrest' hnodup.2 (Nat.le_of_succ_le_succ hfuel)

/-- The items that are released are gone, and no other. -/
theorem heapOf_foldl_release
    (hrelease : ∀ s item, heapOf (release s item) = Function.update (heapOf s) item.1 none)
    (items : List (Loc × α)) (s : σ) (p : Loc) :
    heapOf (items.foldl release s) p = if p ∈ items.map Prod.fst then none else heapOf s p := by
  induction items generalizing s with
  | nil => simp
  | cons item rest ih =>
      rw [List.foldl_cons, ih, hrelease]
      by_cases hp : p = item.1
      · simp [hp]
      · have hiff : p ∈ (item :: rest).map Prod.fst ↔ p ∈ rest.map Prod.fst := by
          rw [List.map_cons, List.mem_cons, or_iff_right hp]
        rw [Function.update_of_ne hp]
        exact if_congr hiff.symm rfl rfl

/-- What the release of an item in memory keeps is kept by the release of different ones. -/
theorem foldl_release_keeps {β : Type*} {read : σ → β}
    (hrelease : ∀ s item, heapOf (release s item) = Function.update (heapOf s) item.1 none)
    (hkeep : ∀ s item, (heapOf s item.1).isSome → read (release s item) = read s)
    {items : List (Loc × α)} (hnodup : (items.map Prod.fst).Nodup) {s : σ}
    (hlive : ∀ item ∈ items, (heapOf s item.1).isSome) :
    read (items.foldl release s) = read s := by
  induction items generalizing s with
  | nil => rfl
  | cons item rest ih =>
      rw [List.map_cons, List.nodup_cons] at hnodup
      rw [List.foldl_cons, ih hnodup.2, hkeep s item (hlive item List.mem_cons_self)]
      intro other hother
      have hne : other.1 ≠ item.1 := fun heq => hnodup.1 (List.mem_map.2 ⟨other, hother, heq⟩)
      rw [hrelease, Function.update_of_ne hne]
      exact hlive other (List.mem_cons_of_mem _ hother)

end Release

/-! ### Adding values in turn -/

section AddAll

variable {σ : Type*} (add : Option Loc → α → σ → Option Loc × σ)

/-- A caller that adds values in turn, and keeps its list when no list is returned: the list in the
end, the values that were added, and the state. -/
def addInTurn : Option Loc → List α → σ → Option Loc × List α × σ
  | list, [], s => (list, [], s)
  | list, value :: values, s =>
      match add list value s with
      | (none, s) => addInTurn list values s
      | (some a, s) =>
          let (list, added, s) := addInTurn (some a) values s
          (list, value :: added, s)

/-- The values that are added are some of the values, in their order. -/
theorem addInTurn_sublist (list : Option Loc) (values : List α) (s : σ) :
    (addInTurn add list values s).2.1.Sublist values := by
  induction values generalizing list s with
  | nil => exact List.Sublist.slnil
  | cons value values ih =>
      rw [addInTurn]
      rcases add list value s with ⟨_ | a, s'⟩
      · exact (ih list s').cons value
      · exact (ih (some a) s').cons_cons value

variable {add}

/-- **What each addition keeps is kept by all.** -/
theorem addInTurn_induction (Inv : Option Loc → List α → σ → Prop)
    (hstep : ∀ list added value s, Inv list added s →
      ((add list value s).1 = none → Inv list added (add list value s).2) ∧
        ∀ a ∈ (add list value s).1, Inv (some a) (added ++ [value]) (add list value s).2)
    (values : List α) {list : Option Loc} {added : List α} {s : σ} (h : Inv list added s) :
    Inv (addInTurn add list values s).1 (added ++ (addInTurn add list values s).2.1)
      (addInTurn add list values s).2.2 := by
  induction values generalizing list added s with
  | nil =>
      rw [addInTurn, List.append_nil]
      exact h
  | cons value values ih =>
      obtain ⟨hfailed, hadded⟩ := hstep list added value s h
      rw [addInTurn]
      rcases hresult : add list value s with ⟨_ | a, s'⟩
      · rw [hresult] at hfailed
        exact ih (hfailed rfl)
      · rw [hresult] at hadded
        have hrest := ih (hadded a rfl)
        rwa [List.append_assoc, List.singleton_append] at hrest

/-- All values are added if no addition fails. -/
theorem addInTurn_added (hadd : ∀ list value s, (add list value s).1 ≠ none) (list : Option Loc)
    (values : List α) (s : σ) : (addInTurn add list values s).2.1 = values := by
  induction values generalizing list s with
  | nil => rfl
  | cons value values ih =>
      have hsome := hadd list value s
      rw [addInTurn]
      rcases hresult : add list value s with ⟨_ | a, s'⟩
      · rw [hresult] at hsome
        exact absurd rfl hsome
      · exact congrArg (value :: ·) (ih (some a) s')

end AddAll

end LinkedList
