/-
**Structs in memory, and what reads them piece by piece.**

A struct keeps its members in their order, each at a multiple of its alignment, and takes a multiple
of its own alignment itself.  What reads it by a list of lengths knows nothing of alignments: it
takes so many octets for the first piece, so many for the next, and fails if there are too few.  The
two agree on a struct without padding between its members, whatever is behind the last, if and only
if the lengths are those of the members.

The module also has numbers as octets, in either order.

Main definitions:

* `StructImage.StructMember`, `StructImage.struct` — a struct in memory;
* `StructImage.Packed` — a struct without padding between its members;
* `StructImage.pieces` — reading by lengths;
* `StructImage.ByteOrder.octets`, `StructImage.ByteOrder.value` — numbers as octets.

Main results:

* `StructImage.pieces_struct_iff` — **reading by lengths gives the members if and only if the
  lengths are theirs**;
* `StructImage.ByteOrder.value_octets` — a number that fits is read back.
-/

import Mathlib.Data.List.SplitLengths
import Mathlib.Data.Nat.Digits.Defs

set_option relaxedAutoImplicit false
set_option autoImplicit false

namespace StructImage

/-! ### Structs -/

section Structs

variable {α : Type*}

/-- A member of a struct: its alignment, and its octets. -/
structure StructMember (α : Type*) where
  align : ℕ
  octets : List α

/-- How much there is from an offset to the next multiple of an alignment. -/
def padding (align offset : ℕ) : ℕ := (align - offset % align) % align

/-- Members from an offset on, each at a multiple of its alignment. -/
def image (fill : α) : ℕ → List (StructMember α) → List α
  | _, [] => []
  | offset, m :: ms =>
      List.replicate (padding m.align offset) fill ++ m.octets ++
        image fill (offset + padding m.align offset + m.octets.length) ms

/-- A struct takes a multiple of its alignment. -/
def struct (fill : α) (align : ℕ) (ms : List (StructMember α)) : List α :=
  image fill 0 ms ++ List.replicate (padding align (image fill 0 ms).length) fill

/-- Every member is where the one before it ends. -/
def Packed : ℕ → List (StructMember α) → Prop
  | _, [] => True
  | offset, m :: ms => m.align ∣ offset ∧ Packed (offset + m.octets.length) ms

/-- Pieces of the given lengths, one behind the other, if there is enough for them. -/
def pieces (lengths : List ℕ) (octets : List α) : Option (List (List α)) :=
  if lengths.sum ≤ octets.length then some (lengths.splitLengths octets) else none

theorem padding_eq_zero {align offset : ℕ} (h : align ∣ offset) : padding align offset = 0 := by
  rw [padding, Nat.mod_eq_zero_of_dvd h, Nat.sub_zero, Nat.mod_self]

/-- A packed struct is what its members are together. -/
theorem Packed.image_eq {offset : ℕ} {ms : List (StructMember α)} (h : Packed offset ms)
    (fill : α) : image fill offset ms = (ms.map StructMember.octets).flatten := by
  induction ms generalizing offset with
  | nil => rfl
  | cons m ms ih =>
      obtain ⟨hfirst, hrest⟩ := h
      rw [image, padding_eq_zero hfirst, List.replicate_zero, List.nil_append, Nat.add_zero,
        ih hrest, List.map_cons, List.flatten_cons]

/-- Pieces are found again in front of anything. -/
theorem splitLengths_flatten_append (parts : List (List α)) (rest : List α) :
    (parts.map List.length).splitLengths (parts.flatten ++ rest) = parts := by
  induction parts with
  | nil => rfl
  | cons part parts ih =>
      rw [List.map_cons, List.splitLengths_cons, List.flatten_cons, List.append_assoc,
        List.take_left, List.drop_left, ih]

theorem pieces_flatten_append (parts : List (List α)) (rest : List α) :
    pieces (parts.map List.length) (parts.flatten ++ rest) = some parts := by
  have hle : (parts.map List.length).sum ≤ (parts.flatten ++ rest).length := by
    rw [List.length_append, List.length_flatten]
    exact Nat.le_add_right _ _
  rw [pieces, if_pos hle, splitLengths_flatten_append]

/-- Pieces have the lengths that they are read by. -/
theorem map_length_of_pieces {lengths : List ℕ} {octets : List α} {parts : List (List α)}
    (h : pieces lengths octets = some parts) : parts.map List.length = lengths := by
  rw [pieces] at h
  split at h
  next hle =>
    obtain rfl := Option.some.inj h
    exact List.map_splitLengths_length octets lengths hle
  next => cases h

/-- **Reading by lengths gives the members if and only if the lengths are theirs**, for a struct
without padding between its members. -/
theorem pieces_struct_iff {ms : List (StructMember α)} (hpacked : Packed 0 ms) (fill : α)
    (align : ℕ) (lengths : List ℕ) :
    pieces lengths (struct fill align ms) = some (ms.map StructMember.octets) ↔
      lengths = ms.map fun m => m.octets.length := by
  have hlengths : (ms.map fun m => m.octets.length) =
      (ms.map StructMember.octets).map List.length := by
    rw [List.map_map]
    rfl
  rw [hlengths]
  constructor
  · intro h
    exact (map_length_of_pieces h).symm
  · rintro rfl
    rw [struct, hpacked.image_eq, pieces_flatten_append]

end Structs

/-! ### Numbers -/

/-- The order of the octets of a number. -/
inductive ByteOrder
  | little
  | big
  deriving DecidableEq, Repr

/-- The last octets of a number, the last one first. -/
def littleEndian : ℕ → ℕ → List UInt8
  | 0, _ => []
  | count + 1, x => UInt8.ofNat x :: littleEndian count (x / 256)

theorem length_littleEndian (count x : ℕ) : (littleEndian count x).length = count := by
  induction count generalizing x with
  | zero => rfl
  | succ count ih => rw [littleEndian, List.length_cons, ih]

theorem ofDigits_littleEndian (count x : ℕ) :
    Nat.ofDigits 256 ((littleEndian count x).map UInt8.toNat) = x % 256 ^ count := by
  induction count generalizing x with
  | zero => rw [littleEndian, List.map_nil, Nat.ofDigits_nil, Nat.pow_zero, Nat.mod_one]
  | succ count ih =>
      have hlow : (UInt8.ofNat x).toNat = x % 256 := by simp
      rw [littleEndian, List.map_cons, Nat.ofDigits_cons, ih, hlow, Nat.pow_succ,
        Nat.mul_comm (256 ^ count), Nat.mod_mul]

/-- The last octets of a number. -/
def ByteOrder.octets : ByteOrder → ℕ → ℕ → List UInt8
  | little, count, x => littleEndian count x
  | big, count, x => (littleEndian count x).reverse

/-- The number of octets. -/
def ByteOrder.value : ByteOrder → List UInt8 → ℕ
  | little, octets => Nat.ofDigits 256 (octets.map UInt8.toNat)
  | big, octets => Nat.ofDigits 256 (octets.reverse.map UInt8.toNat)

@[simp] theorem ByteOrder.length_octets (order : ByteOrder) (count x : ℕ) :
    (order.octets count x).length = count := by
  cases order with
  | little => exact length_littleEndian count x
  | big => exact List.length_reverse.trans (length_littleEndian count x)

/-- **A number that fits is read back.** -/
theorem ByteOrder.value_octets (order : ByteOrder) {count x : ℕ} (h : x < 256 ^ count) :
    order.value (order.octets count x) = x := by
  cases order with
  | little => rw [octets, value, ofDigits_littleEndian, Nat.mod_eq_of_lt h]
  | big => rw [octets, value, List.reverse_reverse, ofDigits_littleEndian, Nat.mod_eq_of_lt h]

end StructImage
