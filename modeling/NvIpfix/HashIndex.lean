/-
**The bucket of a key.**

`nodes` is an array of `UINT8_MAX` roots, and `nvipfix_hashtable8_free` goes through as many, but
the hash is any octet: 255 has no root.  A bit of the hash is the parity of the positions of the key
at which the octet and its position add up to a number with that bit, so the keys without a root are
those with an odd number of such positions for every bit.

Main definitions:

* `bitPositions` — the positions of a key that count for a bit;
* `HasBucket` — the table can be searched for a key, and freeing it visits the key's bucket.

Main results:

* `testBit_hash` — the bits of the hash;
* `hasBucket_iff` — **which keys have a bucket**.
-/

import NvIpfix.HashChanges
import NvIpfix.HashTableOwnership

set_option relaxedAutoImplicit false
set_option autoImplicit false

namespace NvIpfix

/-- The number of positions at which the octet and the position add up to a number with the bit. -/
def bitPositions (key : List UInt8) (bit : ℕ) : ℕ :=
  key.zipIdx.countP fun p => (p.1.toNat + p.2).testBit bit

/-- The root that the hash leads to is in every table, whatever it is searched for, and it is among
those that `nvipfix_hashtable8_free` visits. -/
structure HasBucket (key : List UInt8) : Prop where
  searched : ∀ table, Hashtable8.Reachable (some table) → ∀ shouldAdd memory,
    (nvipfixHashtable8GetOrAdd table key shouldAdd memory).isSome
  visited : nvipfixHashtable8Hash key ∈ bucketHashes

/-- One octet more. -/
theorem hash_append (key : List UInt8) (octet : UInt8) :
    nvipfixHashtable8Hash (key ++ [octet]) =
      nvipfixHashtable8Hash key ^^^ (octet + UInt8.ofNat key.length) := by
  simp [nvipfixHashtable8Hash, List.zipIdx_append]

/-- **A bit of the hash is a parity.** -/
theorem testBit_hash (key : List UInt8) {bit : ℕ} (hbit : bit < 8) :
    (nvipfixHashtable8Hash key).toNat.testBit bit = decide (bitPositions key bit % 2 = 1) := by
  induction key using List.reverseRecOn with
  | nil => simp [nvipfixHashtable8Hash, bitPositions]
  | append_singleton key octet ih =>
      have hcount : bitPositions (key ++ [octet]) bit = bitPositions key bit +
          if (octet.toNat + key.length).testBit bit then 1 else 0 := by
        simp [bitPositions, List.zipIdx_append, List.countP_cons]
      have hoctet : (octet + UInt8.ofNat key.length).toNat.testBit bit =
          (octet.toNat + key.length).testBit bit := by
        rw [UInt8.toNat_add, UInt8.toNat_ofNat', Nat.add_mod_mod, Nat.testBit_mod_two_pow,
          decide_eq_true hbit, Bool.true_and]
      rw [hash_append, UInt8.toNat_xor, Nat.testBit_xor, ih, hoctet, hcount]
      cases (octet.toNat + key.length).testBit bit with
      | false => simp
      | true =>
          rcases Nat.mod_two_eq_zero_or_one (bitPositions key bit) with h | h
          · simp [h, Nat.add_mod]
          · simp [h, Nat.add_mod]

/-- An octet is 255 when it has all bits. -/
theorem eq_255_iff (octet : UInt8) : octet = 255 ↔ ∀ bit < 8, octet.toNat.testBit bit = true := by
  constructor
  · rintro rfl
    decide
  · intro h
    refine UInt8.toNat_inj.1 (Nat.eq_of_testBit_eq fun bit => ?_)
    have hmax : (255 : UInt8).toNat = 2 ^ 8 - 1 := rfl
    rw [hmax, Nat.testBit_two_pow_sub_one]
    by_cases hbit : bit < 8
    · rw [h bit hbit, decide_eq_true hbit]
    · have hlt : octet.toNat < 2 ^ bit :=
        octet.toNat_lt.trans_le (Nat.pow_le_pow_right (by omega) (by omega))
      rw [Nat.testBit_lt_two_pow hlt, decide_eq_false hbit]

theorem hash_lt_iff (key : List UInt8) : nvipfixHashtable8Hash key < 255 ↔
    ∃ bit < 8, Even (bitPositions key bit) := by
  have hne : nvipfixHashtable8Hash key < 255 ↔ nvipfixHashtable8Hash key ≠ 255 := by
    rw [UInt8.lt_iff_toNat_lt, ne_eq, ← UInt8.toNat_inj]
    have hlt := (nvipfixHashtable8Hash key).toNat_lt
    have hmax : (255 : UInt8).toNat = 255 := rfl
    omega
  rw [hne, ne_eq, eq_255_iff]
  push Not
  refine exists_congr fun bit => and_congr_right fun hbit => ?_
  rw [testBit_hash key hbit, Nat.even_iff]
  simp

/-- **Which keys have a bucket**: for some bit of an octet, the number of positions of the key at
which the octet and its position add up to a number with this bit is even. -/
theorem hasBucket_iff (key : List UInt8) :
    HasBucket key ↔ ∃ bit < 8, Even (bitPositions key bit) := by
  rw [← hash_lt_iff]
  constructor
  · intro h
    exact mem_bucketHashes.1 h.visited
  · intro hlt
    refine ⟨fun table hreach shouldAdd memory => ?_, mem_bucketHashes.2 hlt⟩
    have h : table.Linked := hreach.linked table rfl
    obtain ⟨root, hroot⟩ := Option.isSome_iff_exists.1 ((h.root _).2 hlt)
    cases shouldAdd with
    | false =>
        rw [getOrAdd_false_eq]
        rcases h.exists_grown memory hroot with ⟨-, hlocate, -⟩ | ⟨table', a, node, -, horigin, -⟩
        · rw [hlocate]
          rfl
        · cases horigin with
          | found hrootKey hlocate => rw [hlocate]; rfl
          | taken hmalloc hrootKey hlocate => rw [hlocate]; rfl
          | hung hmalloc hrootKey hlocate => rw [hlocate]; rfl
    | true =>
        rcases h.exists_grown memory hroot with ⟨-, -, hadd⟩ | ⟨table', a, node, -, -, hadd⟩
        · rw [hadd]
          rfl
        · rw [hadd]
          rfl

/-- The key of one octet 255 has none: it is looked for behind the array, and not visited. -/
theorem hasBucket_255 : nvipfixHashtable8Hash [255] = 255 ∧ ¬ HasBucket [255] ∧
    (255 : UInt8) ∉ bucketHashes ∧
    nvipfixHashtable8GetOrAdd (Hashtable8.zeroed none false) [255] true {} = none := by
  have hhash : nvipfixHashtable8Hash [255] = 255 := rfl
  have hnot : (255 : UInt8) ∉ bucketHashes := by simp
  refine ⟨hhash, fun h => ?_, hnot, rfl⟩
  have hvisited := h.visited
  rw [hhash] at hvisited
  exact hnot hvisited

end NvIpfix
