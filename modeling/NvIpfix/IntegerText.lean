/-
**What the integer parsers store.**

The two macros behind `nvipfix_parse_octet` to `nvipfix_parse_i64` give `strtoull` or `strtoll` no
place to report where it stopped, never look at `errno`, narrow the result with a cast, and return
true.  So they are right exactly on the numerals whose number the destination holds; any other text
succeeds as well, and the destination is overwritten with what a part of the text, a wrapped or a
saturated number leaves after the cast.

Main definitions:

* `NvIpfix.IntegerType` — the numbers of a destination type;
* `NvIpfix.NeverWrong` — what a parser should do with a text;
* `NvIpfix.Fits` — the numerals that a destination holds.

Main results:

* `NvIpfix.neverWrong_parseUint`, `NvIpfix.neverWrong_parseSint` — the two macros at any type;
* `NvIpfix.neverWrong_integers_iff` — **when the eight parsers are right**.
-/

import NvIpfix.IntegerSyntax
import NvIpfix.Parse

set_option relaxedAutoImplicit false
set_option autoImplicit false

namespace NvIpfix

open CNumeral

/-! ### Destination types -/

/-- The numbers of a destination type, from the smallest to the largest. -/
structure IntegerType (α : Type) where
  toInt : α → ℤ
  min : ℤ
  max : ℤ

namespace IntegerType

/-- `nvIPFIX_OCTET` and `nvIPFIX_BYTE`. -/
def octet : IntegerType UInt8 := { toInt := fun x => x.toNat, min := 0, max := 2 ^ 8 - 1 }

/-- `nvIPFIX_U16`. -/
def u16 : IntegerType UInt16 := { toInt := fun x => x.toNat, min := 0, max := 2 ^ 16 - 1 }

/-- `nvIPFIX_U32` and `unsigned`. -/
def u32 : IntegerType UInt32 := { toInt := fun x => x.toNat, min := 0, max := 2 ^ 32 - 1 }

/-- `nvIPFIX_U64`. -/
def u64 : IntegerType UInt64 := { toInt := fun x => x.toNat, min := 0, max := 2 ^ 64 - 1 }

/-- `int`. -/
def int : IntegerType Int32 := { toInt := Int32.toInt, min := -2 ^ 31, max := 2 ^ 31 - 1 }

/-- `nvIPFIX_I64`. -/
def i64 : IntegerType Int64 := { toInt := Int64.toInt, min := -2 ^ 63, max := 2 ^ 63 - 1 }

variable {α : Type} (type : IntegerType α)

/-- The type holds the number. -/
def Holds (z : ℤ) : Prop := type.min ≤ z ∧ z ≤ type.max

end IntegerType

section Parsers

variable {α : Type} {type : IntegerType α} {parseValue : ParseValue α}

/-- The text is a numeral whose number the type holds. -/
def Fits (type : IntegerType α) (s : CString) : Prop := ∃ z, IntegerNumeral s z ∧ type.Holds z

/-- A parser accepts a text exactly if it is a numeral in range, then stores the number, and
otherwise leaves the destination. -/
def NeverWrong (type : IntegerType α) (parseValue : ParseValue α) (s : CString) : Prop :=
  ∀ old, ((parseValue s old).1 = true ↔ Fits type s) ∧
    (∀ z, IntegerNumeral s z → type.Holds z → type.toInt (parseValue s old).2 = z) ∧
    ((parseValue s old).1 = false → (parseValue s old).2 = old)

/-- A parser that accepts every text, and stores numerals in range exactly, is right on these. -/
theorem neverWrong_iff [Inhabited α] {s : CString} (haccept : ∀ old, (parseValue s old).1 = true)
    (hexact : ∀ old z, IntegerNumeral s z → type.Holds z → type.toInt (parseValue s old).2 = z) :
    NeverWrong type parseValue s ↔ Fits type s := by
  constructor
  · intro h
    exact (h default).1.1 (haccept default)
  · intro hfits old
    refine ⟨⟨fun _ => hfits, fun _ => haccept old⟩, hexact old, ?_⟩
    intro hreject
    rw [haccept old] at hreject
    cases hreject

/-- **`NVIPFIX_PARSE_UINT` is right on the numerals in range**, if its cast keeps the numbers of the
type. -/
theorem neverWrong_parseUint [Inhabited α] {cast : UInt64 → α} (hmin : type.min = 0)
    (hmax : type.max < 2 ^ 64)
    (hcast : ∀ n : ℕ, (n : ℤ) ≤ type.max → type.toInt (cast (UInt64.ofNat n)) = n) (s : CString) :
    NeverWrong type (parseUint cast) s ↔ Fits type s := by
  refine neverWrong_iff (fun _ => rfl) ?_
  intro old z hz hholds
  obtain ⟨hlo, hhi⟩ := hholds
  rw [hmin] at hlo
  obtain ⟨n, rfl⟩ := Int.eq_ofNat_of_zero_le hlo
  rw [parseUint, hz.strtoull_eq hlo (by omega), Int.toNat_natCast]
  exact hcast n hhi

/-- **`NVIPFIX_PARSE_INT` is right on the numerals in range**, if its cast keeps the numbers of the
type. -/
theorem neverWrong_parseSint [Inhabited α] {cast : Int64 → α} (hmin : -2 ^ 63 ≤ type.min)
    (hmax : type.max < 2 ^ 63)
    (hcast : ∀ z : ℤ, type.min ≤ z → z ≤ type.max → type.toInt (cast (Int64.ofInt z)) = z)
    (s : CString) : NeverWrong type (parseSint cast) s ↔ Fits type s := by
  refine neverWrong_iff (fun _ => rfl) ?_
  intro old z hz hholds
  obtain ⟨hlo, hhi⟩ := hholds
  rw [parseSint, hz.strtoll_eq (by omega) (by omega)]
  exact hcast z hlo hhi

end Parsers

/-! ### The eight parsers -/

theorem neverWrong_octet (s : CString) :
    NeverWrong .octet parseOctet s ↔ Fits .octet s := by
  refine neverWrong_parseUint rfl (by decide) ?_ s
  intro n hn
  simp only [IntegerType.octet] at hn ⊢
  rw [UInt64.toNat_toUInt8, UInt64.toNat_ofNat']
  omega

theorem neverWrong_u16 (s : CString) : NeverWrong .u16 parseU16 s ↔ Fits .u16 s := by
  refine neverWrong_parseUint rfl (by decide) ?_ s
  intro n hn
  simp only [IntegerType.u16] at hn ⊢
  rw [UInt64.toNat_toUInt16, UInt64.toNat_ofNat']
  omega

theorem neverWrong_u32 (s : CString) : NeverWrong .u32 parseU32 s ↔ Fits .u32 s := by
  refine neverWrong_parseUint rfl (by decide) ?_ s
  intro n hn
  simp only [IntegerType.u32] at hn ⊢
  rw [UInt64.toNat_toUInt32, UInt64.toNat_ofNat']
  omega

theorem neverWrong_u64 (s : CString) : NeverWrong .u64 parseU64 s ↔ Fits .u64 s := by
  refine neverWrong_parseUint rfl (by decide) ?_ s
  intro n hn
  simp only [IntegerType.u64, id] at hn ⊢
  rw [UInt64.toNat_ofNat']
  omega

theorem neverWrong_int (s : CString) : NeverWrong .int parseInt s ↔ Fits .int s := by
  refine neverWrong_parseSint (by decide) (by decide) ?_ s
  intro z hlo hhi
  simp only [IntegerType.int] at hlo hhi ⊢
  rw [Int64.toInt_toInt32, Int64.toInt_ofInt_of_le (by omega) (by omega),
    Int.bmod_eq_of_le (by omega) (by omega)]

theorem neverWrong_i64 (s : CString) : NeverWrong .i64 parseI64 s ↔ Fits .i64 s := by
  refine neverWrong_parseSint (by decide) (by decide) ?_ s
  intro z hlo hhi
  simp only [IntegerType.i64, id] at hlo hhi ⊢
  exact Int64.toInt_ofInt_of_le (by omega) (by omega)

/-- **When the integer parsers are right**: on the numerals whose number the destination holds, and
on no other text. -/
theorem neverWrong_integers_iff (s : CString) :
    (NeverWrong .octet parseOctet s ↔ Fits .octet s) ∧
      (NeverWrong .octet parseByte s ↔ Fits .octet s) ∧
      (NeverWrong .u16 parseU16 s ↔ Fits .u16 s) ∧
      (NeverWrong .u32 parseU32 s ↔ Fits .u32 s) ∧
      (NeverWrong .u64 parseU64 s ↔ Fits .u64 s) ∧
      (NeverWrong .u32 parseUnsigned s ↔ Fits .u32 s) ∧
      (NeverWrong .int parseInt s ↔ Fits .int s) ∧
      (NeverWrong .i64 parseI64 s ↔ Fits .i64 s) :=
  -- `nvipfix_parse_byte` and `nvipfix_parse_unsigned` are the same macro at the same width
  ⟨neverWrong_octet s, neverWrong_octet s, neverWrong_u16 s, neverWrong_u32 s, neverWrong_u64 s,
    neverWrong_u32 s, neverWrong_int s, neverWrong_i64 s⟩

/-- A port number that does not fit is accepted, and another one is stored. -/
theorem neverWrong_portTooLarge :
    IntegerNumeral (ascii "70000") 70000 ∧ parseU16 (ascii "70000") 0 = (true, 4464) ∧
      ¬ NeverWrong .u16 parseU16 (ascii "70000") := by
  have hconstant : Constant (ascii "70000") 70000 :=
    .decimal (by decide) (by decide) (by
      intro c hc
      refine ⟨hexValue c, ?_⟩
      revert c
      decide)
  have hstored : parseU16 (ascii "70000") 0 = (true, 4464) := by decide
  refine ⟨.unsigned hconstant, hstored, ?_⟩
  intro h
  obtain ⟨z, hz, hholds⟩ := (h 0).1.1 (by rw [hstored])
  have hvalue := (h 0).2.1 z hz hholds
  -- what is stored is in range, but it is not what the text writes
  have hread := hz.strtoull_eq hholds.1 (hholds.2.trans_lt (by decide))
  rw [hstored] at hvalue
  obtain rfl : z = 4464 := hvalue.symm
  exact absurd hread (by decide)

end NvIpfix
