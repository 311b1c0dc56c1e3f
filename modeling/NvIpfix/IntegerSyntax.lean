/-
**The syntax of integer numerals.**

`strtoull` and `strtoll` in base `0` read a sign and an integer constant of the language, whose base
its beginning shows: digits that do not begin with `0` are decimal, digits behind a `0` are octal,
and digits behind `0x` or `0X` are hexadecimal.  This module states which texts are such numerals as
a whole, and what they write; the functions of the C library restore it where it fits.  A decimal
numeral with a leading zero is none of them: it is read as octal, up to its first `8` or `9`.

Main definitions:

* `CNumeral.AllDigits`, `CNumeral.digitsValue` — digits of a base, and the number they write;
* `CNumeral.Constant` — unsigned integer constants;
* `CNumeral.IntegerNumeral` — integer constants with an optional sign;
* `CNumeral.Numeral.ReadsDecimal` — decimal numerals that base `0` does not misread.

Main results:

* `CNumeral.Constant.magnitude_eq` — a constant is read as what it writes;
* `CNumeral.IntegerNumeral.strtoull_eq`, `CNumeral.IntegerNumeral.strtoll_eq` — **complete numerals
  in range are read exactly**;
* `CNumeral.Numeral.magnitude_eq_iff` — when base `0` restores a decimal numeral.
-/

import NvIpfix.CNumeral

set_option relaxedAutoImplicit false
set_option autoImplicit false

namespace CNumeral

/-! ### Digits -/

/-- Every character is a digit of the base. -/
def AllDigits (base : ℕ) (digits : List UInt8) : Prop :=
  ∀ c ∈ digits, ∃ d < base, digitValue c = some d

/-- The number that digits write behind those of `n`. -/
def digitsValueFrom (base n : ℕ) (digits : List UInt8) : ℕ :=
  digits.foldl (fun n c => n * base + hexValue c) n

/-- The number that digits write. -/
def digitsValue (base : ℕ) (digits : List UInt8) : ℕ := digitsValueFrom base 0 digits

variable {base n : ℕ} {c : UInt8} {digits : List UInt8}

theorem AllDigits.tail (h : AllDigits base (c :: digits)) : AllDigits base digits :=
  fun x hx => h x (List.mem_cons_of_mem c hx)

/-- The first digit. -/
theorem AllDigits.head (h : AllDigits base (c :: digits)) :
    digitValue c = some (hexValue c) ∧ hexValue c < base := by
  obtain ⟨d, hd, hc⟩ := h c List.mem_cons_self
  rw [hexValue, hc, Option.getD_some]
  exact ⟨rfl, hd⟩

/-- One character of the scan. -/
theorem scanDigits_cons {k : ℕ} (h : AllDigits k (c :: digits)) (base n : ℕ) :
    scanDigits base n (c :: digits) =
      if hexValue c < base then scanDigits base (n * base + hexValue c) digits else n := by
  rw [scanDigits, h.head.1]

theorem digitsValueFrom_cons : digitsValueFrom base n (c :: digits) =
    digitsValueFrom base (n * base + hexValue c) digits := rfl

/-- The scan goes to the end of digits. -/
theorem scanDigits_eq_digitsValueFrom (h : AllDigits base digits) :
    scanDigits base n digits = digitsValueFrom base n digits := by
  induction digits generalizing n with
  | nil => rfl
  | cons c digits ih =>
      rw [scanDigits_cons h, if_pos h.head.2, digitsValueFrom_cons]
      exact ih h.tail

theorem AllDigits.mono {k : ℕ} (h : AllDigits k digits) (hk : k ≤ base) :
    AllDigits base digits := by
  intro c hc
  obtain ⟨d, hd, hvalue⟩ := h c hc
  exact ⟨d, hd.trans_le hk, hvalue⟩

/-- Digits write a number with as many digits. -/
theorem digitsValueFrom_lt (h : AllDigits base digits) :
    digitsValueFrom base n digits < (n + 1) * base ^ digits.length := by
  induction digits generalizing n with
  | nil => simp [digitsValueFrom]
  | cons c digits ih =>
      have hlt := h.head.2
      calc digitsValueFrom base n (c :: digits)
          < (n * base + hexValue c + 1) * base ^ digits.length := ih h.tail
        _ ≤ ((n + 1) * base) * base ^ digits.length :=
          Nat.mul_le_mul_right _ (by rw [Nat.succ_mul]; omega)
        _ = (n + 1) * base ^ (c :: digits).length := by
          rw [List.length_cons, pow_succ', Nat.mul_assoc]

theorem digitsValue_lt (h : AllDigits base digits) :
    digitsValue base digits < base ^ digits.length := by
  have hlt := digitsValueFrom_lt (n := 0) h
  rwa [Nat.zero_add, Nat.one_mul] at hlt

/-- There is no hexadecimal prefix within digits. -/
theorem hasHexPrefix_of_allDigits (h : AllDigits 16 digits) : hasHexPrefix digits = false := by
  unfold hasHexPrefix
  split
  · rename_i z x d t
    have hlt := h.tail.head.2
    have hx : (x == 120 || x == 88) = false := by
      rw [Bool.or_eq_false_iff, beq_eq_false_iff_ne, beq_eq_false_iff_ne]
      constructor
      · rintro rfl
        exact absurd hlt (by decide)
      · rintro rfl
        exact absurd hlt (by decide)
    rw [hx, Bool.and_false, Bool.false_and]
  · rfl

/-- Digits have no sign, and no white space in front. -/
theorem subject_of_allDigits {k : ℕ} (hne : digits ≠ []) (h : AllDigits k digits) (base : ℕ) :
    subject base digits = (false, magnitude base digits) := by
  obtain ⟨c, t, rfl⟩ := List.exists_cons_of_ne_nil hne
  obtain ⟨hspace, hsign⟩ := not_isSpace_of_digitValue h.head.1
  rw [subject, List.dropWhile_cons_of_neg (by simp [hspace])]
  simp only [hsign, Bool.false_eq_true, if_false]

theorem strtoull_of_allDigits {k : ℕ} (hne : digits ≠ []) (h : AllDigits k digits)
    (hlt : magnitude base digits < 2 ^ 64) :
    strtoull digits base = UInt64.ofNat (magnitude base digits) := by
  simp only [strtoull, subject_of_allDigits hne h, hlt, if_true, Bool.false_eq_true, if_false]

/-- Hexadecimal digits are read as what they write. -/
theorem magnitude_sixteen (h : AllDigits 16 digits) :
    magnitude 16 digits = digitsValue 16 digits := by
  rw [magnitude, hasHexPrefix_of_allDigits h, if_neg (by simp), if_neg (by omega)]
  exact scanDigits_eq_digitsValueFrom h

/-! ### Constants -/

/-- Unsigned integer constants, with the number they write. -/
inductive Constant : List UInt8 → ℕ → Prop
  | decimal {digits : List UInt8} : digits ≠ [] → digits.head? ≠ some 48 → AllDigits 10 digits →
      Constant digits (digitsValue 10 digits)
  | octal {digits : List UInt8} :
      AllDigits 8 digits → Constant (48 :: digits) (digitsValue 8 digits)
  | hexadecimal {x : UInt8} {digits : List UInt8} : x = 120 ∨ x = 88 → digits ≠ [] →
      AllDigits 16 digits → Constant (48 :: x :: digits) (digitsValue 16 digits)

variable {s : List UInt8} {z : ℤ}

theorem hasHexPrefix_of_head? (h : s.head? ≠ some 48) : hasHexPrefix s = false := by
  unfold hasHexPrefix
  split
  · rename_i z x d t
    have hz : (z == 48) = false := by
      rw [beq_eq_false_iff_ne]
      intro hz
      exact h (congrArg some hz)
    rw [hz, Bool.false_and, Bool.false_and]
  · rfl

/-- **A constant is read as what it writes.** -/
theorem Constant.magnitude_eq (h : Constant s n) : magnitude 0 s = n := by
  cases h with
  | decimal hne hhead hdigits =>
      rw [magnitude, hasHexPrefix_of_head? hhead, if_neg (by simp), if_pos rfl, if_neg hhead]
      exact scanDigits_eq_digitsValueFrom hdigits
  | @octal digits hdigits =>
      -- the zero in front adds nothing
      have hzero : scanDigits 8 0 (48 :: digits) = scanDigits 8 0 digits := rfl
      have hall : AllDigits 16 (48 :: digits) := by
        intro c hc
        rcases List.mem_cons.1 hc with rfl | hc
        · exact ⟨0, by omega, rfl⟩
        · exact hdigits.mono (by omega) c hc
      rw [magnitude, hasHexPrefix_of_allDigits hall, if_neg (by simp), if_pos rfl,
        List.head?_cons, if_pos rfl, hzero]
      exact scanDigits_eq_digitsValueFrom hdigits
  | @hexadecimal x digits hx hne hdigits =>
      obtain ⟨c, t, rfl⟩ := List.exists_cons_of_ne_nil hne
      obtain ⟨hvalue, hlt⟩ := hdigits.head
      have hprefix : hasHexPrefix (48 :: x :: c :: t) = true := by
        rcases hx with rfl | rfl <;> simp [hasHexPrefix, hvalue, hlt]
      rw [magnitude, if_pos ⟨Or.inl rfl, hprefix⟩]
      exact scanDigits_eq_digitsValueFrom hdigits

/-- A constant begins with a digit. -/
theorem Constant.head (h : Constant s n) :
    ∃ c t, s = c :: t ∧ isSpace c = false ∧ isSign c = false := by
  cases h with
  | decimal hne hhead hdigits =>
      obtain ⟨c, t, rfl⟩ := List.exists_cons_of_ne_nil hne
      exact ⟨c, t, rfl, not_isSpace_of_digitValue hdigits.head.1⟩
  | octal hdigits => exact ⟨48, _, rfl, by decide, by decide⟩
  | hexadecimal hx hne hdigits => exact ⟨48, _, rfl, by decide, by decide⟩

/-! ### Numerals -/

/-- Integer constants with an optional sign, and the number they write. -/
inductive IntegerNumeral : List UInt8 → ℤ → Prop
  | unsigned {s : List UInt8} {n : ℕ} : Constant s n → IntegerNumeral s n
  | plus {s : List UInt8} {n : ℕ} : Constant s n → IntegerNumeral (43 :: s) n
  | minus {s : List UInt8} {n : ℕ} : Constant s n → IntegerNumeral (45 :: s) (-n)

/-- Sign and magnitude of a numeral. -/
theorem IntegerNumeral.subject_eq (h : IntegerNumeral s z) :
    ∃ n : ℕ, subject 0 s = (false, n) ∧ z = n ∨ subject 0 s = (true, n) ∧ z = -n := by
  cases h with
  | unsigned hconstant =>
      obtain ⟨c, t, rfl, hspace, hsign⟩ := hconstant.head
      refine ⟨_, .inl ⟨?_, rfl⟩⟩
      rw [subject, List.dropWhile_cons_of_neg (by simp [hspace])]
      simp only [hsign, Bool.false_eq_true, if_false, hconstant.magnitude_eq]
  | plus hconstant =>
      refine ⟨_, .inl ⟨?_, rfl⟩⟩
      rw [subject, List.dropWhile_cons_of_neg (by decide), ← hconstant.magnitude_eq]
      rfl
  | minus hconstant =>
      refine ⟨_, .inr ⟨?_, rfl⟩⟩
      rw [subject, List.dropWhile_cons_of_neg (by decide), ← hconstant.magnitude_eq]
      rfl

/-- **A complete numeral is read exactly**, if an `unsigned long long` holds its number. -/
theorem IntegerNumeral.strtoull_eq (h : IntegerNumeral s z) (hlo : 0 ≤ z) (hhi : z < 2 ^ 64) :
    strtoull s 0 = UInt64.ofNat z.toNat := by
  obtain ⟨n, ⟨hsubject, rfl⟩ | ⟨hsubject, rfl⟩⟩ := h.subject_eq
  · have hn : n < 2 ^ 64 := by omega
    simp only [strtoull, hsubject, hn, if_true, Bool.false_eq_true, if_false, Int.toNat_natCast]
  · -- with a minus sign only zero is in range
    obtain rfl : n = 0 := by omega
    rw [strtoull, hsubject]
    rfl

/-- **A complete numeral is read exactly**, if a `long long` holds its number. -/
theorem IntegerNumeral.strtoll_eq (h : IntegerNumeral s z) (hlo : -2 ^ 63 ≤ z) (hhi : z < 2 ^ 63) :
    strtoll s 0 = Int64.ofInt z := by
  have hz : subjectInt 0 s = z := by
    obtain ⟨n, ⟨hsubject, rfl⟩ | ⟨hsubject, rfl⟩⟩ := h.subject_eq
    · rw [subjectInt, hsubject]
      rfl
    · rw [subjectInt, hsubject]
      rfl
  rw [strtoll, hz, min_eq_right (by omega), max_eq_right hlo]

/-! ### Decimal numerals in base `0` -/

theorem le_digitsValueFrom : n ≤ digitsValueFrom 10 n digits := by
  induction digits generalizing n with
  | nil => exact le_refl n
  | cons c digits ih =>
      have hstep : n ≤ n * 10 + hexValue c := by omega
      exact hstep.trans ih

/-- Read as octal, decimal digits do not catch up. -/
theorem scanDigits_eight_add_le (h : AllDigits 10 digits) {a b k : ℕ} (hab : a + k ≤ b) :
    scanDigits 8 a digits + k ≤ digitsValueFrom 10 b digits := by
  induction digits generalizing a b with
  | nil => exact hab
  | cons c digits ih =>
      rw [scanDigits_cons h, digitsValueFrom_cons]
      split
      · exact ih h.tail (by omega)
      · -- an `8` or `9` ends the octal numeral
        have hle : a + k ≤ b * 10 + hexValue c := by omega
        exact hle.trans le_digitsValueFrom

/-- Read as octal, decimal digits are at most what they write. -/
theorem scanDigits_eight_le (h : AllDigits 10 digits) :
    scanDigits 8 0 digits ≤ digitsValue 10 digits :=
  scanDigits_eight_add_le h (k := 0) (Nat.le_refl 0)

/-- **Read as octal, decimal digits are what they write** only below eight. -/
theorem scanDigits_eight_eq_iff (h : AllDigits 10 digits) :
    scanDigits 8 0 digits = digitsValue 10 digits ↔ digitsValue 10 digits < 8 := by
  induction digits with
  | nil => decide
  | cons c digits ih =>
      have hfirst : digitsValue 10 (c :: digits) = digitsValueFrom 10 (hexValue c) digits := by
        rw [digitsValue, digitsValueFrom_cons, Nat.zero_mul, Nat.zero_add]
      rw [scanDigits_cons h, hfirst, Nat.zero_mul, Nat.zero_add]
      split
      · rename_i hoctal
        by_cases hzero : hexValue c = 0
        · rw [hzero]
          exact ih h.tail
        · cases digits with
          | nil =>
              -- a single octal digit
              simpa [scanDigits, digitsValueFrom] using hoctal
          | cons e digits =>
              have hbehind := scanDigits_eight_add_le h.tail.tail (k := 1)
                (a := hexValue c * 8 + hexValue e) (b := hexValue c * 10 + hexValue e) (by omega)
              have hlarge : hexValue c * 10 + hexValue e ≤
                  digitsValueFrom 10 (hexValue c * 10 + hexValue e) digits := le_digitsValueFrom
              rw [scanDigits_cons h.tail, digitsValueFrom_cons]
              split <;> omega
      · rename_i hlarge
        have hle : hexValue c ≤ digitsValueFrom 10 (hexValue c) digits := le_digitsValueFrom
        omega

namespace Numeral

variable (m : Numeral)

theorem allDigits : AllDigits 10 m.text := by
  intro c hc
  obtain ⟨d, hd, rfl⟩ := m.isDigit c hc
  exact ⟨d, hd, digitValue_digitChar hd⟩

theorem value_eq : m.value = digitsValue 10 m.text := scanDigits_eq_digitsValueFrom m.allDigits

/-- The numeral has no leading zero, or is below eight. -/
def ReadsDecimal : Prop := m.text.head? ≠ some 48 ∨ m.value < 8

instance : Decidable m.ReadsDecimal := inferInstanceAs (Decidable (_ ∨ _))

/-- What base `0` makes of a decimal numeral. -/
theorem magnitude_eq :
    magnitude 0 m.text = if m.text.head? = some 48 then scanDigits 8 0 m.text else m.value := by
  rw [magnitude, hasHexPrefix_of_allDigits (m.allDigits.mono (by omega)), if_neg (by simp),
    if_pos rfl]
  split <;> rfl

theorem magnitude_le : magnitude 0 m.text ≤ m.value := by
  rw [magnitude_eq]
  split
  · rw [value_eq]
    exact scanDigits_eight_le m.allDigits
  · exact le_refl m.value

/-- **When base `0` restores a decimal numeral.** -/
theorem magnitude_eq_iff : magnitude 0 m.text = m.value ↔ m.ReadsDecimal := by
  rw [magnitude_eq, ReadsDecimal]
  by_cases hhead : m.text.head? = some 48
  · rw [if_pos hhead, value_eq, scanDigits_eight_eq_iff m.allDigits]
    simp [hhead]
  · rw [if_neg hhead]
    simp [hhead]

end Numeral

end CNumeral
