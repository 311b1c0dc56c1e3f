/-
**Integer numerals of the C standard library.**

`strtoull`, `strtoul`, `strtoll` and `atoi` read the longest prefix of a string that is an integer
numeral: white space, an optional sign, an optional base prefix and digits.  What follows is
ignored, an empty subject sequence reads as zero, and a value outside the range of the result
saturates.  `long` and `long long` both have 64 bits here (LP64), so `strtoul` and `strtoull`
agree.

Main definitions:

* `CNumeral.subject` — sign and magnitude of the numeral a string begins with;
* `CNumeral.strtoull`, `CNumeral.strtoul`, `CNumeral.strtoll`, `CNumeral.atoi`;
* `CNumeral.decimal`, `CNumeral.decimalInt` — decimal numerals without leading zeros;
* `CNumeral.Numeral`, `CNumeral.Numeral.padded` — decimal numerals with leading zeros.

Main results:

* `CNumeral.strtoull_decimal`, `CNumeral.strtoll_decimalInt` — reading undoes writing, also in
  base `0`, because no decimal numeral looks octal or hexadecimal;
* `CNumeral.strtoul_hexPair` — two hexadecimal digits read as the octet they write;
* `CNumeral.Numeral.strtoull_padded_two` — base `0` restores every two-digit number but `08` and
  `09`;
* `CNumeral.subject_append_inert` — characters that are neither digits nor signs after a
  numeral do not change what is read.
-/

import Mathlib.Data.List.Basic
import Mathlib.Tactic.IntervalCases
import Mathlib.Tactic.Ring

set_option relaxedAutoImplicit false
set_option autoImplicit false

namespace CNumeral

/-! ### Characters -/

/-- `isspace` in the C locale: blank, and `\t` to `\r`. -/
def isSpace (c : UInt8) : Bool := c == 32 || (9 ≤ c && c ≤ 13)

/-- The value of a character as a digit, letters of either case standing for `10` to `35`. -/
def digitValue (c : UInt8) : Option ℕ :=
  if 48 ≤ c && c ≤ 57 then some (c.toNat - 48)
  else if 97 ≤ c && c ≤ 122 then some (c.toNat - 87)
  else if 65 ≤ c && c ≤ 90 then some (c.toNat - 55)
  else none

/-- A sign character. -/
def isSign (c : UInt8) : Bool := c == 43 || c == 45

/-! ### Reading -/

/-- The value of the longest prefix of digits, continuing from `acc`. -/
def scanDigits (base : ℕ) : ℕ → List UInt8 → ℕ
  | acc, [] => acc
  | acc, c :: cs =>
      match digitValue c with
      | some d => if d < base then scanDigits base (acc * base + d) cs else acc
      | none => acc

/-- `0x` or `0X` in front of a hexadecimal digit. -/
def hasHexPrefix : List UInt8 → Bool
  | z :: x :: d :: _ => z == 48 && (x == 120 || x == 88) && (digitValue d).any (· < 16)
  | _ => false

/-- The value of an unsigned numeral; base `0` is settled by the prefix. -/
def magnitude (base : ℕ) (s : List UInt8) : ℕ :=
  if (base = 0 ∨ base = 16) ∧ hasHexPrefix s then scanDigits 16 0 (s.drop 2)
  else if base = 0 then scanDigits (if s.head? = some 48 then 8 else 10) 0 s
  else scanDigits base 0 s

/-- Whether the numeral at the head of `s` has a minus sign, and its magnitude. -/
def subject (base : ℕ) (s : List UInt8) : Bool × ℕ :=
  match s.dropWhile isSpace with
  | [] => (false, 0)
  | c :: t => if isSign c then (c == 45, magnitude base t) else (false, magnitude base (c :: t))

/-- `strtoull`: a magnitude out of range gives `ULLONG_MAX`, a minus sign negates the result. -/
def strtoull (s : List UInt8) (base : ℕ) : UInt64 :=
  if (subject base s).2 < 2 ^ 64 then
    if (subject base s).1 then -UInt64.ofNat (subject base s).2 else UInt64.ofNat (subject base s).2
  else UInt64.ofNat (2 ^ 64 - 1)

/-- `strtoul`, with a 64-bit `unsigned long`. -/
def strtoul (s : List UInt8) (base : ℕ) : UInt64 := strtoull s base

/-- The signed value of the numeral at the head of `s`. -/
def subjectInt (base : ℕ) (s : List UInt8) : ℤ :=
  if (subject base s).1 then -(subject base s).2 else (subject base s).2

/-- `strtoll`: a value out of range gives `LLONG_MIN` or `LLONG_MAX`. -/
def strtoll (s : List UInt8) (base : ℕ) : Int64 :=
  Int64.ofInt (max (-2 ^ 63) (min (2 ^ 63 - 1) (subjectInt base s)))

/-- `atoi`: `strtol` in base ten, converted to `int`. -/
def atoi (s : List UInt8) : Int32 := (strtoll s 10).toInt32

/-! ### Writing -/

/-- The decimal numeral of a natural number, without leading zeros. -/
def decimal (n : ℕ) : List UInt8 := (Nat.toDigits 10 n).map Char.toUInt8

/-- The decimal numeral of an integer. -/
def decimalInt (z : ℤ) : List UInt8 := if z < 0 then 45 :: decimal z.natAbs else decimal z.natAbs

/-- The character of a decimal digit. -/
def digitChar (d : ℕ) : UInt8 := (Nat.digitChar d).toUInt8

theorem decimal_eq (n : ℕ) :
    decimal n = if n < 10 then [digitChar n] else decimal (n / 10) ++ [digitChar (n % 10)] := by
  rw [decimal, Nat.toDigits_eq_if (by omega)]
  split <;> simp [decimal, digitChar]

theorem digitValue_digitChar {d : ℕ} (h : d < 10) : digitValue (digitChar d) = some d := by
  interval_cases d <;> rfl

theorem decimal_ne_nil (n : ℕ) : decimal n ≠ [] := by
  rw [decimal_eq]
  split <;> simp

/-- Every character of a decimal numeral is a decimal digit. -/
theorem exists_of_mem_decimal {n : ℕ} {c : UInt8} (h : c ∈ decimal n) :
    ∃ d < 10, c = digitChar d := by
  induction n using Nat.strong_induction_on with
  | _ n ih =>
      rw [decimal_eq] at h
      by_cases hn : n < 10
      · rw [if_pos hn, List.mem_singleton] at h
        exact ⟨n, hn, h⟩
      · rw [if_neg hn, List.mem_append, List.mem_singleton] at h
        rcases h with h | h
        · exact ih (n / 10) (by omega) h
        · exact ⟨n % 10, Nat.mod_lt _ (by omega), h⟩

/-- A property of the ten digit characters holds of every character of a decimal numeral. -/
theorem forall_mem_decimal {P : UInt8 → Prop} (h : ∀ d < 10, P (digitChar d)) {n : ℕ} :
    ∀ c ∈ decimal n, P c := by
  intro c hc
  obtain ⟨d, hd, rfl⟩ := exists_of_mem_decimal hc
  exact h d hd

/-- A decimal numeral other than `0` does not begin with `0`. -/
theorem head?_decimal {n : ℕ} (hn : n ≠ 0) : (decimal n).head? ≠ some 48 := by
  induction n using Nat.strong_induction_on with
  | _ n ih =>
      rw [decimal_eq]
      by_cases h : n < 10
      · rw [if_pos h]
        interval_cases n <;> first | exact absurd rfl hn | decide
      · rw [if_neg h, List.head?_append_of_ne_nil _ (decimal_ne_nil _)]
        exact ih (n / 10) (by omega) (by omega)

/-! ### Reading what was written -/

/-- Reading goes on after a numeral with its value accumulated. -/
theorem scanDigits_decimal_append (n : ℕ) (rest : List UInt8) :
    scanDigits 10 0 (decimal n ++ rest) = scanDigits 10 n rest := by
  induction n using Nat.strong_induction_on generalizing rest with
  | _ n ih =>
      rw [decimal_eq]
      by_cases h : n < 10
      · rw [if_pos h, List.singleton_append, scanDigits, digitValue_digitChar h]
        simp [h]
      · have hd : n % 10 < 10 := Nat.mod_lt _ (by omega)
        rw [if_neg h, List.append_assoc, ih (n / 10) (by omega), List.singleton_append, scanDigits,
          digitValue_digitChar hd]
        simp only [hd, if_true]
        congr 1
        omega

theorem scanDigits_decimal (n : ℕ) : scanDigits 10 0 (decimal n) = n := by
  simpa [scanDigits] using scanDigits_decimal_append n []

/-- No decimal numeral has a hexadecimal prefix. -/
theorem hasHexPrefix_decimal (n : ℕ) : hasHexPrefix (decimal n) = false := by
  rcases hs : decimal n with _ | ⟨z, _ | ⟨x, _ | ⟨d, t⟩⟩⟩
  · rfl
  · rfl
  · rfl
  · have hx : ∀ c ∈ decimal n, (c == 120 || c == 88) = false := by
      refine forall_mem_decimal ?_
      intro d hd
      interval_cases d <;> rfl
    rw [hasHexPrefix, hx x (by rw [hs]; simp)]
    simp

theorem magnitude_decimal {base : ℕ} (hb : base = 0 ∨ base = 10) (n : ℕ) :
    magnitude base (decimal n) = n := by
  rw [magnitude, hasHexPrefix_decimal, if_neg (by simp)]
  by_cases h0 : base = 0
  · by_cases hn : n = 0
    · subst hn; subst h0; rfl
    · rw [if_pos h0, if_neg (head?_decimal hn), scanDigits_decimal]
  · rw [if_neg h0, hb.resolve_left h0, scanDigits_decimal]

theorem dropWhile_isSpace_decimal (n : ℕ) : (decimal n).dropWhile isSpace = decimal n := by
  rcases hs : decimal n with _ | ⟨c, t⟩
  · rfl
  · have hc : ∀ c ∈ decimal n, isSpace c = false := by
      refine forall_mem_decimal ?_
      intro d hd
      interval_cases d <;> rfl
    rw [List.dropWhile_cons_of_neg (by simp [hc c (by rw [hs]; simp)])]

theorem subject_decimal {base : ℕ} (hb : base = 0 ∨ base = 10) (n : ℕ) :
    subject base (decimal n) = (false, n) := by
  rw [subject, dropWhile_isSpace_decimal]
  rcases hs : decimal n with _ | ⟨c, t⟩
  · exact absurd hs (decimal_ne_nil n)
  · have hc : ∀ c ∈ decimal n, isSign c = false := by
      refine forall_mem_decimal ?_
      intro d hd
      interval_cases d <;> rfl
    simp only [hc c (by rw [hs]; simp), Bool.false_eq_true, if_false]
    rw [← hs, magnitude_decimal hb]

theorem subject_neg_decimal {base : ℕ} (hb : base = 0 ∨ base = 10) (n : ℕ) :
    subject base (45 :: decimal n) = (true, n) := by
  rw [subject, List.dropWhile_cons_of_neg (by decide)]
  simp only [show isSign 45 = true from rfl, if_true, magnitude_decimal hb]
  rfl

/-- **Reading undoes writing**, for unsigned values. -/
theorem strtoull_decimal {base : ℕ} (hb : base = 0 ∨ base = 10) {n : ℕ} (hn : n < 2 ^ 64) :
    strtoull (decimal n) base = UInt64.ofNat n := by
  simp only [strtoull, subject_decimal hb, hn, if_true, Bool.false_eq_true, if_false]

theorem subjectInt_decimalInt {base : ℕ} (hb : base = 0 ∨ base = 10) (z : ℤ) :
    subjectInt base (decimalInt z) = z := by
  by_cases hz : z < 0
  · simp only [subjectInt, decimalInt, hz, if_true, subject_neg_decimal hb]
    omega
  · simp only [subjectInt, decimalInt, hz, if_false, subject_decimal hb, Bool.false_eq_true]
    omega

/-- **Reading undoes writing**, for signed values. -/
theorem strtoll_decimalInt {base : ℕ} (hb : base = 0 ∨ base = 10) (i : Int64) :
    strtoll (decimalInt i.toInt) base = i := by
  have hlo : -2 ^ 63 ≤ i.toInt := Int64.le_toInt i
  have hhi : i.toInt < 2 ^ 63 := Int64.toInt_lt i
  rw [strtoll, subjectInt_decimalInt hb, min_eq_right (by omega), max_eq_right hlo,
    Int64.ofInt_toInt]

/-! ### Hexadecimal octets -/

/-- A hexadecimal digit character. -/
def isHexDigit (c : UInt8) : Bool := (digitValue c).any (· < 16)

/-- The value of a hexadecimal digit. -/
def hexValue (c : UInt8) : ℕ := (digitValue c).getD 0

theorem digitValue_of_isHexDigit {c : UInt8} (h : isHexDigit c) :
    digitValue c = some (hexValue c) ∧ hexValue c < 16 := by
  rw [isHexDigit] at h
  cases hd : digitValue c with
  | none => rw [hd] at h; simp at h
  | some d => rw [hd] at h; simp [hexValue, hd]; simpa using h

/-- A digit is neither white space nor a sign. -/
theorem not_isSpace_of_digitValue {c : UInt8} {d : ℕ} (h : digitValue c = some d) :
    isSpace c = false ∧ isSign c = false := by
  constructor
  · by_contra hs
    simp only [isSpace, Bool.not_eq_false, Bool.or_eq_true, beq_iff_eq, Bool.and_eq_true,
      decide_eq_true_eq] at hs
    simp only [digitValue] at h
    grind
  · by_contra hs
    simp only [isSign, Bool.not_eq_false, Bool.or_eq_true, beq_iff_eq] at hs
    rcases hs with rfl | rfl <;> simp [digitValue] at h

/-- Two hexadecimal digits read as the octet they write. -/
theorem strtoul_hexPair {hi lo : UInt8} (hhi : isHexDigit hi) (hlo : isHexDigit lo) :
    strtoul [hi, lo] 16 = UInt64.ofNat (16 * hexValue hi + hexValue lo) := by
  obtain ⟨dhi, bhi⟩ := digitValue_of_isHexDigit hhi
  obtain ⟨dlo, blo⟩ := digitValue_of_isHexDigit hlo
  have hm : magnitude 16 [hi, lo] = 16 * hexValue hi + hexValue lo := by
    simp [magnitude, hasHexPrefix, scanDigits, dhi, dlo, bhi, blo]
    omega
  have hs : subject 16 [hi, lo] = (false, 16 * hexValue hi + hexValue lo) := by
    rw [subject, List.dropWhile_cons_of_neg (by simp [(not_isSpace_of_digitValue dhi).1])]
    simp [(not_isSpace_of_digitValue dhi).2, hm]
  rw [strtoul, strtoull, hs]
  simp only [Bool.false_eq_true, if_false]
  rw [if_pos (by omega)]

/-! ### What follows a numeral -/

/-- A character that can neither continue nor begin a numeral. -/
def isInert (c : UInt8) : Bool := (digitValue c).isNone && !isSign c

theorem digitValue_of_isInert {c : UInt8} (h : isInert c) : digitValue c = none := by
  simp only [isInert, Bool.and_eq_true, Option.isNone_iff_eq_none] at h
  exact h.1

variable {rest : List UInt8}

theorem scanDigits_of_isInert (hr : ∀ c ∈ rest, isInert c) (base acc : ℕ) :
    scanDigits base acc rest = acc := by
  cases rest with
  | nil => rfl
  | cons c cs => rw [scanDigits, digitValue_of_isInert (hr c (by simp))]

theorem scanDigits_append_inert (hr : ∀ c ∈ rest, isInert c) (base acc : ℕ) (s : List UInt8) :
    scanDigits base acc (s ++ rest) = scanDigits base acc s := by
  induction s generalizing acc with
  | nil => simpa [scanDigits] using scanDigits_of_isInert hr base acc
  | cons c s ih =>
      rw [List.cons_append, scanDigits, scanDigits]
      cases digitValue c with
      | none => rfl
      | some d => simp only [ih]

theorem hasHexPrefix_append_inert (hr : ∀ c ∈ rest, isInert c) (s : List UInt8) :
    hasHexPrefix (s ++ rest) = hasHexPrefix s := by
  -- the prefix consists of three characters with a digit value, none of them inert
  have h48 : (48 : UInt8) ∉ rest := fun h => absurd (hr 48 h) (by decide)
  have h120 : (120 : UInt8) ∉ rest := fun h => absurd (hr 120 h) (by decide)
  have h88 : (88 : UInt8) ∉ rest := fun h => absurd (hr 88 h) (by decide)
  have hd : ∀ d ∈ rest, digitValue d = none := fun d h => digitValue_of_isInert (hr d h)
  rcases s with _ | ⟨z, _ | ⟨x, _ | ⟨d, t⟩⟩⟩
  · rcases rest with _ | ⟨z, _ | ⟨x, _ | ⟨d, t⟩⟩⟩ <;> simp_all [hasHexPrefix]
  · rcases rest with _ | ⟨x, _ | ⟨d, t⟩⟩ <;> simp_all [hasHexPrefix]
  · rcases rest with _ | ⟨d, t⟩ <;> simp_all [hasHexPrefix]
  · rfl

theorem magnitude_append_inert (hr : ∀ c ∈ rest, isInert c) (base : ℕ) (s : List UInt8) :
    magnitude base (s ++ rest) = magnitude base s := by
  have hhead : (s ++ rest).head? = some 48 ↔ s.head? = some 48 := by
    cases s with
    | nil =>
        have h48 : (48 : UInt8) ∉ rest := fun h => absurd (hr 48 h) (by decide)
        constructor
        · intro h
          exact absurd (List.mem_of_mem_head? h) h48
        · intro h
          simp at h
    | cons c s => simp
  rw [magnitude, magnitude, hasHexPrefix_append_inert hr]
  by_cases hx : hasHexPrefix s
  · have hdrop : (s ++ rest).drop 2 = s.drop 2 ++ rest := by
      rcases s with _ | ⟨z, _ | ⟨x, t⟩⟩
      · simp [hasHexPrefix] at hx
      · simp [hasHexPrefix] at hx
      · rfl
    simp only [hdrop, scanDigits_append_inert hr, hhead]
  · simp only [hx, Bool.false_eq_true, and_false, if_false, scanDigits_append_inert hr, hhead]

/-- **What follows a numeral is ignored**, as long as it holds no digit and no sign. -/
theorem subject_append_inert (hr : ∀ c ∈ rest, isInert c) (base : ℕ) (s : List UInt8) :
    subject base (s ++ rest) = subject base s := by
  rw [subject, subject, List.dropWhile_append]
  cases hs : s.dropWhile isSpace with
  | cons c t =>
      simp only [List.isEmpty_cons, Bool.false_eq_true, if_false, List.cons_append]
      rw [magnitude_append_inert hr, ← List.cons_append, magnitude_append_inert hr]
  | nil =>
      simp only [List.isEmpty_nil, if_true]
      cases hd : rest.dropWhile isSpace with
      | nil => rfl
      | cons c t =>
          have hmem : ∀ x ∈ c :: t, isInert x := by
            intro x hx
            exact hr x ((List.dropWhile_sublist _).mem (by rwa [hd]))
          have hc : isSign c = false := by
            have := hmem c (by simp)
            simp only [isInert, Bool.and_eq_true, Bool.not_eq_true'] at this
            exact this.2
          have hzero : magnitude base (c :: t) = 0 := by
            have := magnitude_append_inert hmem base []
            simpa [magnitude, hasHexPrefix, scanDigits] using this
          simp [hc, hzero]

theorem strtoull_append_inert (hr : ∀ c ∈ rest, isInert c) (base : ℕ) (s : List UInt8) :
    strtoull (s ++ rest) base = strtoull s base := by
  rw [strtoull, subject_append_inert hr, strtoull]

theorem strtoll_append_inert (hr : ∀ c ∈ rest, isInert c) (base : ℕ) (s : List UInt8) :
    strtoll (s ++ rest) base = strtoll s base := by
  rw [strtoll, subjectInt, subject_append_inert hr, strtoll, subjectInt]

/-! ### Numerals with leading zeros -/

/-- A decimal numeral, with any number of leading zeros. -/
structure Numeral where
  text : List UInt8
  ne_nil : text ≠ []
  isDigit : ∀ c ∈ text, ∃ d < 10, c = digitChar d

namespace Numeral

/-- The number it writes. -/
def value (n : Numeral) : ℕ := scanDigits 10 0 n.text

/-- A property of the ten digit characters holds of every character. -/
theorem forall_mem {P : UInt8 → Prop} (h : ∀ d < 10, P (digitChar d)) (n : Numeral) :
    ∀ c ∈ n.text, P c := by
  intro c hc
  obtain ⟨d, hd, rfl⟩ := n.isDigit c hc
  exact h d hd

/-- A character that is no digit does not occur. -/
theorem not_mem {c : UInt8} (hc : c < 48 ∨ 57 < c) (n : Numeral) : c ∉ n.text := by
  intro hmem
  obtain ⟨d, hd, rfl⟩ := n.isDigit c hmem
  interval_cases d <;> exact absurd hc (by decide)

/-- Read in base ten, a numeral is its number whatever its zeros. -/
theorem subject_ten (n : Numeral) : subject 10 n.text = (false, n.value) := by
  have hspace := n.forall_mem (P := fun c => isSpace c = false) (by
    intro d hd
    interval_cases d <;> rfl)
  have hsign := n.forall_mem (P := fun c => isSign c = false) (by
    intro d hd
    interval_cases d <;> rfl)
  obtain ⟨c, t, htext⟩ := List.exists_cons_of_ne_nil n.ne_nil
  have hc : c ∈ n.text := by rw [htext]; exact List.mem_cons_self
  rw [subject, value, htext, List.dropWhile_cons_of_neg (by simp [hspace c hc])]
  simp [hsign c hc, magnitude]

/-- `atoi` restores a number that fits an `int`. -/
theorem atoi_eq (n : Numeral) (h : n.value < 2 ^ 31) : atoi n.text = Int32.ofNat n.value := by
  rw [atoi, strtoll, subjectInt, subject_ten]
  simp only [Bool.false_eq_true, if_false]
  rw [min_eq_right (by omega), max_eq_right (by omega)]
  refine Int32.toInt_inj.1 ?_
  simp

/-- The decimal numeral of a number, filled up with zeros to a width. -/
def padded (width n : ℕ) : Numeral where
  text := List.replicate (width - (decimal n).length) 48 ++ decimal n
  ne_nil := by simp [decimal_ne_nil]
  isDigit := by
    intro c hc
    rcases List.mem_append.1 hc with hc | hc
    · exact ⟨0, by omega, List.eq_of_mem_replicate hc⟩
    · exact exists_of_mem_decimal hc

/-- A number with enough digits needs no zeros. -/
theorem text_padded_of_le {k n : ℕ} (h : 10 ^ k ≤ n) : (padded (k + 1) n).text = decimal n := by
  have hlen : k + 1 ≤ (decimal n).length := by
    induction k generalizing n with
    | zero => exact List.length_pos_iff.2 (decimal_ne_nil n)
    | succ k ih =>
        have hdiv : 10 ^ k ≤ n / 10 := by
          rw [Nat.le_div_iff_mul_le (by omega), ← pow_succ]
          exact h
        have hpos : 0 < 10 ^ k := Nat.pow_pos (by omega)
        rw [decimal_eq, if_neg (by omega), List.length_append, List.length_singleton]
        exact Nat.succ_le_succ (ih hdiv)
  simp [padded, Nat.sub_eq_zero_of_le hlen]

/-- **Two digits in base `0`** are the number they write, except that `08` and `09` look octal and
stop at the zero. -/
theorem strtoull_padded_two {n : ℕ} (hn : n < 100) :
    strtoull (padded 2 n).text 0 = UInt64.ofNat (if n = 8 ∨ n = 9 then 0 else n) := by
  by_cases h : n < 10
  · -- a leading zero, and a digit that is read as octal
    interval_cases n <;> rfl
  · rw [text_padded_of_le (k := 1) (by omega), strtoull_decimal (Or.inl rfl) (by omega),
      if_neg (by omega)]

end Numeral

end CNumeral
