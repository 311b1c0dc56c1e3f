/-
**Address texts.**

`nvipfix_parse_ip_address` accepts a text if `.` cuts it into four fields, and
`nvipfix_parse_mac_address` if `:` cuts it into six.  What a field holds does not matter, and
neither do further delimiters between the fields or around them.  Each field goes through `strtoul`
and a cast to an octet; `strtoul` in base `0` reads a field with a leading zero as octal.

Main definitions:

* `NvIpfix.AcceptsExactly` — a parser accepts the texts that write a value, and stores it;
* `NvIpfix.OctetNumeral`, `NvIpfix.DottedQuad` — four decimal numerals of octets joined by dots;
* `NvIpfix.HexGroup`, `NvIpfix.MacText` — six groups of hexadecimal digits joined by colons.

Main results:

* `NvIpfix.parseIpAddress_fst_iff`, `NvIpfix.parseMacAddress_fst_iff` — the parsers accept by the
  number of fields;
* `NvIpfix.addressParsers_exact_iff` — **when the parsers accept exactly addresses**.
-/

import NvIpfix.IntegerSyntax
import NvIpfix.IsoDatetime
import NvIpfix.MainExport

set_option relaxedAutoImplicit false
set_option autoImplicit false

namespace NvIpfix

open CNumeral

/-! ### Accepting by the number of fields -/

section Fields

variable {s : CString} {d : UInt8} {n : ℕ}

/-- A result that depends on the number of tokens only. -/
theorem fst_iff_of_count {accepted : Bool} (hnone : stringSplit s [d] = none → accepted = false)
    (hsome : ∀ tokens, stringSplit s [d] = some tokens →
      accepted = decide (tokens.length = n)) :
    accepted = true ↔ ∃ fields, CutAt d s fields ∧ fields.length = n := by
  constructor
  · intro h
    cases hsplit : stringSplit s [d] with
    | none =>
        rw [hnone hsplit] at h
        cases h
    | some tokens =>
        rw [hsome tokens hsplit, decide_eq_true_eq] at h
        exact ⟨tokens, stringSplit_eq_some_iff.1 hsplit, h⟩
  · rintro ⟨fields, hcut, hlength⟩
    rw [hsome fields hcut.stringSplit_eq, decide_eq_true_eq]
    exact hlength

/-- A parser accepts a text exactly if it writes a value, and then stores this value. -/
def AcceptsExactly {β : Type} (parseValue : ParseValue β) (Writes : CString → β → Prop)
    (s : CString) : Prop :=
  ∀ old, ((parseValue s old).1 = true ↔ ∃ value, Writes s value) ∧
    ∀ value, Writes s value → (parseValue s old).2 = value

/-- **A parser that accepts by the number of fields** is exact if no other text has as many, and
values are stored as they are written. -/
theorem acceptsExactly_iff {β : Type} (start : β) {parseValue : ParseValue β}
    {Writes : CString → β → Prop}
    (haccept : ∀ old, (parseValue s old).1 = true ↔ ∃ fields, CutAt d s fields ∧ fields.length = n)
    (hwrites : ∀ value, Writes s value → ∃ fields, CutAt d s fields ∧ fields.length = n) :
    AcceptsExactly parseValue Writes s ↔
      (∀ fields, CutAt d s fields → fields.length = n → ∃ value, Writes s value) ∧
        ∀ value, Writes s value → ∀ old, (parseValue s old).2 = value := by
  constructor
  · intro h
    constructor
    · intro fields hcut hlength
      exact (h start).1.1 ((haccept start).2 ⟨fields, hcut, hlength⟩)
    · intro value hvalue old
      exact (h old).2 value hvalue
  · rintro ⟨hfields, hstored⟩ old
    refine ⟨⟨?_, ?_⟩, fun value hvalue => hstored value hvalue old⟩
    · intro h
      obtain ⟨fields, hcut, hlength⟩ := (haccept old).1 h
      exact hfields fields hcut hlength
    · rintro ⟨value, hvalue⟩
      exact (haccept old).2 (hwrites value hvalue)

end Fields

/-! ### Octets in decimal -/

/-- A decimal numeral of an octet. -/
structure OctetNumeral extends Numeral where
  value_le : toNumeral.value ≤ 255

namespace OctetNumeral

variable (o : OctetNumeral)

/-- The octet it writes. -/
def octet : UInt8 := UInt8.ofNat o.value

theorem toNat_octet : o.octet.toNat = o.value := by
  have hle := o.value_le
  rw [octet, UInt8.toNat_ofNat']
  omega

/-- **The cast of what `strtoul` reads** is the octet, unless base `0` misreads the numeral. -/
theorem toUInt8_strtoul_iff : (strtoul o.text 0).toUInt8 = o.octet ↔ o.ReadsDecimal := by
  have hle := o.value_le
  have hmagnitude := o.magnitude_le
  rw [strtoul, strtoull_of_allDigits o.ne_nil o.allDigits (by omega), ← UInt8.toNat_inj,
    o.toNat_octet, ← o.magnitude_eq_iff, UInt64.toNat_toUInt8, UInt64.toNat_ofNat']
  omega

end OctetNumeral

/-! ### Internet addresses -/

/-- Four decimal numerals of octets. -/
structure DottedQuad where
  a : OctetNumeral
  b : OctetNumeral
  c : OctetNumeral
  d : OctetNumeral

namespace DottedQuad

variable (q : DottedQuad)

/-- The numerals with single dots between them. -/
def text : CString := q.a.text ++ 46 :: (q.b.text ++ 46 :: (q.c.text ++ 46 :: q.d.text))

/-- The address, whose most significant octet comes first. -/
def address : UInt32 := ipAddressOf q.a.octet q.b.octet q.c.octet q.d.octet

/-- No numeral is misread. -/
def ReadsDecimal : Prop :=
  q.a.ReadsDecimal ∧ q.b.ReadsDecimal ∧ q.c.ReadsDecimal ∧ q.d.ReadsDecimal

theorem cutAt_text : CutAt 46 q.text [q.a.text, q.b.text, q.c.text, q.d.text] :=
  have hdot : ∀ o : OctetNumeral, 46 ∉ o.text := fun o => o.not_mem (.inl (by decide))
  .cons q.a.ne_nil (hdot q.a) (.cons q.b.ne_nil (hdot q.b)
    (.cons q.c.ne_nil (hdot q.c) (.last q.d.ne_nil (hdot q.d))))

end DottedQuad

/-- Four octets are told apart by their address. -/
theorem ipAddressOf_inj {a b c d a' b' c' d' : UInt8} :
    ipAddressOf a b c d = ipAddressOf a' b' c' d' ↔ a = a' ∧ b = b' ∧ c = c' ∧ d = d' := by
  have ha := a.toNat_lt
  have hb := b.toNat_lt
  have hc := c.toNat_lt
  have hd := d.toNat_lt
  have ha' := a'.toNat_lt
  have hb' := b'.toNat_lt
  have hc' := c'.toNat_lt
  have hd' := d'.toNat_lt
  simp only [← UInt32.toNat_inj, ← UInt8.toNat_inj, toNat_ipAddressOf]
  omega

/-- The octet that is made of a field. -/
def fieldOctet (base : ℕ) (field : CString) : UInt8 := (strtoul field base).toUInt8

/-- What the parser makes of four fields. -/
theorem CutAt.parseIpAddress_eq {s a b c d : CString} (h : CutAt 46 s [a, b, c, d])
    (address : IpAddress) : parseIpAddress s address =
      (true, { value := ipAddressOf (fieldOctet 0 a) (fieldOctet 0 b) (fieldOctet 0 c)
                 (fieldOctet 0 d), hasValue := true }) := by
  have hsplit : stringSplit s (ascii ".") = some [a, b, c, d] := h.stringSplit_eq
  simp only [parseIpAddress, hsplit, addressOctetsCountIpv4, List.length_cons, List.length_nil,
    if_true, ipAddressLoop, fieldOctet, ipAddressOf]
  simp

/-- `nvipfix_parse_ip_address` succeeds on the texts that are cut into four fields. -/
theorem parseIpAddress_fst_iff (s : CString) (address : IpAddress) :
    (parseIpAddress s address).1 = true ↔ ∃ fields, CutAt 46 s fields ∧ fields.length = 4 := by
  have hdot : ascii "." = [46] := rfl
  refine fst_iff_of_count ?_ ?_
  · intro hsplit
    rw [parseIpAddress, hdot, hsplit]
  · intro tokens hsplit
    rw [parseIpAddress, hdot, hsplit]
    dsimp only
    rw [apply_ite Prod.fst, Bool.if_true_left, Bool.or_false]
    rfl

/-- A dotted quad writes its address. -/
def DottedQuad.Writes (s : CString) (address : IpAddress) : Prop :=
  ∃ q : DottedQuad, s = q.text ∧ address = { value := q.address, hasValue := true }

/-- A dotted quad is stored exactly unless base `0` misreads one of its numerals. -/
theorem parseIpAddress_text_iff (q : DottedQuad) (address : IpAddress) :
    (parseIpAddress q.text address).2 = { value := q.address, hasValue := true } ↔
      q.ReadsDecimal := by
  rw [q.cutAt_text.parseIpAddress_eq]
  simp only [IpAddress.mk.injEq, and_true, DottedQuad.address, ipAddressOf_inj, fieldOctet,
    OctetNumeral.toUInt8_strtoul_iff]
  exact Iff.rfl

theorem ipAddress_acceptsExactly_iff (s : CString) :
    AcceptsExactly parseIpAddress DottedQuad.Writes s ↔
      (∀ fields, CutAt 46 s fields → fields.length = 4 → ∃ q : DottedQuad, s = q.text) ∧
        ∀ q : DottedQuad, s = q.text → q.ReadsDecimal := by
  rw [acceptsExactly_iff {} (parseIpAddress_fst_iff s)]
  · refine and_congr ?_ ?_
    · simp only [DottedQuad.Writes, exists_comm (α := IpAddress), exists_and_left, exists_eq,
        and_true]
    · constructor
      · rintro h q rfl
        exact (parseIpAddress_text_iff q {}).1 (h _ ⟨q, rfl, rfl⟩ {})
      · rintro h _ ⟨q, rfl, rfl⟩ address
        exact (parseIpAddress_text_iff q address).2 (h q rfl)
  · rintro _ ⟨q, rfl, -⟩
    exact ⟨_, q.cutAt_text, rfl⟩

/-! ### Hardware addresses -/

/-- One or two hexadecimal digits. -/
structure HexGroup where
  text : CString
  ne_nil : text ≠ []
  length_le : text.length ≤ 2
  allDigits : AllDigits 16 text

namespace HexGroup

variable (g : HexGroup)

/-- The octet they write. -/
def octet : UInt8 := UInt8.ofNat (digitsValue 16 g.text)

theorem colon_not_mem : 58 ∉ g.text := by
  intro hmem
  obtain ⟨d, -, hd⟩ := g.allDigits 58 hmem
  exact absurd hd (by simp [digitValue])

theorem toNat_octet : g.octet.toNat = digitsValue 16 g.text := by
  have hlt : digitsValue 16 g.text < 16 ^ 2 :=
    (digitsValue_lt g.allDigits).trans_le (Nat.pow_le_pow_right (by omega) g.length_le)
  rw [octet, UInt8.toNat_ofNat']
  omega

/-- The cast of what `strtoul` reads is the octet. -/
theorem toUInt8_strtoul : (strtoul g.text 16).toUInt8 = g.octet := by
  have hvalue := magnitude_sixteen g.allDigits
  have hoctet := g.toNat_octet
  have hlt := g.octet.toNat_lt
  rw [strtoul, strtoull_of_allDigits g.ne_nil g.allDigits (by omega), ← UInt8.toNat_inj,
    UInt64.toNat_toUInt8, UInt64.toNat_ofNat']
  omega

end HexGroup

/-- Six groups of hexadecimal digits. -/
structure MacText where
  a : HexGroup
  b : HexGroup
  c : HexGroup
  d : HexGroup
  e : HexGroup
  f : HexGroup

namespace MacText

variable (m : MacText)

/-- The groups with single colons between them. -/
def text : CString :=
  m.a.text ++ 58 :: (m.b.text ++ 58 :: (m.c.text ++ 58 :: (m.d.text ++ 58 ::
    (m.e.text ++ 58 :: m.f.text))))

/-- The octets in order. -/
def octets : Vector UInt8 addressOctetsCountMac :=
  #v[m.a.octet, m.b.octet, m.c.octet, m.d.octet, m.e.octet, m.f.octet]

theorem cutAt_text : CutAt 58 m.text
    [m.a.text, m.b.text, m.c.text, m.d.text, m.e.text, m.f.text] :=
  .cons m.a.ne_nil m.a.colon_not_mem (.cons m.b.ne_nil m.b.colon_not_mem
    (.cons m.c.ne_nil m.c.colon_not_mem (.cons m.d.ne_nil m.d.colon_not_mem
      (.cons m.e.ne_nil m.e.colon_not_mem (.last m.f.ne_nil m.f.colon_not_mem)))))

/-- Six groups write their octets. -/
def Writes (s : CString) (address : MacAddress) : Prop :=
  ∃ m : MacText, s = m.text ∧ address = { octets := m.octets, hasValue := true }

end MacText

/-- `nvipfix_parse_mac_address` succeeds on the texts that are cut into six fields. -/
theorem parseMacAddress_fst_iff (s : CString) (address : MacAddress) :
    (parseMacAddress s address).1 = true ↔ ∃ fields, CutAt 58 s fields ∧ fields.length = 6 := by
  have hcolon : ascii ":" = [58] := rfl
  refine fst_iff_of_count ?_ ?_
  · intro hsplit
    rw [parseMacAddress, hcolon, hsplit]
  · intro tokens hsplit
    rw [parseMacAddress, hcolon, hsplit]
    dsimp only
    rw [apply_ite Prod.fst, Bool.if_true_left, Bool.or_false]

/-- Six groups are stored exactly. -/
theorem parseMacAddress_text (m : MacText) (address : MacAddress) :
    parseMacAddress m.text address = (true, { octets := m.octets, hasValue := true }) := by
  have hsplit : stringSplit m.text (ascii ":") =
      some [m.a.text, m.b.text, m.c.text, m.d.text, m.e.text, m.f.text] :=
    m.cutAt_text.stringSplit_eq
  simp only [parseMacAddress, hsplit, List.length_cons, List.length_nil, if_true, macAddressLoop,
    HexGroup.toUInt8_strtoul, MacText.octets, ← setIfInBounds_six address.octets]

theorem macAddress_acceptsExactly_iff (s : CString) :
    AcceptsExactly parseMacAddress MacText.Writes s ↔
      ∀ fields, CutAt 58 s fields → fields.length = 6 → ∃ m : MacText, s = m.text := by
  rw [acceptsExactly_iff {} (parseMacAddress_fst_iff s)]
  · have hstored : ∀ value, MacText.Writes s value → ∀ old, (parseMacAddress s old).2 = value := by
      rintro _ ⟨m, rfl, rfl⟩ old
      rw [parseMacAddress_text]
    rw [and_iff_left hstored]
    simp only [MacText.Writes, exists_comm (α := MacAddress), exists_and_left, exists_eq, and_true]
  · rintro _ ⟨m, rfl, -⟩
    exact ⟨_, m.cutAt_text, rfl⟩

/-! ### Both parsers -/

/-- **When the address parsers accept exactly addresses**: a text that `.` cuts into four fields is
a dotted quad, none of whose numerals base `0` misreads, and a text that `:` cuts into six fields is
six groups of hexadecimal digits. -/
theorem addressParsers_exact_iff (s : CString) :
    (AcceptsExactly parseIpAddress DottedQuad.Writes s ↔
        (∀ fields, CutAt 46 s fields → fields.length = 4 → ∃ q : DottedQuad, s = q.text) ∧
          ∀ q : DottedQuad, s = q.text → q.ReadsDecimal) ∧
      (AcceptsExactly parseMacAddress MacText.Writes s ↔
        ∀ fields, CutAt 58 s fields → fields.length = 6 → ∃ m : MacText, s = m.text) :=
  ⟨ipAddress_acceptsExactly_iff s, macAddress_acceptsExactly_iff s⟩

/-- Octets that are too large, misread octets and letters are accepted. -/
theorem addressParsers_accept :
    parseIpAddress (ascii "256.0.0.1") {} = (true, { value := 1, hasValue := true }) ∧
      ¬ AcceptsExactly parseIpAddress DottedQuad.Writes (ascii "256.0.0.1") ∧
      parseIpAddress (ascii "010.0.0.1") {} = (true, { value := 0x08000001, hasValue := true }) ∧
      parseMacAddress (ascii "x:0:0:0:0:1") {} =
        (true, { octets := #v[0, 0, 0, 0, 0, 1], hasValue := true }) ∧
      ¬ AcceptsExactly parseMacAddress MacText.Writes (ascii "x:0:0:0:0:1") := by
  have hip : parseIpAddress (ascii "256.0.0.1") {} = (true, { value := 1, hasValue := true }) := by
    decide
  have hmac : parseMacAddress (ascii "x:0:0:0:0:1") {} =
      (true, { octets := #v[0, 0, 0, 0, 0, 1], hasValue := true }) := by decide
  refine ⟨hip, ?_, by decide, hmac, ?_⟩
  · intro h
    obtain ⟨_, q, hq, -⟩ := (h {}).1.1 (by rw [hip])
    -- the first numeral would be `256`
    have hsplit := q.cutAt_text.stringSplit_eq
    rw [← hq, show stringSplit (ascii "256.0.0.1") [46] =
      some [ascii "256", ascii "0", ascii "0", ascii "1"] by decide] at hsplit
    have htext : q.a.text = ascii "256" := (List.cons.inj (Option.some.inj hsplit)).1.symm
    have hle := q.a.value_le
    rw [Numeral.value, htext] at hle
    exact absurd hle (by decide)
  · intro h
    obtain ⟨_, m, hm, -⟩ := (h {}).1.1 (by rw [hmac])
    have hsplit := m.cutAt_text.stringSplit_eq
    rw [← hm, show stringSplit (ascii "x:0:0:0:0:1") [58] =
      some [ascii "x", ascii "0", ascii "0", ascii "0", ascii "0", ascii "1"] by decide] at hsplit
    have htext : m.a.text = ascii "x" := (List.cons.inj (Option.some.inj hsplit)).1.symm
    obtain ⟨d, hd, hvalue⟩ := m.a.allDigits 120 (by rw [htext]; decide)
    -- `x` is no hexadecimal digit
    have hx : digitValue 120 = some 33 := by decide
    rw [hx, Option.some.injEq] at hvalue
    omega

end NvIpfix
