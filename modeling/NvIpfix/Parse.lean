/-
**Values and their parsers.**

The value types of `types.h` and the `nvipfix_parse_*` functions of `types.c`.  A parser takes a
string and a destination, stores into the destination and returns whether it succeeded; here it
takes the previous content of the destination and returns the new one, so that what a parser
leaves alone is visible.

The integer parsers are one macro at several types: `strtoull` or `strtoll` in base `0`, a
narrowing cast, and success whatever the text.  The address and date parsers count the tokens of
`nvipfix_string_split` before they store.

Main definitions:

* `NvIpfix.Timespan`, `NvIpfix.Datetime`, `NvIpfix.IpAddress`, `NvIpfix.MacAddress`;
* `NvIpfix.parseUint`, `NvIpfix.parseSint` — the two macros, and the parsers made from them;
* `NvIpfix.parseIpAddress`, `NvIpfix.parseMacAddress`, `NvIpfix.parseDatetimeIso8601`,
  `NvIpfix.parseTimespan`, `NvIpfix.parseTimespanMilliseconds`,
  `NvIpfix.parseTimespanMicroseconds`.

Main results:

* `NvIpfix.parseUint_decimal` — an unsigned parser restores the number a decimal numeral writes;
* `NvIpfix.parseIpAddress_dottedQuad`, `NvIpfix.parseMacAddress_hexOctets`,
  `NvIpfix.parseTimespanMicroseconds_decimalInt` — the same for addresses and timespans.
-/

import NvIpfix.CString
import NvIpfix.CNumeral

set_option relaxedAutoImplicit false
set_option autoImplicit false

namespace NvIpfix

open CNumeral

/-! ### Values -/

/-- `nvIPFIX_timespan_t`. -/
structure Timespan where
  microseconds : Int64 := 0
  hasValue : Bool := false
  deriving DecidableEq, Repr

/-- `nvIPFIX_datetime_t`. -/
structure Datetime where
  year : Int32 := 0
  month : Int32 := 0
  day : Int32 := 0
  hours : Int32 := 0
  minutes : Int32 := 0
  seconds : Int32 := 0
  milliseconds : Int32 := 0
  tzOffset : Timespan := {}
  hasValue : Bool := false
  deriving DecidableEq, Repr

/-- `nvIPFIX_ip_address_t`. -/
structure IpAddress where
  value : UInt32 := 0
  hasValue : Bool := false
  deriving DecidableEq, Repr

/-- `NV_IPFIX_ADDRESS_OCTETS_COUNT_IPV4`. -/
def addressOctetsCountIpv4 : ℕ := 4

/-- `NV_IPFIX_ADDRESS_OCTETS_COUNT_MAC`. -/
abbrev addressOctetsCountMac : ℕ := 6

/-- `nvIPFIX_mac_address_t`. -/
structure MacAddress where
  octets : Vector UInt8 addressOctetsCountMac := Vector.replicate addressOctetsCountMac 0
  hasValue : Bool := false
  deriving DecidableEq, Repr

/-- `NVIPFIX_TIMESPAN_SET_SECONDS` on an `int` expression: the product is an `int`. -/
def timespanSetSeconds (seconds : Int32) : Timespan :=
  { microseconds := (seconds * 1000 * 1000).toInt64, hasValue := true }

/-! ### Integers -/

/-- A parser: from a string and the previous content of the destination, the result and the new
content. -/
abbrev ParseValue (α : Type) := CString → α → Bool × α

/-- `NVIPFIX_PARSE_UINT`, with the cast to the destination type. -/
def parseUint {α : Type} (cast : UInt64 → α) : ParseValue α := fun s _ =>
  (true, cast (strtoull s 0))

/-- `NVIPFIX_PARSE_INT`, with the cast to the destination type. -/
def parseSint {α : Type} (cast : Int64 → α) : ParseValue α := fun s _ => (true, cast (strtoll s 0))

/-- `nvipfix_parse_int`. -/
def parseInt : ParseValue Int32 := parseSint Int64.toInt32

/-- `nvipfix_parse_unsigned`. -/
def parseUnsigned : ParseValue UInt32 := parseUint UInt64.toUInt32

/-- `nvipfix_parse_octet`. -/
def parseOctet : ParseValue UInt8 := parseUint UInt64.toUInt8

/-- `nvipfix_parse_byte`. -/
def parseByte : ParseValue UInt8 := parseUint UInt64.toUInt8

/-- `nvipfix_parse_u16`. -/
def parseU16 : ParseValue UInt16 := parseUint UInt64.toUInt16

/-- `nvipfix_parse_u32`. -/
def parseU32 : ParseValue UInt32 := parseUint UInt64.toUInt32

/-- `nvipfix_parse_i64`. -/
def parseI64 : ParseValue Int64 := parseSint id

/-- `nvipfix_parse_u64`. -/
def parseU64 : ParseValue UInt64 := parseUint id

/-! ### Addresses -/

/-- The loop over the tokens of a dotted quad: the `index`-th octet is or-ed in from the top. -/
def ipAddressLoop : ℕ → UInt32 → List CString → UInt32
  | _, value, [] => value
  | index, value, token :: tokens =>
      let index := index + 1
      let octet := (strtoul token 0).toUInt8
      ipAddressLoop index (value ||| octet.toUInt32 <<< UInt32.ofNat (32 - 8 * index)) tokens

/-- `nvipfix_parse_ip_address`. -/
def parseIpAddress : ParseValue IpAddress := fun s address =>
  match stringSplit s (ascii ".") with
  | none => (false, address)
  | some tokens =>
      if tokens.length = addressOctetsCountIpv4 then
        (true, { value := ipAddressLoop 0 0 tokens, hasValue := true })
      else (false, { address with hasValue := false })

/-- The loop over the tokens of a MAC address, storing the octets in order. -/
def macAddressLoop : ℕ → Vector UInt8 addressOctetsCountMac → List CString →
    Vector UInt8 addressOctetsCountMac
  | _, octets, [] => octets
  | index, octets, token :: tokens =>
      macAddressLoop (index + 1) (octets.setIfInBounds index (strtoul token 16).toUInt8) tokens

/-- `nvipfix_parse_mac_address`. -/
def parseMacAddress : ParseValue MacAddress := fun s address =>
  match stringSplit s (ascii ":") with
  | none => (false, address)
  | some tokens =>
      if tokens.length = addressOctetsCountMac then
        (true, { octets := macAddressLoop 0 address.octets tokens, hasValue := true })
      else (false, { address with hasValue := false })

/-! ### Dates and timespans -/

/-- A token of a date or time: `nvipfix_parse_unsigned`, which succeeds on every string, assigned
to an `int` field. -/
def datetimeField (token : CString) : Int32 := (strtoull token 0).toUInt32.toInt32

/-- `nvipfix_parse_datetime_iso8601`.  The date is stored before the time is looked at. -/
def parseDatetimeIso8601 : ParseValue Datetime := fun s datetime =>
  let (result, datetime) :=
    match stringSplit s (ascii "T") with
    | some [date, time] =>
        match stringSplit date (ascii "-") with
        | some [year, month, day] =>
            let datetime := { datetime with
              year := datetimeField year, month := datetimeField month, day := datetimeField day }
            match stringSplit time (ascii ":") with
            | some [hours, minutes, seconds] =>
                (true, { datetime with
                  hours := datetimeField hours, minutes := datetimeField minutes,
                  seconds := datetimeField seconds, milliseconds := 0 })
            | _ => (false, datetime)
        | _ => (false, datetime)
    | _ => (false, datetime)
  (result, { datetime with hasValue := result, tzOffset := timespanSetSeconds 0 })

/-- `nvipfix_parse_timespan`, whose result is never set to true. -/
def parseTimespan : ParseValue Timespan := fun s timespan =>
  match stringSplit s (ascii ":") with
  | some [hours, minutes, seconds] =>
      (false, timespanSetSeconds (atoi hours * 60 * 60 + atoi minutes * 60 + atoi seconds))
  | _ => (false, timespan)

/-- `nvipfix_parse_timespan_milliseconds`: the product is a 64-bit number. -/
def parseTimespanMilliseconds : ParseValue Timespan := fun s timespan =>
  match parseInt s 0 with
  | (true, milliseconds) =>
      (true, { microseconds := milliseconds.toInt64 * 1000, hasValue := true })
  | (false, _) => (false, { timespan with hasValue := false })

/-- `nvipfix_parse_timespan_microseconds`. -/
def parseTimespanMicroseconds : ParseValue Timespan := fun s timespan =>
  match parseI64 s 0 with
  | (true, microseconds) => (true, { microseconds, hasValue := true })
  | (false, _) => (false, { timespan with hasValue := false })

/-! ### Parsing what was written -/

/-- **An unsigned parser restores a number** that fits `strtoull`, up to its cast. -/
theorem parseUint_decimal {α : Type} (cast : UInt64 → α) {n : ℕ} (hn : n < 2 ^ 64) (a : α) :
    parseUint cast (decimal n) a = (true, cast (UInt64.ofNat n)) := by
  rw [parseUint, strtoull_decimal (Or.inl rfl) hn]

theorem parseTimespanMicroseconds_decimalInt (i : Int64) (timespan : Timespan) :
    parseTimespanMicroseconds (decimalInt i.toInt) timespan =
      (true, { microseconds := i, hasValue := true }) := by
  simp only [parseTimespanMicroseconds, parseI64, parseSint, strtoll_decimalInt (Or.inl rfl), id]

/-- An octet read from its decimal numeral. -/
theorem toUInt8_strtoul_decimal (a : UInt8) : (strtoul (decimal a.toNat) 0).toUInt8 = a := by
  have ha := a.toNat_lt
  rw [strtoul, strtoull_decimal (Or.inl rfl) (by omega)]
  refine UInt8.toNat_inj.1 ?_
  simp

/-- The canonical dotted quad of four octets. -/
def dottedQuad (a b c d : UInt8) : CString :=
  decimal a.toNat ++ 46 :: (decimal b.toNat ++ 46 :: (decimal c.toNat ++ 46 :: decimal d.toNat))

/-- The address value of four octets, most significant first. -/
def ipAddressOf (a b c d : UInt8) : UInt32 :=
  a.toUInt32 <<< 24 ||| b.toUInt32 <<< 16 ||| c.toUInt32 <<< 8 ||| d.toUInt32

theorem getLast?_append_decimal (s : CString) (n : ℕ) :
    ∀ c ∈ (s ++ decimal n).getLast?, c ∈ decimal n := by
  intro c hc
  rw [List.getLast?_append_of_ne_nil _ (decimal_ne_nil n)] at hc
  exact List.mem_of_getLast? hc

/-- The tokens of a dotted quad are its four numerals. -/
theorem stringSplit_dottedQuad (a b c d : UInt8) :
    stringSplit (dottedQuad a b c d) (ascii ".") =
      some [decimal a.toNat, decimal b.toNat, decimal c.toNat, decimal d.toNat] := by
  have hfree : ∀ n, ∀ x ∈ decimal n, inCharset (ascii ".") x = false := by
    intro n
    refine forall_mem_decimal ?_
    intro e he
    interval_cases e <;> rfl
  have hdot : inCharset (ascii ".") 46 = true := rfl
  have hlast : ∀ x ∈ (dottedQuad a b c d).getLast?, x ∉ ascii "." := by
    intro x hx
    rw [← inCharset_eq_false_iff]
    refine hfree d.toNat x (getLast?_append_decimal
      (decimal a.toNat ++ 46 :: (decimal b.toNat ++ 46 :: (decimal c.toNat ++ [46]))) _ x ?_)
    simpa [dottedQuad] using hx
  rw [stringSplit_eq_runs (by simp [dottedQuad]) hlast, dottedQuad]
  rw [Tokens.runs_append_cons_of_free _ (decimal_ne_nil _) (hfree _) _ hdot,
    Tokens.runs_append_cons_of_free _ (decimal_ne_nil _) (hfree _) _ hdot,
    Tokens.runs_append_cons_of_free _ (decimal_ne_nil _) (hfree _) _ hdot,
    Tokens.runs_eq_singleton _ (decimal_ne_nil _) (hfree _)]

/-- **A dotted quad restores its address**, whatever the destination held. -/
theorem parseIpAddress_dottedQuad (a b c d : UInt8) (address : IpAddress) :
    parseIpAddress (dottedQuad a b c d) address =
      (true, { value := ipAddressOf a b c d, hasValue := true }) := by
  simp only [parseIpAddress, stringSplit_dottedQuad, addressOctetsCountIpv4, List.length_cons,
    List.length_nil, if_true, ipAddressLoop, toUInt8_strtoul_decimal, ipAddressOf]
  simp

/-- An octet written as two hexadecimal digits. -/
structure HexOctet where
  hi : UInt8
  lo : UInt8
  hi_isHexDigit : isHexDigit hi
  lo_isHexDigit : isHexDigit lo

/-- The two digits. -/
def HexOctet.text (o : HexOctet) : CString := [o.hi, o.lo]

/-- The octet they write. -/
def HexOctet.value (o : HexOctet) : UInt8 := UInt8.ofNat (16 * hexValue o.hi + hexValue o.lo)

theorem HexOctet.toUInt8_strtoul (o : HexOctet) : (strtoul o.text 16).toUInt8 = o.value := by
  have hhi := (digitValue_of_isHexDigit o.hi_isHexDigit).2
  have hlo := (digitValue_of_isHexDigit o.lo_isHexDigit).2
  rw [HexOctet.text, strtoul_hexPair o.hi_isHexDigit o.lo_isHexDigit, HexOctet.value]
  refine UInt8.toNat_inj.1 ?_
  simp

/-- A hexadecimal digit is no character of a set of characters that are no digits. -/
theorem not_mem_of_isHexDigit {c : UInt8} (h : isHexDigit c) {charset : CString}
    (hset : ∀ x ∈ charset, isHexDigit x = false) : c ∉ charset := by
  intro hc
  rw [hset c hc] at h
  simp at h

/-- Six hexadecimal octets joined by colons. -/
def hexOctets (a b c d e f : HexOctet) : CString :=
  a.text ++ 58 :: (b.text ++ 58 :: (c.text ++ 58 :: (d.text ++ 58 :: (e.text ++ 58 :: f.text))))

theorem stringSplit_hexOctets (a b c d e f : HexOctet) :
    stringSplit (hexOctets a b c d e f) (ascii ":") =
      some [a.text, b.text, c.text, d.text, e.text, f.text] := by
  have hset : ∀ x ∈ ascii ":", isHexDigit x = false := by decide
  have hfree : ∀ o : HexOctet, ∀ x ∈ o.text, inCharset (ascii ":") x = false := by
    intro o x hx
    rw [inCharset_eq_false_iff]
    simp only [HexOctet.text, List.mem_cons, List.not_mem_nil, or_false] at hx
    rcases hx with rfl | rfl
    · exact not_mem_of_isHexDigit o.hi_isHexDigit hset
    · exact not_mem_of_isHexDigit o.lo_isHexDigit hset
  have hne : ∀ o : HexOctet, o.text ≠ [] := fun o => by simp [HexOctet.text]
  have hcolon : inCharset (ascii ":") 58 = true := rfl
  have hlast : ∀ x ∈ (hexOctets a b c d e f).getLast?, x ∉ ascii ":" := by
    intro x hx
    rw [← inCharset_eq_false_iff]
    refine hfree f x ?_
    simp only [hexOctets, HexOctet.text, List.cons_append, List.nil_append,
      List.getLast?_cons_cons, List.getLast?_singleton, Option.mem_some_iff] at hx
    simp [HexOctet.text, hx]
  rw [stringSplit_eq_runs (by simp [hexOctets]) hlast, hexOctets]
  rw [Tokens.runs_append_cons_of_free _ (hne a) (hfree a) _ hcolon,
    Tokens.runs_append_cons_of_free _ (hne b) (hfree b) _ hcolon,
    Tokens.runs_append_cons_of_free _ (hne c) (hfree c) _ hcolon,
    Tokens.runs_append_cons_of_free _ (hne d) (hfree d) _ hcolon,
    Tokens.runs_append_cons_of_free _ (hne e) (hfree e) _ hcolon,
    Tokens.runs_eq_singleton _ (hne f) (hfree f)]

/-- Six stores fill the six octets. -/
theorem setIfInBounds_six (v : Vector UInt8 addressOctetsCountMac) (a b c d e f : UInt8) :
    (((((v.setIfInBounds 0 a).setIfInBounds 1 b).setIfInBounds 2 c).setIfInBounds 3 d).setIfInBounds
      4 e).setIfInBounds 5 f = #v[a, b, c, d, e, f] := by
  match v with
  | ⟨⟨[_, _, _, _, _, _]⟩, _⟩ => rfl

/-- **Six hexadecimal octets restore their address**, whatever the destination held. -/
theorem parseMacAddress_hexOctets (a b c d e f : HexOctet) (address : MacAddress) :
    parseMacAddress (hexOctets a b c d e f) address =
      (true, { octets := #v[a.value, b.value, c.value, d.value, e.value, f.value],
               hasValue := true }) := by
  simp only [parseMacAddress, stringSplit_hexOctets, List.length_cons, List.length_nil, if_true,
    macAddressLoop, HexOctet.toUInt8_strtoul, ← setIfInBounds_six address.octets]

end NvIpfix
