/-
**Importing undoes rendering.**

A connection is a list of given items, one for each entry of the table except the two dates, with
values of the full range of the entry's type.  Rendered as an object of a compact document, with
each value bare or in quotes, it is imported as the record that holds exactly these values.

The proof is in three layers.  Every parser of the table restores its value and looks at nothing
else (`Given.parser_text`); a member of a rendered object therefore stores that value at its offset
(`Given.store_member`); and members of different entries do not disturb each other.

Main definitions:

* `NvIpfix.Given` — an item with its value; `NvIpfix.Given.text`, `NvIpfix.Given.value`;
* `NvIpfix.Connection`, `NvIpfix.Connection.object`, `NvIpfix.Connection.Holds`.

Main results:

* `NvIpfix.Given.store_member` — a rendered member stores its value at its offset;
* `NvIpfix.Connection.holds_record` — the record of a rendered connection holds it;
* `NvIpfix.importText_render` — **importing undoes rendering**.
-/

import Mathlib.Data.List.Forall2
import NvIpfix.Document

set_option relaxedAutoImplicit false
set_option autoImplicit false

namespace NvIpfix

open CNumeral

/-! ### Given items -/

/-- The states a connection may be in. -/
inductive CurState
  | fin
  | rst
  | syn
  | est

/-- The text of a state. -/
def CurState.text : CurState → CString
  | fin => ascii "fin"
  | rst => ascii "rst"
  | syn => ascii "syn"
  | est => ascii "est"

/-- The flag that stands for a state. -/
def CurState.flag : CurState → TcpControlFlag
  | fin => .fin
  | rst => .rst
  | syn => .syn
  | est => .ack

/-- An item of a connection, with a value of the full range of its entry. -/
inductive Given
  | vlan (n : UInt16)
  | srcSwitchPort (n : UInt32)
  | dstSwitchPort (n : UInt32)
  | dscp (n : UInt8)
  | srcPort (n : UInt16)
  | dstPort (n : UInt16)
  | ibytes (n : UInt64)
  | obytes (n : UInt64)
  | totalBytes (n : UInt64)
  | vxlan (n : UInt64) (h : n.toNat < 2 ^ 56)
  | curState (s : CurState)
  | proto (n : UInt8)
  | etherType (n : UInt16)
  | srcMac (a b c d e f : HexOctet)
  | dstMac (a b c d e f : HexOctet)
  | srcIp (a b c d : UInt8)
  | dstIp (a b c d : UInt8)
  | dur (microseconds : Int64)
  | latency (microseconds : Int64)

namespace Given

/-- The name of the entry. -/
def name : Given → CString
  | vlan _ => ascii "vlan"
  | srcSwitchPort _ => ascii "src-switch-port"
  | dstSwitchPort _ => ascii "dst-switch-port"
  | dscp _ => ascii "dscp"
  | srcPort _ => ascii "src-port"
  | dstPort _ => ascii "dst-port"
  | ibytes _ => ascii "ibytes"
  | obytes _ => ascii "obytes"
  | totalBytes _ => ascii "total-bytes"
  | vxlan _ _ => ascii "vxlan"
  | curState _ => ascii "cur-state"
  | proto _ => ascii "proto"
  | etherType _ => ascii "ether-type"
  | srcMac .. => ascii "src-mac"
  | dstMac .. => ascii "dst-mac"
  | srcIp .. => ascii "src-ip"
  | dstIp .. => ascii "dst-ip"
  | dur _ => ascii "dur"
  | latency _ => ascii "latency"

/-- The text of the value. -/
def text : Given → CString
  | vlan n | srcPort n | dstPort n | etherType n => decimal n.toNat
  | srcSwitchPort n | dstSwitchPort n => decimal n.toNat
  | dscp n | proto n => decimal n.toNat
  | ibytes n | obytes n | totalBytes n | vxlan n _ => decimal n.toNat
  | curState s => s.text
  | srcMac a b c d e f | dstMac a b c d e f => hexOctets a b c d e f
  | srcIp a b c d | dstIp a b c d => dottedQuad a b c d
  | dur t | latency t => decimalInt t.toInt

/-- The field of the record that the item is meant for. -/
def field : Given → DataField
  | vlan _ => .vlanId
  | srcSwitchPort _ => .ingressInterface
  | dstSwitchPort _ => .egressInterface
  | dscp _ => .dscp
  | srcPort _ => .sourcePort
  | dstPort _ => .destinationPort
  | ibytes _ => .responderOctets
  | obytes _ => .initiatorOctets
  | totalBytes _ => .transportOctetDeltaCount
  | vxlan _ _ => .layer2SegmentId
  | curState _ => .tcpControlBits
  | proto _ => .protocol
  | etherType _ => .ethernetType
  | srcMac .. => .sourceMac
  | dstMac .. => .destinationMac
  | srcIp .. => .sourceIp
  | dstIp .. => .destinationIp
  | dur _ => .flowDuration
  | latency _ => .latency

/-- The value the field is to hold. -/
def value : (g : Given) → g.field.Value
  | vlan n | srcPort n | dstPort n => n
  | srcSwitchPort n | dstSwitchPort n => n
  | dscp n => n
  | ibytes n | obytes n | totalBytes n => n
  | vxlan n _ => n ||| (0x01 : UInt64) <<< 56
  | curState s => s.flag
  | proto n => n.toUInt32
  | etherType n => n.toUInt32
  | srcMac a b c d e f | dstMac a b c d e f =>
      { octets := #v[a.value, b.value, c.value, d.value, e.value, f.value], hasValue := true }
  | srcIp a b c d | dstIp a b c d => { value := ipAddressOf a b c d, hasValue := true }
  | dur t | latency t => { microseconds := t, hasValue := true }

/-- The parser of the entry. -/
def parser : (g : Given) → ParseValue g.field.Value
  | vlan _ | srcPort _ | dstPort _ => parseU16
  | srcSwitchPort _ => importParseIngress
  | dstSwitchPort _ => importParseEgress
  | dscp _ => parseByte
  | ibytes _ | obytes _ | totalBytes _ => parseU64
  | vxlan _ _ => importParseLayer2
  | curState _ => importParseTcpControlFlags
  | proto _ => importParseProtocol
  | etherType _ => importParseEthernetType
  | srcMac .. | dstMac .. => parseMacAddress
  | srcIp .. | dstIp .. => parseIpAddress
  | dur _ | latency _ => parseTimespanMicroseconds

/-! ### Every parser restores its value -/

/-- **The parser of an entry restores the value**, whatever the field held before. -/
theorem parser_text (g : Given) (old : g.field.Value) : g.parser g.text old = (true, g.value) := by
  have h8 : ∀ n : UInt8, n.toNat < 2 ^ 64 := fun n => lt_trans n.toNat_lt (by decide)
  have h16 : ∀ n : UInt16, n.toNat < 2 ^ 64 := fun n => lt_trans n.toNat_lt (by decide)
  have h32 : ∀ n : UInt32, n.toNat < 2 ^ 64 := fun n => lt_trans n.toNat_lt (by decide)
  have h64 : ∀ n : UInt64, n.toNat < 2 ^ 64 := fun n => n.toNat_lt
  cases g with
  | vlan n | srcPort n | dstPort n =>
      exact (parseUint_decimal _ (h16 n) old).trans (by simp [value])
  | srcSwitchPort n | dstSwitchPort n =>
      exact (parseUint_decimal _ (h32 n) old).trans (by simp [value])
  | dscp n => exact (parseUint_decimal _ (h8 n) old).trans (by simp [value])
  | ibytes n | obytes n | totalBytes n =>
      exact (parseUint_decimal _ (h64 n) old).trans (by simp [value])
  | vxlan n h =>
      have hparse : parseU64 (decimal n.toNat) old = (true, n) :=
        (parseUint_decimal _ (h64 n) old).trans (by simp; rfl)
      simp only [parser, importParseLayer2, text, hparse]
      rfl
  | curState s => cases s <;> rfl
  | proto n =>
      have hparse : parseOctet (decimal n.toNat) 0 = (true, n) :=
        (parseUint_decimal _ (h8 n) 0).trans (by simp)
      simp only [parser, importParseProtocol, text, hparse]
      rfl
  | etherType n =>
      have hparse : parseU16 (decimal n.toNat) 0 = (true, n) :=
        (parseUint_decimal _ (h16 n) 0).trans (by simp)
      simp only [parser, importParseEthernetType, text, hparse]
      rfl
  | srcMac a b c d e f | dstMac a b c d e f => exact parseMacAddress_hexOctets a b c d e f old
  | srcIp a b c d | dstIp a b c d => exact parseIpAddress_dottedQuad a b c d old
  | dur t | latency t => exact parseTimespanMicroseconds_decimalInt t old

/-- The entry is found under its name. -/
theorem importGetItem_name (g : Given) :
    importGetItem g.name = some ⟨g.name, g.field, g.parser⟩ := by
  cases g <;> rfl

/-! ### Rendered members -/

/-- The characters that occur neither in a rendered name nor in a rendered value. -/
def stops : CString := itemTrimChars ++ valueStops

theorem free_decimal (n : ℕ) : Free stops (decimal n) := by
  refine forall_mem_decimal ?_
  intro d hd
  interval_cases d <;> decide

theorem free_hexOctets (a b c d e f : HexOctet) : Free stops (hexOctets a b c d e f) := by
  have hset : ∀ x ∈ stops, isHexDigit x = false := by decide
  have hoctet : ∀ o : HexOctet, Free stops o.text := by
    intro o
    simp only [HexOctet.text, free_cons, free_nil, and_true]
    exact ⟨not_mem_of_isHexDigit o.hi_isHexDigit hset, not_mem_of_isHexDigit o.lo_isHexDigit hset⟩
  have hcolon : (58 : UInt8) ∉ stops := by decide
  simp only [hexOctets, free_append, free_cons, hoctet, hcolon, not_false_eq_true, and_self]

theorem free_dottedQuad (a b c d : UInt8) : Free stops (dottedQuad a b c d) := by
  have hdot : (46 : UInt8) ∉ stops := by decide
  simp only [dottedQuad, free_append, free_cons, free_decimal, hdot, not_false_eq_true, and_self]

theorem free_decimalInt (z : ℤ) : Free stops (decimalInt z) := by
  rw [decimalInt]
  split
  · exact free_cons.2 ⟨by decide, free_decimal _⟩
  · exact free_decimal _

theorem free_text (g : Given) : Free stops g.text := by
  cases g with
  | vlan n | srcPort n | dstPort n | etherType n => exact free_decimal _
  | srcSwitchPort n | dstSwitchPort n => exact free_decimal _
  | dscp n | proto n => exact free_decimal _
  | ibytes n | obytes n | totalBytes n => exact free_decimal _
  | vxlan n _ => exact free_decimal _
  | curState s => cases s <;> decide
  | srcMac a b c d e f | dstMac a b c d e f => exact free_hexOctets a b c d e f
  | srcIp a b c d | dstIp a b c d => exact free_dottedQuad a b c d
  | dur t | latency t => exact free_decimalInt _

theorem text_ne_nil (g : Given) : g.text ≠ [] := by
  cases g with
  | vlan n | srcPort n | dstPort n | etherType n => exact decimal_ne_nil _
  | srcSwitchPort n | dstSwitchPort n => exact decimal_ne_nil _
  | dscp n | proto n => exact decimal_ne_nil _
  | ibytes n | obytes n | totalBytes n => exact decimal_ne_nil _
  | vxlan n _ => exact decimal_ne_nil _
  | curState s => cases s <;> decide
  | srcMac a b c d e f | dstMac a b c d e f => simp [text, hexOctets]
  | srcIp a b c d | dstIp a b c d => simp [text, dottedQuad]
  | dur t | latency t =>
      simp only [text, decimalInt]
      split
      · simp
      · exact decimal_ne_nil _

theorem free_name (g : Given) : Free (58 :: stops) g.name := by
  have hall : ∀ item ∈ importItems, Free (58 :: stops) item.name := by decide
  exact hall _ (importGetItem_eq_some g.importGetItem_name).1

/-- The member that renders an item, its value bare or in quotes. -/
def member (g : Given) (quoted : Bool) : Member where
  name := ⟨g.name, g.free_name.mono (by decide)⟩
  value := ⟨quoted, g.text, g.free_text.mono (by decide), fun _ => g.text_ne_nil⟩

/-- A text without characters to trim is trimmed to itself. -/
theorem stringTrim_of_free {s : CString} (h : Free itemTrimChars s) :
    stringTrim s (some itemTrimChars) = s := by
  have hkeep := h.inCharset_eq_false
  rw [stringTrim_eq_trim]
  exact Tokens.trim_eq_self _ (fun c hc => hkeep c (List.mem_of_mem_head? hc))
    fun c hc => hkeep c (List.mem_of_getLast? hc)

/-- **A rendered member stores its value at its offset.** -/
theorem store_member (g : Given) (quoted : Bool) (data : DataRecord) :
    (g.member quoted).store data = data.set g.field g.value := by
  have hname : trimName g.name = g.name := stringTrim_of_free (g.free_name.mono (by decide))
  have htext : trimValue g.text = g.text := stringTrim_of_free (g.free_text.mono (by decide))
  simp only [Member.store, member, hname, htext, storeMember, importGetItem_name,
    ImportItem.parseInto, parser_text]

end Given

/-! ### Connections -/

/-- An item of a connection, and whether its value is written in quotes. -/
structure GivenMember where
  given : Given
  quoted : Bool

/-- A connection: a non-empty list of items, no two of them of one name. -/
structure Connection where
  members : List GivenMember
  nonempty : members ≠ []
  nodup : (members.map fun m => m.given.name).Nodup

/-- The object that renders a connection. -/
def Connection.object (c : Connection) : Object where
  members := c.members.map fun m => m.given.member m.quoted
  nonempty := by simpa using c.nonempty

/-- A record holds the value of every member of a connection, and zero everywhere else. -/
def Connection.Holds (c : Connection) (record : DataRecord) : Prop :=
  (∀ m ∈ c.members, record.get m.given.field = m.given.value) ∧
    ∀ field, (∀ m ∈ c.members, m.given.field ≠ field) →
      record.get field = ({} : DataRecord).get field

/-- Items of one field have one name. -/
theorem Given.name_eq_of_field_eq {g g' : Given} (h : g.field = g'.field) : g.name = g'.name := by
  by_contra hname
  exact importItems_field_ne _ (importGetItem_eq_some g.importGetItem_name).1
    _ (importGetItem_eq_some g'.importGetItem_name).1 hname h

/-- Storing the members of a list, field by field. -/
def storeGiven (data : DataRecord) (members : List GivenMember) : DataRecord :=
  members.foldl (fun data m => data.set m.given.field m.given.value) data

/-- A field of no member keeps its value. -/
theorem get_storeGiven_of_ne {members : List GivenMember} {field : DataField}
    (h : ∀ m ∈ members, m.given.field ≠ field) (data : DataRecord) :
    (storeGiven data members).get field = data.get field := by
  induction members generalizing data with
  | nil => rfl
  | cons m ms ih =>
      have hm := ih (fun m' hm' => h m' (by simp [hm'])) (data.set m.given.field m.given.value)
      rw [DataRecord.get_set_of_ne _ (h m (by simp))] at hm
      exact hm

/-- The field of a member holds its value, when no other member has its name. -/
theorem get_storeGiven_of_mem {members : List GivenMember}
    (hnodup : (members.map fun m => m.given.name).Nodup) {m : GivenMember} (hm : m ∈ members)
    (data : DataRecord) : (storeGiven data members).get m.given.field = m.given.value := by
  induction members generalizing data with
  | nil => simp at hm
  | cons m' ms ih =>
      obtain ⟨hnot, hrest⟩ := List.nodup_cons.1 hnodup
      rcases List.mem_cons.1 hm with rfl | hm
      · have hne : ∀ m' ∈ ms, m'.given.field ≠ m.given.field := fun m' hm' hfield =>
          hnot (List.mem_map.2 ⟨m', hm', Given.name_eq_of_field_eq hfield⟩)
        have hkeep := get_storeGiven_of_ne hne (data.set m.given.field m.given.value)
        rw [DataRecord.get_set] at hkeep
        exact hkeep
      · exact ih hrest hm _

/-- **The record of a rendered connection holds it.** -/
theorem Connection.holds_record (c : Connection) : c.Holds c.object.record := by
  have hrecord : c.object.record = storeGiven {} c.members := by
    rw [Object.record, object, List.foldl_map]
    simp only [Given.store_member]
    rfl
  rw [hrecord]
  exact ⟨fun m hm => get_storeGiven_of_mem c.nodup hm _,
    fun field hfield => get_storeGiven_of_ne hfield _⟩

/-- No other record holds it. -/
theorem Connection.Holds.eq {c : Connection} {record record' : DataRecord} (h : c.Holds record)
    (h' : c.Holds record') : record = record' := by
  refine DataRecord.ext_get fun field => ?_
  by_cases hfield : ∃ m ∈ c.members, m.given.field = field
  · obtain ⟨m, hm, rfl⟩ := hfield
    rw [h.1 m hm, h'.1 m hm]
  · have hne : ∀ m ∈ c.members, m.given.field ≠ field := fun m hm heq => hfield ⟨m, hm, heq⟩
    rw [h.2 field hne, h'.2 field hne]

/-! ### The round trip -/

/-- The compact document of a list of connections. -/
def render (connections : List Connection) : CString :=
  documentText (connections.map Connection.object)

/-- A rendered document is a C string. -/
theorem zero_not_mem_render (connections : List Connection) : 0 ∉ render connections :=
  fun h => free_documentText _ 0 h (by simp)

/-- **Importing undoes rendering**: the text is imported as one record for each connection, in
order. -/
theorem importText_render {connections : List Connection} (hne : connections ≠ []) :
    importText (render connections) = some (connections.map fun c => c.object.record) := by
  rw [render, importText_documentText (by simpa using hne), List.map_map]
  rfl

/-- A stream that delivers a text in its first chunk, into memory that is all zero. -/
def zeroedEnv (text : CString) (h : text.length ≤ sizeofFileBuffer) : ImportEnv where
  fread _ := ⟨text, true⟩
  realloc _ := some (List.replicate sizeofFileBuffer 0)
  length_fread_le _ := h
  length_realloc := by
    rintro - bytes hbytes
    rw [← Option.some.inj hbytes, List.length_replicate]

/-- Two connections, one of them with a MAC address and a negative duration. -/
def sampleConnections : List Connection :=
  [⟨[⟨.vlan 65535, false⟩, ⟨.curState .est, true⟩, ⟨.srcIp 10 0 255 1, true⟩], by simp, by decide⟩,
   ⟨[⟨.srcMac ⟨48, 97, by decide, by decide⟩ ⟨70, 102, by decide, by decide⟩
        ⟨48, 48, by decide, by decide⟩ ⟨49, 50, by decide, by decide⟩
        ⟨51, 52, by decide, by decide⟩ ⟨53, 54, by decide, by decide⟩, true⟩,
      ⟨.dur (-5), false⟩], by simp, by decide⟩]

end NvIpfix
