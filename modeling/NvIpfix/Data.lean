/-
**Data records.**

`nvIPFIX_data_record_t`, the record that both importers fill and the exporter reads.  The link
pointers of the intrusive list are left out: a list of records is a Lean list, and `NULL` is the
list without elements.

The JSON importer stores through an offset into the record.  An offset is modelled as a
`DataField`, which knows the type stored there; `DataRecord.get` and `DataRecord.set` read and
write at it.  That two different offsets name disjoint parts of the record is
`DataRecord.set_comm`, and it is the only thing the later modules use of the layout.

Main definitions:

* `NvIpfix.TcpControlFlag` and the record `NvIpfix.DataRecord`, all zero by default;
* `NvIpfix.DataField`, `NvIpfix.DataRecord.get`, `NvIpfix.DataRecord.set`;
* `NvIpfix.dataListAddCopy` — `nvipfix_data_list_add_copy`.
-/

import NvIpfix.Parse

set_option relaxedAutoImplicit false
set_option autoImplicit false

namespace NvIpfix

/-- `nvIPFIX_TCP_CONTROL_FLAG`. -/
inductive TcpControlFlag
  | none
  | fin
  | syn
  | rst
  | ack
  deriving DecidableEq, Repr

/-- `nvIPFIX_data_record_t` without its link pointers.  The protocol and the Ethernet type are
enumerations in the source, but any number is stored in them. -/
structure DataRecord where
  vlanId : UInt16 := 0
  protocol : UInt32 := 0
  ethernetType : UInt32 := 0
  tcpControlBits : TcpControlFlag := .none
  ingressInterface : UInt32 := 0
  egressInterface : UInt32 := 0
  flowStart : Datetime := {}
  flowEnd : Datetime := {}
  flowDuration : Timespan := {}
  latency : Timespan := {}
  dscp : UInt8 := 0
  initiatorOctets : UInt64 := 0
  responderOctets : UInt64 := 0
  layer2SegmentId : UInt64 := 0
  transportOctetDeltaCount : UInt64 := 0
  sourceMac : MacAddress := {}
  sourceIp : IpAddress := {}
  sourcePort : UInt16 := 0
  destinationMac : MacAddress := {}
  destinationIp : IpAddress := {}
  destinationPort : UInt16 := 0
  deriving DecidableEq, Repr

/-! ### Offsets -/

/-- The offsets into a record. -/
inductive DataField
  | vlanId
  | protocol
  | ethernetType
  | tcpControlBits
  | ingressInterface
  | egressInterface
  | flowStart
  | flowEnd
  | flowDuration
  | latency
  | dscp
  | initiatorOctets
  | responderOctets
  | layer2SegmentId
  | transportOctetDeltaCount
  | sourceMac
  | sourceIp
  | sourcePort
  | destinationMac
  | destinationIp
  | destinationPort
  deriving DecidableEq, Repr

/-- The type stored at an offset. -/
abbrev DataField.Value : DataField → Type
  | vlanId | sourcePort | destinationPort => UInt16
  | protocol | ethernetType | ingressInterface | egressInterface => UInt32
  | tcpControlBits => TcpControlFlag
  | flowStart | flowEnd => Datetime
  | flowDuration | latency => Timespan
  | dscp => UInt8
  | initiatorOctets | responderOctets | layer2SegmentId | transportOctetDeltaCount => UInt64
  | sourceMac | destinationMac => MacAddress
  | sourceIp | destinationIp => IpAddress

instance : (field : DataField) → DecidableEq field.Value
  | .vlanId | .sourcePort | .destinationPort => inferInstanceAs (DecidableEq UInt16)
  | .protocol | .ethernetType => inferInstanceAs (DecidableEq UInt32)
  | .ingressInterface | .egressInterface => inferInstanceAs (DecidableEq UInt32)
  | .tcpControlBits => inferInstanceAs (DecidableEq TcpControlFlag)
  | .flowStart | .flowEnd => inferInstanceAs (DecidableEq Datetime)
  | .flowDuration | .latency => inferInstanceAs (DecidableEq Timespan)
  | .dscp => inferInstanceAs (DecidableEq UInt8)
  | .initiatorOctets | .responderOctets => inferInstanceAs (DecidableEq UInt64)
  | .layer2SegmentId | .transportOctetDeltaCount => inferInstanceAs (DecidableEq UInt64)
  | .sourceMac | .destinationMac => inferInstanceAs (DecidableEq MacAddress)
  | .sourceIp | .destinationIp => inferInstanceAs (DecidableEq IpAddress)

namespace DataRecord

/-- Reading at an offset. -/
def get (d : DataRecord) : (f : DataField) → f.Value
  | .vlanId => d.vlanId
  | .protocol => d.protocol
  | .ethernetType => d.ethernetType
  | .tcpControlBits => d.tcpControlBits
  | .ingressInterface => d.ingressInterface
  | .egressInterface => d.egressInterface
  | .flowStart => d.flowStart
  | .flowEnd => d.flowEnd
  | .flowDuration => d.flowDuration
  | .latency => d.latency
  | .dscp => d.dscp
  | .initiatorOctets => d.initiatorOctets
  | .responderOctets => d.responderOctets
  | .layer2SegmentId => d.layer2SegmentId
  | .transportOctetDeltaCount => d.transportOctetDeltaCount
  | .sourceMac => d.sourceMac
  | .sourceIp => d.sourceIp
  | .sourcePort => d.sourcePort
  | .destinationMac => d.destinationMac
  | .destinationIp => d.destinationIp
  | .destinationPort => d.destinationPort

/-- Writing at an offset. -/
def set (d : DataRecord) : (f : DataField) → f.Value → DataRecord
  | .vlanId, x => { d with vlanId := x }
  | .protocol, x => { d with protocol := x }
  | .ethernetType, x => { d with ethernetType := x }
  | .tcpControlBits, x => { d with tcpControlBits := x }
  | .ingressInterface, x => { d with ingressInterface := x }
  | .egressInterface, x => { d with egressInterface := x }
  | .flowStart, x => { d with flowStart := x }
  | .flowEnd, x => { d with flowEnd := x }
  | .flowDuration, x => { d with flowDuration := x }
  | .latency, x => { d with latency := x }
  | .dscp, x => { d with dscp := x }
  | .initiatorOctets, x => { d with initiatorOctets := x }
  | .responderOctets, x => { d with responderOctets := x }
  | .layer2SegmentId, x => { d with layer2SegmentId := x }
  | .transportOctetDeltaCount, x => { d with transportOctetDeltaCount := x }
  | .sourceMac, x => { d with sourceMac := x }
  | .sourceIp, x => { d with sourceIp := x }
  | .sourcePort, x => { d with sourcePort := x }
  | .destinationMac, x => { d with destinationMac := x }
  | .destinationIp, x => { d with destinationIp := x }
  | .destinationPort, x => { d with destinationPort := x }

@[simp] theorem get_set (d : DataRecord) (f : DataField) (x : f.Value) : (d.set f x).get f = x := by
  cases f <;> rfl

@[simp] theorem set_get (d : DataRecord) (f : DataField) : d.set f (d.get f) = d := by
  cases f <;> rfl

@[simp] theorem set_set (d : DataRecord) (f : DataField) (x y : f.Value) :
    (d.set f x).set f y = d.set f y := by
  cases f <;> rfl

/-- **Different offsets name disjoint parts**: a write at one is not seen at another. -/
theorem get_set_of_ne (d : DataRecord) {f g : DataField} (h : f ≠ g) (x : f.Value) :
    (d.set f x).get g = d.get g := by
  cases f <;> cases g <;> first | rfl | exact absurd rfl h

/-- A record is what is read at all offsets. -/
theorem ext_get {d e : DataRecord} (h : ∀ f, d.get f = e.get f) : d = e := by
  cases d
  cases e
  rw [DataRecord.mk.injEq]
  exact ⟨h .vlanId, h .protocol, h .ethernetType, h .tcpControlBits, h .ingressInterface,
    h .egressInterface, h .flowStart, h .flowEnd, h .flowDuration, h .latency, h .dscp,
    h .initiatorOctets, h .responderOctets, h .layer2SegmentId, h .transportOctetDeltaCount,
    h .sourceMac, h .sourceIp, h .sourcePort, h .destinationMac, h .destinationIp,
    h .destinationPort⟩

/-- Writes at different offsets commute. -/
theorem set_comm (d : DataRecord) {f g : DataField} (h : f ≠ g) (x : f.Value) (y : g.Value) :
    (d.set f x).set g y = (d.set g y).set f x := by
  refine ext_get fun k => ?_
  by_cases hg : g = k
  · subst hg
    rw [get_set, get_set_of_ne _ h, get_set]
  · by_cases hf : f = k
    · subst hf
      rw [get_set_of_ne _ hg, get_set, get_set]
    · rw [get_set_of_ne _ hg, get_set_of_ne _ hf, get_set_of_ne _ hf, get_set_of_ne _ hg]

end DataRecord

/-! ### Lists of records -/

/-- `nvipfix_data_list_add_copy` (no allocation failing): the list, `NULL` before its first
record, with a copy of the record at its end. -/
def dataListAddCopy (list : Option (List DataRecord)) (record : DataRecord) :
    Option (List DataRecord) :=
  some (list.getD [] ++ [record])

end NvIpfix
