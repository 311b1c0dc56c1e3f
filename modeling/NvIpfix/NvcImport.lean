/-
**Connections of the switch and connections of a file.**

The second importer takes connections from the interface of the switch and fills the record of each
field by field.  The same connection, written to a file under the names of the table of items, is
read into a record with the same values in all the fields that an export reads, the dates left
aside, except for one: the segment.  From the switch it stays zero; from a file it carries the type
of the network, so it is never zero.

Main definitions:

* `NvIpfix.NvcConn`, `NvIpfix.importConnStatHandler` — a connection of the switch, and what is made
  of it;
* `NvIpfix.ExportedFields` — what an export reads of a record, the dates left aside;
* `NvIpfix.NvcListing` — a connection of the switch listed under the names of items;
* `NvIpfix.ImportersAgree` — the two records have the same fields.

Main results:

* `NvIpfix.exportData_congr` — an export reads nothing else;
* `NvIpfix.NvcListing.exportedFields_eq` — the fields that are the same;
* `NvIpfix.not_importersAgree` — **the segment never is**.
-/

import NvIpfix.Export
import NvIpfix.RoundTrip

set_option relaxedAutoImplicit false
set_option autoImplicit false

namespace NvIpfix

open CNumeral

/-! ### Connections of the switch -/

/-- `nvc_tcp_state_t`. -/
inductive NvcTcpState
  | syn
  | est
  | fin
  | rst
  deriving DecidableEq, Repr

/-- `NVIPFIX_NVC_GET_TCP_FLAGS_FROM_STATE`. -/
def NvcTcpState.flags : NvcTcpState → TcpControlFlag
  | syn => .syn
  | est => .ack
  | fin => .fin
  | rst => .rst

/-- `nvc_conn_t`, as far as it is read; the last four octets of an IPv4-mapped address are the IPv4
address. -/
structure NvcConn where
  vlan : UInt16 := 0
  vxlan : UInt32 := 0
  clientSwitchPort : UInt32 := 0
  serverSwitchPort : UInt32 := 0
  etherType : UInt16 := 0
  clientMacAddr : Vector UInt8 addressOctetsCountMac := Vector.replicate _ 0
  serverMacAddr : Vector UInt8 addressOctetsCountMac := Vector.replicate _ 0
  clientIp : Vector UInt8 16 := Vector.replicate 16 0
  serverIp : Vector UInt8 16 := Vector.replicate 16 0
  clientPort : UInt16 := 0
  serverPort : UInt16 := 0
  proto : UInt8 := 0
  state : NvcTcpState := .syn
  dur : Int64 := 0
  avgLatency : Int64 := 0
  bytesSent : UInt64 := 0
  bytesRecv : UInt64 := 0
  bytesTotal : UInt64 := 0
  startedTime : UInt64 := 0
  endedTime : UInt64 := 0
  deriving DecidableEq, Repr

/-- `NVIPFIX_TIMESPAN_SET_NANOSECONDS`. -/
def timespanSetNanoseconds (nanoseconds : Int64) : Timespan :=
  { microseconds := nanoseconds / 1000, hasValue := true }

/-- `NVIPFIX_IN6_ADDR_TO_IP_ADDRESS`, which leaves `hasValue`. -/
def in6AddrToIpAddress (ipAddress : IpAddress) (in6Addr : Vector UInt8 16) : IpAddress :=
  { ipAddress with value := ipAddressOf in6Addr[12] in6Addr[13] in6Addr[14] in6Addr[15] }

/-- `NVIPFIX_ETHER_ADDR_TO_MAC_ADDRESS`. -/
def etherAddrToMacAddress (etherAddr : Vector UInt8 addressOctetsCountMac) : MacAddress :=
  { octets := etherAddr, hasValue := true }

/-- The record that the handler fills. -/
def connStatRecord (calendar : Calendar) (connStat : NvcConn) : DataRecord :=
  let data : DataRecord :=
    { vlanId := connStat.vlan
      protocol := connStat.proto.toUInt32
      ethernetType := connStat.etherType.toUInt32
      tcpControlBits := connStat.state.flags
      ingressInterface := connStat.clientSwitchPort
      egressInterface := connStat.serverSwitchPort
      responderOctets := connStat.bytesRecv
      initiatorOctets := connStat.bytesSent
      transportOctetDeltaCount := connStat.bytesTotal
      sourcePort := connStat.clientPort
      destinationPort := connStat.serverPort }
  { data with
    flowDuration := timespanSetNanoseconds connStat.dur
    latency := timespanSetNanoseconds connStat.avgLatency
    sourceIp := in6AddrToIpAddress data.sourceIp connStat.clientIp
    destinationIp := in6AddrToIpAddress data.destinationIp connStat.serverIp
    sourceMac := etherAddrToMacAddress connStat.clientMacAddr
    destinationMac := etherAddrToMacAddress connStat.serverMacAddr
    flowStart := (ctimeToDatetime calendar data.flowStart connStat.startedTime.toInt64).2
    flowEnd := (ctimeToDatetime calendar data.flowEnd connStat.endedTime.toInt64).2 }

/-- `nvipfix_import_conn_stat_handler`, with the list that its argument points to. -/
def importConnStatHandler (calendar : Calendar) (list : Option (List DataRecord))
    (connStat : NvcConn) : Option (List DataRecord) :=
  dataListAddCopy list (connStatRecord calendar connStat)

/-! ### What an export reads -/

/-- What `nvipfix_export` reads of a record, the dates left aside. -/
structure ExportedFields where
  flowDuration : Timespan
  latency : Timespan
  ingressInterface : UInt32
  egressInterface : UInt32
  vlanId : UInt16
  layer2SegmentId : UInt64
  transportOctetDeltaCount : UInt64
  initiatorOctets : UInt64
  responderOctets : UInt64
  sourceIp : UInt32
  destinationIp : UInt32
  sourcePort : UInt16
  destinationPort : UInt16
  sourceMac : Vector UInt8 addressOctetsCountMac
  destinationMac : Vector UInt8 addressOctetsCountMac
  protocol : UInt32
  tcpControlBits : TcpControlFlag
  ethernetType : UInt32
  deriving DecidableEq, Repr

/-- The fields of a record that an export reads. -/
def DataRecord.exportedFields (record : DataRecord) : ExportedFields where
  flowDuration := record.flowDuration
  latency := record.latency
  ingressInterface := record.ingressInterface
  egressInterface := record.egressInterface
  vlanId := record.vlanId
  layer2SegmentId := record.layer2SegmentId
  transportOctetDeltaCount := record.transportOctetDeltaCount
  initiatorOctets := record.initiatorOctets
  responderOctets := record.responderOctets
  sourceIp := record.sourceIp.value
  destinationIp := record.destinationIp.value
  sourcePort := record.sourcePort
  destinationPort := record.destinationPort
  sourceMac := record.sourceMac.octets
  destinationMac := record.destinationMac.octets
  protocol := record.protocol
  tcpControlBits := record.tcpControlBits
  ethernetType := record.ethernetType

/-- An export reads these fields and the dates, and nothing else. -/
theorem exportData_congr {record record' : DataRecord}
    (h : record.exportedFields = record'.exportedFields)
    (hstart : record.flowStart = record'.flowStart) (hend : record.flowEnd = record'.flowEnd)
    (calendar : Calendar) (startTs endTs : UInt32) :
    exportData calendar startTs endTs record = exportData calendar startTs endTs record' := by
  simp only [DataRecord.exportedFields, ExportedFields.mk.injEq] at h
  simp only [exportData, h, hstart, hend]

/-! ### The same connection in a file -/

/-- A hexadecimal digit in lower case. -/
def hexDigitChar (d : ℕ) : UInt8 := if d < 10 then UInt8.ofNat (48 + d) else UInt8.ofNat (87 + d)

theorem isHexDigit_hexDigitChar {d : ℕ} (h : d < 16) : isHexDigit (hexDigitChar d) := by
  have hall : ∀ d < 16, isHexDigit (hexDigitChar d) := by decide
  exact hall d h

/-- An octet as two hexadecimal digits. -/
def HexOctet.ofUInt8 (octet : UInt8) : HexOctet where
  hi := hexDigitChar (octet.toNat / 16)
  lo := hexDigitChar (octet.toNat % 16)
  hi_isHexDigit := isHexDigit_hexDigitChar (by have h := octet.toNat_lt; omega)
  lo_isHexDigit := isHexDigit_hexDigitChar (by omega)

@[simp] theorem HexOctet.value_ofUInt8 (octet : UInt8) :
    (HexOctet.ofUInt8 octet).value = octet := by
  have hall : ∀ d < 16, hexValue (hexDigitChar d) = d := by decide
  have hlt := octet.toNat_lt
  refine UInt8.toNat_inj.1 ?_
  rw [HexOctet.value, HexOctet.ofUInt8, hall _ (by omega), hall _ (by omega),
    UInt8.toNat_ofNat_of_lt' (by rw [UInt8.size]; omega)]
  omega

/-- The state under its name. -/
def NvcTcpState.curState : NvcTcpState → CurState
  | syn => .syn
  | est => .est
  | fin => .fin
  | rst => .rst

/-- The items of a connection. -/
def NvcConn.givens (c : NvcConn) : List Given :=
  [.vlan c.vlan,
   .srcSwitchPort c.clientSwitchPort,
   .dstSwitchPort c.serverSwitchPort,
   .srcPort c.clientPort,
   .dstPort c.serverPort,
   .obytes c.bytesSent,
   .ibytes c.bytesRecv,
   .totalBytes c.bytesTotal,
   .vxlan c.vxlan.toUInt64 (by have h := c.vxlan.toNat_lt; rw [UInt32.toNat_toUInt64]; omega),
   .curState c.state.curState,
   .proto c.proto,
   .etherType c.etherType,
   .srcMac (.ofUInt8 c.clientMacAddr[0]) (.ofUInt8 c.clientMacAddr[1])
     (.ofUInt8 c.clientMacAddr[2]) (.ofUInt8 c.clientMacAddr[3]) (.ofUInt8 c.clientMacAddr[4])
     (.ofUInt8 c.clientMacAddr[5]),
   .dstMac (.ofUInt8 c.serverMacAddr[0]) (.ofUInt8 c.serverMacAddr[1])
     (.ofUInt8 c.serverMacAddr[2]) (.ofUInt8 c.serverMacAddr[3]) (.ofUInt8 c.serverMacAddr[4])
     (.ofUInt8 c.serverMacAddr[5]),
   .srcIp c.clientIp[12] c.clientIp[13] c.clientIp[14] c.clientIp[15],
   .dstIp c.serverIp[12] c.serverIp[13] c.serverIp[14] c.serverIp[15],
   .dur (c.dur / 1000),
   .latency (c.avgLatency / 1000)]

/-- A connection of the switch with the members of an object that list it, in any order, with
values bare or in quotes. -/
structure NvcListing where
  conn : NvcConn
  connection : Connection
  lists : (connection.members.map GivenMember.given).Perm conn.givens

/-- Every connection can be listed. -/
def NvcConn.listing (c : NvcConn) : NvcListing where
  conn := c
  connection :=
    { members := c.givens.map fun given => { given, quoted := false }
      nonempty := by simp [givens]
      nodup := by
        have hnames : ∀ c : NvcConn, (c.givens.map Given.name).Nodup := by
          intro c
          show List.Nodup [ascii "vlan", ascii "src-switch-port", ascii "dst-switch-port",
            ascii "src-port", ascii "dst-port", ascii "obytes", ascii "ibytes",
            ascii "total-bytes", ascii "vxlan", ascii "cur-state", ascii "proto",
            ascii "ether-type", ascii "src-mac", ascii "dst-mac", ascii "src-ip", ascii "dst-ip",
            ascii "dur", ascii "latency"]
          decide
        rw [List.map_map]
        exact hnames c }
  lists := by
    rw [List.map_map]
    exact List.Perm.of_eq (List.map_id _)

/-! ### The two records -/

namespace NvcListing

variable (l : NvcListing)

/-- The record from the file holds every item of the connection. -/
theorem get_record {given : Given} (h : given ∈ l.conn.givens) :
    l.connection.object.record.get given.field = given.value := by
  obtain ⟨m, hm, rfl⟩ := List.mem_map.1 (l.lists.mem_iff.2 h)
  exact l.connection.holds_record.1 m hm

theorem ofUInt8_octets (v : Vector UInt8 addressOctetsCountMac) :
    #v[(HexOctet.ofUInt8 v[0]).value, (HexOctet.ofUInt8 v[1]).value,
      (HexOctet.ofUInt8 v[2]).value, (HexOctet.ofUInt8 v[3]).value,
      (HexOctet.ofUInt8 v[4]).value, (HexOctet.ofUInt8 v[5]).value] = v := by
  simp only [HexOctet.value_ofUInt8]
  match v with
  | ⟨⟨[_, _, _, _, _, _]⟩, _⟩ => rfl

/-- **The fields that are the same**: all but the segment. -/
theorem exportedFields_eq (calendar : Calendar) :
    l.connection.object.record.exportedFields =
      { (connStatRecord calendar l.conn).exportedFields with
        layer2SegmentId := l.conn.vxlan.toUInt64 ||| (0x01 : UInt64) <<< 56 } := by
  have hall : ∀ given ∈ l.conn.givens, l.connection.object.record.get given.field = given.value :=
    fun given h => l.get_record h
  simp only [NvcConn.givens, List.forall_mem_cons] at hall
  obtain ⟨hvlan, hsrcSwitchPort, hdstSwitchPort, hsrcPort, hdstPort, hobytes, hibytes, htotalBytes,
    hvxlan, hcurState, hproto, hetherType, hsrcMac, hdstMac, hsrcIp, hdstIp, hdur, hlatency, -⟩ :=
    hall
  have hstate : l.conn.state.curState.flag = l.conn.state.flags := by cases l.conn.state <;> rfl
  have hsrcValue := congrArg IpAddress.value hsrcIp
  have hdstValue := congrArg IpAddress.value hdstIp
  rw [DataRecord.exportedFields, ExportedFields.mk.injEq]
  exact ⟨hdur, hlatency, hsrcSwitchPort, hdstSwitchPort, hvlan, hvxlan, htotalBytes, hobytes,
    hibytes, hsrcValue, hdstValue, hsrcPort, hdstPort,
    (congrArg MacAddress.octets hsrcMac).trans (ofUInt8_octets _),
    (congrArg MacAddress.octets hdstMac).trans (ofUInt8_octets _), hproto,
    hcurState.trans hstate, hetherType⟩

end NvcListing

/-- The records of the two importers agree on the fields that an export reads, the dates left
aside. -/
def ImportersAgree (calendar : Calendar) (l : NvcListing) : Prop :=
  ∀ list record record',
    importConnStatHandler calendar list l.conn = some (list.getD [] ++ [record]) →
    importText (render [l.connection]) = some [record'] →
    record.exportedFields = record'.exportedFields

/-- What the two importers make of a connection. -/
theorem importText_render_listing (l : NvcListing) :
    importText (render [l.connection]) = some [l.connection.object.record] := by
  rw [render, importText_documentText (by simp), List.map_singleton, List.map_singleton]

/-- The segment of the record from the file. -/
theorem NvcListing.segment_eq (l : NvcListing) : l.connection.object.record.layer2SegmentId =
    l.conn.vxlan.toUInt64 ||| (0x01 : UInt64) <<< 56 :=
  congrArg ExportedFields.layer2SegmentId (l.exportedFields_eq .epoch)

/-- The segment that both records would have. -/
theorem ImportersAgree.segment_eq {calendar : Calendar} {l : NvcListing}
    (h : ImportersAgree calendar l) : l.connection.object.record.layer2SegmentId = 0 := by
  have hfields := h none _ _ rfl (importText_render_listing l)
  exact (congrArg ExportedFields.layer2SegmentId hfields).symm

/-- **The segment is never the same.** -/
theorem not_importersAgree (calendar : Calendar) (l : NvcListing) :
    ¬ ImportersAgree calendar l := by
  intro h
  have hsegment := l.segment_eq.symm.trans h.segment_eq
  exact absurd (UInt64.or_eq_zero_iff.1 hsegment).2 (by decide)

/-- A connection in the virtual network 5. -/
theorem importConnStatHandler_segment :
    let listing := NvcConn.listing { vxlan := 5 }
    (importConnStatHandler .epoch none listing.conn).map (·.map DataRecord.layer2SegmentId) =
        some [0] ∧
      (importText (render [listing.connection])).map (·.map DataRecord.layer2SegmentId) =
        some [0x0100000000000005] ∧
      ¬ ImportersAgree .epoch listing := by
  intro listing
  have hsegment : listing.connection.object.record.layer2SegmentId = 0x0100000000000005 :=
    listing.segment_eq.trans (by decide)
  refine ⟨by decide +kernel, ?_, fun h => ?_⟩
  · rw [importText_render_listing, Option.map_some, List.map_singleton, hsegment]
  · exact absurd (hsegment.symm.trans h.segment_eq) (by decide)

end NvIpfix
