/-
**What a collector sees of a document.**

A connection is written down by its members.  Behind the importer, the list of records, the
exporter and fixbuf, a collector finds it by its information elements: every member has its octets
under the name of its element, but for the DSCP, which has none; the two dates are those of the
window of the run; all other elements are zero.

The proof follows a record field by field.  An element is exported from one field and from no other
(`ExportData.octets_congr`), so what is found for the record of one member, or of none, is found for
every record that has the same value there.

Main definitions:

* `NvIpfix.Given.exported` — the element of an item, and its octets;
* `NvIpfix.DataField.element` — the element that a field is exported as;
* `NvIpfix.Connection.Shown` — what is to be found of a connection.

Main results:

* `NvIpfix.ExportData.octets_congr` — an element depends on its field only;
* `NvIpfix.Connection.Holds.shown` — a record that holds a connection shows it;
* `NvIpfix.nvipfixMainExportFile_shown` — **a batch run shows the connections of its document**.
-/

import NvIpfix.ExportTemplate

set_option relaxedAutoImplicit false
set_option autoImplicit false

namespace NvIpfix

open StructImage

/-! ### Items and their elements -/

section Given

variable (order : ByteOrder)

/-- The element of an item, and the octets that are to be found there: the segment has the type of
its network in the top octet, durations are cut to milliseconds, and negative ones are counted from
behind the largest. -/
def Given.exported : Given → Option (InfoElement × List UInt8)
  | vlan n => some (.vlanId, order.octets 2 n.toNat)
  | srcSwitchPort n => some (.ingressInterface, order.octets 4 n.toNat)
  | dstSwitchPort n => some (.egressInterface, order.octets 4 n.toNat)
  | dscp _ => none
  | srcPort n => some (.sourceTransportPort, order.octets 2 n.toNat)
  | dstPort n => some (.destinationTransportPort, order.octets 2 n.toNat)
  | ibytes n => some (.responderOctets, order.octets 8 n.toNat)
  | obytes n => some (.initiatorOctets, order.octets 8 n.toNat)
  | totalBytes n => some (.transportOctetDeltaCount, order.octets 8 n.toNat)
  | vxlan n _ => some (.layer2SegmentId, order.octets 8 (2 ^ 56 + n.toNat))
  | curState .fin => some (.tcpControlBits, [0x01])
  | curState .rst => some (.tcpControlBits, [0x04])
  | curState .syn => some (.tcpControlBits, [0x02])
  | curState .est => some (.tcpControlBits, [0x10])
  | proto n => some (.protocolIdentifier, [n])
  | etherType n => some (.ethernetType, order.octets 2 n.toNat)
  | srcMac a b c d e f =>
      some (.sourceMacAddress, [a.value, b.value, c.value, d.value, e.value, f.value])
  | dstMac a b c d e f =>
      some (.destinationMacAddress, [a.value, b.value, c.value, d.value, e.value, f.value])
  | srcIp a b c d => some (.sourceIPv4Address,
      order.octets 4 (Nat.ofDigits 256 [d.toNat, c.toNat, b.toNat, a.toNat]))
  | dstIp a b c d => some (.destinationIPv4Address,
      order.octets 4 (Nat.ofDigits 256 [d.toNat, c.toNat, b.toNat, a.toNat]))
  | dur t => some (.flowDurationMilliseconds,
      order.octets 4 (t.toInt.tdiv 1000 % 2 ^ 32).toNat)
  | latency t => some (.latencyMicroseconds, order.octets 8 (t.toInt % 2 ^ 64).toNat)

end Given

/-- The element that a field is exported as. -/
def DataField.element : DataField → Option InfoElement
  | vlanId => some .vlanId
  | protocol => some .protocolIdentifier
  | ethernetType => some .ethernetType
  | tcpControlBits => some .tcpControlBits
  | ingressInterface => some .ingressInterface
  | egressInterface => some .egressInterface
  | flowStart => some .flowStartSeconds
  | flowEnd => some .flowEndSeconds
  | flowDuration => some .flowDurationMilliseconds
  | latency => some .latencyMicroseconds
  | dscp => none
  | initiatorOctets => some .initiatorOctets
  | responderOctets => some .responderOctets
  | layer2SegmentId => some .layer2SegmentId
  | transportOctetDeltaCount => some .transportOctetDeltaCount
  | sourceMac => some .sourceMacAddress
  | sourceIp => some .sourceIPv4Address
  | sourcePort => some .sourceTransportPort
  | destinationMac => some .destinationMacAddress
  | destinationIp => some .destinationIPv4Address
  | destinationPort => some .destinationTransportPort

/-- What is to be found of a connection that is exported in a window. -/
structure Connection.Shown (order : ByteOrder) (startTs endTs : UInt32) (c : Connection)
    (elements : List (InfoElement × List UInt8)) : Prop where
  names : elements.map Prod.fst = template
  flowStart : octetsOf elements .flowStartSeconds = order.octets 4 startTs.toNat
  flowEnd : octetsOf elements .flowEndSeconds = order.octets 4 endTs.toNat
  given : ∀ m ∈ c.members, ∀ p ∈ m.given.exported order, octetsOf elements p.1 = p.2
  others : ∀ e ∈ template, e ≠ .flowStartSeconds → e ≠ .flowEndSeconds →
    (∀ m ∈ c.members, ∀ p ∈ m.given.exported order, p.1 ≠ e) →
      octetsOf elements e = List.replicate e.width 0

/-! ### Elements and their fields -/

section Elements

variable (l : Layout) (calendar : Calendar) (startTs endTs : UInt32)

/-- The elements that the template finds in a record. -/
def ExportData.elements (data : ExportData) : List (InfoElement × List UInt8) :=
  template.zip ((data.members l).map StructMember.octets)

/-- The octets of the member for an element. -/
def ExportData.octets (data : ExportData) : InfoElement → List UInt8
  | .flowStartSeconds => l.order.octets 4 data.flowStartSeconds.toNat
  | .flowEndSeconds => l.order.octets 4 data.flowEndSeconds.toNat
  | .layer2SegmentId => l.order.octets 8 data.layer2SegmentId.toNat
  | .transportOctetDeltaCount => l.order.octets 8 data.transportOctetDeltaCount.toNat
  | .initiatorOctets => l.order.octets 8 data.initiatorOctets.toNat
  | .responderOctets => l.order.octets 8 data.responderOctets.toNat
  | .latencyMicroseconds => l.order.octets 8 data.latencyMicroseconds.toNat
  | .flowDurationMilliseconds => l.order.octets 4 data.flowDurationMilliseconds.toNat
  | .ingressInterface => l.order.octets 4 data.ingressInterface.toNat
  | .egressInterface => l.order.octets 4 data.egressInterface.toNat
  | .vlanId => l.order.octets 2 data.vlanId.toNat
  | .ethernetType => l.order.octets 2 data.ethernetType.toNat
  | .sourceIPv4Address => l.order.octets 4 data.sourceIpAddress.toNat
  | .destinationIPv4Address => l.order.octets 4 data.destinationIpAddress.toNat
  | .sourceTransportPort => l.order.octets 2 data.sourceTransportPort.toNat
  | .destinationTransportPort => l.order.octets 2 data.destinationTransportPort.toNat
  | .sourceMacAddress => data.sourceMacAddress.toList
  | .destinationMacAddress => data.destinationMacAddress.toList
  | .protocolIdentifier => l.order.octets 1 data.protocolIdentifier.toNat
  | .tcpControlBits => l.order.octets 1 data.tcpControlBits.toNat
  | .exportedMessageTotalCount | .exportedFlowRecordTotalCount => []

/-- Each element is found in the member for it. -/
theorem octetsOf_elements (data : ExportData) (e : InfoElement) :
    octetsOf (data.elements l) e = data.octets l e := by
  cases e <;> rfl

/-- **An element depends on its field only.** -/
theorem ExportData.octets_congr {record record' : DataRecord} {field : DataField} {e : InfoElement}
    (he : field.element = some e) (h : record.get field = record'.get field) :
    (exportData calendar startTs endTs record).octets l e =
      (exportData calendar startTs endTs record').octets l e := by
  cases field with
  | dscp => cases he
  | _ =>
      cases he
      simp only [DataRecord.get] at h
      simp only [octets, exportData, h]

/-- Every element of the template is exported from a field. -/
theorem exists_element_eq {e : InfoElement} (he : e ∈ template) :
    ∃ field : DataField, field.element = some e := by
  have htemplate : template = List.filterMap DataField.element
      [.flowStart, .flowEnd, .layer2SegmentId, .transportOctetDeltaCount, .initiatorOctets,
       .responderOctets, .latency, .flowDuration, .ingressInterface, .egressInterface, .vlanId,
       .ethernetType, .sourceIp, .destinationIp, .sourcePort, .destinationPort, .sourceMac,
       .destinationMac, .protocol, .tcpControlBits] := rfl
  rw [htemplate] at he
  obtain ⟨field, -, hfield⟩ := List.mem_filterMap.1 he
  exact ⟨field, hfield⟩

/-- A number that is zero has octets that are zero. -/
theorem octets_zero (order : ByteOrder) (count : ℕ) :
    order.octets count 0 = List.replicate count 0 := by
  have hlittle : littleEndian count 0 = List.replicate count 0 := by
    induction count with
    | zero => rfl
    | succ count ih =>
        rw [littleEndian, Nat.zero_div, ih]
        rfl
  cases order with
  | little => exact hlittle
  | big => rw [ByteOrder.octets, hlittle, List.reverse_replicate]

/-- A number of one octet. -/
theorem octets_one (order : ByteOrder) (x : UInt8) : order.octets 1 x.toNat = [x] := by
  have hlittle : littleEndian 1 x.toNat = [x] := by simp [littleEndian]
  cases order with
  | little => exact hlittle
  | big => rw [ByteOrder.octets, hlittle, List.reverse_singleton]

/-- An element of a record without values is zero, if it is not that of a date. -/
theorem ExportData.octets_empty {e : InfoElement} (he : e ∈ template)
    (hstart : e ≠ .flowStartSeconds) (hend : e ≠ .flowEndSeconds) :
    (exportData calendar startTs endTs {}).octets l e = List.replicate e.width 0 := by
  cases e with
  | flowStartSeconds => exact absurd rfl hstart
  | flowEndSeconds => exact absurd rfl hend
  | exportedMessageTotalCount | exportedFlowRecordTotalCount => simp [template] at he
  | sourceMacAddress | destinationMacAddress => rfl
  | _ => exact octets_zero l.order _

/-! ### Items -/

/-- The element of an item is that of its field. -/
theorem Given.element_field (g : Given) (order : ByteOrder) :
    g.field.element = (g.exported order).map Prod.fst := by
  cases g with
  | curState s => cases s <;> rfl
  | _ => rfl

/-- An item is not a date. -/
theorem Given.field_ne (g : Given) : g.field ≠ .flowStart ∧ g.field ≠ .flowEnd := by
  cases g <;> exact ⟨nofun, nofun⟩

/-- The number of a segment with the type of its network. -/
theorem toNat_layer2SegmentId {n : UInt64} (h : n.toNat < 2 ^ 56) :
    (n ||| (0x01 : UInt64) <<< 56).toNat = 2 ^ 56 + n.toNat := by
  have htype : ((0x01 : UInt64) <<< 56).toNat = 2 ^ 56 * 1 := rfl
  rw [UInt64.toNat_or, htype, Nat.or_comm, ← Nat.two_pow_add_eq_or_of_lt h, Nat.mul_one]

/-- The microseconds of a latency. -/
theorem toNat_latency (t : Int64) :
    (timespanGetMicroseconds { microseconds := t, hasValue := true }).toUInt64.toNat =
      (t.toInt % 2 ^ 64).toNat := by
  have hnat := toNat_toUInt64 t
  simp only [timespanGetMicroseconds, if_true]
  omega

/-- The milliseconds of a duration. -/
theorem toNat_flowDuration (t : Int64) :
    (timespanGetMilliseconds { microseconds := t, hasValue := true }).toUInt64.toUInt32.toNat =
      (t.toInt.tdiv 1000 % 2 ^ 32).toNat := by
  have hthousand : (1000 : Int64).toInt = 1000 := rfl
  have hlo := t.le_toInt
  have hhi := t.toInt_lt
  have habs : (t.toInt.tdiv 1000).natAbs = t.toInt.natAbs / 1000 := Int.natAbs_tdiv ..
  have hquotient : (t / 1000).toInt = t.toInt.tdiv 1000 := by
    rw [Int64.toInt_div, hthousand]
    exact Int.bmod_eq_of_le (by omega) (by omega)
  have hnat := toNat_toUInt64 (t / 1000)
  simp only [timespanGetMilliseconds, if_true, UInt64.toNat_toUInt32]
  omega

/-- **The element of an item has its octets**, if the record has its value. -/
theorem ExportData.octets_given (g : Given) {record : DataRecord}
    (h : record.get g.field = g.value) :
    ∀ p ∈ g.exported l.order, (exportData calendar startTs endTs record).octets l p.1 = p.2 := by
  intro p hp
  have helement : g.field.element = some p.1 := by
    rw [g.element_field l.order, hp]
    rfl
  have hvalue : record.get g.field = (({} : DataRecord).set g.field g.value).get g.field := by
    rw [h, DataRecord.get_set]
  rw [octets_congr l calendar startTs endTs helement hvalue]
  cases g with
  | dscp => cases hp
  | curState s =>
      cases s <;>
      · cases hp
        exact octets_one l.order _
  | proto n =>
      cases hp
      refine Eq.trans (octets_one l.order _) (congrArg (fun x => [x]) ?_)
      exact UInt8.toUInt8_toUInt32 n
  | etherType n =>
      cases hp
      exact congrArg (fun n : UInt16 => l.order.octets 2 n.toNat) (UInt16.toUInt16_toUInt32 n)
  | vxlan n hn =>
      cases hp
      exact congrArg (l.order.octets 8) (toNat_layer2SegmentId hn)
  | dur t =>
      cases hp
      exact congrArg (l.order.octets 4) (toNat_flowDuration t)
  | latency t =>
      cases hp
      exact congrArg (l.order.octets 8) (toNat_latency t)
  | srcIp a b c d | dstIp a b c d =>
      cases hp
      refine congrArg (l.order.octets 4) ((toNat_ipAddressOf a b c d).trans ?_)
      simp only [Nat.ofDigits_cons, Nat.ofDigits_nil]
      omega
  | _ =>
      cases hp
      rfl

/-- **A record that holds a connection shows it.** -/
theorem Connection.Holds.shown {c : Connection} {record : DataRecord} (h : c.Holds record) :
    c.Shown l.order startTs endTs
      ((exportData calendar startTs endTs record).elements l) := by
  have hempty : ∀ {field : DataField} {e : InfoElement}, field.element = some e →
      (∀ m ∈ c.members, m.given.field ≠ field) →
      octetsOf ((exportData calendar startTs endTs record).elements l) e =
        (exportData calendar startTs endTs {}).octets l e := by
    intro field e he hfield
    rw [octetsOf_elements]
    exact ExportData.octets_congr l calendar startTs endTs he (h.2 field hfield)
  refine ⟨?_, ?_, ?_, ?_, ?_⟩
  · rw [ExportData.elements, List.map_fst_zip (by simp [ExportData.members, template])]
  · exact @hempty .flowStart _ rfl fun m _ => m.given.field_ne.1
  · exact @hempty .flowEnd _ rfl fun m _ => m.given.field_ne.2
  · intro m hm p hp
    rw [octetsOf_elements]
    exact ExportData.octets_given l calendar startTs endTs m.given (h.1 m hm) p hp
  · intro e he hstart hend hmembers
    obtain ⟨field, hfield⟩ := exists_element_eq he
    rw [hempty hfield fun m hm heq => ?_]
    · exact ExportData.octets_empty l calendar startTs endTs he hstart hend
    · have helement := m.given.element_field l.order
      rw [heq, hfield] at helement
      obtain ⟨p, hp, hfst⟩ := Option.map_eq_some_iff.1 helement.symm
      exact hmembers m hm p hp hfst

end Elements

/-! ### A batch run -/

section File

variable {m : ImportMemory} {run : FileRun} {d : DataHeap} {h : StringHeap}
  {collectors : List CollectorInfo} {connections : List Connection}

/-- A connection is shown in octets that are read by the template, in the window of a run. -/
def FileRun.ShownIn (run : FileRun) (l : Layout) (standard : InfoElement → ℕ) (c : Connection)
    (octets : List UInt8) : Prop :=
  ∃ elements, readRecord (infoModelLength standard) template octets = some elements ∧
    c.Shown l.order (datetimeGetSecondsSinceEpoch run.calendar run.startTs 1970 1)
      (datetimeGetSecondsSinceEpoch run.calendar run.endTs 1970 1) elements

/-- What is exported for a record that holds a connection shows it. -/
theorem FileRun.shownIn_image (run : FileRun) (l : Layout) {standard : InfoElement → ℕ}
    (hstandard : ∀ e ∈ template, e ≠ .latencyMicroseconds → standard e = e.width)
    {c : Connection} {record : DataRecord} (hholds : c.Holds record) :
    run.ShownIn l standard c ((exportData run.calendar
      (datetimeGetSecondsSinceEpoch run.calendar run.startTs 1970 1)
      (datetimeGetSecondsSinceEpoch run.calendar run.endTs 1970 1) record).image l) :=
  ⟨_, readRecord_struct l (ExportData.packed_members l _) (ExportData.length_members l _)
    ((forall_infoModelLength_iff standard).2 hstandard) _, hholds.shown l run.calendar _ _⟩

/-- The export of records that hold connections shows them to every collector. -/
theorem FileRun.shown_round (l : Layout) {standard : InfoElement → ℕ}
    (hstandard : ∀ e ∈ template, e ≠ .latencyMicroseconds → standard e = e.width)
    {records : List DataRecord} (hholds : List.Forall₂ Connection.Holds connections records)
    (hnull : ∀ collector ∈ collectors, collector.ctx = none)
    (hready : ∀ j, (run.outcomes j).Ready none) :
    let st := MainState.after { collectors } [run.round (some records)]
    st.heap.fault = false ∧
      ∀ (j : ℕ) (collector : CollectorInfo), collectors[j]? = some collector →
        ∃ a priv totals session buffer,
          st.collectors[j]? = some { collector with ctx := some a } ∧
          st.heap.IsContext a priv totals session buffer ∧
          List.Forall₂ (run.ShownIn l standard) connections
            ((st.heap.calls.filter fun call => call.buffer = some buffer).filterMap
              (FixbufCall.memory l)) := by
  intro st
  obtain ⟨hfault, hexported⟩ := @mainExport_exported collectors [run.round (some records)] hnull (by
    rintro round hround j
    obtain rfl := List.mem_singleton.1 hround
    exact hready j)
  refine ⟨hfault, fun j collector hj => ?_⟩
  obtain ⟨ctx, hget, hnone, hreceives⟩ := hexported j collector hj
  cases ctx with
  | none => simp [FileRun.round] at hnone
  | some a =>
      obtain ⟨priv, totals, session, buffer, hcontext, himages⟩ := hreceives a rfl
      refine ⟨a, priv, totals, session, buffer, hget, hcontext, ?_⟩
      rw [filterMap_memory, himages, List.flatMap_singleton, ExportRound.images, FileRun.round,
        Option.getD_some, List.map_map, List.forall₂_map_right_iff]
      exact hholds.imp fun c record hc => run.shownIn_image l hstandard hc

/-- **A batch run shows the connections of its document**: if its file is read as a rendered
document, and nothing fails, every collector is offered octets for each connection, in order, and
nothing else, in which the template finds what the connection was rendered from; and memory is as it
was before the run. -/
theorem nvipfixMainExportFile_shown (l : Layout) {standard : InfoElement → ℕ}
    (hstandard : ∀ e ∈ template, e ≠ .latencyMicroseconds → standard e = e.width)
    {env : ImportEnv} {fuel : ℕ} {rest : List UInt8} (hne : connections ≠ [])
    (hread : importReadLoop env fuel 0 0 [] = some (some (render connections ++ 0 :: rest)))
    (hfile : run.file = some (env, fuel)) (hm : m.Succeeds) (hfresh : h.Fresh) (hd : d.Fresh)
    (hnull : ∀ collector ∈ collectors, collector.ctx = none)
    (hready : ∀ j, (run.outcomes j).Ready none) :
    ∃ st d' h', nvipfixMainExportFile m run { collectors } d h = some (st, d', h') ∧
      h.Restored h' ∧ d.Restored d' ∧ st.heap.fault = false ∧
      ∀ (j : ℕ) (collector : CollectorInfo), collectors[j]? = some collector →
        ∃ a priv totals session buffer,
          st.collectors[j]? = some { collector with ctx := some a } ∧
          st.heap.IsContext a priv totals session buffer ∧
          List.Forall₂ (run.ShownIn l standard) connections
            ((st.heap.calls.filter fun call => call.buffer = some buffer).filterMap
              (FixbufCall.memory l)) := by
  have hrecords : nvipfixImport env fuel =
      some (some (connections.map fun c => c.object.record)) := by
    rw [nvipfixImport_eq_importText hread (zero_not_mem_render connections), importText_render hne]
  have hholds : List.Forall₂ Connection.Holds connections
      (connections.map fun c => c.object.record) := by
    rw [List.forall₂_map_right_iff]
    exact List.forall₂_same.2 fun c _ => c.holds_record
  have hzero : 0 ∈ render connections ++ 0 :: rest := by simp
  cases himport : nvipfixImportIn m env fuel d h with
  | none => simp [nvipfixImportIn, hread, hzero] at himport
  | some imported =>
      obtain ⟨hr, records, hmem, hstate⟩ := nvipfixImportIn_imported m env fuel hfresh hd _ himport
      rw [hrecords] at hmem
      obtain rfl := Option.some.inj hmem
      have hrun : nvipfixMainExportFile m run { collectors } d h =
          some (MainState.after { collectors } [run.round (imported.1.2.contents imported.1.1)],
            nvipfixDataListFree imported.1.1 imported.1.2, imported.2) := by
        simp only [nvipfixMainExportFile, hfile, nvipfixImportFileIn, himport]
        rfl
      rw [hstate.contents hm] at hrun
      exact ⟨_, _, _, hrun, hr, hstate.leaks_free.restored hm.dataMallocs,
        run.shown_round l hstandard hholds hnull hready⟩

/-- A text that is delivered in the first chunk has a terminator behind it. -/
theorem importReadLoop_zeroedEnv {text : CString} (hlen : text.length < sizeofFileBuffer) :
    importReadLoop (zeroedEnv text hlen.le) 1 0 0 [] =
      some (some (text ++ 0 :: List.replicate (sizeofFileBuffer - text.length - 1) 0)) := by
  have hrest : sizeofFileBuffer - text.length = sizeofFileBuffer - text.length - 1 + 1 := by omega
  rw [importReadLoop_of_eof 0 rfl rfl]
  simp only [zeroedEnv, List.drop_replicate]
  rw [hrest, List.replicate_succ, Nat.add_sub_cancel]

theorem length_render_sampleConnections :
    (render sampleConnections).length < sizeofFileBuffer := by
  decide +kernel

/-- A run with a file of two connections. -/
def sampleRun : FileRun where
  file := some (zeroedEnv (render sampleConnections) length_render_sampleConnections.le, 1)
  outcomes _ := {}
  calendar := .epoch
  startTs := {}
  endTs := {}

theorem nvipfixMainExportFile_shown_sample :
    let m : ImportMemory := ⟨fun _ => true, fun _ => .moves, fun _ => true⟩
    let l : Layout := ⟨.little, id, fun _ => dvd_rfl, 0⟩
    ∃ st d' h', nvipfixMainExportFile m sampleRun { collectors := [{}, {}] } {} {} =
        some (st, d', h') ∧
      ({} : StringHeap).Restored h' ∧ ({} : DataHeap).Restored d' ∧ st.heap.fault = false ∧
      ∀ (j : ℕ) (collector : CollectorInfo), ([{}, {}] : List CollectorInfo)[j]? = some collector →
        ∃ a priv totals session buffer,
          st.collectors[j]? = some { collector with ctx := some a } ∧
          st.heap.IsContext a priv totals session buffer ∧
          List.Forall₂ (sampleRun.ShownIn l InfoElement.width) sampleConnections
            ((st.heap.calls.filter fun call => call.buffer = some buffer).filterMap
              (FixbufCall.memory l)) := by
  intro m l
  exact nvipfixMainExportFile_shown l (fun _ _ _ => rfl) (by simp [sampleConnections])
    (importReadLoop_zeroedEnv length_render_sampleConnections) rfl
    ⟨fun _ => rfl, nofun, fun _ => rfl⟩ StringHeap.fresh_empty DataHeap.fresh_empty (by simp)
    fun _ => ⟨rfl, fun _ => rfl, fun _ => rfl, fun _ => rfl, rfl⟩

end File

end NvIpfix
