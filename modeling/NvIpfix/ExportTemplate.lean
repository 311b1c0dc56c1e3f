/-
**The templates of the exporter, and the structs that it hands over.**

A record is handed to fixbuf as the memory of a struct.  What fixbuf finds there it knows from a
template, which lists information elements by name: it takes the octets of the first, then those of
the next, as many as its information model has for each.  Nothing ties the template to the struct
but the order that both are written down in.  The struct has no padding between its members, so what
is read under the name of each element is the member for it, if and only if the information model
has as many octets for each element as the struct.  That an element of another length has no meaning
is part of the reading.

Main definitions:

* `NvIpfix.InfoElement`, `NvIpfix.template`, `NvIpfix.statsTemplate` — the templates;
* `NvIpfix.ExportData.image`, `NvIpfix.ExportStatsData.image` — the structs in memory;
* `NvIpfix.readRecord` — what a template finds in octets;
* `NvIpfix.ExportData.ofElements`, `NvIpfix.ExportStatsData.ofElements` — what elements mean.

Main results:

* `NvIpfix.read_iff`, `NvIpfix.readExportData_iff`, `NvIpfix.readExportStatsData_iff` — **a record
  is read back if and only if the lengths agree**;
* `NvIpfix.mainExport_read` — what a collector has been offered reads as the records of the calls.
-/

import NvIpfix.RecordFlow
import NvIpfix.StructImage

set_option relaxedAutoImplicit false
set_option autoImplicit false

namespace NvIpfix

open StructImage

/-! ### Templates -/

/-- The information elements that the templates name. -/
inductive InfoElement
  | flowStartSeconds
  | flowEndSeconds
  | layer2SegmentId
  | transportOctetDeltaCount
  | initiatorOctets
  | responderOctets
  | latencyMicroseconds
  | flowDurationMilliseconds
  | ingressInterface
  | egressInterface
  | vlanId
  | ethernetType
  | sourceIPv4Address
  | destinationIPv4Address
  | sourceTransportPort
  | destinationTransportPort
  | sourceMacAddress
  | destinationMacAddress
  | protocolIdentifier
  | tcpControlBits
  | exportedMessageTotalCount
  | exportedFlowRecordTotalCount
  deriving DecidableEq, Repr

/-- `Template`, without the item that ends it. -/
def template : List InfoElement :=
  [.flowStartSeconds, .flowEndSeconds, .layer2SegmentId, .transportOctetDeltaCount,
   .initiatorOctets, .responderOctets, .latencyMicroseconds, .flowDurationMilliseconds,
   .ingressInterface, .egressInterface, .vlanId, .ethernetType, .sourceIPv4Address,
   .destinationIPv4Address, .sourceTransportPort, .destinationTransportPort, .sourceMacAddress,
   .destinationMacAddress, .protocolIdentifier, .tcpControlBits]

/-- `StatsTemplate`, without the item that ends it. -/
def statsTemplate : List InfoElement :=
  [.exportedMessageTotalCount, .exportedFlowRecordTotalCount]

/-- The octets of an element in `InfoModel`: `nvipfix_export_init` adds the latency to those that
fixbuf has. -/
def infoModelLength (standard : InfoElement → ℕ) : InfoElement → ℕ
  | .latencyMicroseconds => 8
  | e => standard e

/-- What a template finds in octets: those of each element, one behind the other. -/
def readRecord (length : InfoElement → ℕ) (template : List InfoElement) (octets : List UInt8) :
    Option (List (InfoElement × List UInt8)) :=
  (pieces (template.map length) octets).map template.zip

/-! ### Structs -/

/-- How a compiler lays out structs: the order of octets, the alignment of numbers of so many
octets, and what is in the padding. -/
structure Layout where
  order : ByteOrder
  align : ℕ → ℕ
  align_dvd : ∀ count, align count ∣ count
  fill : UInt8

/-- A member that is a number. -/
def Layout.number (l : Layout) (count x : ℕ) : StructMember UInt8 :=
  ⟨l.align count, l.order.octets count x⟩

/-- A member that is an array of octets. -/
def Layout.array (l : Layout) {count : ℕ} (octets : Vector UInt8 count) : StructMember UInt8 :=
  ⟨l.align 1, octets.toList⟩

/-- The members of `nvIPFIX_export_data_t`. -/
def ExportData.members (l : Layout) (data : ExportData) : List (StructMember UInt8) :=
  [l.number 4 data.flowStartSeconds.toNat,
   l.number 4 data.flowEndSeconds.toNat,
   l.number 8 data.layer2SegmentId.toNat,
   l.number 8 data.transportOctetDeltaCount.toNat,
   l.number 8 data.initiatorOctets.toNat,
   l.number 8 data.responderOctets.toNat,
   l.number 8 data.latencyMicroseconds.toNat,
   l.number 4 data.flowDurationMilliseconds.toNat,
   l.number 4 data.ingressInterface.toNat,
   l.number 4 data.egressInterface.toNat,
   l.number 2 data.vlanId.toNat,
   l.number 2 data.ethernetType.toNat,
   l.number 4 data.sourceIpAddress.toNat,
   l.number 4 data.destinationIpAddress.toNat,
   l.number 2 data.sourceTransportPort.toNat,
   l.number 2 data.destinationTransportPort.toNat,
   l.array data.sourceMacAddress,
   l.array data.destinationMacAddress,
   l.number 1 data.protocolIdentifier.toNat,
   l.number 1 data.tcpControlBits.toNat]

/-- `nvIPFIX_export_data_t` in memory. -/
def ExportData.image (l : Layout) (data : ExportData) : List UInt8 :=
  struct l.fill (l.align 8) (data.members l)

/-- The members of `nvIPFIX_export_stats_data_t`. -/
def ExportStatsData.members (l : Layout) (stats : ExportStatsData) : List (StructMember UInt8) :=
  [l.number 8 stats.exportedMessageTotalCount.toNat,
   l.number 8 stats.exportedFlowRecordTotalCount.toNat]

/-- `nvIPFIX_export_stats_data_t` in memory. -/
def ExportStatsData.image (l : Layout) (stats : ExportStatsData) : List UInt8 :=
  struct l.fill (l.align 8) (stats.members l)

/-! ### What elements mean -/

/-- The octets of the values of an element. -/
def InfoElement.width : InfoElement → ℕ
  | flowStartSeconds | flowEndSeconds | flowDurationMilliseconds | ingressInterface
  | egressInterface | sourceIPv4Address | destinationIPv4Address => 4
  | layer2SegmentId | transportOctetDeltaCount | initiatorOctets | responderOctets
  | latencyMicroseconds | exportedMessageTotalCount | exportedFlowRecordTotalCount => 8
  | vlanId | ethernetType | sourceTransportPort | destinationTransportPort => 2
  | sourceMacAddress | destinationMacAddress => 6
  | protocolIdentifier | tcpControlBits => 1

section Elements

variable (order : ByteOrder) (elements : List (InfoElement × List UInt8))

/-- The octets found for an element. -/
def octetsOf (e : InfoElement) : List UInt8 := (elements.lookup e).getD []

/-- The number found for an element. -/
def numberOf (e : InfoElement) : ℕ := order.value (octetsOf elements e)

/-- The address found for an element. -/
def addressOf (e : InfoElement) : Vector UInt8 addressOctetsCountMac :=
  Vector.ofFn fun i => (octetsOf elements e).getD i 0

/-- The record that elements make up by their names; none, if an element has other octets than its
field. -/
def ExportData.ofElements : Option ExportData :=
  if ∀ e ∈ elements, e.2.length = e.1.width then
    some
      { flowStartSeconds := .ofNat (numberOf order elements .flowStartSeconds)
        flowEndSeconds := .ofNat (numberOf order elements .flowEndSeconds)
        layer2SegmentId := .ofNat (numberOf order elements .layer2SegmentId)
        transportOctetDeltaCount := .ofNat (numberOf order elements .transportOctetDeltaCount)
        initiatorOctets := .ofNat (numberOf order elements .initiatorOctets)
        responderOctets := .ofNat (numberOf order elements .responderOctets)
        latencyMicroseconds := .ofNat (numberOf order elements .latencyMicroseconds)
        flowDurationMilliseconds := .ofNat (numberOf order elements .flowDurationMilliseconds)
        ingressInterface := .ofNat (numberOf order elements .ingressInterface)
        egressInterface := .ofNat (numberOf order elements .egressInterface)
        vlanId := .ofNat (numberOf order elements .vlanId)
        ethernetType := .ofNat (numberOf order elements .ethernetType)
        sourceIpAddress := .ofNat (numberOf order elements .sourceIPv4Address)
        destinationIpAddress := .ofNat (numberOf order elements .destinationIPv4Address)
        sourceTransportPort := .ofNat (numberOf order elements .sourceTransportPort)
        destinationTransportPort := .ofNat (numberOf order elements .destinationTransportPort)
        sourceMacAddress := addressOf elements .sourceMacAddress
        destinationMacAddress := addressOf elements .destinationMacAddress
        protocolIdentifier := .ofNat (numberOf order elements .protocolIdentifier)
        tcpControlBits := .ofNat (numberOf order elements .tcpControlBits) }
  else none

/-- The totals that elements make up by their names; none, if an element has other octets than its
field. -/
def ExportStatsData.ofElements : Option ExportStatsData :=
  if ∀ e ∈ elements, e.2.length = e.1.width then
    some
      { exportedMessageTotalCount := .ofNat (numberOf order elements .exportedMessageTotalCount)
        exportedFlowRecordTotalCount :=
          .ofNat (numberOf order elements .exportedFlowRecordTotalCount) }
  else none

end Elements

/-! ### Reading the structs -/

section Read

variable (l : Layout) {standard : InfoElement → ℕ}

theorem Layout.align_dvd_of_dvd {count offset : ℕ} (h : count ∣ offset) :
    l.align count ∣ offset :=
  (l.align_dvd count).trans h

/-- No member of the struct has padding in front. -/
theorem ExportData.packed_members (data : ExportData) : Packed 0 (data.members l) := by
  simp only [members, Packed, Layout.number, Layout.array, ByteOrder.length_octets,
    Vector.length_toList, addressOctetsCountMac]
  and_intros
  all_goals first | exact trivial | exact l.align_dvd_of_dvd (by norm_num)

theorem ExportStatsData.packed_members (stats : ExportStatsData) :
    Packed 0 (stats.members l) := by
  simp only [members, Packed, Layout.number, ByteOrder.length_octets]
  and_intros
  all_goals first | exact trivial | exact l.align_dvd_of_dvd (by norm_num)

/-- The members of the struct have the octets of the elements of the template. -/
theorem ExportData.length_members (data : ExportData) :
    ((data.members l).map fun m => m.octets.length) = template.map InfoElement.width := by
  simp only [members, List.map_cons, List.map_nil, Layout.number, Layout.array,
    ByteOrder.length_octets, Vector.length_toList]
  rfl

theorem ExportStatsData.length_members (stats : ExportStatsData) :
    ((stats.members l).map fun m => m.octets.length) = statsTemplate.map InfoElement.width := by
  simp only [members, List.map_cons, List.map_nil, Layout.number, ByteOrder.length_octets]
  rfl

/-- The elements that a template finds are those that it names. -/
theorem map_fst_of_readRecord {length : InfoElement → ℕ} {names : List InfoElement}
    {octets : List UInt8} {elements : List (InfoElement × List UInt8)}
    (h : readRecord length names octets = some elements) :
    elements.map (fun e => (e.1, e.2.length)) = names.map fun e => (e, length e) := by
  obtain ⟨parts, hparts, rfl⟩ := Option.map_eq_some_iff.1 h
  have hlengths := map_length_of_pieces hparts
  clear hparts h
  induction names generalizing parts with
  | nil => rfl
  | cons name names ih =>
      cases parts with
      | nil => cases hlengths
      | cons part parts =>
          rw [List.map_cons, List.map_cons, List.cons.injEq] at hlengths
          rw [List.zip_cons_cons, List.map_cons, List.map_cons, ih parts hlengths.2, hlengths.1]

/-- The elements that are found have their octets if and only if the lengths are right. -/
theorem forall_width_iff {length : InfoElement → ℕ} {names : List InfoElement}
    {octets : List UInt8} {elements : List (InfoElement × List UInt8)}
    (h : readRecord length names octets = some elements) :
    (∀ e ∈ elements, e.2.length = e.1.width) ↔ ∀ e ∈ names, length e = e.width := by
  have hmap := map_fst_of_readRecord h
  have hleft : (∀ e ∈ elements, e.2.length = e.1.width) ↔
      ∀ p ∈ elements.map fun e => (e.1, e.2.length), p.2 = p.1.width := by
    rw [List.forall_mem_map]
  rw [hleft, hmap, List.forall_mem_map]

/-- What the template finds in the struct, with the right lengths. -/
theorem readRecord_struct {length : InfoElement → ℕ} {names : List InfoElement}
    {ms : List (StructMember UInt8)} (hpacked : Packed 0 ms)
    (hlengths : (ms.map fun m => m.octets.length) = names.map InfoElement.width)
    (hlength : ∀ e ∈ names, length e = e.width) (align : ℕ) :
    readRecord length names (struct l.fill align ms) =
      some (names.zip (ms.map StructMember.octets)) := by
  have heq : names.map length = ms.map fun m => m.octets.length := by
    rw [hlengths]
    exact List.map_congr_left hlength
  rw [readRecord, (pieces_struct_iff hpacked l.fill align _).2 heq, Option.map_some]

/-- **What the struct is of is read back if and only if the lengths agree**, whatever elements with
their own octets are made into, and if other elements are not made into anything. -/
theorem read_iff {α : Type} {ofElements : List (InfoElement × List UInt8) → Option α}
    {names : List InfoElement} {ms : List (StructMember UInt8)} {data : α}
    (hpacked : Packed 0 ms)
    (hlengths : (ms.map fun m => m.octets.length) = names.map InfoElement.width)
    (hmembers : ofElements (names.zip (ms.map StructMember.octets)) = some data)
    (hwidth : ∀ elements, ofElements elements = some data →
      ∀ e ∈ elements, e.2.length = e.1.width)
    (length : InfoElement → ℕ) (align : ℕ) :
    (readRecord length names (struct l.fill align ms)).bind ofElements = some data ↔
      ∀ e ∈ names, length e = e.width := by
  constructor
  · intro h
    obtain ⟨elements, hread, helements⟩ := Option.bind_eq_some_iff.1 h
    exact (forall_width_iff hread).1 (hwidth elements helements)
  · intro hlength
    rw [readRecord_struct l hpacked hlengths hlength, Option.bind_some, hmembers]

theorem uint64_number (x : UInt64) :
    UInt64.ofNat (l.order.value (l.number 8 x.toNat).octets) = x := by
  rw [Layout.number, ByteOrder.value_octets _ (by simpa using x.toNat_lt), UInt64.ofNat_toNat]

theorem uint32_number (x : UInt32) :
    UInt32.ofNat (l.order.value (l.number 4 x.toNat).octets) = x := by
  rw [Layout.number, ByteOrder.value_octets _ (by simpa using x.toNat_lt), UInt32.ofNat_toNat]

theorem uint16_number (x : UInt16) :
    UInt16.ofNat (l.order.value (l.number 2 x.toNat).octets) = x := by
  rw [Layout.number, ByteOrder.value_octets _ (by simpa using x.toNat_lt), UInt16.ofNat_toNat]

theorem uint8_number (x : UInt8) :
    UInt8.ofNat (l.order.value (l.number 1 x.toNat).octets) = x := by
  rw [Layout.number, ByteOrder.value_octets _ (by simpa using x.toNat_lt), UInt8.ofNat_toNat]

theorem vector_array (octets : Vector UInt8 addressOctetsCountMac) :
    Vector.ofFn (fun i : Fin addressOctetsCountMac => (l.array octets).octets.getD i 0) =
      octets := by
  ext i hi
  simp [Layout.array]

/-- **The record that the struct is of is read back.** -/
theorem ExportData.ofElements_members (data : ExportData) :
    ExportData.ofElements l.order (template.zip ((data.members l).map StructMember.octets)) =
      some data := by
  have hread := readRecord_struct l (data.packed_members l) (data.length_members l)
    (fun _ _ => rfl) 8
  rw [ofElements, if_pos ((forall_width_iff hread).2 fun _ _ => rfl)]
  cases data
  simp only [Option.some.injEq, mk.injEq]
  exact ⟨uint32_number l _, uint32_number l _, uint64_number l _, uint64_number l _,
    uint64_number l _, uint64_number l _, uint64_number l _, uint32_number l _,
    uint32_number l _, uint32_number l _, uint16_number l _, uint16_number l _,
    uint32_number l _, uint32_number l _, uint16_number l _, uint16_number l _,
    vector_array l _, vector_array l _, uint8_number l _, uint8_number l _⟩

theorem ExportStatsData.ofElements_members (stats : ExportStatsData) :
    ExportStatsData.ofElements l.order
      (statsTemplate.zip ((stats.members l).map StructMember.octets)) = some stats := by
  have hread := readRecord_struct l (stats.packed_members l) (stats.length_members l)
    (fun _ _ => rfl) 8
  rw [ofElements, if_pos ((forall_width_iff hread).2 fun _ _ => rfl)]
  cases stats
  simp only [Option.some.injEq, mk.injEq]
  exact ⟨uint64_number l _, uint64_number l _⟩

/-- The lengths that are not those of fixbuf are right. -/
theorem forall_infoModelLength_iff (standard : InfoElement → ℕ) :
    (∀ e ∈ template, infoModelLength standard e = e.width) ↔
      ∀ e ∈ template, e ≠ .latencyMicroseconds → standard e = e.width := by
  refine forall₂_congr fun e _ => ?_
  cases e <;> simp [infoModelLength, InfoElement.width]

/-- **An export record is read back if and only if the lengths agree**: what the template names is
the member of that meaning, for every record, exactly if the information model has as many octets
for each of its elements as the struct.  That other lengths do not do is the test of the reading. -/
theorem readExportData_iff (standard : InfoElement → ℕ) (data : ExportData) :
    (readRecord (infoModelLength standard) template (data.image l)).bind
        (ExportData.ofElements l.order) = some data ↔
      ∀ e ∈ template, e ≠ .latencyMicroseconds → standard e = e.width := by
  rw [← forall_infoModelLength_iff]
  exact read_iff l (data.packed_members l) (data.length_members l)
    (data.ofElements_members l) (fun _ h => (Option.ite_none_right_eq_some.1 h).1) _ _

/-- **So are the totals.** -/
theorem readExportStatsData_iff (standard : InfoElement → ℕ) (stats : ExportStatsData) :
    (readRecord (infoModelLength standard) statsTemplate (stats.image l)).bind
        (ExportStatsData.ofElements l.order) = some stats ↔
      ∀ e ∈ statsTemplate, standard e = e.width := by
  have hiff : (∀ e ∈ statsTemplate, standard e = e.width) ↔
      ∀ e ∈ statsTemplate, infoModelLength standard e = e.width := by
    simp [statsTemplate, infoModelLength]
  rw [hiff]
  exact read_iff l (stats.packed_members l) (stats.length_members l)
    (stats.ofElements_members l) (fun _ h => (Option.ite_none_right_eq_some.1 h).1) _ _

end Read

/-! ### Runs -/

/-- The memory that a call of fixbuf offers for a flow record. -/
def FixbufCall.memory (l : Layout) (call : FixbufCall) : Option (List UInt8) :=
  call.exported.map (ExportData.image l)

/-- What is offered is the memory of the export records. -/
theorem filterMap_memory (l : Layout) (calls : List FixbufCall) :
    calls.filterMap (FixbufCall.memory l) =
      (calls.filterMap FixbufCall.exported).map (ExportData.image l) := by
  rw [List.map_filterMap]
  rfl

/-- **What a collector has been offered reads as the records of the calls**: over a run whose
sessions can be set up, a collector has a context as soon as there have been records, and the memory
that its buffer has been handed, record by record and read by the names of the template, is the
export records of all calls, in order. -/
theorem mainExport_read (l : Layout) {standard : InfoElement → ℕ}
    (hstandard : ∀ e ∈ template, e ≠ .latencyMicroseconds → standard e = e.width)
    {collectors : List CollectorInfo} (hnull : ∀ collector ∈ collectors, collector.ctx = none)
    {rounds : List ExportRound}
    (hready : ∀ round ∈ rounds, ∀ j, (round.outcomes j).Ready none) :
    let st := MainState.after { collectors } rounds
    ∀ (j : ℕ) (collector : CollectorInfo), collectors[j]? = some collector →
      ∃ ctx, st.collectors[j]? = some { collector with ctx } ∧
        (ctx = none ↔ ∀ round ∈ rounds, round.data = none) ∧
        ∀ a ∈ ctx, ∃ priv totals session buffer,
          st.heap.IsContext a priv totals session buffer ∧
            ((st.heap.calls.filter fun call => call.buffer = some buffer).filterMap
              (FixbufCall.memory l)).map (fun octets =>
                (readRecord (infoModelLength standard) template octets).bind
                  (ExportData.ofElements l.order)) =
              (rounds.flatMap ExportRound.images).map some := by
  intro st j collector hj
  obtain ⟨-, hexported⟩ := mainExport_exported hnull hready
  obtain ⟨ctx, hget, hnone, hreceives⟩ := hexported j collector hj
  refine ⟨ctx, hget, hnone, fun a ha => ?_⟩
  obtain ⟨priv, totals, session, buffer, hcontext, himages⟩ := hreceives a ha
  refine ⟨priv, totals, session, buffer, hcontext, ?_⟩
  have hread : ∀ data : ExportData,
      (readRecord (infoModelLength standard) template (data.image l)).bind
        (ExportData.ofElements l.order) = some data :=
    fun data => (read_iff l (data.packed_members l) (data.length_members l)
      (data.ofElements_members l) (fun _ h => (Option.ite_none_right_eq_some.1 h).1) _ _).2
        ((forall_infoModelLength_iff standard).2 hstandard)
  rw [filterMap_memory, himages, List.map_map]
  refine List.map_congr_left fun data _ => ?_
  rw [Function.comp_apply, hread]

/-- Two records for one collector, of which the second is not accepted, with the alignments of a
compiler that aligns each number to its size. -/
theorem mainExport_read_twoRecords :
    let l : Layout := ⟨.little, id, fun _ => dvd_rfl, 0⟩
    let rounds : List ExportRound :=
      [{ outcomes := fun _ => { append := fun i => i ≠ 1 }, calendar := .epoch,
         data := some [{}, { vlanId := 7 }], startTs := {}, endTs := {} }]
    let st := MainState.after { collectors := [{}] } rounds
    ∀ (j : ℕ) (collector : CollectorInfo), ([{}] : List CollectorInfo)[j]? = some collector →
      ∃ ctx, st.collectors[j]? = some { collector with ctx } ∧
        (ctx = none ↔ ∀ round ∈ rounds, round.data = none) ∧
        ∀ a ∈ ctx, ∃ priv totals session buffer,
          st.heap.IsContext a priv totals session buffer ∧
            ((st.heap.calls.filter fun call => call.buffer = some buffer).filterMap
              (FixbufCall.memory l)).map (fun octets =>
                (readRecord (infoModelLength InfoElement.width) template octets).bind
                  (ExportData.ofElements l.order)) =
              (rounds.flatMap ExportRound.images).map some := by
  intro l rounds
  refine mainExport_read l (fun _ _ _ => rfl) (by simp) fun round hround j => ?_
  obtain rfl := List.mem_singleton.1 hround
  exact ⟨rfl, fun _ => rfl, fun _ => rfl, fun _ => rfl, rfl⟩

end NvIpfix
