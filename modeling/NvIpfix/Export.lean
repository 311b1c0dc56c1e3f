/-
**Exporting to a collector.**

`nvipfix_export` keeps a context for each collector behind a pointer that its caller owns.  The
first call allocates the context, its counters and a fixbuf session, and sets the session up;
every call sends the templates, the records and a record of totals.  Fixbuf and the allocator are
the environment: each call of the source that can fail takes its outcome from `ExportOutcomes`,
and what is offered to fixbuf is logged.

The heap is explicit.  An object is live between its allocation and its release, and reading,
using or releasing one that is not live sets a fault.  The error paths fall through as in the
source: from a label on, everything behind it is executed.

Main definitions:

* `NvIpfix.ExportHeap`, `NvIpfix.CollectorPrivate` — the objects, live or not;
* `NvIpfix.ExportOutcomes` — what the library calls of one call return;
* `NvIpfix.exportData` — the export record of a data record;
* `NvIpfix.ExportLabel`, `NvIpfix.exportErrorPath` — the error paths;
* `NvIpfix.nvipfixExport`, `NvIpfix.nvipfixExportCleanup`.
-/

import NvIpfix.Config
import NvIpfix.Data
import NvIpfix.Time

set_option relaxedAutoImplicit false
set_option autoImplicit false

namespace NvIpfix

/-! ### Export records -/

/-- The transports of fixbuf that are used. -/
inductive FbTransport
  | tcp
  | udp
  | sctp
  deriving DecidableEq, Repr

/-- The transport of the connection specification. -/
def fbTransport : Transport → FbTransport
  | .tcp => .tcp
  | .udp => .udp
  | _ => .sctp

/-- `nvIPFIX_export_data_t`. -/
structure ExportData where
  flowStartSeconds : UInt32 := 0
  flowEndSeconds : UInt32 := 0
  layer2SegmentId : UInt64 := 0
  transportOctetDeltaCount : UInt64 := 0
  initiatorOctets : UInt64 := 0
  responderOctets : UInt64 := 0
  latencyMicroseconds : UInt64 := 0
  flowDurationMilliseconds : UInt32 := 0
  ingressInterface : UInt32 := 0
  egressInterface : UInt32 := 0
  vlanId : UInt16 := 0
  ethernetType : UInt16 := 0
  sourceIpAddress : UInt32 := 0
  destinationIpAddress : UInt32 := 0
  sourceTransportPort : UInt16 := 0
  destinationTransportPort : UInt16 := 0
  sourceMacAddress : Vector UInt8 addressOctetsCountMac := Vector.replicate _ 0
  destinationMacAddress : Vector UInt8 addressOctetsCountMac := Vector.replicate _ 0
  protocolIdentifier : UInt8 := 0
  tcpControlBits : UInt8 := 0
  deriving DecidableEq, Repr

/-- `nvIPFIX_export_stats_data_t`. -/
structure ExportStatsData where
  exportedMessageTotalCount : UInt64
  exportedFlowRecordTotalCount : UInt64
  deriving DecidableEq, Repr

/-- The values of `nvIPFIX_TCP_CONTROL_FLAG`. -/
def TcpControlFlag.value : TcpControlFlag → UInt8
  | none => 0x00
  | fin => 0x01
  | syn => 0x02
  | rst => 0x04
  | ack => 0x10

/-- The export record of a data record, in the window from `startTs` to `endTs`. -/
def exportData (calendar : Calendar) (startTs endTs : UInt32) (record : DataRecord) :
    ExportData where
  flowStartSeconds :=
    if record.flowStart.hasValue then datetimeGetSecondsSinceEpoch calendar record.flowStart 1970 1
    else startTs
  flowEndSeconds :=
    if record.flowEnd.hasValue then datetimeGetSecondsSinceEpoch calendar record.flowEnd 1970 1
    else endTs
  flowDurationMilliseconds := (timespanGetMilliseconds record.flowDuration).toUInt64.toUInt32
  ingressInterface := record.ingressInterface
  egressInterface := record.egressInterface
  vlanId := record.vlanId
  layer2SegmentId := record.layer2SegmentId
  transportOctetDeltaCount := record.transportOctetDeltaCount
  initiatorOctets := record.initiatorOctets
  responderOctets := record.responderOctets
  sourceIpAddress := record.sourceIp.value
  destinationIpAddress := record.destinationIp.value
  sourceTransportPort := record.sourcePort
  destinationTransportPort := record.destinationPort
  sourceMacAddress := record.sourceMac.octets
  destinationMacAddress := record.destinationMac.octets
  protocolIdentifier := record.protocol.toUInt8
  tcpControlBits := record.tcpControlBits.value
  ethernetType := record.ethernetType.toUInt16
  latencyMicroseconds := (timespanGetMicroseconds record.latency).toUInt64

/-! ### The heap -/

/-- `nvIPFIX_collector_t`. -/
structure CollectorTotals where
  messageCount : UInt64 := 0
  flowRecordCount : UInt64 := 0
  deriving DecidableEq, Repr

/-- `nvIPFIX_collector_private_t`; a pointer is an address or `NULL`. -/
structure CollectorPrivate where
  collector : Option Address := none
  session : Option Address := none
  buffer : Option Address := none
  templateId : UInt16 := 0
  templateIdExt : UInt16 := 0
  statsTemplateId : UInt16 := 0
  statsTemplateIdExt : UInt16 := 0
  deriving DecidableEq, Repr

/-- What is offered to fixbuf, and what comes of it. -/
inductive FixbufCall
  | exporterAllocNet (host port : Option CString) (transport : FbTransport) (allocated : Bool)
  | append (buffer : Option Address) (data : ExportData) (accepted : Bool)
  | appendStats (buffer : Option Address) (stats : ExportStatsData) (accepted : Bool)
  | emit (buffer : Option Address) (sent : Bool)
  deriving DecidableEq, Repr

/-- The objects of the exporter that are live, each with its content; a buffer has the session it
was allocated for. -/
structure ExportHeap where
  next : Address := 0
  privates : Address → Option CollectorPrivate := fun _ => none
  collectors : Address → Option CollectorTotals := fun _ => none
  sessions : Address → Bool := fun _ => false
  buffers : Address → Option Address := fun _ => none
  calls : List FixbufCall := []
  /-- An object that was not live has been read, used or released. -/
  fault : Bool := false

namespace ExportHeap

variable (h : ExportHeap)

/-- A fault, unless the object is live. -/
def require (live : Bool) : ExportHeap := { h with fault := h.fault || !live }

/-- A call of fixbuf. -/
def call (c : FixbufCall) : ExportHeap := { h with calls := h.calls ++ [c] }

/-- Storing a context. -/
def setPrivate (a : Address) (priv : Option CollectorPrivate) : ExportHeap :=
  { h with privates := Function.update h.privates a priv }

/-- Storing counters. -/
def setCollector (a : Address) (totals : Option CollectorTotals) : ExportHeap :=
  { h with collectors := Function.update h.collectors a totals }

/-- The context at a pointer. -/
def privateAt (p : Option Address) : Option CollectorPrivate := p.bind h.privates

/-- The counters at a pointer. -/
def collectorAt (p : Option Address) : Option CollectorTotals := p.bind h.collectors

/-- Whether there is a session at a pointer. -/
def isSession (p : Option Address) : Bool := p.any h.sessions

/-- Whether there is a buffer at a pointer. -/
def isBuffer (p : Option Address) : Bool := (p.bind h.buffers).isSome

/-- `calloc` of a context. -/
def callocPrivate : Address × ExportHeap :=
  (h.next, { h.setPrivate h.next (some {}) with next := h.next + 1 })

/-- `malloc` of counters, which are set to zero next. -/
def mallocCollector : Address × ExportHeap :=
  (h.next, { h.setCollector h.next (some {}) with next := h.next + 1 })

/-- `fbSessionAlloc`. -/
def fbSessionAlloc : Address × ExportHeap :=
  (h.next, { h with sessions := Function.update h.sessions h.next true, next := h.next + 1 })

/-- `fBufAllocForExport`. -/
def fBufAllocForExport (session : Address) : Address × ExportHeap :=
  (h.next, { h with
    buffers := Function.update h.buffers h.next (some session), next := h.next + 1 })

/-- `free` of a context. -/
def freePrivate (a : Address) : ExportHeap :=
  (h.require (h.privates a).isSome).setPrivate a none

/-- `free` of counters. -/
def freeCollector (a : Address) : ExportHeap :=
  (h.require (h.collectors a).isSome).setCollector a none

/-- `fbSessionFree`. -/
def fbSessionFree (a : Address) : ExportHeap :=
  { h.require (h.sessions a) with sessions := Function.update h.sessions a false }

/-- `fBufFree` of a pointer, which releases the session of the buffer as well. -/
def fBufFree (p : Option Address) : ExportHeap :=
  match p with
  | none => h
  | some a =>
      match h.buffers a with
      | none => h.require false
      | some session =>
          { h.fbSessionFree session with buffers := Function.update h.buffers a none }

end ExportHeap

/-! ### Outcomes and labels -/

/-- `nvIPFIX_ERROR_CODE`, as far as an export sets it. -/
inductive ExportErrorCode
  | none
  | malloc
  | allocateSession
  | allocateExporter
  | allocateTemplate
  | exportInit
  | exportTemplateAppendSpec
  | exportSessionAddTemplate
  | exportBufAlloc
  | exportSessionExportTemplates
  | exportSetInternalTemplate
  | exportSetExportTemplate
  deriving DecidableEq, Repr

/-- The labels of the error paths of `nvipfix_export`, from the last to the first. -/
inductive ExportLabel
  | init
  | collectorAlloc
  | sessionAlloc
  | exporterAlloc
  | templateAlloc
  | statsTemplateAlloc
  | templateAppendSpec
  | statsTemplateAppendSpec
  | sessionAddTemplate
  | bufAlloc
  | sessionExportTemplates
  | setInternalTemplate
  | setExportTemplate
  | setInternalTemplateStats
  | setExportTemplateStats
  deriving DecidableEq, Repr

/-- What the library calls within one call of `nvipfix_export` return; a template identifier of
zero is a failure.  `append i` is the result for the `i`-th record. -/
structure ExportOutcomes where
  exportInit : Bool := true
  calloc : Bool := true
  malloc : Bool := true
  sessionAlloc : Bool := true
  exporterAllocNet : Bool := true
  templateAlloc : Bool := true
  statsTemplateAlloc : Bool := true
  templateAppendSpec : Bool := true
  statsTemplateAppendSpec : Bool := true
  templateId : UInt16 := 0xA000
  templateIdExt : UInt16 := 0xA000
  statsTemplateId : UInt16 := 0xA800
  statsTemplateIdExt : UInt16 := 0xA800
  bufAlloc : Bool := true
  sessionExportTemplates : Bool := true
  setInternalTemplate : Bool := true
  setExportTemplate : Bool := true
  append : ℕ → Bool := fun _ => true
  emit : Bool := true
  setInternalTemplateStats : Bool := true
  setExportTemplateStats : Bool := true
  appendStats : Bool := true
  emitStats : Bool := true

/-- The arguments of one call, without the context pointer. -/
structure ExportArgs where
  host : Option CString
  port : Option CString
  transport : Transport
  data : List DataRecord
  startTs : Datetime
  endTs : Datetime

/-- The locals that the error paths read. -/
structure ExportLocals where
  priv : Option Address := none
  collector : Option Address := none
  buffer : Option Address := none

/-! ### Error paths -/

/-- The error paths from `SessionAlloc` on: the context and the counters are released. -/
def exportFreeContext (l : ExportLocals) (h : ExportHeap) : ExportHeap :=
  let h := match l.priv with
    | some a => h.freePrivate a
    | none => h
  match l.collector with
  | some a => h.freeCollector a
  | none => h

/-- The error paths, from a label on. -/
def exportErrorPath (label : ExportLabel) (l : ExportLocals) (h : ExportHeap) : ExportHeap :=
  match label with
  | .setExportTemplateStats | .setInternalTemplateStats | .setExportTemplate
  | .setInternalTemplate | .sessionExportTemplates => exportFreeContext l (h.fBufFree l.buffer)
  | .bufAlloc | .sessionAddTemplate | .statsTemplateAppendSpec | .templateAppendSpec
  | .statsTemplateAlloc | .templateAlloc | .exporterAlloc | .sessionAlloc => exportFreeContext l h
  | .collectorAlloc | .init => h

/-- A failing call: the code that is set, and where it goes. -/
abbrev ExportFailure := ExportErrorCode × ExportLabel

/-- Calls in order, until the first that fails. -/
def firstFailure : List (Bool × ExportFailure) → Option ExportFailure
  | [] => none
  | (ok, failure) :: calls => if ok then firstFailure calls else some failure

/-! ### The call -/

/-- The set-up calls between the session and the buffer, the buffer included. -/
def exportSetUpCalls (o : ExportOutcomes) : List (Bool × ExportFailure) :=
  [(o.exporterAllocNet, .allocateExporter, .exporterAlloc),
   (o.templateAlloc, .allocateTemplate, .templateAlloc),
   (o.statsTemplateAlloc, .allocateTemplate, .statsTemplateAlloc),
   (o.templateAppendSpec, .exportTemplateAppendSpec, .templateAppendSpec),
   (o.statsTemplateAppendSpec, .exportTemplateAppendSpec, .statsTemplateAppendSpec),
   (o.templateId ≠ 0 && o.templateIdExt ≠ 0, .exportSessionAddTemplate, .sessionAddTemplate),
   (o.statsTemplateId ≠ 0 && o.statsTemplateIdExt ≠ 0, .exportSessionAddTemplate,
     .sessionAddTemplate),
   (o.bufAlloc, .exportBufAlloc, .bufAlloc)]

/-- The set-up of a session, for a context and counters that have been allocated: the error, if
there is one, and the heap. -/
def exportSetUp (o : ExportOutcomes) (args : ExportArgs) (priv collector : Address)
    (h : ExportHeap) : Option ExportFailure × ExportHeap :=
  if !o.sessionAlloc then (some (.allocateSession, .sessionAlloc), h)
  else
    let (session, h) := h.fbSessionAlloc
    let h := h.setPrivate priv (some { collector := some collector, session := some session })
    let h := h.call (.exporterAllocNet args.host args.port (fbTransport args.transport)
      o.exporterAllocNet)
    match firstFailure (exportSetUpCalls o) with
    | some failure => (some failure, h)
    | none =>
        let (buffer, h) := h.fBufAllocForExport session
        (none, h.setPrivate priv (some
          { collector := some collector, session := some session, buffer := some buffer,
            templateId := o.templateId, templateIdExt := o.templateIdExt,
            statsTemplateId := o.statsTemplateId, statsTemplateIdExt := o.statsTemplateIdExt }))

/-- The calls that prepare the flow records. -/
def exportTemplateCalls (o : ExportOutcomes) : List (Bool × ExportFailure) :=
  [(o.sessionExportTemplates, .exportSessionExportTemplates, .sessionExportTemplates),
   (o.setInternalTemplate, .exportSetInternalTemplate, .setInternalTemplate),
   (o.setExportTemplate, .exportSetExportTemplate, .setExportTemplate)]

/-- The calls that prepare the record of totals. -/
def exportStatsTemplateCalls (o : ExportOutcomes) : List (Bool × ExportFailure) :=
  [(o.setInternalTemplateStats, .exportSetInternalTemplate, .setInternalTemplateStats),
   (o.setExportTemplateStats, .exportSetExportTemplate, .setExportTemplateStats)]

/-- The loop over the records, from the `i`-th on, with the number of those accepted. -/
def exportAppend (o : ExportOutcomes) (calendar : Calendar) (startTs endTs : UInt32)
    (buffer : Option Address) : ℕ → List DataRecord → Int32 → ExportHeap → Int32 × ExportHeap
  | _, [], recordCount, h => (recordCount, h)
  | i, record :: records, recordCount, h =>
      let h := h.call (.append buffer (exportData calendar startTs endTs record) (o.append i))
      exportAppend o calendar startTs endTs buffer (i + 1) records
        (if o.append i then recordCount + 1 else recordCount) h

/-- The totals after a call that accepted `recordCount` records. -/
def CollectorTotals.add (totals : CollectorTotals) (recordCount : Int32) : CollectorTotals where
  messageCount := totals.messageCount + 1
  flowRecordCount := totals.flowRecordCount + recordCount.toInt64.toUInt64

/-- Sending the records of one call and the totals, with a context that is set up. -/
def exportSend (o : ExportOutcomes) (calendar : Calendar) (args : ExportArgs)
    (priv : CollectorPrivate) (h : ExportHeap) : Option ExportFailure × ExportHeap :=
  let h := h.require (h.isSession priv.session)
  let h := h.require (h.isBuffer priv.buffer)
  match firstFailure (exportTemplateCalls o) with
  | some failure => (some failure, h)
  | none =>
      let startTs := datetimeGetSecondsSinceEpoch calendar args.startTs 1970 1
      let endTs := datetimeGetSecondsSinceEpoch calendar args.endTs 1970 1
      let (recordCount, h) := exportAppend o calendar startTs endTs priv.buffer 0 args.data 0 h
      let h := h.call (.emit priv.buffer o.emit)
      match firstFailure (exportStatsTemplateCalls o) with
      | some failure => (some failure, h)
      | none =>
          let h := h.require (h.collectorAt priv.collector).isSome
          let totals := ((h.collectorAt priv.collector).getD {}).add recordCount
          let h := match priv.collector with
            | some a => h.setCollector a (some totals)
            | none => h
          let h := h.call (.appendStats priv.buffer
            { exportedMessageTotalCount := totals.messageCount
              exportedFlowRecordTotalCount := totals.flowRecordCount } o.appendStats)
          (none, h.call (.emit priv.buffer o.emitStats))

/-- The context of one call, which a first call allocates and sets up: the error, if there is one,
the locals, the content of the context pointer and the heap. -/
def exportOpen (o : ExportOutcomes) (args : ExportArgs) (ptr : Option Address) (h : ExportHeap) :
    Option ExportFailure × ExportLocals × Option Address × ExportHeap :=
  match ptr with
  | some a => (none, { priv := some a }, ptr, h)
  | none =>
      if !o.calloc then (some (.malloc, .collectorAlloc), {}, none, h)
      else
        let (priv, h) := h.callocPrivate
        if !o.malloc then (some (.malloc, .collectorAlloc), { priv := some priv }, none, h)
        else
          let (collector, h) := h.mallocCollector
          -- from here on the caller reaches the context
          let ptr := some priv
          let h := h.setPrivate priv (some { collector := some collector })
          let (failure, h) := exportSetUp o args priv collector h
          (failure, { priv := some priv, collector := some collector }, ptr, h)

/-- The part of `nvipfix_export` behind `priv == NULL`: the locals are read from the context, and
the records are sent. -/
def exportUse (o : ExportOutcomes) (calendar : Calendar) (args : ExportArgs) (l : ExportLocals)
    (h : ExportHeap) : Option ExportFailure × ExportLocals × ExportHeap :=
  let h := h.require (h.privateAt l.priv).isSome
  let priv := (h.privateAt l.priv).getD {}
  let (failure, h) := exportSend o calendar args priv h
  (failure, { l with collector := priv.collector, buffer := priv.buffer }, h)

/-- The end of a call, along the error paths if it failed: the error code and the heap. -/
def exportReturn (failure : Option ExportFailure) (l : ExportLocals) (h : ExportHeap) :
    ExportErrorCode × ExportHeap :=
  match failure with
  | some (code, label) => (code, exportErrorPath label l h)
  | none => (.none, h)

/-- `nvipfix_export`: the error code, the new content of the context pointer and the heap. -/
def nvipfixExport (o : ExportOutcomes) (calendar : Calendar) (args : ExportArgs)
    (ptr : Option Address) (h : ExportHeap) :
    ExportErrorCode × Option Address × ExportHeap :=
  if !o.exportInit then
    let (code, h) := exportReturn (some (.exportInit, .init)) {} h
    (code, ptr, h)
  else
    let (failure, l, ptr, h) := exportOpen o args ptr h
    let (failure, l, h) := match failure with
      | some failure => (some failure, l, h)
      | none => exportUse o calendar args l h
    let (code, h) := exportReturn failure l h
    (code, ptr, h)

/-- The body of the loop of `nvipfix_export_cleanup`, for one context pointer. -/
def nvipfixExportCleanup (ptr : Option Address) (h : ExportHeap) : ExportHeap :=
  match ptr with
  | none => h
  | some a =>
      let h := h.require (h.privates a).isSome
      let priv := (h.privates a).getD {}
      let h := match priv.buffer, priv.session with
        | some b, _ => h.fBufFree (some b)
        | none, some s => h.fbSessionFree s
        | none, none => h
      match priv.collector with
      | some c => h.freeCollector c
      | none => h

end NvIpfix
