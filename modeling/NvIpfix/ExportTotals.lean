/-
**Exported totals.**

The record of totals that ends a call carries the number of flow records that have been accepted by
the buffer since the context was created.  Accepted records wait in the buffer until a call of
`fBufEmit` succeeds, and a call that fails is logged only.  So the total counts what has been sent
and what waits; it is what has been sent when nothing waits.

Main definitions:

* `NvIpfix.Ledger`, `NvIpfix.ledger` — what the calls of fixbuf amount to;
* `NvIpfix.ContextState.Truthful` — every total that was written is what had been sent;
* `NvIpfix.ExportCall.Fits`, `NvIpfix.ExportCall.Sends` — the counts fit their types; the records of
  a call are sent, or there is none that waits.

Main results:

* `NvIpfix.ContextState.Accounted.export` — the total is what has been sent and what waits;
* `NvIpfix.exportRun_truthful_iff` — **the totals of a run are truthful if and only if every call
  sends**.
-/

import NvIpfix.ExportContext

set_option relaxedAutoImplicit false
set_option autoImplicit false

namespace NvIpfix

/-! ### The ledger of a buffer -/

/-- A total that was written, and the number of records that had been sent then. -/
structure TotalReport where
  total : UInt64
  sent : ℕ
  deriving DecidableEq, Repr

/-- What the calls of fixbuf for one buffer amount to: the records that wait in it, those that have
been sent, and the totals that were written. -/
structure Ledger where
  waiting : ℕ := 0
  sent : ℕ := 0
  reports : List TotalReport := []
  deriving DecidableEq, Repr

namespace Ledger

variable (l : Ledger)

/-- A number of records has been accepted. -/
def accept (count : ℕ) : Ledger := { l with waiting := l.waiting + count }

/-- The buffer has been sent, or not. -/
def emit (sent : Bool) : Ledger :=
  if sent then { l with waiting := 0, sent := l.sent + l.waiting } else l

/-- A total has been written. -/
def report (total : UInt64) : Ledger :=
  { l with reports := l.reports ++ [{ total, sent := l.sent }] }

/-- A call of fixbuf: a record that is accepted waits, and `fBufEmit` sends all that wait when it
succeeds. -/
def call : FixbufCall → Ledger
  | .exporterAllocNet _ _ _ _ => l
  | .append _ _ accepted => if accepted then l.accept 1 else l
  | .appendStats _ stats _ => l.report stats.exportedFlowRecordTotalCount
  | .emit _ sent => l.emit sent

/-- What is accepted is either sent or waits. -/
theorem emit_total (sent : Bool) :
    (l.emit sent).sent + (l.emit sent).waiting = l.sent + l.waiting := by
  cases sent <;> rfl

end Ledger

/-- The ledger of calls. -/
def ledger (calls : List FixbufCall) : Ledger := calls.foldl Ledger.call {}

theorem ledger_append (calls : List FixbufCall) (call : FixbufCall) :
    ledger (calls ++ [call]) = (ledger calls).call call := by
  rw [ledger, List.foldl_append]
  rfl

/-- The number of the first records that are accepted. -/
def ExportOutcomes.accepted (o : ExportOutcomes) (records : ℕ) : ℕ :=
  (List.range' 0 records).countP o.append

/-- The ledger of a heap. -/
def ExportHeap.ledger (h : ExportHeap) : Ledger := NvIpfix.ledger h.calls

@[simp] theorem ExportHeap.ledger_call (h : ExportHeap) (call : FixbufCall) :
    (h.call call).ledger = h.ledger.call call := ledger_append h.calls call

@[simp] theorem ExportHeap.ledger_setCollector (h : ExportHeap) (a : Address)
    (totals : Option CollectorTotals) : (h.setCollector a totals).ledger = h.ledger := rfl

/-! ### Sending -/

section Send

variable (o : ExportOutcomes) (calendar : Calendar) (args : ExportArgs) {h : ExportHeap}
  {a collector session buffer : Address} {priv : CollectorPrivate} {totals : CollectorTotals}

/-- The loop over the records counts the accepted ones, as an `int`, and they wait. -/
theorem exportAppend_count (startTs endTs : UInt32) (buffer : Option Address)
    (records : List DataRecord) (i : ℕ) (recordCount : Int32) (h : ExportHeap) :
    (exportAppend o calendar startTs endTs buffer i records recordCount h).1 =
        recordCount + Int32.ofNat ((List.range' i records.length).countP o.append) ∧
      (exportAppend o calendar startTs endTs buffer i records recordCount h).2.ledger =
        h.ledger.accept ((List.range' i records.length).countP o.append) := by
  induction records generalizing i recordCount h with
  | nil => simp [exportAppend, Ledger.accept]
  | cons record records ih =>
      rw [exportAppend, List.length_cons, List.range'_succ, List.countP_cons]
      obtain ⟨hcount, hledger⟩ := ih (i + 1) (if o.append i then recordCount + 1 else recordCount)
        (h.call (.append buffer (exportData calendar startTs endTs record) (o.append i)))
      rw [hcount, hledger, ExportHeap.ledger_call, Ledger.call]
      cases o.append i with
      | false => simp
      | true =>
          have hone : Int32.ofNat 1 = 1 := rfl
          simp only [↓reduceIte, Ledger.accept, Ledger.mk.injEq, and_true]
          refine ⟨?_, by omega⟩
          rw [Int32.ofNat_add, hone, Int32.add_assoc, Int32.add_comm 1]

/-- **What sending does to the ledger and to the counters.** -/
theorem exportSend_ledger (htemplates : o.templates)
    (hctx : h.IsContext a priv collector session buffer)
    (htotals : h.collectors collector = some totals) :
    let after := totals.add (Int32.ofNat (o.accepted args.data.length))
    (exportSend o calendar args priv h).2.ledger =
        (((h.ledger.accept (o.accepted args.data.length)).emit o.emit).report
          after.flowRecordCount).emit o.emitStats ∧
      (exportSend o calendar args priv h).2.collectors collector = some after ∧
      (exportSend o calendar args priv h).2.privates = h.privates := by
  intro after
  have hsession := hctx.isSession
  have hbuffer := hctx.isBuffer
  simp only [ExportOutcomes.templates, Bool.and_eq_true, ← firstFailure_eq_none_iff] at htemplates
  obtain ⟨hcount, hledger⟩ := exportAppend_count o calendar
    (datetimeGetSecondsSinceEpoch calendar args.startTs 1970 1)
    (datetimeGetSecondsSinceEpoch calendar args.endTs 1970 1) priv.buffer args.data 0 0 h
  obtain ⟨calls, hcalls⟩ := exportAppend_heap o calendar
    (datetimeGetSecondsSinceEpoch calendar args.startTs 1970 1)
    (datetimeGetSecondsSinceEpoch calendar args.endTs 1970 1) priv.buffer args.data 0 0 h
  rw [Int32.zero_add] at hcount
  simp only [exportSend, hsession, hbuffer, ExportHeap.require_true, htemplates.1, htemplates.2,
    hcount]
  generalize (exportAppend o calendar
    (datetimeGetSecondsSinceEpoch calendar args.startTs 1970 1)
    (datetimeGetSecondsSinceEpoch calendar args.endTs 1970 1) priv.buffer 0 args.data 0 h).2 = h'
    at hledger hcalls ⊢
  have hlive : h'.collectors collector = some totals := by rw [hcalls, htotals]
  have hat : (h'.call (.emit priv.buffer o.emit)).collectorAt (some collector) = some totals :=
    hlive
  simp only [hctx.collector_eq, hat, Option.isSome_some, ExportHeap.require_true, Option.getD_some,
    ExportHeap.ledger_call, ExportHeap.ledger_setCollector, hledger]
  refine ⟨rfl, ?_, ?_⟩
  · exact Function.update_self ..
  · show h'.privates = h.privates
    rw [hcalls]

/-- Using a live context, with template calls that succeed, is sending. -/
theorem exportReturn_exportUse (htemplates : o.templates)
    (hctx : h.IsContext a priv collector session buffer) (l : ExportLocals)
    (hpriv : l.priv = some a) :
    (exportReturn (exportUse o calendar args l h).1 (exportUse o calendar args l h).2.1
      (exportUse o calendar args l h).2.2).2 = (exportSend o calendar args priv h).2 := by
  have hat : h.privateAt l.priv = some priv := by
    simp [ExportHeap.privateAt, hpriv, hctx.privates]
  have hnone := (exportSend_eq_none_iff o calendar args priv h).2 htemplates
  simp only [exportUse, hat, Option.isSome_some, ExportHeap.require_true, Option.getD_some, hnone,
    exportReturn]

/-- A set-up with a session asks for an exporter. -/
theorem exportSetUp_calls (hsession : o.sessionAlloc = true) (priv collector : Address) :
    (exportSetUp o args priv collector h).2.calls = h.calls ++
      [.exporterAllocNet args.host args.port (fbTransport args.transport) o.exporterAllocNet] := by
  simp only [exportSetUp, hsession]
  cases firstFailure (exportSetUpCalls o) <;> rfl

end Send

/-! ### Calls -/

/-- Every total that was written is the number of records that had been sent. -/
def ContextState.Truthful (s : ContextState) : Prop :=
  ∀ report ∈ s.heap.ledger.reports, report.total.toNat = report.sent

/-- The total counts what has been sent and what waits. -/
structure ContextState.Accounted (s : ContextState) : Prop where
  empty : s.ptr = none → s.heap.ledger.sent + s.heap.ledger.waiting = 0
  total : ∀ a ∈ s.ptr, ∀ priv ∈ s.heap.privates a, ∀ totals ∈ s.heap.collectorAt priv.collector,
    totals.flowRecordCount.toNat = s.heap.ledger.sent + s.heap.ledger.waiting

namespace ExportCall

variable (s : ContextState) (call : ExportCall)

/-- The number of records that a call hands over and that are accepted. -/
def accepted : ℕ := call.outcomes.accepted call.args.data.length

/-- A call that fails before there is a context. -/
def Early : Prop :=
  call.outcomes.exportInit = false ∨
    s.ptr = none ∧ (call.outcomes.calloc && call.outcomes.malloc) = false

/-- The counts of a call fit their types. -/
structure Fits : Prop where
  count : call.accepted < 2 ^ 31
  total : s.heap.ledger.sent + s.heap.ledger.waiting + call.accepted < 2 ^ 64

/-- The accepted records are sent, unless there are none. -/
def Sends : Prop :=
  call.Early s ∨ call.outcomes.emit = true ∨ s.heap.ledger.waiting + call.accepted = 0

end ExportCall

section Call

variable {s : ContextState} {call : ExportCall}

/-- A call that fails early calls nothing of fixbuf. -/
theorem export_ledger_of_early (hearly : call.Early s) :
    (s.export call).heap.ledger = s.heap.ledger := by
  obtain ⟨o, calendar, args⟩ := call
  obtain ⟨ptr, h⟩ := s
  simp only [ExportCall.Early, ContextState.export, nvipfixExport, exportOpen] at hearly ⊢
  cases hinit : o.exportInit with
  | false => simp [exportReturn, exportErrorPath]
  | true =>
      obtain ⟨rfl, halloc⟩ : ptr = none ∧ (o.calloc && o.malloc) = false := by
        simpa [hinit] using hearly
      cases hcalloc : o.calloc with
      | false => simp [exportReturn, exportErrorPath]
      | true =>
          have hmalloc : o.malloc = false := by simpa [hcalloc] using halloc
          simp only [hmalloc, Bool.not_true, Bool.not_false, Bool.false_eq_true, ↓reduceIte]
          rfl

/-- A call on a context sends from it. -/
theorem export_eq_exportSend_of_isContext {h : ExportHeap} {o : ExportOutcomes}
    {a collector session buffer : Address} {priv : CollectorPrivate} (calendar : Calendar)
    (args : ExportArgs) (hctx : h.IsContext a priv collector session buffer)
    (hinit : o.exportInit = true) (htemplates : o.templates) :
    ContextState.export { ptr := some a, heap := h } ⟨o, calendar, args⟩ =
      { ptr := some a, heap := (exportSend o calendar args priv h).2 } := by
  rw [← exportReturn_exportUse o calendar args htemplates hctx { priv := some a } rfl]
  simp only [ContextState.export, nvipfixExport, hinit, exportOpen]
  rfl

/-- A later call sends from the context that there is. -/
theorem export_eq_exportSend_again {a : Address} {h : ExportHeap}
    (hs : ContextState.Safe { ptr := some a, heap := h })
    (ha : ContextState.Accounted { ptr := some a, heap := h }) {o : ExportOutcomes}
    (calendar : Calendar) (args : ExportArgs) (hinit : o.exportInit = true)
    (htemplates : o.templates) :
    ∃ priv collector session buffer totals,
      h.IsContext a priv collector session buffer ∧ h.collectors collector = some totals ∧
        totals.flowRecordCount.toNat = h.ledger.sent + h.ledger.waiting ∧
        ContextState.export { ptr := some a, heap := h } ⟨o, calendar, args⟩ =
          { ptr := some a, heap := (exportSend o calendar args priv h).2 } := by
  obtain ⟨priv, collector, session, buffer,
    hctx : h.IsContext a priv collector session buffer⟩ := hs.live a rfl
  obtain ⟨totals, htotals⟩ := Option.isSome_iff_exists.1 hctx.collectors
  have hat : h.collectorAt priv.collector = some totals := by
    rw [hctx.collector_eq]
    exact htotals
  exact ⟨priv, collector, session, buffer, totals, hctx, htotals,
    ha.total a rfl priv hctx.privates totals hat,
    export_eq_exportSend_of_isContext calendar args hctx hinit htemplates⟩

/-- A first call sends from the context that it makes. -/
theorem export_eq_exportSend_first (h : ExportHeap) {o : ExportOutcomes} (calendar : Calendar)
    (args : ExportArgs) (hinit : o.exportInit = true) (hcalloc : o.calloc = true)
    (hmalloc : o.malloc = true) (hall : o.setUp) (htemplates : o.templates) :
    ∃ h' priv session buffer,
      h'.IsContext h.next priv (h.next + 1) session buffer ∧
        h'.collectors (h.next + 1) = some {} ∧
        h'.calls = h.calls ++ [.exporterAllocNet args.host args.port (fbTransport args.transport)
          o.exporterAllocNet] ∧
        ContextState.export { ptr := none, heap := h } ⟨o, calendar, args⟩ =
          { ptr := some h.next, heap := (exportSend o calendar args priv h').2 } := by
  obtain ⟨hprivate, hcollector⟩ := h.allocated_live
  obtain ⟨-, hcollectors, -⟩ :=
    exportSetUp_frame o args h.next (h.next + 1) h.allocated hprivate
  obtain ⟨priv, session, buffer, hctx⟩ :=
    exportSetUp_isContext o args h.next (h.next + 1) h.allocated hall hcollector
  have hnone := (exportSetUp_eq_none_iff o args h.next (h.next + 1) h.allocated).2 hall
  have hopen := exportOpen_first o args h hcalloc hmalloc
  rw [hnone] at hopen
  refine ⟨_, priv, session, buffer, hctx, ?_, ?_, ?_⟩
  · rw [hcollectors]
    simp [ExportHeap.allocated, ExportHeap.callocPrivate, ExportHeap.mallocCollector,
      ExportHeap.setPrivate, ExportHeap.setCollector]
  · rw [exportSetUp_calls o args (Bool.and_eq_true_iff.1 hall).1]
    rfl
  · rw [← exportReturn_exportUse o calendar args htemplates hctx
      { priv := some h.next, collector := some (h.next + 1) } rfl]
    simp only [ContextState.export, nvipfixExport, hinit, hopen]
    rfl

/-- **A call that settles sends from a live context**, whose total counts what has been sent and
what waits. -/
theorem export_eq_exportSend (hs : s.Safe) (ha : s.Accounted) (hsettles : call.Settles s)
    (hearly : ¬ call.Early s) :
    ∃ a h priv collector session buffer totals,
      h.IsContext a priv collector session buffer ∧ h.collectors collector = some totals ∧
        h.ledger = s.heap.ledger ∧
        totals.flowRecordCount.toNat = s.heap.ledger.sent + s.heap.ledger.waiting ∧
        s.export call =
          { ptr := some a
            heap := (exportSend call.outcomes call.calendar call.args priv h).2 } := by
  obtain ⟨hsetUp, htemplates⟩ : (s.ptr = none → call.outcomes.setUp) ∧ call.outcomes.templates :=
    ((or_assoc.2 hsettles).resolve_left hearly)
  obtain ⟨hinit, halloc⟩ : call.outcomes.exportInit = true ∧
      (s.ptr = none → call.outcomes.calloc = true ∧ call.outcomes.malloc = true) := by
    simpa [ExportCall.Early] using hearly
  obtain ⟨ptr, h⟩ := s
  cases ptr with
  | some a =>
      obtain ⟨priv, collector, session, buffer, totals, hctx, htotals, hcount, heq⟩ :=
        export_eq_exportSend_again hs ha call.calendar call.args hinit htemplates
      exact ⟨a, h, priv, collector, session, buffer, totals, hctx, htotals, rfl, hcount, heq⟩
  | none =>
      obtain ⟨hcalloc, hmalloc⟩ := halloc rfl
      obtain ⟨h', priv, session, buffer, hctx, htotals, hcalls, heq⟩ :=
        export_eq_exportSend_first h call.calendar call.args hinit hcalloc hmalloc (hsetUp rfl)
          htemplates
      have hledger : h'.ledger = h.ledger := by
        rw [ExportHeap.ledger, hcalls, ledger_append]
        rfl
      exact ⟨h.next, h', priv, h.next + 1, session, buffer, {}, hctx, htotals, hledger,
        (ha.empty rfl).symm, heq⟩

/-- The counters of a call that fits. -/
theorem toNat_add_flowRecordCount (totals : CollectorTotals) {count : ℕ} (hcount : count < 2 ^ 31)
    (htotal : totals.flowRecordCount.toNat + count < 2 ^ 64) :
    (totals.add (Int32.ofNat count)).flowRecordCount.toNat =
      totals.flowRecordCount.toNat + count := by
  have hmax : Int32.maxValue.toInt = 2 ^ 31 - 1 := by decide
  have hint : (Int32.ofNat count).toInt64.toUInt64.toNat = count := by
    rw [Int32.toInt64_ofNat' (by omega), Int64.toUInt64_ofNat',
      UInt64.toNat_ofNat_of_lt' (by rw [UInt64.size]; omega)]
  rw [CollectorTotals.add, UInt64.toNat_add, hint, Nat.mod_eq_of_lt htotal]

/-- **The total counts what has been sent and what waits**, behind every call that fits. -/
theorem ContextState.Accounted.export (ha : s.Accounted) (hs : s.Safe)
    (hsettles : call.Settles s) (hfits : call.Fits s) : (s.export call).Accounted := by
  by_cases hearly : call.Early s
  · obtain ⟨hptr, -, hheap⟩ := export_eq_of_early s call hearly
    have hledger := export_ledger_of_early hearly
    refine ⟨by rw [hptr, hledger]; exact ha.empty, ?_⟩
    rcases hheap with hnone | hheap
    · rw [hptr, hnone]
      simp
    · rw [hptr, hheap]
      exact ha.total
  · obtain ⟨a, h, priv, collector, session, buffer, totals, hctx, htotals, hledger, htotal, heq⟩ :=
      export_eq_exportSend hs ha hsettles hearly
    have htemplates : call.outcomes.templates := ((or_assoc.2 hsettles).resolve_left hearly).2
    obtain ⟨hsent, hcollectors, hprivates⟩ := exportSend_ledger call.outcomes call.calendar
      call.args htemplates hctx htotals
    have hafter := toNat_add_flowRecordCount totals hfits.count (htotal ▸ hfits.total)
    rw [heq]
    refine ⟨by simp, ?_⟩
    rintro a' ha' priv' hpriv' totals' htotals'
    obtain rfl : a = a' := Option.some.inj ha'
    rw [hprivates, hctx.privates] at hpriv'
    obtain rfl : priv = priv' := Option.some.inj hpriv'
    rw [ExportHeap.collectorAt, hctx.collector_eq] at htotals'
    obtain rfl := Option.some.inj (hcollectors.symm.trans htotals')
    rw [hsent, Ledger.emit_total, Ledger.report, Ledger.emit_total, hledger]
    exact hafter.trans (by rw [htotal, Nat.add_assoc]; rfl)

/-- Whether the total of one more call is truthful. -/
theorem truthful_export_iff (ha : s.Accounted) (hs : s.Safe) (hgood : s.Truthful)
    (hsettles : call.Settles s) (hfits : call.Fits s) :
    (s.export call).Truthful ↔ call.Sends s := by
  by_cases hearly : call.Early s
  · rw [ContextState.Truthful, export_ledger_of_early hearly]
    exact iff_of_true hgood (.inl hearly)
  · obtain ⟨a, h, priv, collector, session, buffer, totals, hctx, htotals, hledger, htotal, heq⟩ :=
      export_eq_exportSend hs ha hsettles hearly
    have htemplates : call.outcomes.templates := ((or_assoc.2 hsettles).resolve_left hearly).2
    obtain ⟨hsent, -, -⟩ := exportSend_ledger call.outcomes call.calendar call.args htemplates
      hctx htotals
    have hafter := toNat_add_flowRecordCount totals hfits.count (htotal ▸ hfits.total)
    have hreports : (s.export call).heap.ledger.reports = s.heap.ledger.reports ++
        [{ total := (totals.add (Int32.ofNat call.accepted)).flowRecordCount
           sent := ((s.heap.ledger.accept call.accepted).emit call.outcomes.emit).sent }] := by
      rw [heq, hsent, hledger]
      cases call.outcomes.emit <;> cases call.outcomes.emitStats <;> rfl
    rw [ContextState.Truthful, hreports, List.forall_mem_append, List.forall_mem_singleton]
    refine (and_iff_right hgood).trans ?_
    rw [hafter, htotal, ExportCall.Sends, or_iff_right hearly]
    cases call.outcomes.emit with
    | true => simp [Ledger.emit, Ledger.accept, Nat.add_assoc]
    | false => simp [Ledger.emit, Ledger.accept, Nat.add_assoc]

end Call

/-! ### Runs -/

/-- A call whose set-up and template calls succeed, with counts that fit their types. -/
def CountedStep (s : ContextState) (call : ExportCall) (s' : ContextState) : Prop :=
  call.Settles s ∧ call.Fits s ∧ s' = s.export call

/-- **The totals of a run are truthful if and only if every call sends.** -/
theorem exportRun_truthful_iff {run : List (ExportCall × ContextState)}
    (hrun : GuardedRun.IsRun CountedStep {} run) :
    (∀ p ∈ run, p.2.Truthful) ↔
      GuardedRun.Guarded (fun s call => ExportCall.Sends s call) {} run := by
  have hstart : ContextState.Safe {} ∧ ContextState.Accounted {} := by
    refine ⟨⟨by simp [ExportHeap.ContextLive], rfl⟩, ⟨fun _ => rfl, by simp⟩⟩
  have htruthful : ContextState.Truthful {} := by
    intro report hreport
    cases hreport
  have hinv : ∀ s call s', ContextState.Safe s ∧ ContextState.Accounted s →
      CountedStep s call s' → ContextState.Safe s' ∧ ContextState.Accounted s' := by
    rintro s call s' ⟨hs, ha⟩ ⟨hsettles, hfits, rfl⟩
    exact ⟨(safe_nvipfixExport_iff s hs call).2 hsettles, ha.export hs hsettles hfits⟩
  refine hrun.forall_iff_guarded hinv ?_ hstart htruthful
  rintro s call s' ⟨hs, ha⟩ hgood ⟨hsettles, hfits, rfl⟩
  exact truthful_export_iff ha hs hgood hsettles hfits

/-- A call with one record. -/
def ExportCall.single (o : ExportOutcomes) : ExportCall where
  outcomes := o
  calendar := .epoch
  args :=
    { host := none, port := none, transport := .udp, data := [{}], startTs := {}, endTs := {} }

theorem exportRun_truthful_sent : (exportRun {} [.single {}, .single {}]).length = 2 ∧
    ∀ p ∈ exportRun {} [.single {}, .single {}], p.2.Truthful := by
  have hrun : GuardedRun.IsRun CountedStep {} (exportRun {} [.single {}, .single {}]) :=
    ⟨⟨.inr (.inr ⟨fun _ => rfl, rfl⟩), ⟨by decide, by decide⟩, rfl⟩,
      ⟨.inr (.inr ⟨fun _ => rfl, rfl⟩), ⟨by decide, by decide +kernel⟩, rfl⟩, trivial⟩
  exact ⟨rfl, (exportRun_truthful_iff hrun).2 ⟨.inr (.inl rfl), .inr (.inl rfl), trivial⟩⟩

/-- A record is accepted and not sent; the total counts it. -/
theorem exportRun_notSent :
    (ContextState.export {} (.single { emit := false })).heap.ledger.reports =
        [{ total := 1, sent := 0 }] ∧
      ¬ ∀ p ∈ exportRun {} [.single { emit := false }], p.2.Truthful := by
  have hreports : (ContextState.export {} (.single { emit := false })).heap.ledger.reports =
      [{ total := 1, sent := 0 }] := by
    decide +kernel
  refine ⟨hreports, fun h => ?_⟩
  have htotal := h _ (List.mem_singleton.2 rfl) _ (hreports ▸ List.mem_singleton.2 rfl)
  exact absurd htotal (by decide)

end NvIpfix
