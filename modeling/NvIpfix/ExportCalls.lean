/-
**What a call of `nvipfix_export` hands to fixbuf.**

A call that gets past its templates offers the records one after another, has the buffer sent,
offers the record of totals, and has the buffer sent again.  This order does not depend on what
becomes of each of these four: a record that is not accepted, or a buffer that is not sent, is
logged, and the call goes on.

Main definitions:

* `NvIpfix.exportImage` — the export record of a data record in the window of a call;
* `NvIpfix.appendCalls`, `NvIpfix.sentCalls` — what a call hands to fixbuf;
* `NvIpfix.ExportOutcomes.Ready` — the session is there or is set up, and the templates pass.

Main results:

* `NvIpfix.exportSend_eq` — **the heap behind a call that gets past its templates**;
* `NvIpfix.exists_export_eq_exportSend` — a call that is ready sends from a live context.
-/

import NvIpfix.ExportTotals

set_option relaxedAutoImplicit false
set_option autoImplicit false

namespace NvIpfix

/-! ### The calls of fixbuf -/

/-- The export record of a data record in the window of a call. -/
def exportImage (calendar : Calendar) (args : ExportArgs) (record : DataRecord) : ExportData :=
  exportData calendar (datetimeGetSecondsSinceEpoch calendar args.startTs 1970 1)
    (datetimeGetSecondsSinceEpoch calendar args.endTs 1970 1) record

/-- The records offered to a buffer, each once and in order. -/
def appendCalls (o : ExportOutcomes) (calendar : Calendar) (args : ExportArgs)
    (buffer : Option Address) : List FixbufCall :=
  args.data.zipIdx.map fun p => .append buffer (exportImage calendar args p.1) (o.append p.2)

/-- All that a call hands to a buffer: the records, and the record of totals behind them. -/
def sentCalls (o : ExportOutcomes) (calendar : Calendar) (args : ExportArgs)
    (buffer : Option Address) (stats : ExportStatsData) : List FixbufCall :=
  appendCalls o calendar args buffer ++
    [.emit buffer o.emit, .appendStats buffer stats o.appendStats, .emit buffer o.emitStats]

/-- The record of totals. -/
def CollectorTotals.stats (totals : CollectorTotals) : ExportStatsData where
  exportedMessageTotalCount := totals.messageCount
  exportedFlowRecordTotalCount := totals.flowRecordCount

/-! ### Sending -/

section Send

variable (o : ExportOutcomes) (calendar : Calendar) (args : ExportArgs) {h : ExportHeap}
  {a collector session buffer : Address} {priv : CollectorPrivate} {totals : CollectorTotals}

/-- The loop over the records offers each of them. -/
theorem exportAppend_calls (startTs endTs : UInt32) (buffer : Option Address)
    (records : List DataRecord) (i : ℕ) (recordCount : Int32) (h : ExportHeap) :
    (exportAppend o calendar startTs endTs buffer i records recordCount h).2 =
      { h with calls := h.calls ++ (records.zipIdx i).map fun p =>
          .append buffer (exportData calendar startTs endTs p.1) (o.append p.2) } := by
  induction records generalizing i recordCount h with
  | nil => simp [exportAppend]
  | cons record records ih =>
      rw [exportAppend, ih, List.zipIdx_cons, List.map_cons]
      simp [ExportHeap.call]

/-- **The heap behind a call that gets past its templates**: the totals are counted up, and the
records and the totals have been handed to the buffer. -/
theorem exportSend_eq (htemplates : o.templates)
    (hctx : h.IsContext a priv collector session buffer)
    (htotals : h.collectors collector = some totals) :
    exportSend o calendar args priv h =
      (none, { h.setCollector collector
          (some (totals.add (Int32.ofNat (o.accepted args.data.length)))) with
        calls := h.calls ++ sentCalls o calendar args priv.buffer
          (totals.add (Int32.ofNat (o.accepted args.data.length))).stats }) := by
  have hsession := hctx.isSession
  have hbuffer := hctx.isBuffer
  simp only [ExportOutcomes.templates, Bool.and_eq_true, ← firstFailure_eq_none_iff] at htemplates
  have hcount := (exportAppend_count o calendar
    (datetimeGetSecondsSinceEpoch calendar args.startTs 1970 1)
    (datetimeGetSecondsSinceEpoch calendar args.endTs 1970 1) priv.buffer args.data 0 0 h).1
  rw [Int32.zero_add] at hcount
  simp only [exportSend, hsession, hbuffer, ExportHeap.require_true, htemplates.1, htemplates.2,
    hcount, exportAppend_calls, hctx.collector_eq, ExportHeap.collectorAt, ExportHeap.call,
    Option.bind_some, htotals, Option.isSome_some, Option.getD_some]
  simp only [ExportHeap.setCollector, sentCalls, appendCalls, List.append_assoc,
    List.cons_append, List.nil_append]
  rfl

end Send

/-! ### Calls that are ready -/

/-- The set-up of a session, where there is none, and the template calls succeed. -/
structure ExportOutcomes.Ready (o : ExportOutcomes) (ptr : Option Address) : Prop where
  exportInit : o.exportInit = true
  calloc : ptr = none → o.calloc = true
  malloc : ptr = none → o.malloc = true
  setUp : ptr = none → o.setUp
  templates : o.templates

/-- **A call that is ready sends from a live context**, the one that there was, or a new one. -/
theorem exists_export_eq_exportSend {o : ExportOutcomes} (calendar : Calendar) (args : ExportArgs)
    {ptr : Option Address} {h : ExportHeap} (hlive : h.ContextLive ptr) (hready : o.Ready ptr) :
    ∃ a h' priv collector session buffer totals opening,
      h'.IsContext a priv collector session buffer ∧ h'.collectors collector = some totals ∧
        h'.calls = h.calls ++ opening ∧
        (∀ call ∈ opening, ∃ host port transport allocated,
          call = .exporterAllocNet host port transport allocated) ∧
        (ptr = some a ∧ h' = h ∨ ptr = none ∧ totals = {}) ∧
        ContextState.export { ptr, heap := h } ⟨o, calendar, args⟩ =
          { ptr := some a, heap := (exportSend o calendar args priv h').2 } := by
  cases ptr with
  | some a =>
      obtain ⟨priv, collector, session, buffer,
        hctx : h.IsContext a priv collector session buffer⟩ := hlive a rfl
      obtain ⟨totals, htotals⟩ := Option.isSome_iff_exists.1 hctx.collectors
      exact ⟨a, h, priv, collector, session, buffer, totals, [], hctx, htotals, by simp, by simp,
        .inl ⟨rfl, rfl⟩, export_eq_exportSend_of_isContext calendar args hctx hready.exportInit
          hready.templates⟩
  | none =>
      obtain ⟨h', priv, session, buffer, hctx, htotals, hcalls, heq⟩ :=
        export_eq_exportSend_first h calendar args hready.exportInit (hready.calloc rfl)
          (hready.malloc rfl) (hready.setUp rfl) hready.templates
      exact ⟨h.next, h', priv, h.next + 1, session, buffer, {}, _, hctx, htotals, hcalls,
        fun call hcall => ⟨_, _, _, _, List.mem_singleton.1 hcall⟩, .inr ⟨rfl, rfl⟩, heq⟩

end NvIpfix
