/-
**The export context behind the caller's pointer.**

A run is any sequence of calls of `nvipfix_export` on one context pointer, from `NULL`, with any
outcome of the library calls inside them.  A state is safe when the pointer is `NULL` or leads to a
context that is live together with its counters, its session and its buffer, and nothing that is
not live has been touched.  The error paths from `SessionAlloc` on release the context and leave
the pointer as it is, so a call keeps the state safe exactly when it takes none of them.

Main definitions:

* `NvIpfix.ExportHeap.IsContext` — a context with all its parts live;
* `NvIpfix.ContextState.Safe` — the states without a dangling pointer;
* `NvIpfix.ExportCall.Settles` — the calls that take no path releasing the context.

Main results:

* `NvIpfix.safe_nvipfixExport_iff` — one call, from a safe state;
* `NvIpfix.ContextState.Safe.cleanup` — a clean-up of a safe state releases only what is live;
* `NvIpfix.exportRun_safe_iff` — **a run stays safe if and only if every call of it settles**.
-/

import NvIpfix.Export
import NvIpfix.GuardedRun

set_option relaxedAutoImplicit false
set_option autoImplicit false

namespace NvIpfix

/-! ### Live contexts -/

/-- A context at `a` with its counters, its session and its buffer, all of them live. -/
structure ExportHeap.IsContext (h : ExportHeap) (a : Address) (priv : CollectorPrivate)
    (collector session buffer : Address) : Prop where
  privates : h.privates a = some priv
  collector_eq : priv.collector = some collector
  session_eq : priv.session = some session
  buffer_eq : priv.buffer = some buffer
  collectors : (h.collectors collector).isSome
  sessions : h.sessions session = true
  buffers : h.buffers buffer = some session

/-- The pointer is `NULL` or leads to a live context. -/
def ExportHeap.ContextLive (h : ExportHeap) (ptr : Option Address) : Prop :=
  ∀ a ∈ ptr, ∃ priv collector session buffer, h.IsContext a priv collector session buffer

/-- The caller's pointer and the heap, between calls. -/
structure ContextState where
  ptr : Option Address := none
  heap : ExportHeap := {}

/-- No dangling pointer, and nothing that was not live has been touched. -/
structure ContextState.Safe (s : ContextState) : Prop where
  live : s.heap.ContextLive s.ptr
  fault : s.heap.fault = false

/-- One call: what the library calls inside it return, the calendar and the arguments. -/
structure ExportCall where
  outcomes : ExportOutcomes
  calendar : Calendar
  args : ExportArgs

/-- The state after a call. -/
def ContextState.export (s : ContextState) (call : ExportCall) : ContextState :=
  let returned := nvipfixExport call.outcomes call.calendar call.args s.ptr s.heap
  { ptr := returned.2.1, heap := returned.2.2 }

/-- The heap after `nvipfix_export_cleanup`. -/
def ContextState.cleanup (s : ContextState) : ExportHeap := nvipfixExportCleanup s.ptr s.heap

/-- Whether the calls that set up a session all succeed. -/
def ExportOutcomes.setUp (o : ExportOutcomes) : Bool :=
  o.sessionAlloc && (exportSetUpCalls o).all Prod.fst

/-- Whether the template calls of every export succeed. -/
def ExportOutcomes.templates (o : ExportOutcomes) : Bool :=
  (exportTemplateCalls o).all Prod.fst && (exportStatsTemplateCalls o).all Prod.fst

/-- A call that takes no path releasing the context: it fails before there is one to release, or
its template calls succeed, and on a first call those of the set-up as well. -/
def ExportCall.Settles (s : ContextState) (call : ExportCall) : Prop :=
  let o := call.outcomes
  o.exportInit = false
    ∨ (s.ptr = none ∧ (o.calloc && o.malloc) = false)
    ∨ ((s.ptr = none → o.setUp) ∧ o.templates)

/-! ### The calls in order -/

theorem firstFailure_eq_none_iff {calls : List (Bool × ExportFailure)} :
    firstFailure calls = none ↔ calls.all Prod.fst := by
  induction calls with
  | nil => simp [firstFailure]
  | cons call calls ih =>
      obtain ⟨ok, failure⟩ := call
      cases ok <;> simp [firstFailure, ih]

theorem mem_of_firstFailure {calls : List (Bool × ExportFailure)} {failure : ExportFailure}
    (h : firstFailure calls = some failure) : (false, failure) ∈ calls := by
  induction calls with
  | nil => simp [firstFailure] at h
  | cons call calls ih =>
      obtain ⟨ok, failure'⟩ := call
      cases ok with
      | false =>
          obtain rfl : failure' = failure := by simpa [firstFailure] using h
          simp
      | true => exact List.mem_cons_of_mem _ (ih (by simpa [firstFailure] using h))

/-! ### Frames -/

section Frames

variable {h : ExportHeap} {a collector session buffer : Address} {priv : CollectorPrivate}

@[simp] theorem ExportHeap.require_privates (live : Bool) :
    (h.require live).privates = h.privates := rfl

@[simp] theorem ExportHeap.require_collectors (live : Bool) :
    (h.require live).collectors = h.collectors := rfl

@[simp] theorem ExportHeap.require_sessions (live : Bool) :
    (h.require live).sessions = h.sessions := rfl

@[simp] theorem ExportHeap.require_buffers (live : Bool) :
    (h.require live).buffers = h.buffers := rfl

@[simp] theorem ExportHeap.require_true : h.require true = h := by simp [ExportHeap.require]

/-- The loop over the records only adds to the calls. -/
theorem exportAppend_heap (o : ExportOutcomes) (calendar : Calendar) (startTs endTs : UInt32)
    (buffer : Option Address) (records : List DataRecord) (i : ℕ) (recordCount : Int32)
    (h : ExportHeap) :
    ∃ calls, (exportAppend o calendar startTs endTs buffer i records recordCount h).2
      = { h with calls := calls } := by
  induction records generalizing i recordCount h with
  | nil => exact ⟨h.calls, rfl⟩
  | cons record records ih =>
      obtain ⟨calls, hcalls⟩ := ih (i + 1) (if o.append i then recordCount + 1 else recordCount)
        (h.call (.append buffer (exportData calendar startTs endTs record) (o.append i)))
      exact ⟨calls, hcalls⟩

/-- A context stays live under changes of the calls and of its counters. -/
theorem ExportHeap.IsContext.congr {h' : ExportHeap}
    (hctx : h.IsContext a priv collector session buffer) (hprivates : h'.privates = h.privates)
    (hsessions : h'.sessions = h.sessions) (hbuffers : h'.buffers = h.buffers)
    (hcollectors : (h'.collectors collector).isSome) :
    h'.IsContext a priv collector session buffer where
  privates := by rw [hprivates, hctx.privates]
  collector_eq := hctx.collector_eq
  session_eq := hctx.session_eq
  buffer_eq := hctx.buffer_eq
  collectors := hcollectors
  sessions := by rw [hsessions, hctx.sessions]
  buffers := by rw [hbuffers, hctx.buffers]

theorem ExportHeap.IsContext.isSession (hctx : h.IsContext a priv collector session buffer) :
    h.isSession priv.session = true := by
  simp [ExportHeap.isSession, hctx.session_eq, hctx.sessions]

theorem ExportHeap.IsContext.isBuffer (hctx : h.IsContext a priv collector session buffer) :
    h.isBuffer priv.buffer = true := by
  simp [ExportHeap.isBuffer, hctx.buffer_eq, hctx.buffers]

/-- Sending from a live context keeps it live and touches nothing else. -/
theorem exportSend_isContext (o : ExportOutcomes) (calendar : Calendar) (args : ExportArgs)
    (hctx : h.IsContext a priv collector session buffer) :
    (exportSend o calendar args priv h).2.IsContext a priv collector session buffer
      ∧ (exportSend o calendar args priv h).2.fault = h.fault := by
  have hsession := hctx.isSession
  have hbuffer := hctx.isBuffer
  simp only [exportSend, hsession, hbuffer, ExportHeap.require_true]
  split
  · exact ⟨hctx, rfl⟩
  · obtain ⟨calls, hcalls⟩ := exportAppend_heap o calendar
      (datetimeGetSecondsSinceEpoch calendar args.startTs 1970 1)
      (datetimeGetSecondsSinceEpoch calendar args.endTs 1970 1) priv.buffer args.data 0 0 h
    simp only [hcalls]
    split
    · exact ⟨hctx.congr rfl rfl rfl hctx.collectors, rfl⟩
    · have hlive : (h.collectorAt priv.collector).isSome = true := by
        simp [ExportHeap.collectorAt, hctx.collector_eq, hctx.collectors]
      simp only [hctx.collector_eq]
      refine ⟨hctx.congr rfl rfl rfl ?_, ?_⟩
      · simp [ExportHeap.call, ExportHeap.setCollector]
      · rw [hctx.collector_eq] at hlive
        simp [ExportHeap.call, ExportHeap.setCollector, ExportHeap.require,
          ExportHeap.collectorAt] at hlive ⊢
        exact fun hdead => absurd hlive (by simp [hdead])

theorem exportSend_eq_none_iff (o : ExportOutcomes) (calendar : Calendar) (args : ExportArgs)
    (priv : CollectorPrivate) (h : ExportHeap) :
    (exportSend o calendar args priv h).1 = none ↔ o.templates := by
  simp only [exportSend, ExportOutcomes.templates, Bool.and_eq_true, ← firstFailure_eq_none_iff]
  cases firstFailure (exportTemplateCalls o) with
  | some failure => simp
  | none => cases firstFailure (exportStatsTemplateCalls o) <;> simp

/-- A failure while sending leads to a label from which the buffer is released. -/
theorem exportSend_errorPath (o : ExportOutcomes) (calendar : Calendar) (args : ExportArgs)
    (priv : CollectorPrivate) (h h' : ExportHeap) (l : ExportLocals) {failure : ExportFailure}
    (hsend : (exportSend o calendar args priv h).1 = some failure) :
    exportErrorPath failure.2 l h' = exportFreeContext l (h'.fBufFree l.buffer) := by
  have hmem : (false, failure) ∈ exportTemplateCalls o
      ∨ (false, failure) ∈ exportStatsTemplateCalls o := by
    simp only [exportSend] at hsend
    cases hcalls : firstFailure (exportTemplateCalls o) with
    | some failure' =>
        simp only [hcalls, Option.some.injEq] at hsend
        exact .inl (mem_of_firstFailure (hsend ▸ hcalls))
    | none =>
        cases hstats : firstFailure (exportStatsTemplateCalls o) with
        | some failure' =>
            simp only [hcalls, hstats, Option.some.injEq] at hsend
            exact .inr (mem_of_firstFailure (hsend ▸ hstats))
        | none => simp [hcalls, hstats] at hsend
  simp only [exportTemplateCalls, exportStatsTemplateCalls, List.mem_cons, Prod.mk.injEq,
    List.not_mem_nil, or_false] at hmem
  rcases hmem with (⟨-, rfl⟩ | ⟨-, rfl⟩ | ⟨-, rfl⟩) | ⟨-, rfl⟩ | ⟨-, rfl⟩ <;> rfl

/-- Releasing a live context leaves its address dangling. -/
theorem exportFreeContext_dangling (l : ExportLocals) (ha : l.priv = some a)
    (hlive : (h.privates a).isSome) (hcollector : l.collector = some collector)
    (hcollectorLive : (h.collectors collector).isSome) :
    (exportFreeContext l h).privates a = none ∧ (exportFreeContext l h).fault = h.fault := by
  simp [exportFreeContext, ha, hcollector, ExportHeap.freePrivate, ExportHeap.freeCollector,
    ExportHeap.require, ExportHeap.setPrivate, ExportHeap.setCollector, hlive, hcollectorLive]

/-- `fBufFree` of the buffer of a live context. -/
theorem fBufFree_isContext (hctx : h.IsContext a priv collector session buffer) :
    (h.fBufFree priv.buffer).privates = h.privates
      ∧ (h.fBufFree priv.buffer).collectors = h.collectors
      ∧ (h.fBufFree priv.buffer).fault = h.fault := by
  simp [ExportHeap.fBufFree, hctx.buffer_eq, hctx.buffers, ExportHeap.fbSessionFree,
    hctx.sessions]

end Frames

/-! ### One call -/

/-- A set-up that fails leads to a label from which the context is released. -/
theorem exportSetUp_errorPath (o : ExportOutcomes) (args : ExportArgs)
    (priv collector : Address) (h h' : ExportHeap) (l : ExportLocals) {failure : ExportFailure}
    (hsetUp : (exportSetUp o args priv collector h).1 = some failure) :
    exportErrorPath failure.2 l h' = exportFreeContext l h' := by
  simp only [exportSetUp] at hsetUp
  cases hsession : o.sessionAlloc with
  | false =>
      obtain rfl : _ = failure := by simpa [hsession] using hsetUp
      rfl
  | true =>
      cases hcalls : firstFailure (exportSetUpCalls o) with
      | none => simp [hsession, hcalls] at hsetUp
      | some failure' =>
          obtain rfl : failure' = failure := by simpa [hsession, hcalls] using hsetUp
          have hmem := mem_of_firstFailure hcalls
          simp only [exportSetUpCalls, List.mem_cons, Prod.mk.injEq, List.not_mem_nil,
            or_false] at hmem
          rcases hmem with ⟨-, rfl⟩ | ⟨-, rfl⟩ | ⟨-, rfl⟩ | ⟨-, rfl⟩ | ⟨-, rfl⟩ | ⟨-, rfl⟩ |
            ⟨-, rfl⟩ | ⟨-, rfl⟩ <;> rfl

/-- A set-up succeeds when all its calls do. -/
theorem exportSetUp_eq_none_iff (o : ExportOutcomes) (args : ExportArgs)
    (priv collector : Address) (h : ExportHeap) :
    (exportSetUp o args priv collector h).1 = none ↔ o.setUp := by
  simp only [exportSetUp, ExportOutcomes.setUp, Bool.and_eq_true, ← firstFailure_eq_none_iff]
  cases o.sessionAlloc with
  | false => simp
  | true => cases firstFailure (exportSetUpCalls o) <;> simp

/-- What a set-up leaves of the context and the counters. -/
theorem exportSetUp_frame (o : ExportOutcomes) (args : ExportArgs) (priv collector : Address)
    (h : ExportHeap) (hlive : (h.privates priv).isSome) :
    ((exportSetUp o args priv collector h).2.privates priv).isSome
      ∧ (exportSetUp o args priv collector h).2.collectors = h.collectors
      ∧ (exportSetUp o args priv collector h).2.fault = h.fault := by
  simp only [exportSetUp]
  cases o.sessionAlloc with
  | false => exact ⟨hlive, rfl, rfl⟩
  | true =>
      cases firstFailure (exportSetUpCalls o) <;>
        simp [ExportHeap.fbSessionAlloc, ExportHeap.setPrivate, ExportHeap.call,
          ExportHeap.fBufAllocForExport]

/-- A set-up that succeeds makes a live context. -/
theorem exportSetUp_isContext (o : ExportOutcomes) (args : ExportArgs) (priv collector : Address)
    (h : ExportHeap) (hsetUp : o.setUp) (hcollector : (h.collectors collector).isSome) :
    ∃ content session buffer, (exportSetUp o args priv collector h).2.IsContext priv content
      collector session buffer := by
  simp only [ExportOutcomes.setUp, Bool.and_eq_true, ← firstFailure_eq_none_iff] at hsetUp
  simp only [exportSetUp, hsetUp.1, hsetUp.2]
  let content : CollectorPrivate :=
    { collector := some collector, session := some h.next, buffer := some (h.next + 1),
      templateId := o.templateId, templateIdExt := o.templateIdExt,
      statsTemplateId := o.statsTemplateId, statsTemplateIdExt := o.statsTemplateIdExt }
  refine ⟨content, h.next, h.next + 1, ?_, rfl, rfl, rfl, hcollector, ?_, ?_⟩ <;>
    simp [content, ExportHeap.fbSessionAlloc, ExportHeap.setPrivate, ExportHeap.call,
      ExportHeap.fBufAllocForExport]

/-- The state after a call that fails before there is a context to release. -/
theorem export_eq_of_early (s : ContextState) (call : ExportCall)
    (hearly : call.outcomes.exportInit = false
      ∨ (s.ptr = none ∧ (call.outcomes.calloc && call.outcomes.malloc) = false)) :
    (s.export call).ptr = s.ptr ∧ (s.export call).heap.fault = s.heap.fault
      ∧ (s.ptr = none ∨ (s.export call).heap = s.heap) := by
  obtain ⟨o, calendar, args⟩ := call
  obtain ⟨ptr, h⟩ := s
  simp only [ContextState.export, nvipfixExport, exportOpen] at hearly ⊢
  cases hinit : o.exportInit with
  | false => simp [exportReturn, exportErrorPath]
  | true =>
      obtain ⟨rfl, halloc⟩ : ptr = none ∧ (o.calloc && o.malloc) = false := by
        simpa [hinit] using hearly
      cases hcalloc : o.calloc with
      | false => simp [exportReturn, exportErrorPath]
      | true =>
          have hmalloc : o.malloc = false := by simpa [hcalloc] using halloc
          simp [hmalloc, exportReturn, exportErrorPath, ExportHeap.callocPrivate,
            ExportHeap.setPrivate]

section Call

variable (o : ExportOutcomes) (calendar : Calendar) (args : ExportArgs) (h : ExportHeap)

/-- Using a live context: the context stays live when the template calls succeed, and dangles
otherwise. -/
theorem exportUse_safe_iff {a collector session buffer : Address} {content : CollectorPrivate}
    (hctx : h.IsContext a content collector session buffer) (hfault : h.fault = false)
    (l : ExportLocals) (hpriv : l.priv = some a) :
    ContextState.Safe
      { ptr := some a
        heap := (exportReturn (exportUse o calendar args l h).1
          (exportUse o calendar args l h).2.1 (exportUse o calendar args l h).2.2).2 }
      ↔ o.templates := by
  have hat : h.privateAt l.priv = some content := by
    simp [ExportHeap.privateAt, hpriv, hctx.privates]
  obtain ⟨hsent, hsentFault⟩ := exportSend_isContext o calendar args hctx
  rw [← exportSend_eq_none_iff o calendar args content h]
  simp only [exportUse, hat, Option.isSome_some, ExportHeap.require_true, Option.getD_some]
  cases hfailure : (exportSend o calendar args content h).1 with
  | none =>
      have hlive : (exportSend o calendar args content h).2.ContextLive (some a) := by
        rintro _ ⟨⟩
        exact ⟨content, collector, session, buffer, hsent⟩
      simp only [exportReturn, iff_true]
      exact ⟨hlive, hsentFault.trans hfault⟩
  | some failure =>
      simp only [exportReturn, reduceCtorEq, iff_false]
      rw [exportSend_errorPath o calendar args content h _ _ hfailure]
      obtain ⟨hprivates, hcollectors, -⟩ := fBufFree_isContext hsent
      have hdangling := exportFreeContext_dangling
        (h := (exportSend o calendar args content h).2.fBufFree content.buffer)
        { l with collector := content.collector, buffer := content.buffer } hpriv
        (by rw [hprivates, hsent.privates]; rfl) hctx.collector_eq
        (by rw [hcollectors]; exact hsent.collectors)
      rintro ⟨hlive, -⟩
      obtain ⟨_, _, _, _, hctx'⟩ := hlive a rfl
      simpa [hdangling.1] using hctx'.privates

/-- A call with a live context is safe when its template calls succeed. -/
theorem safe_nvipfixExport_again_iff {a : Address} (hinit : o.exportInit = true)
    (hlive : h.ContextLive (some a)) (hfault : h.fault = false) :
    (ContextState.export { ptr := some a, heap := h } ⟨o, calendar, args⟩).Safe
      ↔ o.templates := by
  obtain ⟨content, collector, session, buffer, hctx⟩ := hlive a rfl
  rw [← exportUse_safe_iff o calendar args h hctx hfault { priv := some a } rfl]
  simp only [ContextState.export, nvipfixExport, hinit, exportOpen]
  rfl

/-- The heap of a first call that gets its memory, before the set-up. -/
def ExportHeap.allocated : ExportHeap :=
  h.callocPrivate.2.mallocCollector.2.setPrivate h.next (some { collector := some (h.next + 1) })

theorem ExportHeap.allocated_live :
    (h.allocated.privates h.next).isSome ∧ (h.allocated.collectors (h.next + 1)).isSome := by
  simp [ExportHeap.allocated, ExportHeap.callocPrivate, ExportHeap.mallocCollector,
    ExportHeap.setPrivate, ExportHeap.setCollector]

/-- A first call that gets its memory sets the session up. -/
theorem exportOpen_first (hcalloc : o.calloc = true) (hmalloc : o.malloc = true) :
    exportOpen o args none h =
      ((exportSetUp o args h.next (h.next + 1) h.allocated).1,
        { priv := some h.next, collector := some (h.next + 1) }, some h.next,
        (exportSetUp o args h.next (h.next + 1) h.allocated).2) := by
  simp only [exportOpen, hcalloc, hmalloc]
  rfl

/-- A first call that gets its memory is safe when its set-up and its template calls succeed. -/
theorem safe_nvipfixExport_first_iff (hinit : o.exportInit = true) (hcalloc : o.calloc = true)
    (hmalloc : o.malloc = true) (hfault : h.fault = false) :
    (ContextState.export { ptr := none, heap := h } ⟨o, calendar, args⟩).Safe
      ↔ o.setUp ∧ o.templates := by
  obtain ⟨hprivate, hcollector⟩ := h.allocated_live
  obtain ⟨hprivate', hcollector', hfault'⟩ :=
    exportSetUp_frame o args h.next (h.next + 1) h.allocated hprivate
  have hsetUp := exportSetUp_eq_none_iff o args h.next (h.next + 1) h.allocated
  have hopen := exportOpen_first o args h hcalloc hmalloc
  cases hfailure : (exportSetUp o args h.next (h.next + 1) h.allocated).1 with
  | some failure =>
      have hnot : ¬ o.setUp := by simp [← hsetUp, hfailure]
      have hdangling := exportFreeContext_dangling
        (h := (exportSetUp o args h.next (h.next + 1) h.allocated).2)
        { priv := some h.next, collector := some (h.next + 1) } rfl hprivate' rfl
        (by rw [hcollector']; exact hcollector)
      rw [hfailure] at hopen
      simp only [ContextState.export, nvipfixExport, hinit, hopen, exportReturn, Bool.not_true,
        Bool.false_eq_true, ↓reduceIte, hnot, false_and, iff_false]
      rw [exportSetUp_errorPath o args h.next (h.next + 1) h.allocated _ _ hfailure]
      rintro ⟨hlive, -⟩
      obtain ⟨_, _, _, _, hctx⟩ := hlive h.next rfl
      simpa [hdangling.1] using hctx.privates
  | none =>
      have hall : o.setUp := hsetUp.1 hfailure
      obtain ⟨content, session, buffer, hctx⟩ :=
        exportSetUp_isContext o args h.next (h.next + 1) h.allocated hall hcollector
      rw [hfailure] at hopen
      simp only [hall, true_and]
      rw [← exportUse_safe_iff o calendar args _ hctx (hfault'.trans hfault)
        { priv := some h.next, collector := some (h.next + 1) } rfl]
      simp only [ContextState.export, nvipfixExport, hinit, hopen]
      rfl

end Call

/-- One call keeps a safe state safe if and only if it settles. -/
theorem safe_nvipfixExport_iff (s : ContextState) (hs : s.Safe) (call : ExportCall) :
    (s.export call).Safe ↔ call.Settles s := by
  by_cases hearly : call.outcomes.exportInit = false
      ∨ (s.ptr = none ∧ (call.outcomes.calloc && call.outcomes.malloc) = false)
  · obtain ⟨hptr, hfault, hheap⟩ := export_eq_of_early s call hearly
    have hsettles : call.Settles s := hearly.imp_right .inl
    refine iff_of_true ⟨?_, hfault.trans hs.fault⟩ hsettles
    rw [hptr]
    rcases hheap with hnone | hheap
    · simp [ExportHeap.ContextLive, hnone]
    · rw [hheap]
      exact hs.live
  · have hsettles : call.Settles s
        ↔ (s.ptr = none → call.outcomes.setUp) ∧ call.outcomes.templates := by
      rw [ExportCall.Settles, ← or_assoc, or_iff_right hearly]
    obtain ⟨hinit, halloc⟩ : call.outcomes.exportInit = true
        ∧ (s.ptr = none → call.outcomes.calloc = true ∧ call.outcomes.malloc = true) := by
      simpa using hearly
    rw [hsettles]
    obtain ⟨ptr, h⟩ := s
    obtain ⟨o, calendar, args⟩ := call
    cases ptr with
    | none =>
        obtain ⟨hcalloc, hmalloc⟩ := halloc rfl
        simpa using
          safe_nvipfixExport_first_iff o calendar args h hinit hcalloc hmalloc hs.fault
    | some a =>
        simpa using safe_nvipfixExport_again_iff o calendar args h hinit hs.live hs.fault

/-- A clean-up of a safe state releases only what is live. -/
theorem ContextState.Safe.cleanup {s : ContextState} (hs : s.Safe) : s.cleanup.fault = false := by
  obtain ⟨ptr, h⟩ := s
  cases ptr with
  | none => exact hs.fault
  | some a =>
      obtain ⟨content, collector, session, buffer,
        hctx : h.IsContext a content collector session buffer⟩ := hs.live a rfl
      obtain ⟨-, hcollectors, hfault⟩ := fBufFree_isContext hctx
      have hlive : ((h.fBufFree (some buffer)).collectors collector).isSome := by
        rw [← hctx.buffer_eq, hcollectors]
        exact hctx.collectors
      rw [hctx.buffer_eq] at hfault
      have hcleanup : ContextState.cleanup { ptr := some a, heap := h }
          = (h.fBufFree (some buffer)).freeCollector collector := by
        simp [ContextState.cleanup, nvipfixExportCleanup, hctx.privates, hctx.buffer_eq,
          hctx.collector_eq]
      rw [hcleanup]
      simp only [ExportHeap.freeCollector, hlive, ExportHeap.require_true, ExportHeap.setCollector]
      exact hfault.trans hs.fault

/-! ### Runs -/

/-- The states that a sequence of calls leads to. -/
def exportRun (s : ContextState) : List ExportCall → List (ExportCall × ContextState) :=
  GuardedRun.runOf ContextState.export s

/-- **A run from `NULL` stays safe, and every clean-up after it with it, if and only if every call
of it settles.** -/
theorem exportRun_safe_iff (calls : List ExportCall) :
    (∀ p ∈ exportRun {} calls, p.2.Safe ∧ p.2.cleanup.fault = false)
      ↔ GuardedRun.Guarded (fun s call => ExportCall.Settles s call) {} (exportRun {} calls) := by
  have hstart : ContextState.Safe {} := ⟨by simp [ExportHeap.ContextLive], rfl⟩
  have hrun := GuardedRun.isRun_runOf ContextState.export {} calls
  have hsafe : (∀ p ∈ exportRun {} calls, p.2.Safe) ↔
      GuardedRun.Guarded (fun s call => ExportCall.Settles s call) {} (exportRun {} calls) :=
    hrun.forall_iff_guarded (fun _ _ _ (_ : True) _ => trivial)
      (fun s call s' _ hs hstep => by subst hstep; exact safe_nvipfixExport_iff s hs call)
      trivial hstart
  rw [← hsafe]
  exact ⟨fun h p hp => (h p hp).1, fun h p hp => ⟨h p hp, (h p hp).cleanup⟩⟩

/-- A call without records. -/
def ExportCall.empty (o : ExportOutcomes) : ExportCall where
  outcomes := o
  calendar := .epoch
  args :=
    { host := none, port := none, transport := .udp, data := [], startTs := {}, endTs := {} }

/-- A first call whose exporter cannot be allocated leaves the address of the context that it has
released behind the pointer; the next call uses it. -/
theorem exportRun_exporterAllocNet :
    let failing := ExportCall.empty { exporterAllocNet := false }
    let failed := ContextState.export {} failing
    ¬ (∀ p ∈ exportRun {} [failing], p.2.Safe ∧ p.2.cleanup.fault = false)
      ∧ failed.ptr = some 0 ∧ failed.heap.privates 0 = none
      ∧ failed.cleanup.fault ∧ (failed.export (.empty {})).heap.fault := by
  intro failing failed
  have hfault : failed.cleanup.fault = true := rfl
  refine ⟨fun hsafe => ?_, rfl, rfl, hfault, rfl⟩
  have hfailed := (hsafe (failing, failed) (List.mem_singleton.2 rfl)).2
  simp [hfault] at hfailed

end NvIpfix
