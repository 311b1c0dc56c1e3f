/-
**The objects of a context.**

A context keeps its counters, its session and its buffer.  A call that takes no path releasing the
context makes these objects for a new context and makes no others, whatever fails in it; so there is
never an object that no context leads to.

Main definitions:

* `NvIpfix.ContextPart`, `NvIpfix.ExportHeap.live` — the objects of contexts;
* `NvIpfix.Kept` — every object is a part of one of the contexts.

Main results:

* `NvIpfix.live_export` — what is live behind a call;
* `NvIpfix.Kept.export` — **a call leaves no object behind**.
-/

import NvIpfix.CollectorFeeds

set_option relaxedAutoImplicit false
set_option autoImplicit false

namespace NvIpfix

/-! ### Parts of contexts -/

/-- The objects that a context keeps. -/
inductive ContextPart
  | collector
  | session
  | buffer
  deriving DecidableEq, Repr

/-- Whether there is an object of a kind at an address. -/
def ExportHeap.live (h : ExportHeap) : ContextPart → Address → Bool
  | .collector, x => (h.collectors x).isSome
  | .session, x => h.sessions x
  | .buffer, x => (h.buffers x).isSome

/-- The pointer of a context to one of its objects. -/
def CollectorPrivate.part (priv : CollectorPrivate) : ContextPart → Option Address
  | .collector => priv.collector
  | .session => priv.session
  | .buffer => priv.buffer

/-- **Every object is a part of one of the contexts**, which are live. -/
def Kept (ctxs : List Address) (h : ExportHeap) : Prop :=
  ∀ part x, h.live part x = true → ∃ a ∈ ctxs, ∃ priv collector session buffer,
    h.IsContext a priv collector session buffer ∧ priv.part part = some x

/-! ### One call -/

section Call

variable {h h' : ExportHeap} {feed : List ExportCall} {call : ExportCall} {ptr : Option Address}
  {o : ExportOutcomes} {args : ExportArgs} {part : ContextPart} {x : Address}

/-- The content of a context behind a set-up that succeeds. -/
def ExportOutcomes.content (o : ExportOutcomes) (collector session : Address) :
    CollectorPrivate where
  collector := some collector
  session := some session
  buffer := some (session + 1)
  templateId := o.templateId
  templateIdExt := o.templateIdExt
  statsTemplateId := o.statsTemplateId
  statsTemplateIdExt := o.statsTemplateIdExt

/-- A set-up that succeeds makes a session and its buffer. -/
theorem exportSetUp_heap (args : ExportArgs) (priv collector : Address) (h : ExportHeap)
    (hsetUp : o.setUp) : (exportSetUp o args priv collector h).2 =
      { h with
        next := h.next + 2
        privates := Function.update h.privates priv (some (o.content collector h.next))
        sessions := Function.update h.sessions h.next true
        buffers := Function.update h.buffers (h.next + 1) (some h.next)
        calls := h.calls ++ [.exporterAllocNet args.host args.port (fbTransport args.transport)
          o.exporterAllocNet] } := by
  simp only [ExportOutcomes.setUp, Bool.and_eq_true, ← firstFailure_eq_none_iff] at hsetUp
  simp only [exportSetUp, hsetUp.1, hsetUp.2]
  simp [ExportHeap.fbSessionAlloc, ExportHeap.setPrivate, ExportHeap.call,
    ExportHeap.fBufAllocForExport, ExportOutcomes.content]

/-- A first call that gets past its opening sends from the context that it makes. -/
theorem export_eq_first (h : ExportHeap) (hready : call.outcomes.Ready none) :
    ∃ h', h'.IsContext h.next (call.outcomes.content (h.next + 1) (h.next + 2)) (h.next + 1)
        (h.next + 2) (h.next + 3) ∧
      h'.collectors = Function.update h.collectors (h.next + 1) (some {}) ∧
      h'.sessions = Function.update h.sessions (h.next + 2) true ∧
      h'.buffers = Function.update h.buffers (h.next + 3) (some (h.next + 2)) ∧
      ContextState.export { ptr := none, heap := h } call =
        { ptr := some h.next
          heap := (exportSend call.outcomes call.calendar call.args
            (call.outcomes.content (h.next + 1) (h.next + 2)) h').2 } := by
  obtain ⟨o, calendar, args⟩ := call
  have hinit : o.exportInit = true := hready.exportInit
  have hsetUp : o.setUp := hready.setUp rfl
  have hnone := (exportSetUp_eq_none_iff o args h.next (h.next + 1) h.allocated).2 hsetUp
  have hheap := exportSetUp_heap args h.next (h.next + 1) h.allocated hsetUp
  have hopen := exportOpen_first o args h (hready.calloc rfl) (hready.malloc rfl)
  have hnext : h.allocated.next = h.next + 2 := rfl
  have hcollectors : h.allocated.collectors =
    Function.update h.collectors (h.next + 1) (some {}) := rfl
  have hsessions : h.allocated.sessions = h.sessions := rfl
  have hbuffers : h.allocated.buffers = h.buffers := rfl
  rw [hnone] at hopen
  rw [hnext, hcollectors, hsessions, hbuffers] at hheap
  have hctx : (exportSetUp o args h.next (h.next + 1) h.allocated).2.IsContext h.next
      (o.content (h.next + 1) (h.next + 2)) (h.next + 1) (h.next + 2) (h.next + 3) := by
    rw [hheap]
    exact ⟨Function.update_self .., rfl, rfl, rfl, by simp, Function.update_self ..,
      Function.update_self ..⟩
  refine ⟨_, hctx, ?_, ?_, ?_, ?_⟩
  · rw [hheap]
  · rw [hheap]
  · rw [hheap]
  · rw [← exportReturn_exportUse o calendar args hready.templates hctx
      { priv := some h.next, collector := some (h.next + 1) } rfl]
    simp only [ContextState.export, nvipfixExport, hinit, hopen]
    rfl

/-- A call that does not get past its opening makes no part of a context. -/
theorem live_export_of_not_reaches (hfed : Fed feed ptr h) (hreaches : reaches feed call = false) :
    (ContextState.export { ptr, heap := h } call).ptr = ptr ∧
      (ContextState.export { ptr, heap := h } call).heap.live = h.live ∧
      (ptr = none ∨ (ContextState.export { ptr, heap := h } call).heap = h) := by
  simp only [reaches, Bool.and_eq_false_iff, Bool.or_eq_false_iff, Bool.not_eq_false'] at hreaches
  obtain ⟨o, calendar, args⟩ := call
  simp only [ContextState.export, nvipfixExport, exportOpen]
  cases hinit : o.exportInit with
  | false => simp [exportReturn, exportErrorPath]
  | true =>
      obtain ⟨hempty, halloc⟩ := hreaches.resolve_left (by simp [hinit])
      obtain rfl := hfed.isEmpty.1 hempty
      cases hcalloc : o.calloc with
      | false => simp [exportReturn, exportErrorPath]
      | true =>
          have hmalloc : o.malloc = false := halloc.resolve_left (by simp [hcalloc])
          simp only [hmalloc, exportReturn, exportErrorPath, Bool.not_true, Bool.not_false,
            Bool.false_eq_true, if_false, if_true, true_or, and_true, true_and]
          funext part x
          cases part <;> rfl

/-- Sending makes no part of a context. -/
theorem live_exportSend {a collector session buffer : Address} {priv : CollectorPrivate}
    (calendar : Calendar) (htemplates : o.templates)
    (hctx : h.IsContext a priv collector session buffer)
    (hlive : (exportSend o calendar args priv h).2.live part x = true) : h.live part x = true := by
  obtain ⟨totals, htotals⟩ := Option.isSome_iff_exists.1 hctx.collectors
  rw [exportSend_eq o calendar args htemplates hctx htotals] at hlive
  cases part with
  | session => exact hlive
  | buffer => exact hlive
  | collector =>
      by_cases hx : x = collector
      · subst hx
        exact hctx.collectors
      · simpa [ExportHeap.live, ExportHeap.setCollector, Function.update_of_ne hx] using hlive

/-- What is found behind a write was there before it, or has been written. -/
theorem live_update {β : Type} {f : Address → Option β} {a : Address} {b : Option β}
    (hlive : (Function.update f a b x).isSome = true) : (f x).isSome = true ∨ some a = some x := by
  by_cases hx : x = a
  · exact .inr (congrArg some hx.symm)
  · rw [Function.update_of_ne hx] at hlive
    exact .inl hlive

/-- **What is live behind a call** was live before it, or is a part of the context of the call. -/
theorem live_export (hfed : Fed feed ptr h) (hsettles : feedSettles feed call)
    (hlive : (ContextState.export { ptr, heap := h } call).heap.live part x = true) :
    h.live part x = true ∨ ∃ a ∈ (ContextState.export { ptr, heap := h } call).ptr,
      ∃ priv collector session buffer,
        (ContextState.export { ptr, heap := h } call).heap.IsContext a priv collector session
            buffer ∧ priv.part part = some x := by
  cases hreaches : reaches feed call with
  | false =>
      rw [(live_export_of_not_reaches hfed hreaches).2.1] at hlive
      exact .inl hlive
  | true =>
      have hready := hfed.ready hreaches hsettles
      cases ptr with
      | some a =>
          obtain ⟨priv, collector, session, buffer, hctx, -, -⟩ := hfed.context a rfl
          rw [export_eq_exportSend_of_isContext call.calendar call.args hctx hready.exportInit
            hready.templates] at hlive
          exact .inl (live_exportSend call.calendar hready.templates hctx hlive)
      | none =>
          obtain ⟨h', hctx, hcollectors, hsessions, hbuffers, heq⟩ := export_eq_first h hready
          rw [heq] at hlive ⊢
          have hsent := (exportSend_isContext call.outcomes call.calendar call.args hctx).1
          have hlive' := live_exportSend call.calendar hready.templates hctx hlive
          have hnew : h.live part x = true ∨
              (call.outcomes.content (h.next + 1) (h.next + 2)).part part = some x := by
            cases part with
            | collector =>
                rw [ExportHeap.live, hcollectors] at hlive'
                exact live_update hlive'
            | session =>
                by_cases hx : x = h.next + 2
                · exact .inr (congrArg some hx.symm)
                · rw [ExportHeap.live, hsessions, Function.update_of_ne hx] at hlive'
                  exact .inl hlive'
            | buffer =>
                rw [ExportHeap.live, hbuffers] at hlive'
                exact live_update hlive'
          exact hnew.imp_right fun hpart => ⟨h.next, rfl, _, _, _, _, hsent, hpart⟩

/-- The context of a call stays what it is. -/
theorem isContext_export (hfed : Fed feed ptr h) (hsettles : feedSettles feed call) {a : Address}
    (ha : a ∈ ptr) : a ∈ (ContextState.export { ptr, heap := h } call).ptr ∧
      ∀ priv collector session buffer, h.IsContext a priv collector session buffer →
        (ContextState.export { ptr, heap := h } call).heap.IsContext a priv collector session
          buffer := by
  obtain rfl : ptr = some a := ha
  cases hreaches : reaches feed call with
  | false =>
      obtain ⟨hsame, -, hheap⟩ := live_export_of_not_reaches hfed hreaches
      rw [hsame, hheap.resolve_left (by simp)]
      exact ⟨rfl, fun _ _ _ _ hctx => hctx⟩
  | true =>
      have hready := hfed.ready hreaches hsettles
      obtain ⟨priv, collector, session, buffer, hctx, -, -⟩ := hfed.context a rfl
      have heq := export_eq_exportSend_of_isContext call.calendar call.args hctx hready.exportInit
        hready.templates
      rw [heq]
      refine ⟨rfl, fun priv' collector' session' buffer' hctx' => ?_⟩
      obtain rfl : priv = priv' := Option.some.inj (hctx.privates.symm.trans hctx'.privates)
      exact (exportSend_isContext call.outcomes call.calendar call.args hctx').1

/-- **A call leaves no object behind**: every object is a part of its context, or of one of the
others. -/
theorem Kept.export {owner owner' : Address → Address} {new : List FixbufCall}
    {ctxs ctxs' : List Address} (hkept : Kept ctxs h) (hfed : Fed feed ptr h)
    (hsettles : feedSettles feed call)
    (hframe : Frame owner owner' ptr.toList h
      (ContextState.export { ptr, heap := h } call).heap new)
    (hold : ∀ a ∈ ctxs, a < h.next) (hrest : ∀ a ∈ ctxs, a ∉ ptr.toList → a ∈ ctxs')
    (hptr : ∀ a ∈ (ContextState.export { ptr, heap := h } call).ptr, a ∈ ctxs') :
    Kept ctxs' (ContextState.export { ptr, heap := h } call).heap := by
  intro part x hlive
  rcases live_export hfed hsettles hlive with hlive | ⟨a, ha, hctx⟩
  · obtain ⟨a, ha, priv, collector, session, buffer, hctx, hpart⟩ := hkept part x hlive
    by_cases hmem : a ∈ ptr
    · obtain ⟨ha', hctx'⟩ := isContext_export hfed hsettles hmem
      exact ⟨a, hptr a ha', priv, collector, session, buffer, hctx' _ _ _ _ hctx, hpart⟩
    · have hvisited : a ∉ ptr.toList := fun ha => hmem (Option.mem_toList.1 ha)
      exact ⟨a, hrest a ha hvisited, priv, collector, session, buffer,
        (hframe.context a hvisited (hold a ha) _ _ _ _ hctx).1, hpart⟩
  · exact ⟨a, hptr a ha, hctx⟩

end Call

end NvIpfix
