/-
**A collector on its own.**

What reaches a collector depends on the calls of `nvipfix_export` for it alone.  A collector on its
own is the list of the calls that have got through to it: the buffer has been handed the records
of these calls and the totals behind them, and the counters are what these calls add up to.  A call
that takes no path releasing the context keeps the context in agreement with that list.

Main definitions:

* `NvIpfix.feedStep`, `NvIpfix.feedSettles` — a collector on its own;
* `NvIpfix.feedTotals`, `NvIpfix.feedCalls` — what it has been given;
* `NvIpfix.Fed` — a context that agrees with it.

Main results:

* `NvIpfix.Fed.frame` — calls for other collectors do not matter;
* `NvIpfix.exists_fed_nvipfixExport` — **one call for one collector**.
-/

import NvIpfix.Delivery

set_option relaxedAutoImplicit false
set_option autoImplicit false

namespace NvIpfix

/-! ### A collector on its own -/

/-- A call gets past its opening: the exporter is initialised, and there is a context, or memory for
one. -/
def reaches (feed : List ExportCall) (call : ExportCall) : Bool :=
  call.outcomes.exportInit &&
    (!feed.isEmpty || (call.outcomes.calloc && call.outcomes.malloc))

/-- The calls that have got through, after one more. -/
def feedStep (feed : List ExportCall) (call : ExportCall) : List ExportCall :=
  if reaches feed call then feed ++ [call] else feed

/-- A call that takes no path releasing the context of the collector. -/
def feedSettles (feed : List ExportCall) (call : ExportCall) : Bool :=
  !reaches feed call || ((!feed.isEmpty || call.outcomes.setUp) && call.outcomes.templates)

/-- The counters behind calls. -/
def feedTotals (totals : CollectorTotals) (feed : List ExportCall) : CollectorTotals :=
  feed.foldl (fun totals call => totals.add (Int32.ofNat call.accepted)) totals

/-- What calls hand to a buffer: the records of each, and the totals so far behind them. -/
def feedCalls (buffer : Option Address) : CollectorTotals → List ExportCall → List FixbufCall
  | _, [] => []
  | totals, call :: feed =>
      let totals := totals.add (Int32.ofNat call.accepted)
      sentCalls call.outcomes call.calendar call.args buffer totals.stats ++
        feedCalls buffer totals feed

/-- **A context that agrees with the calls that have got through**: there is one if there have been
any, with the counters of these calls, and its buffer has been handed what they hand over, and
nothing else. -/
structure Fed (feed : List ExportCall) (ptr : Option Address) (h : ExportHeap) : Prop where
  opened : ptr = none ↔ feed = []
  context : ∀ a ∈ ptr, ∃ priv collector session buffer,
    h.IsContext a priv collector session buffer ∧
      h.collectors collector = some (feedTotals {} feed) ∧
        h.calls.filter (fun call => call.buffer = some buffer) = feedCalls (some buffer) {} feed

/-- Buffers that have been called are older than the next object. -/
def ExportHeap.CallsBelow (h : ExportHeap) : Prop :=
  ∀ call ∈ h.calls, ∀ b ∈ call.buffer, b < h.next

section Feed

variable {feed : List ExportCall} {call : ExportCall} {ptr : Option Address} {h h' : ExportHeap}
  {owner owner' : Address → Address} {visited : List Address} {new : List FixbufCall}

theorem feedTotals_concat (totals : CollectorTotals) (feed : List ExportCall) (call : ExportCall) :
    feedTotals totals (feed ++ [call]) =
      (feedTotals totals feed).add (Int32.ofNat call.accepted) := by
  rw [feedTotals, List.foldl_append]
  rfl

/-- One more call hands over its records, and the totals of all calls. -/
theorem feedCalls_concat (buffer : Option Address) (totals : CollectorTotals)
    (feed : List ExportCall) (call : ExportCall) :
    feedCalls buffer totals (feed ++ [call]) = feedCalls buffer totals feed ++
      sentCalls call.outcomes call.calendar call.args buffer
        (feedTotals totals (feed ++ [call])).stats := by
  induction feed generalizing totals with
  | nil => simp [feedCalls, feedTotals]
  | cons first feed ih =>
      simp only [List.cons_append, feedCalls, ih, List.append_assoc]
      rfl

theorem Fed.contextLive (hfed : Fed feed ptr h) : h.ContextLive ptr := by
  intro a ha
  obtain ⟨priv, collector, session, buffer, hctx, -, -⟩ := hfed.context a ha
  exact ⟨priv, collector, session, buffer, hctx⟩

theorem Fed.isEmpty (hfed : Fed feed ptr h) : feed.isEmpty = true ↔ ptr = none := by
  rw [List.isEmpty_iff, hfed.opened]

/-- A collector on its own tells the calls that settle. -/
theorem Fed.settles (hfed : Fed feed ptr h) (hsettles : feedSettles feed call) :
    call.Settles { ptr, heap := h } := by
  have hempty := hfed.isEmpty
  simp only [feedSettles, reaches, Bool.or_eq_true, Bool.not_eq_true', Bool.and_eq_true,
    Bool.and_eq_false_iff, Bool.or_eq_false_iff, Bool.not_eq_false'] at hsettles
  rcases hsettles with (hinit | ⟨hnil, halloc⟩) | ⟨hsetUp, htemplates⟩
  · exact .inl hinit
  · exact .inr (.inl ⟨hempty.1 hnil, Bool.and_eq_false_iff.2 halloc⟩)
  · refine .inr (.inr ⟨fun hnone => hsetUp.resolve_left ?_, htemplates⟩)
    rw [hempty.2 hnone]
    exact Bool.noConfusion

/-- A call that gets past its opening and settles is ready. -/
theorem Fed.ready (hfed : Fed feed ptr h) (hreaches : reaches feed call)
    (hsettles : feedSettles feed call) : call.outcomes.Ready ptr := by
  have hempty := hfed.isEmpty
  simp only [feedSettles, hreaches, Bool.not_true, Bool.false_or, Bool.and_eq_true,
    Bool.or_eq_true, Bool.not_eq_true'] at hsettles
  simp only [reaches, Bool.and_eq_true, Bool.or_eq_true, Bool.not_eq_true'] at hreaches
  have hfirst : ptr = none → feed.isEmpty ≠ false := fun hnone hne => by
    rw [hempty.2 hnone] at hne
    cases hne
  exact ⟨hreaches.1, fun hnone => (hreaches.2.resolve_left (hfirst hnone)).1,
    fun hnone => (hreaches.2.resolve_left (hfirst hnone)).2,
    fun hnone => hsettles.1.resolve_left (hfirst hnone), hsettles.2⟩

/-- A context stays in agreement while others are visited. -/
theorem Fed.frame (hfed : Fed feed ptr h) (hown : h.OwnedBy owner)
    (hf : Frame owner owner' visited h h' new) (hptr : ∀ a ∈ ptr, a ∉ visited) :
    Fed feed ptr h' := by
  refine ⟨hfed.opened, fun a ha => ?_⟩
  obtain ⟨priv, collector, session, buffer, hctx, htotals, hfilter⟩ := hfed.context a ha
  obtain ⟨hlt, -, hparts⟩ := hown.privates a priv hctx.privates
  obtain ⟨hctx', htotals'⟩ := hf.context a (hptr a ha) hlt priv collector session buffer hctx
  obtain ⟨hbuffer, howner⟩ := hparts buffer (CollectorPrivate.mem_parts.2 (.inr (.inr
    hctx.buffer_eq)))
  have hnone : new.filter (fun call => call.buffer = some buffer) = [] := by
    rw [List.filter_eq_nil_iff]
    intro call hcall heq
    have hkeeps := (hf.buffer call hcall buffer (of_decide_eq_true heq)).2
    rw [hf.owner_eq buffer hbuffer, howner] at hkeeps
    exact hkeeps.elim (hptr a ha) (Nat.not_le.2 hlt)
  refine ⟨priv, collector, session, buffer, hctx', htotals'.trans htotals, ?_⟩
  rw [hf.calls, List.filter_append, hnone, List.append_nil, hfilter]

theorem ExportHeap.CallsBelow.frame (hbelow : h.CallsBelow)
    (hf : Frame owner owner' visited h h' new) : h'.CallsBelow := by
  intro call hcall b hb
  rw [hf.calls] at hcall
  rcases List.mem_append.1 hcall with hcall | hcall
  · exact (hbelow call hcall b hb).trans_le hf.next_le
  · exact (hf.buffer call hcall b hb).1

end Feed

/-! ### One call -/

section Call

variable {feed : List ExportCall} {call : ExportCall} {ptr : Option Address} {h : ExportHeap}
  {owner : Address → Address}

/-- What a call that gets through leaves: the records and the totals are behind what the buffer had
been handed before. -/
theorem Fed.export_of_reaches (hfed : Fed feed ptr h) (hreaches : reaches feed call)
    (hsettles : feedSettles feed call)
    (hnew : ∀ a ∈ (ContextState.export { ptr, heap := h } call).ptr,
      ∀ priv collector session buffer,
        (ContextState.export { ptr, heap := h } call).heap.IsContext a priv collector session
          buffer →
        ptr = none → h.calls.filter (fun call => call.buffer = some buffer) = []) :
    Fed (feed ++ [call]) (ContextState.export { ptr, heap := h } call).ptr
      (ContextState.export { ptr, heap := h } call).heap := by
  obtain ⟨a, h', priv, collector, session, buffer, totals, opening, hctx, htotals, hcalls, halloc,
    hkind, heq⟩ := exists_export_eq_exportSend call.calendar call.args hfed.contextLive
      (hfed.ready hreaches hsettles)
  have hsend := exportSend_eq call.outcomes call.calendar call.args
    (hfed.ready hreaches hsettles).templates hctx htotals
  have hsent := (exportSend_isContext call.outcomes call.calendar call.args hctx).1
  -- what there was before, of an old context or of a new one
  have hbefore : totals = feedTotals {} feed ∧
      h.calls.filter (fun call => call.buffer = some buffer) = feedCalls (some buffer) {} feed := by
    rcases hkind with ⟨rfl, rfl⟩ | ⟨rfl, rfl⟩
    · obtain ⟨priv', collector', session', buffer', hctx', htotals', hfilter⟩ :=
        hfed.context a rfl
      obtain rfl : priv = priv' := Option.some.inj (hctx.privates.symm.trans hctx'.privates)
      obtain rfl : collector = collector' :=
        Option.some.inj (hctx.collector_eq.symm.trans hctx'.collector_eq)
      obtain rfl : buffer = buffer' := Option.some.inj (hctx.buffer_eq.symm.trans hctx'.buffer_eq)
      exact ⟨Option.some.inj (htotals.symm.trans htotals'), hfilter⟩
    · obtain rfl : feed = [] := hfed.opened.1 rfl
      refine ⟨rfl, hnew a ?_ priv collector session buffer ?_ rfl⟩
      · rw [heq]
        rfl
      · rw [heq]
        exact hsent
  obtain ⟨rfl, hfilter⟩ := hbefore
  rw [heq]
  rw [hsend, hctx.buffer_eq] at hsent ⊢
  refine ⟨by simp, ?_⟩
  rintro _ ⟨⟩
  refine ⟨priv, collector, session, buffer, hsent, ?_, ?_⟩
  · rw [feedTotals_concat]
    exact Function.update_self ..
  · have hopening : opening.filter (fun call => call.buffer = some buffer) = [] := by
      rw [List.filter_eq_nil_iff]
      intro call hcall
      obtain ⟨host, port, transport, allocated, rfl⟩ := halloc call hcall
      simp [FixbufCall.buffer]
    rw [feedCalls_concat, feedTotals_concat, hcalls, List.filter_append, List.filter_append,
      hopening, List.append_nil, hfilter]
    refine congrArg _ (List.filter_eq_self.2 fun call hcall => ?_)
    exact decide_eq_true (buffer_of_mem_sentCalls hcall)

/-- **One call for one collector**: the context goes on to agree with the calls that have got
through, and the others are left alone. -/
theorem exists_fed_nvipfixExport (hsep : Separate owner ptr.toList h) (hbelow : h.CallsBelow)
    (hfault : h.fault = false) (hfed : Fed feed ptr h) (hsettles : feedSettles feed call) :
    ∃ owner' new,
      Frame owner owner' ptr.toList h (ContextState.export { ptr, heap := h } call).heap new ∧
        Separate owner' (ContextState.export { ptr, heap := h } call).ptr.toList
          (ContextState.export { ptr, heap := h } call).heap ∧
        (∀ a ∈ (ContextState.export { ptr, heap := h } call).ptr, a ∈ ptr ∨ h.next ≤ a) ∧
        (ContextState.export { ptr, heap := h } call).heap.fault = false ∧
        Fed (feedStep feed call) (ContextState.export { ptr, heap := h } call).ptr
          (ContextState.export { ptr, heap := h } call).heap := by
  obtain ⟨owner', new, hframe, hsep', hptr⟩ :=
    exists_frame_nvipfixExport call.outcomes call.calendar call.args hsep
  have hsafe := (safe_nvipfixExport_iff { ptr, heap := h } ⟨hfed.contextLive, hfault⟩ call).2
    (hfed.settles hsettles)
  refine ⟨owner', new, hframe, hsep', hptr, hsafe.fault, ?_⟩
  rw [feedStep]
  cases hreaches : reaches feed call with
  | true =>
      refine hfed.export_of_reaches hreaches hsettles fun a ha priv collector session buffer hctx
        hnone => ?_
      -- the buffer belongs to a context that is new, so that it is new as well
      have hle : h.next ≤ a := (hptr a ha).resolve_left (by simp [hnone])
      have howner := ((hsep'.owned.privates a priv hctx.privates).2.2 buffer
        (CollectorPrivate.mem_parts.2 (.inr (.inr hctx.buffer_eq)))).2
      rw [List.filter_eq_nil_iff]
      intro call' hcall heq
      have hlt := hbelow call' hcall buffer (of_decide_eq_true heq)
      rw [hframe.owner_eq buffer hlt] at howner
      exact absurd (howner ▸ hsep.owner_le buffer) (Nat.not_le.2 (hlt.trans_le hle))
  | false =>
      rw [if_neg Bool.false_ne_true]
      simp only [reaches, Bool.and_eq_false_iff, Bool.or_eq_false_iff,
        Bool.not_eq_false'] at hreaches
      have hearly : call.outcomes.exportInit = false ∨
          ptr = none ∧ (call.outcomes.calloc && call.outcomes.malloc) = false :=
        hreaches.imp_right (And.imp hfed.isEmpty.1 Bool.and_eq_false_iff.2)
      obtain ⟨hsame, -, hheap⟩ := export_eq_of_early { ptr, heap := h } call hearly
      rw [hsame]
      rcases hheap with rfl | hheap
      · exact ⟨hfed.opened, fun a ha => by cases ha⟩
      · rw [hheap]
        exact hfed

end Call

end NvIpfix
