/-
**The total of messages.**

A call of `nvipfix_export` has its buffer sent twice, behind the flow records and behind the record
of totals, and counts one message.  The first record of totals of a context says one, and one
message has been sent by then; every later one says less than what has been sent.  Appending and the
export of templates send nothing here, and each `fBufEmit` that succeeds sends one message.

Main definitions:

* `NvIpfix.messagesSent` — the messages that calls of fixbuf send;
* `NvIpfix.MessagesTruthful` — every total of messages is the number of those sent before it;
* `NvIpfix.ExportCall.Succeeds` — the calls in which every library call succeeds.

Main results:

* `NvIpfix.ContextState.Counted.export` — `n` calls count `n` messages and send `2 * n`;
* `NvIpfix.exportRun_messages_iff` — **the totals of a run are truthful if and only if it has one
  call at most**.
-/

import NvIpfix.ExportCalls

set_option relaxedAutoImplicit false
set_option autoImplicit false

namespace NvIpfix

/-! ### Messages -/

/-- A call of `fBufEmit` that succeeds. -/
def FixbufCall.sends : FixbufCall → Bool
  | .emit _ sent => sent
  | _ => false

/-- The number of messages that calls of fixbuf send. -/
def messagesSent (calls : List FixbufCall) : ℕ := calls.countP FixbufCall.sends

/-- Every total of messages is the number of those sent before it. -/
def MessagesTruthful (calls : List FixbufCall) : Prop :=
  ∀ before buffer stats accepted after,
    calls = before ++ .appendStats buffer stats accepted :: after →
      stats.exportedMessageTotalCount.toNat = messagesSent before

/-- Calls that neither send a message nor write a total. -/
def Silent (calls : List FixbufCall) : Prop :=
  ∀ call ∈ calls, call.sends = false ∧ ∀ buffer stats accepted,
    call ≠ .appendStats buffer stats accepted

section Messages

variable {calls silent : List FixbufCall}

theorem Silent.messagesSent (h : Silent silent) : messagesSent silent = 0 := by
  unfold NvIpfix.messagesSent
  rw [List.countP_eq_zero]
  intro call hcall hsends
  rw [(h call hcall).1] at hsends
  cases hsends

theorem messagesTruthful_nil : MessagesTruthful [] := by
  intro before buffer stats accepted after h
  simp at h

/-- A total is truthful or not whatever comes behind it. -/
theorem messagesTruthful_append (rest : List FixbufCall) :
    MessagesTruthful (calls ++ rest) ↔ MessagesTruthful calls ∧
      ∀ before buffer stats accepted after,
        rest = before ++ .appendStats buffer stats accepted :: after →
          stats.exportedMessageTotalCount.toNat = messagesSent calls + messagesSent before := by
  constructor
  · intro h
    constructor
    · intro before buffer stats accepted after heq
      exact h before buffer stats accepted (after ++ rest) (by rw [heq]; simp)
    · intro before buffer stats accepted after heq
      have htotal := h (calls ++ before) buffer stats accepted after (by rw [heq]; simp)
      rw [htotal, messagesSent, List.countP_append]
      rfl
  · rintro ⟨hcalls, hrest⟩ before buffer stats accepted after heq
    rcases List.append_eq_append_iff.1 heq with
      ⟨between, hbefore, hbetween⟩ | ⟨between, hbefore, hbetween⟩
    · rw [hbefore, messagesSent, List.countP_append]
      exact hrest between buffer stats accepted after hbetween
    · cases between with
      | nil =>
          rw [List.append_nil] at hbefore
          have htotal := hrest [] buffer stats accepted after hbetween.symm
          rwa [← hbefore]
      | cons call between =>
          rw [List.cons_append, List.cons.injEq] at hbetween
          obtain ⟨rfl, -⟩ := hbetween
          exact hcalls before buffer stats accepted between hbefore

/-- Calls without a total change nothing. -/
theorem messagesTruthful_append_of_forall {rest : List FixbufCall}
    (h : ∀ call ∈ rest, ∀ buffer stats accepted, call ≠ .appendStats buffer stats accepted) :
    MessagesTruthful (calls ++ rest) ↔ MessagesTruthful calls := by
  rw [messagesTruthful_append]
  refine and_iff_left ?_
  intro before buffer stats accepted after heq
  exact absurd rfl (h (.appendStats buffer stats accepted) (heq ▸ by simp) _ _ _)

/-- One more total. -/
theorem messagesTruthful_appendStats (buffer : Option Address) (stats : ExportStatsData)
    (accepted : Bool) : MessagesTruthful (calls ++ [.appendStats buffer stats accepted]) ↔
      MessagesTruthful calls ∧
        stats.exportedMessageTotalCount.toNat = messagesSent calls := by
  rw [messagesTruthful_append]
  refine and_congr_right fun _ => ?_
  constructor
  · intro h
    exact h [] buffer stats accepted [] rfl
  · intro h before buffer' stats' accepted' after heq
    cases before with
    | nil =>
        obtain ⟨⟨-, rfl, -⟩, -⟩ : (buffer = buffer' ∧ stats = stats' ∧ accepted = accepted') ∧
            [] = after := by simpa using heq
        exact h
    | cons call before => simp at heq

end Messages

/-! ### One call -/

/-- A call in which every library call succeeds. -/
structure ExportCall.Succeeds (call : ExportCall) : Prop where
  exportInit : call.outcomes.exportInit = true
  calloc : call.outcomes.calloc = true
  malloc : call.outcomes.malloc = true
  setUp : call.outcomes.setUp
  templates : call.outcomes.templates
  append : ∀ i < call.args.data.length, call.outcomes.append i = true
  emit : call.outcomes.emit = true
  appendStats : call.outcomes.appendStats = true
  emitStats : call.outcomes.emitStats = true

theorem ExportCall.Succeeds.ready {call : ExportCall} (h : call.Succeeds) (ptr : Option Address) :
    call.outcomes.Ready ptr :=
  ⟨h.exportInit, fun _ => h.calloc, fun _ => h.malloc, fun _ => h.setUp, h.templates⟩

/-- After `n` calls the context counts `n` messages, and `2 * n` have been sent. -/
structure ContextState.Counted (n : ℕ) (s : ContextState) : Prop where
  live : s.heap.ContextLive s.ptr
  opened : s.ptr = none ↔ n = 0
  sent : messagesSent s.heap.calls = 2 * n
  count : ∀ a ∈ s.ptr, ∀ priv ∈ s.heap.privates a, ∀ totals ∈ s.heap.collectorAt priv.collector,
    totals.messageCount = UInt64.ofNat n

section Call

variable {s : ContextState} {call : ExportCall} {n : ℕ}

/-- Records that are offered send nothing. -/
theorem silent_appendCalls (o : ExportOutcomes) (calendar : Calendar) (args : ExportArgs)
    (buffer : Option Address) : Silent (appendCalls o calendar args buffer) := by
  intro call hcall
  obtain ⟨p, -, rfl⟩ := List.mem_map.1 hcall
  exact ⟨rfl, fun _ _ _ h => by cases h⟩

/-- A call that succeeds sends from a live context, whose count is that of the calls before. -/
theorem ContextState.Counted.exists_export_eq (hs : s.Counted n) (hcall : call.Succeeds) :
    ∃ a h priv collector session buffer totals opening,
      h.IsContext a priv collector session buffer ∧ h.collectors collector = some totals ∧
        totals.messageCount = UInt64.ofNat n ∧ Silent opening ∧
        h.calls = s.heap.calls ++ opening ∧
        s.export call =
          { ptr := some a
            heap := (exportSend call.outcomes call.calendar call.args priv h).2 } := by
  obtain ⟨ptr, h⟩ := s
  obtain ⟨a, h', priv, collector, session, buffer, totals, opening, hctx, htotals, hcalls, halloc,
    hkind, heq⟩ := exists_export_eq_exportSend call.calendar call.args hs.live
    (hcall.ready ptr)
  have hsilent : Silent opening := by
    intro c hc
    obtain ⟨host, port, transport, allocated, rfl⟩ := halloc c hc
    exact ⟨rfl, by simp⟩
  refine ⟨a, h', priv, collector, session, buffer, totals, opening, hctx, htotals, ?_, hsilent,
    hcalls, heq⟩
  rcases hkind with ⟨rfl, rfl⟩ | ⟨rfl, rfl⟩
  · refine hs.count a rfl priv hctx.privates totals ?_
    rw [ExportHeap.collectorAt, hctx.collector_eq]
    exact htotals
  · obtain rfl : n = 0 := hs.opened.1 rfl
    rfl

/-- A call that succeeds leaves a live context with one more message counted; one message is sent
before the total, and one behind it. -/
theorem ContextState.Counted.exists_export_calls (hs : s.Counted n) (hcall : call.Succeeds) :
    ∃ a priv collector session buffer after silent,
      (s.export call).ptr = some a ∧
        (s.export call).heap.IsContext a priv collector session buffer ∧
        (s.export call).heap.collectors collector = some after ∧
        after.messageCount = UInt64.ofNat (n + 1) ∧ Silent silent ∧
        (s.export call).heap.calls = s.heap.calls ++ silent ++ [.emit priv.buffer true] ++
          [.appendStats priv.buffer after.stats true] ++ [.emit priv.buffer true] := by
  obtain ⟨a, h, priv, collector, session, buffer, totals, opening, hctx, htotals, hcount, hsilent,
    hcalls, heq⟩ := hs.exists_export_eq hcall
  have hsend := exportSend_eq call.outcomes call.calendar call.args hcall.templates hctx htotals
  have hlive := (exportSend_isContext call.outcomes call.calendar call.args hctx).1
  have happend := silent_appendCalls call.outcomes call.calendar call.args priv.buffer
  rw [heq]
  rw [hsend] at hlive ⊢
  refine ⟨a, priv, collector, session, buffer, _, opening ++ appendCalls call.outcomes
    call.calendar call.args priv.buffer, rfl, hlive, Function.update_self .., ?_, ?_, ?_⟩
  · rw [CollectorTotals.add, hcount, UInt64.ofNat_add]
    rfl
  · intro c hc
    rcases List.mem_append.1 hc with hc | hc
    · exact hsilent c hc
    · exact happend c hc
  · simp [hcalls, sentCalls, hcall.emit, hcall.appendStats, hcall.emitStats]

/-- The total of a call is truthful on the first call only. -/
theorem toNat_ofNat_eq_two_mul_add_one_iff (n : ℕ) :
    (UInt64.ofNat (n + 1)).toNat = 2 * n + 1 ↔ n = 0 := by
  have hle : (n + 1) % 2 ^ 64 ≤ n + 1 := Nat.mod_le _ _
  rw [UInt64.toNat_ofNat']
  constructor
  · intro h
    omega
  · rintro rfl
    rfl

/-- **One more call counts one message and sends two**, one of them before its total. -/
theorem ContextState.Counted.export (hs : s.Counted n) (hcall : call.Succeeds) :
    (s.export call).Counted (n + 1) ∧
      (MessagesTruthful (s.export call).heap.calls ↔
        MessagesTruthful s.heap.calls ∧ n = 0) := by
  obtain ⟨a, priv, collector, session, buffer, after, silent, hptr, hlive, hafter, hmessages,
    hsilent, hcalls⟩ := hs.exists_export_calls hcall
  -- what has been sent when the total is written
  have hsent : messagesSent (s.heap.calls ++ silent ++ [.emit priv.buffer true]) = 2 * n + 1 := by
    have hnone := hsilent.messagesSent
    unfold messagesSent at hnone ⊢
    rw [List.countP_append, List.countP_append, hnone, ← messagesSent, hs.sent]
    rfl
  refine ⟨⟨?_, by simp [hptr], ?_, ?_⟩, ?_⟩
  · intro a' ha'
    obtain rfl : a = a' := Option.some.inj (hptr ▸ ha')
    exact ⟨priv, collector, session, buffer, hlive⟩
  · rw [hcalls, messagesSent, List.countP_append, List.countP_append, ← messagesSent, hsent]
    rfl
  · intro a' ha' priv' hpriv' totals' htotals'
    obtain rfl : a = a' := Option.some.inj (hptr ▸ ha')
    obtain rfl : priv = priv' := Option.some.inj (hlive.privates.symm.trans hpriv')
    rw [ExportHeap.collectorAt, hlive.collector_eq] at htotals'
    obtain rfl : after = totals' := Option.some.inj (hafter.symm.trans htotals')
    exact hmessages
  · have hemit : ∀ call ∈ [FixbufCall.emit priv.buffer true], ∀ buffer stats accepted,
        call ≠ .appendStats buffer stats accepted := by
      simp
    have htotal : after.stats.exportedMessageTotalCount = UInt64.ofNat (n + 1) := hmessages
    rw [hcalls, messagesTruthful_append_of_forall hemit, messagesTruthful_appendStats, hsent,
      htotal, toNat_ofNat_eq_two_mul_add_one_iff, messagesTruthful_append_of_forall hemit,
      messagesTruthful_append_of_forall fun call hmem => (hsilent call hmem).2]

end Call

/-! ### Runs -/

/-- A step of a run in which every library call succeeds. -/
def SucceedingStep (s : ContextState) (call : ExportCall) (s' : ContextState) : Prop :=
  call.Succeeds ∧ s' = s.export call

theorem isRun_exportRun {calls : List ExportCall} (h : ∀ call ∈ calls, call.Succeeds)
    (s : ContextState) : GuardedRun.IsRun SucceedingStep s (exportRun s calls) := by
  induction calls generalizing s with
  | nil => trivial
  | cons call calls ih =>
      exact ⟨⟨h call (by simp), rfl⟩, ih (fun c hc => h c (by simp [hc])) (s.export call)⟩

/-- A run whose every call finds no context has one call at most. -/
theorem guarded_unopened_iff {calls : List ExportCall} (h : ∀ call ∈ calls, call.Succeeds) :
    GuardedRun.Guarded (fun (s : ContextState) (_ : ExportCall) => s.ptr = none) {}
      (exportRun {} calls) ↔ calls.length ≤ 1 := by
  have hstart : ContextState.Counted 0 {} :=
    ⟨by simp [ExportHeap.ContextLive], by simp, rfl, by simp⟩
  rcases calls with _ | ⟨first, _ | ⟨second, rest⟩⟩
  · exact iff_of_true trivial (by simp)
  · exact iff_of_true ⟨rfl, trivial⟩ (by simp)
  · have hopened := (hstart.export (h first (by simp))).1.opened
    refine iff_of_false ?_ (by simp)
    rintro ⟨-, hsecond, -⟩
    exact absurd (hopened.1 hsecond) (by omega)

/-- **The totals of messages of a run are truthful if and only if it has one call at most.** -/
theorem exportRun_messages_iff {calls : List ExportCall} (h : ∀ call ∈ calls, call.Succeeds) :
    (∀ p ∈ exportRun {} calls, MessagesTruthful p.2.heap.calls) ↔ calls.length ≤ 1 := by
  have hstart : ∃ n, ContextState.Counted n {} :=
    ⟨0, by simp [ExportHeap.ContextLive], by simp, rfl, by simp⟩
  have hinv : ∀ s call s', (∃ n, ContextState.Counted n s) → SucceedingStep s call s' →
      ∃ n, ContextState.Counted n s' := by
    rintro s call s' ⟨n, hs⟩ ⟨hcall, rfl⟩
    exact ⟨n + 1, (hs.export hcall).1⟩
  -- a call keeps the totals truthful exactly if it is the one that makes the context
  have hexact : ∀ s call s', (∃ n, ContextState.Counted n s) → MessagesTruthful s.heap.calls →
      SucceedingStep s call s' → (MessagesTruthful s'.heap.calls ↔ s.ptr = none) := by
    rintro s call s' ⟨n, hs⟩ hgood ⟨hcall, rfl⟩
    rw [(hs.export hcall).2, hs.opened]
    exact and_iff_right hgood
  rw [← guarded_unopened_iff h]
  exact (isRun_exportRun h {}).forall_iff_guarded hinv hexact hstart messagesTruthful_nil

/-- The total of a single call is truthful. -/
theorem exportRun_messages_single :
    MessagesTruthful (ContextState.export {} (.single {})).heap.calls := by
  have hcalls : ∀ call ∈ [ExportCall.single {}], call.Succeeds := by
    intro call hcall
    rw [List.mem_singleton.1 hcall]
    exact ⟨rfl, rfl, rfl, rfl, rfl, fun _ _ => rfl, rfl, rfl, rfl⟩
  exact (exportRun_messages_iff hcalls).2 (by simp) _ (List.mem_singleton_self _)

/-- The second total says two when three messages have been sent. -/
theorem exportRun_messages_second :
    let calls := ((ContextState.export {} (.single {})).export (.single {})).heap.calls
    calls[7]? = some (.appendStats (some 3)
        { exportedMessageTotalCount := 2, exportedFlowRecordTotalCount := 2 } true) ∧
      messagesSent (calls.take 7) = 3 ∧
      ¬ ∀ p ∈ exportRun {} [.single {}, .single {}], MessagesTruthful p.2.heap.calls := by
  intro calls
  have htotal : calls[7]? = some (.appendStats (some 3)
      { exportedMessageTotalCount := 2, exportedFlowRecordTotalCount := 2 } true) := by
    decide +kernel
  have hsent : messagesSent (calls.take 7) = 3 := by decide +kernel
  refine ⟨htotal, hsent, ?_⟩
  intro h
  obtain ⟨hlt, hget⟩ := List.getElem?_eq_some_iff.1 htotal
  have hsplit : calls = calls.take 7 ++ .appendStats (some 3)
      { exportedMessageTotalCount := 2, exportedFlowRecordTotalCount := 2 } true ::
        calls.drop 8 := by
    rw [← hget, ← List.drop_eq_getElem_cons hlt, List.take_append_drop]
  have htruthful := h (.single {}, _) (List.mem_cons_of_mem _ List.mem_cons_self)
    _ _ _ _ _ hsplit
  rw [hsent] at htruthful
  exact absurd htruthful (by decide)

end NvIpfix
