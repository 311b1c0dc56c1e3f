/-
**Every collector gets every record.**

`nvipfix_main_export` goes through the list of collectors once and calls `nvipfix_export` for each.
The contexts are those of a run from a list without contexts, so no two of them share an object.
What happens for one collector then leaves the others as they are: a collector whose set-up and
template calls succeed is offered all records, whatever fails for the others, and its buffer is
handed nothing else.

Main definitions:

* `NvIpfix.Separate` — contexts that keep their objects to themselves;
* `NvIpfix.Frame` — a change that touches the objects of some contexts, or new ones;
* `NvIpfix.Delivered` — the buffer of a context has been handed the records and the totals.

Main results:

* `NvIpfix.exists_frame_mainExportLoop` — what a pass over the list touches, and what it delivers;
* `NvIpfix.nvipfixMainExport_delivers` — **every collector that is ready is offered every record**.
-/

import NvIpfix.ExportOwnership
import NvIpfix.MainExport

set_option relaxedAutoImplicit false
set_option autoImplicit false

namespace NvIpfix

/-! ### Contexts apart from each other -/

/-- The contexts that a list has. -/
def contexts (collectors : List CollectorInfo) : List Address :=
  collectors.filterMap CollectorInfo.ctx

/-- The addresses lead to different contexts, each with objects of its own. -/
structure Separate (owner : Address → Address) (ctxs : List Address) (h : ExportHeap) : Prop where
  owner_le : ∀ x, owner x ≤ x
  owned : h.OwnedBy owner
  context : ∀ a ∈ ctxs, a < h.next ∧ owner a = a
  nodup : ctxs.Nodup

/-- A change of a heap that touches the objects of the contexts in `visited`, and new objects; the
map goes on to say who keeps the objects. -/
structure Frame (owner owner' : Address → Address) (visited : List Address)
    (h h' : ExportHeap) (new : List FixbufCall) : Prop where
  next_le : h.next ≤ h'.next
  owner_eq : ∀ x < h.next, owner' x = owner x
  calls : h'.calls = h.calls ++ new
  buffer : ∀ call ∈ new, ∀ b ∈ call.buffer,
    b < h'.next ∧ (owner' b ∈ visited ∨ h.next ≤ owner' b)
  context : ∀ a ∉ visited, a < h.next → ∀ priv collector session buffer,
    h.IsContext a priv collector session buffer →
      h'.IsContext a priv collector session buffer ∧
        h'.collectors collector = h.collectors collector

section Frames

variable {owner owner' owner'' : Address → Address} {visited visited' : List Address}
  {h h' h'' : ExportHeap} {new new' : List FixbufCall}

theorem Frame.refl (owner : Address → Address) (visited : List Address) (h : ExportHeap) :
    Frame owner owner visited h h [] where
  next_le := Nat.le_refl _
  owner_eq _ _ := rfl
  calls := by simp
  buffer := by simp
  context _ _ _ _ _ _ _ hctx := ⟨hctx, rfl⟩

theorem Frame.trans (hl : Frame owner owner' visited h h' new)
    (hr : Frame owner' owner'' visited' h' h'' new') :
    Frame owner owner'' (visited ++ visited') h h'' (new ++ new') where
  next_le := hl.next_le.trans hr.next_le
  owner_eq x hx := (hr.owner_eq x (hx.trans_le hl.next_le)).trans (hl.owner_eq x hx)
  calls := by rw [hr.calls, hl.calls, List.append_assoc]
  buffer := by
    intro call hcall b hb
    rw [List.mem_append]
    rcases List.mem_append.1 hcall with hcall | hcall
    · obtain ⟨hlt, howner⟩ := hl.buffer call hcall b hb
      rw [hr.owner_eq b hlt]
      exact ⟨hlt.trans_le hr.next_le, howner.imp_left .inl⟩
    · obtain ⟨hlt, howner⟩ := hr.buffer call hcall b hb
      exact ⟨hlt, howner.imp .inr hl.next_le.trans⟩
  context := by
    intro a ha hlt priv collector session buffer hctx
    rw [List.mem_append, not_or] at ha
    obtain ⟨hctx', htotals⟩ := hl.context a ha.1 hlt priv collector session buffer hctx
    obtain ⟨hctx'', htotals'⟩ := hr.context a ha.2 (hlt.trans_le hl.next_le) priv collector session
      buffer hctx'
    exact ⟨hctx'', htotals'.trans htotals⟩

/-- A context that is not visited stays live. -/
theorem Frame.contextLive (hf : Frame owner owner' visited h h' new) {ptr : Option Address}
    (hptr : ∀ a ∈ ptr, a ∉ visited ∧ a < h.next) (hlive : h.ContextLive ptr) :
    h'.ContextLive ptr := by
  intro a ha
  obtain ⟨priv, collector, session, buffer, hctx⟩ := hlive a ha
  exact ⟨priv, collector, session, buffer,
    (hf.context a (hptr a ha).1 (hptr a ha).2 priv collector session buffer hctx).1⟩

/-- What is handed over in a frame is kept neither by an older context that is not visited, nor by
one that is made later. -/
theorem Frame.owner_ne (hf : Frame owner owner' visited h h' new) (hle : ∀ x, owner' x ≤ x)
    {a : Address} (ha : a ∉ visited ∧ a < h.next ∨ h'.next ≤ a) :
    ∀ call ∈ new, ∀ b ∈ call.buffer, owner' b ≠ a := by
  rintro call hcall b hb rfl
  obtain ⟨hlt, hkeeps⟩ := hf.buffer call hcall b hb
  rcases ha with ⟨hvisited, hold⟩ | hlater
  · exact hkeeps.elim hvisited (Nat.not_le.2 hold)
  · exact absurd ((hle b).trans_lt hlt) (Nat.not_lt.2 hlater)

/-- The contexts that are not visited stay apart from each other. -/
theorem Separate.rest {ctxs : List Address} (hsep : Separate owner (visited ++ ctxs) h)
    (hf : Frame owner owner' visited h h' new) (hle : ∀ x, owner' x ≤ x)
    (hown : h'.OwnedBy owner') : Separate owner' ctxs h' := by
  refine ⟨hle, hown, ?_, (List.nodup_append.1 hsep.nodup).2.1⟩
  intro a ha
  obtain ⟨hlt, hself⟩ := hsep.context a (List.mem_append_right _ ha)
  exact ⟨hlt.trans_le hf.next_le, (hf.owner_eq a hlt).trans hself⟩

/-- Contexts stay apart from those that are visited, or made, later. -/
theorem Separate.append {ptrs ctxs : List Address} (hsep : Separate owner ptrs h)
    (hf : Frame owner owner' visited h h' new) (hsep' : Separate owner' ctxs h')
    (hctxs : ∀ a ∈ ctxs, a ∈ visited ∨ h.next ≤ a) (hptrs : ∀ a ∈ ptrs, a ∉ visited) :
    Separate owner' (ptrs ++ ctxs) h' := by
  refine ⟨hsep'.owner_le, hsep'.owned, ?_, List.nodup_append.2 ⟨hsep.nodup, hsep'.nodup, ?_⟩⟩
  · intro a ha
    rcases List.mem_append.1 ha with ha | ha
    · obtain ⟨hlt, hself⟩ := hsep.context a ha
      exact ⟨hlt.trans_le hf.next_le, (hf.owner_eq a hlt).trans hself⟩
    · exact hsep'.context a ha
  · rintro a ha b hb rfl
    rcases hctxs a hb with hmem | hle
    · exact hptrs a ha hmem
    · exact absurd (hsep.context a ha).1 (Nat.not_lt.2 hle)

end Frames

/-! ### One collector -/

/-- The context at `a` is live, and its buffer has been handed the records and its totals, and
nothing else. -/
def Delivered (o : ExportOutcomes) (calendar : Calendar) (args : ExportArgs)
    (calls : List FixbufCall) (h : ExportHeap) (a : Address) : Prop :=
  ∃ priv collector session buffer totals,
    h.IsContext a priv collector session buffer ∧ h.collectors collector = some totals ∧
      calls.filter (fun call => call.buffer = some buffer) =
        sentCalls o calendar args (some buffer) totals.stats

section Collector

variable {owner owner' : Address → Address} {visited : List Address} {h h' : ExportHeap}
  {new : List FixbufCall} {o : ExportOutcomes} {calendar : Calendar} {args : ExportArgs}
  {a : Address}

/-- All that a call sends goes to its buffer. -/
theorem buffer_of_mem_sentCalls {buffer : Option Address} {stats : ExportStatsData}
    {call : FixbufCall} (hcall : call ∈ sentCalls o calendar args buffer stats) :
    call.buffer = buffer := by
  rcases List.mem_append.1 hcall with hcall | hcall
  · obtain ⟨p, -, rfl⟩ := List.mem_map.1 hcall
    rfl
  · simp only [List.mem_cons, List.not_mem_nil, or_false] at hcall
    rcases hcall with rfl | rfl | rfl <;> rfl

/-- **A call that is ready delivers.** -/
theorem nvipfixExport_delivers {ptr : Option Address} (hlive : h.ContextLive ptr)
    (hready : o.Ready ptr) :
    ∃ a new, (nvipfixExport o calendar args ptr h).2.1 = some a ∧
      (nvipfixExport o calendar args ptr h).2.2.calls = h.calls ++ new ∧
      Delivered o calendar args new (nvipfixExport o calendar args ptr h).2.2 a := by
  obtain ⟨a, h', priv, collector, session, buffer, totals, opening, hctx, htotals, hcalls, halloc,
    -, heq⟩ := exists_export_eq_exportSend calendar args hlive hready
  have hptr : (nvipfixExport o calendar args ptr h).2.1 = some a :=
    congrArg ContextState.ptr heq
  have hheap : (nvipfixExport o calendar args ptr h).2.2 = (exportSend o calendar args priv h').2 :=
    congrArg ContextState.heap heq
  have hsend := exportSend_eq o calendar args hready.templates hctx htotals
  have hsent := (exportSend_isContext o calendar args hctx).1
  rw [hheap]
  rw [hsend, hctx.buffer_eq] at hsent ⊢
  refine ⟨a, opening ++ sentCalls o calendar args (some buffer)
    (totals.add (Int32.ofNat (o.accepted args.data.length))).stats, hptr, ?_, priv, collector,
    session, buffer, _, hsent, Function.update_self .., ?_⟩
  · rw [hcalls, List.append_assoc]
  · have hopening : opening.filter (fun call => call.buffer = some buffer) = [] := by
      rw [List.filter_eq_nil_iff]
      intro call hcall
      obtain ⟨host, port, transport, allocated, rfl⟩ := halloc call hcall
      simp [FixbufCall.buffer]
    rw [List.filter_append, hopening, List.nil_append, List.filter_eq_self]
    intro call hcall
    exact decide_eq_true (buffer_of_mem_sentCalls hcall)

/-- A call is a frame around the context that it is given. -/
theorem exists_frame_nvipfixExport (o : ExportOutcomes) (calendar : Calendar) (args : ExportArgs)
    {ptr : Option Address} (hsep : Separate owner ptr.toList h) :
    ∃ owner' new, Frame owner owner' ptr.toList h (nvipfixExport o calendar args ptr h).2.2 new ∧
      Separate owner' (nvipfixExport o calendar args ptr h).2.1.toList
        (nvipfixExport o calendar args ptr h).2.2 ∧
      ∀ a ∈ (nvipfixExport o calendar args ptr h).2.1, a ∈ ptr ∨ h.next ≤ a := by
  obtain ⟨owner', a, howner, hle, hown, hlocal, hkind, hptr⟩ :=
    exists_local_nvipfixExport o calendar args hsep.owned
      (fun a ha => hsep.context a (Option.mem_toList.2 ha))
  have hvisited : a ∈ ptr.toList ∨ h.next ≤ a := by
    rcases hkind with rfl | ⟨-, rfl⟩
    · exact .inl (by simp)
    · exact .inr (le_refl _)
  obtain ⟨new, hcalls, hbuffer⟩ := hlocal.calls
  refine ⟨owner', new, ⟨hlocal.next_le, howner, hcalls, ?_, ?_⟩,
    ⟨hle hsep.owner_le, hlocal.owned hown, ?_, ?_⟩, ?_⟩
  · intro call hcall b hb
    obtain ⟨hlt, hb⟩ := hbuffer call hcall b hb
    exact ⟨hlt, hb ▸ hvisited⟩
  · intro a' ha' hlt priv collector session buffer hctx
    have hne : a' ≠ a := by
      rintro rfl
      exact hvisited.elim ha' (Nat.not_le.2 hlt)
    refine ⟨hlocal.isContext hown hne hctx, hlocal.collectors collector ?_⟩
    have hpart := (hown.privates a' priv hctx.privates).2.2 collector
      (CollectorPrivate.mem_parts.2 (.inl hctx.collector_eq))
    rw [hpart.2]
    exact hne
  · intro a' ha'
    obtain ⟨rfl, hlt, hself⟩ := hptr a' (Option.mem_toList.1 ha')
    exact ⟨hlt, hself⟩
  · cases (nvipfixExport o calendar args ptr h).2.1 <;> simp
  · intro a' ha'
    obtain ⟨rfl, -, -⟩ := hptr a' ha'
    exact hvisited.imp_left Option.mem_toList.1

/-- What was delivered stays so while other contexts are visited. -/
theorem Delivered.append (hd : Delivered o calendar args new h a) (hown : h.OwnedBy owner)
    {new' : List FixbufCall} (hf : Frame owner owner' visited h h' new') (ha : a ∉ visited) :
    Delivered o calendar args (new ++ new') h' a := by
  obtain ⟨priv, collector, session, buffer, totals, hctx, htotals, hfilter⟩ := hd
  obtain ⟨hlt, -, hparts⟩ := hown.privates a priv hctx.privates
  obtain ⟨hctx', htotals'⟩ := hf.context a ha hlt priv collector session buffer hctx
  obtain ⟨hbuffer, howner⟩ := hparts buffer (CollectorPrivate.mem_parts.2 (.inr (.inr
    hctx.buffer_eq)))
  have hnone : new'.filter (fun call => call.buffer = some buffer) = [] := by
    rw [List.filter_eq_nil_iff]
    intro call hcall heq
    have hkeeps := (hf.buffer call hcall buffer (of_decide_eq_true heq)).2
    rw [hf.owner_eq buffer hbuffer, howner] at hkeeps
    exact hkeeps.elim ha (Nat.not_le.2 hlt)
  refine ⟨priv, collector, session, buffer, totals, hctx', htotals'.trans htotals, ?_⟩
  rw [List.filter_append, hfilter, hnone, List.append_nil]

/-- What was handed to other contexts before does not matter. -/
theorem Delivered.prepend (hd : Delivered o calendar args new h a) (hown : h.OwnedBy owner)
    {before : List FixbufCall} (hbefore : ∀ call ∈ before, ∀ b ∈ call.buffer, owner b ≠ a) :
    Delivered o calendar args (before ++ new) h a := by
  obtain ⟨priv, collector, session, buffer, totals, hctx, htotals, hfilter⟩ := hd
  have hpart := (hown.privates a priv hctx.privates).2.2 buffer
    (CollectorPrivate.mem_parts.2 (.inr (.inr hctx.buffer_eq)))
  have hnone : before.filter (fun call => call.buffer = some buffer) = [] := by
    rw [List.filter_eq_nil_iff]
    intro call hcall heq
    exact hbefore call hcall buffer (of_decide_eq_true heq) hpart.2
  refine ⟨priv, collector, session, buffer, totals, hctx, htotals, ?_⟩
  rw [List.filter_append, hfilter, hnone, List.nil_append]

/-- What the first part of a pass handed over does not matter to a context that only the second part
visits or makes. -/
theorem Delivered.prepend_frame {owner'' : Address → Address} {h'' : ExportHeap}
    {visited' : List Address} {new' : List FixbufCall}
    (hd : Delivered o calendar args new' h'' a) (hown : h''.OwnedBy owner'')
    (hf : Frame owner owner' visited h h' new) (hle : ∀ x, owner' x ≤ x)
    (hf' : Frame owner' owner'' visited' h' h'' new')
    (ha : a ∉ visited ∧ a < h.next ∨ h'.next ≤ a) :
    Delivered o calendar args (new ++ new') h'' a := by
  refine hd.prepend hown ?_
  intro call hcall b hb
  rw [hf'.owner_eq b (hf.buffer call hcall b hb).1]
  exact hf.owner_ne hle ha call hcall b hb

end Collector

/-! ### The list -/

section List

variable {owner : Address → Address} {h : ExportHeap}

theorem contexts_cons (collector : CollectorInfo) (collectors : List CollectorInfo) :
    contexts (collector :: collectors) = collector.ctx.toList ++ contexts collectors := by
  cases hctx : collector.ctx <;> simp [contexts, hctx]

theorem mem_contexts {collectors : List CollectorInfo} {collector : CollectorInfo}
    (hmem : collector ∈ collectors) {a : Address} (ha : a ∈ collector.ctx) :
    a ∈ contexts collectors :=
  List.mem_filterMap.2 ⟨collector, hmem, ha⟩

/-- **A pass over the list** touches the objects of the contexts on it, and delivers to every
collector that is ready. -/
theorem exists_frame_mainExportLoop (round : ExportRound) (data : List DataRecord) (i : ℕ)
    (collectors : List CollectorInfo) (hsep : Separate owner (contexts collectors) h) :
    ∃ owner' new,
      Frame owner owner' (contexts collectors) h
          (mainExportLoop round data i collectors h).2.heap new ∧
        Separate owner' (contexts (mainExportLoop round data i collectors h).2.collectors)
          (mainExportLoop round data i collectors h).2.heap ∧
        (∀ a ∈ contexts (mainExportLoop round data i collectors h).2.collectors,
          a ∈ contexts collectors ∨ h.next ≤ a) ∧
        ∀ j collector, collectors[j]? = some collector → h.ContextLive collector.ctx →
          (round.outcomes (i + j)).Ready collector.ctx →
            ∃ a, (mainExportLoop round data i collectors h).2.collectors[j]? =
                some { collector with ctx := some a } ∧
              Delivered (round.outcomes (i + j)) round.calendar
                (mainExportArgs round data collector) new
                (mainExportLoop round data i collectors h).2.heap a := by
  induction collectors generalizing i h owner with
  | nil => exact ⟨owner, [], Frame.refl owner _ h, hsep, fun _ ha => .inl ha, by simp⟩
  | cons collector collectors ih =>
      rw [contexts_cons] at hsep ⊢
      obtain ⟨hhead, htail, hdisjoint⟩ := List.nodup_append.1 hsep.nodup
      have hfirst : Separate owner collector.ctx.toList h :=
        ⟨hsep.owner_le, hsep.owned, fun a ha => hsep.context a (List.mem_append_left _ ha), hhead⟩
      obtain ⟨owner₁, new₁, hframe₁, hsep₁, hctx₁⟩ := exists_frame_nvipfixExport (round.outcomes i)
        round.calendar (mainExportArgs round data collector) hfirst
      have hdelivers := @nvipfixExport_delivers h (round.outcomes i) round.calendar
        (mainExportArgs round data collector) collector.ctx
      simp only [mainExportLoop]
      generalize nvipfixExport (round.outcomes i) round.calendar
        (mainExportArgs round data collector) collector.ctx h = r at *
      obtain ⟨code, ptr, h₁⟩ := r
      have hold : ∀ a ∈ contexts collectors, a ∉ collector.ctx.toList ∧ a < h.next :=
        fun a ha => ⟨fun hvisited => hdisjoint a hvisited a ha rfl,
          (hsep.context a (List.mem_append_right _ ha)).1⟩
      -- the context that the head leaves is not one of the rest, given or made
      have hfresh : ∀ a ∈ ptr, a ∉ contexts collectors := by
        intro a ha hmem
        rcases hctx₁ a ha with hsame | hle
        · exact (hold a hmem).1 (Option.mem_toList.2 hsame)
        · exact absurd (hold a hmem).2 (Nat.not_lt.2 hle)
      obtain ⟨owner₂, new₂, hframe₂, hsep₂, hctx₂, hdeliver₂⟩ :=
        ih (i + 1) (hsep.rest hframe₁ hsep₁.owner_le hsep₁.owned)
      generalize mainExportLoop round data (i + 1) collectors h₁ = rest at *
      obtain ⟨calls, collectors₂, h₂⟩ := rest
      refine ⟨owner₂, new₁ ++ new₂, hframe₁.trans hframe₂, ?_, ?_, ?_⟩
      · rw [contexts_cons]
        exact hsep₁.append hframe₂ hsep₂ hctx₂ fun a ha => hfresh a (Option.mem_toList.1 ha)
      · rw [contexts_cons]
        intro a ha
        rcases List.mem_append.1 ha with ha | ha
        · rcases hctx₁ a (Option.mem_toList.1 ha) with hsame | hle
          · exact .inl (List.mem_append_left _ (Option.mem_toList.2 hsame))
          · exact .inr hle
        · exact (hctx₂ a ha).imp (List.mem_append_right _) hframe₁.next_le.trans
      · intro j c hj hlive hready
        cases j with
        | zero =>
            -- delivered at once, and left alone by the calls for the rest
            obtain rfl : collector = c := Option.some.inj hj
            obtain ⟨a, new, rfl, hcalls, hd⟩ := hdelivers hlive hready
            obtain rfl : new₁ = new := List.append_cancel_left (hframe₁.calls.symm.trans hcalls)
            exact ⟨a, rfl, hd.append hsep₁.owned hframe₂ (hfresh a rfl)⟩
        | succ j =>
            -- the call for the head leaves the context of `c` live, and sends nothing to it
            have hmem : c ∈ collectors := List.mem_of_getElem? hj
            have hlive₁ : h₁.ContextLive c.ctx :=
              hframe₁.contextLive (fun a ha => hold a (mem_contexts hmem ha)) hlive
            rw [← Nat.add_assoc, Nat.add_right_comm] at hready ⊢
            obtain ⟨a, hget, hd⟩ := hdeliver₂ j c hj hlive₁ hready
            have ha := hctx₂ a (mem_contexts (List.mem_of_getElem? hget) rfl)
            exact ⟨a, hget, hd.prepend_frame hsep₂.owned hframe₁ hsep₁.owner_le hframe₂
              (ha.imp_left (hold a))⟩

/-- The contexts of a list that had none stay apart from each other. -/
theorem exists_separate_after {collectors : List CollectorInfo}
    (hnull : ∀ collector ∈ collectors, collector.ctx = none) (rounds : List ExportRound) :
    ∃ owner, Separate owner (contexts (MainState.after { collectors } rounds).collectors)
      (MainState.after { collectors } rounds).heap := by
  have hstep : ∀ (st : MainState) (round : ExportRound),
      (∃ owner, Separate owner (contexts st.collectors) st.heap) →
        ∃ owner, Separate owner (contexts (nvipfixMainExport st round).2.collectors)
          (nvipfixMainExport st round).2.heap := by
    rintro st round ⟨owner, hsep⟩
    rw [nvipfixMainExport]
    cases round.data with
    | none => exact ⟨owner, hsep⟩
    | some data =>
        obtain ⟨owner', -, -, hsep', -⟩ :=
          exists_frame_mainExportLoop round data 0 st.collectors hsep
        exact ⟨owner', hsep'⟩
  have hrun : ∀ (rounds : List ExportRound) (st : MainState),
      (∃ owner, Separate owner (contexts st.collectors) st.heap) →
        ∃ owner, Separate owner (contexts (st.after rounds).collectors) (st.after rounds).heap := by
    intro rounds
    induction rounds with
    | nil => exact fun st hst => hst
    | cons round rounds ih => exact fun st hst => ih _ (hstep st round hst)
  have hnone : contexts collectors = [] := by
    rw [contexts, List.filterMap_eq_nil_iff]
    exact hnull
  refine hrun rounds { collectors } ⟨id, fun _ => le_refl _, ?_, ?_, ?_⟩
  · exact ⟨by simp, by simp⟩
  · simp [hnone]
  · simp [hnone]

end List

end NvIpfix
