/-
**Runs over the whole list of collectors.**

`nvipfix_main_export` is called over and over, and goes through the list of collectors each time;
when the process ends, `nvipfix_export_cleanup` goes through the list once more.  The collectors
share a heap, but each of them behaves as if it were the only one, as long as no call takes an error
path that releases a context.  All objects are then parts of contexts of the list, so that the
clean-up releases everything but the contexts themselves, and each object once.

Main definitions:

* `NvIpfix.collectorCalls` — the calls for one collector in a run;
* `NvIpfix.MainState.Feeds` — all collectors of the list, each on its own;
* `NvIpfix.exportCleanup` — the clean-up of the whole list.

Main results:

* `NvIpfix.exists_fed_mainExportLoop` — one pass over the list;
* `NvIpfix.mainExport_feeds` — **in a run every collector gets what its own calls give it**;
* `NvIpfix.exportCleanup_after` — **behind a run, a clean-up leaves nothing but contexts**.
-/

import NvIpfix.ContextParts

set_option relaxedAutoImplicit false
set_option autoImplicit false

namespace NvIpfix

/-! ### One pass -/

/-- The call of `nvipfix_export` for the `j`-th collector of the list. -/
def mainExportCall (round : ExportRound) (data : List DataRecord) (j : ℕ)
    (collector : CollectorInfo) : ExportCall where
  outcomes := round.outcomes j
  calendar := round.calendar
  args := mainExportArgs round data collector

/-- The calls for one collector in a run; without records there is none. -/
def collectorCalls (j : ℕ) (collector : CollectorInfo) (rounds : List ExportRound) :
    List ExportCall :=
  rounds.filterMap fun round => round.data.map fun data => mainExportCall round data j collector

section Pass

variable {owner : Address → Address} {h : ExportHeap}

/-- **A pass over the list** is one call for each collector, on its own; it leaves no object
behind. -/
theorem exists_fed_mainExportLoop (round : ExportRound) (data : List DataRecord) (i : ℕ)
    (collectors : List CollectorInfo) (feeds : ℕ → List ExportCall) (others : List Address)
    (hsep : Separate owner (contexts collectors) h) (hbelow : h.CallsBelow)
    (hfault : h.fault = false)
    (hfed : ∀ j collector, collectors[j]? = some collector → Fed (feeds j) collector.ctx h)
    (hsettles : ∀ j collector, collectors[j]? = some collector →
      feedSettles (feeds j) (mainExportCall round data (i + j) collector))
    (hothers : ∀ a ∈ others, a ∉ contexts collectors ∧ a < h.next)
    (hkept : Kept (others ++ contexts collectors) h) :
    (mainExportLoop round data i collectors h).2.heap.fault = false ∧
      Kept (others ++ contexts (mainExportLoop round data i collectors h).2.collectors)
        (mainExportLoop round data i collectors h).2.heap ∧
      ∀ j collector, collectors[j]? = some collector →
        ∃ ctx, (mainExportLoop round data i collectors h).2.collectors[j]? =
            some { collector with ctx } ∧
          Fed (feedStep (feeds j) (mainExportCall round data (i + j) collector)) ctx
            (mainExportLoop round data i collectors h).2.heap := by
  induction collectors generalizing i h owner feeds others with
  | nil => exact ⟨hfault, hkept, by simp⟩
  | cons collector collectors ih =>
      rw [contexts_cons] at hsep hothers hkept
      obtain ⟨hhead, htail, hdisjoint⟩ := List.nodup_append.1 hsep.nodup
      have hfirst : Separate owner collector.ctx.toList h :=
        ⟨hsep.owner_le, hsep.owned, fun a ha => hsep.context a (List.mem_append_left _ ha), hhead⟩
      obtain ⟨owner₁, new₁, hframe₁, hsep₁, hctx₁, hfault₁, hfed₁⟩ :=
        exists_fed_nvipfixExport hfirst hbelow hfault (hfed 0 collector rfl)
          (hsettles 0 collector rfl)
      simp only [mainExportLoop]
      have hold : ∀ a ∈ contexts collectors, a ∉ collector.ctx.toList ∧ a < h.next :=
        fun a ha => ⟨fun hvisited => hdisjoint a hvisited a ha rfl,
          (hsep.context a (List.mem_append_right _ ha)).1⟩
      have hkept₁ : Kept ((others ++ (ContextState.export { ptr := collector.ctx, heap := h }
          (mainExportCall round data (i + 0) collector)).ptr.toList) ++ contexts collectors)
          (ContextState.export { ptr := collector.ctx, heap := h }
            (mainExportCall round data (i + 0) collector)).heap := by
        refine hkept.export (hfed 0 collector rfl) (hsettles 0 collector rfl) hframe₁ ?_ ?_
          fun a ha => List.mem_append_left _ (List.mem_append_right _ (Option.mem_toList.2 ha))
        · simp only [List.mem_append]
          rintro a (ha | ha | ha)
          · exact (hothers a ha).2
          · exact (hfirst.context a ha).1
          · exact (hold a ha).2
        · simp only [List.mem_append]
          rintro a (ha | ha | ha) hvisited
          · exact .inl (.inl ha)
          · exact absurd ha hvisited
          · exact .inr ha
      rw [Nat.add_zero] at hframe₁ hsep₁ hctx₁ hfault₁ hfed₁ hkept₁ ⊢
      simp only [ContextState.export, mainExportCall] at hframe₁ hsep₁ hctx₁ hfault₁ hfed₁ hkept₁
      generalize nvipfixExport (round.outcomes i) round.calendar
        (mainExportArgs round data collector) collector.ctx h = r at *
      obtain ⟨code, ptr, h₁⟩ := r
      -- the context that the head leaves is not one of the rest
      have hfresh : ∀ a ∈ ptr, a ∉ contexts collectors := by
        intro a ha hmem
        rcases hctx₁ a ha with hsame | hle
        · exact (hold a hmem).1 (Option.mem_toList.2 hsame)
        · exact absurd (hold a hmem).2 (Nat.not_lt.2 hle)
      have hrest := hsep.rest hframe₁ hsep₁.owner_le hsep₁.owned
      obtain ⟨owner₂, new₂, hframe₂, -⟩ :=
        exists_frame_mainExportLoop round data (i + 1) collectors hrest
      obtain ⟨hfault₂, hkept₂, hfed₂⟩ := ih (i + 1) (fun j => feeds (j + 1))
        (others ++ ptr.toList) hrest (hbelow.frame hframe₁) hfault₁
        (fun j c hj => (hfed (j + 1) c hj).frame hsep.owned hframe₁ fun a ha =>
          (hold a (mem_contexts (List.mem_of_getElem? hj) ha)).1)
        (fun j c hj => by
          have hj' := hsettles (j + 1) c hj
          rwa [← Nat.add_assoc, Nat.add_right_comm] at hj')
        (by
          simp only [List.mem_append]
          rintro a (ha | ha)
          · obtain ⟨hnot, hlt⟩ := hothers a ha
            exact ⟨fun hmem => hnot (List.mem_append_right _ hmem), hlt.trans_le hframe₁.next_le⟩
          · exact ⟨hfresh a (Option.mem_toList.1 ha), (hsep₁.context a ha).1⟩)
        hkept₁
      refine ⟨hfault₂, ?_, fun j c hj => ?_⟩
      · rw [contexts_cons, ← List.append_assoc]
        exact hkept₂
      cases j with
      | zero =>
          obtain rfl : collector = c := Option.some.inj hj
          exact ⟨ptr, rfl, hfed₁.frame hsep₁.owned hframe₂ hfresh⟩
      | succ j =>
          obtain ⟨ctx, hget, hfed'⟩ := hfed₂ j c hj
          rw [← Nat.add_assoc, Nat.add_right_comm]
          exact ⟨ctx, hget, hfed'⟩

end Pass

/-! ### Runs -/

/-- **Every collector of the list agrees with the calls that have got through to it**, apart from
the others, and nothing that was not live has been touched. -/
structure MainState.Feeds (feeds : ℕ → List ExportCall) (st : MainState) : Prop where
  separate : ∃ owner, Separate owner (contexts st.collectors) st.heap
  below : st.heap.CallsBelow
  fault : st.heap.fault = false
  fed : ∀ j collector, st.collectors[j]? = some collector → Fed (feeds j) collector.ctx st.heap
  kept : Kept (contexts st.collectors) st.heap

section Runs

variable {st : MainState} {feeds : ℕ → List ExportCall}

/-- Contexts that are `NULL` agree with no calls. -/
theorem MainState.feeds_start {collectors : List CollectorInfo}
    (hnull : ∀ collector ∈ collectors, collector.ctx = none) :
    MainState.Feeds (fun _ => []) { collectors } where
  separate := exists_separate_after hnull []
  below call hcall := by cases hcall
  fault := rfl
  fed j collector hj := by
    rw [hnull collector (List.mem_of_getElem? hj)]
    exact ⟨by simp, fun a ha => by cases ha⟩
  kept part x hlive := by cases part <;> cases hlive

/-- The list keeps its length. -/
theorem MainState.exists_getElem?_of_after (st : MainState) (rounds : List ExportRound) {j : ℕ}
    {collector' : CollectorInfo} (hj : (st.after rounds).collectors[j]? = some collector') :
    ∃ collector, st.collectors[j]? = some collector := by
  have hlength := congrArg List.length (st.after_collectors rounds)
  rw [List.length_map, List.length_map] at hlength
  have hlt := (List.getElem?_eq_some_iff.1 hj).1
  exact ⟨_, List.getElem?_eq_getElem (hlength ▸ hlt)⟩

/-- **One call of `nvipfix_main_export`.** -/
theorem MainState.Feeds.round (hst : st.Feeds feeds) {round : ExportRound}
    {data : List DataRecord} (hdata : round.data = some data)
    (hsettles : ∀ j collector, st.collectors[j]? = some collector →
      feedSettles (feeds j) (mainExportCall round data j collector)) :
    ∃ feeds', (nvipfixMainExport st round).2.Feeds feeds' ∧
      ∀ (j : ℕ) (collector : CollectorInfo), st.collectors[j]? = some collector →
        feeds' j = feedStep (feeds j) (mainExportCall round data j collector) ∧
          ∃ ctx, (nvipfixMainExport st round).2.collectors[j]? = some { collector with ctx } := by
  obtain ⟨owner, hsep⟩ := hst.separate
  obtain ⟨owner', new, hframe, hsep', -, -⟩ :=
    exists_frame_mainExportLoop round data 0 st.collectors hsep
  obtain ⟨hfault, hkept, hfed⟩ := exists_fed_mainExportLoop round data 0 st.collectors feeds []
    hsep hst.below hst.fault hst.fed (fun j collector hj => by
      rw [Nat.zero_add]
      exact hsettles j collector hj) (by simp) hst.kept
  simp only [Nat.zero_add] at hfed
  rw [nvipfixMainExport, hdata]
  refine ⟨fun j => ((st.collectors[j]?).map fun collector =>
    feedStep (feeds j) (mainExportCall round data j collector)).getD [],
      ⟨⟨owner', hsep'⟩, hst.below.frame hframe, hfault, ?_, hkept⟩, ?_⟩
  · intro j collector' hj'
    obtain ⟨collector, hj⟩ := st.exists_getElem?_of_after [round] (by
      rw [after, List.foldl_cons, nvipfixMainExport, hdata]
      exact hj')
    obtain ⟨ctx, hget, hfed'⟩ := hfed j collector hj
    obtain rfl := Option.some.inj (hget.symm.trans hj')
    simp only [hj, Option.map_some, Option.getD_some]
    exact hfed'
  · intro j collector hj
    obtain ⟨ctx, hget, -⟩ := hfed j collector hj
    simp only [hj, Option.map_some, Option.getD_some, true_and]
    exact ⟨ctx, hget⟩

/-- The calls for every collector of a list settle, one after another. -/
def FeedsSettle (feeds : ℕ → List ExportCall) (collectors : List CollectorInfo)
    (rounds : List ExportRound) : Prop :=
  ∀ (j : ℕ) (collector : CollectorInfo), collectors[j]? = some collector →
    GuardedRun.Guarded (fun feed call => feedSettles feed call) (feeds j)
      (GuardedRun.runOf feedStep (feeds j) (collectorCalls j collector rounds))

/-- The calls of a round come before those of later rounds. -/
theorem collectorCalls_cons (j : ℕ) (collector : CollectorInfo) (round : ExportRound)
    (rounds : List ExportRound) : collectorCalls j collector (round :: rounds) =
      (round.data.map fun data => mainExportCall round data j collector).toList ++
        collectorCalls j collector rounds := by
  rw [collectorCalls, List.filterMap_cons]
  cases round.data <;> rfl

/-- A run, from contexts that agree with calls. -/
theorem MainState.Feeds.after (rounds : List ExportRound) (hst : st.Feeds feeds)
    (hsettle : FeedsSettle feeds st.collectors rounds) :
    ∃ feeds', (st.after rounds).Feeds feeds' ∧
      ∀ (j : ℕ) (collector : CollectorInfo), st.collectors[j]? = some collector →
        feeds' j = (collectorCalls j collector rounds).foldl feedStep (feeds j) ∧
          ∃ ctx, (st.after rounds).collectors[j]? = some { collector with ctx } := by
  induction rounds generalizing st feeds with
  | nil => exact ⟨feeds, hst, fun j collector hj => ⟨rfl, collector.ctx, hj⟩⟩
  | cons round rounds ih =>
      simp only [FeedsSettle, collectorCalls_cons] at hsettle
      simp only [collectorCalls_cons]
      cases hdata : round.data with
      | none =>
          have hround : (nvipfixMainExport st round).2 = st := by
            rw [nvipfixMainExport, hdata]
          rw [hdata] at hsettle
          rw [MainState.after, List.foldl_cons, hround]
          exact ih hst hsettle
      | some data =>
          rw [hdata] at hsettle
          obtain ⟨feeds₁, hfeeds₁, hstep⟩ :=
            hst.round hdata fun j collector hj => (hsettle j collector hj).1
          have hrest : FeedsSettle feeds₁ (nvipfixMainExport st round).2.collectors rounds := by
            intro j collector' hj'
            obtain ⟨collector, hj⟩ := st.exists_getElem?_of_after [round] hj'
            obtain ⟨hfeeds, ctx, hget⟩ := hstep j collector hj
            obtain rfl := Option.some.inj (hget.symm.trans hj')
            rw [hfeeds]
            exact (hsettle j collector hj).2
          obtain ⟨feeds', hfeeds', hcollectors⟩ := ih hfeeds₁ hrest
          refine ⟨feeds', hfeeds', fun j collector hj => ?_⟩
          obtain ⟨hfeeds, ctx, hget⟩ := hstep j collector hj
          obtain ⟨hfeeds', hctx⟩ := hcollectors j _ hget
          refine ⟨?_, hctx⟩
          rw [hfeeds', hfeeds]
          rfl

/-- **In a run every collector gets what its own calls give it**, as if it were the only one, and
nothing that is not live is touched, as long as no call for any of them takes a path that releases a
context. -/
theorem mainExport_feeds {collectors : List CollectorInfo}
    (hnull : ∀ collector ∈ collectors, collector.ctx = none) (rounds : List ExportRound)
    (hsettle : FeedsSettle (fun _ => []) collectors rounds) :
    (MainState.after { collectors } rounds).heap.fault = false ∧
      ∀ (j : ℕ) (collector : CollectorInfo), collectors[j]? = some collector →
        ∃ ctx, (MainState.after { collectors } rounds).collectors[j]? =
            some { collector with ctx } ∧
          Fed ((collectorCalls j collector rounds).foldl feedStep []) ctx
            (MainState.after { collectors } rounds).heap := by
  obtain ⟨feeds, hfeeds, hcollectors⟩ := (MainState.feeds_start hnull).after rounds hsettle
  refine ⟨hfeeds.fault, fun j collector hj => ?_⟩
  obtain ⟨heq, ctx, hget⟩ := hcollectors j collector hj
  refine ⟨ctx, hget, ?_⟩
  rw [← heq]
  exact hfeeds.fed j _ hget

end Runs

/-! ### The clean-up -/

/-- The loop of `nvipfix_export_cleanup` over the list. -/
def exportCleanup (collectors : List CollectorInfo) (h : ExportHeap) : ExportHeap :=
  collectors.foldl (fun h collector => nvipfixExportCleanup collector.ctx h) h

section Cleanup

variable {owner : Address → Address} {h : ExportHeap} {a collector session buffer : Address}
  {priv : CollectorPrivate}

/-- The clean-up of a context releases its buffer and its counters. -/
theorem nvipfixExportCleanup_eq (hctx : h.IsContext a priv collector session buffer) :
    nvipfixExportCleanup (some a) h = (h.fBufFree (some buffer)).freeCollector collector := by
  simp [nvipfixExportCleanup, hctx.privates, hctx.buffer_eq, hctx.collector_eq]

/-- The heap behind the clean-up of a context: its parts are no longer live. -/
theorem nvipfixExportCleanup_heap (hctx : h.IsContext a priv collector session buffer) :
    nvipfixExportCleanup (some a) h =
      { h with
        collectors := Function.update h.collectors collector none
        sessions := Function.update h.sessions session false
        buffers := Function.update h.buffers buffer none } := by
  have hcollector := hctx.collectors
  rw [nvipfixExportCleanup_eq hctx]
  simp [ExportHeap.fBufFree, hctx.buffers, ExportHeap.fbSessionFree, hctx.sessions,
    ExportHeap.freeCollector, hcollector, ExportHeap.setCollector]

/-- What is live behind the clean-up of a context is no part of it. -/
theorem live_nvipfixExportCleanup (hctx : h.IsContext a priv collector session buffer)
    {part : ContextPart} {x : Address}
    (hlive : (nvipfixExportCleanup (some a) h).live part x = true) :
    h.live part x = true ∧ priv.part part ≠ some x := by
  rw [nvipfixExportCleanup_heap hctx] at hlive
  cases part with
  | collector =>
      by_cases hx : x = collector
      · simp [ExportHeap.live, hx] at hlive
      · rw [CollectorPrivate.part, hctx.collector_eq]
        simp only [ExportHeap.live, Function.update_of_ne hx] at hlive
        exact ⟨hlive, fun heq => hx (Option.some.inj heq).symm⟩
  | session =>
      by_cases hx : x = session
      · simp [ExportHeap.live, hx] at hlive
      · rw [CollectorPrivate.part, hctx.session_eq]
        simp only [ExportHeap.live, Function.update_of_ne hx] at hlive
        exact ⟨hlive, fun heq => hx (Option.some.inj heq).symm⟩
  | buffer =>
      by_cases hx : x = buffer
      · simp [ExportHeap.live, hx] at hlive
      · rw [CollectorPrivate.part, hctx.buffer_eq]
        simp only [ExportHeap.live, Function.update_of_ne hx] at hlive
        exact ⟨hlive, fun heq => hx (Option.some.inj heq).symm⟩

/-- The clean-up of a context leaves the others alone. -/
theorem local_nvipfixExportCleanup (hown : h.OwnedBy owner)
    (hctx : h.IsContext a priv collector session buffer) :
    ExportHeap.Local owner a h (nvipfixExportCleanup (some a) h) := by
  have hparts := (hown.privates a priv hctx.privates).2.2
  have hbuffer := (hparts buffer (CollectorPrivate.mem_parts.2 (.inr (.inr hctx.buffer_eq)))).2
  have hcollector := (hparts collector (CollectorPrivate.mem_parts.2 (.inl hctx.collector_eq))).2
  rw [nvipfixExportCleanup_eq hctx]
  refine (ExportHeap.local_fBufFree ?_ hown).trans (ExportHeap.local_freeCollector hcollector)
  rintro _ ⟨⟩
  exact hbuffer

/-- **A clean-up releases every object, each of them once**; the contexts stay. -/
theorem exportCleanup_spec (collectors : List CollectorInfo)
    (hsep : Separate owner (contexts collectors) h)
    (hlive : ∀ collector ∈ collectors, h.ContextLive collector.ctx)
    (hkept : Kept (contexts collectors) h) :
    (exportCleanup collectors h).fault = h.fault ∧
      (∀ part x, (exportCleanup collectors h).live part x = false) ∧
      (exportCleanup collectors h).privates = h.privates := by
  induction collectors generalizing h with
  | nil =>
      refine ⟨rfl, fun part x => ?_, rfl⟩
      cases hx : h.live part x with
      | false => exact hx
      | true =>
          obtain ⟨a, ha, -⟩ := hkept part x hx
          cases ha
  | cons info collectors ih =>
      have hrest := fun info' hmem => hlive info' (List.mem_cons_of_mem info hmem)
      rw [contexts_cons] at hsep hkept
      rw [exportCleanup, List.foldl_cons, ← exportCleanup]
      cases hptr : info.ctx with
      | none =>
          rw [hptr] at hsep hkept
          exact ih hsep hrest hkept
      | some a =>
          rw [hptr] at hsep hkept
          obtain ⟨priv, collector, session, buffer, hctx⟩ := hlive info List.mem_cons_self a hptr
          have hlocal := local_nvipfixExportCleanup hsep.owned hctx
          obtain ⟨ha, hnodup⟩ := List.nodup_cons.1 hsep.nodup
          have hne : ∀ a' ∈ contexts collectors, a' ≠ a := by
            rintro a' ha' rfl
            exact ha ha'
          have hheap := nvipfixExportCleanup_heap hctx
          have hsep' : Separate owner (contexts collectors) (nvipfixExportCleanup (some a) h) := by
            refine ⟨hsep.owner_le, hlocal.owned hsep.owned, fun a' ha' => ?_, hnodup⟩
            obtain ⟨hlt, hself⟩ := hsep.context a' (List.mem_cons_of_mem _ ha')
            exact ⟨hlt.trans_le hlocal.next_le, hself⟩
          have hlive' : ∀ info' ∈ collectors,
              (nvipfixExportCleanup (some a) h).ContextLive info'.ctx := by
            intro info' hmem a' ha'
            obtain ⟨priv', collector', session', buffer', hctx'⟩ := hrest info' hmem a' ha'
            exact ⟨priv', collector', session', buffer',
              hlocal.isContext hsep.owned (hne a' (mem_contexts hmem ha')) hctx'⟩
          have hkept' : Kept (contexts collectors) (nvipfixExportCleanup (some a) h) := by
            intro part x hx
            obtain ⟨hx', hpart⟩ := live_nvipfixExportCleanup hctx hx
            obtain ⟨a', ha', priv', collector', session', buffer', hctx', hpart'⟩ :=
              hkept part x hx'
            rcases List.mem_cons.1 ha' with rfl | ha'
            · obtain rfl := Option.some.inj (hctx.privates.symm.trans hctx'.privates)
              exact absurd hpart' hpart
            · exact ⟨a', ha', priv', collector', session', buffer',
                hlocal.isContext hsep.owned (hne a' ha') hctx', hpart'⟩
          obtain ⟨hfault, hdead, hprivates⟩ := ih hsep' hlive' hkept'
          refine ⟨hfault.trans ?_, hdead, hprivates.trans ?_⟩
          · rw [hheap]
          · rw [hheap]

/-- **Behind a run, a clean-up leaves nothing but contexts**: no session, no buffer and no counters
are left, and nothing is released twice. -/
theorem exportCleanup_after {collectors : List CollectorInfo}
    (hnull : ∀ collector ∈ collectors, collector.ctx = none) (rounds : List ExportRound)
    (hsettle : FeedsSettle (fun _ => []) collectors rounds) :
    let st := MainState.after { collectors } rounds
    (exportCleanup st.collectors st.heap).fault = false ∧
      (∀ part x, (exportCleanup st.collectors st.heap).live part x = false) ∧
      (exportCleanup st.collectors st.heap).privates = st.heap.privates := by
  intro st
  obtain ⟨feeds, hfeeds, -⟩ := (MainState.feeds_start hnull).after rounds hsettle
  obtain ⟨owner, hsep⟩ := hfeeds.separate
  obtain ⟨hfault, hdead, hprivates⟩ := exportCleanup_spec st.collectors hsep (fun info hmem => by
    obtain ⟨j, hj⟩ := List.mem_iff_getElem?.1 hmem
    exact (hfeeds.fed j info hj).contextLive) hfeeds.kept
  exact ⟨hfault.trans hfeeds.fault, hdead, hprivates⟩

end Cleanup

/-! ### Three rounds -/

/-- The first collector has no memory for its counters at first; then there are no records; then a
record is not accepted. -/
def threeRounds : List ExportRound :=
  [{ outcomes := fun j => { malloc := j ≠ 0 }, calendar := .epoch, data := some [{}], startTs := {},
     endTs := {} },
   { outcomes := fun _ => {}, calendar := .epoch, data := none, startTs := {}, endTs := {} },
   { outcomes := fun _ => { append := fun i => i ≠ 0, emit := false }, calendar := .epoch,
     data := some [{}, {}], startTs := {}, endTs := {} }]

theorem feedsSettle_threeRounds : FeedsSettle (fun _ => []) [{}, {}] threeRounds := by
  intro j collector hj
  match j with
  | 0 => obtain rfl := Option.some.inj hj; exact ⟨rfl, rfl, trivial⟩
  | 1 => obtain rfl := Option.some.inj hj; exact ⟨rfl, rfl, trivial⟩
  | j + 2 => cases hj

theorem mainExport_feeds_threeRounds :
    (MainState.after { collectors := [{}, {}] } threeRounds).heap.fault = false ∧
      ∀ (j : ℕ) (collector : CollectorInfo), ([{}, {}] : List CollectorInfo)[j]? = some collector →
        ∃ ctx, (MainState.after { collectors := [{}, {}] } threeRounds).collectors[j]? =
            some { collector with ctx } ∧
          Fed ((collectorCalls j collector threeRounds).foldl feedStep []) ctx
            (MainState.after { collectors := [{}, {}] } threeRounds).heap :=
  mainExport_feeds (by simp) threeRounds feedsSettle_threeRounds

theorem exportCleanup_after_threeRounds :
    let st := MainState.after { collectors := [{}, {}] } threeRounds
    (exportCleanup st.collectors st.heap).fault = false ∧
      (∀ part x, (exportCleanup st.collectors st.heap).live part x = false) ∧
      (exportCleanup st.collectors st.heap).privates = st.heap.privates :=
  exportCleanup_after (by simp) threeRounds feedsSettle_threeRounds

end NvIpfix
