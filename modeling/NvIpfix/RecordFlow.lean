/-
**Records from their source to the collectors.**

The program has two sources of records, a file and the switch, and one way to send them.  Whatever
the source, a collector whose sessions can be set up is offered the records of every call once and
in order, for the window of the call, and nothing else; it has a context as soon as there have been
records.  A run of the daemon thus hands on what the switch has handed over, poll by poll, and a
batch run hands on the records of its file, which are released behind it.

Main definitions:

* `NvIpfix.FixbufCall.exported` — the flow record of a call of fixbuf;
* `NvIpfix.ExportRound.images` — the export records of a call of `nvipfix_main_export`;
* `NvIpfix.Receives` — the flow records that a context has been offered;
* `NvIpfix.nvipfixMainExportFile` — a batch run.

Main results:

* `NvIpfix.mainExport_exported` — **a collector is offered the records of every call**;
* `NvIpfix.pollRun_exported` — **the daemon hands on what the switch has handed over**;
* `NvIpfix.nvipfixMainExportFile_spec` — **a batch run hands on the records of its file**.
-/

import NvIpfix.ExportRuns
import NvIpfix.ImportMemory
import NvIpfix.SwitchPoll

set_option relaxedAutoImplicit false
set_option autoImplicit false

namespace NvIpfix

/-! ### Flow records -/

/-- The flow record that a call of fixbuf offers. -/
def FixbufCall.exported : FixbufCall → Option ExportData
  | .append _ data _ => some data
  | _ => none

/-- The export records of a call of `nvipfix_main_export`, in its window. -/
def ExportRound.images (round : ExportRound) : List ExportData :=
  (round.data.getD []).map <| exportData round.calendar
    (datetimeGetSecondsSinceEpoch round.calendar round.startTs 1970 1)
    (datetimeGetSecondsSinceEpoch round.calendar round.endTs 1970 1)

/-- The context behind a pointer is live, and the flow records that its buffer has been offered. -/
def Receives (images : List ExportData) (ptr : Option Address) (h : ExportHeap) : Prop :=
  ∀ a ∈ ptr, ∃ priv collector session buffer, h.IsContext a priv collector session buffer ∧
    (h.calls.filter fun call => call.buffer = some buffer).filterMap FixbufCall.exported = images

section Exported

variable {collectors : List CollectorInfo} {rounds : List ExportRound}

theorem exported_sentCalls (o : ExportOutcomes) (calendar : Calendar) (args : ExportArgs)
    (buffer : Option Address) (stats : ExportStatsData) :
    (sentCalls o calendar args buffer stats).filterMap FixbufCall.exported =
      args.data.map (exportImage calendar args) := by
  have happend : (appendCalls o calendar args buffer).filterMap FixbufCall.exported =
      args.data.map (exportImage calendar args) := by
    rw [appendCalls, List.filterMap_map]
    have hexported : FixbufCall.exported ∘ (fun p : DataRecord × ℕ => .append buffer
        (exportImage calendar args p.1) (o.append p.2)) =
          some ∘ fun p => exportImage calendar args p.1 := rfl
    rw [hexported, List.filterMap_eq_map, ← Function.comp_def, ← List.map_map,
      List.zipIdx_map_fst]
  rw [sentCalls, List.filterMap_append, happend]
  exact List.append_nil _

/-- A collector is offered the records of all calls that have got through. -/
theorem exported_feedCalls (buffer : Option Address) (totals : CollectorTotals)
    (feed : List ExportCall) :
    (feedCalls buffer totals feed).filterMap FixbufCall.exported =
      feed.flatMap fun call => call.args.data.map (exportImage call.calendar call.args) := by
  induction feed generalizing totals with
  | nil => rfl
  | cons call feed ih =>
      rw [feedCalls, List.filterMap_append, exported_sentCalls, ih, List.flatMap_cons]

/-- Calls that are ready all get through. -/
theorem foldl_feedStep {calls : List ExportCall} (h : ∀ call ∈ calls, call.outcomes.Ready none)
    (feed : List ExportCall) : calls.foldl feedStep feed = feed ++ calls := by
  induction calls generalizing feed with
  | nil => simp
  | cons call calls ih =>
      have hready := h call List.mem_cons_self
      have hreaches : reaches feed call = true := by
        simp [reaches, hready.exportInit, hready.calloc rfl, hready.malloc rfl]
      rw [List.foldl_cons, feedStep, if_pos hreaches,
        ih fun call hcall => h call (List.mem_cons_of_mem _ hcall), List.append_assoc,
        List.singleton_append]

/-- Calls that are ready all settle. -/
theorem guarded_of_ready {calls : List ExportCall} (h : ∀ call ∈ calls, call.outcomes.Ready none)
    (feed : List ExportCall) :
    GuardedRun.Guarded (fun feed call => feedSettles feed call) feed
      (GuardedRun.runOf feedStep feed calls) := by
  induction calls generalizing feed with
  | nil => trivial
  | cons call calls ih =>
      have hready := h call List.mem_cons_self
      refine ⟨?_, ih (fun call hcall => h call (List.mem_cons_of_mem _ hcall)) _⟩
      have hsetUp : call.outcomes.setUp = true := hready.setUp rfl
      simp [feedSettles, hsetUp, hready.templates]

/-- The records of the calls for one collector are those of the calls for all. -/
theorem flatMap_collectorCalls (j : ℕ) (collector : CollectorInfo) (rounds : List ExportRound) :
    ((collectorCalls j collector rounds).flatMap fun call =>
        call.args.data.map (exportImage call.calendar call.args)) =
      rounds.flatMap ExportRound.images := by
  induction rounds with
  | nil => rfl
  | cons round rounds ih =>
      rw [collectorCalls_cons, List.flatMap_append, ih, List.flatMap_cons]
      refine congrArg (· ++ _) ?_
      rw [ExportRound.images]
      cases round.data with
      | none => rfl
      | some data => exact List.append_nil _

/-- **A collector is offered the records of every call**, once and in order, and nothing else, if
its sessions can be set up; it has a context as soon as there have been records. -/
theorem mainExport_exported (hnull : ∀ collector ∈ collectors, collector.ctx = none)
    (hready : ∀ round ∈ rounds, ∀ j, (round.outcomes j).Ready none) :
    (MainState.after { collectors } rounds).heap.fault = false ∧
      ∀ (j : ℕ) (collector : CollectorInfo), collectors[j]? = some collector →
        ∃ ctx, (MainState.after { collectors } rounds).collectors[j]? =
            some { collector with ctx } ∧
          (ctx = none ↔ ∀ round ∈ rounds, round.data = none) ∧
          Receives (rounds.flatMap ExportRound.images) ctx
            (MainState.after { collectors } rounds).heap := by
  have hcalls : ∀ (j : ℕ) (collector : CollectorInfo),
      ∀ call ∈ collectorCalls j collector rounds, call.outcomes.Ready none := by
    intro j collector call hcall
    obtain ⟨round, hround, hdata⟩ := List.mem_filterMap.1 hcall
    obtain ⟨data, -, rfl⟩ := Option.map_eq_some_iff.1 hdata
    exact hready round hround j
  obtain ⟨feeds, hfeeds, hcollectors⟩ := (MainState.feeds_start hnull).after rounds
    fun j collector _ => guarded_of_ready (hcalls j collector) []
  refine ⟨hfeeds.fault, fun j collector hj => ?_⟩
  obtain ⟨heq, ctx, hget⟩ := hcollectors j collector hj
  have hfed := hfeeds.fed j _ hget
  rw [heq, foldl_feedStep (hcalls j collector), List.nil_append] at hfed
  refine ⟨ctx, hget, ?_, fun a ha => ?_⟩
  · rw [hfed.opened, collectorCalls, List.filterMap_eq_nil_iff]
    simp only [Option.map_eq_none_iff]
  · obtain ⟨priv, c, session, buffer, hctx, -, hfilter⟩ := hfed.context a ha
    refine ⟨priv, c, session, buffer, hctx, ?_⟩
    rw [hfilter, exported_feedCalls, flatMap_collectorCalls]

end Exported

/-! ### The daemon -/

/-- The connections that a session hands over: all of them, though the query may fail behind them,
and none, if there is no query. -/
def NvcOutcomes.handed (o : NvcOutcomes) : List NvcConn :=
  if o.connect = 0 ∧ o.identify.succeeds then o.connections else []

/-- The export records of the connections of a poll. -/
def SwitchPoll.images (poll : SwitchPoll) (calendar : Calendar) : List ExportData :=
  poll.nvc.handed.map fun connStat => exportData calendar
    (datetimeGetSecondsSinceEpoch calendar poll.startTs 1970 1)
    (datetimeGetSecondsSinceEpoch calendar poll.endTs 1970 1) (connStatRecord calendar connStat)

section Daemon

variable {env : PollEnv} {s : PollState} {collectors : List CollectorInfo}

theorem NvcOutcomes.records_eq (o : NvcOutcomes) (calendar : Calendar) :
    o.records calendar =
      if o.handed = [] then none else some (o.handed.map (connStatRecord calendar)) := by
  rw [NvcOutcomes.records, NvcOutcomes.handed]
  by_cases h : o.connect = 0 ∧ o.identify.succeeds
  · simp only [h, true_and, and_self, if_true, ne_eq, ite_not]
  · rw [if_neg fun hall => h ⟨hall.1, hall.2.1⟩, if_neg h]
    rfl

/-- The export records of a poll are those of its connections. -/
theorem SwitchPoll.images_round (poll : SwitchPoll) (calendar : Calendar) :
    (poll.round calendar (poll.nvc.records calendar)).images = poll.images calendar := by
  rw [ExportRound.images, SwitchPoll.images, SwitchPoll.round, NvcOutcomes.records_eq]
  by_cases hnil : poll.nvc.handed = []
  · rw [if_pos hnil, hnil]
    rfl
  · rw [if_neg hnil, Option.getD_some, List.map_map]
    rfl

/-- **The daemon hands on what the switch has handed over**: every collector whose sessions can be
set up is offered the connections of all polls, in order, and nothing else.  Their records have
dates of their own; the window of a poll is for those that have none. -/
theorem pollRun_exported (polls : List SwitchPoll) (hs : s.Ready env)
    (hmain : s.main = { collectors }) (hnull : ∀ collector ∈ collectors, collector.ctx = none)
    (hpolls : ∀ poll ∈ polls, poll.succeeds = true) (hmallocs : ∀ n, env.mallocs n = true)
    (hdataMallocs : ∀ n, env.dataMallocs n = true)
    (hready : ∀ poll ∈ polls, ∀ j, (poll.outcomes j).Ready none) :
    (pollRun env s polls).main.heap.fault = false ∧
      ∀ (j : ℕ) (collector : CollectorInfo), collectors[j]? = some collector →
        ∃ ctx, (pollRun env s polls).main.collectors[j]? = some { collector with ctx } ∧
          (ctx = none ↔ ∀ poll ∈ polls, poll.nvc.handed = []) ∧
          Receives (polls.flatMap fun poll => poll.images env.calendar) ctx
            (pollRun env s polls).main.heap := by
  obtain ⟨hafter, -⟩ := pollRun_exports polls hs hpolls hmallocs hdataMallocs
  have himages : (polls.map fun poll =>
      poll.round env.calendar (poll.nvc.records env.calendar)).flatMap ExportRound.images =
        polls.flatMap fun poll => poll.images env.calendar := by
    rw [List.flatMap_map]
    exact List.flatMap_congr fun poll _ => poll.images_round env.calendar
  have hexported := @mainExport_exported collectors (polls.map fun poll =>
      poll.round env.calendar (poll.nvc.records env.calendar)) hnull (by
    rintro round hround j
    obtain ⟨poll, hpoll, rfl⟩ := List.mem_map.1 hround
    exact hready poll hpoll j)
  rw [himages] at hexported
  rw [hafter, hmain]
  refine ⟨hexported.1, fun j collector hj => ?_⟩
  obtain ⟨ctx, hget, hnone, hreceives⟩ := hexported.2 j collector hj
  refine ⟨ctx, hget, hnone.trans ?_, hreceives⟩
  rw [List.forall_mem_map]
  refine forall₂_congr fun poll _ => ?_
  simp only [SwitchPoll.round, NvcOutcomes.records_eq]
  by_cases hnil : poll.nvc.handed = [] <;> simp [hnil]

/-- Memory for all records. -/
def twoPollsEnv' : PollEnv := { twoPollsEnv with dataMallocs := fun _ => true }

theorem pollRun_exported_twoPolls :
    (pollRun twoPollsEnv' twoPollsState twoPolls).main.heap.fault = false ∧
      ∀ (j : ℕ) (collector : CollectorInfo),
        ([{ host := some ⟨0, ascii "collector"⟩ }] : List CollectorInfo)[j]? = some collector →
          ∃ ctx, (pollRun twoPollsEnv' twoPollsState twoPolls).main.collectors[j]? =
              some { collector with ctx } ∧
            (ctx = none ↔ ∀ poll ∈ twoPolls, poll.nvc.handed = []) ∧
            Receives (twoPolls.flatMap fun poll => poll.images .epoch) ctx
              (pollRun twoPollsEnv' twoPollsState twoPolls).main.heap :=
  pollRun_exported twoPolls
    ⟨twoPollsState_ready.strings, twoPollsState_ready.infos, twoPollsState_ready.data,
      twoPollsState_ready.settings⟩ rfl (by simp) (by simp [twoPolls]) (fun _ => rfl)
    (fun _ => rfl) (by
      intro poll hpoll j
      simp only [twoPolls, List.mem_cons, List.not_mem_nil, or_false] at hpoll
      rcases hpoll with rfl | rfl <;>
        exact ⟨rfl, fun _ => rfl, fun _ => rfl, fun _ => rfl, rfl⟩)

end Daemon

/-! ### A batch run with a file -/

/-- A batch run: the file, unless it cannot be opened, and the arguments of the export. -/
structure FileRun where
  file : Option (ImportEnv × ℕ)
  outcomes : ℕ → ExportOutcomes
  calendar : Calendar
  startTs : Datetime
  endTs : Datetime

/-- The export of a batch run. -/
def FileRun.round (run : FileRun) (data : Option (List DataRecord)) : ExportRound where
  outcomes := run.outcomes
  calendar := run.calendar
  data := data
  startTs := run.startTs
  endTs := run.endTs

/-- The records of the file of a batch run, if reading it ends. -/
def FileRun.records (run : FileRun) : Option (Option (List DataRecord)) :=
  match run.file with
  | none => some none
  | some (env, fuel) => nvipfixImport env fuel

/-- `nvipfix_import_file`, with at most so many iterations of the read loop. -/
def nvipfixImportFileIn (m : ImportMemory) (file : Option (ImportEnv × ℕ)) (d : DataHeap)
    (h : StringHeap) : Option ((Option ℕ × DataHeap) × StringHeap) :=
  match file with
  | none => some ((none, d), h)
  | some (env, fuel) => nvipfixImportIn m env fuel d h

/-- `nvipfix_main_export_file`: the collectors, the records and the strings behind it. -/
def nvipfixMainExportFile (m : ImportMemory) (run : FileRun) (st : MainState) (d : DataHeap)
    (h : StringHeap) : Option (MainState × DataHeap × StringHeap) :=
  match nvipfixImportFileIn m run.file d h with
  | none => none
  | some ((dataRecords, d), h) =>
      let (_, st) := nvipfixMainExport st (run.round (d.contents dataRecords))
      some (st, nvipfixDataListFree dataRecords d, h)

section File

variable {m : ImportMemory} {run : FileRun} {d : DataHeap} {h : StringHeap}
  {collectors : List CollectorInfo}

/-- The import of a batch run. -/
theorem nvipfixImportFileIn_spec (hfresh : h.Fresh) (hd : d.Fresh) :
    ∀ result ∈ nvipfixImportFileIn m run.file d h, h.Restored result.2 ∧
      ∃ records ∈ run.records, Imported m d records result.1 := by
  obtain ⟨file, outcomes, calendar, startTs, endTs⟩ := run
  cases file with
  | none =>
      rintro _ ⟨⟩
      exact ⟨.refl h, none, rfl, .start hd⟩
  | some file => exact nvipfixImportIn_imported m file.1 file.2 hfresh hd

/-- A batch run ends when reading its file does. -/
theorem isSome_nvipfixMainExportFile (m : ImportMemory) (run : FileRun) (st : MainState)
    (d : DataHeap) (h : StringHeap) :
    (nvipfixMainExportFile m run st d h).isSome ↔ run.records.isSome := by
  have himport : (nvipfixImportFileIn m run.file d h).isSome ↔ run.records.isSome := by
    obtain ⟨file, outcomes, calendar, startTs, endTs⟩ := run
    cases file with
    | none => exact iff_of_true rfl rfl
    | some file => exact isSome_nvipfixImportIn m file.1 file.2
  rw [← himport, nvipfixMainExportFile]
  cases nvipfixImportFileIn m run.file d h <;> rfl

/-- **A batch run hands on the records of its file**: it ends when reading the file does, and memory
is as it was behind it: strings are released whatever fails, and records but for copies for which
there was no list; if nothing fails, every collector whose session can be set up is offered the
records of the file, once and in order, and nothing else. -/
theorem nvipfixMainExportFile_spec (hfresh : h.Fresh) (hd : d.Fresh)
    (hnull : ∀ collector ∈ collectors, collector.ctx = none) :
    ((nvipfixMainExportFile m run { collectors } d h).isSome ↔ run.records.isSome) ∧
      ∀ result ∈ nvipfixMainExportFile m run { collectors } d h,
        h.Restored result.2.2 ∧ d.Leaks m.dataMallocs result.2.1 ∧
          ∃ records ∈ run.records, m.Succeeds → (∀ j, (run.outcomes j).Ready none) →
            result.1.heap.fault = false ∧
              ∀ (j : ℕ) (collector : CollectorInfo), collectors[j]? = some collector →
                ∃ ctx, result.1.collectors[j]? = some { collector with ctx } ∧
                  (ctx = none ↔ records = none) ∧
                  Receives (run.round records).images ctx result.1.heap := by
  refine ⟨isSome_nvipfixMainExportFile m run _ d h, fun result hresult => ?_⟩
  rw [nvipfixMainExportFile] at hresult
  cases himport : nvipfixImportFileIn m run.file d h with
  | none =>
      rw [himport] at hresult
      cases hresult
  | some imported =>
      obtain ⟨hr, records, hrecords, hstate⟩ := nvipfixImportFileIn_spec hfresh hd _ himport
      rw [himport] at hresult
      obtain rfl := Option.some.inj hresult
      refine ⟨hr, hstate.leaks_free, records, hrecords, fun hall hready => ?_⟩
      rw [hstate.contents hall]
      have hexported := @mainExport_exported collectors [run.round records] hnull (by
        rintro round hround j
        obtain rfl := List.mem_singleton.1 hround
        exact hready j)
      rw [List.flatMap_singleton] at hexported
      refine ⟨hexported.1, fun j collector hj => ?_⟩
      obtain ⟨ctx, hget, hnone, hreceives⟩ := hexported.2 j collector hj
      exact ⟨ctx, hget, hnone.trans List.forall_mem_singleton, hreceives⟩

/-- A file of one record, and memory for all of it. -/
def oneRecordRun : FileRun where
  file := some (oneRecordEnv, 1)
  outcomes _ := {}
  calendar := .epoch
  startTs := {}
  endTs := {}

theorem nvipfixMainExportFile_spec_oneRecord :
    let m : ImportMemory := ⟨fun _ => true, fun _ => .moves, fun _ => true⟩
    ((nvipfixMainExportFile m oneRecordRun { collectors := [{}] } {} {}).isSome ↔
        oneRecordRun.records.isSome) ∧
      ∀ result ∈ nvipfixMainExportFile m oneRecordRun { collectors := [{}] } {} {},
        ({} : StringHeap).Restored result.2.2 ∧ ({} : DataHeap).Leaks m.dataMallocs result.2.1 ∧
          ∃ records ∈ oneRecordRun.records, m.Succeeds →
            (∀ j, (oneRecordRun.outcomes j).Ready none) →
              result.1.heap.fault = false ∧
                ∀ (j : ℕ) (collector : CollectorInfo),
                  ([{}] : List CollectorInfo)[j]? = some collector →
                    ∃ ctx, result.1.collectors[j]? = some { collector with ctx } ∧
                      (ctx = none ↔ records = none) ∧
                      Receives (oneRecordRun.round records).images ctx result.1.heap :=
  nvipfixMainExportFile_spec StringHeap.fresh_empty DataHeap.fresh_empty (by simp)

end File

end NvIpfix
