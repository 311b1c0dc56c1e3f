/-
**The end of the process.**

The log, the configuration and the exporter are initialised when they are first used, and each of
them registers a function with `atexit` then.  These functions run in the opposite order when the
process ends.  The clean-up of the exporter goes through the list of collectors, which the clean-up
of the configuration releases; the clean-up of the configuration writes to the log, which the
clean-up of the log closes.  Whatever is called in whatever order, each of them finds what it needs,
as long as no export takes a path releasing a context.

Main definitions:

* `NvIpfix.ProcessState`, `NvIpfix.ProcessCall` — the state of a process and its calls;
* `NvIpfix.ProcessState.exit` — the functions that run at the end;
* `NvIpfix.ProcessState.Ordered` — what has been registered, and in which order.

Main results:

* `NvIpfix.ProcessState.Ordered.call` — every call keeps the order;
* `NvIpfix.processRun_exit` — **behind any calls, the end releases everything in order**.
-/

import NvIpfix.ConfigContexts
import NvIpfix.ExportRuns

set_option relaxedAutoImplicit false
set_option autoImplicit false

namespace NvIpfix

/-! ### The state -/

/-- The functions that are registered with `atexit`. -/
inductive ExitHandler
  | logCleanup
  | configCleanup
  | exportCleanup
  deriving DecidableEq, Repr

/-- The variables of the files of the program that outlive a call, the functions registered with
`atexit`, the latest first, and what has been released. -/
structure ProcessState where
  /-- `isInitialized` of `nvipfix_log_init`. -/
  logInitialized : Bool := false
  /-- `isInitialized` of the configuration. -/
  configInitialized : Bool := false
  /-- `isInitialized` of `nvipfix_export_init`. -/
  exportInitialized : Bool := false
  handlers : List ExitHandler := []
  /-- The log is open: behind `log4c_init`, and not behind `log4c_fini`. -/
  logOpen : Bool := false
  config : ConfigState := {}
  /-- The strings that have been released by a clean-up of the configuration. -/
  released : List Address := []
  infoModel : Bool := false
  heap : ExportHeap := {}
  /-- A message has been written to a log that was not open. -/
  lost : Bool := false

/-- The content of the configuration file, unless it cannot be opened, and what the stack holds in
place of the struct. -/
structure ProcessEnv where
  file : Option (List UInt8)
  stack : CollectorInfo

namespace ProcessState

variable (env : ProcessEnv) (s : ProcessState)

/-- `atexit`. -/
def atexit (handler : ExitHandler) : ProcessState := { s with handlers := handler :: s.handlers }

/-- `nvipfix_log_init`. -/
def logInit : ProcessState :=
  if s.logInitialized then s
  else { { s with logOpen := true }.atexit .logCleanup with logInitialized := true }

/-- `nvipfix_log_message`. -/
def logMessage : ProcessState :=
  let s := s.logInit
  { s with lost := s.lost || !s.logOpen }

/-- `nvipfix_config_cleanup`. -/
def configCleanup : ProcessState :=
  let s := s.logMessage
  { s with
    released := s.released ++ nvipfixConfigCleanup s.config
    config := { s.config with
      switchName := none, switchApiHost := none, switchApiLogin := none, switchApiPassword := none,
      collectors := [] } }

/-- `nvipfix_config_read`. -/
def configRead : ProcessState :=
  { s.logMessage with config := nvipfixConfigRead env.stack env.file }

/-- `nvipfix_config_init`. -/
def configInit : ProcessState :=
  if s.configInitialized then s
  else { (s.configCleanup.configRead env).atexit .configCleanup with configInitialized := true }

/-- `nvipfix_export_init`, with the outcome of `fbInfoModelAlloc`. -/
def exportInit (allocated : Bool) : Bool × ProcessState :=
  if s.exportInitialized then (true, s)
  else if !allocated then (false, s.logMessage)
  else
    (true, { { s with infoModel := true }.atexit .exportCleanup with exportInitialized := true })

/-- `nvipfix_export_cleanup`. -/
def exportCleanup : ProcessState :=
  let s := s.configInit env
  { s with heap := NvIpfix.exportCleanup s.config.collectors s.heap, infoModel := false }

/-- Storing the list and the objects of its contexts. -/
def setMain (collectors : List CollectorInfo) (heap : ExportHeap) : ProcessState :=
  { s with config := { s.config with collectors := collectors }, heap := heap }

/-- The loop of `nvipfix_main_export`, from the `i`-th collector on, with the outcome of
`fbInfoModelAlloc` in each call: the list and the state behind it. -/
def mainExportLoop (models : ℕ → Bool) (round : ExportRound) (data : List DataRecord) :
    ℕ → List CollectorInfo → ProcessState → List CollectorInfo × ProcessState
  | _, [], s => ([], s)
  | i, collector :: collectors, s =>
      let (initialized, s) := s.logMessage.exportInit (models i)
      let outcomes := { round.outcomes i with exportInit := initialized }
      let (_, ctx, heap) := nvipfixExport outcomes round.calendar
        (mainExportArgs round data collector) collector.ctx s.heap
      let (collectors, s) :=
        mainExportLoop models round data (i + 1) collectors { s with heap := heap }
      ({ collector with ctx } :: collectors, s)

/-- `nvipfix_main_export`. -/
def mainExport (models : ℕ → Bool) (round : ExportRound) : ProcessState :=
  let s := s.configInit env
  match round.data with
  | none => s.logMessage
  | some data =>
      let s := if s.config.collectors.isEmpty then s.logMessage else s
      let (collectors, s) := mainExportLoop models round data 0 s.config.collectors s
      s.setMain collectors s.heap

end ProcessState

/-! ### Calls, and the end -/

/-- The calls of a process: a message, a reading of the settings of the switch or of the interval,
and an export. -/
inductive ProcessCall
  | log
  | config
  | mainExport (models : ℕ → Bool) (round : ExportRound)

namespace ProcessState

variable (env : ProcessEnv) (s : ProcessState)

/-- A call. -/
def call : ProcessCall → ProcessState
  | .log => s.logMessage
  | .config => s.configInit env
  | .mainExport models round => s.mainExport env models round

/-- The state behind calls. -/
def run (calls : List ProcessCall) : ProcessState := calls.foldl (call env) s

/-- A function that is registered with `atexit`. -/
def handle : ExitHandler → ProcessState
  | .logCleanup => { s with logOpen := false }
  | .configCleanup => s.configCleanup
  | .exportCleanup => s.exportCleanup env

/-- The end of the process: the registered functions run, the latest first, and those that these
register. -/
def exit : ℕ → ProcessState → ProcessState
  | 0, s => s
  | fuel + 1, s =>
      match s.handlers with
      | [] => s
      | handler :: handlers => exit fuel ({ s with handlers := handlers }.handle env handler)

end ProcessState

/-! ### The order -/

/-- The functions that have been registered by what has been initialised. -/
def exitHandlers (exportInitialized configInitialized logInitialized : Bool) : List ExitHandler :=
  (if exportInitialized then [.exportCleanup] else []) ++
    (if configInitialized then [.configCleanup] else []) ++
      (if logInitialized then [.logCleanup] else [])

namespace ProcessState

/-- **What is registered, and in which order**: the log comes first, then the configuration, then
the exporter.  The log is open, nothing has been released, and the strings are those of the file. -/
structure Ordered (env : ProcessEnv) (s : ProcessState) : Prop where
  handlers : s.handlers =
    exitHandlers s.exportInitialized s.configInitialized s.logInitialized
  exportLast : s.exportInitialized = true → s.configInitialized = true
  logFirst : s.configInitialized = true → s.logInitialized = true
  logOpen : s.logOpen = s.logInitialized
  lost : s.lost = false
  infoModel : s.infoModel = s.exportInitialized
  released : s.released = []
  unread : s.configInitialized = false → s.config = {}
  idle : s.exportInitialized = false → s.heap = {}
  strings : s.configInitialized = true → nvipfixConfigCleanup s.config =
    nvipfixConfigCleanup (nvipfixConfigRead env.stack env.file)

section Order

variable {env : ProcessEnv} {s : ProcessState}

/-- Writing a message initialises the log, and nothing else. -/
theorem Ordered.logMessage_eq (hs : s.Ordered env) : s.logMessage =
    { s with
      logInitialized := true
      logOpen := true
      handlers := exitHandlers s.exportInitialized s.configInitialized true } := by
  obtain ⟨li, ci, ei, handlers, lo, config, released, model, heap, lost⟩ := s
  have hhandlers := hs.handlers
  have hopen := hs.logOpen
  have hlost := hs.lost
  have hlast := hs.exportLast
  have hfirst := hs.logFirst
  dsimp only at hhandlers hopen hlost hlast hfirst
  subst hhandlers hopen hlost
  cases lo with
  | true => rfl
  | false =>
      cases ci with
      | true => cases hfirst rfl
      | false =>
          cases ei with
          | true => cases hlast rfl
          | false => rfl

theorem Ordered.logMessage (hs : s.Ordered env) : s.logMessage.Ordered env := by
  rw [hs.logMessage_eq]
  exact { hs with
    handlers := rfl
    logFirst := fun _ => rfl
    logOpen := rfl }

/-- The configuration is initialised behind the log. -/
theorem Ordered.configInit_of_unread (hs : s.Ordered env) (hunread : s.configInitialized = false) :
    s.configInit env =
      { s with
        logInitialized := true
        logOpen := true
        configInitialized := true
        config := nvipfixConfigRead env.stack env.file
        handlers := exitHandlers s.exportInitialized true true } := by
  have hexport : s.exportInitialized = false := by
    by_contra h
    rw [hs.exportLast (Bool.not_eq_false _ ▸ h)] at hunread
    cases hunread
  have hcleanup : s.configCleanup = s.logMessage := by
    have hreleased : nvipfixConfigCleanup {} = [] := rfl
    rw [configCleanup, hs.logMessage_eq]
    simp only [hs.unread hunread, hreleased, List.append_nil]
  rw [configInit, hunread, if_neg Bool.false_ne_true, hcleanup, configRead,
    hs.logMessage.logMessage_eq, hs.logMessage_eq, hexport, hunread]
  rfl

/-- Behind its initialisation, the configuration is that of the file. -/
theorem Ordered.configInit (hs : s.Ordered env) :
    (s.configInit env).Ordered env ∧ (s.configInit env).configInitialized = true ∧
      (s.configInit env).heap = s.heap ∧
      (s.configInitialized = true ∧ (s.configInit env).config = s.config ∨
        s.configInitialized = false ∧
          (s.configInit env).config = nvipfixConfigRead env.stack env.file) := by
  cases hread : s.configInitialized with
  | true =>
      rw [ProcessState.configInit, hread, if_pos rfl]
      exact ⟨hs, hread, rfl, .inl ⟨rfl, rfl⟩⟩
  | false =>
      rw [hs.configInit_of_unread hread]
      refine ⟨?_, rfl, rfl, .inr ⟨rfl, rfl⟩⟩
      exact { hs with
        handlers := rfl
        exportLast := fun _ => rfl
        logFirst := fun _ => rfl
        logOpen := rfl
        unread := fun h => by cases h
        strings := fun _ => rfl }

/-- The exporter is initialised behind the configuration. -/
theorem Ordered.exportInit (hs : s.Ordered env) (hread : s.configInitialized = true)
    (allocated : Bool) :
    (s.exportInit allocated).2.Ordered env ∧
      (s.exportInit allocated).2.configInitialized = true ∧
      (s.exportInit allocated).2.config = s.config ∧ (s.exportInit allocated).2.heap = s.heap ∧
      (s.exportInit allocated).1 = (s.exportInit allocated).2.exportInitialized := by
  rw [ProcessState.exportInit]
  cases hinit : s.exportInitialized with
  | true => exact ⟨hs, hread, rfl, rfl, hinit.symm⟩
  | false =>
      cases allocated with
      | false =>
          have hmessage := hs.logMessage
          simp only [Bool.false_eq_true, if_false, Bool.not_false, if_true]
          rw [hs.logMessage_eq] at hmessage ⊢
          exact ⟨hmessage, hread, rfl, rfl, hinit.symm⟩
      | true =>
          refine ⟨?_, hread, rfl, rfl, rfl⟩
          exact { hs with
            handlers := by
              have hhandlers := hs.handlers
              rw [hinit] at hhandlers
              exact congrArg (ExitHandler.exportCleanup :: ·) hhandlers
            exportLast := fun _ => hread
            infoModel := rfl
            idle := fun h => by cases h }

/-- Objects that are made when the exporter has been initialised. -/
theorem Ordered.setHeap (hs : s.Ordered env) {heap : ExportHeap}
    (hidle : s.exportInitialized = false → heap = s.heap) :
    Ordered env { s with heap := heap } :=
  { hs with idle := fun h => (hidle h).trans (hs.idle h) }

/-- A pass over the list depends on the outcomes of its calls only. -/
theorem mainExportLoop_congr (round : ExportRound) (data : List DataRecord)
    (outcomes outcomes' : ℕ → ExportOutcomes) {i : ℕ}
    (houtcomes : ∀ j, i ≤ j → outcomes j = outcomes' j) (collectors : List CollectorInfo)
    (h : ExportHeap) :
    NvIpfix.mainExportLoop { round with outcomes } data i collectors h =
      NvIpfix.mainExportLoop { round with outcomes := outcomes' } data i collectors h := by
  induction collectors generalizing i h with
  | nil => rfl
  | cons collector collectors ih =>
      have hargs : mainExportArgs { round with outcomes } data collector =
        mainExportArgs { round with outcomes := outcomes' } data collector := rfl
      simp only [NvIpfix.mainExportLoop, houtcomes i le_rfl, hargs,
        ih fun j hj => houtcomes j (Nat.le_of_succ_le hj)]

/-- The outcomes of a pass, apart from whether the exporter has been initialised. -/
def SameOutcomes (outcomes outcomes' : ℕ → ExportOutcomes) : Prop :=
  ∀ j, ∃ initialized, outcomes' j = { outcomes j with exportInit := initialized }

/-- **A pass over the list of a process** is a pass over the list, with what the initialisation of
the exporter comes to. -/
theorem Ordered.mainExportLoop (models : ℕ → Bool) (round : ExportRound) (data : List DataRecord)
    (i : ℕ) (collectors : List CollectorInfo) (hs : s.Ordered env)
    (hread : s.configInitialized = true) :
    ∃ outcomes, SameOutcomes round.outcomes outcomes ∧
      (s.mainExportLoop models round data i collectors).2.Ordered env ∧
      (s.mainExportLoop models round data i collectors).2.configInitialized = true ∧
      (s.mainExportLoop models round data i collectors).2.config = s.config ∧
      (NvIpfix.mainExportLoop { round with outcomes } data i collectors s.heap).2 =
        { collectors := (s.mainExportLoop models round data i collectors).1
          heap := (s.mainExportLoop models round data i collectors).2.heap } := by
  induction collectors generalizing i s with
  | nil =>
      exact ⟨round.outcomes, fun j => ⟨(round.outcomes j).exportInit, rfl⟩, hs, hread, rfl, rfl⟩
  | cons collector collectors ih =>
      have hmessage := hs.logMessage
      have hsame : s.logMessage.configInitialized = s.configInitialized ∧
          s.logMessage.config = s.config ∧ s.logMessage.heap = s.heap := by
        rw [hs.logMessage_eq]
        exact ⟨rfl, rfl, rfl⟩
      obtain ⟨hinit, hread', hconfig, hheap, hinitialized⟩ :=
        hmessage.exportInit (hsame.1.trans hread) (models i)
      rw [hsame.2.1] at hconfig
      rw [hsame.2.2] at hheap
      simp only [ProcessState.mainExportLoop]
      generalize s.logMessage.exportInit (models i) = opened at *
      obtain ⟨initialized, s₁⟩ := opened
      obtain rfl : initialized = s₁.exportInitialized := hinitialized
      dsimp only at hinit hread' hconfig hheap ⊢
      rw [hheap]
      have hidle : s₁.exportInitialized = false →
          (nvipfixExport { round.outcomes i with exportInit := s₁.exportInitialized }
            round.calendar (mainExportArgs round data collector) collector.ctx s.heap).2.2 =
              s₁.heap := by
        intro h
        rw [h, hheap]
        rfl
      have hnext := hinit.setHeap hidle
      generalize hexport : nvipfixExport
        { round.outcomes i with exportInit := s₁.exportInitialized } round.calendar
          (mainExportArgs round data collector) collector.ctx s.heap = exported at *
      obtain ⟨code, ctx, heap⟩ := exported
      obtain ⟨outcomes, hout, hordered, hread'', hconfig', heq⟩ := ih (i + 1) hnext hread'
      refine ⟨Function.update outcomes i
        { round.outcomes i with exportInit := s₁.exportInitialized }, fun j => ?_, hordered,
          hread'', hconfig'.trans hconfig, ?_⟩
      · by_cases hj : j = i
        · subst hj
          exact ⟨s₁.exportInitialized, Function.update_self ..⟩
        · rw [Function.update_of_ne hj]
          exact hout j
      · have hcongr := mainExportLoop_congr round data (Function.update outcomes i
            { round.outcomes i with exportInit := s₁.exportInitialized }) outcomes
          (fun j (hj : i + 1 ≤ j) => Function.update_of_ne (Nat.ne_of_gt hj) _ outcomes) collectors
          heap
        have hargs : ∀ outcomes, mainExportArgs { round with outcomes } data collector =
          mainExportArgs round data collector := fun _ => rfl
        simp only [NvIpfix.mainExportLoop, Function.update_self, hcongr, hargs, hexport, heq]

end Order

end ProcessState

/-! ### Runs -/

/-- An export whose calls take no path releasing a context. -/
def ProcessCall.Settles : ProcessCall → Prop
  | .mainExport _ round => ∀ j, (round.outcomes j).setUp ∧ (round.outcomes j).templates
  | _ => True

/-- The clean-up of the configuration does not read the contexts. -/
theorem nvipfixConfigCleanup_congr {config : ConfigState} {collectors : List CollectorInfo}
    (h : collectors.map MainState.destination = config.collectors.map MainState.destination) :
    nvipfixConfigCleanup { config with collectors := collectors } =
      nvipfixConfigCleanup config := by
  have haddresses : ∀ collectors : List CollectorInfo,
      collectors.flatMap CollectorInfo.addresses =
        (collectors.map MainState.destination).flatMap CollectorInfo.addresses := by
    intro collectors
    rw [List.flatMap_map]
    rfl
  rw [nvipfixConfigCleanup, nvipfixConfigCleanup, haddresses, h, ← haddresses]

namespace ProcessState

/-- The state between calls: what is registered, and the collectors with their objects. -/
structure Tidy (env : ProcessEnv) (s : ProcessState) : Prop where
  ordered : s.Ordered env
  feeds : ∃ feeds, MainState.Feeds feeds { collectors := s.config.collectors, heap := s.heap }

section Runs

variable {env : ProcessEnv} {s : ProcessState}

theorem tidy_start (env : ProcessEnv) : Tidy env {} where
  ordered :=
    { handlers := rfl, exportLast := id, logFirst := id, logOpen := rfl, lost := rfl,
      infoModel := rfl, released := rfl, unread := fun _ => rfl, idle := fun _ => rfl,
      strings := fun h => by cases h }
  feeds := ⟨fun _ => [], MainState.feeds_start (by simp)⟩

theorem Tidy.logMessage (hs : s.Tidy env) : s.logMessage.Tidy env := by
  refine ⟨hs.ordered.logMessage, ?_⟩
  rw [hs.ordered.logMessage_eq]
  exact hs.feeds

theorem Tidy.configInit (hs : s.Tidy env) :
    (s.configInit env).Tidy env ∧ (s.configInit env).configInitialized = true := by
  obtain ⟨hordered, hread, hheap, hconfig⟩ := hs.ordered.configInit
  refine ⟨⟨hordered, ?_⟩, hread⟩
  rw [hheap]
  rcases hconfig with ⟨-, hconfig⟩ | ⟨hunread, hconfig⟩
  · rw [hconfig]
    exact hs.feeds
  · have hidle : s.exportInitialized = false := by
      by_contra h
      rw [hs.ordered.exportLast (Bool.not_eq_false _ ▸ h)] at hunread
      cases hunread
    rw [hconfig, hs.ordered.idle hidle]
    exact ⟨fun _ => [], MainState.feeds_start (nvipfixConfigRead_ctx env.stack env.file)⟩

/-- The list with its contexts is stored behind a pass. -/
theorem Ordered.setMain (hs : s.Ordered env) (hread : s.configInitialized = true)
    {collectors : List CollectorInfo}
    (h : collectors.map MainState.destination = s.config.collectors.map MainState.destination) :
    (s.setMain collectors s.heap).Ordered env :=
  { hs with
    unread := fun hunread => by cases hread.symm.trans hunread
    strings := fun _ => (nvipfixConfigCleanup_congr h).trans (hs.strings hread) }

/-- An export. -/
theorem Tidy.mainExport (hs : s.Tidy env) (models : ℕ → Bool) (round : ExportRound)
    (hround : ∀ j, (round.outcomes j).setUp ∧ (round.outcomes j).templates) :
    (s.mainExport env models round).Tidy env := by
  obtain ⟨hinit, hread⟩ := hs.configInit
  simp only [ProcessState.mainExport]
  generalize s.configInit env = s₁ at hinit hread ⊢
  cases hdata : round.data with
  | none => exact hinit.logMessage
  | some data =>
      dsimp only
      have hwarned : (if s₁.config.collectors.isEmpty then s₁.logMessage else s₁).Tidy env ∧
          (if s₁.config.collectors.isEmpty then
            s₁.logMessage else s₁).configInitialized = true := by
        split
        · refine ⟨hinit.logMessage, ?_⟩
          rw [hinit.ordered.logMessage_eq]
          exact hread
        · exact ⟨hinit, hread⟩
      generalize (if s₁.config.collectors.isEmpty then s₁.logMessage else s₁) = s₂ at hwarned ⊢
      obtain ⟨hs₂, hread₂⟩ := hwarned
      obtain ⟨outcomes, hout, hordered, hread₃, hconfig, heq⟩ :=
        hs₂.ordered.mainExportLoop models round data 0 s₂.config.collectors hread₂
      obtain ⟨feeds, hfeeds⟩ := hs₂.feeds
      have hdestination := MainState.mainExportLoop_collectors { round with outcomes } data 0
        s₂.config.collectors s₂.heap
      have hdata' : ({ round with outcomes } : ExportRound).data = some data := hdata
      obtain ⟨feeds', hfeeds', -⟩ := hfeeds.round hdata' fun j collector _ => by
        obtain ⟨initialized, hj⟩ := hout j
        have hsetUp : (outcomes j).setUp = true := by
          rw [hj]
          exact (hround j).1
        have htemplates : (outcomes j).templates = true := by
          rw [hj]
          exact (hround j).2
        simp [feedSettles, mainExportCall, hsetUp, htemplates]
      have hmain : (nvipfixMainExport { collectors := s₂.config.collectors, heap := s₂.heap }
          { round with outcomes }).2 =
            (NvIpfix.mainExportLoop { round with outcomes } data 0 s₂.config.collectors
              s₂.heap).2 := by
        simp only [nvipfixMainExport, hdata]
      rw [hmain, heq] at hfeeds'
      rw [heq] at hdestination
      refine ⟨hordered.setMain hread₃ ?_, feeds', hfeeds'⟩
      rw [hconfig]
      exact hdestination

/-- **Every call keeps the order.** -/
theorem Tidy.call (hs : s.Tidy env) {c : ProcessCall} (hc : c.Settles) :
    (s.call env c).Tidy env := by
  cases c with
  | log => exact hs.logMessage
  | config => exact hs.configInit.1
  | mainExport models round => exact hs.mainExport models round hc

theorem Tidy.run (hs : s.Tidy env) {calls : List ProcessCall} (hcalls : ∀ c ∈ calls, c.Settles) :
    (s.run env calls).Tidy env := by
  induction calls generalizing s with
  | nil => exact hs
  | cons c calls ih =>
      exact ih (hs.call (hcalls c List.mem_cons_self)) fun c hc =>
        hcalls c (List.mem_cons_of_mem _ hc)

/-- A message to a log that is open. -/
theorem logMessage_of_open (hinit : s.logInitialized = true) (hopen : s.logOpen = true) :
    s.logMessage = s := by
  cases s
  dsimp only at hinit hopen
  subst hinit hopen
  simp [ProcessState.logMessage, logInit]

/-- The clean-up of the configuration, while the log is open. -/
theorem configCleanup_of_open (hinit : s.logInitialized = true) (hopen : s.logOpen = true) :
    s.configCleanup.released = s.released ++ nvipfixConfigCleanup s.config ∧
      s.configCleanup.config.collectors = [] ∧ s.configCleanup.handlers = s.handlers ∧
      s.configCleanup.heap = s.heap ∧ s.configCleanup.infoModel = s.infoModel ∧
      s.configCleanup.lost = s.lost := by
  rw [configCleanup, logMessage_of_open hinit hopen]
  exact ⟨rfl, rfl, rfl, rfl, rfl, rfl⟩

/-- The end, while nothing is left. -/
theorem exit_nil (hhandlers : s.handlers = []) (hopen : s.logOpen = false) (fuel : ℕ) :
    exit env (fuel + 1) s = { s with handlers := [], logOpen := false } := by
  cases s
  dsimp only at hhandlers hopen
  subst hhandlers hopen
  rfl

/-- The end, while the clean-up of the log is left. -/
theorem exit_log (hhandlers : s.handlers = [.logCleanup]) (fuel : ℕ) :
    exit env (fuel + 2) s = { s with handlers := [], logOpen := false } := by
  rw [exit, hhandlers]
  exact exit_nil rfl rfl fuel

/-- The end, while the clean-ups of the configuration and of the log are left. -/
theorem exit_config (hhandlers : s.handlers = [.configCleanup, .logCleanup])
    (hinit : s.logInitialized = true) (hopen : s.logOpen = true) (fuel : ℕ) :
    let ended := exit env (fuel + 2) s
    ended.released = s.released ++ nvipfixConfigCleanup s.config ∧
      ended.config.collectors = [] ∧ ended.handlers = [] ∧ ended.heap = s.heap ∧
      ended.infoModel = s.infoModel ∧ ended.lost = s.lost ∧ ended.logOpen = false := by
  obtain ⟨hreleased, hcollectors, hrest, hheap, hmodel, hlost⟩ :=
    @configCleanup_of_open { s with handlers := [.logCleanup] } hinit hopen
  have hended : exit env (fuel + 2) s =
      { ({ s with handlers := [.logCleanup] } : ProcessState).configCleanup with
        handlers := [], logOpen := false } := by
    simp only [exit, hhandlers, handle, hrest]
    cases fuel <;> rfl
  rw [hended]
  exact ⟨hreleased, hcollectors, rfl, hheap, hmodel, hlost, rfl⟩

/-- The objects of the list, behind its clean-up. -/
theorem Tidy.exportCleanup (hs : s.Tidy env) :
    (NvIpfix.exportCleanup s.config.collectors s.heap).fault = false ∧
      ∀ part x, (NvIpfix.exportCleanup s.config.collectors s.heap).live part x = false := by
  obtain ⟨feeds, hfeeds⟩ := hs.feeds
  obtain ⟨owner, hsep⟩ := hfeeds.separate
  obtain ⟨hfault, hdead, -⟩ := exportCleanup_spec s.config.collectors hsep (fun info hmem => by
    obtain ⟨j, hj⟩ := List.mem_iff_getElem?.1 hmem
    exact (hfeeds.fed j info hj).contextLive) hfeeds.kept
  exact ⟨hfault.trans hfeeds.fault, hdead⟩

/-- **Behind any calls, the end releases everything in order**, and each thing once, if no export
takes a path releasing a context: the objects of all contexts, while the list is there, then the
list and the strings of the configuration, while the log is open, and then the log. -/
theorem processRun_exit (env : ProcessEnv) {calls : List ProcessCall}
    (hcalls : ∀ c ∈ calls, c.Settles) :
    let s := ({} : ProcessState).run env calls
    let ended := exit env 3 s
    s.handlers = exitHandlers s.exportInitialized s.configInitialized s.logInitialized ∧
      ended.handlers = [] ∧ ended.lost = false ∧ ended.logOpen = false ∧
      ended.infoModel = false ∧ ended.heap.fault = false ∧
      (∀ part x, ended.heap.live part x = false) ∧ ended.config.collectors = [] ∧
      ended.released = if s.configInitialized then
        nvipfixConfigCleanup (nvipfixConfigRead env.stack env.file) else [] := by
  intro s ended
  have hs : s.Tidy env := (tidy_start env).run hcalls
  obtain ⟨hfault, hdead⟩ := hs.exportCleanup
  have hempty : ∀ part x, ({} : ExportHeap).live part x = false := by
    intro part x
    cases part <;> rfl
  have hordered := hs.ordered
  have hhandlers := hordered.handlers
  have hopen := hordered.logOpen
  have hmodel := hordered.infoModel
  refine ⟨hhandlers, ?_⟩
  cases hread : s.configInitialized with
  | false =>
      -- at most the log has been used
      have hexport : s.exportInitialized = false := by
        by_contra h
        cases hread.symm.trans (hordered.exportLast (Bool.not_eq_false _ ▸ h))
      rw [hexport, hread] at hhandlers
      rw [hexport] at hmodel
      have hended : ended = { s with handlers := [], logOpen := false } := by
        rcases Bool.eq_false_or_eq_true s.logInitialized with hlog | hlog
        · rw [hlog] at hhandlers
          exact exit_log hhandlers 1
        · rw [hlog] at hhandlers hopen
          exact exit_nil hhandlers hopen 2
      rw [hended]
      refine ⟨rfl, hordered.lost, rfl, hmodel, ?_, ?_, ?_, hordered.released⟩
      · rw [hordered.idle hexport]
      · rw [hordered.idle hexport]
        exact hempty
      · rw [hordered.unread hread]
  | true =>
      have hlog := hordered.logFirst hread
      rw [hlog] at hopen
      rw [hread, hlog] at hhandlers
      cases hexport : s.exportInitialized with
      | false =>
          rw [hexport] at hhandlers hmodel
          obtain ⟨hreleased, hcollectors, hnil, hheap, hmodel', hlost, hclosed⟩ :=
            @exit_config env s hhandlers hlog hopen 1
          refine ⟨hnil, hlost.trans hordered.lost, hclosed, hmodel'.trans hmodel, ?_, ?_,
            hcollectors, ?_⟩
          · rw [hheap, hordered.idle hexport]
          · rw [hheap, hordered.idle hexport]
            exact hempty
          · rw [hreleased, hordered.released, hordered.strings hread]
            rfl
      | true =>
          rw [hexport] at hhandlers
          -- the clean-up of the exporter finds the list
          have hfirst : ended = exit env 2 { s with
              handlers := [.configCleanup, .logCleanup]
              heap := NvIpfix.exportCleanup s.config.collectors s.heap
              infoModel := false } := by
            change exit env (2 + 1) s = _
            rw [exit, hhandlers]
            have hinit : ({ s with
                handlers := [.configCleanup, .logCleanup] } : ProcessState).configInit env =
                  { s with handlers := [.configCleanup, .logCleanup] } := by
              rw [ProcessState.configInit, if_pos hread]
            change exit env 2 (ProcessState.exportCleanup env _) = _
            rw [ProcessState.exportCleanup]
            exact congrArg (fun t : ProcessState => exit env 2 { t with
              heap := NvIpfix.exportCleanup t.config.collectors t.heap
              infoModel := false }) hinit
          obtain ⟨hreleased, hcollectors, hnil, hheap, hmodel', hlost, hclosed⟩ :=
            @exit_config env { s with
              handlers := [.configCleanup, .logCleanup]
              heap := NvIpfix.exportCleanup s.config.collectors s.heap
              infoModel := false } rfl hlog hopen 0
          rw [hfirst]
          refine ⟨hnil, hlost.trans hordered.lost, hclosed, hmodel', ?_, ?_, hcollectors, ?_⟩
          · rw [hheap]
            exact hfault
          · rw [hheap]
            exact hdead
          · rw [hreleased, hordered.released, hordered.strings hread]
            rfl

/-- A message, then an export to the collector of the file, and another without its records. -/
theorem processRun_exit_twoExports :
    let env : ProcessEnv := ⟨some (ascii "collector a\n\x7b\n\tcollector-hostname b\n\x7d\n"), {}⟩
    let round : ExportRound :=
      { outcomes := fun _ => {}, calendar := .epoch, data := some [{}], startTs := {}, endTs := {} }
    let calls : List ProcessCall :=
      [.log, .mainExport (fun _ => true) round,
       .mainExport (fun _ => true) { round with data := none }]
    let s := ({} : ProcessState).run env calls
    let ended := exit env 3 s
    s.handlers = exitHandlers s.exportInitialized s.configInitialized s.logInitialized ∧
      ended.handlers = [] ∧ ended.lost = false ∧ ended.logOpen = false ∧
      ended.infoModel = false ∧ ended.heap.fault = false ∧
      (∀ part x, ended.heap.live part x = false) ∧ ended.config.collectors = [] ∧
      ended.released = if s.configInitialized then
        nvipfixConfigCleanup (nvipfixConfigRead env.stack env.file) else [] := by
  intro env round calls
  refine processRun_exit env fun c hc => ?_
  simp only [calls, List.mem_cons, List.not_mem_nil, or_false] at hc
  rcases hc with rfl | rfl | rfl
  · trivial
  · exact fun _ => ⟨rfl, rfl⟩
  · exact fun _ => ⟨rfl, rfl⟩

end Runs

end ProcessState

end NvIpfix
