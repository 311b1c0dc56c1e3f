/-
**A session with the switch.**

`nvipfix_import_nvc` opens a session with the switch, asks for the connections of the last seconds
and closes what it has opened.  Each call can fail, and a failure leads to the label behind which
everything that has been opened so far is closed.  The query hands its connections to a handler, one
after the other, and may fail after that; the records are the result all the same.

The interface of the switch is not part of the sources.  What its calls return, and the connections
that it hands over, are the environment.

Main definitions:

* `NvIpfix.NvcCall`, `NvIpfix.NvcOutcomes` — the calls, and what comes of them;
* `NvIpfix.nvipfixImportNvcIn` — the import, with its calls;
* `NvIpfix.NvcPhase` — what a session may do next.

Main results:

* `NvIpfix.nvipfixImportNvcIn_closed` — **whatever fails, everything that is opened is closed**;
* `NvIpfix.nvipfixImportNvcIn_collected` — **the result is the list of what has been handed over**.
-/

import NvIpfix.DataOwnership
import NvIpfix.NvcImport
import NvIpfix.Polling

set_option relaxedAutoImplicit false
set_option autoImplicit false

namespace NvIpfix

/-! ### Calls -/

/-- The calls of the interface of the switch, each with whether it has succeeded. -/
inductive NvcCall
  | initNet (host : CString)
  | init
  | connect (succeeds : Bool)
  | authenticate (login password : CString) (succeeds : Bool)
  | checkUid (succeeds : Bool)
  | showConnStat (query : NvcQuery) (succeeds : Bool)
  | logout
  | disconnect
  | done

/-- What a call with a result returns: its error number, and whether the status of the result is
`nvOS_SUCCESS`. -/
structure NvcReply where
  error : Int32 := 0
  isSuccess : Bool := true

/-- Neither of the two checks behind a call raises an error. -/
def NvcReply.succeeds (reply : NvcReply) : Bool := reply.isSuccess && reply.error == 0

/-- What comes of the calls of one import, and the connections that the query hands to its
handler. -/
structure NvcOutcomes where
  connect : Int32 := 0
  identify : NvcReply := {}
  connStat : NvcReply := {}
  connections : List NvcConn := []

/-- The arguments of an import, and the instant of its query. -/
structure NvcArgs where
  host : Option CString
  login : Option CString
  password : Option CString
  startTs : Datetime
  endTs : Datetime
  withinLast : Int32
  instant : ℤ

/-- The labels of the error paths. -/
inductive NvcLabel
  | connStat
  | auth
  | connect
  deriving DecidableEq, Repr

/-- The error paths, from a label on; the way without errors goes through all of them. -/
def nvcErrorPath : NvcLabel → List NvcCall
  | .connStat => [.logout, .disconnect, .done]
  | .auth => [.disconnect, .done]
  | .connect => [.done]

/-- The call that prepares the session. -/
def nvcInit (args : NvcArgs) : NvcCall :=
  match args.host with
  | some host => .initNet host
  | none => .init

/-- The call that says who asks: with a name and a password, or as the user of the process. -/
def nvcIdentify (o : NvcOutcomes) (args : NvcArgs) : NvcCall :=
  match args.login, args.password with
  | some login, some password => .authenticate login password o.identify.succeeds
  | _, _ => .checkUid o.identify.succeeds

/-- The query. -/
def NvcArgs.query (args : NvcArgs) : NvcQuery :=
  nvipfixImportNvc args.startTs args.endTs args.withinLast args.instant

/-- `nvipfix_import_conn_stat_handler`, with the list that its argument points to. -/
def importConnStatHandlerIn (mallocs : ℕ → Bool) (calendar : Calendar)
    (state : Option ℕ × DataHeap) (connStat : NvcConn) : Option ℕ × DataHeap :=
  dataListCollect mallocs (connStatRecord calendar connStat) state

/-- `nvipfix_import_nvc`: the list, the memory of records, and the calls. -/
def nvipfixImportNvcIn (mallocs : ℕ → Bool) (calendar : Calendar) (o : NvcOutcomes)
    (args : NvcArgs) (d : DataHeap) : (Option ℕ × DataHeap) × List NvcCall :=
  if o.connect ≠ 0 then
    ((none, d), nvcInit args :: .connect false :: nvcErrorPath .connect)
  else if !o.identify.succeeds then
    ((none, d), nvcInit args :: .connect true :: nvcIdentify o args :: nvcErrorPath .auth)
  else
    (o.connections.foldl (importConnStatHandlerIn mallocs calendar) (none, d),
      nvcInit args :: .connect true :: nvcIdentify o args ::
        .showConnStat args.query o.connStat.succeeds :: nvcErrorPath .connStat)

/-! ### Sessions -/

/-- How far a session is open. -/
inductive NvcPhase
  | closed
  | prepared
  | connected
  | identified
  deriving DecidableEq, Repr

/-- **What a session may do next**: everything is opened in its turn, used while it is open, and
closed in the opposite order. -/
def NvcPhase.step : NvcPhase → NvcCall → Option NvcPhase
  | closed, .initNet _ => some prepared
  | closed, .init => some prepared
  | prepared, .connect succeeds => some (if succeeds then connected else prepared)
  | connected, .authenticate _ _ succeeds => some (if succeeds then identified else connected)
  | connected, .checkUid succeeds => some (if succeeds then identified else connected)
  | identified, .showConnStat _ _ => some identified
  | identified, .logout => some connected
  | connected, .disconnect => some prepared
  | prepared, .done => some closed
  | _, _ => none

/-- Calls in order, each of which the session may make. -/
def NvcPhase.run (phase : NvcPhase) (calls : List NvcCall) : Option NvcPhase :=
  calls.foldlM NvcPhase.step phase

section Session

variable {mallocs : ℕ → Bool} {calendar : Calendar} {o : NvcOutcomes} {args : NvcArgs}
  {d : DataHeap}

theorem NvcPhase.run_append (phase : NvcPhase) (calls calls' : List NvcCall) :
    phase.run (calls ++ calls') = (phase.run calls).bind fun phase => phase.run calls' :=
  List.foldlM_append

/-- One call that the session may make, and the calls behind it. -/
theorem NvcPhase.run_cons {phase phase' : NvcPhase} {call : NvcCall}
    (hstep : phase.step call = some phase') (calls : List NvcCall) :
    phase.run (call :: calls) = phase'.run calls := by
  rw [NvcPhase.run, List.foldlM_cons, hstep]
  rfl

theorem step_nvcInit (args : NvcArgs) :
    NvcPhase.closed.step (nvcInit args) = some .prepared := by
  rw [nvcInit]
  cases args.host <;> rfl

theorem step_nvcIdentify (o : NvcOutcomes) (args : NvcArgs) :
    NvcPhase.connected.step (nvcIdentify o args) =
      some (if o.identify.succeeds then .identified else .connected) := by
  rw [nvcIdentify]
  cases args.login <;> cases args.password <;> rfl

/-- **Whatever fails, everything that is opened is closed**, in the opposite order. -/
theorem nvipfixImportNvcIn_closed (mallocs : ℕ → Bool) (calendar : Calendar) (o : NvcOutcomes)
    (args : NvcArgs) (d : DataHeap) :
    NvcPhase.closed.run (nvipfixImportNvcIn mallocs calendar o args d).2 = some .closed := by
  have hidentified := step_nvcIdentify o args
  rw [nvipfixImportNvcIn]
  by_cases hconnect : o.connect = 0
  · rw [if_neg (not_not.2 hconnect)]
    have hconnected : NvcPhase.prepared.step (.connect true) = some .connected := rfl
    cases hidentify : o.identify.succeeds with
    | false =>
        rw [hidentify] at hidentified
        rw [Bool.not_false, if_pos rfl, NvcPhase.run_cons (step_nvcInit args),
          NvcPhase.run_cons hconnected, NvcPhase.run_cons hidentified]
        rfl
    | true =>
        rw [hidentify] at hidentified
        rw [Bool.not_true, if_neg Bool.false_ne_true, NvcPhase.run_cons (step_nvcInit args),
          NvcPhase.run_cons hconnected, NvcPhase.run_cons hidentified]
        rfl
  · rw [if_pos hconnect, NvcPhase.run_cons (step_nvcInit args)]
    rfl

/-- The records that a session should end with. -/
def NvcOutcomes.records (o : NvcOutcomes) (calendar : Calendar) : Option (List DataRecord) :=
  if o.connect = 0 ∧ o.identify.succeeds ∧ o.connections ≠ [] then
    some (o.connections.map (connStatRecord calendar))
  else none

/-- The handler adds one record for each connection. -/
theorem foldl_importConnStatHandler (calendar : Calendar) (connections : List NvcConn)
    (list : Option (List DataRecord)) (hne : connections ≠ []) :
    connections.foldl (importConnStatHandler calendar) list =
      some (list.getD [] ++ connections.map (connStatRecord calendar)) := by
  induction connections generalizing list with
  | nil => exact absurd rfl hne
  | cons connStat connections ih =>
      rw [List.foldl_cons, importConnStatHandler, dataListAddCopy]
      cases connections with
      | nil => rfl
      | cons next connections =>
          rw [ih _ (List.cons_ne_nil _ _)]
          simp only [Option.getD_some, List.map_cons, List.append_assoc, List.singleton_append]

/-- The handler in memory. -/
theorem Collected.foldl_importConnStatHandlerIn {records : Option (List DataRecord)}
    {state : Option ℕ × DataHeap}
    (hstate : Collected mallocs (∀ n, mallocs n = true) d records state) (calendar : Calendar)
    (connections : List NvcConn) :
    Collected mallocs (∀ n, mallocs n = true) d
      (connections.foldl (importConnStatHandler calendar) records)
      (connections.foldl (importConnStatHandlerIn mallocs calendar) state) := by
  induction connections generalizing records state with
  | nil => exact hstate
  | cons connStat connections ih => exact ih (hstate.add id fun _ => rfl)

/-- **The result is the list of what has been handed over**: of all connections, though the query
may have failed, and of none, if there has not been a query. -/
theorem nvipfixImportNvcIn_collected (mallocs : ℕ → Bool) (calendar : Calendar) (o : NvcOutcomes)
    (args : NvcArgs) (hd : d.Fresh) :
    Collected mallocs (∀ n, mallocs n = true) d (o.records calendar)
      (nvipfixImportNvcIn mallocs calendar o args d).1 := by
  have hstart : Collected mallocs (∀ n, mallocs n = true) d none (none, d) := .start hd
  rw [nvipfixImportNvcIn, NvcOutcomes.records]
  by_cases hconnect : o.connect = 0
  · rw [if_neg (not_not.2 hconnect)]
    cases hidentify : o.identify.succeeds with
    | false =>
        simp only [Bool.false_eq_true, false_and, and_false, if_false, Bool.not_false, if_true]
        exact hstart
    | true =>
        simp only [hconnect, true_and, Bool.not_true, Bool.false_eq_true, if_false]
        have hfold := hstart.foldl_importConnStatHandlerIn calendar o.connections
        split
        next hne =>
          rwa [foldl_importConnStatHandler calendar _ _ hne] at hfold
        next hnil =>
          rw [not_not] at hnil
          rwa [hnil] at hfold ⊢
  · rw [if_pos hconnect, if_neg (fun h => hconnect h.1)]
    exact hstart

end Session

end NvIpfix
