/-
**What actions leave of the values.**

A variable holds the last value that it has been given.  The list grows by one collector at every
closing brace that finds a struct with a host or an address, and never shrinks; whether it finds one
is a matter of the actions too.

Main definitions:

* `NvIpfix.Reach`, `NvIpfix.Reach.next` — whether the struct has a host and an address;
* `NvIpfix.closings` — the number of collectors that actions put in the list;
* `NvIpfix.valueGiven`, `NvIpfix.intervalGiven` — the values that actions give;
* `NvIpfix.ConfigData.Unmoved` — the actions that change neither the variables nor the list.

Main results:

* `NvIpfix.run_values`, `NvIpfix.run_exportInterval`, `NvIpfix.run_collectors` — what a run leaves;
* `NvIpfix.run_view_eq_iff` — **the actions that change nothing**.
-/

import NvIpfix.BracedValue
import NvIpfix.ConfigActions

set_option relaxedAutoImplicit false
set_option autoImplicit false

namespace NvIpfix

/-! ### The list -/

/-- Whether the struct has a host and an address. -/
structure Reach where
  host : Bool := false
  address : Bool := false
  deriving DecidableEq, Repr

/-- Whether the struct is put in the list at a closing brace. -/
def Reach.listed (r : Reach) : Bool := r.host || r.address

/-- Whether the struct has a host and an address behind an action. -/
def Reach.next (r : Reach) : ConfigAction → Reach
  | .zero => {}
  | .store .host _ => { r with host := true }
  | .store .ipAddress value =>
      { r with address := (isAddress (ascii ".") addressOctetsCountIpv4 value).getD r.address }
  | _ => r

/-- Whether the struct of these values has a host and an address. -/
def ConfigData.reach (d : ConfigData) : Reach where
  host := d.collector.host.isSome
  address := d.collector.ipAddress.hasValue

/-- The number of collectors that actions put in the list. -/
def closings : Reach → List ConfigAction → ℕ
  | _, [] => 0
  | r, action :: actions =>
      (if action = .close ∧ r.listed then 1 else 0) + closings (r.next action) actions

section Values

variable (d : ConfigData)

theorem reach_listed_iff :
    d.reach.listed ↔ d.collector.host ≠ none ∨ d.collector.ipAddress.hasValue := by
  simp [ConfigData.reach, Reach.listed, Option.isSome_iff_ne_none]

theorem close_of_listed (h : d.reach.listed) : d.close =
    { view := { d.view with collectors := d.collector.withDefaults :: d.view.collectors }
      collector := d.collector.withDefaults } := if_pos ((reach_listed_iff d).1 h)

theorem close_of_not_listed (h : ¬ d.reach.listed) : d.close = d :=
  if_neg (mt (reach_listed_iff d).2 h)

/-- A closing brace puts the struct in the list with its defaults, or does nothing. -/
theorem close_cases {motive : ConfigData → Prop} (same : motive d)
    (listed : motive
      { view := { d.view with collectors := d.collector.withDefaults :: d.view.collectors }
        collector := d.collector.withDefaults }) : motive d.close := by
  by_cases h : d.reach.listed
  · rw [close_of_listed d h]
    exact listed
  · rw [close_of_not_listed d h]
    exact same

theorem reach_act (action : ConfigAction) : (d.act action).reach = d.reach.next action := by
  cases action with
  | zero => rfl
  | close => exact close_cases d (motive := fun e => e.reach = d.reach) rfl rfl
  | store field value =>
      cases field <;> try rfl
      exact congrArg (Reach.mk _) (hasValue_parseIpAddress value _)

/-- A store leaves the list. -/
theorem store_collectors (value : CString) (field : ConfigField) :
    (d.store value field).view.collectors = d.view.collectors := by
  cases field <;> rfl

/-- **The list grows at its head**, by as many collectors as there are closings. -/
theorem run_collectors (actions : List ConfigAction) : ∃ listed,
    (d.run actions).view.collectors = listed ++ d.view.collectors ∧
      listed.length = closings d.reach actions := by
  induction actions generalizing d with
  | nil => exact ⟨[], rfl, rfl⟩
  | cons action actions ih =>
      obtain ⟨listed, hlist, hlen⟩ := ih (d.act action)
      rw [reach_act] at hlen
      rw [ConfigData.run_cons, closings]
      cases action with
      | zero => exact ⟨listed, hlist, by simpa using hlen⟩
      | store field value =>
          rw [ConfigData.act, store_collectors] at hlist
          exact ⟨listed, hlist, by simpa using hlen⟩
      | close =>
          by_cases h : d.reach.listed
          · rw [ConfigData.act, close_of_listed d h] at hlist
            refine ⟨listed ++ [d.collector.withDefaults], ?_, ?_⟩
            · rw [ConfigData.act, close_of_listed d h, hlist, List.append_assoc]
              rfl
            · rw [List.length_append, hlen, if_pos ⟨rfl, h⟩, Nat.add_comm]
              rfl
          · rw [ConfigData.act, close_of_not_listed d h] at hlist
            refine ⟨listed, by rw [ConfigData.act, close_of_not_listed d h, hlist], ?_⟩
            rw [hlen, if_neg fun hclose => h hclose.2, Nat.zero_add]

/-! ### Variables -/

/-- The value that an action gives to a variable. -/
def valueGiven (v : ConfigVariable) : ConfigAction → Option CString
  | .store field value => if field = v.field then some value else none
  | _ => none

/-- The duration that a value is, if it is one. -/
def timespanOf (value : CString) : Option Timespan :=
  match stringSplit value (ascii ":") with
  | some [hours, minutes, seconds] =>
      some (timespanSetSeconds
        (CNumeral.atoi hours * 60 * 60 + CNumeral.atoi minutes * 60 + CNumeral.atoi seconds))
  | _ => none

/-- The duration that an action gives to the export interval. -/
def intervalGiven : ConfigAction → Option Timespan
  | .store .exportInterval value => timespanOf value
  | _ => none

theorem parseTimespan_eq (value : CString) (old : Timespan) :
    (parseTimespan value old).2 = (timespanOf value).getD old := by
  rw [parseTimespan, timespanOf]
  rcases stringSplit value (ascii ":") with
    _ | _ | ⟨hours, _ | ⟨minutes, _ | ⟨seconds, _ | ⟨piece, pieces⟩⟩⟩⟩ <;> rfl

theorem setValue_values (v w : ConfigVariable) (value : CString) :
    (d.setValue v value).view.values w = if v = w then some value else d.view.values w := by
  by_cases h : v = w
  · rw [if_pos h, ← h]
    exact Function.update_self v (some value) d.view.values
  · rw [if_neg h]
    exact Function.update_of_ne (Ne.symm h) (some value) d.view.values

theorem act_values (action : ConfigAction) (v : ConfigVariable) :
    (d.act action).view.values v = (valueGiven v action).or (d.view.values v) := by
  cases action with
  | zero => rfl
  | close => exact close_cases d (motive := fun e => e.view.values v = d.view.values v) rfl rfl
  | store field value =>
      cases field <;> cases v <;> rfl

theorem act_exportInterval (action : ConfigAction) : (d.act action).view.exportInterval =
    (intervalGiven action).getD d.view.exportInterval := by
  cases action with
  | zero => rfl
  | close =>
      exact close_cases d (motive := fun e => e.view.exportInterval = d.view.exportInterval) rfl rfl
  | store field value =>
      cases field <;> try rfl
      exact parseTimespan_eq value _

/-- **A variable holds the last value that it has been given.** -/
theorem run_values (actions : List ConfigAction) (v : ConfigVariable) :
    (d.run actions).view.values v =
      (actions.filterMap (valueGiven v)).getLast?.or (d.view.values v) :=
  Tokens.read_foldl_eq_or (fun d : ConfigData => d.view.values v)
    (fun d action => act_values d action v) actions d

theorem run_exportInterval (actions : List ConfigAction) : (d.run actions).view.exportInterval =
    (actions.filterMap intervalGiven).getLast?.getD d.view.exportInterval :=
  Tokens.read_foldl_eq (fun d : ConfigData => d.view.exportInterval)
    (fun d action => act_exportInterval d action) actions d

/-! ### Actions that change nothing -/

/-- Neither the variables nor the list change: no struct is put in the list, and what is given last
to a variable is what it holds. -/
structure ConfigData.Unmoved (actions : List ConfigAction) : Prop where
  values : ∀ v, ∀ value ∈ (actions.filterMap (valueGiven v)).getLast?,
    d.view.values v = some value
  exportInterval : ∀ timespan ∈ (actions.filterMap intervalGiven).getLast?,
    d.view.exportInterval = timespan
  collectors : closings d.reach actions = 0

theorem or_eq_right_iff {α : Type*} {a b : Option α} : a.or b = b ↔ ∀ x ∈ a, b = some x := by
  cases a with
  | none => simp
  | some a => simp [eq_comm]

theorem getD_eq_right_iff {α : Type*} {a : Option α} {b : α} :
    a.getD b = b ↔ ∀ x ∈ a, b = x := by
  cases a with
  | none => simp
  | some a => simp [eq_comm]

/-- **The actions that change nothing.** -/
theorem run_view_eq_iff (actions : List ConfigAction) :
    (d.run actions).view = d.view ↔ d.Unmoved actions := by
  obtain ⟨listed, hlist, hlen⟩ := run_collectors d actions
  constructor
  · intro h
    refine ⟨fun v => ?_, ?_, ?_⟩
    · rw [← or_eq_right_iff, ← run_values, h]
    · rw [← getD_eq_right_iff, ← run_exportInterval, h]
    · rw [h] at hlist
      rw [← hlen, List.self_eq_append_left.1 hlist]
      rfl
  · rintro ⟨hvalues, hinterval, hcollectors⟩
    refine ConfigView.ext (funext fun v => ?_) ?_ ?_
    · rw [run_values, or_eq_right_iff]
      exact hvalues v
    · rw [run_exportInterval, getD_eq_right_iff]
      exact hinterval
    · rw [hcollectors, List.length_eq_zero_iff] at hlen
      rw [hlist, hlen, List.nil_append]

end Values

end NvIpfix
