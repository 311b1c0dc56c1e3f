/-
**A setting without its value.**

An empty token behind the name of a setting is read as its value.  Most parsers take it: a string
becomes empty, a number becomes zero.  Whether that is seen depends on what follows.  A variable is
seen at the end of the file, and a field of the struct at a closing brace that puts the struct in
the list; before that, another value, and for a field of the struct another block, covers it.

Main definitions:

* `NvIpfix.ConfigData.HoldsEmpty` — an empty value leaves the field as it is;
* `NvIpfix.shows` — whether actions show what a field holds.

Main results:

* `NvIpfix.closings_mono` — a host or an address never keeps a struct out of the list;
* `NvIpfix.run_store_nil_view_iff` — **when an empty value is not seen**.
-/

import NvIpfix.ConfigEffects

set_option relaxedAutoImplicit false
set_option autoImplicit false

namespace NvIpfix

/-! ### Empty values -/

/-- The field holds what an empty value makes of it; some parsers refuse an empty value. -/
def ConfigData.HoldsEmpty (d : ConfigData) : ConfigField → Prop
  | .switchName => d.view.values .switchName = some []
  | .switchApiHost => d.view.values .switchApiHost = some []
  | .switchApiLogin => d.view.values .switchApiLogin = some []
  | .switchApiPassword => d.view.values .switchApiPassword = some []
  | .name => d.collector.name = some []
  | .host => d.collector.host = some []
  | .port => d.collector.port = some []
  | .dscp => d.collector.dscp = 0
  | .exportInterval | .ipAddress | .transport => True

/-- Whether actions show what a field holds, when the struct has a host and an address or not. -/
def shows (field : ConfigField) : Reach → List ConfigAction → Bool
  | _, [] => !field.ofCollector
  | r, .zero :: actions => !field.ofCollector && shows field (r.next .zero) actions
  | r, .store other value :: actions =>
      other != field && shows field (r.next (.store other value)) actions
  | r, .close :: actions =>
      -- an empty host is enough for the list
      (field.ofCollector && (r.listed || field == .host)) || shows field r actions

section Store

variable (d : ConfigData) {field other : ConfigField}

theorem setValue_eq_self_iff (v : ConfigVariable) (value : CString) :
    d.setValue v value = d ↔ d.view.values v = some value := by
  constructor
  · intro h
    rw [← h, setValue_values, if_pos rfl]
  · intro h
    have hvalues : Function.update d.view.values v (some value) = d.view.values := by
      rw [← h, Function.update_eq_self]
    exact ConfigData.ext (ConfigView.ext hvalues rfl rfl) rfl

theorem setValue_comm {v w : ConfigVariable} (h : v ≠ w) (value value' : CString) :
    (d.setValue v value).setValue w value' = (d.setValue w value').setValue v value :=
  ConfigData.ext (ConfigView.ext (Function.update_comm h.symm _ _ _).symm rfl rfl) rfl

theorem setValue_setValue (v : ConfigVariable) (value value' : CString) :
    (d.setValue v value).setValue v value' = d.setValue v value' :=
  ConfigData.ext (ConfigView.ext (Function.update_idem _ _ _) rfl rfl) rfl

/-- An empty value changes a field unless it holds it. -/
theorem store_nil_eq_self_iff (field : ConfigField) :
    d.store [] field = d ↔ d.HoldsEmpty field := by
  cases field with
  | switchName => exact setValue_eq_self_iff d .switchName []
  | switchApiHost => exact setValue_eq_self_iff d .switchApiHost []
  | switchApiLogin => exact setValue_eq_self_iff d .switchApiLogin []
  | switchApiPassword => exact setValue_eq_self_iff d .switchApiPassword []
  | name | host | port | dscp =>
      constructor
      · intro h
        rw [← h]
        rfl
      · intro h
        obtain ⟨view, name, host, port, ipAddress, dscp, transport, ctx⟩ := d
        simp only [ConfigData.HoldsEmpty] at h
        subst h
        rfl
  | exportInterval | ipAddress | transport => exact ⟨fun _ => trivial, fun _ => rfl⟩

/-- A further value covers an empty one. -/
theorem store_nil_store_self (value : CString) (field : ConfigField) :
    (d.store [] field).store value field = d.store value field := by
  cases field <;> first | rfl | exact setValue_setValue d _ _ _

/-- Values of other fields do not matter. -/
theorem store_nil_store_comm (h : other ≠ field) (value : CString) :
    (d.store [] field).store value other = (d.store value other).store [] field := by
  cases field <;> cases other <;>
    first
    | rfl
    | exact absurd rfl h
    | exact setValue_comm d (by decide) _ _

theorem holdsEmpty_store_iff (h : other ≠ field) (value : CString) :
    (d.store value other).HoldsEmpty field ↔ d.HoldsEmpty field := by
  cases field <;> cases other <;>
    first
    | exact Iff.rfl
    | exact absurd rfl h

/-! ### What shows an empty value -/

/-- An empty value in the struct does not change the variables and the list. -/
theorem store_nil_view (h : field.ofCollector = true) : (d.store [] field).view = d.view := by
  cases field <;> first | rfl | cases h

/-- An empty value of a variable is seen. -/
theorem store_nil_view_iff (h : field.ofCollector = false) :
    (d.store [] field).view = d.view ↔ d.HoldsEmpty field := by
  have hcollector : (d.store [] field).collector = d.collector := by
    cases field <;> first | rfl | cases h
  rw [← store_nil_eq_self_iff, ConfigData.ext_iff]
  exact ⟨fun hview => ⟨hview, hcollector⟩, And.left⟩

/-- An empty value of the struct is seen in what is put in the list. -/
theorem withDefaults_store_nil_iff (h : field.ofCollector = true) :
    (d.store [] field).collector.withDefaults = d.collector.withDefaults ↔
      d.HoldsEmpty field := by
  constructor
  · intro heq
    cases field with
    | name => exact (congrArg CollectorView.name heq).symm
    | host => exact (congrArg CollectorView.host heq).symm
    | dscp => exact (congrArg CollectorView.dscp heq).symm
    | port =>
        have hport : [] = d.collector.port.getD configDefaultPortStr :=
          Option.some.inj (congrArg CollectorView.port heq)
        simp only [ConfigData.HoldsEmpty]
        cases hd : d.collector.port with
        | none =>
            rw [hd] at hport
            cases hport
        | some port =>
            rw [hd] at hport
            exact congrArg some hport.symm
    | ipAddress | transport => trivial
    | _ => cases h
  · intro hholds
    rw [(store_nil_eq_self_iff d field).2 hholds]

/-- A host or an address never keeps a struct out of the list. -/
theorem closings_mono {r r' : Reach} (hhost : r.host → r'.host) (haddress : r.address → r'.address)
    (actions : List ConfigAction) : closings r actions ≤ closings r' actions := by
  induction actions generalizing r r' with
  | nil => exact Nat.le_refl 0
  | cons action actions ih =>
      have hlisted : r.listed → r'.listed := by
        simp only [Reach.listed, Bool.or_eq_true]
        exact Or.imp hhost haddress
      have hhead : (if action = .close ∧ r.listed then 1 else 0) ≤
          if action = .close ∧ r'.listed then 1 else 0 := by
        by_cases h : action = .close ∧ r.listed
        · rw [if_pos h, if_pos ⟨h.1, hlisted h.2⟩]
        · rw [if_neg h]
          exact Nat.zero_le _
      refine Nat.add_le_add hhead (ih ?_ ?_)
      · cases action with
        | zero => exact id
        | close => exact hhost
        | store field value => cases field <;> first | exact hhost | exact fun _ => rfl
      · cases action with
        | zero => exact id
        | close => exact haddress
        | store field value =>
            cases field <;> try exact haddress
            simp only [Reach.next]
            cases isAddress (ascii ".") addressOctetsCountIpv4 value with
            | none => exact haddress
            | some result => exact id

/-- What is put at the head of the list stays where it is. -/
theorem run_collectors_inj {e e' : ConfigData} {actions : List ConfigAction}
    {collector collector' : CollectorView} {collectors : List CollectorView}
    (he : e.view.collectors = collector :: collectors)
    (he' : e'.view.collectors = collector' :: collectors)
    (h : (e.run actions).view.collectors = (e'.run actions).view.collectors) :
    collector = collector' := by
  obtain ⟨listed, hlist, -⟩ := run_collectors e actions
  obtain ⟨listed', hlist', -⟩ := run_collectors e' actions
  rw [hlist, hlist', he, he'] at h
  exact (List.cons.inj (List.append_inj_right' h rfl)).1

theorem reach_store_nil (h : field ≠ .host) : (d.store [] field).reach = d.reach := by
  cases field <;> first | rfl | exact absurd rfl h

/-- An empty host puts the struct in the list. -/
theorem listed_store_nil (h : d.reach.listed ∨ field = .host) :
    (d.store [] field).reach.listed := by
  by_cases hfield : field = .host
  · rw [hfield]
    rfl
  · rw [reach_store_nil d hfield]
    exact h.resolve_right hfield

/-- A closing brace does not tell apart what is not listed. -/
theorem store_nil_close_comm
    (h : field.ofCollector = false ∨ field ≠ .host ∧ ¬ d.reach.listed) :
    (d.store [] field).close = d.close.store [] field := by
  have hhost : field ≠ .host := by
    rcases h with h | h
    · rintro rfl
      cases h
    · exact h.1
  have hreach := reach_store_nil d hhost
  by_cases hlisted : d.reach.listed
  · have hvariable := h.resolve_right fun hor => hor.2 hlisted
    rw [close_of_listed _ (hreach ▸ hlisted), close_of_listed _ hlisted]
    cases field <;> first | rfl | cases hvariable
  · rw [close_of_not_listed _ (hreach ▸ hlisted), close_of_not_listed _ hlisted]

theorem holdsEmpty_close_iff (h : field.ofCollector = false ∨ ¬ d.reach.listed) :
    d.close.HoldsEmpty field ↔ d.HoldsEmpty field := by
  by_cases hlisted : d.reach.listed
  · have hvariable := h.resolve_right fun hor => hor hlisted
    rw [close_of_listed _ hlisted]
    cases field <;> first | exact Iff.rfl | cases hvariable
  · rw [close_of_not_listed _ hlisted]

/-- A closing brace that puts the struct in the list, with the empty value at least, shows it. -/
theorem run_close_view_iff (hfield : field.ofCollector = true)
    (h : d.reach.listed ∨ field = .host) (actions : List ConfigAction) :
    ((d.store [] field).close.run actions).view = (d.close.run actions).view ↔
      d.HoldsEmpty field := by
  constructor
  · intro hview
    have hcollectors := congrArg ConfigView.collectors hview
    have hclose := close_of_listed _ (listed_store_nil d h)
    by_cases hlisted : d.reach.listed
    · rw [← withDefaults_store_nil_iff d hfield]
      refine run_collectors_inj (congrArg (·.view.collectors) hclose) ?_ hcollectors
      rw [close_of_listed d hlisted, store_nil_view d hfield]
    · -- only the empty host puts the struct in the list
      obtain rfl := h.resolve_left hlisted
      obtain ⟨listed, hlist, hlen⟩ := run_collectors (d.store [] .host).close actions
      obtain ⟨listed', hlist', hlen'⟩ := run_collectors d.close actions
      have hmono : closings d.close.reach actions ≤
          closings (d.store [] .host).close.reach actions := by
        refine closings_mono (fun _ => by rw [hclose]; rfl) (fun haddress => ?_) actions
        rw [close_of_not_listed d hlisted] at haddress
        rw [hclose]
        exact haddress
      rw [hlist, hlist', hclose, close_of_not_listed d hlisted] at hcollectors
      have hlength := congrArg List.length hcollectors
      simp only [List.length_append, List.length_cons, store_nil_view d hfield] at hlength
      omega
  · intro hholds
    rw [(store_nil_eq_self_iff d field).2 hholds]

/-- **When an empty value is not seen**: the field holds it, or nothing that follows shows it. -/
theorem run_store_nil_view_iff (actions : List ConfigAction) :
    ((d.store [] field).run actions).view = (d.run actions).view ↔
      d.HoldsEmpty field ∨ shows field d.reach actions = false := by
  induction actions generalizing d with
  | nil =>
      cases hfield : field.ofCollector with
      | true => simp [ConfigData.run, shows, hfield, store_nil_view d hfield]
      | false => simp [ConfigData.run, shows, hfield, store_nil_view_iff d hfield]
  | cons action actions ih =>
      have hcomm : (d.store [] field).act action = (d.act action).store [] field →
          ((d.act action).HoldsEmpty field ↔ d.HoldsEmpty field) →
          shows field d.reach (action :: actions) =
            shows field (d.reach.next action) actions →
          (((d.store [] field).run (action :: actions)).view =
              (d.run (action :: actions)).view ↔
            d.HoldsEmpty field ∨ shows field d.reach (action :: actions) = false) := by
        intro hact hholds hshows
        rw [ConfigData.run_cons, ConfigData.run_cons, hact, ih, hholds, hshows, reach_act]
      cases action with
      | zero =>
          cases hfield : field.ofCollector with
          | true =>
              have hzero : (d.store [] field).act .zero = d.act .zero :=
                ConfigData.ext (store_nil_view d hfield) rfl
              simp [ConfigData.run_cons, hzero, shows, hfield]
          | false =>
              refine hcomm ?_ ?_ (by simp [shows, hfield])
              · cases field <;> first | rfl | cases hfield
              · cases field <;> first | exact Iff.rfl | cases hfield
      | store other value =>
          obtain rfl | hother := eq_or_ne other field
          · have hstore : (d.store [] other).act (.store other value) =
                d.act (.store other value) := store_nil_store_self d value other
            simp [ConfigData.run_cons, hstore, shows]
          · exact hcomm (store_nil_store_comm d hother value)
              (holdsEmpty_store_iff d hother value) (by simp [shows, hother])
      | close =>
          by_cases hseen : field.ofCollector = true ∧ (d.reach.listed ∨ field = .host)
          · have hshows : shows field d.reach (.close :: actions) = true := by
              simp [shows, hseen.1, hseen.2]
            rw [ConfigData.run_cons, ConfigData.run_cons, hshows]
            exact (run_close_view_iff d hseen.1 hseen.2 actions).trans (by simp)
          · have hcases : field.ofCollector = false ∨ field ≠ .host ∧ ¬ d.reach.listed := by
              rw [not_and_or, not_or, Bool.not_eq_true] at hseen
              exact hseen.imp_right And.symm
            refine hcomm (store_nil_close_comm d hcases)
              (holdsEmpty_close_iff d (hcases.imp_right And.right)) ?_
            rcases hcases with hfield | ⟨hhost, hlisted⟩
            · simp [shows, hfield, Reach.next]
            · simp [shows, hhost, hlisted, Reach.next]

end Store

end NvIpfix
