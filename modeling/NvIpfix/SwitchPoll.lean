/-
**One poll after the other.**

`nvipfix_main_export_nvc` copies the settings of the switch to a struct, imports with them, exports
what has been imported, and releases the records and the strings of the struct.  The struct itself
is not released.  The daemon calls it as long as it runs, so that what one poll leaves in memory
adds up.

Main definitions:

* `NvIpfix.SwitchInfo`, `NvIpfix.switchInfoGet`, `NvIpfix.switchInfoFree` — the struct;
* `NvIpfix.SwitchPoll`, `NvIpfix.PollState`, `NvIpfix.nvipfixMainExportNvc` — a poll;
* `NvIpfix.PollState.After` — what polls have left behind.

Main results:

* `NvIpfix.nvipfixMainExportNvc_after` — one poll;
* `NvIpfix.pollRun_after` — **a run leaves one struct behind for each poll, and nothing else**;
* `NvIpfix.pollRun_exports` — **a run exports what the switch has handed over**.
-/

import NvIpfix.Delivery
import NvIpfix.NvcSession
import NvIpfix.StringOwnership

set_option relaxedAutoImplicit false
set_option autoImplicit false

namespace NvIpfix

/-! ### The struct -/

/-- `nvIPFIX_switch_info_t`, and the variables of the configuration that it is made from: pointers
to strings. -/
structure SwitchInfo where
  name : Option ℕ := none
  host : Option ℕ := none
  login : Option ℕ := none
  password : Option ℕ := none
  deriving DecidableEq, Repr

/-- The structs that are live, and the strings.  An address is the number of the allocation before
it. -/
structure SwitchHeap where
  infos : ℕ → Option SwitchInfo := fun _ => none
  strings : StringHeap := {}

/-- `nvipfix_string_duplicate`, with the outcome of each allocation. -/
def stringDuplicateIn (mallocs : ℕ → Bool) (p : Option ℕ) (h : StringHeap) :
    Option ℕ × StringHeap :=
  match p with
  | none => (none, h)
  | some b =>
      match h.buffers b with
      | none => (none, h.require false)
      | some s => if !mallocs h.next then (none, h.allocation) else (some h.next, h.mallocBuffer s)

/-- The copies of the settings; each of them can fail. -/
def duplicateInfo (mallocs : ℕ → Bool) (settings : SwitchInfo) (h : StringHeap) :
    SwitchInfo × StringHeap :=
  let (name, h) := stringDuplicateIn mallocs settings.name h
  let (host, h) := stringDuplicateIn mallocs settings.host h
  let (login, h) := stringDuplicateIn mallocs settings.login h
  let (password, h) := stringDuplicateIn mallocs settings.password h
  ({ name, host, login, password }, h)

/-- `nvipfix_config_switch_info_get`, after the configuration has been read. -/
def switchInfoGet (succeeds : Bool) (mallocs : ℕ → Bool) (settings : SwitchInfo) (w : SwitchHeap) :
    Option ℕ × SwitchHeap :=
  let a := w.strings.next
  let h := w.strings.allocation
  if !succeeds then (none, { w with strings := h })
  else
    let (info, h) := duplicateInfo mallocs settings h
    (some a, { infos := Function.update w.infos a (some info), strings := h })

/-- `nvipfix_config_switch_info_free`, which releases the strings of the struct. -/
def switchInfoFree (p : Option ℕ) (w : SwitchHeap) : SwitchHeap :=
  match p with
  | none => w
  | some a =>
      match w.infos a with
      | none => { w with strings := w.strings.require false }
      | some info =>
          { w with
            strings := (((w.strings.freeBuffer info.name).freeBuffer info.host).freeBuffer
              info.login).freeBuffer info.password }

/-! ### Polls -/

/-- The arguments of a poll, and what comes of its calls. -/
structure SwitchPoll where
  startTs : Datetime
  endTs : Datetime
  withinLast : Int32
  instant : ℤ
  /-- There is memory for the struct. -/
  succeeds : Bool := true
  nvc : NvcOutcomes
  outcomes : ℕ → ExportOutcomes

/-- What the allocations of a run come to, its time zone, and the settings of the switch. -/
structure PollEnv where
  mallocs : ℕ → Bool
  dataMallocs : ℕ → Bool
  calendar : Calendar
  settings : SwitchInfo

/-- What a run goes on with: the struct and strings, the records, the collectors and their objects,
and the calls of the interface of the switch. -/
structure PollState where
  switch : SwitchHeap := {}
  data : DataHeap := {}
  main : MainState
  calls : List NvcCall := []

/-- The arguments of the import of a poll; a string that is absent is `NULL`. -/
def SwitchPoll.args (poll : SwitchPoll) (info : SwitchInfo) (h : StringHeap) : NvcArgs where
  host := info.host.bind h.buffers
  login := info.login.bind h.buffers
  password := info.password.bind h.buffers
  startTs := poll.startTs
  endTs := poll.endTs
  withinLast := poll.withinLast
  instant := poll.instant

/-- The export of a poll. -/
def SwitchPoll.round (poll : SwitchPoll) (calendar : Calendar) (data : Option (List DataRecord)) :
    ExportRound where
  outcomes := poll.outcomes
  calendar := calendar
  data := data
  startTs := poll.startTs
  endTs := poll.endTs

/-- `nvipfix_main_export_nvc`. -/
def nvipfixMainExportNvc (env : PollEnv) (s : PollState) (poll : SwitchPoll) : PollState :=
  let (switchInfo, w) := switchInfoGet poll.succeeds env.mallocs env.settings s.switch
  -- the members of the struct are read, whether there is one or not
  match switchInfo.bind w.infos with
  | none => { s with switch := { w with strings := w.strings.require false } }
  | some info =>
      let ((dataRecords, d), calls) := nvipfixImportNvcIn env.dataMallocs env.calendar poll.nvc
        (poll.args info w.strings) s.data
      let (_, main) := nvipfixMainExport s.main
        (poll.round env.calendar (d.contents dataRecords))
      { switch := switchInfoFree switchInfo w
        data := nvipfixDataListFree dataRecords d
        main := main
        calls := s.calls ++ calls }

/-- The state behind polls. -/
def pollRun (env : PollEnv) (s : PollState) (polls : List SwitchPoll) : PollState :=
  polls.foldl (nvipfixMainExportNvc env) s

/-! ### Copies of strings -/

/-- Memory with copies of strings; a copy that has failed is `NULL`. -/
def StringHeap.writes (h : StringHeap) : List (Option (ℕ × CString)) → StringHeap
  | [] => h
  | none :: copies => h.writes copies
  | some (b, s) :: copies => (h.writes copies).write b s

/-- The pointer to a copy. -/
def copyPointer (copy : Option (ℕ × CString)) : Option ℕ := copy.map Prod.fst

/-- Memory as it was, and copies of strings, which are new and apart from each other. -/
structure Copies (h₀ : StringHeap) (copies : List (Option (ℕ × CString))) (h : StringHeap) :
    Prop where
  restored : (h₀.writes copies).Restored h
  fresh : h.Fresh
  new : ∀ copy ∈ copies, ∀ b ∈ copyPointer copy, h₀.buffers b = none ∧ b < h.next
  nodup : (copies.filterMap copyPointer).Nodup

section Copies

variable {h h₀ h' : StringHeap} {copies : List (Option (ℕ × CString))}

/-- A string that is not one of the copies. -/
theorem StringHeap.writes_buffers_of_not_mem {b : ℕ} (hb : b ∉ copies.filterMap copyPointer) :
    (h.writes copies).buffers b = h.buffers b := by
  induction copies with
  | nil => rfl
  | cons copy copies ih =>
      cases copy with
      | none => exact ih hb
      | some copy =>
          have hcons : b ≠ copy.1 ∧ b ∉ copies.filterMap copyPointer := by
            simpa [copyPointer] using hb
          exact (Function.update_of_ne hcons.1 _ _).trans (ih hcons.2)

/-- A copy is there, if it is not written over. -/
theorem StringHeap.writes_buffers_of_mem {b : ℕ} {s : CString}
    (hnodup : (copies.filterMap copyPointer).Nodup) (hmem : some (b, s) ∈ copies) :
    (h.writes copies).buffers b = some s := by
  induction copies with
  | nil => cases hmem
  | cons copy copies ih =>
      cases copy with
      | none => exact ih hnodup (by simpa using hmem)
      | some copy =>
          have hcons : copy.1 ∉ copies.filterMap copyPointer ∧
              (copies.filterMap copyPointer).Nodup := by
            simpa [copyPointer] using hnodup
          rcases List.mem_cons.1 hmem with heq | hmem
          · obtain rfl := Option.some_inj.1 heq
            exact StringHeap.write_buffers _ b s
          · have hne : b ≠ copy.1 := by
              rintro rfl
              exact hcons.1 (List.mem_filterMap.2 ⟨_, hmem, rfl⟩)
            exact (Function.update_of_ne hne _ _).trans (ih hcons.2 hmem)

/-- A copy behind the others. -/
theorem StringHeap.writes_concat {b : ℕ} (hb : b ∉ copies.filterMap copyPointer) (s : CString) :
    h.writes (copies ++ [some (b, s)]) = (h.writes copies).write b s := by
  induction copies with
  | nil => rfl
  | cons copy copies ih =>
      cases copy with
      | none => exact ih hb
      | some copy =>
          have hcons : b ≠ copy.1 ∧ b ∉ copies.filterMap copyPointer := by
            simpa [copyPointer] using hb
          simp only [List.cons_append, StringHeap.writes, ih hcons.2, StringHeap.write,
            Function.update_comm hcons.1]

theorem StringHeap.writes_concat_none : h.writes (copies ++ [none]) = h.writes copies := by
  induction copies with
  | nil => rfl
  | cons copy copies ih =>
      cases copy with
      | none => exact ih
      | some copy => simp only [List.cons_append, StringHeap.writes, ih]

theorem Copies.start (hfresh : h₀.Fresh) : Copies h₀ [] h₀ where
  restored := .refl h₀
  fresh := hfresh
  new copy hcopy := by cases hcopy
  nodup := List.nodup_nil

/-- Strings of before stay. -/
theorem Copies.buffers_eq (hcopies : Copies h₀ copies h) {b : ℕ} (hlive : (h₀.buffers b).isSome) :
    h.buffers b = h₀.buffers b := by
  rw [hcopies.restored.buffers]
  refine StringHeap.writes_buffers_of_not_mem fun hmem => ?_
  obtain ⟨copy, hcopy, hb⟩ := List.mem_filterMap.1 hmem
  rw [(hcopies.new copy hcopy b hb).1] at hlive
  cases hlive

/-- A copy that has not been made. -/
theorem Copies.absent (hcopies : Copies h₀ copies h) (hr : h.Restored h') :
    Copies h₀ (copies ++ [none]) h' where
  restored := by
    rw [StringHeap.writes_concat_none]
    exact hcopies.restored.trans hr
  fresh := hr.fresh hcopies.fresh
  new copy hcopy b hb := by
    rcases List.mem_append.1 hcopy with hcopy | hcopy
    · have hnew := hcopies.new copy hcopy b hb
      exact ⟨hnew.1, hnew.2.trans_le hr.next_le⟩
    · obtain rfl := List.mem_singleton.1 hcopy
      cases hb
  nodup := by
    have hnone : [none].filterMap copyPointer = [] := rfl
    rw [List.filterMap_append, hnone, List.append_nil]
    exact hcopies.nodup

/-- A copy that has been made. -/
theorem Copies.present (hcopies : Copies h₀ copies h) (s : CString) :
    Copies h₀ (copies ++ [some (h.next, s)]) (h.mallocBuffer s) := by
  have hnot : h.next ∉ copies.filterMap copyPointer := by
    intro hmem
    obtain ⟨copy, hcopy, hb⟩ := List.mem_filterMap.1 hmem
    exact Nat.lt_irrefl _ (hcopies.new copy hcopy _ hb).2
  have hnone : h₀.buffers h.next = none := by
    rw [← StringHeap.writes_buffers_of_not_mem hnot, ← hcopies.restored.buffers]
    exact hcopies.fresh.buffers h.next le_rfl
  refine ⟨?_, hcopies.fresh.mallocBuffer s, fun copy hcopy b hb => ?_, ?_⟩
  · rw [StringHeap.writes_concat hnot]
    exact (hcopies.restored.write h.next s).trans (.allocation _)
  · rcases List.mem_append.1 hcopy with hcopy | hcopy
    · have hnew := hcopies.new copy hcopy b hb
      exact ⟨hnew.1, hnew.2.trans (Nat.lt_succ_self _)⟩
    · obtain rfl := List.mem_singleton.1 hcopy
      obtain rfl := Option.some_inj.1 hb
      exact ⟨hnone, Nat.lt_succ_self _⟩
  · have hone : [some (h.next, s)].filterMap copyPointer = [h.next] := rfl
    rw [List.filterMap_append, hone, List.nodup_append_comm, List.singleton_append,
      List.nodup_cons]
    exact ⟨hnot, hcopies.nodup⟩

/-- **`nvipfix_string_duplicate` makes a copy, or nothing.** -/
theorem Copies.duplicate (hcopies : Copies h₀ copies h) (mallocs : ℕ → Bool) {p : Option ℕ}
    (hlive : ∀ b ∈ p, (h₀.buffers b).isSome) :
    ∃ copy, (stringDuplicateIn mallocs p h).1 = copyPointer copy ∧
      Copies h₀ (copies ++ [copy]) (stringDuplicateIn mallocs p h).2 ∧
      ((∀ n, mallocs n = true) → copy.map Prod.snd = p.bind h₀.buffers) := by
  cases p with
  | none => exact ⟨none, rfl, hcopies.absent (.refl h), fun _ => rfl⟩
  | some b =>
      have hb := hcopies.buffers_eq (hlive b rfl)
      obtain ⟨s, hs⟩ := Option.isSome_iff_exists.1 (hlive b rfl)
      rw [hs] at hb
      simp only [stringDuplicateIn, hb]
      cases hmalloc : mallocs h.next with
      | false =>
          refine ⟨none, rfl, hcopies.absent (.allocation h), fun hall => ?_⟩
          rw [hall] at hmalloc
          cases hmalloc
      | true => exact ⟨some (h.next, s), rfl, hcopies.present s, fun _ => hs.symm⟩

/-- **Copies that are released leave memory as it was.** -/
theorem StringHeap.Restored.freeCopies (hr : (h₀.writes copies).Restored h)
    (hnew : ∀ copy ∈ copies, ∀ b ∈ copyPointer copy, h₀.buffers b = none)
    (hnodup : (copies.filterMap copyPointer).Nodup) :
    h₀.Restored (copies.foldl (fun h copy => h.freeBuffer (copyPointer copy)) h) := by
  induction copies generalizing h with
  | nil => exact hr
  | cons copy copies ih =>
      have hrest := fun copy hcopy => hnew copy (List.mem_cons_of_mem _ hcopy)
      cases copy with
      | none => exact ih hr hrest hnodup
      | some copy =>
          have hcons : copy.1 ∉ copies.filterMap copyPointer ∧
              (copies.filterMap copyPointer).Nodup := by
            simpa [copyPointer] using hnodup
          refine ih (.freeBuffer ?_ hr) hrest hcons.2
          rw [StringHeap.writes_buffers_of_not_mem hcons.1]
          exact hnew _ List.mem_cons_self copy.1 rfl

end Copies

/-! ### The struct in memory -/

/-- The variables of the configuration lead to strings. -/
structure SwitchInfo.Live (settings : SwitchInfo) (h : StringHeap) : Prop where
  name : ∀ b ∈ settings.name, (h.buffers b).isSome
  host : ∀ b ∈ settings.host, (h.buffers b).isSome
  login : ∀ b ∈ settings.login, (h.buffers b).isSome
  password : ∀ b ∈ settings.password, (h.buffers b).isSome

/-- The settings as texts. -/
def SwitchInfo.texts (settings : SwitchInfo) (h : StringHeap) : List (Option CString) :=
  [settings.host.bind h.buffers, settings.login.bind h.buffers, settings.password.bind h.buffers]

section Switch

variable {settings : SwitchInfo} {h : StringHeap} {w : SwitchHeap}

theorem SwitchInfo.Live.restored {h' : StringHeap} (hlive : settings.Live h)
    (hr : h.Restored h') : settings.Live h' := by
  obtain ⟨hname, hhost, hlogin, hpassword⟩ := hlive
  rw [← hr.buffers] at hname hhost hlogin hpassword
  exact ⟨hname, hhost, hlogin, hpassword⟩

/-- **The copies of the settings**, as far as there is memory. -/
theorem duplicateInfo_spec (mallocs : ℕ → Bool) (hfresh : h.Fresh) (hlive : settings.Live h) :
    ∃ name host login password : Option (ℕ × CString),
      (duplicateInfo mallocs settings h).1 =
          ⟨copyPointer name, copyPointer host, copyPointer login, copyPointer password⟩ ∧
        Copies h [name, host, login, password] (duplicateInfo mallocs settings h).2 ∧
        ((∀ n, mallocs n = true) →
          [host.map Prod.snd, login.map Prod.snd, password.map Prod.snd] = settings.texts h) := by
  obtain ⟨name, hname, hcopies, -⟩ :=
    (Copies.start hfresh).duplicate mallocs hlive.name
  obtain ⟨host, hhost, hcopies, htexts⟩ := hcopies.duplicate mallocs hlive.host
  obtain ⟨login, hlogin, hcopies, htexts'⟩ := hcopies.duplicate mallocs hlive.login
  obtain ⟨password, hpassword, hcopies, htexts''⟩ :=
    hcopies.duplicate mallocs hlive.password
  refine ⟨name, host, login, password, ?_, hcopies, fun hall => ?_⟩
  · simp only [duplicateInfo, hname, hhost, hlogin, hpassword]
  · rw [htexts hall, htexts' hall, htexts'' hall, SwitchInfo.texts]

/-- The text of a copy. -/
theorem Copies.bind_buffers {copies : List (Option (ℕ × CString))} {h' : StringHeap}
    (hcopies : Copies h copies h') {copy : Option (ℕ × CString)} (hmem : copy ∈ copies) :
    (copyPointer copy).bind h'.buffers = copy.map Prod.snd := by
  cases copy with
  | none => rfl
  | some copy =>
      rw [hcopies.restored.buffers]
      exact StringHeap.writes_buffers_of_mem hcopies.nodup hmem

/-- **The struct is made, and its strings are released**: the struct stays, and strings are as they
were. -/
theorem switchInfoGet_free (mallocs : ℕ → Bool) (hfresh : w.strings.Fresh)
    (hlive : settings.Live w.strings) :
    ∃ info w', switchInfoGet true mallocs settings w = (some w.strings.next, w') ∧
      w'.infos = Function.update w.infos w.strings.next (some info) ∧
      (switchInfoFree (some w.strings.next) w').infos = w'.infos ∧
      w.strings.allocation.Restored (switchInfoFree (some w.strings.next) w').strings ∧
      ((∀ n, mallocs n = true) → info.texts w'.strings = settings.texts w.strings) := by
  have hlive' : settings.Live w.strings.allocation := hlive.restored (.allocation _)
  obtain ⟨name, host, login, password, hinfo, hcopies, htexts⟩ :=
    duplicateInfo_spec mallocs hfresh.allocation hlive'
  rcases hduplicate : duplicateInfo mallocs settings w.strings.allocation with ⟨info, h'⟩
  rw [hduplicate] at hinfo hcopies
  refine ⟨info, ⟨Function.update w.infos w.strings.next (some info), h'⟩, ?_, rfl, ?_, ?_,
    fun hall => ?_⟩
  · simp only [switchInfoGet, Bool.not_true, Bool.false_eq_true, if_false, hduplicate]
  · simp only [switchInfoFree, Function.update_self]
  · have hfree := hcopies.restored.freeCopies
      (fun copy hcopy b hb => (hcopies.new copy hcopy b hb).1) hcopies.nodup
    simp only [switchInfoFree, Function.update_self]
    dsimp only at hinfo
    rw [hinfo]
    exact hfree
  · dsimp only at hinfo hcopies
    rw [hinfo, SwitchInfo.texts, hcopies.bind_buffers (by simp), hcopies.bind_buffers (by simp),
      hcopies.bind_buffers (by simp), htexts hall]
    rfl

end Switch

/-! ### Runs -/

/-- Memory is in order before a poll. -/
structure PollState.Ready (env : PollEnv) (s : PollState) : Prop where
  strings : s.switch.strings.Fresh
  infos : ∀ a, s.switch.strings.next ≤ a → s.switch.infos a = none
  data : s.data.Fresh
  settings : env.settings.Live s.switch.strings

/-- **What polls have left behind**: one struct each, of records nothing but copies for which there
was no list, and no session that is open. -/
structure PollState.After (env : PollEnv) (s s' : PollState) (count : ℕ) : Prop where
  strings : s.switch.strings.Restored s'.switch.strings
  infos : ∃ left : List ℕ, left.length = count ∧ left.Nodup ∧
    (∀ a ∈ left, s.switch.strings.next ≤ a ∧ a < s'.switch.strings.next ∧
      (s'.switch.infos a).isSome) ∧
    ∀ a ∉ left, s'.switch.infos a = s.switch.infos a
  data : s.data.Leaks env.dataMallocs s'.data
  sessions : ∃ calls, s'.calls = s.calls ++ calls ∧ NvcPhase.closed.run calls = some .closed

section Runs

variable {env : PollEnv} {s s' s'' : PollState} {poll : SwitchPoll} {count count' : ℕ}

theorem PollState.After.refl (hs : s.Ready env) : PollState.After env s s 0 where
  strings := .refl _
  infos := ⟨[], rfl, List.nodup_nil, by simp, fun _ _ => rfl⟩
  data := .refl hs.data
  sessions := ⟨[], by simp, rfl⟩

/-- What polls leave behind adds up. -/
theorem PollState.After.trans (hl : PollState.After env s s' count)
    (hr : PollState.After env s' s'' count') : PollState.After env s s'' (count + count') where
  strings := hl.strings.trans hr.strings
  infos := by
    obtain ⟨left, hlength, hnodup, hleft, hkeeps⟩ := hl.infos
    obtain ⟨left', hlength', hnodup', hleft', hkeeps'⟩ := hr.infos
    -- the later structs have later addresses
    have hdisjoint : ∀ a ∈ left, a ∉ left' := by
      intro a ha ha'
      have hlt := (hleft a ha).2.1
      have hle := (hleft' a ha').1
      omega
    refine ⟨left ++ left', by rw [List.length_append, hlength, hlength'],
      List.nodup_append.2 ⟨hnodup, hnodup', ?_⟩, fun a ha => ?_, fun a ha => ?_⟩
    · rintro a ha a' ha' rfl
      exact hdisjoint a ha ha'
    · rcases List.mem_append.1 ha with ha | ha
      · obtain ⟨hle, hlt, hsome⟩ := hleft a ha
        rw [hkeeps' a (hdisjoint a ha)]
        exact ⟨hle, hlt.trans_le hr.strings.next_le, hsome⟩
      · obtain ⟨hle, hlt, hsome⟩ := hleft' a ha
        exact ⟨hl.strings.next_le.trans hle, hlt, hsome⟩
    · rw [List.mem_append, not_or] at ha
      rw [hkeeps' a ha.2, hkeeps a ha.1]
  data := hl.data.trans hr.data
  sessions := by
    obtain ⟨calls, heq, hclosed⟩ := hl.sessions
    obtain ⟨calls', heq', hclosed'⟩ := hr.sessions
    refine ⟨calls ++ calls', by rw [heq', heq, List.append_assoc], ?_⟩
    rw [NvcPhase.run_append, hclosed]
    exact hclosed'

/-- Memory stays in order. -/
theorem PollState.After.ready (hs : s.Ready env) (hafter : PollState.After env s s' count) :
    s'.Ready env where
  strings := hafter.strings.fresh hs.strings
  infos a ha := by
    obtain ⟨left, -, -, hleft, hkeeps⟩ := hafter.infos
    have hnot : a ∉ left := by
      intro hmem
      have hlt := (hleft a hmem).2.1
      omega
    rw [hkeeps a hnot]
    exact hs.infos a (hafter.strings.next_le.trans ha)
  data := hafter.data.fresh
  settings := hs.settings.restored hafter.strings

/-- The records, the export and the calls of one poll. -/
theorem nvipfixMainExportNvc_eq (hs : s.Ready env) (hpoll : poll.succeeds = true) :
    ∃ args, (nvipfixMainExportNvc env s poll).data =
        nvipfixDataListFree
          (nvipfixImportNvcIn env.dataMallocs env.calendar poll.nvc args s.data).1.1
          (nvipfixImportNvcIn env.dataMallocs env.calendar poll.nvc args s.data).1.2 ∧
      (nvipfixMainExportNvc env s poll).main =
        (nvipfixMainExport s.main (poll.round env.calendar
          ((nvipfixImportNvcIn env.dataMallocs env.calendar poll.nvc args s.data).1.2.contents
            (nvipfixImportNvcIn env.dataMallocs env.calendar poll.nvc args s.data).1.1))).2 ∧
      (nvipfixMainExportNvc env s poll).calls = s.calls ++
        (nvipfixImportNvcIn env.dataMallocs env.calendar poll.nvc args s.data).2 ∧
      s.switch.strings.Restored (nvipfixMainExportNvc env s poll).switch.strings ∧
      (∃ info, (nvipfixMainExportNvc env s poll).switch.infos =
        Function.update s.switch.infos s.switch.strings.next (some info)) ∧
      s.switch.strings.next < (nvipfixMainExportNvc env s poll).switch.strings.next ∧
      ((∀ n, env.mallocs n = true) → args = poll.args env.settings s.switch.strings) := by
  obtain ⟨info, w', hget, hinfos, hinfos', hr, htexts⟩ :=
    switchInfoGet_free env.mallocs hs.strings hs.settings
  have hread : w'.infos s.switch.strings.next = some info := by
    rw [hinfos, Function.update_self]
  refine ⟨poll.args info w'.strings, ?_⟩
  simp only [nvipfixMainExportNvc, hpoll, hget, Option.bind_some, hread, true_and]
  refine ⟨(StringHeap.Restored.allocation _).trans hr, ⟨info, ?_⟩,
    Nat.lt_of_lt_of_le (Nat.lt_succ_self _) hr.next_le, fun hall => ?_⟩
  · rw [hinfos', hinfos]
  · have htexts' := htexts hall
    simp only [SwitchInfo.texts, List.cons.injEq, and_true] at htexts'
    simp only [SwitchPoll.args, htexts']

/-- **One poll** leaves its struct behind. -/
theorem nvipfixMainExportNvc_after (hs : s.Ready env) (hpoll : poll.succeeds = true) :
    PollState.After env s (nvipfixMainExportNvc env s poll) 1 := by
  obtain ⟨args, hdata, -, hcalls, hr, ⟨info, hinfos⟩, hlt, -⟩ := nvipfixMainExportNvc_eq hs hpoll
  refine ⟨hr, ⟨[s.switch.strings.next], rfl, List.nodup_singleton _, ?_, ?_⟩, ?_, _, hcalls,
    nvipfixImportNvcIn_closed ..⟩
  · rintro a ha
    obtain rfl := List.mem_singleton.1 ha
    refine ⟨le_rfl, hlt, ?_⟩
    rw [hinfos, Function.update_self]
    rfl
  · intro a ha
    rw [hinfos, Function.update_of_ne (by simpa using ha)]
  · rw [hdata]
    exact (nvipfixImportNvcIn_collected env.dataMallocs env.calendar poll.nvc args
      hs.data).leaks_free

/-- **A run leaves one struct behind for each poll, and nothing else**: the strings are as they
were, of the records at most copies stay for which there was no list, and no session is open. -/
theorem pollRun_after (polls : List SwitchPoll) (hs : s.Ready env)
    (hpolls : ∀ poll ∈ polls, poll.succeeds = true) :
    PollState.After env s (pollRun env s polls) polls.length := by
  induction polls generalizing s with
  | nil => exact .refl hs
  | cons poll polls ih =>
      have hfirst := nvipfixMainExportNvc_after hs (hpolls poll List.mem_cons_self)
      have hrest := ih (hfirst.ready hs) fun poll hpoll =>
        hpolls poll (List.mem_cons_of_mem _ hpoll)
      rw [List.length_cons, Nat.add_comm]
      exact hfirst.trans hrest

/-- The calls of an import do not depend on the memory of records. -/
theorem nvipfixImportNvcIn_calls (mallocs : ℕ → Bool) (calendar : Calendar) (o : NvcOutcomes)
    (args : NvcArgs) (d d' : DataHeap) :
    (nvipfixImportNvcIn mallocs calendar o args d).2 =
      (nvipfixImportNvcIn mallocs calendar o args d').2 := by
  simp only [nvipfixImportNvcIn]
  split
  next => rfl
  next => split <;> rfl

/-- The arguments of a poll are those of the settings, as long as these stay. -/
theorem SwitchPoll.args_restored {h h' : StringHeap} (hr : h.Restored h') (info : SwitchInfo) :
    poll.args info h' = poll.args info h := by
  simp only [SwitchPoll.args, hr.buffers]

/-- **A run asks the switch of the configuration, and exports what it hands over**, if there is
memory for everything. -/
theorem pollRun_exports (polls : List SwitchPoll) (hs : s.Ready env)
    (hpolls : ∀ poll ∈ polls, poll.succeeds = true) (hmallocs : ∀ n, env.mallocs n = true)
    (hdataMallocs : ∀ n, env.dataMallocs n = true) :
    (pollRun env s polls).main = s.main.after (polls.map fun poll =>
        poll.round env.calendar (poll.nvc.records env.calendar)) ∧
      (pollRun env s polls).calls = s.calls ++ polls.flatMap fun poll =>
        (nvipfixImportNvcIn env.dataMallocs env.calendar poll.nvc
          (poll.args env.settings s.switch.strings) s.data).2 := by
  induction polls generalizing s with
  | nil => exact ⟨rfl, by simp [pollRun]⟩
  | cons poll polls ih =>
      have hpoll := hpolls poll List.mem_cons_self
      have hfirst := nvipfixMainExportNvc_after hs hpoll
      obtain ⟨args, -, hmain, hcalls, -, -, -, hargs⟩ := nvipfixMainExportNvc_eq hs hpoll
      obtain ⟨hmain', hcalls'⟩ := ih (hfirst.ready hs) fun poll hpoll =>
        hpolls poll (List.mem_cons_of_mem _ hpoll)
      have hrecords := (nvipfixImportNvcIn_collected env.dataMallocs env.calendar poll.nvc args
        hs.data).contents hdataMallocs
      rw [hrecords] at hmain
      refine ⟨?_, ?_⟩
      · rw [pollRun, List.foldl_cons, ← pollRun, hmain', hmain]
        rfl
      · rw [pollRun, List.foldl_cons, ← pollRun, hcalls', hcalls, hargs hmallocs,
          List.flatMap_cons, List.append_assoc]
        refine congrArg (s.calls ++ ·) (congrArg _ (List.flatMap_congr fun poll' _ => ?_))
        rw [SwitchPoll.args_restored hfirst.strings]
        exact nvipfixImportNvcIn_calls ..

/-- Without memory for the struct, a member of no struct is read. -/
theorem nvipfixMainExportNvc_fault (hpoll : poll.succeeds = false) :
    (nvipfixMainExportNvc env s poll).switch.strings.fault = true := by
  simp [nvipfixMainExportNvc, switchInfoGet, hpoll, StringHeap.require]

end Runs

/-! ### Two polls -/

/-- A switch with a name and no login, in memory where copies of records fail now and then. -/
def twoPollsEnv : PollEnv where
  mallocs _ := true
  dataMallocs n := n % 3 != 0
  calendar := .epoch
  settings := { host := some 0 }

/-- The name of the switch is in memory, and there is one collector. -/
def twoPollsState : PollState where
  switch := { strings := ({} : StringHeap).mallocBuffer (ascii "switch") }
  main := { collectors := [{ host := some ⟨0, ascii "collector"⟩ }] }

/-- A poll that gets some connections before its query fails, and one that cannot connect. -/
def twoPolls : List SwitchPoll :=
  [{ startTs := {}, endTs := {}, withinLast := 60, instant := 0, outcomes := fun _ => {},
     nvc := { connStat := { error := -1 }, connections := [{}, {}] } },
   { startTs := {}, endTs := {}, withinLast := 60, instant := 60, outcomes := fun _ => {},
     nvc := { connect := 1 } }]

theorem twoPollsState_ready : twoPollsState.Ready twoPollsEnv where
  strings := StringHeap.fresh_empty.mallocBuffer (ascii "switch")
  infos _ _ := rfl
  data := DataHeap.fresh_empty
  settings := ⟨by simp [twoPollsEnv], by simp [twoPollsEnv, twoPollsState, StringHeap.mallocBuffer],
    by simp [twoPollsEnv], by simp [twoPollsEnv]⟩

theorem pollRun_after_twoPolls :
    PollState.After twoPollsEnv twoPollsState (pollRun twoPollsEnv twoPollsState twoPolls) 2 :=
  pollRun_after twoPolls twoPollsState_ready (by simp [twoPolls])

end NvIpfix
