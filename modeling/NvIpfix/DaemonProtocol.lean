/-
**When start and stop keep one daemon that can be stopped.**

A state serves when at most one daemon is in its loop without having been told to stop, and the name
leads to its flag, so that `stop` clears it.  Two steps can break this: a name is unlinked while the
flag it leads to is up, and a daemon raises a flag that the name does not lead to, or that is up
already.  A run serves all along exactly when it takes neither.  The invariant behind it ties the
flags to the daemons: a flag is up if and only if a daemon is in its loop with it and has not been
told.

Main definitions:

* `NvIpfix.DaemonState.Consistent` — the invariant of the flags, sizes and unused numbers;
* `NvIpfix.DaemonState.Serving` — one daemon, and `stop` reaches it;
* `NvIpfix.DaemonState.Orderly` — the events that take neither of the two steps.

Main results:

* `NvIpfix.DaemonState.Consistent.step` — every event keeps the invariant;
* `NvIpfix.DaemonState.serving_step_iff` — one event, from a state that serves;
* `NvIpfix.daemonRun_serving_iff` — **a run serves if and only if every event of it is orderly**.
-/

import NvIpfix.Daemon
import NvIpfix.GuardedRun

set_option relaxedAutoImplicit false
set_option autoImplicit false

namespace NvIpfix

namespace DaemonState

variable (appPath : CString)

/-! ### The invariant -/

/-- The flags, the sizes and the unused numbers of a state. -/
structure Consistent (s : DaemonState) : Prop where
  /-- The flag of a daemon that has not been told is up. -/
  running : ∀ p object, (s.processes p).serves = some object → s.isRunning object = true
  /-- A flag that is up has a daemon that has not been told. -/
  served : ∀ object, s.isRunning object = true → ∃ p, (s.processes p).serves = some object
  sized : ∀ p object, (s.processes p).mapped = some object → s.isSized object = true
  named : ∀ name object, s.names name = some object → object < s.nextObject
  opened : ∀ p object, (s.processes p).opened = some object → object < s.nextObject
  ended : ∀ p, s.nextProcess ≤ p → s.processes p = .ended

/-- One daemon that has not been told to stop, and `stop` reaches it. -/
structure Serving (s : DaemonState) : Prop where
  single : ∀ p q object object', (s.processes p).serves = some object →
    (s.processes q).serves = some object' → p = q
  reachable : ∀ p object, (s.processes p).serves = some object → s.named appPath = some object
  /-- After `stop` has opened the name and taken its next step, the flag is down and the daemon has
  been told. -/
  stoppable : ∀ p object, (s.processes p).serves = some object →
    let s' := (s.step appPath .stop).step appPath (.advance s.nextProcess true)
    s'.isRunning object = false ∧ ∃ position, s'.processes p = .looping position object true

/-- The events that neither unlink the name while the flag it leads to is up, nor raise a flag that
the name does not lead to or that is up already. -/
def Orderly (s : DaemonState) : DaemonEvent → Prop
  | .advance p ok =>
      match s.processes p with
      | .unlinking _ => ∀ object ∈ s.named appPath, s.isRunning object = false
      | .sized object => ok → s.named appPath = some object ∧ s.isRunning object = false
      | _ => True
  | _ => True

/-! ### Small facts -/

section Facts

variable {s : DaemonState} {p : ℕ} {object : ShmObject}

theorem serves_eq_some {process : Process} :
    process.serves = some object ↔ ∃ position, process = .looping position object false := by
  cases process with
  | looping position object' told => cases told <;> simp [Process.serves]
  | _ => simp [Process.serves]

@[simp] theorem serves_tell (process : Process) :
    (process.tell object).serves = process.serves.filter (· ≠ object) := by
  cases process with
  | looping position object' told =>
      by_cases h : object' = object
      · subst h
        cases told <;> simp [Process.tell, Process.serves, Option.filter_some]
      · have hbeq : (object' == object) = false := by simp [h]
        cases told <;> simp [Process.tell, Process.serves, Option.filter_some, hbeq, h]
  | _ => rfl

@[simp] theorem mapped_tell (process : Process) :
    (process.tell object).mapped = process.mapped := by cases process <;> rfl

@[simp] theorem opened_tell (process : Process) :
    (process.tell object).opened = process.opened := by cases process <;> rfl

theorem mapped_of_serves {process : Process} (h : process.serves = some object) :
    process.mapped = some object := by
  obtain ⟨position, rfl⟩ := serves_eq_some.1 h
  rfl

theorem opened_of_mapped {process : Process} (h : process.mapped = some object) :
    process.opened = some object := by
  cases process <;> simp_all [Process.mapped, Process.opened]

theorem Consistent.lt_nextProcess (hs : s.Consistent) (hp : s.processes p ≠ .ended) :
    p < s.nextProcess := by
  by_contra hge
  exact hp (hs.ended p (by omega))

end Facts

/-! ### What keeps the invariant -/

section Keep

variable {s : DaemonState} {p : ℕ} {process : Process}

/-- A process goes on with the daemons and objects it had. -/
theorem Consistent.setProcess (hs : s.Consistent) (hp : p < s.nextProcess)
    (hserves : process.serves = (s.processes p).serves)
    (hmapped : ∀ object, process.mapped = some object → s.isSized object = true)
    (hopened : ∀ object, process.opened = some object → object < s.nextObject) :
    (s.setProcess p process).Consistent := by
  have hserves' : ∀ q, ((s.setProcess p process).processes q).serves = (s.processes q).serves := by
    intro q
    by_cases h : q = p <;> simp [DaemonState.setProcess, h, hserves]
  constructor
  case running =>
    intro q object hq
    exact hs.running q object (by rw [← hserves' q, hq])
  case served =>
    intro object hobject
    obtain ⟨q, hq⟩ := hs.served object hobject
    exact ⟨q, by rw [hserves' q, hq]⟩
  case sized =>
    intro q object hq
    by_cases h : q = p
    · exact hmapped object (by simpa [DaemonState.setProcess, h] using hq)
    · exact hs.sized q object (by simpa [DaemonState.setProcess, h] using hq)
  case named => exact hs.named
  case opened =>
    intro q object hq
    by_cases h : q = p
    · exact hopened object (by simpa [DaemonState.setProcess, h] using hq)
    · exact hs.opened q object (by simpa [DaemonState.setProcess, h] using hq)
  case ended =>
    intro q hq
    have hq' : s.nextProcess ≤ q := hq
    have h : q ≠ p := by omega
    simpa [DaemonState.setProcess, h] using hs.ended q hq'

/-- A process that has no object goes on without one. -/
theorem Consistent.setProcess_bare (hs : s.Consistent) (hp : p < s.nextProcess)
    (hserves : (s.processes p).serves = none) (hopened : process.opened = none) :
    (s.setProcess p process).Consistent := by
  have hmapped : process.mapped = none := by
    cases hm : process.mapped with
    | none => rfl
    | some object => exact absurd (opened_of_mapped hm) (by simp [hopened])
  have hnone : process.serves = none := by
    cases hq : process.serves with
    | none => rfl
    | some object => exact absurd (mapped_of_serves hq) (by simp [hmapped])
  exact hs.setProcess hp (by rw [hnone, hserves]) (by simp [hmapped]) (by simp [hopened])

/-- A new process that serves nothing yet. -/
theorem Consistent.spawn (hs : s.Consistent) (hserves : process.serves = none)
    (hmapped : process.mapped = none)
    (hopened : ∀ object, process.opened = some object → object < s.nextObject) :
    (s.spawn process).Consistent := by
  have hnext : ({ s with nextProcess := s.nextProcess + 1 } : DaemonState).Consistent :=
    { hs with ended := fun q hq => hs.ended q (Nat.le_of_succ_le hq) }
  show (({ s with nextProcess := s.nextProcess + 1 } : DaemonState).setProcess s.nextProcess
    process).Consistent
  refine hnext.setProcess (Nat.lt_succ_self _) ?_ ?_ hopened
  · rw [hserves, hs.ended s.nextProcess le_rfl]
    rfl
  · simp [hmapped]

theorem Consistent.unlink (hs : s.Consistent) : (s.unlink appPath).Consistent := by
  refine { hs with named := ?_ }
  intro name object hname
  simp only [DaemonState.unlink, Function.update_apply] at hname
  split at hname
  · simp at hname
  · exact hs.named name object hname

theorem Consistent.truncate (hs : s.Consistent) (object : ShmObject) :
    (s.truncate object).Consistent := by
  refine { hs with sized := ?_ }
  intro q object' hq
  simp only [DaemonState.truncate, Function.update_apply]
  split
  · rfl
  · exact hs.sized q object' hq

/-- The object behind `O_CREAT` is one in use. -/
theorem Consistent.create (hs : s.Consistent) :
    (s.create appPath).2.Consistent
      ∧ (s.create appPath).1 < (s.create appPath).2.nextObject := by
  cases hnamed : s.named appPath with
  | some object =>
      simp only [DaemonState.create, hnamed]
      exact ⟨hs, hs.named _ object hnamed⟩
  | none =>
      simp only [DaemonState.create, hnamed]
      refine ⟨?_, Nat.lt_succ_self _⟩
      have hne : ∀ q object, (s.processes q).mapped = some object → object ≠ s.nextObject :=
        fun q object hq => (hs.opened q object (opened_of_mapped hq)).ne
      constructor
      case running =>
        intro q object hq
        simpa [hne q object (mapped_of_serves hq)] using hs.running q object hq
      case served =>
        intro object hobject
        by_cases h : object = s.nextObject
        · simp [h] at hobject
        · exact hs.served object (by simpa [h] using hobject)
      case sized =>
        intro q object hq
        simpa [hne q object hq] using hs.sized q object hq
      case named =>
        intro name object hname
        simp only [Function.update_apply] at hname
        split at hname
        · obtain rfl := Option.some.inj hname
          exact Nat.lt_succ_self _
        · exact Nat.lt_succ_of_lt (hs.named name object hname)
      case opened => exact fun q object hq => Nat.lt_succ_of_lt (hs.opened q object hq)
      case ended => exact hs.ended

/-- A daemon raises the flag of the object it has mapped. -/
theorem Consistent.raise (hs : s.Consistent) {object : ShmObject}
    (hp : s.processes p = .sized object) :
    ((s.raise object).setProcess p (.looping .testing object false)).Consistent := by
  have hlt : p < s.nextProcess := hs.lt_nextProcess (by simp [hp])
  have hother : ∀ q, q ≠ p → ((s.raise object).setProcess p
      (.looping .testing object false)).processes q = s.processes q := by
    intro q h
    simp [DaemonState.setProcess, DaemonState.raise, h]
  have hself : ((s.raise object).setProcess p (.looping .testing object false)).processes p
      = .looping .testing object false := by simp [DaemonState.setProcess]
  constructor
  case running =>
    intro q object' hq
    simp only [DaemonState.setProcess, DaemonState.raise, Function.update_apply]
    split
    · rfl
    · rename_i hne
      by_cases h : q = p
      · rw [h, hself] at hq
        exact absurd (Option.some.inj hq).symm hne
      · rw [hother q h] at hq
        exact hs.running q object' hq
  case served =>
    intro object' hobject
    by_cases h : object' = object
    · exact ⟨p, by rw [hself, h]; rfl⟩
    · obtain ⟨q, hq⟩ := hs.served object'
        (by simpa [DaemonState.setProcess, DaemonState.raise, h] using hobject)
      have hqp : q ≠ p := by
        rintro rfl
        simp [hp, Process.serves] at hq
      exact ⟨q, by rw [hother q hqp, hq]⟩
  case sized =>
    intro q object' hq
    by_cases h : q = p
    · rw [h, hself] at hq
      exact hs.sized p object' (by rw [hp]; exact hq)
    · rw [hother q h] at hq
      exact hs.sized q object' hq
  case named => exact hs.named
  case opened =>
    intro q object' hq
    by_cases h : q = p
    · rw [h, hself] at hq
      exact hs.opened p object' (by rw [hp]; exact hq)
    · rw [hother q h] at hq
      exact hs.opened q object' hq
  case ended =>
    intro q hq
    have h : q ≠ p := by
      have : s.nextProcess ≤ q := hq
      omega
    rw [hother q h]
    exact hs.ended q hq

/-- `stop` clears a flag and tells the daemons that go by it. -/
theorem Consistent.clear (hs : s.Consistent) (object : ShmObject) :
    (s.clear object).Consistent := by
  constructor
  case running =>
    intro q object' hq
    simp only [DaemonState.clear, serves_tell, Option.filter_eq_some_iff] at hq
    have hne : object' ≠ object := by simpa using hq.2
    simp only [DaemonState.clear, Function.update_of_ne hne]
    exact hs.running q object' hq.1
  case served =>
    intro object' hobject
    by_cases h : object' = object
    · simp [DaemonState.clear, h] at hobject
    · obtain ⟨q, hq⟩ := hs.served object' (by simpa [DaemonState.clear, h] using hobject)
      exact ⟨q, by simp [DaemonState.clear, hq, h]⟩
  case sized =>
    intro q object' hq
    exact hs.sized q object' (by simpa [DaemonState.clear] using hq)
  case named => exact hs.named
  case opened =>
    intro q object' hq
    exact hs.opened q object' (by simpa [DaemonState.clear] using hq)
  case ended =>
    intro q hq
    simp only [DaemonState.clear, hs.ended q hq]
    rfl

/-- Every next step of a process keeps the invariant. -/
theorem Consistent.advance (hs : s.Consistent) (p : ℕ) (ok : Bool) :
    (s.advance appPath p ok).Consistent := by
  by_cases hended : s.processes p = .ended
  · simpa [DaemonState.advance, hended] using hs
  have hlt := hs.lt_nextProcess hended
  have hsized := hs.sized p
  have hopened := hs.opened p
  cases hp : s.processes p with
  | ended => exact absurd hp hended
  | unlinking who =>
      simp only [DaemonState.advance, hp]
      exact (hs.unlink appPath).setProcess_bare hlt
        (by simp [DaemonState.unlink, hp, Process.serves]) rfl
  | forked =>
      simp only [DaemonState.advance, hp]
      split
      · obtain ⟨hcreate, hobject⟩ := hs.create appPath
        refine hcreate.setProcess ?_ ?_ ?_ ?_
        · simpa [create_nextProcess] using hlt
        · simp [create_processes, hp, Process.serves]
        · simp [Process.mapped]
        · simpa [Process.opened] using hobject
      · exact hs.setProcess_bare hlt (by rw [hp]; rfl) rfl
  | created object =>
      simp only [DaemonState.advance, hp]
      split
      · refine (hs.truncate object).setProcess hlt ?_ ?_ ?_
        · simp [DaemonState.truncate, hp, Process.serves]
        · simp [DaemonState.truncate, Process.mapped]
        · simpa [DaemonState.truncate, hp, Process.opened] using hopened
      · exact hs.setProcess_bare hlt (by rw [hp]; rfl) rfl
  | sized object =>
      simp only [DaemonState.advance, hp]
      split
      · exact hs.raise hp
      · exact hs.setProcess_bare hlt (by rw [hp]; rfl) rfl
  | looping position object told =>
      rw [hp] at hsized hopened
      have hgo : ∀ position', (s.setProcess p (.looping position' object told)).Consistent :=
        fun position' =>
          hs.setProcess hlt (by cases told <;> simp [hp, Process.serves]) hsized hopened
      cases position with
      | testing =>
          simp only [DaemonState.advance, hp]
          split
          · exact hgo .sleeping
          · rename_i hdown
            -- a daemon that finds the flag down has been told
            refine hs.setProcess_bare hlt ?_ rfl
            cases told with
            | true => rw [hp]; rfl
            | false => exact absurd (hs.running p object (by simp [hp, Process.serves])) hdown
      | sleeping => simpa only [DaemonState.advance, hp] using hgo .exporting
      | exporting => simpa only [DaemonState.advance, hp] using hgo .testing
  | stopping object =>
      simp only [DaemonState.advance, hp]
      split
      · exact (hs.clear object).setProcess_bare hlt
          (by simp [DaemonState.clear, hp, Process.tell, Process.serves]) rfl
      · exact hs.setProcess_bare hlt (by rw [hp]; rfl) rfl

/-- Every event keeps the invariant. -/
theorem Consistent.step (hs : s.Consistent) (e : DaemonEvent) : (s.step appPath e).Consistent := by
  cases e with
  | start ok =>
      simp only [DaemonState.step]
      split
      · exact hs.spawn rfl rfl (by simp [Process.opened])
      · split
        · exact hs.spawn rfl rfl (by simp [Process.opened])
        · exact hs
  | stop =>
      simp only [DaemonState.step]
      split
      · rename_i object hnamed
        exact hs.spawn rfl rfl (by simpa [Process.opened] using hs.named _ object hnamed)
      · exact hs
  | advance p ok => exact hs.advance appPath p ok

end Keep

/-! ### Serving -/

section Serving

variable {appPath} {s s' : DaemonState} {p : ℕ} {object : ShmObject}

/-- `stop` and its next step reach a daemon that the name leads to. -/
theorem Consistent.stop_tells (hs : s.Consistent) (hp : (s.processes p).serves = some object)
    (hnamed : s.named appPath = some object) :
    let s' := (s.step appPath .stop).step appPath (.advance s.nextProcess true)
    s'.isRunning object = false ∧ ∃ position, s'.processes p = .looping position object true := by
  obtain ⟨position, hposition⟩ := serves_eq_some.1 hp
  have hne : p ≠ s.nextProcess := (hs.lt_nextProcess (by simp [hposition])).ne
  have hsized : s.isSized object = true := hs.sized p object (mapped_of_serves hp)
  have hstop : s.step appPath .stop = s.spawn (.stopping object) := by
    simp [DaemonState.step, hnamed]
  have hclear : (s.spawn (.stopping object)).advance appPath s.nextProcess true
      = ((s.spawn (.stopping object)).clear object).setProcess s.nextProcess
        (.unlinking .stop) := by
    simp [DaemonState.advance, DaemonState.spawn, DaemonState.setProcess, hsized]
  simp only [hstop]
  rw [DaemonState.step, hclear]
  refine ⟨by simp [DaemonState.setProcess, DaemonState.clear], position, ?_⟩
  simp [DaemonState.setProcess, DaemonState.clear, DaemonState.spawn, hne, hposition, Process.tell]

/-- A consistent state serves when it has one daemon and the name leads to its flag. -/
theorem Consistent.serving_iff (hs : s.Consistent) :
    s.Serving appPath ↔
      (∀ p q object object', (s.processes p).serves = some object →
        (s.processes q).serves = some object' → p = q)
      ∧ ∀ p object, (s.processes p).serves = some object → s.named appPath = some object :=
  ⟨fun h => ⟨h.single, h.reachable⟩, fun h =>
    { single := h.1
      reachable := h.2
      stoppable := fun p object hp => hs.stop_tells hp (h.2 p object hp) }⟩

/-- A state with the daemons of one that serves and the name of it serves. -/
theorem Serving.congr (hserving : s.Serving appPath) (hs' : s'.Consistent)
    (hserves : ∀ q, (s'.processes q).serves = (s.processes q).serves)
    (hnamed : ∀ object, s.named appPath = some object → s'.named appPath = some object) :
    s'.Serving appPath := by
  rw [hs'.serving_iff]
  refine ⟨fun p q object object' hp hq => ?_, fun p object hp => ?_⟩
  · exact hserving.single p q object object' (by rw [← hserves p, hp]) (by rw [← hserves q, hq])
  · exact hnamed object (hserving.reachable p object (by rw [← hserves p, hp]))

theorem serves_setProcess {process : Process}
    (h : process.serves = (s.processes p).serves) (q : ℕ) :
    ((s.setProcess p process).processes q).serves = (s.processes q).serves := by
  by_cases hq : q = p <;> simp [DaemonState.setProcess, hq, h]

/-- Unlinking the name serves on when there is no flag up behind it. -/
theorem serving_unlink_iff (hs : s.Consistent) (hserving : s.Serving appPath)
    (hs' : ((s.unlink appPath).setProcess p .ended).Consistent)
    (hp : (s.processes p).serves = none) :
    ((s.unlink appPath).setProcess p .ended).Serving appPath
      ↔ ∀ object ∈ s.named appPath, s.isRunning object = false := by
  have hended : Process.ended.serves = ((s.unlink appPath).processes p).serves := hp.symm
  have hserves := serves_setProcess hended
  have hnone : ((s.unlink appPath).setProcess p .ended).named appPath = none := by simp
  constructor
  · intro hserving' object hobject
    by_contra hup
    obtain ⟨q, hq⟩ := hs.served object (by simpa using hup)
    have hreach := hserving'.reachable q object ((hserves q).trans hq)
    rw [hnone] at hreach
    cases hreach
  · intro hdown
    have hnobody : ∀ q object, (s.processes q).serves ≠ some object := by
      intro q object hq
      have hup := hs.running q object hq
      rw [hdown object (hserving.reachable q object hq)] at hup
      cases hup
    rw [hs'.serving_iff]
    exact ⟨fun q _ object _ hq _ => absurd ((hserves q).symm.trans hq) (hnobody q object),
      fun q object hq => absurd ((hserves q).symm.trans hq) (hnobody q object)⟩

/-- Raising a flag serves on when the name leads to it and it is down. -/
theorem serving_raise_iff (hs : s.Consistent) (hserving : s.Serving appPath)
    (hp : s.processes p = .sized object) :
    ((s.raise object).setProcess p (.looping .testing object false)).Serving appPath
      ↔ s.named appPath = some object ∧ s.isRunning object = false := by
  have hs' := hs.raise hp
  set s' := (s.raise object).setProcess p (.looping .testing object false) with hraised
  have hself : (s'.processes p).serves = some object := by
    simp [hraised, DaemonState.setProcess, Process.serves]
  have hother : ∀ q, q ≠ p → (s'.processes q).serves = (s.processes q).serves := by
    intro q h
    simp [hraised, DaemonState.setProcess, DaemonState.raise, h]
  have hnamed : s'.named appPath = s.named appPath := rfl
  constructor
  · intro hserving'
    refine ⟨hnamed ▸ hserving'.reachable p object hself, ?_⟩
    by_contra hup
    obtain ⟨q, hq⟩ := hs.served object (by simpa using hup)
    have hqp : q ≠ p := by
      rintro rfl
      simp [hp, Process.serves] at hq
    exact hqp (hserving'.single q p object object ((hother q hqp).trans hq) hself)
  · rintro ⟨hname, hdown⟩
    have honly : ∀ q object', (s'.processes q).serves = some object' →
        q = p ∧ object' = object := by
      intro q object' hq
      by_cases h : q = p
      · rw [h, hself] at hq
        exact ⟨h, (Option.some.inj hq).symm⟩
      · rw [hother q h] at hq
        obtain rfl := Option.some.inj ((hserving.reachable q object' hq).symm.trans hname)
        have hup := hs.running q object' hq
        rw [hdown] at hup
        cases hup
    rw [hs'.serving_iff]
    refine ⟨fun q q' _ _ hq hq' => ?_, fun q object' hq => ?_⟩
    · rw [(honly q _ hq).1, (honly q' _ hq').1]
    · rw [hnamed, (honly q object' hq).2, hname]

/-- Telling daemons only leaves fewer that have not been told. -/
theorem serving_clear (hserving : s.Serving appPath)
    (hs' : ((s.clear object).setProcess p (.unlinking .stop)).Consistent) :
    ((s.clear object).setProcess p (.unlinking .stop)).Serving appPath := by
  have hfewer : ∀ q object', (((s.clear object).setProcess p (.unlinking .stop)).processes
      q).serves = some object' → (s.processes q).serves = some object' := by
    intro q object' hq
    by_cases h : q = p
    · simp [DaemonState.setProcess, h, Process.serves] at hq
    · simp only [DaemonState.setProcess, DaemonState.clear, Function.update_of_ne h, serves_tell,
        Option.filter_eq_some_iff] at hq
      exact hq.1
  rw [hs'.serving_iff]
  refine ⟨fun q q' object' object'' hq hq' => ?_, fun q object' hq => ?_⟩
  · exact hserving.single q q' object' object'' (hfewer q _ hq) (hfewer q' _ hq')
  · exact hserving.reachable q object' (hfewer q object' hq)

/-- A process goes on with the daemon it was, in a state where the name leads where it led. -/
theorem Serving.of_setProcess {s₁ : DaemonState} {process : Process}
    (hserving : s.Serving appPath) (hs' : s'.Consistent) (heq : s' = s₁.setProcess p process)
    (hprocesses : s₁.processes = s.processes)
    (hnamed : ∀ object, s.named appPath = some object → s₁.named appPath = some object)
    (hserves : process.serves = (s.processes p).serves) : s'.Serving appPath := by
  refine hserving.congr hs' (fun q => ?_) fun object hobject => ?_
  · rw [heq, serves_setProcess (by rw [hserves, hprocesses]), hprocesses]
  · rw [heq]
    exact hnamed object hobject

/-- A daemon in its loop serves the same wherever it is in it. -/
theorem serves_looping (position position' : LoopPosition) (object : ShmObject) (told : Bool) :
    (Process.looping position object told).serves
      = (Process.looping position' object told).serves := by
  cases told <;> rfl

/-- A step of a process that neither unlinks nor raises. -/
theorem serving_advance_of_quiet (hs : s.Consistent) (hserving : s.Serving appPath) (ok : Bool)
    (hunlinking : ∀ who, s.processes p ≠ .unlinking who)
    (hsized : ∀ object, ok = true → s.processes p ≠ .sized object) :
    (s.advance appPath p ok).Serving appPath := by
  have hs' := hs.advance appPath p ok
  -- the steps that touch no name and no flag
  have hquiet : ∀ process : Process, s.advance appPath p ok = s.setProcess p process →
      process.serves = (s.processes p).serves → (s.advance appPath p ok).Serving appPath :=
    fun process heq hserves => hserving.of_setProcess hs' heq rfl (fun _ => id) hserves
  cases hp : s.processes p with
  | ended => simpa [DaemonState.advance, hp] using hserving
  | unlinking who => exact absurd hp (hunlinking who)
  | forked =>
      cases ok with
      | false => exact hquiet .ended (by simp [DaemonState.advance, hp]) (by rw [hp]; rfl)
      | true =>
          have heq : s.advance appPath p true = (s.create appPath).2.setProcess p
              (.created (s.create appPath).1) := by simp [DaemonState.advance, hp]
          exact hserving.of_setProcess hs' heq (s.create_processes appPath)
            (fun _ => s.named_create appPath) (by rw [hp]; rfl)
  | created object =>
      cases ok with
      | false =>
          exact hquiet (.unlinking .daemon) (by simp [DaemonState.advance, hp]) (by rw [hp]; rfl)
      | true =>
          have heq : s.advance appPath p true = (s.truncate object).setProcess p (.sized object) :=
            by simp [DaemonState.advance, hp]
          exact hserving.of_setProcess hs' heq rfl (fun _ => id) (by rw [hp]; rfl)
  | sized object =>
      cases ok with
      | false => exact hquiet .ended (by simp [DaemonState.advance, hp]) (by rw [hp]; rfl)
      | true => exact absurd hp (hsized object rfl)
  | looping position object told =>
      cases position with
      | testing =>
          cases hflag : s.isRunning object with
          | true =>
              exact hquiet (.looping .sleeping object told)
                (by simp [DaemonState.advance, hp, hflag]) (by rw [hp, serves_looping])
          | false =>
              refine hquiet (.unlinking .daemon) (by simp [DaemonState.advance, hp, hflag]) ?_
              cases told with
              | true => rw [hp]; rfl
              | false =>
                  -- the flag of a daemon that has not been told is up
                  have hup := hs.running p object (by rw [hp]; rfl)
                  rw [hflag] at hup
                  cases hup
      | sleeping =>
          exact hquiet (.looping .exporting object told) (by simp [DaemonState.advance, hp])
            (by rw [hp, serves_looping])
      | exporting =>
          exact hquiet (.looping .testing object told) (by simp [DaemonState.advance, hp])
            (by rw [hp, serves_looping])
  | stopping object =>
      cases hclear : ok && s.isSized object with
      | false =>
          exact hquiet .ended (by simp [DaemonState.advance, hp, hclear]) (by rw [hp]; rfl)
      | true =>
          have heq : s.advance appPath p ok
              = (s.clear object).setProcess p (.unlinking .stop) := by
            simp [DaemonState.advance, hp, hclear]
          rw [heq] at hs' ⊢
          exact serving_clear hserving hs'

theorem serving_spawn {process : Process} (hs : s.Consistent) (hserving : s.Serving appPath)
    (hs' : (s.spawn process).Consistent) (hprocess : process.serves = none) :
    (s.spawn process).Serving appPath := by
  refine hserving.congr hs' (fun q => ?_) fun object hnamed => hnamed
  have hnone : process.serves = (s.processes s.nextProcess).serves := by
    rw [hprocess, hs.ended s.nextProcess le_rfl]
    rfl
  exact serves_setProcess hnone q

/-- One event keeps a state that serves serving if and only if it is orderly. -/
theorem serving_step_iff (hs : s.Consistent) (hserving : s.Serving appPath) (e : DaemonEvent) :
    (s.step appPath e).Serving appPath ↔ s.Orderly appPath e := by
  have hs' := hs.step appPath e
  cases e with
  | start ok =>
      refine iff_of_true ?_ trivial
      simp only [DaemonState.step] at hs' ⊢
      cases hnamed : s.named appPath with
      | some object =>
          rw [hnamed] at hs'
          exact serving_spawn hs hserving hs' rfl
      | none =>
          rw [hnamed] at hs'
          cases ok with
          | true => exact serving_spawn hs hserving hs' rfl
          | false => exact hserving
  | stop =>
      refine iff_of_true ?_ trivial
      simp only [DaemonState.step] at hs' ⊢
      split at hs'
      · exact serving_spawn hs hserving hs' rfl
      · exact hserving
  | advance p ok =>
      simp only [DaemonState.step] at hs' ⊢
      cases hp : s.processes p with
      | unlinking who =>
          simp only [DaemonState.advance, hp, DaemonState.Orderly] at hs' ⊢
          exact serving_unlink_iff hs hserving hs' (by rw [hp]; rfl)
      | sized object =>
          cases ok with
          | true =>
              simp only [DaemonState.advance, hp, DaemonState.Orderly, ↓reduceIte, forall_const]
              exact serving_raise_iff hs hserving hp
          | false =>
              refine iff_of_true ?_ (by simp [DaemonState.Orderly, hp])
              exact serving_advance_of_quiet hs hserving false (by simp [hp]) (by simp)
      | _ =>
          refine iff_of_true ?_ (by simp [DaemonState.Orderly, hp])
          exact serving_advance_of_quiet hs hserving ok (by simp [hp]) (by simp [hp])

end Serving

end DaemonState

/-! ### Runs -/

/-- The states that a sequence of events leads to, from one without processes and names. -/
def daemonRun (appPath : CString) (events : List DaemonEvent) :
    List (DaemonEvent × DaemonState) :=
  GuardedRun.runOf (DaemonState.step appPath) {} events

/-- **A run has at most one daemon that has not been told to stop, with its flag behind the name,
if and only if every event of it is orderly.** -/
theorem daemonRun_serving_iff (appPath : CString) (events : List DaemonEvent) :
    (∀ p ∈ daemonRun appPath events, p.2.Serving appPath)
      ↔ GuardedRun.Guarded (DaemonState.Orderly appPath) {} (daemonRun appPath events) := by
  have hstart : DaemonState.Consistent {} := by
    constructor <;> simp [Process.serves, Process.mapped, Process.opened]
  have hserving : DaemonState.Serving appPath {} := by
    constructor <;> simp [Process.serves]
  exact (GuardedRun.isRun_runOf (DaemonState.step appPath) {} events).forall_iff_guarded
    (fun s e s' hs hstep => hstep ▸ hs.step appPath e)
    (fun s e s' hs hgood hstep => hstep ▸ DaemonState.serving_step_iff hs hgood e) hstart hserving

/-- Three times `start`, each with time for its daemon to raise the flag: the second unlinks the
name of the daemon that the first has started. -/
def threeStarts : List DaemonEvent :=
  [.start true, .advance 0 true, .advance 0 true, .advance 0 true,
   .start true, .advance 1 true,
   .start true, .advance 2 true, .advance 2 true, .advance 2 true]

/-- After three times `start` two daemons are in their loops, neither has been told to stop, and the
name leads to the flag of the last. -/
theorem daemonRun_threeStarts :
    let appPath := ascii "/usr/bin/nvipfix"
    let last := threeStarts.foldl (DaemonState.step appPath) {}
    ¬ (∀ p ∈ daemonRun appPath threeStarts, p.2.Serving appPath)
      ∧ last.processes 0 = .looping .testing 0 false
      ∧ last.processes 2 = .looping .testing 1 false
      ∧ last.named appPath = some 1 := by
  intro appPath last
  refine ⟨fun hall => ?_, rfl, rfl, rfl⟩
  have hserving := hall (.advance 2 true, last) (List.mem_of_getLast? rfl)
  exact absurd (hserving.single 0 2 0 1 rfl rfl) (by decide)

end NvIpfix
