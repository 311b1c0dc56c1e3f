/-
**What becomes of a daemon that has been told to stop.**

`stop` clears the flag and takes the name away, and the daemon finds out at its next test of the
flag.  Until then others may go on as they like: start daemons of their own, stop them, unlink.  An
object whose flag is down, that no name leads to and that no process is about to raise the flag of
stays like this, since a new object has a new number.  A daemon of such an object has at most the
export left that it is asleep before, and ends.

Main definitions:

* `NvIpfix.DaemonState.Retired` — an object whose flag stays down;
* `NvIpfix.Process.stepsLeft` — the steps a daemon has left when its flag is down;
* `NvIpfix.DaemonState.exportsOf` — the exports of a daemon in a run.

Main results:

* `NvIpfix.DaemonState.Retired.step` — an object stays retired, whatever happens;
* `NvIpfix.DaemonState.Consistent.retired_stop` — `stop` retires an object;
* `NvIpfix.daemonRun_ends` — **a daemon of a retired object exports at most once more, and ends**.
-/

import NvIpfix.DaemonProtocol

set_option relaxedAutoImplicit false
set_option autoImplicit false

namespace NvIpfix

/-! ### Daemons on their way out -/

namespace Process

/-- A daemon of an object in its loop, or behind it. -/
def Leaves (object : ShmObject) : Process → Prop
  | looping _ object' _ => object' = object
  | unlinking who => who = .daemon
  | ended => True
  | _ => False

/-- The steps that a daemon has left when its flag is down. -/
def stepsLeft : Process → ℕ
  | looping .sleeping _ _ => 4
  | looping .exporting _ _ => 3
  | looping .testing _ _ => 2
  | unlinking _ => 1
  | _ => 0

/-- The exports that a daemon has left when its flag is down. -/
def exportsLeft : Process → ℕ
  | looping .sleeping _ _ => 1
  | _ => 0

/-- A process that is about to raise the flag of an object. -/
def Raises (object : ShmObject) : Process → Prop
  | created object' | sized object' => object' = object
  | _ => False

section Tell

variable {process : Process} {object : ShmObject}

@[simp] theorem raises_tell (object' : ShmObject) :
    (process.tell object').Raises object ↔ process.Raises object := by
  cases process <;> rfl

@[simp] theorem leaves_tell (object' : ShmObject) :
    (process.tell object').Leaves object ↔ process.Leaves object := by
  cases process <;> rfl

@[simp] theorem stepsLeft_tell (object' : ShmObject) :
    (process.tell object').stepsLeft = process.stepsLeft := by
  cases process with
  | looping position object told => cases position <;> rfl
  | _ => rfl

@[simp] theorem exportsLeft_tell (object' : ShmObject) :
    (process.tell object').exportsLeft = process.exportsLeft := by
  cases process with
  | looping position object told => cases position <;> rfl
  | _ => rfl

theorem stepsLeft_le (process : Process) : process.stepsLeft ≤ 4 := by
  cases process with
  | looping position object told => cases position <;> simp [stepsLeft]
  | _ => simp [stepsLeft]

theorem exportsLeft_le (process : Process) : process.exportsLeft ≤ 1 := by
  cases process with
  | looping position object told => cases position <;> simp [exportsLeft]
  | _ => simp [exportsLeft]

theorem Leaves.eq_ended (h : process.Leaves object) (hleft : process.stepsLeft = 0) :
    process = .ended := by
  cases process with
  | ended => rfl
  | unlinking who => cases hleft
  | looping position object told => cases position <;> cases hleft
  | _ => cases h

end Tell

end Process

namespace DaemonState

/-- An object whose flag is down and stays down: no name leads to it, and no process is about to
raise its flag. -/
structure Retired (object : ShmObject) (s : DaemonState) : Prop where
  down : s.isRunning object = false
  nameless : ∀ name, s.names name ≠ some object
  unraised : ∀ p, ¬(s.processes p).Raises object
  known : object < s.nextObject

/-- An event lets a daemon import and export. -/
def exports (p : ℕ) (s : DaemonState) : DaemonEvent → ℕ
  | .advance q _ => if q = p then (s.processes p).exportsLeft else 0
  | _ => 0

/-- The exports of a daemon in a run. -/
def exportsOf (appPath : CString) (p : ℕ) : DaemonState → List DaemonEvent → ℕ
  | _, [] => 0
  | s, e :: events => s.exports p e + exportsOf appPath p (s.step appPath e) events

/-- An event is a step of a process. -/
def stepOf (p : ℕ) : DaemonEvent → Bool
  | .advance q _ => q = p
  | _ => false

section Retired

variable (appPath : CString) {s : DaemonState} {object : ShmObject} {p : ℕ}

theorem Retired.setProcess (hs : s.Retired object) {process : Process}
    (h : ¬process.Raises object) : (s.setProcess p process).Retired object where
  down := hs.down
  nameless := hs.nameless
  known := hs.known
  unraised q := by
    simp only [DaemonState.setProcess, Function.update_apply]
    split
    · exact h
    · exact hs.unraised q

theorem Retired.spawn (hs : s.Retired object) {process : Process} (h : ¬process.Raises object) :
    (s.spawn process).Retired object where
  down := hs.down
  nameless := hs.nameless
  known := hs.known
  unraised := (hs.setProcess h).unraised

theorem Retired.unlink (hs : s.Retired object) : (s.unlink appPath).Retired object where
  down := hs.down
  unraised := hs.unraised
  known := hs.known
  nameless name := by
    simp only [DaemonState.unlink, Function.update_apply]
    split
    · exact (Option.some_ne_none object).symm
    · exact hs.nameless name

/-- Another object is opened, or a new one. -/
theorem Retired.create (hs : s.Retired object) :
    (s.create appPath).2.Retired object ∧ (s.create appPath).1 ≠ object := by
  rw [DaemonState.create]
  cases hnamed : s.named appPath with
  | some object' =>
      refine ⟨hs, fun h => hs.nameless (shmNameEscape appPath) ?_⟩
      rw [← h]
      exact hnamed
  | none =>
      have hne : object ≠ s.nextObject := hs.known.ne
      refine ⟨?_, hne.symm⟩
      constructor
      case down => exact (Function.update_of_ne hne _ _).trans hs.down
      case nameless =>
        intro name
        dsimp only
        rw [Function.update_apply]
        split
        · exact fun h => hne (Option.some.inj h).symm
        · exact hs.nameless name
      case unraised => exact hs.unraised
      case known => exact hs.known.trans (Nat.lt_succ_self _)

theorem Retired.truncate (hs : s.Retired object) (object' : ShmObject) :
    (s.truncate object').Retired object :=
  ⟨hs.down, hs.nameless, hs.unraised, hs.known⟩

theorem Retired.raise (hs : s.Retired object) {object' : ShmObject} (hne : object ≠ object') :
    (s.raise object').Retired object where
  down := (Function.update_of_ne hne _ _).trans hs.down
  nameless := hs.nameless
  unraised := hs.unraised
  known := hs.known

theorem Retired.clear (hs : s.Retired object) (object' : ShmObject) :
    (s.clear object').Retired object where
  down := by
    simp only [DaemonState.clear, Function.update_apply]
    split
    · rfl
    · exact hs.down
  nameless := hs.nameless
  unraised q := by
    rw [DaemonState.clear, Process.raises_tell]
    exact hs.unraised q
  known := hs.known

/-- No step of a process raises the flag. -/
theorem Retired.advance (hs : s.Retired object) (p : ℕ) (ok : Bool) :
    (s.advance appPath p ok).Retired object := by
  have hunraised := hs.unraised p
  rw [DaemonState.advance]
  cases hp : s.processes p with
  | ended => exact hs
  | unlinking who => exact (hs.unlink appPath).setProcess id
  | forked =>
      obtain ⟨hcreate, hne⟩ := hs.create appPath
      cases ok with
      | true => exact hcreate.setProcess hne
      | false => exact hs.setProcess id
  | created object' =>
      rw [hp] at hunraised
      cases ok with
      | true => exact (hs.truncate object').setProcess hunraised
      | false => exact hs.setProcess id
  | sized object' =>
      rw [hp] at hunraised
      cases ok with
      | true => exact (hs.raise fun h => hunraised h.symm).setProcess id
      | false => exact hs.setProcess id
  | looping position object' told =>
      cases position with
      | testing =>
          dsimp only
          split <;> exact hs.setProcess id
      | sleeping => exact hs.setProcess id
      | exporting => exact hs.setProcess id
  | stopping object' =>
      dsimp only
      split
      · exact (hs.clear object').setProcess id
      · exact hs.setProcess id

/-- **An object stays retired, whatever happens.** -/
theorem Retired.step (hs : s.Retired object) (e : DaemonEvent) :
    (s.step appPath e).Retired object := by
  cases e with
  | start ok =>
      rw [DaemonState.step]
      split
      · exact hs.spawn id
      · split
        · exact hs.spawn id
        · exact hs
  | stop =>
      rw [DaemonState.step]
      split
      · exact hs.spawn id
      · exact hs
  | advance p ok => exact hs.advance appPath p ok

end Retired

/-! ### A daemon of a retired object -/

section Ending

variable (appPath : CString) {s : DaemonState} {object : ShmObject} {p : ℕ}

theorem processes_setProcess_of_ne {q : ℕ} (hne : p ≠ q) (process : Process) :
    (s.setProcess q process).processes p = s.processes p :=
  Function.update_of_ne hne _ _

/-- The steps of others leave a daemon as it is, apart from what it has been told. -/
theorem processes_advance_of_ne {q : ℕ} (hne : p ≠ q) (ok : Bool) :
    (s.advance appPath q ok).processes p = s.processes p ∨
      ∃ object, (s.advance appPath q ok).processes p = (s.processes p).tell object := by
  rw [DaemonState.advance]
  cases s.processes q with
  | ended => exact .inl rfl
  | unlinking who => exact .inl (processes_setProcess_of_ne hne _)
  | forked =>
      cases ok with
      | true =>
          exact .inl ((processes_setProcess_of_ne hne _).trans
            (congrFun (create_processes appPath s) p))
      | false => exact .inl (processes_setProcess_of_ne hne _)
  | created object => cases ok <;> exact .inl (processes_setProcess_of_ne hne _)
  | sized object => cases ok <;> exact .inl (processes_setProcess_of_ne hne _)
  | looping position object told =>
      cases position with
      | testing =>
          dsimp only
          split <;> exact .inl (processes_setProcess_of_ne hne _)
      | sleeping => exact .inl (processes_setProcess_of_ne hne _)
      | exporting => exact .inl (processes_setProcess_of_ne hne _)
  | stopping object =>
      dsimp only
      split
      · exact .inr ⟨object, processes_setProcess_of_ne hne _⟩
      · exact .inl (processes_setProcess_of_ne hne _)

/-- The events of others leave a daemon as it is, apart from what it has been told. -/
theorem processes_step_of_ne (hp : p < s.nextProcess) {e : DaemonEvent}
    (he : stepOf p e = false) :
    (s.step appPath e).processes p = s.processes p ∨
      ∃ object, (s.step appPath e).processes p = (s.processes p).tell object := by
  cases e with
  | start ok =>
      rw [DaemonState.step]
      split
      · exact .inl (processes_setProcess_of_ne hp.ne _)
      · split
        · exact .inl (processes_setProcess_of_ne hp.ne _)
        · exact .inl rfl
  | stop =>
      rw [DaemonState.step]
      split
      · exact .inl (processes_setProcess_of_ne hp.ne _)
      · exact .inl rfl
  | advance q ok =>
      have hne : p ≠ q := by
        rintro rfl
        simp [stepOf] at he
      exact processes_advance_of_ne appPath hne ok

/-- Processes stay known. -/
theorem nextProcess_le_step (e : DaemonEvent) :
    s.nextProcess ≤ (s.step appPath e).nextProcess := by
  cases e with
  | start ok =>
      rw [DaemonState.step]
      split
      · exact Nat.le_succ _
      · split
        · exact Nat.le_succ _
        · exact le_rfl
  | stop =>
      rw [DaemonState.step]
      split
      · exact Nat.le_succ _
      · exact le_rfl
  | advance q ok =>
      rw [DaemonState.step, DaemonState.advance]
      cases s.processes q with
      | forked =>
          cases ok with
          | true => exact (create_nextProcess appPath s).ge
          | false => exact le_rfl
      | looping position object told =>
          cases position with
          | testing =>
              dsimp only
              split <;> exact le_rfl
          | _ => exact le_rfl
      | stopping object =>
          dsimp only
          split <;> exact le_rfl
      | created object => cases ok <;> exact le_rfl
      | sized object => cases ok <;> exact le_rfl
      | _ => exact le_rfl

/-- A daemon of a retired object, in its loop or behind it. -/
structure Ending (object : ShmObject) (p : ℕ) (s : DaemonState) : Prop where
  retired : s.Retired object
  leaves : (s.processes p).Leaves object
  spawned : p < s.nextProcess

/-- Its own steps bring a daemon closer to its end. -/
theorem Ending.advance (hs : s.Ending object p) (ok : Bool) :
    ((s.advance appPath p ok).processes p).Leaves object ∧
      ((s.advance appPath p ok).processes p).stepsLeft = (s.processes p).stepsLeft - 1 ∧
      ((s.advance appPath p ok).processes p).exportsLeft = 0 := by
  have hleaves := hs.leaves
  rw [DaemonState.advance]
  cases hp : s.processes p with
  | ended =>
      dsimp only
      rw [hp]
      exact ⟨trivial, rfl, rfl⟩
  | unlinking who =>
      simp only [DaemonState.setProcess, Function.update_self]
      exact ⟨trivial, rfl, rfl⟩
  | looping position object' told =>
      rw [hp] at hleaves
      obtain rfl : object' = object := hleaves
      cases position with
      | testing =>
          -- the flag is down
          simp only [hs.retired.down, Bool.false_eq_true, if_false, DaemonState.setProcess,
            Function.update_self]
          exact ⟨rfl, rfl, rfl⟩
      | sleeping =>
          simp only [DaemonState.setProcess, Function.update_self]
          exact ⟨rfl, rfl, rfl⟩
      | exporting =>
          simp only [DaemonState.setProcess, Function.update_self]
          exact ⟨rfl, rfl, rfl⟩
  | _ =>
      rw [hp] at hleaves
      cases hleaves

/-- Any event: the daemon has a step less if it is its own, and an export less if it begins one. -/
theorem Ending.step (hs : s.Ending object p) (e : DaemonEvent) :
    (s.step appPath e).Ending object p ∧
      ((s.step appPath e).processes p).stepsLeft =
        (s.processes p).stepsLeft - (stepOf p e).toNat ∧
      s.exports p e + ((s.step appPath e).processes p).exportsLeft =
        (s.processes p).exportsLeft := by
  have hretired := hs.retired.step appPath e
  have hspawned := hs.spawned.trans_le (nextProcess_le_step appPath e)
  cases he : stepOf p e with
  | true =>
      obtain ⟨ok, rfl⟩ : ∃ ok, e = .advance p ok := by
        cases e with
        | advance q ok =>
            obtain rfl : q = p := by simpa [stepOf] using he
            exact ⟨ok, rfl⟩
        | _ => cases he
      obtain ⟨hleaves, hsteps, hexports⟩ := hs.advance appPath ok
      refine ⟨⟨hretired, hleaves, hspawned⟩, hsteps, ?_⟩
      rw [exports, if_pos rfl, DaemonState.step, hexports, Nat.add_zero]
  | false =>
      have hexports : s.exports p e = 0 := by
        cases e with
        | advance q ok => exact if_neg (by simpa [stepOf] using he)
        | _ => rfl
      rw [hexports, Nat.zero_add, Bool.toNat_false, Nat.sub_zero]
      rcases processes_step_of_ne appPath hs.spawned he with hsame | ⟨object', htold⟩
      · rw [hsame]
        exact ⟨⟨hretired, hsame ▸ hs.leaves, hspawned⟩, rfl, rfl⟩
      · rw [htold, Process.stepsLeft_tell, Process.exportsLeft_tell]
        refine ⟨⟨hretired, ?_, hspawned⟩, rfl, rfl⟩
        rw [htold, Process.leaves_tell]
        exact hs.leaves

/-- **A daemon of a retired object ends**, and exports at most once more, whatever happens. -/
theorem Ending.run (hs : s.Ending object p) (events : List DaemonEvent) :
    (events.foldl (DaemonState.step appPath) s).Ending object p ∧
      ((events.foldl (DaemonState.step appPath) s).processes p).stepsLeft =
        (s.processes p).stepsLeft - events.countP (stepOf p) ∧
      exportsOf appPath p s events ≤ (s.processes p).exportsLeft := by
  induction events generalizing s with
  | nil => exact ⟨hs, rfl, Nat.zero_le _⟩
  | cons e events ih =>
      obtain ⟨hstep, hsteps, hexports⟩ := hs.step appPath e
      obtain ⟨hrun, hrunSteps, hrunExports⟩ := ih hstep
      refine ⟨hrun, ?_, ?_⟩
      · rw [List.foldl_cons, hrunSteps, hsteps, List.countP_cons]
        cases stepOf p e with
        | true =>
            rw [Bool.toNat_true, if_pos rfl]
            omega
        | false =>
            rw [Bool.toNat_false, if_neg Bool.false_ne_true]
            omega
      · rw [exportsOf]
        omega

end Ending

/-! ### The name -/

/-- No name is used but that of the binary. -/
def OneName (appPath : CString) (s : DaemonState) : Prop :=
  ∀ name object, s.names name = some object → name = shmNameEscape appPath

section OneName

variable {appPath : CString} {s : DaemonState}

theorem OneName.unlink (hs : s.OneName appPath) : (s.unlink appPath).OneName appPath := by
  intro name object hname
  simp only [DaemonState.unlink, Function.update_apply] at hname
  split at hname
  · cases hname
  · exact hs name object hname

theorem OneName.create (hs : s.OneName appPath) : (s.create appPath).2.OneName appPath := by
  rw [DaemonState.create]
  split
  · exact hs
  · intro name object hname
    simp only [Function.update_apply] at hname
    split at hname
    next heq => exact heq
    next => exact hs name object hname

theorem OneName.step (hs : s.OneName appPath) (e : DaemonEvent) :
    (s.step appPath e).OneName appPath := by
  cases e with
  | start ok =>
      rw [DaemonState.step]
      split
      · exact hs
      · split <;> exact hs
  | stop =>
      rw [DaemonState.step]
      split <;> exact hs
  | advance p ok =>
      rw [DaemonState.step, DaemonState.advance]
      cases s.processes p with
      | unlinking who => exact hs.unlink
      | forked =>
          cases ok with
          | true => exact hs.create
          | false => exact hs
      | looping position object told =>
          cases position with
          | testing =>
              dsimp only
              split <;> exact hs
          | _ => exact hs
      | stopping object =>
          dsimp only
          split <;> exact hs
      | created object => cases ok <;> exact hs
      | sized object => cases ok <;> exact hs
      | ended => exact hs

end OneName

/-- What a run from a state without processes and names leads to. -/
theorem consistent_run (appPath : CString) (events : List DaemonEvent) :
    (events.foldl (DaemonState.step appPath) {}).Consistent ∧
      (events.foldl (DaemonState.step appPath) {}).OneName appPath := by
  induction events using List.reverseRecOn with
  | nil =>
      refine ⟨?_, fun _ _ hname => by cases hname⟩
      constructor <;> simp [Process.serves, Process.mapped, Process.opened]
  | append_singleton events e ih =>
      rw [List.foldl_append]
      exact ⟨ih.1.step appPath e, ih.2.step e⟩

/-- `stop` retires the object that the name leads to, if no daemon is about to raise its flag. -/
theorem Consistent.retired_stop {appPath : CString} {s : DaemonState} {object : ShmObject}
    (hs : s.Consistent) (hone : s.OneName appPath) (hnamed : s.named appPath = some object)
    (hsized : s.isSized object = true) (hunraised : ∀ q, ¬(s.processes q).Raises object) :
    ([.stop, .advance s.nextProcess true, .advance s.nextProcess true].foldl
      (DaemonState.step appPath) s).Retired object := by
  have hspawn : s.step appPath .stop = s.spawn (.stopping object) := by
    simp [DaemonState.step, hnamed]
  have hclear : (s.spawn (.stopping object)).step appPath (.advance s.nextProcess true) =
      ((s.spawn (.stopping object)).clear object).setProcess s.nextProcess
        (.unlinking .stop) := by
    simp [DaemonState.step, DaemonState.advance, DaemonState.spawn, DaemonState.setProcess,
      hsized]
  have hunlink : (((s.spawn (.stopping object)).clear object).setProcess s.nextProcess
      (.unlinking .stop)).step appPath (.advance s.nextProcess true) =
        ((((s.spawn (.stopping object)).clear object).setProcess s.nextProcess
          (.unlinking .stop)).unlink appPath).setProcess s.nextProcess .ended := by
    simp [DaemonState.step, DaemonState.advance, DaemonState.setProcess]
  rw [List.foldl_cons, List.foldl_cons, List.foldl_cons, List.foldl_nil, hspawn, hclear, hunlink]
  constructor
  case down => simp [DaemonState.setProcess, DaemonState.unlink, DaemonState.clear]
  case nameless =>
    intro name hname
    simp only [DaemonState.setProcess, DaemonState.unlink, DaemonState.clear, DaemonState.spawn,
      Function.update_apply] at hname
    split at hname
    next => cases hname
    next hne => exact hne (hone name object hname)
  case unraised =>
    intro q
    simp only [DaemonState.setProcess, DaemonState.unlink, DaemonState.clear, DaemonState.spawn,
      Function.update_apply]
    split
    · exact id
    · rw [Process.raises_tell]
      exact hunraised q
  case known => exact hs.named _ _ hnamed

end DaemonState

/-- **A daemon whose object has been given up ends**: from a moment on at which its flag is down, no
name leads to it and nobody is about to raise it, whatever has happened before and whatever is done
then, the flag stays down and out of reach, the daemon exports at most once more, and its fourth
step is its last. -/
theorem daemonRun_ends (appPath : CString) (before after : List DaemonEvent) {p : ℕ}
    {position : LoopPosition} {object : ShmObject} {told : Bool} :
    let s := before.foldl (DaemonState.step appPath) {}
    s.processes p = .looping position object told → s.isRunning object = false →
      s.named appPath ≠ some object → (∀ q, ¬(s.processes q).Raises object) →
        let s' := after.foldl (DaemonState.step appPath) s
        s'.Retired object ∧ DaemonState.exportsOf appPath p s after ≤ 1 ∧
          (4 ≤ after.countP (DaemonState.stepOf p) → s'.processes p = .ended) := by
  intro s hp hdown hnamed hunraised s'
  obtain ⟨hs, hone⟩ := DaemonState.consistent_run appPath before
  have hopened : (s.processes p).opened = some object := by
    rw [hp]
    rfl
  have hending : s.Ending object p :=
    { retired :=
        { down := hdown
          nameless := fun name hname => hnamed (by
            rw [DaemonState.named, ← hone name object hname]
            exact hname)
          unraised := hunraised
          known := hs.opened p object hopened }
      leaves := by
        rw [hp]
        rfl
      spawned := hs.lt_nextProcess (by rw [hp]; exact Process.noConfusion) }
  obtain ⟨hrun, hsteps, hexports⟩ := hending.run appPath after
  refine ⟨hrun.retired, hexports.trans (Process.exportsLeft_le _), fun hcount => ?_⟩
  have hleft := (s.processes p).stepsLeft_le
  exact hrun.leaves.eq_ended (by omega)

/-- A daemon that is asleep when it is stopped, while the next one is started and goes to sleep. -/
theorem daemonRun_ends_asleep :
    let appPath := ascii "/usr/bin/nvipfix"
    let before := [.start true, .advance 0 true, .advance 0 true, .advance 0 true, .advance 0 true]
      ++ [.stop, .advance 1 true, .advance 1 true]
    let after := [.start true, .advance 0 true, .advance 2 true, .advance 0 true, .advance 2 true,
      .advance 0 true, .advance 2 true, .advance 2 true, .advance 0 true]
    let s := before.foldl (DaemonState.step appPath) {}
    let s' := after.foldl (DaemonState.step appPath) s
    s'.Retired 0 ∧ DaemonState.exportsOf appPath 0 s after ≤ 1 ∧
      (4 ≤ after.countP (DaemonState.stepOf 0) → s'.processes 0 = .ended) := by
  intro appPath before after
  obtain ⟨hs, hone⟩ := DaemonState.consistent_run appPath
    [.start true, .advance 0 true, .advance 0 true, .advance 0 true, .advance 0 true]
  have hunraised : ∀ q, ¬(([.start true, .advance 0 true, .advance 0 true, .advance 0 true,
      .advance 0 true].foldl (DaemonState.step appPath) {}).processes q).Raises 0 := by
    intro q
    match q with
    | 0 => exact id
    | q + 1 => exact id
  have hretired : (before.foldl (DaemonState.step appPath) {}).Retired 0 :=
    hs.retired_stop hone rfl rfl hunraised
  have hp : (before.foldl (DaemonState.step appPath) {}).processes 0 =
    .looping .sleeping 0 true := rfl
  exact daemonRun_ends appPath before after hp hretired.down
    (hretired.nameless (shmNameEscape appPath)) hretired.unraised

end NvIpfix
