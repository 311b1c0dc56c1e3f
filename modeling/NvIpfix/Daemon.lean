/-
**The daemon and the commands that start and stop it.**

The commands `start` and `stop` and the daemon of `main_daemon` share a name, the object that the
name leads to and the flag in that object.  Here every call that others can see is a step of its
own: `start` opens the name and then unlinks it or forks, `stop` opens, clears and unlinks, a daemon
creates the object, gives it its size, raises the flag, goes round its loop and unlinks.  Commands
and daemons are the processes of one system, and an event lets one of them take its next step.

The calls have their POSIX meaning.  Unlinking removes the name and leaves the object to those who
have opened it, `O_CREAT` makes a new object where the name is absent, and a new object has size
zero, so that a write through a mapping of it ends the process.

Main definitions:

* `NvIpfix.shmNameEscape` — the name of a binary;
* `NvIpfix.Process`, `NvIpfix.DaemonState` — the processes, the names and the objects;
* `NvIpfix.DaemonEvent`, `NvIpfix.DaemonState.step` — the events and what they do;
* `NvIpfix.Process.serves` — the daemons in their loop that have not been told to stop.
-/

import NvIpfix.CString
import Mathlib.Logic.Function.Basic

set_option relaxedAutoImplicit false
set_option autoImplicit false

namespace NvIpfix

/-! ### Processes -/

/-- `shm_name_escape`: from the second character on, each slash (47) becomes a colon (58). -/
def shmNameEscape : CString → CString
  | [] => []
  | c :: name => c :: name.map fun d => if d = 47 then 58 else d

/-- An object of shared memory. -/
abbrev ShmObject := ℕ

/-- Who is about to unlink the name. -/
inductive Unlinker
  | start
  | stop
  | daemon
  deriving DecidableEq, Repr

/-- Where a daemon is in its loop: at the test of the flag, asleep, or importing and exporting. -/
inductive LoopPosition
  | testing
  | sleeping
  | exporting
  deriving DecidableEq, Repr

/-- A process of the binary, by what it does next.  A daemon in its loop also carries whether it has
been told to stop, which no process reads. -/
inductive Process
  | ended
  /-- `shm_unlink`: `start` has found the name, `stop` has cleared the flag, or a daemon is done. -/
  | unlinking (who : Unlinker)
  /-- `shm_open` with `O_CREAT`: the child behind `fork`. -/
  | forked
  /-- `ftruncate`. -/
  | created (object : ShmObject)
  /-- `mmap` and `*isRunning = true`. -/
  | sized (object : ShmObject)
  | looping (position : LoopPosition) (object : ShmObject) (told : Bool)
  /-- `mmap` and `*isRunning = false`: `stop` has opened the name. -/
  | stopping (object : ShmObject)
  deriving DecidableEq, Repr

namespace Process

/-- The object of a daemon that is in its loop and has not been told to stop. -/
def serves : Process → Option ShmObject
  | looping _ object false => some object
  | _ => none

/-- The object that a process has opened. -/
def opened : Process → Option ShmObject
  | created object | sized object | looping _ object _ | stopping object => some object
  | _ => none

/-- The object that a daemon has given its size. -/
def mapped : Process → Option ShmObject
  | sized object | looping _ object _ => some object
  | _ => none

/-- A process after the flag of an object has been cleared by `stop`. -/
def tell (object : ShmObject) : Process → Process
  | looping position object' told => looping position object' (told || object' == object)
  | process => process

end Process

/-! ### Steps -/

/-- The names and objects of shared memory, and the processes, with the next unused of each. -/
structure DaemonState where
  names : CString → Option ShmObject := fun _ => none
  isSized : ShmObject → Bool := fun _ => false
  isRunning : ShmObject → Bool := fun _ => false
  nextObject : ShmObject := 0
  processes : ℕ → Process := fun _ => .ended
  nextProcess : ℕ := 0

/-- A command is given, or a process takes its next step.  `ok` is whether the call succeeds that
the step is about. -/
inductive DaemonEvent
  | start (ok : Bool)
  | stop
  | advance (process : ℕ) (ok : Bool)
  deriving DecidableEq, Repr

namespace DaemonState

variable (appPath : CString) (s : DaemonState)

/-- What the name of the binary leads to. -/
def named : Option ShmObject := s.names (shmNameEscape appPath)

/-- A process goes on. -/
def setProcess (p : ℕ) (process : Process) : DaemonState :=
  { s with processes := Function.update s.processes p process }

/-- A new process. -/
def spawn (process : Process) : DaemonState :=
  { s.setProcess s.nextProcess process with nextProcess := s.nextProcess + 1 }

/-- `shm_unlink`. -/
def unlink : DaemonState :=
  { s with names := Function.update s.names (shmNameEscape appPath) none }

/-- `shm_open` with `O_CREAT`: the object and the state. -/
def create : ShmObject × DaemonState :=
  match s.named appPath with
  | some object => (object, s)
  | none =>
      (s.nextObject, { s with
        names := Function.update s.names (shmNameEscape appPath) (some s.nextObject)
        isSized := Function.update s.isSized s.nextObject false
        isRunning := Function.update s.isRunning s.nextObject false
        nextObject := s.nextObject + 1 })

/-- `ftruncate` of a new object fills it with zeros, and one that has its size stays as it is. -/
def truncate (object : ShmObject) : DaemonState :=
  { s with isSized := Function.update s.isSized object true }

/-- `*isRunning = true`. -/
def raise (object : ShmObject) : DaemonState :=
  { s with isRunning := Function.update s.isRunning object true }

/-- `*isRunning = false` by `stop`, which tells the daemons of the object. -/
def clear (object : ShmObject) : DaemonState :=
  { s with
    isRunning := Function.update s.isRunning object false
    processes := fun p => (s.processes p).tell object }

@[simp] theorem named_setProcess (p : ℕ) (process : Process) :
    (s.setProcess p process).named appPath = s.named appPath := rfl

@[simp] theorem named_spawn (process : Process) :
    (s.spawn process).named appPath = s.named appPath := rfl

@[simp] theorem named_truncate (object : ShmObject) :
    (s.truncate object).named appPath = s.named appPath := rfl

@[simp] theorem named_raise (object : ShmObject) :
    (s.raise object).named appPath = s.named appPath := rfl

@[simp] theorem named_clear (object : ShmObject) :
    (s.clear object).named appPath = s.named appPath := rfl

@[simp] theorem named_unlink : (s.unlink appPath).named appPath = none := by
  simp [named, unlink]

@[simp] theorem create_processes : (s.create appPath).2.processes = s.processes := by
  unfold create
  split <;> rfl

@[simp] theorem create_nextProcess : (s.create appPath).2.nextProcess = s.nextProcess := by
  unfold create
  split <;> rfl

/-- Opening with `O_CREAT` leaves a name that is there. -/
theorem named_create {object : ShmObject} (hnamed : s.named appPath = some object) :
    (s.create appPath).2.named appPath = some object := by
  simp [create, hnamed]

/-- The next step of a process. -/
def advance (p : ℕ) (ok : Bool) : DaemonState :=
  match s.processes p with
  | .ended => s
  | .unlinking _ => (s.unlink appPath).setProcess p .ended
  | .forked =>
      if ok then
        let (object, s) := s.create appPath
        s.setProcess p (.created object)
      else s.setProcess p .ended
  | .created object =>
      if ok then (s.truncate object).setProcess p (.sized object)
      else s.setProcess p (.unlinking .daemon)
  -- a failed `mmap` is not `NULL`, and the write through it ends the process
  | .sized object =>
      if ok then (s.raise object).setProcess p (.looping .testing object false)
      else s.setProcess p .ended
  | .looping .testing object told =>
      if s.isRunning object then s.setProcess p (.looping .sleeping object told)
      else s.setProcess p (.unlinking .daemon)
  | .looping .sleeping object told => s.setProcess p (.looping .exporting object told)
  | .looping .exporting object told => s.setProcess p (.looping .testing object told)
  | .stopping object =>
      if ok && s.isSized object then (s.clear object).setProcess p (.unlinking .stop)
      else s.setProcess p .ended

/-- What an event does. -/
def step : DaemonEvent → DaemonState
  | .start ok =>
      match s.named appPath with
      | some _ => s.spawn (.unlinking .start)
      | none => if ok then s.spawn .forked else s
  | .stop =>
      match s.named appPath with
      | some object => s.spawn (.stopping object)
      | none => s
  | .advance p ok => s.advance appPath p ok

end DaemonState

end NvIpfix
