/-
**The command line.**

`main` looks at its second argument: `start` and `stop` are commands for the daemon, and whatever
else it is, two date-times are expected, behind the name of a file if the argument begins with `-f`.
How many arguments there are is looked at once, and the date-times are taken from where they have to
be; what keeps `main` from reading behind the arguments is that they end with `NULL`, which is not a
date-time.

What does go wrong is elsewhere.  A path that is not there is escaped all the same; `stop` takes any
mapping for a flag, also `MAP_FAILED` and that of an object that has no size yet; and a date-time is
split with a character map, which has no entry for other than 7-bit characters.

Main definitions:

* `NvIpfix.argument` — an argument, the `NULL` behind the last one, or nothing;
* `NvIpfix.ShmMapping` — what `stop` finds under the name of the daemon;
* `NvIpfix.mainCommand` — what `main` does.

Main results:

* `NvIpfix.parseArguments_eq_none_iff` — date-times are looked for among the arguments;
* `NvIpfix.mainCommand_undefined_iff` — **when `main` goes wrong**.
-/

import NvIpfix.Daemon
import NvIpfix.Polling
import NvIpfix.SevenBit

set_option relaxedAutoImplicit false
set_option autoImplicit false

namespace NvIpfix

/-! ### What `main` does -/

/-- The argument at an index: `argv` ends with `NULL`, and there is nothing behind it. -/
def argument (args : List CString) (i : ℕ) : Option (Option CString) :=
  if i ≤ args.length then some args[i]? else none

/-- What `main` comes to. -/
inductive MainCommand
  /-- The usage is printed, or the path of the binary cannot be resolved. -/
  | argsError
  /-- `main_daemon`. -/
  | daemon (path : CString)
  /-- There is no object under the name of the daemon. -/
  | sharedMemoryError
  /-- The flag behind the name is cleared, and the name is unlinked. -/
  | stop (shmName : CString)
  | exportFile (filename : CString) (startTs endTs : Datetime)
  | exportNvc (startTs endTs : Datetime) (withinLast : Int32)
  /-- An argument behind `NULL` is read, a name is made of `NULL`, a flag is cleared where there is
  none, or a character map is accessed out of range. -/
  | undefined

/-- What `shm_open` and `mmap` come to. -/
inductive ShmMapping
  /-- `shm_open` fails. -/
  | absent
  /-- `mmap` gives `MAP_FAILED`. -/
  | failed
  | mapped (isSized : Bool)
  deriving DecidableEq

/-- What `main` depends on: `realpath`, whether `malloc` succeeds, the object that `stop` finds
under a name, and the calendar. -/
structure MainEnv where
  realpath : CString → Option CString
  malloc : Bool
  shm : CString → ShmMapping
  calendar : Calendar

/-- `nvipfix_parse_datetime_iso8601` of an argument, unless an access to a character map is out of
range. -/
def parseArgument : Option CString → Option (Bool × Datetime)
  | none => some (false, {})
  | some s => if SplitsInRange (datetimeSplits s) then some (parseDatetimeIso8601 s {}) else none

/-- The date-times from an index on, unless one of them is not; nothing, if one is behind `NULL` or
cannot be split.  The second is read only behind a first. -/
def parseArguments (args : List CString) (argIndexTs : ℕ) :
    Option (Option (Datetime × Datetime)) := do
  let first ← argument args argIndexTs
  let (result, startTs) ← parseArgument first
  if !result then some none
  else do
    let second ← argument args (argIndexTs + 1)
    let (result, endTs) ← parseArgument second
    if !result then some none else some (some (startTs, endTs))

/-- The seconds that the switch is asked for. -/
def mainWithinLast (calendar : Calendar) (startTs endTs : Datetime) : Int32 :=
  (datetimeToCtime calendar endTs - datetimeToCtime calendar startTs).toInt32

/-- `main`, without its messages to the log, up to the calls of `main_daemon`,
`nvipfix_main_export_file` and `nvipfix_main_export_nvc`. -/
def mainCommand (env : MainEnv) : List CString → MainCommand
  | path :: arg :: rest =>
      if arg.take 2 = ascii "-f" then
        match parseArguments (path :: arg :: rest) 2 with
        | none => .undefined
        | some none => .argsError
        | some (some (startTs, endTs)) => .exportFile (arg.drop 2) startTs endTs
      else if arg = ascii "start" then
        match env.realpath path with
        | none => .argsError
        -- without a buffer, the result is in memory that nobody knows of
        | some appPath => if env.malloc then .daemon appPath else .undefined
      else if arg = ascii "stop" then
        match env.realpath path with
        | none => .undefined
        | some appPath =>
            match env.shm (shmNameEscape appPath) with
            | .absent => .sharedMemoryError
            -- only `NULL` is taken for a failure
            | .failed => .undefined
            | .mapped false => .undefined
            | .mapped true => .stop (shmNameEscape appPath)
      else
        match parseArguments (path :: arg :: rest) 1 with
        | none => .undefined
        | some none => .argsError
        | some (some (startTs, endTs)) =>
            .exportNvc startTs endTs (mainWithinLast env.calendar startTs endTs)
  | _ => .argsError

/-! ### Date-times among the arguments -/

section Arguments

variable {args : List CString} {i : ℕ}

/-- An argument is split in range, or is `NULL`. -/
theorem parseArgument_eq_none_iff {arg : Option CString} :
    parseArgument arg = none ↔ ∃ s, arg = some s ∧ ¬ SevenBit s := by
  cases arg with
  | none => simp [parseArgument]
  | some s => simp [parseArgument, splitsInRange_datetimeSplits]

theorem parseArgument_eq_some {s : CString} (hs : SevenBit s) :
    parseArgument (some s) = some (parseDatetimeIso8601 s {}) :=
  if_pos (splitsInRange_datetimeSplits.2 hs)

/-- The arguments from an index on that are looked at as date-times have other than 7-bit
characters: the first of them, or the second behind a date-time. -/
def LooksOutOfRange (args : List CString) (i : ℕ) : Prop :=
  ∃ first, args[i]? = some first ∧ (¬ SevenBit first ∨ (parseDatetimeIso8601 first {}).1 = true ∧
    ∃ second, args[i + 1]? = some second ∧ ¬ SevenBit second)

/-- **Date-times are looked for among the arguments**: behind a date-time there is an argument, or
`NULL`, and behind `NULL` nothing is looked for.  So only what is looked at can go wrong. -/
theorem parseArguments_eq_none_iff (h : i ≤ args.length) :
    parseArguments args i = none ↔ LooksOutOfRange args i := by
  rw [parseArguments, argument, if_pos h, LooksOutOfRange]
  cases hfirst : args[i]? with
  | none => simp [parseArgument]
  | some first =>
      have hlt : i + 1 ≤ args.length := (List.getElem?_eq_some_iff.1 hfirst).1
      by_cases hseven : SevenBit first
      · rw [argument, if_pos hlt]
        simp only [Option.bind_eq_bind, Option.bind_some, parseArgument_eq_some hseven,
          Option.some.injEq, exists_eq_left', hseven, not_true, false_or]
        rcases parseDatetimeIso8601 first {} with ⟨_ | _, startTs⟩
        · simp
        · simp only [Bool.not_true, Bool.false_eq_true, if_false, true_and]
          rw [← parseArgument_eq_none_iff]
          cases parseArgument args[i + 1]? with
          | none => simp
          | some parsed =>
              rw [Option.bind_some]
              refine iff_of_false ?_ (Option.some_ne_none _)
              split <;> exact Option.some_ne_none _
      · have hnone : parseArgument (some first) = none :=
          parseArgument_eq_none_iff.2 ⟨first, rfl, hseven⟩
        simp [hnone, hseven]

end Arguments

/-! ### The command line -/

section Command

variable {env : MainEnv} {path arg : CString} {rest : List CString}

/-- With `-f`, date-times are looked for behind the name of the file. -/
theorem mainCommand_file (h : arg.take 2 = ascii "-f") :
    mainCommand env (path :: arg :: rest) = .undefined ↔
      LooksOutOfRange (path :: arg :: rest) 2 := by
  have hlen : 2 ≤ (path :: arg :: rest).length := by simp
  rw [← parseArguments_eq_none_iff hlen, mainCommand, if_pos h]
  rcases parseArguments (path :: arg :: rest) 2 with _ | _ | dates <;> simp

/-- `start` needs memory for the path. -/
theorem mainCommand_start : mainCommand env (path :: ascii "start" :: rest) = .undefined ↔
    (env.realpath path).isSome ∧ env.malloc = false := by
  rw [mainCommand, if_neg (by decide), if_pos rfl]
  cases env.realpath path with
  | none => simp
  | some appPath => cases env.malloc <;> simp

/-- `stop` needs a path, and an object with its size under the name, if there is one. -/
theorem mainCommand_stop : mainCommand env (path :: ascii "stop" :: rest) = .undefined ↔
    env.realpath path = none ∨ ∃ appPath, env.realpath path = some appPath ∧
      (env.shm (shmNameEscape appPath) = .failed ∨
        env.shm (shmNameEscape appPath) = .mapped false) := by
  rw [mainCommand, if_neg (by decide), if_neg (by decide), if_pos rfl]
  cases env.realpath path with
  | none => simp
  | some appPath =>
      simp only [reduceCtorEq, Option.some.injEq, exists_eq_left', false_or]
      rcases env.shm (shmNameEscape appPath) with _ | _ | _ | _ <;> simp

/-- Without a command, date-times are looked for from the first argument on. -/
theorem mainCommand_dates (hfile : arg.take 2 ≠ ascii "-f") (hstart : arg ≠ ascii "start")
    (hstop : arg ≠ ascii "stop") : mainCommand env (path :: arg :: rest) = .undefined ↔
      LooksOutOfRange (path :: arg :: rest) 1 := by
  have hlen : 1 ≤ (path :: arg :: rest).length := by simp
  rw [← parseArguments_eq_none_iff hlen, mainCommand, if_neg hfile, if_neg hstart, if_neg hstop]
  rcases parseArguments (path :: arg :: rest) 1 with _ | _ | dates <;> simp

end Command

/-- **When `main` goes wrong**: if there is no memory for the path that `start` finds, if `stop`
finds no path, or cannot map what is under the name or finds an object there without its size, or if
an argument that is looked at as a date-time has other than 7-bit characters.  No argument behind
`NULL` is ever read, whatever the arguments are. -/
theorem mainCommand_undefined_iff (env : MainEnv) (args : List CString) :
    mainCommand env args = .undefined ↔
      ∃ path arg rest, args = path :: arg :: rest ∧
        (arg = ascii "start" ∧ (env.realpath path).isSome ∧ env.malloc = false ∨
          arg = ascii "stop" ∧ (env.realpath path = none ∨ ∃ appPath,
            env.realpath path = some appPath ∧
              (env.shm (shmNameEscape appPath) = .failed ∨
                env.shm (shmNameEscape appPath) = .mapped false)) ∨
          arg.take 2 = ascii "-f" ∧ LooksOutOfRange args 2 ∨
          arg ≠ ascii "start" ∧ arg ≠ ascii "stop" ∧ arg.take 2 ≠ ascii "-f" ∧
            LooksOutOfRange args 1) := by
  rcases args with _ | ⟨path, _ | ⟨arg, rest⟩⟩
  · exact iff_of_false MainCommand.noConfusion (by simp)
  · exact iff_of_false MainCommand.noConfusion (by simp)
  · simp only [List.cons.injEq, exists_and_left, exists_eq_left', and_assoc]
    have hwords : ascii "stop" ≠ ascii "start" ∧ (ascii "start").take 2 ≠ ascii "-f" ∧
        (ascii "stop").take 2 ≠ ascii "-f" := by decide
    obtain ⟨hword, hstartFile, hstopFile⟩ := hwords
    by_cases hstart : arg = ascii "start"
    · subst hstart
      rw [mainCommand_start]
      simp [hword.symm, hstartFile]
    · by_cases hstop : arg = ascii "stop"
      · subst hstop
        rw [mainCommand_stop]
        simp [hword, hstopFile]
      · by_cases hfile : arg.take 2 = ascii "-f"
        · rw [mainCommand_file hfile]
          simp [hstart, hstop, hfile]
        · rw [mainCommand_dates hfile hstart hstop]
          simp [hstart, hstop, hfile]

end NvIpfix
