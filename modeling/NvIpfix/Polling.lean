/-
**What the switch is asked for.**

`nvipfix_main_export_nvc` is called with the dates of an interval and with a number of seconds, and
only the number reaches the query: the switch answers with what happened within the last so many
seconds before the query is made.  The daemon takes the interval from its readings of the clock and
the number from the configuration; a batch run takes both from the dates it is given.  Instants are
in nanoseconds, `time` reads the clock in whole seconds, and how long everything takes is open.

Main definitions:

* `NvIpfix.NvcQuery`, `NvIpfix.nvipfixImportNvc` — a query and its window;
* `NvIpfix.Poll` — an interval and the query made for it;
* `NvIpfix.DaemonLoop`, `NvIpfix.DaemonLoop.iterate` — the loop of `main_daemon`;
* `NvIpfix.mainBatch` — a batch run of `main`.

Main results:

* `NvIpfix.DaemonLoop.covered_iterate_iff` — one iteration of the loop;
* `NvIpfix.mainBatch_contained_iff` — a batch run;
* `NvIpfix.polling_covered_iff` — **the runs whose windows hold their intervals**.
-/

import NvIpfix.Time
import NvIpfix.GuardedRun
import Mathlib.Tactic.NormNum

set_option relaxedAutoImplicit false
set_option autoImplicit false

namespace NvIpfix

/-! ### Queries -/

/-- The nanoseconds of a second. -/
def second : ℤ := 1000000000

/-- `time`, of an instant of the clock. -/
def time (instant : ℤ) : ℤ := instant / second

/-- The filter of a query, with the dates that come with it and the instant it is made. -/
structure NvcQuery where
  startTs : Datetime
  endTs : Datetime
  withinLast : UInt64
  instant : ℤ

/-- An instant is in the window of a query: within the last so many seconds before it. -/
def NvcQuery.Window (query : NvcQuery) (t : ℤ) : Prop :=
  query.instant - query.withinLast.toNat * second ≤ t ∧ t ≤ query.instant

/-- The query of `nvipfix_import_nvc`: of its arguments only the number reaches the filter, an `int`
stored in 64 bits without sign. -/
def nvipfixImportNvc (startTs endTs : Datetime) (withinLast : Int32) (instant : ℤ) : NvcQuery where
  startTs := startTs
  endTs := endTs
  withinLast := withinLast.toInt64.toUInt64
  instant := instant

/-- An interval of `time_t` and the query that was made for it. -/
structure Poll where
  startT : ℤ
  endT : ℤ
  query : NvcQuery

/-- An instant is in the interval of a poll. -/
def Poll.Interval (poll : Poll) (t : ℤ) : Prop :=
  poll.startT * second ≤ t ∧ t ≤ poll.endT * second

/-- The window of the query contains the interval. -/
def Poll.Contained (poll : Poll) : Prop := ∀ t, poll.Interval t → poll.query.Window t

/-! ### The daemon -/

/-- What an iteration takes beyond the seconds it waits for: the rest of the sleep, the way from the
reading of the clock to the query, and the way from there to the next test of the flag. -/
structure PollDelays where
  oversleep : ℕ
  toQuery : ℕ
  rest : ℕ

/-- The loop of `main_daemon` at the test of the flag, with the polls so far, the latest first. -/
structure DaemonLoop where
  clock : ℤ
  startT : ℤ
  polls : List Poll := []

/-- The loop of a daemon that reads its clock at an instant, and comes to the loop later. -/
def DaemonLoop.start (clock : ℤ) (toLoop : ℕ) : DaemonLoop where
  clock := clock + toLoop
  startT := time clock

/-- `sleep( waitSeconds )`, whose argument is unsigned. -/
def sleepSeconds (waitSeconds : Int32) : ℕ := waitSeconds.toUInt32.toNat

/-- One iteration of the loop. -/
def DaemonLoop.iterate (calendar : Calendar) (waitSeconds : Int32) (s : DaemonLoop)
    (d : PollDelays) : DaemonLoop :=
  let nowClock := s.clock + sleepSeconds waitSeconds * second + d.oversleep
  let nowT := time nowClock
  let startTs := (ctimeToDatetime calendar {} (Int64.ofInt s.startT)).2
  let endTs := (ctimeToDatetime calendar {} (Int64.ofInt nowT)).2
  let query := nvipfixImportNvc startTs endTs waitSeconds (nowClock + d.toQuery)
  { clock := query.instant + d.rest
    startT := nowT
    polls := { startT := s.startT, endT := nowT, query := query } :: s.polls }

/-- Every window so far contains its interval, and the windows leave no instant uncovered between
the second the daemon started in and its latest query. -/
structure DaemonLoop.Covered (began : ℤ) (s : DaemonLoop) : Prop where
  contained : ∀ poll ∈ s.polls, poll.Contained
  gapless : ∀ latest ∈ s.polls.head?, ∀ t, began * second ≤ t → t ≤ latest.query.instant →
    ∃ poll ∈ s.polls, poll.query.Window t

/-- An iteration without delay from the instant of the second it counts from.  With a negative
number of seconds the window reaches far back, and delays up to what it exceeds the sleep by do no
harm. -/
def DaemonLoop.Punctual (waitSeconds : Int32) (s : DaemonLoop) (d : PollDelays) : Prop :=
  if 0 ≤ waitSeconds then s.clock = s.startT * second ∧ d.oversleep = 0 ∧ d.toQuery = 0
  else s.clock - s.startT * second + d.oversleep + d.toQuery ≤ (2 ^ 64 - 2 ^ 32) * second

/-! ### A batch run -/

/-- A batch run of `main` that queries the switch at an instant: the difference of the two times is
an `int`. -/
def mainBatch (calendar : Calendar) (startTs endTs : Datetime) (instant : ℤ) : Poll :=
  let startT := datetimeToCtime calendar startTs
  let endT := datetimeToCtime calendar endTs
  { startT := startT.toInt
    endT := endT.toInt
    query := nvipfixImportNvc startTs endTs (endT - startT).toInt32 instant }

/-- When the window of a batch run contains its interval: the query is made at the very end of the
interval, or the number of seconds is negative as an `int` and the window reaches far back. -/
def BatchTimely (startT endT instant : ℤ) : Prop :=
  if endT - startT < 2 ^ 31 then instant = endT * second
  else 2 ^ 31 ≤ (endT - startT) % 2 ^ 32 ∧ endT * second ≤ instant
    ∧ instant ≤ (startT + (2 ^ 64 - 2 ^ 32) + (endT - startT) % 2 ^ 32) * second

/-! ### Windows -/

theorem time_mul_second_le (instant : ℤ) : time instant * second ≤ instant :=
  Int.ediv_mul_le instant (by decide)

theorem toNat_toUInt64 (x : Int64) : (x.toUInt64.toNat : ℤ) = x.toInt % 2 ^ 64 := by
  have hbmod : x.toInt = (x.toBitVec.toNat : ℤ).bmod (2 ^ 64) :=
    BitVec.toInt_eq_toNat_bmod x.toBitVec
  have hlt : x.toBitVec.toNat < 2 ^ 64 := x.toBitVec.isLt
  have hnat : x.toUInt64.toNat = x.toBitVec.toNat := rfl
  rw [hbmod, hnat, show (2 : ℤ) ^ 64 = (2 ^ 64 : ℕ) by norm_num, Int.bmod_emod]
  omega

theorem toNat_toUInt32 (x : Int32) : (x.toUInt32.toNat : ℤ) = x.toInt % 2 ^ 32 := by
  have hbmod : x.toInt = (x.toBitVec.toNat : ℤ).bmod (2 ^ 32) :=
    BitVec.toInt_eq_toNat_bmod x.toBitVec
  have hlt : x.toBitVec.toNat < 2 ^ 32 := x.toBitVec.isLt
  have hnat : x.toUInt32.toNat = x.toBitVec.toNat := rfl
  rw [hbmod, hnat, show (2 : ℤ) ^ 32 = (2 ^ 32 : ℕ) by norm_num, Int.bmod_emod]
  omega

/-- The number of a query exceeds that of the sleep when it is negative. -/
theorem toNat_withinLast (waitSeconds : Int32) :
    (waitSeconds.toInt64.toUInt64.toNat : ℤ)
      = sleepSeconds waitSeconds + if 0 ≤ waitSeconds then 0 else 2 ^ 64 - 2 ^ 32 := by
  have hlt := waitSeconds.toInt_lt
  have hle := waitSeconds.le_toInt
  have hnonneg : 0 ≤ waitSeconds ↔ 0 ≤ waitSeconds.toInt := Int32.le_iff_toInt_le
  rw [toNat_toUInt64, Int32.toInt_toInt64, sleepSeconds, toNat_toUInt32]
  simp only [hnonneg]
  split <;> omega

/-- A window contains an interval that it reaches back from and that has ended. -/
theorem Poll.contained_iff (poll : Poll) :
    poll.Contained ↔ poll.endT < poll.startT
      ∨ (poll.query.instant - poll.query.withinLast.toNat * second ≤ poll.startT * second
        ∧ poll.endT * second ≤ poll.query.instant) := by
  have hle : poll.startT ≤ poll.endT ↔ poll.startT * second ≤ poll.endT * second := by
    simp only [second]
    omega
  constructor
  · intro hcontained
    by_cases h : poll.startT ≤ poll.endT
    · exact .inr ⟨(hcontained _ ⟨le_rfl, hle.1 h⟩).1, (hcontained _ ⟨hle.1 h, le_rfl⟩).2⟩
    · exact .inl (not_le.1 h)
  · rintro (hempty | ⟨hreach, hended⟩) t ⟨hstart, hend⟩
    · exact absurd (hle.2 (hstart.trans hend)) (not_le.2 hempty)
    · exact ⟨hreach.trans hstart, hend.trans hended⟩

/-! ### The loop -/

section Loop

variable (calendar : Calendar) (waitSeconds : Int32) {s : DaemonLoop} (d : PollDelays)

/-- The poll of an iteration has the interval from the last reading of the clock on. -/
theorem DaemonLoop.contained_iterate_iff (hs : s.startT * second ≤ s.clock) :
    (∀ poll ∈ (s.iterate calendar waitSeconds d).polls.head?, poll.Contained)
      ↔ s.Punctual waitSeconds d := by
  have hwithin := toNat_withinLast waitSeconds
  have hsleep : (0 : ℤ) ≤ sleepSeconds waitSeconds := Int.natCast_nonneg _
  have hend := time_mul_second_le (s.clock + sleepSeconds waitSeconds * second + d.oversleep)
  have hstart : s.startT
      ≤ time (s.clock + sleepSeconds waitSeconds * second + d.oversleep) := by
    rw [time, Int.le_ediv_iff_mul_le (by decide)]
    simp only [second] at hs ⊢
    omega
  simp only [DaemonLoop.iterate, nvipfixImportNvc, List.head?_cons, Option.mem_def,
    Option.some.injEq, forall_eq', Poll.contained_iff, hwithin, DaemonLoop.Punctual]
  generalize time (s.clock + sleepSeconds waitSeconds * second + d.oversleep) = endT at *
  simp only [second] at *
  split <;> omega

/-- What the readings of the clock of a daemon that began in a second have in common. -/
structure DaemonLoop.Timed (began : ℤ) (s : DaemonLoop) : Prop where
  reading : s.startT * second ≤ s.clock
  first : s.polls = [] → s.startT = began
  latest : ∀ latest ∈ s.polls.head?, s.startT * second ≤ latest.query.instant

theorem DaemonLoop.timed_iterate (began : ℤ) (s : DaemonLoop) :
    (s.iterate calendar waitSeconds d).Timed began := by
  have hend := time_mul_second_le (s.clock + sleepSeconds waitSeconds * second + d.oversleep)
  constructor
  case reading =>
    simp only [DaemonLoop.iterate, nvipfixImportNvc]
    omega
  case first => simp [DaemonLoop.iterate]
  case latest =>
    simp only [DaemonLoop.iterate, nvipfixImportNvc, List.head?_cons, Option.mem_def,
      Option.some.injEq, forall_eq']
    omega

/-- A window that contains its interval reaches from there to the query. -/
theorem Poll.Contained.mem_window {poll : Poll} (hpoll : poll.Contained)
    (hle : poll.startT ≤ poll.endT) {t : ℤ} (hstart : poll.startT * second ≤ t)
    (hend : t ≤ poll.query.instant) : poll.query.Window t := by
  have hreach := (poll.contained_iff.1 hpoll).resolve_left (by omega)
  exact ⟨hreach.1.trans hstart, hend⟩

/-- One iteration leaves the polls covered if and only if it is punctual. -/
theorem DaemonLoop.covered_iterate_iff {began : ℤ} (hs : s.Timed began)
    (hcovered : s.Covered began) :
    (s.iterate calendar waitSeconds d).Covered began ↔ s.Punctual waitSeconds d := by
  rw [← DaemonLoop.contained_iterate_iff calendar waitSeconds d hs.reading]
  constructor
  · intro hcovered' poll hpoll
    exact hcovered'.contained poll (List.mem_of_mem_head? hpoll)
  · intro hnew
    obtain ⟨poll, hpolls, hpollStart, hpollEnd⟩ :
        ∃ poll, (s.iterate calendar waitSeconds d).polls = poll :: s.polls
          ∧ poll.startT = s.startT
          ∧ poll.endT = time (s.clock + sleepSeconds waitSeconds * second + d.oversleep) :=
      ⟨_, rfl, rfl, rfl⟩
    have hpoll : poll.Contained := hnew poll (by simp [hpolls])
    have hle : poll.startT ≤ poll.endT := by
      have hreading := hs.reading
      rw [hpollStart, hpollEnd, time, Int.le_ediv_iff_mul_le (by decide)]
      simp only [second] at hreading ⊢
      omega
    constructor
    case contained =>
      rw [hpolls]
      rintro poll' hpoll'
      rcases List.mem_cons.1 hpoll' with rfl | hpoll'
      · exact hpoll
      · exact hcovered.contained poll' hpoll'
    case gapless =>
      rw [hpolls]
      rintro _ ⟨⟩ t hbegan hquery
      by_cases hstart : s.startT * second ≤ t
      · rw [← hpollStart] at hstart
        exact ⟨poll, by simp, hpoll.mem_window hle hstart hquery⟩
      · -- an instant before the interval has been covered by the polls before
        cases hlatest : s.polls.head? with
        | none =>
            have hfirst := hs.first (List.head?_eq_none_iff.1 hlatest)
            rw [hfirst] at hstart
            exact absurd hbegan hstart
        | some latest =>
            have hlast := hs.latest latest hlatest
            obtain ⟨poll', hpoll', ht⟩ :=
              hcovered.gapless latest hlatest t hbegan (by omega)
            exact ⟨poll', List.mem_cons_of_mem _ hpoll', ht⟩

end Loop

/-- The window of a batch run contains its interval. -/
theorem mainBatch_contained_iff (calendar : Calendar) (startTs endTs : Datetime) (instant : ℤ) :
    (mainBatch calendar startTs endTs instant).Contained
      ↔ (datetimeToCtime calendar endTs).toInt < (datetimeToCtime calendar startTs).toInt
        ∨ BatchTimely (datetimeToCtime calendar startTs).toInt
          (datetimeToCtime calendar endTs).toInt instant := by
  generalize hstart : datetimeToCtime calendar startTs = startT
  generalize hend : datetimeToCtime calendar endTs = endT
  have hwithin : ((endT - startT).toInt32.toInt64.toUInt64.toNat : ℤ)
      = (endT.toInt - startT.toInt).bmod (2 ^ 32) % 2 ^ 64 := by
    rw [toNat_toUInt64, Int32.toInt_toInt64, Int64.toInt_toInt32, Int64.toInt_sub,
      Int.bmod_bmod_of_dvd (by decide)]
  simp only [mainBatch, hstart, hend, nvipfixImportNvc, Poll.contained_iff, hwithin, BatchTimely,
    Int.bmod_def, second]
  split <;> split <;> omega

/-! ### Runs -/

/-- The states of the loop of a daemon that reads its clock at an instant, under a sequence of
delays. -/
def pollingRun (calendar : Calendar) (waitSeconds : Int32) (clock : ℤ) (toLoop : ℕ)
    (delays : List PollDelays) : List (PollDelays × DaemonLoop) :=
  GuardedRun.runOf (DaemonLoop.iterate calendar waitSeconds) (DaemonLoop.start clock toLoop) delays

/-- **The windows of a daemon contain their intervals and leave no gap if and only if every
iteration is punctual, and the window of a batch run contains its interval if and only if it is
timely.** -/
theorem polling_covered_iff (calendar : Calendar) (waitSeconds : Int32) (clock : ℤ) (toLoop : ℕ)
    (delays : List PollDelays) (startTs endTs : Datetime) (instant : ℤ) :
    ((∀ p ∈ pollingRun calendar waitSeconds clock toLoop delays, p.2.Covered (time clock))
      ↔ GuardedRun.Guarded (DaemonLoop.Punctual waitSeconds) (DaemonLoop.start clock toLoop)
        (pollingRun calendar waitSeconds clock toLoop delays))
    ∧ ((mainBatch calendar startTs endTs instant).Contained
      ↔ (datetimeToCtime calendar endTs).toInt < (datetimeToCtime calendar startTs).toInt
        ∨ BatchTimely (datetimeToCtime calendar startTs).toInt
          (datetimeToCtime calendar endTs).toInt instant) := by
  refine ⟨?_, mainBatch_contained_iff calendar startTs endTs instant⟩
  have htimed : (DaemonLoop.start clock toLoop).Timed (time clock) := by
    have hreading := time_mul_second_le clock
    constructor <;> simp [DaemonLoop.start]
    omega
  have hcovered : (DaemonLoop.start clock toLoop).Covered (time clock) := by
    constructor <;> simp [DaemonLoop.start]
  exact (GuardedRun.isRun_runOf _ _ delays).forall_iff_guarded
    (fun s d s' _ hstep => hstep ▸ DaemonLoop.timed_iterate calendar waitSeconds d (time clock) s)
    (fun s d s' hs hgood hstep =>
      hstep ▸ DaemonLoop.covered_iterate_iff calendar waitSeconds d hs hgood) htimed hcovered

/-- A daemon that starts with a second of its clock, waits for a minute and takes a second from its
reading of the clock to the query: what happens between the first query and a second later is in no
window, though the second interval contains it. -/
theorem pollingRun_gap :
    let d : PollDelays := { oversleep := 0, toQuery := 1000000000, rest := 0 }
    let run := pollingRun .epoch 60 0 0 [d, d]
    ¬ (∀ p ∈ run, p.2.Covered (time 0))
      ∧ ∃ s ∈ run.getLast?.map Prod.snd, (∀ poll ∈ s.polls, ¬ poll.query.Window 61500000000)
        ∧ ∃ poll ∈ s.polls, poll.Interval 61500000000 := by
  intro d run
  set last := ((DaemonLoop.start 0 0).iterate .epoch 60 d).iterate .epoch 60 d with hlast
  have hgap : ∀ poll ∈ last.polls, ¬ poll.query.Window 61500000000 := by
    rintro poll hpoll
    rcases List.mem_cons.1 hpoll with rfl | hpoll
    · exact fun h => absurd h.1 (by decide)
    · rw [List.mem_singleton.1 hpoll]
      exact fun h => absurd h.2 (by decide)
  refine ⟨fun hcovered => ?_, last, rfl, hgap, last.polls.head (by decide), List.head_mem _,
    by decide, by decide⟩
  have hlastCovered := hcovered (d, last) (List.mem_of_getLast? rfl)
  obtain ⟨poll, hpoll, ht⟩ := hlastCovered.gapless _ rfl 61500000000 (by decide) (by decide)
  exact hgap poll hpoll ht

end NvIpfix
