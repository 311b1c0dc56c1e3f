/-
**What the windows of a daemon overlap in, and what they miss.**

An iteration of the loop waits for the seconds that it then asks the switch for, and it takes longer
than it waits.  So each window begins after the query before it, and what happens between them is
asked for by no query, then or later.  The instants that are missed are as many as the delays of the
iterations take together.

Main definitions:

* `NvIpfix.NvcQuery.Within` — the instants that a query asks for;
* `NvIpfix.DaemonLoop.missed` — how many instants no query has asked for;
* `NvIpfix.DaemonLoop.Spaced` — windows that lie one behind the other.

Main results:

* `NvIpfix.DaemonLoop.Spaced.iterate`, `NvIpfix.DaemonLoop.missed_iterate` — one iteration;
* `NvIpfix.pollWindows_run` — **no instant is asked for twice, and what is missed are the delays**.
-/

import NvIpfix.Polling
import Mathlib.Data.Nat.Count

set_option relaxedAutoImplicit false
set_option autoImplicit false

namespace NvIpfix

/-! ### Windows without their first instant -/

/-- The beginning of the window of a query. -/
def NvcQuery.since (query : NvcQuery) : ℤ := query.instant - query.withinLast.toNat * second

/-- An instant is asked for by a query: it is in the window, and not where this begins, so that
windows that meet have no instant in common. -/
def NvcQuery.Within (query : NvcQuery) (t : ℤ) : Prop := query.since < t ∧ t ≤ query.instant

instance (query : NvcQuery) : DecidablePred query.Within :=
  fun t => inferInstanceAs (Decidable (query.since < t ∧ t ≤ query.instant))

/-- What an iteration takes beyond the seconds it waits for. -/
def PollDelays.total (d : PollDelays) : ℕ := d.oversleep + d.toQuery + d.rest

/-- How many instants behind one and up to the clock no query has asked for. -/
def DaemonLoop.missed (began : ℤ) (s : DaemonLoop) : ℕ :=
  Nat.count (fun n => ∀ poll ∈ s.polls, ¬poll.query.Within (began + 1 + n))
    (s.clock - began).toNat

/-- The windows lie one behind the other, between an instant and the clock. -/
structure DaemonLoop.Spaced (began : ℤ) (s : DaemonLoop) : Prop where
  began : began ≤ s.clock
  queried : ∀ poll ∈ s.polls, poll.query.instant ≤ s.clock
  spaced : s.polls.Pairwise fun later earlier => earlier.query.instant ≤ later.query.since

/-! ### An iteration -/

section Iteration

variable (calendar : Calendar) {waitSeconds : Int32} {began : ℤ} {s : DaemonLoop} (d : PollDelays)

/-- The poll of an iteration asks for the seconds that have been waited for, behind the delays. -/
theorem DaemonLoop.exists_iterate (hwait : 0 ≤ waitSeconds) (s : DaemonLoop) :
    ∃ poll, (s.iterate calendar waitSeconds d).polls = poll :: s.polls ∧
      poll.query.since = s.clock + d.oversleep + d.toQuery ∧
      poll.query.since ≤ poll.query.instant ∧
      (s.iterate calendar waitSeconds d).clock = poll.query.instant + d.rest := by
  refine ⟨_, rfl, ?_, ?_, rfl⟩
  · have hwithin := toNat_withinLast waitSeconds
    rw [if_pos hwait, add_zero] at hwithin
    simp only [NvcQuery.since, nvipfixImportNvc, hwithin]
    ring
  · have hseconds : (0 : ℤ) ≤ (nvipfixImportNvc (ctimeToDatetime calendar {}
        (Int64.ofInt s.startT)).2 (ctimeToDatetime calendar {} (Int64.ofInt
          (time (s.clock + sleepSeconds waitSeconds * second + d.oversleep)))).2 waitSeconds
            (s.clock + sleepSeconds waitSeconds * second + d.oversleep + d.toQuery)
              ).withinLast.toNat * second :=
      mul_nonneg (Int.natCast_nonneg _) (by simp [second])
    simp only [NvcQuery.since]
    omega

/-- **An iteration asks for nothing that has been asked for.** -/
theorem DaemonLoop.Spaced.iterate (hwait : 0 ≤ waitSeconds) (hs : s.Spaced began) :
    (s.iterate calendar waitSeconds d).Spaced began := by
  obtain ⟨poll, hpolls, hsince, hle, hclock⟩ := DaemonLoop.exists_iterate calendar d hwait s
  have hbegan := hs.began
  constructor
  case began => omega
  case queried =>
    rw [hpolls]
    rintro poll' hpoll'
    rcases List.mem_cons.1 hpoll' with rfl | hpoll'
    · omega
    · have hqueried := hs.queried poll' hpoll'
      omega
  case spaced =>
    rw [hpolls, List.pairwise_cons]
    refine ⟨fun earlier hearlier => ?_, hs.spaced⟩
    have hqueried := hs.queried earlier hearlier
    omega

/-- **An iteration misses its delays.** -/
theorem DaemonLoop.missed_iterate (hwait : 0 ≤ waitSeconds) (hs : s.Spaced began) :
    (s.iterate calendar waitSeconds d).missed began = s.missed began + d.total := by
  obtain ⟨poll, hpolls, hsince, hle, hclock⟩ := DaemonLoop.exists_iterate calendar d hwait s
  have hbegan := hs.began
  -- the delays lie before the window of the query and behind it
  obtain ⟨before, hdelay⟩ : ∃ before, d.oversleep + d.toQuery = before := ⟨_, rfl⟩
  have hlength : ((s.iterate calendar waitSeconds d).clock - began).toNat =
      (s.clock - began).toNat + (before +
        ((poll.query.instant - poll.query.since).toNat + d.rest)) := by
    omega
  have hnone : ∀ t, s.clock < t → ∀ poll ∈ s.polls, ¬poll.query.Within t := by
    intro t ht poll' hpoll' hwithin
    have hqueried := hs.queried poll' hpoll'
    exact absurd hwithin.2 (by omega)
  rw [missed, hlength]
  simp only [hpolls, List.forall_mem_cons]
  rw [Nat.count_add, Nat.count_add, Nat.count_add]
  have hbefore : Nat.count (fun n => ¬poll.query.Within (began + 1 + n) ∧
      ∀ poll ∈ s.polls, ¬poll.query.Within (began + 1 + n)) (s.clock - began).toNat =
        s.missed began := by
    refine le_antisymm (Nat.count_mono_left fun n _ h => h.2) (Nat.count_mono_left ?_)
    intro n hn h
    refine ⟨fun hwithin => ?_, h⟩
    exact absurd hwithin.1 (by omega)
  rw [hbefore, Nat.count_of_forall, Nat.count_of_forall_not, Nat.count_of_forall, PollDelays.total,
    hdelay, Nat.zero_add]
  · intro n hn
    exact ⟨fun hwithin => absurd hwithin.2 (by omega), hnone _ (by omega)⟩
  · intro n hn h
    exact h.1 ⟨by omega, by omega⟩
  · intro n hn
    exact ⟨fun hwithin => absurd hwithin.1 (by omega), hnone _ (by omega)⟩

end Iteration

/-! ### Runs -/

/-- **No instant is asked for twice, and what is missed are the delays**: if the seconds to wait for
are not negative, two windows of a daemon have at most the end of the earlier one in common, and the
instants since the daemon came to its loop that are in none are as many as the delays. -/
theorem pollWindows_run (calendar : Calendar) {waitSeconds : Int32} (hwait : 0 ≤ waitSeconds)
    (clock : ℤ) (toLoop : ℕ) (delays : List PollDelays) :
    let s := delays.foldl (DaemonLoop.iterate calendar waitSeconds) (DaemonLoop.start clock toLoop)
    (s.polls.Pairwise fun later earlier =>
      ∀ t, later.query.Window t → earlier.query.Window t → t = earlier.query.instant) ∧
      s.missed (clock + toLoop) = (delays.map PollDelays.total).sum := by
  intro s
  have hrun : s.Spaced (clock + toLoop) ∧
      s.missed (clock + toLoop) = (delays.map PollDelays.total).sum := by
    induction delays using List.reverseRecOn with
    | nil =>
        refine ⟨⟨le_rfl, by simp [s, DaemonLoop.start], by simp [s, DaemonLoop.start]⟩, ?_⟩
        simp [s, DaemonLoop.missed, DaemonLoop.start]
    | append_singleton delays d ih =>
        obtain ⟨hspaced, hmissed⟩ := ih
        simp only [s, List.foldl_append, List.foldl_cons, List.foldl_nil, List.map_append,
          List.map_cons, List.map_nil, List.sum_append, List.sum_cons, List.sum_nil, add_zero]
        refine ⟨hspaced.iterate calendar d hwait, ?_⟩
        rw [DaemonLoop.missed_iterate calendar d hwait hspaced, hmissed]
  refine ⟨hrun.1.spaced.imp fun hle t hlater hearlier => ?_, hrun.2⟩
  exact le_antisymm hearlier.2 (hle.trans hlater.1)

/-- Two polls that wait for a minute each. -/
theorem pollWindows_run_twoPolls :
    let delays : List PollDelays := [⟨0, 1000000000, 0⟩, ⟨5, 20, 300⟩]
    let s := delays.foldl (DaemonLoop.iterate .epoch 60) (DaemonLoop.start 0 7)
    (s.polls.Pairwise fun later earlier =>
      ∀ t, later.query.Window t → earlier.query.Window t → t = earlier.query.instant) ∧
      s.missed (0 + 7) = (delays.map PollDelays.total).sum :=
  pollWindows_run .epoch (by decide) 0 7 [⟨0, 1000000000, 0⟩, ⟨5, 20, 300⟩]

end NvIpfix
