/-
**Runs of a labelled transition system and exact guards.**

A step relation `step : σ → α → σ → Prop` over arbitrary states and labels, its runs as lists of
labels and states, and two properties of states: an invariant that every step preserves, and a
property that a step may break.  A guard on the label and the state before the step is *exact* when
the step keeps the property if and only if the guard holds.  An exact guard on steps is an exact
guard on runs: the property holds all along a run if and only if every step of it met the guard.

Main definitions:

* `GuardedRun.IsRun` — the runs from a state;
* `GuardedRun.Guarded` — the runs whose steps meet a guard;
* `GuardedRun.runOf` — the run of a step function under a sequence of labels.

Main results:

* `GuardedRun.IsRun.invariant_of_guarded` — an invariant of the steps that meet a guard holds in
  every state of a run of them;
* `GuardedRun.IsRun.forall_iff_guarded` — **an exact guard is exact for whole runs**.
-/

import Mathlib.Data.List.Basic

set_option relaxedAutoImplicit false
set_option autoImplicit false

namespace GuardedRun

variable {σ α : Type*} (step : σ → α → σ → Prop)

/-- The runs from a state: each step with its label and the state it leads to. -/
def IsRun : σ → List (α × σ) → Prop
  | _, [] => True
  | s, (a, s') :: run => step s a s' ∧ IsRun s' run

/-- Every step of a run meets the guard in the state before it. -/
def Guarded (guard : σ → α → Prop) : σ → List (α × σ) → Prop
  | _, [] => True
  | s, (a, s') :: run => guard s a ∧ Guarded guard s' run

variable {step} {guard : σ → α → Prop} {inv good : σ → Prop}

/-- An invariant of the steps that meet a guard holds in every state of a guarded run. -/
theorem IsRun.invariant_of_guarded
    (hstep : ∀ s a s', inv s → guard s a → step s a s' → inv s') {s : σ} {run : List (α × σ)}
    (hrun : IsRun step s run) (hguarded : Guarded guard s run) (hs : inv s) :
    ∀ p ∈ run, inv p.2 := by
  induction run generalizing s with
  | nil => simp
  | cons p run ih =>
      obtain ⟨hfirst, hrest⟩ := hrun
      obtain ⟨hguard, hguarded⟩ := hguarded
      have hp := hstep s p.1 p.2 hs hguard hfirst
      rintro q hq
      rcases List.mem_cons.1 hq with rfl | hq
      · exact hp
      · exact ih hrest hguarded hp q hq

/-- **An exact guard is exact for whole runs.** -/
theorem IsRun.forall_iff_guarded (hinv : ∀ s a s', inv s → step s a s' → inv s')
    (hexact : ∀ s a s', inv s → good s → step s a s' → (good s' ↔ guard s a)) {s : σ}
    {run : List (α × σ)} (hrun : IsRun step s run) (hs : inv s) (hgood : good s) :
    (∀ p ∈ run, good p.2) ↔ Guarded guard s run := by
  induction run generalizing s with
  | nil => simp [Guarded]
  | cons p run ih =>
      obtain ⟨hfirst, hrest⟩ := hrun
      have hp := hinv s p.1 p.2 hs hfirst
      have hguard := hexact s p.1 p.2 hs hgood hfirst
      constructor
      · intro hall
        have hgood' := hall p (by simp)
        refine ⟨hguard.1 hgood', (ih hrest hp hgood').1 fun q hq => hall q (by simp [hq])⟩
      · rintro ⟨hfirst', hrest'⟩
        have hgood' := hguard.2 hfirst'
        rintro q hq
        rcases List.mem_cons.1 hq with rfl | hq
        · exact hgood'
        · exact (ih hrest hp hgood').2 hrest' q hq

/-- The run of a step function under a sequence of labels. -/
def runOf (next : σ → α → σ) : σ → List α → List (α × σ)
  | _, [] => []
  | s, a :: labels => (a, next s a) :: runOf next (next s a) labels

theorem isRun_runOf (next : σ → α → σ) (s : σ) (labels : List α) :
    IsRun (fun s a s' => s' = next s a) s (runOf next s labels) := by
  induction labels generalizing s with
  | nil => trivial
  | cons a labels ih => exact ⟨rfl, ih (next s a)⟩

end GuardedRun
