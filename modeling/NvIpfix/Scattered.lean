/-
**Pieces of a list, in order.**

Cutting a text again and again gives pieces of it: each is a stretch of the text, they do not
overlap, and they come in the order in which they stand in the text.  All this is one relation
between a list of pieces and a list, which holds of pieces of pieces, of some of the pieces, and of
the pieces of two lists that follow each other.

Main definitions:

* `Tokens.Scattered` — pieces of a list, in order and without overlap.

Main results:

* `Tokens.Scattered.append`, `Tokens.Scattered.sublist`, `Tokens.Scattered.flatMap` — **pieces of
  lists that follow each other, some of the pieces, pieces of pieces**;
* `Tokens.scattered_runs`, `Tokens.trim_isInfix` — runs are pieces, and so is what lies between the
  margins.
-/

import NvIpfix.Tokens

set_option relaxedAutoImplicit false
set_option autoImplicit false

namespace Tokens

variable {α β : Type*}

/-- Pieces of a list, in order and without overlap. -/
def Scattered : List (List α) → List α → Prop
  | [], _ => True
  | piece :: pieces, l => ∃ before after, l = before ++ piece ++ after ∧ Scattered pieces after

section Pieces

variable {pieces pieces' : List (List α)} {l m : List α}

@[simp] theorem scattered_nil (l : List α) : Scattered [] l := trivial

theorem scattered_singleton {piece : List α} : Scattered [piece] l ↔ piece <:+: l := by
  constructor
  · rintro ⟨before, after, rfl, -⟩
    exact ⟨before, after, rfl⟩
  · rintro ⟨before, after, rfl⟩
    exact ⟨before, after, rfl, trivial⟩

theorem Scattered.append_left (h : Scattered pieces l) (m : List α) :
    Scattered pieces (m ++ l) := by
  cases pieces with
  | nil => trivial
  | cons piece pieces =>
      obtain ⟨before, after, rfl, hrest⟩ := h
      exact ⟨m ++ before, after, by simp only [List.append_assoc], hrest⟩

theorem Scattered.append_right (h : Scattered pieces l) (m : List α) :
    Scattered pieces (l ++ m) := by
  induction pieces generalizing l with
  | nil => trivial
  | cons piece pieces ih =>
      obtain ⟨before, after, rfl, hrest⟩ := h
      exact ⟨before, after ++ m, by simp only [List.append_assoc], ih hrest⟩

/-- **Pieces of lists that follow each other.** -/
theorem Scattered.append (h : Scattered pieces l) (h' : Scattered pieces' m) :
    Scattered (pieces ++ pieces') (l ++ m) := by
  induction pieces generalizing l with
  | nil => exact h'.append_left l
  | cons piece pieces ih =>
      obtain ⟨before, after, rfl, hrest⟩ := h
      refine ⟨before, after ++ m, by simp only [List.append_assoc], ih hrest⟩

/-- A piece is a stretch of the list. -/
theorem Scattered.isInfix (h : Scattered pieces l) {piece : List α} (hpiece : piece ∈ pieces) :
    piece <:+: l := by
  induction pieces generalizing l with
  | nil => cases hpiece
  | cons first pieces ih =>
      obtain ⟨before, after, rfl, hrest⟩ := h
      rcases List.mem_cons.1 hpiece with rfl | hpiece
      · exact ⟨before, after, rfl⟩
      · exact (ih hrest hpiece).trans (List.suffix_append _ after).isInfix

/-- **Some of the pieces.** -/
theorem Scattered.sublist (h : Scattered pieces l) (hsub : pieces'.Sublist pieces) :
    Scattered pieces' l := by
  induction hsub generalizing l with
  | slnil => trivial
  | cons piece hsub ih =>
      obtain ⟨before, after, rfl, hrest⟩ := h
      exact (ih hrest).append_left (before ++ piece)
  | cons_cons piece hsub ih =>
      obtain ⟨before, after, rfl, hrest⟩ := h
      exact ⟨before, after, rfl, ih hrest⟩

/-- **Pieces of pieces.** -/
theorem Scattered.flatMap (h : Scattered pieces l) {f : List α → List (List α)}
    (hf : ∀ piece ∈ pieces, Scattered (f piece) piece) : Scattered (pieces.flatMap f) l := by
  induction pieces generalizing l with
  | nil => trivial
  | cons piece pieces ih =>
      obtain ⟨before, after, rfl, hrest⟩ := h
      have hfirst := (hf piece List.mem_cons_self).append_left before
      exact hfirst.append (ih hrest fun p hp => hf p (List.mem_cons_of_mem _ hp))

end Pieces

/-! ### Runs and margins -/

section Runs

variable (p : α → Bool)

/-- Runs are pieces. -/
theorem scattered_runs (l : List α) : Scattered (runs p l) l := by
  induction l using induction_cut p with
  | free l hfree =>
      by_cases hne : l = []
      · rw [hne, runs_nil]
        trivial
      · rw [runs_eq_singleton p hne hfree]
        exact scattered_singleton.2 List.infix_rfl
  | cut a d m ha hd ih =>
      rw [runs_append_cons p a m hd]
      refine Scattered.append ?_ (ih.append_left [d])
      by_cases hne : a = []
      · rw [hne, runs_nil]
        trivial
      · rw [runs_eq_singleton p hne ha]
        exact scattered_singleton.2 List.infix_rfl

/-- Runs are without delimiters. -/
theorem free_of_mem_runs {l r : List α} {x : α} (hr : r ∈ runs p l) (hx : x ∈ r) :
    p x = false := by
  induction l using induction_cut p with
  | free l hfree =>
      obtain ⟨-, rfl⟩ := (mem_runs_of_free p hfree).1 hr
      exact hfree x hx
  | cut a d m ha hd ih =>
      rw [runs_append_cons p a m hd] at hr
      rcases List.mem_append.1 hr with hr | hr
      · obtain ⟨-, rfl⟩ := (mem_runs_of_free p ha).1 hr
        exact ha x hx
      · exact ih hr

/-- What lies between the margins is a piece. -/
theorem trim_isInfix (l : List α) : trim p l <:+: l := by
  have hsuffix : trim p l <:+ l.rdropWhile p := List.dropWhile_suffix p
  exact hsuffix.isInfix.trans (List.rdropWhile_prefix p l).isInfix

end Runs

end Tokens
