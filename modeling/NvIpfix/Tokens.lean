/-
**Runs and margins of a list.**

A text is cut into fields by a set of delimiters, and a field is cleaned by removing a set of
characters from its two ends.  Both operations are about lists over an arbitrary type with a
Boolean predicate, and this module develops them at that generality.

* The **runs** of `l` for `p` are the maximal non-empty stretches of `l` whose elements do not
  satisfy `p`, in order.  A run is what a tokeniser means by a field: repeated, leading and
  trailing delimiters contribute nothing.
* The **margins** of `l` for `p` are its longest prefix and its longest suffix of elements that
  satisfy `p`; trimming removes them.

What the fields mean is read by folding over them, and a place that several of them give a value
holds the last one given.

Main definitions:

* `Tokens.runs` — the runs of a list;
* `Tokens.trim` — a list without its margins.

Main results:

* `Tokens.runs_append_cons` — **runs are a homomorphism at every delimiter**;
* `Tokens.induction_cut` — induction over the delimiters of a list;
* `Tokens.runs_eq_singleton` — a non-empty stretch without delimiters is its own only run;
* `Tokens.trim_pad`, `Tokens.trim_eq_self` — padding is removed, and nothing else is;
* `Tokens.trim_eq_iff` — a trimmed list is what lies between the margins;
* `Tokens.read_foldl_eq` — a fold that overwrites holds the last value given.
-/

import Mathlib.Data.List.DropRight

set_option relaxedAutoImplicit false
set_option autoImplicit false

namespace Tokens

variable {α : Type*} (p : α → Bool)

/-! ### Runs -/

/-- The maximal non-empty stretches of `l` without an element satisfying `p`, in order. -/
def runs (l : List α) : List (List α) := (l.splitOnP p).filter fun r => !r.isEmpty

@[simp] theorem runs_nil : runs p [] = [] := by simp [runs]

theorem ne_nil_of_runs_ne_nil {l : List α} (h : runs p l ≠ []) : l ≠ [] := by
  rintro rfl
  exact h (runs_nil p)

/-- A run is not empty. -/
theorem ne_nil_of_mem_runs {l r : List α} (h : r ∈ runs p l) : r ≠ [] := by
  simpa using (List.mem_filter.1 h).2

/-- **Runs are a homomorphism at every delimiter.** -/
theorem runs_append_cons (l m : List α) {d : α} (hd : p d) :
    runs p (l ++ d :: m) = runs p l ++ runs p m := by
  rw [runs, List.splitOnP_append_cons l m hd, List.filter_append, runs, runs]

/-- A leading delimiter contributes nothing. -/
theorem runs_cons_of_pos (m : List α) {d : α} (hd : p d) : runs p (d :: m) = runs p m := by
  simpa using runs_append_cons p [] m hd

/-- A trailing delimiter contributes nothing. -/
theorem runs_append_singleton (l : List α) {d : α} (hd : p d) : runs p (l ++ [d]) = runs p l := by
  simpa using runs_append_cons p l [] hd

/-- A non-empty stretch without delimiters is its own only run. -/
theorem runs_eq_singleton {l : List α} (hne : l ≠ []) (h : ∀ x ∈ l, p x = false) :
    runs p l = [l] := by
  rw [runs, List.splitOnP_eq_singleton h]
  simp [hne]

/-- A list with a delimiter is a stretch without delimiters, a delimiter and a rest. -/
theorem exists_eq_append_cons {l : List α} {x : α} (hx : x ∈ l) (hp : p x) :
    ∃ a d m, l = a ++ d :: m ∧ (∀ y ∈ a, p y = false) ∧ p d := by
  have hfind : (l.find? p).isSome := List.find?_isSome.2 ⟨x, hx, hp⟩
  obtain ⟨d, hd⟩ := Option.isSome_iff_exists.1 hfind
  obtain ⟨hpd, a, m, hl, ha⟩ := List.find?_eq_some_iff_append.1 hd
  exact ⟨a, d, m, hl, fun y hy => by simpa using ha y hy, hpd⟩

/-- **Induction over the delimiters of a list**: it has none, or it is a stretch without delimiters,
a delimiter and a shorter list. -/
@[elab_as_elim]
theorem induction_cut {motive : List α → Prop} (l : List α)
    (free : ∀ l : List α, (∀ x ∈ l, p x = false) → motive l)
    (cut : ∀ (a : List α) (d : α) (m : List α), (∀ x ∈ a, p x = false) → p d → motive m →
      motive (a ++ d :: m)) : motive l := by
  by_cases h : ∃ x ∈ l, p x
  · obtain ⟨x, hx, hp⟩ := h
    obtain ⟨a, d, m, hl, ha, hd⟩ := exists_eq_append_cons p hx hp
    have hlt : m.length < l.length := by
      rw [hl, List.length_append, List.length_cons]
      omega
    rw [hl]
    exact cut a d m ha hd (induction_cut m free cut)
  · exact free l fun x hx => by simpa using fun hp => h ⟨x, hx, hp⟩
termination_by l.length

/-- A stretch without delimiters has itself as its only run, if it is not empty. -/
theorem mem_runs_of_free {l r : List α} (h : ∀ x ∈ l, p x = false) :
    r ∈ runs p l ↔ l ≠ [] ∧ r = l := by
  by_cases hne : l = []
  · simp [hne]
  · simp [runs_eq_singleton p hne h, hne]

/-- The elements of a run are elements of the list. -/
theorem mem_of_mem_runs {l r : List α} {x : α} (h : r ∈ runs p l) (hx : x ∈ r) : x ∈ l := by
  induction l using induction_cut p with
  | free l hfree =>
      obtain ⟨-, rfl⟩ := (mem_runs_of_free p hfree).1 h
      exact hx
  | cut a d m ha hd ih =>
      rw [runs_append_cons p a m hd] at h
      rcases List.mem_append.1 h with h | h
      · obtain ⟨-, rfl⟩ := (mem_runs_of_free p ha).1 h
        exact List.mem_append_left _ hx
      · exact List.mem_append_right _ (List.mem_cons_of_mem d (ih h))

/-- An element that is not a delimiter belongs to a run. -/
theorem exists_mem_runs {l : List α} {x : α} (hx : x ∈ l) (hp : p x = false) :
    ∃ r ∈ runs p l, x ∈ r := by
  induction l using induction_cut p with
  | free l hfree => exact ⟨l, (mem_runs_of_free p hfree).2 ⟨List.ne_nil_of_mem hx, rfl⟩, hx⟩
  | cut a d m ha hd ih =>
      rw [runs_append_cons p a m hd]
      rcases List.mem_append.1 hx with hx | hx
      · exact ⟨a, List.mem_append_left _ ((mem_runs_of_free p ha).2 ⟨List.ne_nil_of_mem hx, rfl⟩),
          hx⟩
      · have hxm : x ∈ m := by
          rcases List.mem_cons.1 hx with rfl | hx
          · rw [hd] at hp
            cases hp
          · exact hx
        obtain ⟨r, hr, hxr⟩ := ih hxm
        exact ⟨r, List.mem_append_right _ hr, hxr⟩

theorem runs_ne_nil {l : List α} {x : α} (hx : x ∈ l) (hp : p x = false) : runs p l ≠ [] := by
  obtain ⟨r, hr, -⟩ := exists_mem_runs p hx hp
  exact List.ne_nil_of_mem hr

/-- A stretch without delimiters and what follows the next delimiter. -/
theorem runs_append_cons_of_free {l : List α} (hne : l ≠ []) (h : ∀ x ∈ l, p x = false)
    (m : List α) {d : α} (hd : p d) : runs p (l ++ d :: m) = l :: runs p m := by
  rw [runs_append_cons p l m hd, runs_eq_singleton p hne h, List.singleton_append]

/-- Runs do not reach over a delimiter at the end of the first list. -/
theorem runs_append_of_getLast? {l : List α} (h : ∀ x ∈ l.getLast?, p x) (m : List α) :
    runs p (l ++ m) = runs p l ++ runs p m := by
  rcases List.eq_nil_or_concat' l with rfl | ⟨l, d, rfl⟩
  · simp
  · have hd : p d := h d (by simp)
    rw [List.append_assoc, List.singleton_append, runs_append_cons p l m hd,
      runs_append_singleton p l hd]

/-- Runs do not reach over a delimiter at the head of the second list. -/
theorem runs_append_of_head? (l : List α) {m : List α} (h : ∀ x ∈ m.head?, p x) :
    runs p (l ++ m) = runs p l ++ runs p m := by
  cases m with
  | nil => simp
  | cons d m =>
      have hd : p d := h d (by simp)
      rw [runs_append_cons p l m hd, runs_cons_of_pos p m hd]

/-- Runs in front of the stretch that ends a list, and runs from that stretch on. -/
theorem runs_append (l m : List α) : runs p (l ++ m) =
    runs p (l.rdropWhile fun x => !p x) ++ runs p (l.rtakeWhile (fun x => !p x) ++ m) := by
  conv_lhs => rw [← List.rdropWhile_append_rtakeWhile (p := fun x => !p x) (l := l)]
  rw [List.append_assoc]
  -- what is left in front ends in a delimiter
  refine runs_append_of_getLast? p (fun x hx => ?_) _
  by_cases hne : l.rdropWhile (fun x => !p x) = []
  · rw [hne] at hx
    cases hx
  · rw [List.getLast?_eq_some_getLast hne, Option.mem_some_iff] at hx
    simpa [hx] using List.rdropWhile_last_not (fun x => !p x) l hne

/-- A stretch without delimiters, and the runs behind it. -/
theorem runs_free_append {z : List α} (hz : z ≠ []) (hfree : ∀ x ∈ z, p x = false) (m : List α) :
    runs p (z ++ m) =
      (z ++ m.takeWhile fun x => !p x) :: runs p (m.dropWhile fun x => !p x) := by
  have hrun : ∀ x ∈ z ++ m.takeWhile (fun x => !p x), p x = false := by
    intro x hx
    rcases List.mem_append.1 hx with hx | hx
    · exact hfree x hx
    · simpa using List.mem_takeWhile_imp hx
  have hhead : ∀ x ∈ (m.dropWhile fun x => !p x).head?, p x := by
    intro x hx
    have hnot := List.head?_dropWhile_not (fun x => !p x) m
    rw [Option.mem_def.1 hx] at hnot
    simpa using hnot
  conv_lhs => rw [← List.takeWhile_append_dropWhile (p := fun x => !p x) (l := m)]
  rw [← List.append_assoc, runs_append_of_head? p _ hhead, runs_eq_singleton p (by simp [hz]) hrun,
    List.singleton_append]

/-- **A stretch without delimiters stays in one run**, whatever surrounds it. -/
theorem runs_surround (l m : List α) {z : List α} (hz : z ≠ []) (hfree : ∀ x ∈ z, p x = false) :
    runs p (l ++ (z ++ m)) = runs p (l.rdropWhile fun x => !p x) ++
      (l.rtakeWhile (fun x => !p x) ++ (z ++ m.takeWhile fun x => !p x)) ::
        runs p (m.dropWhile fun x => !p x) := by
  have hfree' : ∀ x ∈ l.rtakeWhile (fun x => !p x) ++ z, p x = false := by
    intro x hx
    rcases List.mem_append.1 hx with hx | hx
    · simpa using List.mem_rtakeWhile_imp hx
    · exact hfree x hx
  rw [runs_append, ← List.append_assoc, runs_free_append p (by simp [hz]) hfree',
    List.append_assoc]

/-- The runs of a list of delimiters are none. -/
theorem runs_eq_nil {l : List α} (h : ∀ x ∈ l, p x) : runs p l = [] := by
  induction l with
  | nil => simp
  | cons d l ih =>
      rw [runs_cons_of_pos p l (h d (by simp))]
      exact ih fun x hx => h x (List.mem_cons_of_mem _ hx)

/-- Leading delimiters contribute nothing. -/
theorem runs_append_of_all {l : List α} (h : ∀ x ∈ l, p x) (m : List α) :
    runs p (l ++ m) = runs p m := by
  induction l with
  | nil => rfl
  | cons d l ih =>
      rw [List.cons_append, runs_cons_of_pos p _ (h d (by simp))]
      exact ih fun x hx => h x (by simp [hx])

/-- **Words with delimiters before each** are the runs of what they are written as. -/
theorem runs_flatMap_words {ws : List (List α × List α)} {rest : List α}
    (hsep : ∀ w ∈ ws, ∀ x ∈ w.1, p x)
    (hword : ∀ w ∈ ws, w.2 ≠ [] ∧ ∀ x ∈ w.2, p x = false) (hne : ∀ w ∈ ws.tail, w.1 ≠ [])
    (hrest : ∀ x ∈ rest, p x) :
    runs p (ws.flatMap (fun w => w.1 ++ w.2) ++ rest) = ws.map Prod.snd := by
  induction ws with
  | nil => simpa using runs_eq_nil p hrest
  | cons w ws ih =>
      obtain ⟨hwne, hwfree⟩ := hword w (by simp)
      have hnext : ∀ x ∈ (ws.flatMap (fun w => w.1 ++ w.2) ++ rest).head?, p x := by
        cases ws with
        | nil => exact fun x hx => hrest x (List.mem_of_mem_head? hx)
        | cons v ws =>
            obtain ⟨d, ds, hd⟩ := List.exists_cons_of_ne_nil (hne v (by simp))
            intro x hx
            obtain rfl : d = x := by simpa [hd] using hx
            exact hsep v (by simp) d (by simp [hd])
      have hws := ih (fun v hv => hsep v (by simp [hv])) (fun v hv => hword v (by simp [hv]))
        fun v hv => hne v (by simpa using List.mem_of_mem_tail hv)
      rw [List.flatMap_cons, List.append_assoc, List.append_assoc,
        runs_append_of_all p (hsep w (by simp)), runs_append_of_head? p w.2 hnext,
        runs_eq_singleton p hwne hwfree, hws, List.map_cons, List.singleton_append]

/-! ### Margins -/

/-- A list without its longest prefix and its longest suffix of elements satisfying `p`. -/
def trim (l : List α) : List α := (l.rdropWhile p).dropWhile p

theorem rdropWhile_append_of_all {l m : List α} (h : ∀ x ∈ m, p x) :
    (l ++ m).rdropWhile p = l.rdropWhile p := by
  rw [List.rdropWhile, List.reverse_append, List.dropWhile_append_of_pos (by simpa using h),
    List.rdropWhile]

/-- An element to keep stops the removal from the right. -/
theorem rdropWhile_append_of_exists {l m : List α} (h : ∃ x ∈ m, p x = false) :
    (l ++ m).rdropWhile p = l ++ m.rdropWhile p := by
  obtain ⟨x, hx, hpx⟩ := h
  rw [List.rdropWhile, List.reverse_append, List.dropWhile_append]
  have hne : m.reverse.dropWhile p ≠ [] := by
    intro hnil
    have := (List.dropWhile_eq_nil_iff.1 hnil) x (by simpa using hx)
    rw [hpx] at this
    exact absurd this (by simp)
  rw [List.isEmpty_eq_false_iff.2 hne]
  simp [List.rdropWhile]

/-- **Padding is removed.** -/
theorem trim_pad {l a b : List α} (ha : ∀ x ∈ a, p x) (hb : ∀ x ∈ b, p x) :
    trim p (a ++ l ++ b) = trim p l := by
  rw [trim, trim, rdropWhile_append_of_all p hb]
  by_cases h : ∃ x ∈ l, p x = false
  · rw [rdropWhile_append_of_exists p h, List.dropWhile_append_of_pos ha]
  · have hl : ∀ x ∈ l, p x := by
      intro x hx
      by_contra hpx
      exact h ⟨x, hx, by simpa using hpx⟩
    rw [rdropWhile_append_of_all p hl, (List.rdropWhile_eq_nil_iff).2 hl,
      (List.rdropWhile_eq_nil_iff).2 ha]

/-- **Nothing but padding is removed**: a list whose ends are to be kept is unchanged. -/
theorem trim_eq_self {l : List α} (hhead : ∀ x ∈ l.head?, p x = false)
    (hlast : ∀ x ∈ l.getLast?, p x = false) : trim p l = l := by
  have hr : l.rdropWhile p = l := by
    rw [List.rdropWhile_eq_self_iff]
    intro hne
    rw [hlast _ (by rw [List.getLast?_eq_getLast_of_ne_nil hne]; rfl)]
    simp
  rw [trim, hr]
  cases l with
  | nil => rfl
  | cons a l => rw [List.dropWhile_cons_of_neg (by simp [hhead a (by simp)])]

/-- What is left of a list begins and ends with elements to keep. -/
theorem trim_ends (l : List α) :
    (∀ x ∈ (trim p l).head?, p x = false) ∧ ∀ x ∈ (trim p l).getLast?, p x = false := by
  constructor
  · intro x hx
    have hhead := List.head?_dropWhile_not p (l.rdropWhile p)
    rw [trim, Option.mem_def] at hx
    simpa only [hx] using hhead
  · intro x hx
    obtain ⟨init, htrim⟩ := List.getLast?_eq_some_iff.1 (Option.mem_def.1 hx)
    obtain ⟨inner, hinner⟩ : ∃ inner, l.rdropWhile p = inner ++ [x] := by
      refine ⟨(l.rdropWhile p).takeWhile p ++ init, ?_⟩
      rw [List.append_assoc, ← htrim, trim, List.takeWhile_append_dropWhile]
    have hlast := List.rdropWhile_last_not p l (by simp [hinner])
    simp only [hinner, List.getLast_append_singleton] at hlast
    simpa using hlast

/-- **The trimmed list is what lies between the margins**: what begins and ends with elements to
keep, with elements to remove on both sides. -/
theorem trim_eq_iff {l t : List α} : trim p l = t ↔
    ∃ left right, l = left ++ t ++ right ∧ (∀ x ∈ left, p x) ∧ (∀ x ∈ right, p x) ∧
      (∀ x ∈ t.head?, p x = false) ∧ ∀ x ∈ t.getLast?, p x = false := by
  constructor
  · rintro rfl
    refine ⟨(l.rdropWhile p).takeWhile p, l.rtakeWhile p, ?_, fun x hx => ?_, fun x hx => ?_,
      trim_ends p l⟩
    · rw [trim, List.takeWhile_append_dropWhile, List.rdropWhile_append_rtakeWhile]
    · exact List.mem_takeWhile_imp hx
    · exact List.mem_rtakeWhile_imp hx
  · rintro ⟨left, right, rfl, hleft, hright, hhead, hlast⟩
    rw [trim_pad p hleft hright, trim_eq_self p hhead hlast]

/-- A trimmed list has no margins. -/
theorem trim_trim (l : List α) : trim p (trim p l) = trim p l :=
  trim_eq_self p (trim_ends p l).1 (trim_ends p l).2

/-- A list trims to nothing exactly when all of it is margin. -/
theorem trim_eq_nil_iff {l : List α} : trim p l = [] ↔ ∀ x ∈ l, p x := by
  constructor
  · intro h x hx
    by_contra hpx
    have hall := List.dropWhile_eq_nil_iff.1 h
    -- what the right trimming leaves ends in an element to keep
    have hne : l.rdropWhile p ≠ [] := fun hnil => hpx (List.rdropWhile_eq_nil_iff.1 hnil x hx)
    exact List.rdropWhile_last_not p l hne (hall _ (List.getLast_mem hne))
  · intro h
    rw [trim, List.rdropWhile_eq_nil_iff.2 h, List.dropWhile_nil]

/-- Trimming removes elements only. -/
theorem mem_of_mem_trim {l : List α} {x : α} (h : x ∈ trim p l) : x ∈ l :=
  (List.rdropWhile_prefix p _).subset ((List.dropWhile_suffix p).subset h)

/-- An element that is not in a margin is kept. -/
theorem mem_trim {l : List α} {x : α} (hx : x ∈ l) (hp : p x = false) : x ∈ trim p l := by
  have hkeep : ∀ {m : List α}, x ∈ m → x ∈ m.dropWhile p := by
    intro m hm
    rw [← List.takeWhile_append_dropWhile (p := p) (l := m)] at hm
    rcases List.mem_append.1 hm with h | h
    · rw [List.mem_takeWhile_imp h] at hp
      simp at hp
    · exact h
  refine hkeep ?_
  rw [List.rdropWhile, List.mem_reverse]
  exact hkeep (List.mem_reverse.2 hx)

/-- A stretch that begins and ends with elements to keep is kept, whatever surrounds it. -/
theorem trim_surround (l m : List α) {z : List α} (hhead : ∃ x ∈ z.head?, p x = false)
    (hlast : ∃ x ∈ z.getLast?, p x = false) :
    trim p (l ++ (z ++ m)) = l.dropWhile p ++ (z ++ m.rdropWhile p) := by
  obtain ⟨x, hx, hpx⟩ := hhead
  obtain ⟨y, hy, hpy⟩ := hlast
  obtain ⟨t, rfl⟩ := List.head?_eq_some_iff.1 hx
  have hz : (x :: t).rdropWhile p = x :: t := by
    rw [List.rdropWhile_eq_self_iff]
    intro hne
    rw [List.getLast?_eq_some_getLast hne] at hy
    rw [Option.mem_some_iff.1 hy, hpy]
    simp
  have hr : (l ++ (x :: t ++ m)).rdropWhile p = l ++ (x :: t ++ m.rdropWhile p) := by
    by_cases hm : ∀ y ∈ m, p y
    · rw [(List.rdropWhile_eq_nil_iff).2 hm, ← List.append_assoc, rdropWhile_append_of_all p hm,
        rdropWhile_append_of_exists p ⟨x, by simp, hpx⟩, hz, List.append_nil]
    · have hm' : ∃ y ∈ m, p y = false := by simpa using hm
      rw [← List.append_assoc, rdropWhile_append_of_exists p hm', List.append_assoc]
  rw [trim, hr, List.dropWhile_append]
  by_cases hl : (l.dropWhile p).isEmpty
  · rw [if_pos hl, List.isEmpty_iff.1 hl, List.cons_append,
      List.dropWhile_cons_of_neg (by simp [hpx])]
    simp
  · rw [if_neg hl]

/-- **Trimming a list with something behind it**: the trimmed list, and then only elements of the
margin of the list or of what is behind it. -/
theorem exists_trim_append (l m : List α) :
    ∃ rest, trim p (l ++ m) = trim p l ++ rest ∧ ∀ x ∈ rest, p x ∨ x ∈ m := by
  by_cases hl : ∀ x ∈ l, p x
  · rw [(trim_eq_nil_iff p).2 hl]
    refine ⟨trim p (l ++ m), rfl, ?_⟩
    intro x hx
    rcases List.mem_append.1 (mem_of_mem_trim p hx) with hx | hx
    · exact Or.inl (hl x hx)
    · exact Or.inr hx
  · by_cases hm : ∀ x ∈ m, p x
    · refine ⟨[], ?_, by simp⟩
      rw [trim, rdropWhile_append_of_all p hm, List.append_nil, trim]
    · have hm' : ∃ x ∈ m, p x = false := by simpa using hm
      have hne : l.rdropWhile p ≠ [] := fun h => hl ((List.rdropWhile_eq_nil_iff).1 h)
      have hdrop : (l.rdropWhile p).dropWhile p ≠ [] := fun h =>
        List.rdropWhile_last_not p l hne (List.dropWhile_eq_nil_iff.1 h _ (List.getLast_mem hne))
      refine ⟨l.rtakeWhile p ++ m.rdropWhile p, ?_, ?_⟩
      · have hsplit : l ++ m.rdropWhile p =
            l.rdropWhile p ++ (l.rtakeWhile p ++ m.rdropWhile p) := by
          rw [← List.append_assoc, List.rdropWhile_append_rtakeWhile]
        rw [trim, rdropWhile_append_of_exists p hm', hsplit, List.dropWhile_append,
          List.isEmpty_eq_false_iff.2 hdrop, if_neg (by simp), trim]
      · intro x hx
        rcases List.mem_append.1 hx with hx | hx
        · exact Or.inl (List.mem_rtakeWhile_imp hx)
        · exact Or.inr ((List.rdropWhile_prefix p _).subset hx)

/-! ### The last value given -/

/-- A field that steps overwrite holds the latest given value. -/
theorem read_foldl_eq_or {σ β γ : Type} {step : σ → β → σ} (read : σ → Option γ)
    {given : β → Option γ} (hstep : ∀ s b, read (step s b) = (given b).or (read s)) (l : List β)
    (s : σ) : read (l.foldl step s) = ((l.filterMap given).getLast?).or (read s) := by
  induction l generalizing s with
  | nil => rfl
  | cons b l ih =>
      rw [List.foldl_cons, ih, hstep]
      cases hgiven : given b with
      | none => rw [List.filterMap_cons_none hgiven, Option.none_or]
      | some value =>
          rw [List.filterMap_cons_some hgiven, List.getLast?_cons, Option.some_or,
            Option.or_some, Option.some_or]

/-- The same for a field that always has a value. -/
theorem read_foldl_eq {σ β γ : Type} {step : σ → β → σ} (read : σ → γ) {given : β → Option γ}
    (hstep : ∀ s b, read (step s b) = (given b).getD (read s)) (l : List β) (s : σ) :
    read (l.foldl step s) = ((l.filterMap given).getLast?).getD (read s) := by
  have h : some (read (l.foldl step s)) = ((l.filterMap given).getLast?).or (some (read s)) :=
    read_foldl_eq_or (fun s => some (read s)) (fun s b => by rw [hstep, Option.or_some]) l s
  rw [Option.or_some] at h
  exact Option.some.inj h

end Tokens
