/-
**The end of the read loop.**

The read loop of `nvipfix_import` is left when memory runs out or when `feof` holds.  It looks
neither at what `fread` returns nor at `ferror`.  A stream that fails for good, such as a directory,
which `fopen` opens and `fread` cannot read, delivers nothing more and never sets the flag of its
end, so the loop goes on for as long as `realloc` finds memory.

Main definitions:

* `NvIpfix.Stream`, `NvIpfix.streamEnv` — a stream that comes to its end or fails for good;
* `NvIpfix.ReadLoopEnds` — finitely many iterations end the loop.

Main results:

* `NvIpfix.readLoopEnds_iff` — the loop ends if some `fread` sets the flag;
* `NvIpfix.readLoopEnds_stream_iff` — **the loop ends on the streams that come to their end**.
-/

import NvIpfix.ReadLoop

set_option relaxedAutoImplicit false
set_option autoImplicit false

namespace NvIpfix

/-! ### Streams -/

/-- How a stream ends: `feof` holds from then on, or only `ferror` does. -/
inductive StreamEnding
  | endOfFile
  | readError
  deriving DecidableEq, Repr

/-- What the calls of `fread` deliver before the last that delivers anything, what that one
delivers, and the flag that is set by it. -/
structure Stream where
  reads : List (List UInt8)
  last : List UInt8
  ending : StreamEnding
  length_reads_le : ∀ data ∈ reads, data.length ≤ sizeofFileBuffer
  length_last_le : last.length ≤ sizeofFileBuffer

/-- The `k`-th `fread` of a stream. -/
def Stream.fread (stream : Stream) (k : ℕ) : Fread :=
  let isEnd : Bool := stream.ending = .endOfFile
  match stream.reads[k]? with
  | some data => { data, eof := false }
  | none => { data := if k = stream.reads.length then stream.last else [], eof := isEnd }

theorem Stream.length_fread_le (stream : Stream) (k : ℕ) :
    (stream.fread k).data.length ≤ sizeofFileBuffer := by
  unfold Stream.fread
  split
  · rename_i data hdata
    exact stream.length_reads_le data (List.mem_of_getElem? hdata)
  · dsimp only
    split
    · exact stream.length_last_le
    · exact Nat.zero_le _

/-- Reading a stream, with no `realloc` failing. -/
def streamEnv (stream : Stream) (memory : StaleMemory) : ImportEnv where
  fread := stream.fread
  realloc k := some (memory.block k)
  length_fread_le := stream.length_fread_le
  length_realloc _ _ hbytes := memory.length_of_realloc hbytes

/-! ### Iterations -/

/-- Finitely many iterations end the read loop. -/
def ReadLoopEnds (env : ImportEnv) : Prop :=
  ∃ fuel buffer, importReadLoop env fuel 0 0 [] = some buffer

section Iterations

variable {env : ImportEnv}

/-- Without the flag no number of iterations is enough. -/
theorem importReadLoop_eq_none (hrealloc : ∀ k, env.realloc k ≠ none)
    (heof : ∀ k, (env.fread k).eof = false) (fuel k index : ℕ) (buffer : List UInt8) :
    importReadLoop env fuel k index buffer = none := by
  induction fuel generalizing k index buffer with
  | zero => rfl
  | succ fuel ih =>
      obtain ⟨bytes, hbytes⟩ := Option.ne_none_iff_exists'.1 (hrealloc k)
      rw [importReadLoop, hbytes]
      dsimp only
      rw [heof k, if_neg (by simp)]
      exact ih (k + 1) _ _

/-- The iteration whose `fread` sets the flag is the last, if there is none before. -/
theorem exists_importReadLoop_eq_some {k n : ℕ} (heof : (env.fread (k + n)).eof = true)
    (index : ℕ) (buffer : List UInt8) :
    ∃ result, importReadLoop env (n + 1) k index buffer = some result := by
  induction n generalizing k index buffer with
  | zero =>
      rw [importReadLoop]
      cases env.realloc k with
      | none => exact ⟨none, rfl⟩
      | some bytes =>
          dsimp only
          rw [Nat.add_zero] at heof
          rw [heof, if_pos rfl]
          exact ⟨_, rfl⟩
  | succ n ih =>
      rw [importReadLoop]
      cases env.realloc k with
      | none => exact ⟨none, rfl⟩
      | some bytes =>
          dsimp only
          split
          · exact ⟨_, rfl⟩
          · rw [Nat.add_comm n 1, ← Nat.add_assoc] at heof
            exact ih heof _ _

/-- **The loop ends** if some `fread` sets the flag, and otherwise only with the memory. -/
theorem readLoopEnds_iff (hrealloc : ∀ k, env.realloc k ≠ none) :
    ReadLoopEnds env ↔ ∃ k, (env.fread k).eof = true := by
  constructor
  · rintro ⟨fuel, buffer, hloop⟩
    by_contra hnone
    push Not at hnone
    have heof : ∀ k, (env.fread k).eof = false := fun k => Bool.eq_false_iff.2 (hnone k)
    rw [importReadLoop_eq_none hrealloc heof] at hloop
    cases hloop
  · rintro ⟨k, heof⟩
    rw [← Nat.zero_add k] at heof
    obtain ⟨result, hloop⟩ := exists_importReadLoop_eq_some heof 0 []
    exact ⟨k + 1, result, hloop⟩

end Iterations

/-! ### Streams that end and streams that fail -/

/-- Some `fread` of a stream sets the flag exactly if the stream comes to its end. -/
theorem Stream.exists_eof_iff (stream : Stream) :
    (∃ k, (stream.fread k).eof = true) ↔ stream.ending = .endOfFile := by
  constructor
  · rintro ⟨k, heof⟩
    unfold Stream.fread at heof
    split at heof
    · cases heof
    · exact of_decide_eq_true heof
  · intro hending
    refine ⟨stream.reads.length, ?_⟩
    unfold Stream.fread
    rw [List.getElem?_eq_none (le_refl _)]
    exact decide_eq_true hending

/-- **The loop ends on the streams that come to their end**, whatever they have delivered before,
and on no stream that fails for good. -/
theorem readLoopEnds_stream_iff (stream : Stream) (memory : StaleMemory) :
    ReadLoopEnds (streamEnv stream memory) ↔ stream.ending = .endOfFile := by
  have hrealloc : ∀ k, (streamEnv stream memory).realloc k ≠ none := by
    intro k hnone
    cases hnone
  rw [readLoopEnds_iff hrealloc, ← stream.exists_eof_iff]
  exact Iff.rfl

/-- A directory: every `fread` fails. -/
def Stream.directory : Stream where
  reads := []
  last := []
  ending := .readError
  length_reads_le := by simp
  length_last_le := Nat.zero_le _

/-- The loop over a directory does not end. -/
theorem readLoopEnds_directory : ¬ ReadLoopEnds (streamEnv .directory (.filled 0)) := by
  rintro ⟨fuel, buffer, hloop⟩
  have heof : ∀ k, ((streamEnv .directory (.filled 0)).fread k).eof = false := fun _ => rfl
  rw [importReadLoop_eq_none (fun _ => Option.some_ne_none _) heof] at hloop
  cases hloop

end NvIpfix
