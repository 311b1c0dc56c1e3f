/-
**The read loop and the file.**

Each iteration of the read loop of `nvipfix_import` grows the buffer by 65536 bytes, reads as many,
and moves on by 65535 only.  So the last byte of a full chunk is overwritten by the first byte of
the next, and what is read is shorter than the file by one byte for each boundary that has been
crossed.  What follows is not terminated: it is what the memory obtained from `realloc` held before.

Main definitions:

* `NvIpfix.StaleMemory`, `NvIpfix.fileEnv` — a file, read in full chunks into any memory;
* `NvIpfix.written`, `NvIpfix.fileText` — what the reads leave in the buffer;
* `NvIpfix.BufferIsFile`, `NvIpfix.MemoryIndependent`.

Main results:

* `NvIpfix.importReadLoop_fileEnv` — the buffer at the end of the loop;
* `NvIpfix.bufferIsFile_iff` — **the buffer is the file exactly when one chunk holds it**;
* `NvIpfix.recordCount_importText_append_phantom` — what the memory holds can always add a record;
* `NvIpfix.not_memoryIndependent` — **the import of a text depends on more than the text**.
-/

import NvIpfix.Import

set_option relaxedAutoImplicit false
set_option autoImplicit false

namespace NvIpfix

/-! ### Files and memory -/

/-- What the memory obtained from each `realloc` happens to hold. -/
structure StaleMemory where
  block : ℕ → List UInt8
  length_block : ∀ k, (block k).length = sizeofFileBuffer

/-- Memory that holds given bytes, from the beginning of the buffer on. -/
def StaleMemory.holding (byte : ℕ → UInt8) : StaleMemory where
  block k := (List.range sizeofFileBuffer).map fun i => byte (k * sizeofFileBuffer + i)
  length_block k := by rw [List.length_map, List.length_range]

/-- Memory that holds one byte only. -/
def StaleMemory.filled (c : UInt8) : StaleMemory := .holding fun _ => c

/-- A `realloc` that succeeds gives a block of the right length. -/
theorem StaleMemory.length_of_realloc (memory : StaleMemory) {k : ℕ} {bytes : List UInt8}
    (h : some (memory.block k) = some bytes) : bytes.length = sizeofFileBuffer := by
  rw [← Option.some.inj h, memory.length_block]

/-- What the memory obtained first happens to hold, and then the next. -/
def StaleMemory.blocks (memory : StaleMemory) : ℕ → List UInt8
  | 0 => []
  | k + 1 => memory.blocks k ++ memory.block k

/-- The bytes that the `k`-th `fread` of a file delivers. -/
def chunkAt (file : List UInt8) (k : ℕ) : List UInt8 :=
  (file.drop (k * sizeofFileBuffer)).take sizeofFileBuffer

/-- A file that is read in full chunks, with no `realloc` failing; `feof` holds after a `fread`
that has delivered less. -/
def fileEnv (file : List UInt8) (memory : StaleMemory) : ImportEnv where
  fread k := { data := chunkAt file k, eof := decide (file.length < (k + 1) * sizeofFileBuffer) }
  realloc k := some (memory.block k)
  length_fread_le k := by simp [chunkAt]
  length_realloc _ _ hbytes := memory.length_of_realloc hbytes

/-- What the first `k` reads leave at the beginning of the buffer. -/
def written (file : List UInt8) : ℕ → List UInt8
  | 0 => []
  | k + 1 =>
      if chunkAt file k = [] then written file k
      else (written file k).take (k * (sizeofFileBuffer - 1)) ++ chunkAt file k

/-- The number of the last read of a file. -/
def lastRead (file : List UInt8) : ℕ := file.length / sizeofFileBuffer

/-- What all reads of a file leave at the beginning of the buffer. -/
def fileText (file : List UInt8) : List UInt8 := written file (lastRead file + 1)

/-! ### The loop -/

theorem StaleMemory.length_blocks (memory : StaleMemory) (k : ℕ) :
    (memory.blocks k).length = k * sizeofFileBuffer := by
  induction k with
  | zero => rfl
  | succ k ih => rw [blocks, List.length_append, ih, memory.length_block, Nat.succ_mul]

theorem length_chunkAt (file : List UInt8) (k : ℕ) :
    (chunkAt file k).length = min sizeofFileBuffer (file.length - k * sizeofFileBuffer) := by
  simp [chunkAt]

/-- The reads before the last deliver full chunks. -/
theorem length_chunkAt_of_lt {file : List UInt8} {k : ℕ} (hk : k < lastRead file) :
    (chunkAt file k).length = sizeofFileBuffer := by
  have hfull : (k + 1) * sizeofFileBuffer ≤ file.length :=
    (Nat.mul_le_mul_right _ hk).trans (Nat.div_mul_le_self _ _)
  rw [length_chunkAt, Nat.succ_mul] at *
  omega

theorem chunkAt_ne_nil_of_lt {file : List UInt8} {k : ℕ} (hk : k < lastRead file) :
    chunkAt file k ≠ [] := by
  intro hnil
  have hchunk := length_chunkAt_of_lt hk
  rw [hnil] at hchunk
  exact absurd hchunk (by decide)

/-- The last read delivers what is left. -/
theorem length_chunkAt_lastRead (file : List UInt8) :
    (chunkAt file (lastRead file)).length = file.length % sizeofFileBuffer := by
  have hdiv : lastRead file * sizeofFileBuffer + file.length % sizeofFileBuffer = file.length :=
    Nat.div_add_mod' _ _
  have hmod : file.length % sizeofFileBuffer < sizeofFileBuffer := Nat.mod_lt _ (by decide)
  rw [length_chunkAt]
  omega

/-- Full chunks overlap in one byte. -/
theorem length_written {file : List UInt8} {k : ℕ} (hk : k ≤ lastRead file) :
    (written file k).length = k * (sizeofFileBuffer - 1) + min k 1 := by
  induction k with
  | zero => simp [written]
  | succ k ih =>
      have hchunk := length_chunkAt_of_lt hk
      rw [written, if_neg (chunkAt_ne_nil_of_lt hk), List.length_append, List.length_take,
        ih (Nat.le_of_succ_le hk), hchunk, Nat.succ_mul]
      simp only [sizeofFileBuffer]
      omega

/-- A write that reaches the end of what has been written. -/
theorem writeAt_append_drop {text memory data : List UInt8} {index : ℕ}
    (hindex : index ≤ text.length) (hreach : text.length ≤ index + data.length) :
    writeAt (text ++ memory.drop text.length) index data =
      (text.take index ++ data) ++ memory.drop (text.take index ++ data).length := by
  have hlen : (text.take index ++ data).length = index + data.length := by
    rw [List.length_append, List.length_take, Nat.min_eq_left hindex]
  have hrest : (text ++ memory.drop text.length).drop (index + data.length)
      = memory.drop (index + data.length) := by
    rw [List.drop_append, List.drop_of_length_le hreach, List.nil_append, List.drop_drop]
    congr 1
    omega
  rw [writeAt, List.take_append_of_le_length hindex, hrest, hlen]

theorem writeAt_nil (buffer : List UInt8) (index : ℕ) : writeAt buffer index [] = buffer := by
  simp [writeAt]

/-- The buffer before the `k`-th iteration: what has been written, and what the memory held. -/
def bufferAt (file : List UInt8) (memory : StaleMemory) (k : ℕ) : List UInt8 :=
  written file k ++ (memory.blocks k).drop (written file k).length

/-- **One iteration**: the chunk is written over the last byte of the one before. -/
theorem writeAt_bufferAt {file : List UInt8} (memory : StaleMemory) {k : ℕ}
    (hk : k ≤ lastRead file) :
    writeAt (bufferAt file memory k ++ memory.block k) (k * (sizeofFileBuffer - 1))
      (chunkAt file k) = bufferAt file memory (k + 1) := by
  have hlen := length_written hk
  have hblocks : bufferAt file memory k ++ memory.block k =
      written file k ++ (memory.blocks (k + 1)).drop (written file k).length := by
    have hroom : (written file k).length ≤ (memory.blocks k).length := by
      rw [hlen, memory.length_blocks]
      simp only [sizeofFileBuffer]
      omega
    rw [bufferAt, StaleMemory.blocks, List.drop_append_of_le_length hroom, List.append_assoc]
  rw [hblocks, bufferAt, written]
  by_cases hnil : chunkAt file k = []
  · rw [if_pos hnil, hnil, writeAt_nil]
  · have hpos : 0 < (chunkAt file k).length := List.length_pos_iff.2 hnil
    rw [if_neg hnil]
    exact writeAt_append_drop (by omega) (by omega)

/-- The iterations from the `k`-th on. -/
theorem importReadLoop_bufferAt {file : List UInt8} (memory : StaleMemory) {k fuel : ℕ}
    (hk : k ≤ lastRead file) (hfuel : lastRead file < k + fuel) :
    importReadLoop (fileEnv file memory) fuel k (k * (sizeofFileBuffer - 1))
      (bufferAt file memory k) = some (some (bufferAt file memory (lastRead file + 1))) := by
  induction fuel generalizing k with
  | zero => exact absurd hk (by omega)
  | succ fuel ih =>
      have hindex : k * (sizeofFileBuffer - 1) + (sizeofFileBuffer - 1) =
          (k + 1) * (sizeofFileBuffer - 1) := (Nat.succ_mul _ _).symm
      have heof : file.length < (k + 1) * sizeofFileBuffer ↔ lastRead file ≤ k := by
        rw [lastRead, ← Nat.lt_succ_iff]
        exact (Nat.div_lt_iff_lt_mul (by decide)).symm
      rw [importReadLoop]
      simp only [fileEnv, writeAt_bufferAt memory hk, hindex, decide_eq_true_eq, heof]
      split
      · rename_i hlast
        rw [Nat.le_antisymm hk hlast]
      · rename_i hmore
        exact ih (by omega) (by omega)

/-- **The buffer at the end of the loop** is what the reads have left of the file, and behind it
what the memory held. -/
theorem importReadLoop_fileEnv (file : List UInt8) (memory : StaleMemory) {fuel : ℕ}
    (hfuel : lastRead file < fuel) : importReadLoop (fileEnv file memory) fuel 0 0 [] =
      some (some (fileText file ++
        (memory.blocks (lastRead file + 1)).drop (fileText file).length)) := by
  have hstart : bufferAt file memory 0 = [] := rfl
  have hrun := importReadLoop_bufferAt memory (Nat.zero_le (lastRead file)) (by simpa using hfuel)
  rwa [hstart, Nat.zero_mul] at hrun

/-! ### The file in the buffer -/

/-- At the end of the read loop the buffer begins with the file, whatever the memory held. -/
def BufferIsFile (file : List UInt8) : Prop :=
  ∀ memory fuel, lastRead file < fuel → ∃ buffer,
    importReadLoop (fileEnv file memory) fuel 0 0 [] = some (some buffer) ∧
      buffer.take file.length = file

theorem length_fileText (file : List UInt8) : (fileText file).length =
    lastRead file * (sizeofFileBuffer - 1) +
      max (min (lastRead file) 1) (file.length % sizeofFileBuffer) := by
  have hlen := length_written (Nat.le_refl (lastRead file))
  have hlast := length_chunkAt_lastRead file
  rw [fileText, written]
  by_cases hnil : chunkAt file (lastRead file) = []
  · rw [hnil, List.length_nil] at hlast
    rw [if_pos hnil, hlen, ← hlast, Nat.max_zero]
  · have hpos : 0 < (chunkAt file (lastRead file)).length := List.length_pos_iff.2 hnil
    rw [if_neg hnil, List.length_append, List.length_take, hlen, hlast]
    omega

/-- One chunk holds the file, and a read that delivers nothing may follow. -/
theorem fileText_of_le {file : List UInt8} (h : file.length ≤ sizeofFileBuffer) :
    fileText file = file := by
  have hchunk : chunkAt file 0 = file := by
    rw [chunkAt, Nat.zero_mul, List.drop_zero, List.take_of_length_le h]
  have hfirst : written file 1 = file := by
    rw [written, written, hchunk]
    split
    · rename_i hnil
      rw [hnil]
    · simp
  rw [fileText]
  rcases Nat.lt_or_eq_of_le h with hlt | heq
  · rw [lastRead, Nat.div_eq_of_lt hlt, hfirst]
  · have hlast : lastRead file = 1 := by rw [lastRead, heq, Nat.div_self (by decide)]
    have hnil : chunkAt file 1 = [] := by
      rw [chunkAt, Nat.one_mul, List.drop_of_length_le h, List.take_nil]
    rw [hlast, written, if_pos hnil, hfirst]

/-- Every boundary that is crossed costs a byte. -/
theorem length_fileText_lt {file : List UInt8} (h : sizeofFileBuffer < file.length) :
    (fileText file).length < file.length := by
  have hdiv : sizeofFileBuffer * lastRead file + file.length % sizeofFileBuffer = file.length :=
    Nat.div_add_mod _ _
  have hmod : file.length % sizeofFileBuffer < sizeofFileBuffer := Nat.mod_lt _ (by decide)
  have hlen := length_fileText file
  simp only [sizeofFileBuffer] at *
  omega

theorem map_range_add {α : Type*} (f : ℕ → α) (m n : ℕ) : (List.range (m + n)).map f =
    (List.range m).map f ++ (List.range n).map fun i => f (m + i) := by
  rw [List.range_add, List.map_append, List.map_map]
  rfl

theorem StaleMemory.blocks_holding (byte : ℕ → UInt8) (k : ℕ) :
    (StaleMemory.holding byte).blocks k = (List.range (k * sizeofFileBuffer)).map byte := by
  induction k with
  | zero => simp [blocks]
  | succ k ih =>
      have hblock : (StaleMemory.holding byte).block k =
          (List.range sizeofFileBuffer).map fun i => byte (k * sizeofFileBuffer + i) := by
        rw [holding]
      rw [blocks, ih, hblock, Nat.succ_mul, map_range_add]

/-- The buffer has room for the file. -/
theorem length_lt_blocks (file : List UInt8) :
    file.length < (lastRead file + 1) * sizeofFileBuffer :=
  Nat.lt_mul_of_div_lt (Nat.lt_succ_self _) (by decide)

/-- **The buffer is the file exactly when one chunk holds it.** -/
theorem bufferIsFile_iff (file : List UInt8) :
    BufferIsFile file ↔ file.length ≤ sizeofFileBuffer := by
  constructor
  · intro h
    by_contra hlong
    have hlt := length_fileText_lt (not_le.1 hlong)
    have hne : file ≠ [] := List.ne_nil_of_length_pos (by omega)
    -- memory that holds another byte than the last of the file
    set c : UInt8 := file.getLast hne + 1 with hc
    obtain ⟨buffer, hbuffer, htake⟩ := h (.filled c) _ (Nat.lt_succ_self _)
    rw [importReadLoop_fileEnv file _ (Nat.lt_succ_self _), Option.some.injEq,
      Option.some.injEq] at hbuffer
    have hroom : file.length - 1 < (lastRead file + 1) * sizeofFileBuffer :=
      (Nat.sub_le _ _).trans_lt (length_lt_blocks file)
    have hstale : buffer[file.length - 1]? = some c := by
      rw [← hbuffer, List.getElem?_append_right (by omega), List.getElem?_drop,
        StaleMemory.filled, StaleMemory.blocks_holding, List.getElem?_map,
        List.getElem?_range (by omega), Option.map_some]
    have hlast : buffer[file.length - 1]? = some (file.getLast hne) := by
      rw [← List.getElem?_take_of_lt (Nat.sub_one_lt_of_lt (by omega : 0 < file.length)), htake,
        ← List.getLast?_eq_getElem?, List.getLast?_eq_some_getLast hne]
    rw [hstale, Option.some.injEq, hc] at hlast
    exact absurd hlast (by simp)
  · intro h memory fuel hfuel
    refine ⟨_, importReadLoop_fileEnv file memory hfuel, ?_⟩
    rw [fileText_of_le h, List.take_left]

/-- A file of one byte more than a chunk. -/
def longFile : List UInt8 := List.replicate sizeofFileBuffer 97 ++ [98]

/-- The last byte of the first chunk is lost. -/
theorem importReadLoop_longFile : ∃ buffer,
    importReadLoop (fileEnv longFile (.filled 0)) 2 0 0 [] = some (some buffer) ∧
      buffer.take longFile.length ≠ longFile := by
  have hlen : longFile.length = sizeofFileBuffer + 1 := by
    rw [longFile, List.length_append, List.length_replicate, List.length_singleton]
  have hlast : lastRead longFile = 1 := by
    rw [lastRead, hlen]
    rfl
  have htext : (fileText longFile).length = sizeofFileBuffer := by
    rw [length_fileText, hlast, hlen]
    rfl
  refine ⟨_, importReadLoop_fileEnv longFile (.filled 0) (by rw [hlast]; exact Nat.lt_succ_self 1),
    fun htake => ?_⟩
  -- the byte behind what has been read is the first that no read has written
  have hstale := congrArg (fun bytes => bytes[sizeofFileBuffer]?) htake
  rw [List.getElem?_take_of_lt (by omega), List.getElem?_append_right htext.le,
    List.getElem?_drop, StaleMemory.filled, StaleMemory.blocks_holding, hlast, htext,
    List.getElem?_map, List.getElem?_range (by decide), longFile,
    List.getElem?_append_right (by rw [List.length_replicate]), List.length_replicate] at hstale
  exact absurd hstale (by decide)

/-! ### What lies behind the file -/

/-- Any two memories lead to the same result. -/
def MemoryIndependent (file : List UInt8) : Prop :=
  ∀ memory memory' fuel, lastRead file < fuel →
    nvipfixImport (fileEnv file memory) fuel = nvipfixImport (fileEnv file memory') fuel

/-- A text that turns what is in front of it into a document with one more record. -/
def phantom : CString := ascii "]data[x"

/-- The number of records of a result. -/
def recordCount (result : Option (List DataRecord)) : ℕ := (result.getD []).length

theorem recordCount_add_copy (result : Option (List DataRecord)) (record : DataRecord) :
    recordCount (dataListAddCopy result record) = recordCount result + 1 := by
  simp [recordCount, dataListAddCopy]

/-- Two tokens behind a list of tokens add a record, whatever the list ends in. -/
theorem recordCount_importTokens_append (tokens e : List CString) (he : e = [] ∨ e = [[]])
    (result : Option (List DataRecord)) :
    recordCount (importTokens result (tokens ++ e)) <
      recordCount (importTokens result (tokens ++ [ascii "data", ascii "x"])) := by
  have hdata : stringTrimCopy (ascii "data") (some tokenTrimChars) = ascii "data" := by decide
  have hempty : stringTrimCopy [] (some tokenTrimChars) ≠ ascii "data" := by decide
  have hnil : ∀ result, importRecords result [] = result := fun _ => rfl
  have hx : ∀ result, importRecords result (ascii "x") = dataListAddCopy result {} := fun _ => rfl
  have hd : ∀ result, importRecords result (ascii "data") = dataListAddCopy result {} :=
    fun _ => rfl
  induction tokens using List.twoStepInduction generalizing result with
  | nil =>
      have hlist : importTokens result e = result := by rcases he with rfl | rfl <;> rfl
      rw [List.nil_append, List.nil_append, hlist, importTokens, if_pos hdata, importTokens, hx,
        recordCount_add_copy]
      exact Nat.lt_succ_self _
  | singleton token =>
      have hlist : importTokens result ([token] ++ e) = result := by
        rcases he with rfl | rfl
        · rfl
        · rw [List.singleton_append, importTokens, hnil]
          split <;> rfl
      rw [hlist, List.singleton_append, importTokens]
      split
      · -- the token in front takes the first of the two for its records
        rw [importTokens, hd, recordCount_add_copy]
        exact Nat.lt_succ_self _
      · rw [importTokens, if_pos hdata, importTokens, hx, recordCount_add_copy]
        exact Nat.lt_succ_self _
  | cons_cons token next tokens ih ih' =>
      rw [List.cons_append, List.cons_append, List.cons_append, List.cons_append, importTokens,
        importTokens]
      split
      · exact ih _
      · exact ih' next result

/-- **A text that is left in the memory can always add a record.** -/
theorem recordCount_importText_append_phantom (text : CString) :
    recordCount (importText text) < recordCount (importText (text ++ phantom)) := by
  have hhead : ∀ c ∈ phantom.head?, inCharset (ascii "[]") c := by
    intro c hc
    have hbracket : phantom.head? = some 93 := rfl
    rw [hbracket] at hc
    cases hc
    decide
  have hruns : Tokens.runs (inCharset (ascii "[]")) (text ++ phantom) =
      Tokens.runs (inCharset (ascii "[]")) text ++ [ascii "data", ascii "x"] :=
    Tokens.runs_append_of_head? _ text hhead
  have hlast : ∀ c ∈ (text ++ phantom).getLast?, c ∉ ascii "[]" := by
    intro c hc
    have hx : phantom.getLast? = some 120 := rfl
    rw [List.getLast?_append_of_ne_nil _ (by decide), hx] at hc
    cases hc
    decide
  have hphantom : importText (text ++ phantom) = importTokens none
      (Tokens.runs (inCharset (ascii "[]")) text ++ [ascii "data", ascii "x"]) := by
    rw [importText, stringSplit_eq_runs (by simp [phantom, ascii]) hlast, hruns]
  rw [hphantom]
  by_cases htext : text = []
  · rw [htext]
    decide
  · obtain ⟨e, he, hor⟩ := exists_stringSplit_eq htext (ascii "[]")
    rw [importText, he]
    exact recordCount_importTokens_append _ e hor none

/-! ### What the import depends on -/

/-- What the memory holds behind what the reads have left. -/
def staleBytes (file : List UInt8) (memory : StaleMemory) : List UInt8 :=
  (memory.blocks (lastRead file + 1)).drop (fileText file).length

/-- The number of bytes behind what the reads have left. -/
def staleRoom (file : List UInt8) : ℕ :=
  (lastRead file + 1) * sizeofFileBuffer - (fileText file).length

/-- There always are such bytes. -/
theorem staleRoom_pos (file : List UInt8) : 0 < staleRoom file := by
  refine Nat.sub_pos_of_lt (Nat.lt_of_le_of_lt ?_ (length_lt_blocks file))
  rcases Nat.lt_or_ge sizeofFileBuffer file.length with h | h
  · exact (length_fileText_lt h).le
  · rw [fileText_of_le h]

/-- Nothing is read that is not in the file. -/
theorem mem_of_mem_fileText {file : List UInt8} {c : UInt8} (h : c ∈ fileText file) : c ∈ file := by
  have hall : ∀ k, ∀ c ∈ written file k, c ∈ file := by
    intro k
    induction k with
    | zero => simp [written]
    | succ k ih =>
        intro c hc
        rw [written] at hc
        split at hc
        · exact ih c hc
        · rcases List.mem_append.1 hc with hc | hc
          · exact ih c (List.mem_of_mem_take hc)
          · exact List.mem_of_mem_drop (List.mem_of_mem_take hc)
  exact hall _ c h

/-- Memory that holds a text behind what the reads have left, and zeros behind the text. -/
def StaleMemory.behind (file : List UInt8) (text : CString) : StaleMemory :=
  .holding fun i => text.getD (i - (fileText file).length) 0

theorem staleBytes_behind {file : List UInt8} {text : CString} (h : text.length ≤ staleRoom file) :
    staleBytes file (.behind file text) =
      text ++ List.replicate (staleRoom file - text.length) 0 := by
  rw [staleBytes, StaleMemory.behind, StaleMemory.blocks_holding]
  refine List.ext_getElem? fun i => ?_
  rw [List.getElem?_drop, List.getElem?_map]
  rcases Nat.lt_or_ge i (staleRoom file) with hi | hi
  · have hin : (fileText file).length + i < (lastRead file + 1) * sizeofFileBuffer := by
      rw [staleRoom] at hi
      omega
    rw [List.getElem?_range hin, Option.map_some, Nat.add_sub_cancel_left]
    rcases Nat.lt_or_ge i text.length with ht | ht
    · rw [List.getElem?_append_left ht, List.getD_eq_getElem?_getD, List.getElem?_eq_getElem ht,
        Option.getD_some]
    · rw [List.getElem?_append_right ht, List.getElem?_replicate_of_lt (by omega),
        List.getD_eq_getElem?_getD, List.getElem?_eq_none ht, Option.getD_none]
  · have hout : (lastRead file + 1) * sizeofFileBuffer ≤ (fileText file).length + i := by
      rw [staleRoom] at hi
      omega
    rw [List.getElem?_eq_none (by rwa [List.length_range]), Option.map_none, eq_comm,
      List.getElem?_eq_none_iff, List.length_append, List.length_replicate]
    omega

/-- **The text is followed by what the memory holds**, up to the first NUL there. -/
theorem nvipfixImport_behind {file : List UInt8} (h0 : 0 ∉ file) {text : CString} (ht : 0 ∉ text)
    (hroom : text.length < staleRoom file) {fuel : ℕ} (hfuel : lastRead file < fuel) :
    nvipfixImport (fileEnv file (.behind file text)) fuel =
      some (importText (fileText file ++ text)) := by
  have hrest : staleRoom file - text.length = staleRoom file - text.length - 1 + 1 := by omega
  have hread := importReadLoop_fileEnv file (.behind file text) hfuel
  rw [← staleBytes, staleBytes_behind hroom.le, hrest, List.replicate_succ,
    ← List.append_assoc] at hread
  refine nvipfixImport_eq_importText hread fun hmem => ?_
  rcases List.mem_append.1 hmem with hmem | hmem
  · exact h0 (mem_of_mem_fileText hmem)
  · exact ht hmem

/-- Memory without NUL: `strlen` reads what lies behind the buffer. -/
theorem nvipfixImport_filled {file : List UInt8} (h0 : 0 ∉ file) {c : UInt8} (hc : c ≠ 0)
    {fuel : ℕ} (hfuel : lastRead file < fuel) :
    nvipfixImport (fileEnv file (.filled c)) fuel = none := by
  have hnul : 0 ∉ fileText file ++ staleBytes file (.filled c) := by
    intro hmem
    rcases List.mem_append.1 hmem with hmem | hmem
    · exact h0 (mem_of_mem_fileText hmem)
    · rw [staleBytes, StaleMemory.filled, StaleMemory.blocks_holding] at hmem
      obtain ⟨i, -, hi⟩ := List.mem_map.1 (List.mem_of_mem_drop hmem)
      exact hc hi
  rw [staleBytes] at hnul
  simp only [nvipfixImport, importReadLoop_fileEnv file (.filled c) hfuel, hnul, if_false]

/-- **The import of a text depends on more than the text**: with one memory it is what its text
alone gives, with another there is no result, and, if there is room for a few bytes behind the
text, with another there are more records. -/
theorem not_memoryIndependent {file : List UInt8} (h0 : 0 ∉ file) :
    ¬ MemoryIndependent file ∧
      (phantom.length < staleRoom file → ∃ memory memory' records records',
        (∀ fuel, lastRead file < fuel →
          nvipfixImport (fileEnv file memory) fuel = some records ∧
            nvipfixImport (fileEnv file memory') fuel = some records') ∧
        recordCount records < recordCount records') := by
  have hempty : ∀ fuel, lastRead file < fuel →
      nvipfixImport (fileEnv file (.behind file [])) fuel = some (importText (fileText file)) := by
    intro fuel hfuel
    simpa using nvipfixImport_behind h0 List.not_mem_nil (staleRoom_pos file) hfuel
  refine ⟨fun h => ?_, fun hroom => ?_⟩
  · have heq := h (.behind file []) (.filled 1) _ (Nat.lt_succ_self _)
    rw [hempty _ (Nat.lt_succ_self _),
      nvipfixImport_filled h0 (by decide) (Nat.lt_succ_self _)] at heq
    cases heq
  · exact ⟨.behind file [], .behind file phantom, _, _, fun fuel hfuel =>
      ⟨hempty fuel hfuel, nvipfixImport_behind h0 (by decide) hroom hfuel⟩,
      recordCount_importText_append_phantom _⟩

/-- A document of one record. -/
def vlanFile : CString := ascii "\x7b\"data\":[\x7b\"vlan\":1\x7d]\x7d"

theorem not_memoryIndependent_vlanFile :
    ¬ MemoryIndependent vlanFile ∧
      (phantom.length < staleRoom vlanFile → ∃ memory memory' records records',
        (∀ fuel, lastRead vlanFile < fuel →
          nvipfixImport (fileEnv vlanFile memory) fuel = some records ∧
            nvipfixImport (fileEnv vlanFile memory') fuel = some records') ∧
        recordCount records < recordCount records') :=
  not_memoryIndependent (by decide)

/-- Two memories, of which one adds an empty record to the document. -/
theorem nvipfixImport_vlanFile :
    nvipfixImport (fileEnv vlanFile (.behind vlanFile [])) 1 = some (some [{ vlanId := 1 }]) ∧
      nvipfixImport (fileEnv vlanFile (.behind vlanFile phantom)) 1 =
        some (some [{ vlanId := 1 }, {}]) := by
  have hlen : vlanFile.length = 21 := by decide
  have htext : fileText vlanFile = vlanFile := fileText_of_le (by rw [hlen]; decide)
  have hlast : lastRead vlanFile = 0 := by rw [lastRead, hlen]; rfl
  have hroom : staleRoom vlanFile = sizeofFileBuffer - 21 := by
    rw [staleRoom, htext, hlast, hlen, Nat.zero_add, Nat.one_mul]
  have hfuel : lastRead vlanFile < 1 := by rw [hlast]; exact Nat.one_pos
  constructor
  · rw [nvipfixImport_behind (by decide) (by decide) (by rw [hroom]; decide) hfuel, htext]
    decide +kernel
  · rw [nvipfixImport_behind (by decide) (by decide) (by rw [hroom]; decide) hfuel, htext]
    decide +kernel

end NvIpfix
