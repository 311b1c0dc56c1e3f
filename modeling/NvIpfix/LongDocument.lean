/-
**Documents of more than one chunk.**

Of a file that is longer than a chunk the read loop of `nvipfix_import` loses the last byte of every
chunk that is not the last.  So the importer sees the text of a document without every 65536th byte;
rendered connections are imported right exactly when what is left of the text is still cut into one
record for each of them, with values that the parsers read as the given ones.  A text that fits into
one chunk together with its NUL loses nothing.

Main definitions:

* `NvIpfix.keptText` — a text without every 65536th byte;
* `NvIpfix.ImportsRight` — the file of some connections is imported as their records;
* `NvIpfix.Connection.pairs` — the names and values of a connection.

Main results:

* `NvIpfix.fileText_append_singleton` — what the reads leave of a text and the byte behind it;
* `NvIpfix.nvipfixImport_textFile` — the import of a NUL-terminated text is that of its kept text;
* `NvIpfix.importsRight_iff` — **exactly when importing undoes rendering**.
-/

import NvIpfix.ReadLoop
import NvIpfix.RecordPairs
import NvIpfix.RoundTrip

set_option relaxedAutoImplicit false
set_option autoImplicit false

namespace NvIpfix

/-! ### The bytes that are kept -/

/-- What is left of a stretch of a text, the first of which has a number, without the last byte of
every chunk. -/
def keptFrom : ℕ → CString → CString
  | _, [] => []
  | i, c :: s =>
      if (i + 1) % sizeofFileBuffer = 0 then keptFrom (i + 1) s else c :: keptFrom (i + 1) s

/-- A text without the last byte of every chunk. -/
def keptText (text : CString) : CString := keptFrom 0 text

theorem keptFrom_append (i : ℕ) (s t : CString) :
    keptFrom i (s ++ t) = keptFrom i s ++ keptFrom (i + s.length) t := by
  induction s generalizing i with
  | nil => rfl
  | cons c s ih =>
      have hnext : i + 1 + s.length = i + (c :: s).length := by
        rw [List.length_cons]
        omega
      rw [List.cons_append, keptFrom, keptFrom, ih, hnext]
      split <;> rfl

/-- Within a chunk everything is kept. -/
theorem keptFrom_of_lt {i : ℕ} {s : CString}
    (h : i % sizeofFileBuffer + s.length < sizeofFileBuffer) : keptFrom i s = s := by
  induction s generalizing i with
  | nil => rfl
  | cons c s ih =>
      simp only [sizeofFileBuffer, List.length_cons] at h ih
      rw [keptFrom, if_neg (by simp only [sizeofFileBuffer]; omega), ih (by omega)]

/-- Of a chunk all but the last byte is kept. -/
theorem keptFrom_chunk {k : ℕ} {chunk : CString} (h : chunk.length = sizeofFileBuffer) :
    keptFrom (k * sizeofFileBuffer) chunk = chunk.take (sizeofFileBuffer - 1) := by
  obtain ⟨c, hc⟩ : ∃ c, chunk.drop (sizeofFileBuffer - 1) = [c] :=
    List.length_eq_one_iff.1 (by rw [List.length_drop, h]; rfl)
  have hlen : (chunk.take (sizeofFileBuffer - 1)).length = sizeofFileBuffer - 1 := by
    rw [List.length_take, h]
    rfl
  have hlast : keptFrom (k * sizeofFileBuffer + (sizeofFileBuffer - 1)) [c] = [] := by
    rw [keptFrom, if_pos (by simp only [sizeofFileBuffer]; omega), keptFrom]
  conv_lhs => rw [← List.take_append_drop (sizeofFileBuffer - 1) chunk]
  rw [hc, keptFrom_append, hlen, hlast, List.append_nil, keptFrom_of_lt]
  rw [hlen]
  simp only [sizeofFileBuffer]
  omega

theorem keptText_of_lt {text : CString} (h : text.length < sizeofFileBuffer) :
    keptText text = text := keptFrom_of_lt (by simpa using h)

theorem mem_of_mem_keptFrom {c : UInt8} {i : ℕ} {s : CString} (h : c ∈ keptFrom i s) : c ∈ s := by
  induction s generalizing i with
  | nil => exact h
  | cons x s ih =>
      rw [keptFrom] at h
      split at h
      · exact List.mem_cons_of_mem x (ih h)
      · exact (List.mem_cons.1 h).elim (fun hc => hc ▸ List.mem_cons_self)
          fun hc => List.mem_cons_of_mem x (ih hc)

/-! ### What the reads leave of a text -/

theorem lastRead_mul_le (file : List UInt8) : lastRead file * sizeofFileBuffer ≤ file.length :=
  Nat.div_mul_le_self _ _

/-- **The part of a full chunk that the next does not overwrite** is what is kept. -/
theorem take_written {file : List UInt8} {k : ℕ} (hk : k ≤ lastRead file) :
    (written file k).take (k * (sizeofFileBuffer - 1)) =
      keptText (file.take (k * sizeofFileBuffer)) := by
  induction k with
  | zero => simp [keptText, keptFrom]
  | succ k ih =>
      have hchunk := length_chunkAt_of_lt hk
      have hlen : ((written file k).take (k * (sizeofFileBuffer - 1))).length =
          k * (sizeofFileBuffer - 1) := by
        rw [List.length_take, length_written (Nat.le_of_succ_le hk)]
        omega
      have hfile : (file.take (k * sizeofFileBuffer)).length = k * sizeofFileBuffer := by
        have hfull : k * sizeofFileBuffer ≤ file.length :=
          (Nat.mul_le_mul_right _ (Nat.le_of_succ_le hk)).trans (lastRead_mul_le file)
        rw [List.length_take, Nat.min_eq_left hfull]
      rw [written, if_neg (chunkAt_ne_nil_of_lt hk), Nat.succ_mul, List.take_append, hlen,
        Nat.add_sub_cancel_left, List.take_of_length_le (by omega), ih (Nat.le_of_succ_le hk),
        Nat.succ_mul, List.take_add, keptText, keptText, keptFrom_append, hfile, Nat.zero_add,
        ← chunkAt, keptFrom_chunk hchunk]

section LastByte

variable (text : List UInt8) (c : UInt8)

/-- What is left of a text for its last read is less than a chunk. -/
theorem length_sub_lastRead_lt :
    text.length - lastRead text * sizeofFileBuffer < sizeofFileBuffer := by
  have hlt : text.length < (lastRead text + 1) * sizeofFileBuffer :=
    Nat.lt_mul_of_div_lt (Nat.lt_succ_self _) (by decide)
  have hle := lastRead_mul_le text
  rw [Nat.succ_mul] at hlt
  omega

/-- The byte behind a text is in the chunk of the number of its last read. -/
theorem chunkAt_append_singleton : chunkAt (text ++ [c]) (lastRead text) =
    text.drop (lastRead text * sizeofFileBuffer) ++ [c] := by
  have hlt := length_sub_lastRead_lt text
  rw [chunkAt, List.drop_append_of_le_length (lastRead_mul_le text), List.take_of_length_le]
  rw [List.length_append, List.length_drop, List.length_singleton]
  omega

theorem lastRead_le_lastRead_append : lastRead text ≤ lastRead (text ++ [c]) := by
  rw [lastRead, lastRead, List.length_append]
  exact Nat.div_le_div_right (Nat.le_add_right _ _)

/-- Behind the chunk of the last byte there is at most a read that delivers nothing. -/
theorem fileText_eq_written :
    fileText (text ++ [c]) = written (text ++ [c]) (lastRead text + 1) := by
  rcases Nat.eq_or_lt_of_le (lastRead_le_lastRead_append text c) with heq | hlt
  · rw [fileText, ← heq]
  · have hlen := length_chunkAt_of_lt hlt
    have hle := lastRead_mul_le text
    rw [chunkAt_append_singleton, List.length_append, List.length_drop,
      List.length_singleton] at hlen
    have hnext : lastRead (text ++ [c]) = lastRead text + 1 := by
      rw [lastRead, List.length_append, List.length_singleton]
      refine Nat.div_eq_of_lt_le ?_ ?_ <;> simp only [Nat.succ_mul] <;> omega
    have hnil : chunkAt (text ++ [c]) (lastRead text + 1) = [] := by
      rw [chunkAt, List.drop_of_length_le, List.take_nil]
      rw [List.length_append, List.length_singleton, Nat.succ_mul]
      omega
    rw [fileText, hnext, written, if_pos hnil]

/-- In the last chunk everything is kept. -/
theorem keptText_eq_append : keptText text =
    keptText (text.take (lastRead text * sizeofFileBuffer)) ++
      text.drop (lastRead text * sizeofFileBuffer) := by
  have hrest : keptFrom (lastRead text * sizeofFileBuffer)
      (text.drop (lastRead text * sizeofFileBuffer)) =
        text.drop (lastRead text * sizeofFileBuffer) := by
    refine keptFrom_of_lt ?_
    rw [Nat.mul_mod_left, Nat.zero_add, List.length_drop]
    exact length_sub_lastRead_lt text
  conv_lhs => rw [← List.take_append_drop (lastRead text * sizeofFileBuffer) text]
  rw [keptText, keptFrom_append, List.length_take, Nat.min_eq_left (lastRead_mul_le text),
    Nat.zero_add, hrest, keptText]

/-- **What the reads leave of a text and the byte behind it**: the last byte of every chunk of the
text is lost. -/
theorem fileText_append_singleton : fileText (text ++ [c]) = keptText text ++ [c] := by
  rw [fileText_eq_written, written, chunkAt_append_singleton, if_neg (by simp),
    take_written (lastRead_le_lastRead_append text c),
    List.take_append_of_le_length (lastRead_mul_le text), keptText_eq_append text,
    List.append_assoc]

end LastByte

/-- The file of a NUL-terminated text. -/
def textFile (text : CString) : List UInt8 := text ++ [0]

/-- **The import of a NUL-terminated text** is that of the text without the last byte of every
chunk, whatever the memory held. -/
theorem nvipfixImport_textFile {text : CString} (h0 : 0 ∉ text) (memory : StaleMemory) {fuel : ℕ}
    (hfuel : lastRead (textFile text) < fuel) :
    nvipfixImport (fileEnv (textFile text) memory) fuel = some (importText (keptText text)) := by
  have hread := importReadLoop_fileEnv (textFile text) memory hfuel
  have htext : fileText (textFile text) = keptText text ++ [0] := fileText_append_singleton text 0
  rw [htext, List.append_assoc, List.singleton_append] at hread
  exact nvipfixImport_eq_importText hread fun h => h0 (mem_of_mem_keptFrom h)

/-! ### Rendered connections -/

/-- The file of some connections is imported as one record for each of them, in order, that holds
exactly its members, whatever the memory held. -/
def ImportsRight (connections : List Connection) : Prop :=
  ∀ memory fuel, lastRead (textFile (render connections)) < fuel → ∃ records,
    nvipfixImport (fileEnv (textFile (render connections)) memory) fuel = some (some records) ∧
      List.Forall₂ Connection.Holds connections records

/-- The names and values of a connection. -/
def Connection.pairs (c : Connection) : List (CString × CString) :=
  c.members.map fun m => (m.given.name, m.given.text)

theorem Connection.record_eq_storePairs (c : Connection) :
    c.object.record = storePairs c.pairs {} := by
  have hname : ∀ g : Given, trimName g.name = g.name := fun g =>
    Given.stringTrim_of_free (g.free_name.mono (by decide))
  have htext : ∀ g : Given, trimValue g.text = g.text := fun g =>
    Given.stringTrim_of_free (g.free_text.mono (by decide))
  rw [Object.record, object, List.foldl_map, storePairs, pairs, List.foldl_map]
  simp only [Member.store, Given.member, hname, htext]

/-- Records that hold connections are those of the rendered connections. -/
theorem forall₂_holds_iff {connections : List Connection} {records : List DataRecord} :
    List.Forall₂ Connection.Holds connections records ↔
      records = connections.map fun c => storePairs c.pairs {} := by
  have hholds : ∀ c record, Connection.Holds c record ↔ storePairs c.pairs {} = record := by
    intro c record
    rw [← c.record_eq_storePairs]
    exact ⟨fun h => c.holds_record.eq h, fun h => h ▸ c.holds_record⟩
  have hrel : Connection.Holds = fun c record => storePairs c.pairs {} = record :=
    funext₂ fun c record => propext (hholds c record)
  rw [hrel, ← List.forall₂_map_left_iff (R := Eq), List.forall₂_eq_eq_eq, eq_comm]

/-- The import of the file decides. -/
theorem importsRight_iff_importText (connections : List Connection) : ImportsRight connections ↔
    importText (keptText (render connections)) =
      some (connections.map fun c => storePairs c.pairs {}) := by
  have h0 := zero_not_mem_render connections
  constructor
  · intro h
    obtain ⟨records, himport, hholds⟩ := h (.filled 0) _ (Nat.lt_succ_self _)
    rw [nvipfixImport_textFile h0 _ (Nat.lt_succ_self _), Option.some_inj] at himport
    rw [himport, forall₂_holds_iff.1 hholds]
  · intro h memory fuel hfuel
    exact ⟨_, by rw [nvipfixImport_textFile h0 memory hfuel, h], forall₂_holds_iff.2 rfl⟩

/-- **Exactly when importing undoes rendering**: without the last byte of every chunk the text is
still cut into one record for each connection, with values that are read alike.  So it is for every
text that fits into one chunk together with its NUL. -/
theorem importsRight_iff {connections : List Connection} (hne : connections ≠ []) :
    (ImportsRight connections ↔
        List.Forall₂ SameValues (connections.map Connection.pairs)
          (documentPairs (keptText (render connections)))) ∧
      ((render connections).length + 1 ≤ sizeofFileBuffer → ImportsRight connections) := by
  have himport := importsRight_iff_importText connections
  refine ⟨?_, fun hfits => ?_⟩
  · have hfree : 11 ∉ keptText (render connections) := fun h =>
      free_documentText _ 11 (mem_of_mem_keptFrom h) (by decide)
    have hsome : connections.map (fun c => storePairs c.pairs {}) ≠ [] := by simpa using hne
    rw [himport, importText_eq_documentPairs hfree, ← addedRecords_of_ne_nil hsome,
      addedRecords_inj, eq_comm, ← List.forall₂_eq_eq_eq, List.forall₂_map_left_iff,
      List.forall₂_map_right_iff, List.forall₂_map_left_iff]
    simp only [storePairs_eq_iff]
  · rw [himport, keptText_of_lt hfits, importText_render hne]
    simp only [Connection.record_eq_storePairs]

theorem importsRight_sampleConnections : ImportsRight sampleConnections :=
  (importsRight_iff (by simp [sampleConnections])).2 (by decide +kernel)

/-! ### A document that loses a digit -/

/-- A connection with a VLAN only. -/
def vlanConnection (n : UInt16) : Connection := ⟨[⟨.vlan n, false⟩], by simp, by simp⟩

/-- Connections whose last byte of the first chunk is the last digit of the last VLAN. -/
def longConnections : List Connection :=
  List.replicate 5956 (vlanConnection 0) ++ [vlanConnection 123]

theorem render_append_singleton (connections : List Connection) (c : Connection) :
    render (connections ++ [c]) = documentHead ++ 91 ::
      ((connections.flatMap fun c => c.object.text ++ [44]) ++ (c.object.text ++ [93, 125])) := by
  rw [render, documentText, List.map_map, List.map_append, List.map_singleton,
    joinComma_append_cons, List.flatMap_map, List.flatMap_nil, List.append_nil, List.append_assoc]
  rfl

/-- A single byte is lost of a text of two chunks. -/
theorem keptText_append_cons {s t : CString} (c : UInt8) (hs : s.length = sizeofFileBuffer - 1)
    (ht : t.length < sizeofFileBuffer) : keptText (s ++ c :: t) = s ++ t := by
  have hsplit : s ++ c :: t = (s ++ [c]) ++ t := by simp
  have hchunk : (s ++ [c]).length = sizeofFileBuffer := by
    rw [List.length_append, hs]
    rfl
  have hfirst := keptFrom_chunk (k := 0) hchunk
  rw [Nat.zero_mul, List.take_left' hs] at hfirst
  rw [keptText, hsplit, keptFrom_append, hfirst, hchunk, Nat.zero_add, keptFrom_of_lt]
  simpa using ht

/-- What is left of the document is the document of another last connection. -/
theorem keptText_longConnections : keptText (render longConnections) =
    render (List.replicate 5956 (vlanConnection 0) ++ [vlanConnection 12]) := by
  set many := List.replicate 5956 (vlanConnection 0) with hmany
  set head : CString := documentHead ++ 91 ::
    ((many.flatMap fun c => c.object.text ++ [44]) ++ ascii "\x7b\"vlan\":12") with hhead
  have hlong : render (many ++ [vlanConnection 123]) = head ++ 51 :: ascii "\x7d]\x7d" := by
    have htext : (vlanConnection 123).object.text ++ [93, 125] =
        ascii "\x7b\"vlan\":12" ++ 51 :: ascii "\x7d]\x7d" := by decide
    rw [render_append_singleton, htext, hhead, List.append_assoc, List.cons_append,
      List.append_assoc]
  have hshort : render (many ++ [vlanConnection 12]) = head ++ ascii "\x7d]\x7d" := by
    have htext : (vlanConnection 12).object.text ++ [93, 125] =
        ascii "\x7b\"vlan\":12" ++ ascii "\x7d]\x7d" := by decide
    rw [render_append_singleton, htext, hhead, List.append_assoc, List.cons_append,
      List.append_assoc]
  -- nine bytes in front of the objects, eleven for each of the first, ten of the last
  have hlen : head.length = sizeofFileBuffer - 1 := by
    have hfirst : (many.flatMap fun c => c.object.text ++ [44]).length = 5956 * 11 := by
      have hobject : ((vlanConnection 0).object.text ++ [44]).length = 11 := by decide
      rw [List.length_flatMap, hmany, List.map_replicate, List.sum_replicate_nat, hobject]
    rw [hhead, List.length_append, List.length_cons, List.length_append, hfirst]
    decide
  rw [longConnections, ← hmany, hlong, hshort]
  exact keptText_append_cons 51 hlen (by decide)

/-- **A document that loses a digit**: the last connection is imported with VLAN 12, not 123. -/
theorem not_importsRight_longConnections :
    (∀ memory fuel, lastRead (textFile (render longConnections)) < fuel →
      nvipfixImport (fileEnv (textFile (render longConnections)) memory) fuel =
        some (some (List.replicate 5956 ({} : DataRecord) ++ [{ vlanId := 12 }]))) ∧
      ¬ ImportsRight longConnections := by
  have hrecords : importText (keptText (render longConnections)) =
      some (List.replicate 5956 ({} : DataRecord) ++ [{ vlanId := 12 }]) := by
    have hzero : (vlanConnection 0).object.record = {} := by decide
    have hlast : (vlanConnection 12).object.record = { vlanId := 12 } := by decide
    rw [keptText_longConnections,
      importText_render (List.append_ne_nil_of_right_ne_nil _ (by simp)), List.map_append,
      List.map_replicate, List.map_singleton, hzero, hlast]
  refine ⟨fun memory fuel hfuel => ?_, fun h => ?_⟩
  · rw [nvipfixImport_textFile (zero_not_mem_render _) memory hfuel, hrecords]
  · have himport := (importsRight_iff_importText longConnections).1 h
    rw [hrecords, longConnections, Option.some_inj, List.map_append] at himport
    have hlast := List.append_inj_right' himport rfl
    exact absurd hlast (by decide)

end NvIpfix
