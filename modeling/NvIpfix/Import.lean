/-
**The JSON importer.**

`nvipfix_import` reads a stream into a growing buffer and cuts the text it then finds there, in
five nested passes: at square brackets; the token behind one that trims to `data` at opening
braces; each such record, trimmed of commas and closing braces, at commas; and each item at its
first colon, which is overwritten with a vertical tab for the purpose.  A name found in the table
`Items` selects an offset into the record and a parser.

The two stages are kept apart: `importReadLoop` is the read loop, over a stream and a heap that
may behave in any way, and `importText` is what happens to the NUL-terminated text in the buffer.
`nvipfixImport` is the composition.

Main definitions:

* `NvIpfix.ImportItem`, `NvIpfix.importItems`, `NvIpfix.importGetItem` — the table;
* `NvIpfix.importItem`, `NvIpfix.importRecord`, `NvIpfix.importTokens`, `NvIpfix.importText`;
* `NvIpfix.ImportEnv`, `NvIpfix.importReadLoop`, `NvIpfix.nvipfixImport`.

Main results:

* `NvIpfix.importItems_field_ne`, `NvIpfix.numeralParser_of_isNumeral` — facts of the table;
* `NvIpfix.nvipfixImport_eq_importText` — the importer depends on the text in its buffer only;
* `NvIpfix.importReadLoop_of_eof` — a stream that ends in its first chunk is in the buffer as it is.
-/

import NvIpfix.Data

set_option relaxedAutoImplicit false
set_option autoImplicit false

namespace NvIpfix

open CNumeral

/-! ### The table of items -/

/-- `nvIPFIX_import_item_t`: a member name, an offset, and a parser of what is stored there. -/
structure ImportItem where
  name : CString
  field : DataField
  parseValue : ParseValue field.Value

/-- `nvipfix_import_parse_ingress`. -/
def importParseIngress : ParseValue UInt32 := parseU32

/-- `nvipfix_import_parse_egress`. -/
def importParseEgress : ParseValue UInt32 := parseU32

/-- `NV_IPFIX_LAYER2_NETWORK_TYPE_VxLAN`, shifted into the top byte. -/
def layer2NetworkTypeVxlan : UInt64 := (0x01 : UInt64) <<< 56

/-- `nvipfix_import_parse_layer2`. -/
def importParseLayer2 : ParseValue UInt64 := fun s value =>
  match parseU64 s value with
  | (true, value) => (true, value ||| layer2NetworkTypeVxlan)
  | (false, value) => (false, value)

/-- `nvipfix_import_parse_tcp_control_flags`. -/
def importParseTcpControlFlags : ParseValue TcpControlFlag := fun s flag =>
  if s = ascii "fin" then (true, .fin)
  else if s = ascii "rst" then (true, .rst)
  else if s = ascii "syn" then (true, .syn)
  else if s = ascii "est" then (true, .ack)
  else (false, flag)

/-- `nvipfix_import_parse_protocol`. -/
def importParseProtocol : ParseValue UInt32 := fun s value =>
  match parseOctet s 0 with
  | (true, protocol) => (true, protocol.toUInt32)
  | (false, _) => (false, value)

/-- `nvipfix_import_parse_ethernet_type`. -/
def importParseEthernetType : ParseValue UInt32 := fun s value =>
  match parseU16 s 0 with
  | (true, type) => (true, type.toUInt32)
  | (false, _) => (false, value)

/-- `Items`. -/
def importItems : List ImportItem :=
  [⟨ascii "vlan", .vlanId, parseU16⟩,
   ⟨ascii "src-switch-port", .ingressInterface, importParseIngress⟩,
   ⟨ascii "dst-switch-port", .egressInterface, importParseEgress⟩,
   ⟨ascii "dscp", .dscp, parseByte⟩,
   ⟨ascii "src-port", .sourcePort, parseU16⟩,
   ⟨ascii "dst-port", .destinationPort, parseU16⟩,
   ⟨ascii "ibytes", .responderOctets, parseU64⟩,
   ⟨ascii "obytes", .initiatorOctets, parseU64⟩,
   ⟨ascii "total-bytes", .transportOctetDeltaCount, parseU64⟩,
   ⟨ascii "vxlan", .layer2SegmentId, importParseLayer2⟩,
   ⟨ascii "cur-state", .tcpControlBits, importParseTcpControlFlags⟩,
   ⟨ascii "proto", .protocol, importParseProtocol⟩,
   ⟨ascii "ether-type", .ethernetType, importParseEthernetType⟩,
   ⟨ascii "src-mac", .sourceMac, parseMacAddress⟩,
   ⟨ascii "dst-mac", .destinationMac, parseMacAddress⟩,
   ⟨ascii "src-ip", .sourceIp, parseIpAddress⟩,
   ⟨ascii "dst-ip", .destinationIp, parseIpAddress⟩,
   ⟨ascii "dur", .flowDuration, parseTimespanMicroseconds⟩,
   ⟨ascii "started-time", .flowStart, parseDatetimeIso8601⟩,
   ⟨ascii "ended-time", .flowEnd, parseDatetimeIso8601⟩,
   ⟨ascii "ended-time", .flowEnd, parseDatetimeIso8601⟩,
   ⟨ascii "latency", .latency, parseTimespanMicroseconds⟩]

/-- `nvipfix_import_get_item`: the first item of the name. -/
def importGetItem (name : CString) : Option ImportItem :=
  importItems.find? fun item => item.name == name

/-- Parsing a value into the record at the offset of the item; the result is not looked at. -/
def ImportItem.parseInto (item : ImportItem) (value : CString) (data : DataRecord) : DataRecord :=
  data.set item.field (item.parseValue value (data.get item.field)).2

/-- An entry found in the table is in the table, under the name it was looked up by. -/
theorem importGetItem_eq_some {name : CString} {item : ImportItem}
    (h : importGetItem name = some item) : item ∈ importItems ∧ item.name = name := by
  rw [importGetItem] at h
  exact ⟨List.mem_of_find?_eq_some h, by simpa using List.find?_some h⟩

/-- Entries of different names have different offsets. -/
theorem importItems_field_ne : ∀ i ∈ importItems, ∀ j ∈ importItems,
    i.name ≠ j.name → i.field ≠ j.field := by
  decide +kernel

/-- Entries of different offsets store independently of each other. -/
theorem ImportItem.parseInto_comm {i j : ImportItem} (h : i.field ≠ j.field) (v w : CString)
    (data : DataRecord) :
    j.parseInto w (i.parseInto v data) = i.parseInto v (j.parseInto w data) := by
  simp only [parseInto, DataRecord.get_set_of_ne _ h, DataRecord.get_set_of_ne _ h.symm]
  exact DataRecord.set_comm _ h _ _

/-! ### Numbers and durations -/

/-- A parser that looks neither at what its destination holds nor at inert characters behind its
text. -/
structure NumeralParser {α : Type} (parseValue : ParseValue α) : Prop where
  ignoresOld : ∀ s old old', parseValue s old = parseValue s old'
  ignoresInert : ∀ s rest old, (∀ c ∈ rest, isInert c) →
    parseValue (s ++ rest) old = parseValue s old

theorem numeralParser_parseUint {α : Type} (cast : UInt64 → α) :
    NumeralParser (parseUint cast) where
  ignoresOld _ _ _ := rfl
  ignoresInert s rest old hrest := by rw [parseUint, parseUint, strtoull_append_inert hrest]

theorem numeralParser_parseTimespanMicroseconds : NumeralParser parseTimespanMicroseconds where
  ignoresOld _ _ _ := rfl
  ignoresInert s rest old hrest := by
    simp only [parseTimespanMicroseconds, parseI64, parseSint, strtoll_append_inert hrest]

theorem numeralParser_importParseLayer2 : NumeralParser importParseLayer2 where
  ignoresOld _ _ _ := rfl
  ignoresInert s rest old hrest := by
    rw [importParseLayer2, importParseLayer2, parseU64,
      (numeralParser_parseUint _).ignoresInert s rest old hrest]

theorem numeralParser_importParseProtocol : NumeralParser importParseProtocol where
  ignoresOld _ _ _ := rfl
  ignoresInert s rest old hrest := by
    rw [importParseProtocol, importParseProtocol, parseOctet,
      (numeralParser_parseUint _).ignoresInert s rest 0 hrest]

theorem numeralParser_importParseEthernetType : NumeralParser importParseEthernetType where
  ignoresOld _ _ _ := rfl
  ignoresInert s rest old hrest := by
    rw [importParseEthernetType, importParseEthernetType, parseU16,
      (numeralParser_parseUint _).ignoresInert s rest 0 hrest]

/-- The fields that hold a number or a duration. -/
def DataField.isNumeral : DataField → Bool
  | tcpControlBits | flowStart | flowEnd => false
  | sourceMac | sourceIp | destinationMac | destinationIp => false
  | _ => true

/-- **Numbers and durations** are read the same way, whatever the field held and whatever
follows. -/
theorem numeralParser_of_isNumeral : ∀ entry ∈ importItems, entry.field.isNumeral →
    NumeralParser entry.parseValue := by
  have huint : ∀ (α : Type) (cast : UInt64 → α), NumeralParser (parseUint cast) :=
    fun α cast => numeralParser_parseUint cast
  intro entry hentry hnum
  simp only [importItems, List.mem_cons, List.not_mem_nil, or_false] at hentry
  rcases hentry with rfl | rfl | rfl | rfl | rfl | rfl | rfl | rfl | rfl | rfl | rfl | rfl | rfl |
    rfl | rfl | rfl | rfl | rfl | rfl | rfl | rfl | rfl
  all_goals first
    | exact huint _ _
    | exact numeralParser_importParseLayer2
    | exact numeralParser_importParseProtocol
    | exact numeralParser_importParseEthernetType
    | exact numeralParser_parseTimespanMicroseconds
    | exact absurd hnum (by decide)

/-! ### From the text to the records -/

/-- The characters trimmed from a token before it is compared with `data`. -/
def tokenTrimChars : CString := ascii "\x7b\x7d\r\n\t \":"

/-- The characters trimmed from a record. -/
def recordTrimChars : CString := ascii ",\x7d"

/-- The characters trimmed from the name and the value of an item. -/
def itemTrimChars : CString := ascii " \t\r\n\""

/-- `strchr` and the store through its result: the first `c` becomes `r`. -/
def replaceFirst (c r : UInt8) : CString → Option CString
  | [] => none
  | x :: xs => if x = c then some (r :: xs) else (replaceFirst c r xs).map (x :: ·)

/-- What an item adds to the record: nothing without a colon, without exactly two tokens around
it, or with a name that is not in the table. -/
def importItem (data : DataRecord) (item : CString) : DataRecord :=
  match replaceFirst 58 11 item with
  | none => data
  | some itemText =>
      match stringSplit itemText (ascii "\x0b") with
      | some [head, tail] =>
          match importGetItem (stringTrim head (some itemTrimChars)) with
          | some item => item.parseInto (stringTrim tail (some itemTrimChars)) data
          | none => data
      | _ => data

/-- A record token: trimmed, cut into items and, unless nothing is left, added to the result. -/
def importRecord (result : Option (List DataRecord)) (record : CString) :
    Option (List DataRecord) :=
  match stringSplit (stringTrim record (some recordTrimChars)) (ascii ",") with
  | none => result
  | some items => dataListAddCopy result (items.foldl importItem {})

/-- The token behind `data`. -/
def importRecords (result : Option (List DataRecord)) (token : CString) :
    Option (List DataRecord) :=
  match stringSplit token (ascii "\x7b") with
  | none => result
  | some records => records.foldl importRecord result

/-- The loop over the tokens between square brackets. -/
def importTokens : Option (List DataRecord) → List CString → Option (List DataRecord)
  | result, [] => result
  -- the last token is never followed by records, whether it is `data` or not
  | result, [_] => result
  | result, token :: next :: tokens =>
      if stringTrimCopy token (some tokenTrimChars) = ascii "data" then
        importTokens (importRecords result next) tokens
      else importTokens result (next :: tokens)

/-- `nvipfix_import` from the first `nvipfix_string_split` on, applied to the text in the buffer
(no allocation failing). -/
def importText (text : CString) : Option (List DataRecord) :=
  match stringSplit text (ascii "[]") with
  | none => none
  | some tokens => importTokens none tokens

/-! ### The read loop -/

/-- `SizeofFileBuffer` of `import.c`. -/
def sizeofFileBuffer : ℕ := 64 * 1024

/-- What one call of `fread` delivers, and whether `feof` holds after it. -/
structure Fread where
  data : List UInt8
  eof : Bool

/-- The stream and the heap: the result of each `fread`, and of each `realloc` the bytes that the
memory it adds happens to hold, or its failure. -/
structure ImportEnv where
  fread : ℕ → Fread
  realloc : ℕ → Option (List UInt8)
  length_fread_le : ∀ k, (fread k).data.length ≤ sizeofFileBuffer
  length_realloc : ∀ k bytes, realloc k = some bytes → bytes.length = sizeofFileBuffer

/-- Storing `data` into `buffer` at `index`. -/
def writeAt (buffer : List UInt8) (index : ℕ) (data : List UInt8) : List UInt8 :=
  buffer.take index ++ data ++ buffer.drop (index + data.length)

/-- The `do ... while (!feof)` loop from its `k`-th iteration on: `none` when `fuel` iterations
do not end it, and then the buffer or `NULL`. -/
def importReadLoop (env : ImportEnv) : ℕ → ℕ → ℕ → List UInt8 → Option (Option (List UInt8))
  | 0, _, _, _ => none
  | fuel + 1, k, index, buffer =>
      match env.realloc k with
      | none => some none
      | some bytes =>
          let buffer := writeAt (buffer ++ bytes) index (env.fread k).data
          let index := index + (sizeofFileBuffer - 1)
          if (env.fread k).eof then some (some buffer)
          else importReadLoop env fuel (k + 1) index buffer

/-- `nvipfix_import` of an open stream, with at most `fuel` iterations of the read loop.  There is
no result either when `strlen` finds no NUL in the buffer and reads what lies behind it. -/
def nvipfixImport (env : ImportEnv) (fuel : ℕ) : Option (Option (List DataRecord)) :=
  match importReadLoop env fuel 0 0 [] with
  | none => none
  | some none => some none
  | some (some buffer) => if 0 ∈ buffer then some (importText (cstringOf buffer)) else none

/-- **The importer is a function of the text in its buffer**: whatever follows the terminator. -/
theorem nvipfixImport_eq_importText {env : ImportEnv} {fuel : ℕ} {text : CString}
    {rest : List UInt8} (h : importReadLoop env fuel 0 0 [] = some (some (text ++ 0 :: rest)))
    (h0 : 0 ∉ text) : nvipfixImport env fuel = some (importText text) := by
  simp [nvipfixImport, h, cstringOf_append h0]

/-- A stream whose first `fread` reaches its end is in the buffer as it is. -/
theorem importReadLoop_of_eof {env : ImportEnv} {bytes : List UInt8} (fuel : ℕ)
    (hr : env.realloc 0 = some bytes) (he : (env.fread 0).eof = true) :
    importReadLoop env (fuel + 1) 0 0 [] =
      some (some ((env.fread 0).data ++ bytes.drop (env.fread 0).data.length)) := by
  simp [importReadLoop, hr, he, writeAt]

end NvIpfix
