/-
**The parsers in memory.**

The parsers of addresses and of dates split their text and release the tokens before they return, on
each of their paths; a date has up to three lists of tokens at a time.  The integer parsers allocate
nothing.  Each parser is here a function of memory, and comes with the proof that it restores memory
whatever fails, and that without failures it computes what the parser without memory does.

Main definitions:

* `NvIpfix.ParseValueIn` — a parser in memory;
* `NvIpfix.parseIpAddressIn`, `NvIpfix.parseMacAddressIn`, `NvIpfix.parseDatetimeIso8601In`,
  `NvIpfix.parseTimespanIn` — the parsers that split;
* `NvIpfix.ImportItemIn`, `NvIpfix.importItemsIn` — the table of the importer, with a proof in each
  item;
* `NvIpfix.importGetItemIn`, `NvIpfix.ImportItemIn.parseIntoIn`.

Main results:

* `NvIpfix.parseDatetimeIso8601In_computes` and its siblings — **each parser restores memory**;
* `NvIpfix.ImportItemIn.parseIntoIn_computes` — the same of a value that is parsed into a record.
-/

import NvIpfix.Import
import NvIpfix.StringOwnership

set_option relaxedAutoImplicit false
set_option autoImplicit false

namespace NvIpfix

/-- A parser in memory. -/
abbrev ParseValueIn (α : Type) := CString → α → StringHeap → (Bool × α) × StringHeap

/-! ### Parsers that split -/

/-- A parser looks at the tokens only if they are as many as it expects. -/
def whenCount {β : Type} (count : ℕ) (absent other : β)
    (use : List CString → StringHeap → β × StringHeap) (tokens : Option (ℕ × List CString))
    (h : StringHeap) : β × StringHeap :=
  match tokens with
  | none => (absent, h)
  | some (n, tokens) => if n = count then use tokens h else (other, h)

section Parsers

variable (mallocs : ℕ → Bool)

/-- `nvipfix_parse_ip_address`, with the outcome of each allocation. -/
def parseIpAddressIn : ParseValueIn IpAddress := fun s address =>
  withTokens mallocs s (ascii ".") <|
    whenCount addressOctetsCountIpv4 (false, address) (false, { address with hasValue := false })
      fun tokens h =>
        let result := tokens.length == addressOctetsCountIpv4
        ((result, { value := ipAddressLoop 0 0 tokens, hasValue := result }), h)

/-- `nvipfix_parse_mac_address`. -/
def parseMacAddressIn : ParseValueIn MacAddress := fun s address =>
  withTokens mallocs s (ascii ":") <|
    whenCount addressOctetsCountMac (false, address) (false, { address with hasValue := false })
      fun tokens h =>
        let result := tokens.length == addressOctetsCountMac
        ((result, { octets := macAddressLoop 0 address.octets tokens, hasValue := result }), h)

/-- The date of three tokens: of the head, of the item behind it and of the tail. -/
def dateOfTokens (datetime : Datetime) (tokens : List CString) : Datetime :=
  { datetime with
    year := datetimeField (tokens.headD []), month := datetimeField (tokens.getD 1 []),
    day := datetimeField (tokens.getLastD []) }

/-- The time of three tokens. -/
def timeOfTokens (datetime : Datetime) (tokens : List CString) : Datetime :=
  { datetime with
    hours := datetimeField (tokens.headD []), minutes := datetimeField (tokens.getD 1 []),
    seconds := datetimeField (tokens.getLastD []), milliseconds := 0 }

/-- What every path through the parser of dates ends with. -/
def datetimeResult (result : Bool × Datetime) : Bool × Datetime :=
  (result.1, { result.2 with hasValue := result.1, tzOffset := timespanSetSeconds 0 })

/-- `nvipfix_parse_datetime_iso8601`: the tokens of the date are live while the time is split, and
both halves are live all the time. -/
def parseDatetimeIso8601In : ParseValueIn Datetime := fun s datetime h =>
  let (result, h) := withTokens mallocs s (ascii "T")
    (whenCount 2 (false, datetime) (false, datetime) fun tokens =>
      withTokens mallocs (tokens.headD []) (ascii "-") <|
        whenCount 3 (false, datetime) (false, datetime) fun dateTokens =>
          let datetime := dateOfTokens datetime dateTokens
          withTokens mallocs (tokens.getLastD []) (ascii ":") <|
            whenCount 3 (false, datetime) (false, datetime) fun timeTokens h =>
              ((true, timeOfTokens datetime timeTokens), h)) h
  (datetimeResult result, h)

/-- `nvipfix_parse_timespan`. -/
def parseTimespanIn : ParseValueIn Timespan := fun s timespan =>
  withTokens mallocs s (ascii ":") <|
    whenCount 3 (false, timespan) (false, timespan) fun tokens h =>
      let seconds := CNumeral.atoi (tokens.headD []) * 60 * 60 +
        CNumeral.atoi (tokens.getD 1 []) * 60
      ((false, timespanSetSeconds (seconds + CNumeral.atoi (tokens.getD 2 []))), h)

end Parsers

/-! ### Each parser restores memory -/

section Computes

variable {α β : Type} {mallocs : ℕ → Bool}

/-- A computation whose result is worked on without memory. -/
theorem Computes.map {f : StringHeap → α × StringHeap} {value : α}
    (hf : Computes mallocs f value) (g : α → β) :
    Computes mallocs (fun h => (g (f h).1, (f h).2)) (g value) where
  restored := hf.restored
  result hall h hfresh := congrArg g (hf.result hall h hfresh)

/-- What a parser makes of tokens, without memory. -/
def valueOfCount (count : ℕ) (absent other : β) (value : List CString → β) :
    Option (List CString) → β
  | none => absent
  | some tokens => if tokens.length = count then value tokens else other

/-- Splitting a text, and a look at the tokens if they are as many as expected. -/
theorem withTokens_whenCount (s delimiters : CString) {count : ℕ} {absent other : β}
    {use : List CString → StringHeap → β × StringHeap} (value : List CString → β)
    (huse : ∀ tokens : List CString, tokens.length = count →
      Computes mallocs (use tokens) (value tokens)) :
    Computes mallocs (withTokens mallocs s delimiters (whenCount count absent other use))
      (valueOfCount count absent other value (stringSplit s delimiters)) := by
  refine withTokens_computes s delimiters _ fun tokens => ?_
  cases tokens with
  | none => exact .pure absent
  | some tokens =>
      simp only [Option.map_some, valueOfCount]
      by_cases hcount : tokens.length = count
      · have hwhen : whenCount count absent other use (some (tokens.length, tokens)) = use tokens :=
          funext fun h => if_pos hcount
        rw [hwhen, if_pos hcount]
        exact huse tokens hcount
      · have hwhen : whenCount count absent other use (some (tokens.length, tokens)) =
            fun h => (other, h) := funext fun h => if_neg hcount
        rw [hwhen, if_neg hcount]
        exact .pure other

/-- **An IP address restores memory.** -/
theorem parseIpAddressIn_computes (s : CString) (address : IpAddress) :
    Computes mallocs (parseIpAddressIn mallocs s address) (parseIpAddress s address) := by
  have hvalue : parseIpAddress s address = valueOfCount addressOctetsCountIpv4 (false, address)
      (false, { address with hasValue := false })
      (fun tokens => (true, { value := ipAddressLoop 0 0 tokens, hasValue := true }))
      (stringSplit s (ascii ".")) := by
    rw [parseIpAddress]
    cases stringSplit s (ascii ".") <;> rfl
  rw [hvalue]
  refine withTokens_whenCount s (ascii ".") _ fun tokens hcount => ?_
  simp only [hcount, beq_self_eq_true]
  exact .pure _

/-- **A MAC address restores memory.** -/
theorem parseMacAddressIn_computes (s : CString) (address : MacAddress) :
    Computes mallocs (parseMacAddressIn mallocs s address) (parseMacAddress s address) := by
  have hvalue : parseMacAddress s address = valueOfCount addressOctetsCountMac (false, address)
      (false, { address with hasValue := false })
      (fun tokens => (true, { octets := macAddressLoop 0 address.octets tokens, hasValue := true }))
      (stringSplit s (ascii ":")) := by
    rw [parseMacAddress]
    cases stringSplit s (ascii ":") <;> rfl
  rw [hvalue]
  refine withTokens_whenCount s (ascii ":") _ fun tokens hcount => ?_
  simp only [hcount, beq_self_eq_true]
  exact .pure _

/-- The three passes over a date, without memory. -/
theorem parseDatetimeIso8601_passes (s : CString) (datetime : Datetime) :
    parseDatetimeIso8601 s datetime = datetimeResult
      (valueOfCount 2 (false, datetime) (false, datetime)
        (fun tokens => valueOfCount 3 (false, datetime) (false, datetime)
          (fun dateTokens => valueOfCount 3 (false, dateOfTokens datetime dateTokens)
            (false, dateOfTokens datetime dateTokens)
            (fun timeTokens => (true, timeOfTokens (dateOfTokens datetime dateTokens) timeTokens))
            (stringSplit (tokens.getLastD []) (ascii ":")))
          (stringSplit (tokens.headD []) (ascii "-")))
        (stringSplit s (ascii "T"))) := by
  rw [parseDatetimeIso8601]
  rcases stringSplit s (ascii "T") with _ | (_ | ⟨date, _ | ⟨time, _ | ⟨token, tokens⟩⟩⟩)
  case some.cons.cons.nil =>
    simp only [valueOfCount, List.length_cons, List.length_nil, if_true, List.headD_cons,
      List.getLastD_cons, List.getLastD_nil]
    rcases stringSplit date (ascii "-") with _ | (_ | ⟨year, _ | ⟨month, _ | ⟨day, _ | _⟩⟩⟩)
    case some.cons.cons.cons.nil =>
      rcases stringSplit time (ascii ":") with
        _ | (_ | ⟨hours, _ | ⟨minutes, _ | ⟨seconds, _ | _⟩⟩⟩)
      all_goals simp [datetimeResult, dateOfTokens, timeOfTokens]
    all_goals simp [datetimeResult]
  all_goals simp [valueOfCount, datetimeResult]

/-- **A date restores memory.** -/
theorem parseDatetimeIso8601In_computes (s : CString) (datetime : Datetime) :
    Computes mallocs (parseDatetimeIso8601In mallocs s datetime)
      (parseDatetimeIso8601 s datetime) := by
  rw [parseDatetimeIso8601_passes]
  refine (withTokens_whenCount s (ascii "T") _ fun tokens _ => ?_).map datetimeResult
  refine withTokens_whenCount (tokens.headD []) (ascii "-") _ fun dateTokens _ => ?_
  exact withTokens_whenCount (tokens.getLastD []) (ascii ":") _ fun timeTokens _ => .pure _

/-- **A timespan restores memory.** -/
theorem parseTimespanIn_computes (s : CString) (timespan : Timespan) :
    Computes mallocs (parseTimespanIn mallocs s timespan) (parseTimespan s timespan) := by
  have hvalue : parseTimespan s timespan = valueOfCount 3 (false, timespan) (false, timespan)
      (fun tokens => (false, timespanSetSeconds (CNumeral.atoi (tokens.headD []) * 60 * 60 +
        CNumeral.atoi (tokens.getD 1 []) * 60 + CNumeral.atoi (tokens.getD 2 []))))
      (stringSplit s (ascii ":")) := by
    rw [parseTimespan]
    rcases stringSplit s (ascii ":") with
      _ | (_ | ⟨hours, _ | ⟨minutes, _ | ⟨seconds, _ | _⟩⟩⟩)
    all_goals simp [valueOfCount]
  rw [hvalue]
  exact withTokens_whenCount s (ascii ":") _ fun tokens _ => .pure _

end Computes

/-! ### The table -/

/-- A parser that does not use memory. -/
def ParseValue.inMemory {α : Type} (parseValue : ParseValue α) : ParseValueIn α :=
  fun s value h => (parseValue s value, h)

/-- An item of the table, with its parser in memory. -/
structure ImportItemIn extends ImportItem where
  parseValueIn : (ℕ → Bool) → ParseValueIn field.Value
  computes : ∀ mallocs s value,
    Computes mallocs (parseValueIn mallocs s value) (parseValue s value)

/-- An item whose parser does not use memory. -/
def ImportItemIn.ofPure (name : CString) (field : DataField) (parseValue : ParseValue field.Value) :
    ImportItemIn where
  name := name
  field := field
  parseValue := parseValue
  parseValueIn _ := parseValue.inMemory
  computes _ _ _ := .pure _

/-- `Items`. -/
def importItemsIn : List ImportItemIn :=
  [.ofPure (ascii "vlan") .vlanId parseU16,
   .ofPure (ascii "src-switch-port") .ingressInterface importParseIngress,
   .ofPure (ascii "dst-switch-port") .egressInterface importParseEgress,
   .ofPure (ascii "dscp") .dscp parseByte,
   .ofPure (ascii "src-port") .sourcePort parseU16,
   .ofPure (ascii "dst-port") .destinationPort parseU16,
   .ofPure (ascii "ibytes") .responderOctets parseU64,
   .ofPure (ascii "obytes") .initiatorOctets parseU64,
   .ofPure (ascii "total-bytes") .transportOctetDeltaCount parseU64,
   .ofPure (ascii "vxlan") .layer2SegmentId importParseLayer2,
   .ofPure (ascii "cur-state") .tcpControlBits importParseTcpControlFlags,
   .ofPure (ascii "proto") .protocol importParseProtocol,
   .ofPure (ascii "ether-type") .ethernetType importParseEthernetType,
   ⟨⟨ascii "src-mac", .sourceMac, parseMacAddress⟩, parseMacAddressIn,
     fun _ => parseMacAddressIn_computes⟩,
   ⟨⟨ascii "dst-mac", .destinationMac, parseMacAddress⟩, parseMacAddressIn,
     fun _ => parseMacAddressIn_computes⟩,
   ⟨⟨ascii "src-ip", .sourceIp, parseIpAddress⟩, parseIpAddressIn,
     fun _ => parseIpAddressIn_computes⟩,
   ⟨⟨ascii "dst-ip", .destinationIp, parseIpAddress⟩, parseIpAddressIn,
     fun _ => parseIpAddressIn_computes⟩,
   .ofPure (ascii "dur") .flowDuration parseTimespanMicroseconds,
   ⟨⟨ascii "started-time", .flowStart, parseDatetimeIso8601⟩, parseDatetimeIso8601In,
     fun _ => parseDatetimeIso8601In_computes⟩,
   ⟨⟨ascii "ended-time", .flowEnd, parseDatetimeIso8601⟩, parseDatetimeIso8601In,
     fun _ => parseDatetimeIso8601In_computes⟩,
   ⟨⟨ascii "ended-time", .flowEnd, parseDatetimeIso8601⟩, parseDatetimeIso8601In,
     fun _ => parseDatetimeIso8601In_computes⟩,
   .ofPure (ascii "latency") .latency parseTimespanMicroseconds]

/-- The items are those of the table without memory. -/
theorem importItemsIn_map : importItemsIn.map ImportItemIn.toImportItem = importItems := rfl

/-- `nvipfix_import_get_item`. -/
def importGetItemIn (name : CString) : Option ImportItemIn :=
  importItemsIn.find? fun item => item.name == name

theorem importGetItemIn_map (name : CString) :
    (importGetItemIn name).map ImportItemIn.toImportItem = importGetItem name := by
  rw [importGetItem, ← importItemsIn_map, List.find?_map]
  rfl

/-- Parsing a value into the record at the offset of the item; the result is not looked at. -/
def ImportItemIn.parseIntoIn (item : ImportItemIn) (mallocs : ℕ → Bool) (value : CString)
    (data : DataRecord) (h : StringHeap) : DataRecord × StringHeap :=
  let ((_, value), h) := item.parseValueIn mallocs value (data.get item.field) h
  (data.set item.field value, h)

/-- **A value that is parsed into a record restores memory**, whatever the item. -/
theorem ImportItemIn.parseIntoIn_computes {mallocs : ℕ → Bool} (item : ImportItemIn)
    (value : CString) (data : DataRecord) :
    Computes mallocs (item.parseIntoIn mallocs value data) (item.parseInto value data) :=
  (item.computes mallocs value (data.get item.field)).map fun result =>
    data.set item.field result.2

end NvIpfix
