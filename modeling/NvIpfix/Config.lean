/-
**Reading the configuration.**

`nvipfix_config_read` reads the configuration file line by line.  A line is cut at its first `#`
and split at blanks, and each token moves a small machine: the setting that was found last (`id`),
the block it is in (`parentId`), the place of the token in its statement (`tokenIndex`), and one
collector struct on the stack that serves all blocks.  At a closing brace the struct is put in the
list of collectors.

Strings are pointers: an address, new for each duplicate, with its content.  The struct starts with
whatever the stack holds.  What is done to it, and where values are stored, is logged.

Main definitions:

* `NvIpfix.CollectorInfo` — a collector;
* `NvIpfix.SettingId`, `NvIpfix.settings` — the table of settings;
* `NvIpfix.ConfigState`, `NvIpfix.configToken` — the machine;
* `NvIpfix.fgetsCalls`, `NvIpfix.configIsEmptyLine`, `NvIpfix.configLines` — from the file to the
  tokens;
* `NvIpfix.nvipfixConfigRead`, `NvIpfix.nvipfixConfigCleanup`.
-/

import NvIpfix.Parse

set_option relaxedAutoImplicit false
set_option autoImplicit false

namespace NvIpfix

/-! ### Collectors -/

/-- An address. -/
abbrev Address := ℕ

/-- `nvIPFIX_TRANSPORT`. -/
inductive Transport
  | undefined
  | tcp
  | udp
  | sctp
  deriving DecidableEq, Repr

/-- A string on the heap. -/
structure ConfigString where
  address : Address
  value : CString
  deriving DecidableEq, Repr

/-- `nvIPFIX_collector_info_t`; a string or context is a pointer or `NULL`. -/
structure CollectorInfo where
  name : Option ConfigString := none
  host : Option ConfigString := none
  port : Option ConfigString := none
  ipAddress : IpAddress := {}
  dscp : UInt8 := 0
  transport : Transport := .undefined
  ctx : Option Address := none
  deriving DecidableEq, Repr

/-- `NVIPFIX_CONFIG_DEFAULT_PORT_STR`. -/
def configDefaultPortStr : CString := ascii "4739"

/-- `NVIPFIX_CONFIG_DEFAULT_TRANSPORT`. -/
def configDefaultTransport : Transport := .udp

/-! ### The table of settings -/

/-- The identifiers of settings; `none` is 0, the parent of the settings outside of blocks. -/
inductive SettingId
  | none
  | switch
  | switchApiHost
  | switchApiLogin
  | switchApiPassword
  | exportInterval
  | collector
  | collectorIpAddress
  | collectorHostname
  | collectorTransport
  | collectorTransportPort
  | collectorDscp
  deriving DecidableEq, Repr

/-- Where values are stored: the variables of the file, and the fields of a collector. -/
inductive ConfigField
  | switchName
  | switchApiHost
  | switchApiLogin
  | switchApiPassword
  | exportInterval
  | name
  | ipAddress
  | host
  | transport
  | port
  | dscp
  deriving DecidableEq, Repr

/-- The parsers of settings: `nvipfix_parse_string`, `nvipfix_parse_timespan`,
`nvipfix_parse_ip_address`, `nvipfix_config_parse_transport` and `nvipfix_parse_octet`. -/
inductive ConfigParser
  | string
  | timespan
  | ipAddress
  | transport
  | octet
  deriving DecidableEq, Repr

/-- `nvIPFIX_setting_t`: `value` is a variable or `NULL`, `offset` is a field of a collector. -/
structure Setting where
  name : CString
  id : SettingId
  parentId : SettingId
  value : Option ConfigField
  offset : ConfigField
  parseValue : ConfigParser
  deriving DecidableEq, Repr

/-- `NVIPFIX_CONFIG_SETTING`, for a variable; the offset is 0, that of the name. -/
def configSetting (name : CString) (id : SettingId) (value : ConfigField)
    (parseValue : ConfigParser) : Setting :=
  { name, id, parentId := .none, value := some value, offset := .name, parseValue }

/-- `NVIPFIX_CONFIG_SETTING_COLLECTOR`. -/
def configSettingCollector (name : CString) (id parentId : SettingId) (field : ConfigField)
    (parseValue : ConfigParser) : Setting :=
  { name, id, parentId, value := none, offset := field, parseValue }

/-- `Settings`. -/
def settings : List Setting :=
  [configSetting (ascii "switch") .switch .switchName .string,
   configSetting (ascii "switch-nvapi-host") .switchApiHost .switchApiHost .string,
   configSetting (ascii "switch-nvapi-login") .switchApiLogin .switchApiLogin .string,
   configSetting (ascii "switch-nvapi-password") .switchApiPassword .switchApiPassword .string,
   configSetting (ascii "export-interval") .exportInterval .exportInterval .timespan,
   configSettingCollector (ascii "collector") .collector .none .name .string,
   configSettingCollector (ascii "collector-ip-address") .collectorIpAddress .collector .ipAddress
     .ipAddress,
   configSettingCollector (ascii "collector-hostname") .collectorHostname .collector .host .string,
   configSettingCollector (ascii "transport") .collectorTransport .collector .transport .transport,
   configSettingCollector (ascii "transport-port") .collectorTransportPort .collector .port .string,
   configSettingCollector (ascii "dscp") .collectorDscp .collector .dscp .octet]

/-- `nvipfix_config_get_setting`. -/
def configGetSetting (name : CString) (parentId : SettingId) : Option Setting :=
  settings.find? fun setting => setting.parentId == parentId && setting.name == name

/-! ### Storing values -/

/-- What is done to the collector struct and with values. -/
inductive ConfigEvent
  /-- `memset` of the struct. -/
  | zeroed
  /-- A call of a parser with its destination. -/
  | parse (parser : ConfigParser) (destination : Option ConfigField)
  /-- A call of `nvipfix_config_add_collector`. -/
  | addCollector
  /-- The struct has been put in the list. -/
  | listed
  deriving DecidableEq, Repr

/-- The locals of `nvipfix_config_read` that outlive a line, the variables of the file, and the log;
the latest collector comes first. -/
structure ConfigState where
  id : SettingId := .none
  parentId : SettingId := .none
  collector : CollectorInfo := {}
  switchName : Option ConfigString := none
  switchApiHost : Option ConfigString := none
  switchApiLogin : Option ConfigString := none
  switchApiPassword : Option ConfigString := none
  exportInterval : Timespan := timespanSetSeconds 60
  collectors : List CollectorInfo := []
  nextAddress : Address := 0
  events : List ConfigEvent := []
  /-- A value has been stored in a place of another type. -/
  corrupted : Bool := false

/-- `nvipfix_config_parse_transport`. -/
def configParseTransport : ParseValue Transport := fun s transport =>
  if s = ascii "udp" then (true, .udp)
  else if s = ascii "tcp" then (true, .tcp)
  else if s = ascii "sctp" then (true, .sctp)
  else (false, transport)

namespace ConfigState

variable (st : ConfigState)

/-- Logging what is done. -/
def log (e : ConfigEvent) : ConfigState := { st with events := st.events ++ [e] }

/-- `nvipfix_string_duplicate` (no allocation failing). -/
def stringDuplicate (s : CString) : ConfigString × ConfigState :=
  ({ address := st.nextAddress, value := s }, { st with nextAddress := st.nextAddress + 1 })

/-- Storing a string. -/
def storeString (field : ConfigField) (p : ConfigString) : ConfigState :=
  match field with
  | .switchName => { st with switchName := some p }
  | .switchApiHost => { st with switchApiHost := some p }
  | .switchApiLogin => { st with switchApiLogin := some p }
  | .switchApiPassword => { st with switchApiPassword := some p }
  | .name => { st with collector := { st.collector with name := some p } }
  | .host => { st with collector := { st.collector with host := some p } }
  | .port => { st with collector := { st.collector with port := some p } }
  | _ => { st with corrupted := true }

/-- A call of a parser, which does nothing when the destination is `NULL`. -/
def parseValue (parser : ConfigParser) (destination : Option ConfigField) (s : CString) :
    ConfigState :=
  let st := st.log (.parse parser destination)
  match destination, parser with
  | none, _ => st
  | some field, .string =>
      let (p, st) := st.stringDuplicate s
      st.storeString field p
  | some .exportInterval, .timespan =>
      { st with exportInterval := (parseTimespan s st.exportInterval).2 }
  | some .ipAddress, .ipAddress =>
      { st with collector := { st.collector with
          ipAddress := (parseIpAddress s st.collector.ipAddress).2 } }
  | some .transport, .transport =>
      { st with collector := { st.collector with
          transport := (configParseTransport s st.collector.transport).2 } }
  | some .dscp, .octet =>
      { st with collector := { st.collector with dscp := (parseOctet s st.collector.dscp).2 } }
  | some _, _ => { st with corrupted := true }

/-- The port a collector is listed with. -/
def defaultPort : ConfigState :=
  match st.collector.port with
  | some _ => st
  | none =>
      let (p, st) := st.stringDuplicate configDefaultPortStr
      { st with collector := { st.collector with port := some p } }

/-- The transport a collector is listed with. -/
def defaultTransport : ConfigState :=
  if st.collector.transport = .undefined then
    { st with collector := { st.collector with transport := configDefaultTransport } }
  else st

/-- `nvipfix_config_add_collector` (no allocation failing), called with the struct. -/
def addCollector : ConfigState :=
  let st := st.log .addCollector
  if st.collector.host = none && !st.collector.ipAddress.hasValue then st
  else
    let st := st.defaultPort.defaultTransport
    { st.log .listed with collectors := st.collector :: st.collectors }

end ConfigState

/-! ### The machine -/

/-- The locals of one line, and the rest. -/
structure ConfigLine where
  tokenIndex : ℕ := 0
  setting : Option Setting := none
  config : ConfigState

/-- A token at the place of a setting. -/
def configSettingToken (line : ConfigLine) (token : CString) : ConfigLine :=
  let config := line.config
  match configGetSetting token config.parentId with
  | some setting =>
      let config := { config with id := setting.id }
      if setting.id = .collector then
        let config := config.log .zeroed
        { line with
          setting := some setting
          config := { config with collector := {}, parentId := setting.id } }
      else { line with setting := some setting, config := config }
  | none => { line with setting := none }

/-- A token at the place of a value. -/
def configValueToken (line : ConfigLine) (token : CString) : ConfigLine :=
  let config := line.config
  match line.setting with
  | some setting =>
      if config.parentId = .collector then
        { line with config := config.parseValue setting.parseValue (some setting.offset) token }
      else if config.parentId = .none then
        { line with config := config.parseValue setting.parseValue setting.value token }
      else line
  | none => line

/-- The body of the loop over the tokens of a line. -/
def configToken (line : ConfigLine) (token : CString) : ConfigLine :=
  let line := { line with tokenIndex := line.tokenIndex + 1 }
  let config := line.config
  if token.head? = some 123 then
    { line with tokenIndex := 0, config := { config with parentId := config.id } }
  else if token.head? = some 125 then
    let config := if config.parentId = .collector then config.addCollector else config
    { line with tokenIndex := 0, config := { config with parentId := .none } }
  else if line.tokenIndex = 1 then configSettingToken line token
  else if line.tokenIndex = 2 then configValueToken line token
  else line

/-- The tokens of one line. -/
def configTokens (config : ConfigState) (tokens : List CString) : ConfigState :=
  (tokens.foldl configToken { config }).config

/-! ### From the file to tokens -/

/-- What the calls of `fgets` return for the rest of a file, with the part of the buffer that the
call in progress has filled: at most `size - 1` bytes, up to a line feed. -/
def fgetsCalls (size : ℕ) (buffer : List UInt8) : List UInt8 → List (List UInt8)
  | [] => if buffer.isEmpty then [] else [buffer]
  | c :: text =>
      let buffer := buffer ++ [c]
      if c = 10 || buffer.length + 1 == size then buffer :: fgetsCalls size [] text
      else fgetsCalls size buffer text

/-- `nvipfix_config_is_empty_line`, with the result so far: the result and the line, cut at the
first `#`. -/
def configIsEmptyLine (result : Bool) : CString → Bool × CString
  | [] => (result, [])
  | c :: s =>
      if c ∈ ascii " \t\n\r" then
        let (result, s) := configIsEmptyLine result s
        (result, c :: s)
      else if c = 35 then (result, [])
      else
        let (result, s) := configIsEmptyLine false s
        (result, c :: s)

/-- The loop over the lines. -/
def configLines (config : ConfigState) : List (List UInt8) → ConfigState
  | [] => config
  | buffer :: buffers =>
      let line := cstringOf buffer
      if 10 ∉ line then config
      else
        let (isEmpty, line) := configIsEmptyLine true line
        if isEmpty then configLines config buffers
        else
          match stringSplit line (ascii " \t\n\r") with
          | none => config
          | some tokens => configLines (configTokens config tokens) buffers

/-- `SizeofFileBuffer`. -/
def sizeofConfigBuffer : ℕ := 4096

/-- `nvipfix_config_read`, with what the stack holds in place of the struct, of the content of the
file if it can be opened. -/
def nvipfixConfigRead (stack : CollectorInfo) (file : Option (List UInt8)) : ConfigState :=
  match file with
  | none => { collector := stack }
  | some text => configLines { collector := stack } (fgetsCalls sizeofConfigBuffer [] text)

/-- The addresses of the strings of a collector. -/
def CollectorInfo.addresses (collector : CollectorInfo) : List Address :=
  [collector.name, collector.host, collector.port].filterMap (·.map ConfigString.address)

/-- The strings that `nvipfix_config_cleanup` frees, in order. -/
def nvipfixConfigCleanup (st : ConfigState) : List Address :=
  [st.switchName, st.switchApiHost, st.switchApiLogin, st.switchApiPassword].filterMap
      (·.map ConfigString.address)
    ++ st.collectors.flatMap CollectorInfo.addresses

end NvIpfix
