/-
**What a configuration does to its values.**

The control of the machine that reads a configuration (the place of a token in its statement, the
setting and the block it is in) does not look at the values.  So the tokens of a file determine,
whatever the values are, a list of actions: a struct is zeroed, a value is given to the parser of a
field, a block is closed.  The values at the end of the file are what these actions make of the
values at the beginning.

Main definitions:

* `NvIpfix.ConfigAction` — the actions;
* `NvIpfix.ConfigControl`, `NvIpfix.configActions` — the control, and the actions of a file;
* `NvIpfix.ConfigData`, `NvIpfix.ConfigData.run` — the values, and the actions on them.

Main results:

* `NvIpfix.configToken_data` — one token;
* `NvIpfix.nvipfixConfigRead_data` — **reading a file is running its actions**.
-/

import NvIpfix.ConfigRoundTrip
import NvIpfix.ConfigSafety

set_option relaxedAutoImplicit false
set_option autoImplicit false

namespace NvIpfix

/-! ### Values -/

/-- What a token does to the values. -/
inductive ConfigAction
  /-- The struct is zeroed, at a `collector` token. -/
  | zero
  /-- A value is given to the parser of a field. -/
  | store (field : ConfigField) (value : CString)
  /-- The struct is put in the list, if it has a host or an address. -/
  | close
  deriving DecidableEq, Repr

/-- The contents of the variables and of the list, and the content of the struct. -/
@[ext]
structure ConfigData where
  view : ConfigView := {}
  collector : CollectorView := {}

/-- The values of a state. -/
def ConfigState.data (st : ConfigState) : ConfigData where
  view := st.view
  collector := st.collector.view

namespace ConfigData

variable (d : ConfigData)

/-- Giving a value to a variable. -/
def setValue (v : ConfigVariable) (value : CString) : ConfigData :=
  { d with view := { d.view with values := Function.update d.view.values v (some value) } }

/-- Giving a value to the parser of a field. -/
def store (value : CString) : ConfigField → ConfigData
  | .switchName => d.setValue .switchName value
  | .switchApiHost => d.setValue .switchApiHost value
  | .switchApiLogin => d.setValue .switchApiLogin value
  | .switchApiPassword => d.setValue .switchApiPassword value
  | .exportInterval =>
      { d with view := { d.view with
          exportInterval := (parseTimespan value d.view.exportInterval).2 } }
  | .name => { d with collector := { d.collector with name := some value } }
  | .host => { d with collector := { d.collector with host := some value } }
  | .port => { d with collector := { d.collector with port := some value } }
  | .ipAddress => { d with collector := { d.collector with
      ipAddress := (parseIpAddress value d.collector.ipAddress).2 } }
  | .transport => { d with collector := { d.collector with
      transport := (configParseTransport value d.collector.transport).2 } }
  | .dscp => { d with collector := { d.collector with
      dscp := (parseOctet value d.collector.dscp).2 } }

/-- Putting the struct in the list, if it has a host or an address. -/
def close : ConfigData :=
  if d.collector.host ≠ none ∨ d.collector.ipAddress.hasValue then
    { view := { d.view with collectors := d.collector.withDefaults :: d.view.collectors }
      collector := d.collector.withDefaults }
  else d

/-- An action. -/
def act : ConfigAction → ConfigData
  | .zero => { d with collector := {} }
  | .store field value => d.store value field
  | .close => d.close

/-- Actions in order. -/
def run (actions : List ConfigAction) : ConfigData := actions.foldl act d

theorem run_append (actions actions' : List ConfigAction) :
    d.run (actions ++ actions') = (d.run actions).run actions' := List.foldl_append

theorem run_cons (action : ConfigAction) (actions : List ConfigAction) :
    d.run (action :: actions) = (d.act action).run actions := rfl

end ConfigData

/-! ### Control -/

/-- The part of the machine that does not look at values. -/
structure ConfigControl where
  tokenIndex : ℕ := 0
  setting : Option Setting := none
  id : SettingId := .none
  parentId : SettingId := .none
  deriving DecidableEq, Repr

/-- The control of a line. -/
def ConfigLine.control (line : ConfigLine) : ConfigControl where
  tokenIndex := line.tokenIndex
  setting := line.setting
  id := line.config.id
  parentId := line.config.parentId

namespace ConfigControl

variable (c : ConfigControl)

/-- The field that a value is for. -/
def destination : Option ConfigField :=
  c.setting.bind fun setting =>
    if c.parentId = .collector then some setting.offset
    else if c.parentId = .none then setting.value
    else none

/-- The control behind a token at the place of a setting. -/
def find (token : CString) : ConfigControl :=
  match configGetSetting token c.parentId with
  | some setting =>
      { c with
        tokenIndex := 1
        setting := some setting
        id := setting.id
        parentId := if setting.id = .collector then .collector else c.parentId }
  | none => { c with tokenIndex := 1, setting := none }

/-- The control behind a token. -/
def next (token : CString) : ConfigControl :=
  if token.head? = some 123 then { c with tokenIndex := 0, parentId := c.id }
  else if token.head? = some 125 then { c with tokenIndex := 0, parentId := .none }
  else if c.tokenIndex = 0 then c.find token
  else { c with tokenIndex := c.tokenIndex + 1 }

/-- What a token does to the values. -/
def action (token : CString) : Option ConfigAction :=
  if token.head? = some 123 then none
  else if token.head? = some 125 then if c.parentId = .collector then some .close else none
  else if c.tokenIndex = 0 then if (c.find token).setting.any (·.id = .collector) then some .zero
    else none
  else if c.tokenIndex = 1 then c.destination.map fun field => .store field token
  else none

/-- The control at the beginning of a line. -/
def newLine : ConfigControl := { id := c.id, parentId := c.parentId }

/-- The actions of tokens. -/
def actions : ConfigControl → List CString → List ConfigAction
  | _, [] => []
  | c, token :: tokens => (c.action token).toList ++ actions (c.next token) tokens

/-- The actions of the lines of a file. -/
def linesActions : ConfigControl → List (List UInt8) → List ConfigAction
  | _, [] => []
  | c, buffer :: buffers =>
      let line := cstringOf buffer
      if 10 ∉ line then []
      else
        let (isEmpty, line) := configIsEmptyLine true line
        if isEmpty then linesActions c buffers
        else
          match stringSplit line (ascii " \t\n\r") with
          | none => []
          | some tokens =>
              c.newLine.actions tokens ++ linesActions (tokens.foldl next c.newLine) buffers

end ConfigControl

/-- The actions of a file. -/
def configActions (text : List UInt8) : List ConfigAction :=
  ConfigControl.linesActions {} (fgetsCalls sizeofConfigBuffer [] text)

/-! ### Tokens -/

section Tokens

variable {line : ConfigLine} {st : ConfigState}

theorem addCollector_id (st : ConfigState) : st.addCollector.id = st.id := by
  simp only [ConfigState.addCollector]
  split
  · rfl
  · exact (defaults_frame (st.log .addCollector)).1

/-- The control of the machine is the control. -/
theorem configToken_control (line : ConfigLine) (token : CString) :
    (configToken line token).control = line.control.next token := by
  simp only [configToken, ConfigControl.next, ConfigLine.control]
  split
  · rfl
  · split
    · split <;> simp [addCollector_id]
    · by_cases hindex : line.tokenIndex = 0
      · simp only [hindex, Nat.zero_add, ↓reduceIte, configSettingToken, ConfigControl.find]
        cases configGetSetting token line.config.parentId with
        | none => rfl
        | some setting => by_cases hid : setting.id = .collector <;> simp [hid, ConfigState.log]
      · have hnext : ¬ line.tokenIndex + 1 = 1 := by omega
        simp only [hindex, hnext, ↓reduceIte, configValueToken]
        split
        · cases line.setting with
          | none => rfl
          | some setting =>
              simp only
              split
              · simp [parseValue_ids]
              · split <;> simp [parseValue_ids]
        · rfl

/-- A collector setting stores in the field at its offset. -/
theorem data_parseValue_offset {setting : Setting} (hmem : setting ∈ settings)
    (hparent : setting.id = .collector ∨ setting.parentId = .collector) (value : CString) :
    (st.parseValue setting.parseValue (some setting.offset) value).data =
      st.data.store value setting.offset := by
  simp only [settings, configSetting, configSettingCollector, List.mem_cons, List.not_mem_nil,
    or_false] at hmem
  rcases hmem with rfl | rfl | rfl | rfl | rfl | rfl | rfl | rfl | rfl | rfl | rfl
  iterate 5 simp at hparent
  all_goals rfl

theorem data_storeVariable (v : ConfigVariable) (value : CString) :
    (st.parseValue .string (some v.field) value).data = st.data.setValue v value := by
  have hview := view_parseValue_variable st v value
  have hcollector : (st.parseValue .string (some v.field) value).collector = st.collector := by
    cases v <;> rfl
  rw [ConfigState.data, hview, hcollector]
  rfl

/-- A setting outside of blocks stores in its variable. -/
theorem data_parseValue_value {setting : Setting} (hmem : setting ∈ settings)
    (hid : setting.id ≠ .collector) (hparent : setting.parentId = .none) (value : CString) :
    (st.parseValue setting.parseValue setting.value value).data =
      st.data.run (setting.value.map fun field => ConfigAction.store field value).toList := by
  simp only [settings, configSetting, configSettingCollector, List.mem_cons, List.not_mem_nil,
    or_false] at hmem
  rcases hmem with rfl | rfl | rfl | rfl | rfl | rfl | rfl | rfl | rfl | rfl | rfl
  · exact data_storeVariable .switchName value
  · exact data_storeVariable .switchApiHost value
  · exact data_storeVariable .switchApiLogin value
  · exact data_storeVariable .switchApiPassword value
  · rfl
  · exact absurd rfl hid
  all_goals cases hparent

/-- The end of a block. -/
theorem addCollector_data (st : ConfigState) : st.addCollector.data = st.data.close := by
  have hcond := unreachable_iff (st.log .addCollector).collector
  have hdata : st.data = ⟨st.view, st.collector.view⟩ := rfl
  rw [ConfigData.close, ConfigState.data, addCollector_view, CollectorView.listIn, hdata]
  by_cases hsome : st.collector.view.host ≠ none ∨ st.collector.view.ipAddress.hasValue = true
  · obtain ⟨-, hport⟩ := defaultPort_view (st.log .addCollector)
    obtain ⟨-, htransport⟩ := defaultTransport_view (st.log .addCollector).defaultPort
    rw [if_pos hsome, if_pos hsome, ConfigState.addCollector]
    simp only [if_neg fun h => hcond.1 h hsome]
    refine ConfigData.ext rfl (htransport.trans ?_)
    rw [hport]
    rfl
  · rw [if_neg hsome, if_neg hsome, ConfigState.addCollector]
    simp only [if_pos (hcond.2 hsome)]
    rfl

/-- A token at the place of a setting. -/
theorem configSettingToken_data (line : ConfigLine) (token : CString) :
    (configSettingToken line token).config.data = line.config.data.run
      (if (line.control.find token).setting.any (·.id = .collector) then some ConfigAction.zero
        else none).toList := by
  cases hget : configGetSetting token line.config.parentId with
  | none =>
      simp only [configSettingToken, ConfigControl.find, ConfigLine.control, hget]
      rfl
  | some setting =>
      by_cases hid : setting.id = .collector
      · simp only [configSettingToken, ConfigControl.find, ConfigLine.control, hget, hid,
          ↓reduceIte, Option.any_some, decide_true]
        rfl
      · simp only [configSettingToken, ConfigControl.find, ConfigLine.control, hget, hid,
          ↓reduceIte, Option.any_some, decide_false, Bool.false_eq_true]
        rfl

/-- A token at the place of a value. -/
theorem configValueToken_data (hs : line.Safe) (hindex : line.tokenIndex ≠ 0) (token : CString) :
    (configValueToken line token).config.data = line.config.data.run
      (line.control.destination.map fun field => ConfigAction.store field token).toList := by
  cases hsetting : line.setting with
  | none =>
      simp only [configValueToken, ConfigControl.destination, ConfigLine.control, hsetting]
      rfl
  | some setting =>
      obtain ⟨hmem, -, -⟩ := hs.setting hindex setting hsetting
      simp only [configValueToken, ConfigControl.destination, ConfigLine.control, hsetting,
        Option.bind_some]
      by_cases hblock : line.config.parentId = .collector
      · simp only [hblock, ↓reduceIte, Option.map_some]
        exact data_parseValue_offset hmem (hs.inBlock hindex hsetting hblock) token
      · by_cases houtside : line.config.parentId = .none
        · simp only [houtside, ↓reduceIte]
          obtain ⟨hcollector, houtside⟩ := hs.outside hindex hsetting houtside
          exact data_parseValue_value hmem hcollector houtside token
        · simp only [hblock, houtside, ↓reduceIte]
          rfl

/-- **One token acts on the values as its action does.** -/
theorem configToken_data (hs : line.Safe) (token : CString) :
    (configToken line token).config.data =
      line.config.data.run (line.control.action token).toList := by
  have hparent : line.control.parentId = line.config.parentId := rfl
  have hplace : line.control.tokenIndex = line.tokenIndex := rfl
  simp only [configToken, ConfigControl.action, hparent, hplace]
  by_cases hopen : token.head? = some 123
  · simp only [hopen, ↓reduceIte]
    rfl
  · by_cases hclose : token.head? = some 125
    · by_cases hblock : line.config.parentId = .collector
      · simp only [hclose, hblock, ↓reduceIte]
        exact addCollector_data line.config
      · simp only [hclose, hblock, ↓reduceIte]
        rfl
    · by_cases hfirst : line.tokenIndex = 0
      · simp only [hopen, hclose, hfirst, Nat.zero_add, ↓reduceIte]
        exact configSettingToken_data { line with tokenIndex := 1 } token
      · have hnext : ¬ line.tokenIndex + 1 = 1 := by omega
        by_cases hsecond : line.tokenIndex = 1
        · simp only [hopen, hclose, hsecond, ↓reduceIte, Nat.reduceAdd, OfNat.ofNat_ne_one]
          have hsafe : ConfigLine.Safe { line with tokenIndex := 2 } :=
            ⟨hs.config, fun _ => hs.setting hfirst⟩
          exact configValueToken_data hsafe (by simp) token
        · have hthird : ¬ line.tokenIndex + 1 = 2 := by omega
          simp only [hopen, hclose, hfirst, hnext, hsecond, hthird, ↓reduceIte]
          rfl

end Tokens

/-! ### Lines and files -/

/-- The tokens of a line act on the values as their actions do. -/
theorem foldl_configToken_data {line : ConfigLine} (hs : line.Safe) (tokens : List CString) :
    (tokens.foldl configToken line).config.data =
      line.config.data.run (line.control.actions tokens) := by
  induction tokens generalizing line with
  | nil => rfl
  | cons token tokens ih =>
      rw [List.foldl_cons, ih (hs.configToken token), configToken_data hs, configToken_control,
        ConfigControl.actions, ConfigData.run_append]

theorem foldl_configToken_control (line : ConfigLine) (tokens : List CString) :
    (tokens.foldl configToken line).control = tokens.foldl ConfigControl.next line.control := by
  induction tokens generalizing line with
  | nil => rfl
  | cons token tokens ih => rw [List.foldl_cons, ih, configToken_control, List.foldl_cons]

/-- The control of a state at the beginning of a line. -/
def ConfigState.control (st : ConfigState) : ConfigControl := ConfigLine.control { config := st }

theorem configTokens_data {st : ConfigState} (hs : st.Safe) (tokens : List CString) :
    (configTokens st tokens).data = st.data.run (st.control.actions tokens) :=
  foldl_configToken_data ⟨hs, fun hindex => absurd rfl hindex⟩ tokens

theorem configTokens_control (st : ConfigState) (tokens : List CString) :
    (configTokens st tokens).control =
      (tokens.foldl ConfigControl.next st.control).newLine := by
  have hcontrol := foldl_configToken_control { config := st } tokens
  exact congrArg ConfigControl.newLine hcontrol

/-- The lines of a file act on the values as their actions do. -/
theorem configLines_data {st : ConfigState} (hs : st.Safe) {c : ConfigControl}
    (hc : c.newLine = st.control) (buffers : List (List UInt8)) :
    (configLines st buffers).data = st.data.run (c.linesActions buffers) := by
  induction buffers generalizing st c with
  | nil => rfl
  | cons buffer buffers ih =>
      simp only [configLines, ConfigControl.linesActions]
      split
      · rfl
      · split
        · exact ih hs hc
        · cases hsplit : stringSplit (configIsEmptyLine true (cstringOf buffer)).2
              (ascii " \t\n\r") with
          | none => rfl
          | some tokens =>
              simp only [ConfigData.run_append]
              rw [hc, ← configTokens_data hs]
              exact ih (hs.configTokens tokens) (configTokens_control st tokens).symm

/-- **Reading a file is running its actions.** -/
theorem nvipfixConfigRead_data (stack : CollectorInfo) (text : List UInt8) :
    (nvipfixConfigRead stack (some text)).data =
      ConfigData.run { collector := stack.view } (configActions text) := by
  have hstart : ({ collector := stack } : ConfigState).data = { collector := stack.view } := by
    refine ConfigData.ext (ConfigView.ext (funext fun v => ?_) rfl rfl) rfl
    cases v <;> rfl
  rw [nvipfixConfigRead, configLines_data (ConfigState.safe_start stack) (c := {}) rfl, hstart]
  rfl

end NvIpfix
