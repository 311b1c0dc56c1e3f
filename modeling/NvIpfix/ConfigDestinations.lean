/-
**Where configuration values are stored.**

A setting is looked up by the first token of a statement, in the block the machine is in then, and
its value is stored by the second token, in the block it is in then; in between only a `collector`
token changes the block, and only to that of its own.  So the setting of a statement and the block
fit together when the value is stored: a setting of a collector goes to its field of the struct,
which its block has zeroed, and any other setting goes to its variable.

Main definitions:

* `NvIpfix.ParseCall`, `NvIpfix.configCall` — the call of a parser that a token makes;
* `NvIpfix.nvipfixConfigReadCalls` — all calls made for a file;
* `NvIpfix.ParseCall.Declared` — the destination is the one of the table.

Main results:

* `NvIpfix.parses_configLines` — the calls are those in the log of the machine;
* `NvIpfix.nvipfixConfigRead_destinations` — **every value lands in its own field**.
-/

import NvIpfix.ConfigSafety

set_option relaxedAutoImplicit false
set_option autoImplicit false

namespace NvIpfix

/-! ### Calls -/

/-- A call of the parser of a setting: its destination, and the log before it. -/
structure ParseCall where
  setting : Setting
  destination : Option ConfigField
  before : List ConfigEvent

/-- The call that a token makes: one at the place of a value, behind a setting of the table, in the
block of a collector or outside of blocks. -/
def configCall (line : ConfigLine) (token : CString) : Option ParseCall :=
  if token.head? = some 123 then none
  else if token.head? = some 125 then none
  else if line.tokenIndex = 1 then
    line.setting.bind fun setting =>
      if line.config.parentId = .collector then
        some { setting, destination := some setting.offset, before := line.config.events }
      else if line.config.parentId = .none then
        some { setting, destination := setting.value, before := line.config.events }
      else none
  else none

/-- The calls made for the tokens of a line. -/
def configTokensCalls (line : ConfigLine) : List CString → List ParseCall
  | [] => []
  | token :: tokens =>
      (configCall line token).toList ++ configTokensCalls (configToken line token) tokens

/-- The calls made for the lines of a file, up to one that ends the loop. -/
def configLinesCalls (config : ConfigState) : List (List UInt8) → List ParseCall
  | [] => []
  | buffer :: buffers =>
      let line := cstringOf buffer
      if 10 ∉ line then []
      else
        let (isEmpty, line) := configIsEmptyLine true line
        if isEmpty then configLinesCalls config buffers
        else
          match stringSplit line (ascii " \t\n\r") with
          | none => []
          | some tokens =>
              configTokensCalls { config } tokens ++
                configLinesCalls (configTokens config tokens) buffers

/-- The calls made by `nvipfix_config_read`. -/
def nvipfixConfigReadCalls (stack : CollectorInfo) (file : Option (List UInt8)) :
    List ParseCall :=
  match file with
  | none => []
  | some text => configLinesCalls { collector := stack } (fgetsCalls sizeofConfigBuffer [] text)

/-! ### The calls in the log -/

/-- The calls of parsers in a log. -/
def parses (events : List ConfigEvent) : List (ConfigParser × Option ConfigField) :=
  events.filterMap fun e => match e with
    | .parse parser destination => some (parser, destination)
    | _ => none

@[simp] theorem parses_append (events events' : List ConfigEvent) :
    parses (events ++ events') = parses events ++ parses events' := List.filterMap_append

/-- What the log shows of a call. -/
def ParseCall.logged (call : ParseCall) : ConfigParser × Option ConfigField :=
  (call.setting.parseValue, call.destination)

theorem parseValue_events (st : ConfigState) (parser : ConfigParser)
    (destination : Option ConfigField) (s : CString) :
    (st.parseValue parser destination s).events = st.events ++ [.parse parser destination] := by
  cases destination with
  | none => rfl
  | some field => cases parser <;> cases field <;> rfl

/-- A closing brace makes no call. -/
theorem parses_addCollector (st : ConfigState) :
    parses st.addCollector.events = parses st.events := by
  have hadd : parses (st.log .addCollector).events = parses st.events := by
    simp [ConfigState.log, parses]
  simp only [ConfigState.addCollector]
  split
  · exact hadd
  · obtain ⟨-, hevents, -⟩ := defaults_frame (st.log .addCollector)
    have hlisted : ∀ st' : ConfigState, parses (st'.log .listed).events = parses st'.events := by
      intro st'
      simp [ConfigState.log, parses]
    dsimp only
    rw [hlisted, hevents, hadd]

theorem parses_configSettingToken (line : ConfigLine) (token : CString) :
    parses (configSettingToken line token).config.events = parses line.config.events := by
  unfold configSettingToken
  dsimp only
  split
  · split
    · simp [ConfigState.log, parses]
    · rfl
  · rfl

theorem parses_configValueToken (line : ConfigLine) (token : CString) :
    parses (configValueToken line token).config.events = parses line.config.events ++
      ((line.setting.bind fun setting =>
        if line.config.parentId = .collector then
          some { setting, destination := some setting.offset, before := line.config.events }
        else if line.config.parentId = .none then
          some { setting, destination := setting.value, before := line.config.events }
        else none).toList.map ParseCall.logged) := by
  cases hsetting : line.setting with
  | none => simp [configValueToken, hsetting]
  | some setting =>
      simp only [configValueToken, hsetting, Option.bind_some]
      split
      · rw [parseValue_events, parses_append]
        rfl
      · split
        · rw [parseValue_events, parses_append]
          rfl
        · simp

/-- **The call of a token** is what it adds to the log. -/
theorem parses_configToken (line : ConfigLine) (token : CString) :
    parses (configToken line token).config.events =
      parses line.config.events ++ (configCall line token).toList.map ParseCall.logged := by
  simp only [configToken, configCall, Nat.add_eq_right, Nat.reduceEqDiff]
  split
  · simp
  · split
    · dsimp only
      split
      · simp [parses_addCollector]
      · simp
    · split
      · rename_i hindex
        rw [parses_configSettingToken, if_neg (by omega)]
        simp
      · split
        · exact parses_configValueToken _ token
        · simp

theorem parses_configTokens (line : ConfigLine) (tokens : List CString) :
    parses (tokens.foldl configToken line).config.events =
      parses line.config.events ++ (configTokensCalls line tokens).map ParseCall.logged := by
  induction tokens generalizing line with
  | nil => simp [configTokensCalls]
  | cons token tokens ih =>
      rw [List.foldl_cons, ih, parses_configToken, configTokensCalls, List.map_append,
        List.append_assoc]

/-- **The calls are those in the log**, in order. -/
theorem parses_configLines (st : ConfigState) (buffers : List (List UInt8)) :
    parses (configLines st buffers).events =
      parses st.events ++ (configLinesCalls st buffers).map ParseCall.logged := by
  induction buffers generalizing st with
  | nil => simp [configLines, configLinesCalls]
  | cons buffer buffers ih =>
      simp only [configLines, configLinesCalls]
      split
      · simp
      · split
        · exact ih st
        · cases stringSplit (configIsEmptyLine true (cstringOf buffer)).2 (ascii " \t\n\r") with
          | none => simp
          | some tokens =>
              dsimp only
              rw [ih, configTokens, parses_configTokens, List.map_append, List.append_assoc]

/-! ### Destinations -/

/-- The settings stored in the struct: `collector` itself, and those of its block. -/
def Setting.ofCollector (setting : Setting) : Bool :=
  setting.id == .collector || setting.parentId == .collector

/-- A call stores where the table says: a setting of a collector in its field of the struct, which
has been zeroed and not been listed since, and any other in its own variable. -/
structure ParseCall.Declared (call : ParseCall) : Prop where
  mem : call.setting ∈ settings
  destination : ∃ field, call.destination = some field ∧
    field.ofCollector = call.setting.ofCollector ∧
    if call.setting.ofCollector then field = call.setting.offset
    else call.setting.value = some field
  zeroed : call.setting.ofCollector = true → armed call.before = true

/-- The settings of a collector have a field of the struct, and the others have a variable. -/
theorem settings_declared : ∀ setting ∈ settings,
    if setting.ofCollector then setting.offset.ofCollector = true
    else ∃ field, setting.value = some field ∧ field.ofCollector = false := by
  intro setting hmem
  simp only [settings, configSetting, configSettingCollector, List.mem_cons, List.not_mem_nil,
    or_false] at hmem
  rcases hmem with rfl | rfl | rfl | rfl | rfl | rfl | rfl | rfl | rfl | rfl | rfl
  iterate 5 exact ⟨_, rfl, rfl⟩
  iterate 6 rfl

/-- The block of the machine at the place of a value. -/
theorem ConfigLine.Safe.parentId_iff {line : ConfigLine} (hs : line.Safe)
    (hindex : line.tokenIndex ≠ 0) {setting : Setting} (hsetting : line.setting = some setting) :
    line.config.parentId = .collector ↔ setting.ofCollector = true := by
  obtain ⟨-, -, hparent⟩ := hs.setting hindex setting hsetting
  rw [hparent, Setting.ofCollector, Bool.or_eq_true, beq_iff_eq, beq_iff_eq]
  by_cases hcollector : setting.id = .collector
  · simp [hcollector]
  · simp [hcollector]

/-- **A token stores where the table says.** -/
theorem ConfigLine.Safe.configCall_declared {line : ConfigLine} (hs : line.Safe)
    {token : CString} {call : ParseCall} (h : configCall line token = some call) :
    call.Declared := by
  unfold configCall at h
  split at h
  · cases h
  · split at h
    · cases h
    · split at h
      · rename_i hindex
        obtain ⟨setting, hsetting, hcall⟩ := Option.bind_eq_some_iff.1 h
        have hmem := (hs.setting (by omega) setting hsetting).1
        have hblock := hs.parentId_iff (by omega) hsetting
        have hdeclared := settings_declared setting hmem
        by_cases hcollector : setting.ofCollector = true
        · -- inside a block the struct is armed
          rw [if_pos hcollector] at hdeclared
          rw [if_pos (hblock.2 hcollector)] at hcall
          obtain rfl := Option.some.inj hcall
          refine ⟨hmem, ⟨_, rfl, by rw [hdeclared, hcollector], by rw [if_pos hcollector]⟩, ?_⟩
          exact fun _ => hs.config.block (hblock.2 hcollector)
        · rw [if_neg hcollector] at hdeclared
          obtain ⟨field, hvalue, hfield⟩ := hdeclared
          rw [if_neg fun hparent => hcollector (hblock.1 hparent)] at hcall
          split at hcall
          · obtain rfl := Option.some.inj hcall
            refine ⟨hmem, ⟨field, hvalue, ?_, by rw [if_neg hcollector, hvalue]⟩, ?_⟩
            · rw [hfield, Bool.eq_false_iff.2 hcollector]
            · exact fun htrue => absurd htrue hcollector
          · cases hcall
      · cases h

theorem ConfigLine.Safe.configTokensCalls_declared {line : ConfigLine} (hs : line.Safe)
    (tokens : List CString) : ∀ call ∈ configTokensCalls line tokens, call.Declared := by
  induction tokens generalizing line with
  | nil => simp [configTokensCalls]
  | cons token tokens ih =>
      intro call hcall
      rw [configTokensCalls] at hcall
      rcases List.mem_append.1 hcall with hcall | hcall
      · exact hs.configCall_declared (Option.mem_toList.1 hcall)
      · exact ih (hs.configToken token) call hcall

theorem ConfigState.Safe.configLinesCalls_declared {st : ConfigState} (hs : st.Safe)
    (buffers : List (List UInt8)) : ∀ call ∈ configLinesCalls st buffers, call.Declared := by
  induction buffers generalizing st with
  | nil => simp [configLinesCalls]
  | cons buffer buffers ih =>
      simp only [configLinesCalls]
      split
      · simp
      · split
        · exact ih hs
        · cases stringSplit (configIsEmptyLine true (cstringOf buffer)).2 (ascii " \t\n\r") with
          | none => simp
          | some tokens =>
              intro call hcall
              have hline : ({ config := st } : ConfigLine).Safe :=
                ⟨hs, fun hindex => absurd rfl hindex⟩
              rcases List.mem_append.1 hcall with hcall | hcall
              · exact hline.configTokensCalls_declared tokens call hcall
              · exact ih (hs.configTokens tokens) call hcall

/-- **Every value lands in its own field**: the calls of parsers that the machine makes for a file
are those listed, and each stores where the table says. -/
theorem nvipfixConfigRead_destinations (stack : CollectorInfo) (file : Option (List UInt8)) :
    parses (nvipfixConfigRead stack file).events =
        (nvipfixConfigReadCalls stack file).map ParseCall.logged ∧
      ∀ call ∈ nvipfixConfigReadCalls stack file, call.Declared := by
  cases file with
  | none => exact ⟨rfl, by simp [nvipfixConfigReadCalls]⟩
  | some text =>
      constructor
      · rw [nvipfixConfigRead, parses_configLines]
        rfl
      · exact (ConfigState.safe_start stack).configLinesCalls_declared _

end NvIpfix
