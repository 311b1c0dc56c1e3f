/-
**Reading a configuration undoes writing it.**

Between items the machine is outside of blocks, and its variables and its list hold what the items
so far give; inside a block, the struct holds what the lines of the block so far give.  Each kind of
statement keeps this, so it holds at the end of the file.

Main definitions:

* `NvIpfix.runRows` — the machine over lines;
* `NvIpfix.ConfigItem.apply` — what an item does to the contents.

Main results:

* `NvIpfix.CollectorBlock.view_eq` — a block gives what its settings make of an empty struct;
* `NvIpfix.runRows_block`, `NvIpfix.runRows_item` — what a block and an item do;
* `NvIpfix.ConfigFile.readsAs` — the lines of a file are read as their words;
* `NvIpfix.nvipfixConfigRead_text` — **reading undoes writing**.
-/

import NvIpfix.ConfigFile

set_option relaxedAutoImplicit false
set_option autoImplicit false

namespace NvIpfix

open CNumeral

/-! ### What statements do -/

/-- A word that begins with a brace. -/
def IsBrace (word : CString) : Prop := word.head? = some 123 ∨ word.head? = some 125

instance (word : CString) : Decidable (IsBrace word) := inferInstanceAs (Decidable (_ ∨ _))

section Statements

variable {st : ConfigState} {name value : CString} {setting : Setting}

theorem configSettingToken_tokenIndex (line : ConfigLine) (token : CString) :
    (configSettingToken line token).tokenIndex = line.tokenIndex := by
  simp only [configSettingToken]
  split
  · split <;> rfl
  · rfl

theorem configValueToken_tokenIndex (line : ConfigLine) (token : CString) :
    (configValueToken line token).tokenIndex = line.tokenIndex := by
  simp only [configValueToken]
  split
  · split
    · rfl
    · split <;> rfl
  · rfl

/-- A setting and its value. -/
theorem foldl_configToken_pair (hname : ¬ IsBrace name) (hvalue : ¬ IsBrace value) :
    [name, value].foldl configToken { config := st } =
      configValueToken { configSettingToken { tokenIndex := 1, config := st } name with
        tokenIndex := 2 } value := by
  simp only [IsBrace, not_or] at hname hvalue
  simp [configToken, hname, hvalue, configSettingToken_tokenIndex]

/-- A statement of a variable. -/
theorem configTokens_variable (hname : ¬ IsBrace name) (hvalue : ¬ IsBrace value)
    (hget : configGetSetting name .none = some setting) (hid : setting.id ≠ .collector)
    (hparent : st.parentId = .none) :
    configTokens st [name, value] =
      ({ st with id := setting.id } : ConfigState).parseValue setting.parseValue setting.value
        value := by
  rw [configTokens, foldl_configToken_pair hname hvalue]
  simp [configSettingToken, configValueToken, hparent, hget, hid]

/-- A statement inside a block. -/
theorem configTokens_inBlock (hname : ¬ IsBrace name) (hvalue : ¬ IsBrace value)
    (hget : configGetSetting name .collector = some setting) (hid : setting.id ≠ .collector)
    (hparent : st.parentId = .collector) :
    configTokens st [name, value] =
      ({ st with id := setting.id } : ConfigState).parseValue setting.parseValue
        (some setting.offset) value := by
  rw [configTokens, foldl_configToken_pair hname hvalue]
  simp [configSettingToken, configValueToken, hparent, hget, hid]

/-- The state behind the header of a block. -/
def ConfigState.opened (st : ConfigState) (name : CString) : ConfigState :=
  ({ st.log .zeroed with id := .collector, collector := {}, parentId := .collector } :
    ConfigState).parseValue .string (some .name) name

/-- The header of a block, with the brace to follow. -/
theorem configTokens_header (hvalue : ¬ IsBrace value) (hparent : st.parentId = .none) :
    configTokens st [ascii "collector", value] = st.opened value := by
  have hname : ¬ IsBrace (ascii "collector") := by decide
  have hget : configGetSetting (ascii "collector") .none
      = some (configSettingCollector (ascii "collector") .collector .none .name .string) := rfl
  rw [configTokens, foldl_configToken_pair hname hvalue]
  simp [configSettingToken, configValueToken, hparent, hget, configSettingCollector,
    ConfigState.opened, ConfigState.log]

/-- An opening brace, wherever it stands in its line. -/
theorem configToken_openingBrace (line : ConfigLine) :
    configToken line (ascii "\x7b") = { line with
      tokenIndex := 0
      config := { line.config with parentId := line.config.id } } := by
  have hhead : (ascii "\x7b").head? = some 123 := rfl
  simp [configToken, hhead]

/-- A closing brace, wherever it stands in its line. -/
theorem configToken_closingBrace_tokenIndex (line : ConfigLine) :
    (configToken line (ascii "\x7d")).tokenIndex = 0 := by
  have hhead : (ascii "\x7d").head? = some 125 := rfl
  simp [configToken, hhead]

/-- An opening brace behind a header, on a line of its own. -/
theorem configTokens_openingBrace (value : CString) :
    configTokens (st.opened value) [ascii "\x7b"] = st.opened value := by
  rw [configTokens, List.foldl_cons, configToken_openingBrace]
  rfl

/-- The header of a block with its brace. -/
theorem configTokens_headerBrace (hvalue : ¬ IsBrace value) (hparent : st.parentId = .none) :
    configTokens st [ascii "collector", value, ascii "\x7b"] = st.opened value := by
  have hheader : ([ascii "collector", value].foldl configToken { config := st }).config
      = st.opened value := configTokens_header hvalue hparent
  rw [configTokens, show [ascii "collector", value, ascii "\x7b"]
    = [ascii "collector", value] ++ [ascii "\x7b"] from rfl, List.foldl_append, List.foldl_cons,
    List.foldl_nil, configToken_openingBrace, hheader]
  rfl

/-- The end of a block. -/
theorem configTokens_closingBrace (hparent : st.parentId = .collector) :
    configTokens st [ascii "\x7d"] = { st.addCollector with parentId := .none } := by
  have hhead : (ascii "\x7d").head? = some 125 := rfl
  simp [configTokens, configToken, hhead, hparent]

theorem ConfigValue.not_isBrace (value : ConfigValue) : ¬ IsBrace value.text := by
  simpa [IsBrace] using value.head

/-- The place of a variable in the table of settings. -/
def ConfigVariable.field : ConfigVariable → ConfigField
  | switchName => .switchName
  | switchApiHost => .switchApiHost
  | switchApiLogin => .switchApiLogin
  | switchApiPassword => .switchApiPassword

theorem view_parseValue_variable (st : ConfigState) (v : ConfigVariable) (s : CString) :
    (st.parseValue .string (some v.field) s).view =
      { st.view with values := Function.update st.view.values v (some s) } := by
  have hvalues : (st.parseValue .string (some v.field) s).view.values
      = Function.update st.view.values v (some s) := by
    funext w
    cases v <;> cases w <;> rfl
  rw [← hvalues]
  cases v <;> rfl

/-- A line that sets a variable. -/
theorem configTokens_variable_view (v : ConfigVariable) (value : ConfigValue)
    (hparent : st.parentId = .none) :
    (configTokens st [v.word.text, value.text]).parentId = .none
      ∧ (configTokens st [v.word.text, value.text]).view =
        { st.view with values := Function.update st.view.values v (some value.text) } := by
  have hname : ¬ IsBrace v.word.text := by cases v <;> decide
  obtain ⟨setting, hget, hid, hvalue, hparse⟩ : ∃ setting,
      configGetSetting v.word.text .none = some setting ∧ setting.id ≠ .collector
        ∧ setting.value = some v.field ∧ setting.parseValue = .string := by
    cases v <;> exact ⟨_, rfl, by decide, rfl, rfl⟩
  rw [configTokens_variable hname value.not_isBrace hget hid hparent, hvalue, hparse,
    view_parseValue_variable]
  exact ⟨by cases v <;> exact hparent, rfl⟩

theorem not_isBrace_of_forall_mem {word : CString} (h : ∀ c ∈ word, c ≠ 123 ∧ c ≠ 125) :
    ¬ IsBrace word := by
  rintro (hhead | hhead)
  · exact (h 123 (List.mem_of_mem_head? hhead)).1 rfl
  · exact (h 125 (List.mem_of_mem_head? hhead)).2 rfl

theorem CollectorSetting.not_isBrace (s : CollectorSetting) :
    ¬ IsBrace s.word.text ∧ ¬ IsBrace s.value.text := by
  refine ⟨by cases s <;> exact of_decide_eq_false rfl, ?_⟩
  cases s with
  | ipAddress a b c d =>
      exact not_isBrace_of_forall_mem (forall_mem_dottedQuad (by decide) (by decide) a b c d)
  | hostname host => exact host.not_isBrace
  | transport t => cases t <;> exact of_decide_eq_false rfl
  | transportPort port => exact port.not_isBrace
  | dscp d => exact not_isBrace_of_forall_mem (forall_mem_decimal (by decide))

/-- A line of a block that sets a field of its collector. -/
theorem configTokens_inBlock_view (s : CollectorSetting) (hparent : st.parentId = .collector) :
    (configTokens st [s.word.text, s.value.text]).parentId = .collector
      ∧ (configTokens st [s.word.text, s.value.text]).view = st.view
      ∧ (configTokens st [s.word.text, s.value.text]).collector.view
        = s.apply st.collector.view := by
  obtain ⟨hname, hvalue⟩ := s.not_isBrace
  cases s with
  | ipAddress a b c d =>
      rw [configTokens_inBlock hname hvalue rfl (by decide) hparent]
      refine ⟨hparent, rfl, ?_⟩
      show CollectorView.mk _ _ _ (parseIpAddress (dottedQuad a b c d) _).2 _ _ _ = _
      rw [parseIpAddress_dottedQuad]
      rfl
  | hostname host =>
      rw [configTokens_inBlock hname hvalue rfl (by decide) hparent]
      exact ⟨hparent, rfl, rfl⟩
  | transport t =>
      rw [configTokens_inBlock hname hvalue rfl (by decide) hparent]
      refine ⟨hparent, rfl, ?_⟩
      cases t <;> rfl
  | transportPort port =>
      rw [configTokens_inBlock hname hvalue rfl (by decide) hparent]
      exact ⟨hparent, rfl, rfl⟩
  | dscp d =>
      rw [configTokens_inBlock hname hvalue rfl (by decide) hparent]
      refine ⟨hparent, rfl, ?_⟩
      show CollectorView.mk _ _ _ _ (strtoul (decimal d.toNat) 0).toUInt8 _ _ = _
      rw [toUInt8_strtoul_decimal]
      rfl

end Statements

/-! ### Blocks -/

/-- A collector as it is listed. -/
def CollectorView.withDefaults (collector : CollectorView) : CollectorView :=
  { collector with
    port := some (collector.port.getD configDefaultPortStr)
    transport := if collector.transport = .undefined then configDefaultTransport
      else collector.transport }

/-- What the settings of a block make of a struct. -/
def CollectorBlock.fill (block : CollectorBlock) (collector : CollectorView) : CollectorView :=
  block.settings.foldl (fun c s => s.2.2.apply c) collector

/-- A field of the struct of a block. -/
theorem CollectorBlock.read_fill {γ : Type} (read : CollectorView → γ)
    (given : CollectorSetting → Option γ)
    (hstep : ∀ (c : CollectorView) s, read (s.apply c) = (given s).getD (read c))
    (block : CollectorBlock) (c : CollectorView) :
    read (block.fill c) = (block.given given).getD (read c) :=
  Tokens.read_foldl_eq read (fun c s => hstep c s.2.2) block.settings c

/-- A field that no setting changes. -/
theorem CollectorBlock.read_fill_eq {γ : Type} (read : CollectorView → γ)
    (hstep : ∀ (c : CollectorView) (s : CollectorSetting), read (s.apply c) = read c)
    (block : CollectorBlock) (c : CollectorView) : read (block.fill c) = read c := by
  have hread := block.read_fill read (fun _ => none) hstep c
  simpa [given] using hread

/-- **A block gives what its settings make of an empty struct.** -/
theorem CollectorBlock.view_eq (block : CollectorBlock) :
    block.view = (block.fill { name := some block.name.text }).withDefaults := by
  set start : CollectorView := { name := some block.name.text } with hstart
  have hname : (block.fill start).name = some block.name.text :=
    block.read_fill_eq CollectorView.name (by rintro c (_ | _ | _ | _ | _) <;> rfl) start
  have hctx : (block.fill start).ctx = none :=
    block.read_fill_eq CollectorView.ctx (by rintro c (_ | _ | _ | _ | _) <;> rfl) start
  have hip := block.read_fill CollectorView.ipAddress CollectorSetting.givenIpAddress
    (by rintro c (_ | _ | _ | _ | _) <;> rfl) start
  have hdscp := block.read_fill CollectorView.dscp CollectorSetting.givenDscp
    (by rintro c (_ | _ | _ | _ | _) <;> rfl) start
  have hport := block.read_fill (fun c => c.port.getD configDefaultPortStr)
    CollectorSetting.givenPort (by rintro c (_ | _ | _ | _ | _) <;> rfl) start
  have htransport := block.read_fill (fun c =>
    if c.transport = .undefined then configDefaultTransport else c.transport)
    CollectorSetting.givenTransport (by rintro c (_ | _ | (_ | _ | _) | _ | _) <;> rfl) start
  have hhost : (block.fill start).host = (block.given CollectorSetting.givenHost).or none :=
    Tokens.read_foldl_eq_or CollectorView.host (by rintro c ⟨_, _, (_ | _ | _ | _ | _)⟩ <;> rfl)
      block.settings start
  rw [Option.or_none] at hhost
  simp only [CollectorView.withDefaults, hname, hctx, hip, hdscp, hport, htransport, hhost]
  rfl

theorem defaultPort_view (st : ConfigState) :
    st.defaultPort.view = st.view ∧ st.defaultPort.collector.view = { st.collector.view with
      port := some (st.collector.view.port.getD configDefaultPortStr) } := by
  rw [ConfigState.defaultPort]
  cases hport : st.collector.port with
  | none => exact ⟨rfl, by simp [CollectorInfo.view, hport, ConfigState.stringDuplicate]⟩
  | some port => exact ⟨rfl, by simp [CollectorInfo.view, hport]⟩

theorem defaultTransport_view (st : ConfigState) :
    st.defaultTransport.view = st.view ∧ st.defaultTransport.collector.view =
      { st.collector.view with
        transport := if st.collector.view.transport = .undefined then configDefaultTransport
          else st.collector.view.transport } := by
  rw [ConfigState.defaultTransport]
  split
  · rename_i htransport
    exact ⟨rfl, by simp [CollectorInfo.view, htransport]⟩
  · rename_i htransport
    exact ⟨rfl, by simp [CollectorInfo.view, htransport]⟩

/-- The list with a collector put in it, if it has a host or an address. -/
def CollectorView.listIn (collector : CollectorView) (collectors : List CollectorView) :
    List CollectorView :=
  if collector.host ≠ none ∨ collector.ipAddress.hasValue then
    collector.withDefaults :: collectors
  else collectors

/-- A struct is not put in the list when it has neither a host nor an address. -/
theorem unreachable_iff (collector : CollectorInfo) :
    (decide (collector.host = none) && !collector.ipAddress.hasValue) = true ↔
      ¬ (collector.view.host ≠ none ∨ collector.view.ipAddress.hasValue = true) := by
  simp [CollectorInfo.view]

theorem addCollector_view (st : ConfigState) :
    st.addCollector.view =
      { st.view with collectors := st.collector.view.listIn st.view.collectors } := by
  have hcond := unreachable_iff st.collector
  have hlog : ∀ e, (st.log e).collector = st.collector ∧ (st.log e).view = st.view :=
    fun _ => ⟨rfl, rfl⟩
  rw [ConfigState.addCollector, CollectorView.listIn]
  simp only [hlog]
  split
  · rename_i hnothing
    rw [if_neg (hcond.1 hnothing)]
    rfl
  · rename_i hsomething
    rw [if_pos (not_not.1 (mt hcond.2 hsomething))]
    obtain ⟨hport, hportCollector⟩ := defaultPort_view (st.log .addCollector)
    obtain ⟨htransport, htransportCollector⟩ :=
      defaultTransport_view (st.log .addCollector).defaultPort
    have hlisted : ∀ st : ConfigState, ({ st.log .listed with
        collectors := st.collector :: st.collectors } : ConfigState).view
        = { st.view with collectors := st.collector.view :: st.view.collectors } := fun _ => rfl
    rw [hlisted, htransportCollector, htransport, hport, hportCollector]
    rfl

/-- The end of a block, for the contents. -/
theorem configTokens_closingBrace_view {st : ConfigState} (hparent : st.parentId = .collector) :
    (configTokens st [ascii "\x7d"]).parentId = .none
      ∧ (configTokens st [ascii "\x7d"]).view =
        { st.view with collectors := st.collector.view.listIn st.view.collectors } := by
  rw [configTokens_closingBrace hparent]
  exact ⟨rfl, addCollector_view st⟩

/-! ### Runs over lines -/

/-- The machine over lines. -/
def runRows (st : ConfigState) (rows : List ConfigRow) : ConfigState :=
  (rows.map Prod.snd).foldl configTokens st

theorem runRows_append (st : ConfigState) (rows rows' : List ConfigRow) :
    runRows st (rows ++ rows') = runRows (runRows st rows) rows' := by
  simp [runRows]

theorem runRows_cons (st : ConfigState) (row : ConfigRow) (rows : List ConfigRow) :
    runRows st (row :: rows) = runRows (configTokens st row.2) rows := rfl

/-- Empty lines do nothing. -/
theorem runRows_fillers (st : ConfigState) (fillers : List ConfigLineEnd) :
    runRows st (fillers.map (rowOf [])) = st := by
  induction fillers with
  | nil => rfl
  | cons filler fillers ih =>
      rw [List.map_cons, runRows_cons]
      exact ih

/-- A statement moves the machine by its words. -/
theorem runRows_layout (st : ConfigState) (layout : ConfigLayout) (word : ConfigWord)
    (words : List (ConfigSeparator × ConfigWord)) :
    runRows st (layout.rows word words)
      = configTokens st (word.text :: words.map fun w => w.2.text) := by
  rw [ConfigLayout.rows, runRows_append, runRows_fillers]
  simp [runRows, rowOf, Function.comp_def]

/-- The lines of a block between its braces. -/
theorem runRows_settingRows {st : ConfigState} (hparent : st.parentId = .collector)
    (settings : List (ConfigLayout × ConfigSeparator × CollectorSetting)) :
    (runRows st (settingRows settings)).parentId = .collector
      ∧ (runRows st (settingRows settings)).view = st.view
      ∧ (runRows st (settingRows settings)).collector.view
        = settings.foldl (fun c s => s.2.2.apply c) st.collector.view := by
  induction settings generalizing st with
  | nil => exact ⟨hparent, rfl, rfl⟩
  | cons s settings ih =>
      obtain ⟨hparent', hview, hcollector⟩ := configTokens_inBlock_view s.2.2 hparent
      obtain ⟨ihparent, ihview, ihcollector⟩ := ih hparent'
      rw [settingRows, List.flatMap_cons, runRows_append, runRows_layout, List.foldl_cons,
        ← hcollector, ← hview]
      exact ⟨ihparent, ihview, ihcollector⟩

theorem runRows_openingRows {st : ConfigState} (hparent : st.parentId = .none)
    (block : CollectorBlock) :
    runRows st block.openingRows = st.opened block.name.text := by
  have hname : ¬ IsBrace block.name.text := block.name.not_isBrace
  rw [CollectorBlock.openingRows]
  cases block.brace with
  | sameLine separator =>
      exact (runRows_layout ..).trans (configTokens_headerBrace hname hparent)
  | nextLine layout =>
      rw [runRows_append, runRows_layout, runRows_layout]
      exact (congrArg (configTokens · _) (configTokens_header hname hparent)).trans
        (configTokens_openingBrace block.name.text)

/-- What an item does to the contents. -/
def ConfigItem.apply (view : ConfigView) (item : ConfigItem) : ConfigView where
  values v := (item.valueOf v).or (view.values v)
  exportInterval := view.exportInterval
  collectors := item.listed.toList ++ view.collectors

theorem CollectorBlock.fill_listIn (block : CollectorBlock) (collectors : List CollectorView) :
    (block.fill { name := some block.name.text }).listIn collectors
      = (ConfigItem.collector block).listed.toList ++ collectors := by
  have hhost : ∀ c : CollectorView, c.withDefaults.host = c.host := fun _ => rfl
  have hip : ∀ c : CollectorView, c.withDefaults.ipAddress = c.ipAddress := fun _ => rfl
  rw [ConfigItem.listed, block.view_eq, hhost, hip, CollectorView.listIn]
  split
  · rfl
  · rfl

/-- **What a block does.** -/
theorem runRows_block {st : ConfigState} (hparent : st.parentId = .none)
    (block : CollectorBlock) :
    (runRows st block.rows).parentId = .none
      ∧ (runRows st block.rows).view = (ConfigItem.collector block).apply st.view := by
  have hopen : (st.opened block.name.text).parentId = .collector := rfl
  obtain ⟨hinside, hview, hcollector⟩ := runRows_settingRows hopen block.settings
  obtain ⟨hclosed, hclosedView⟩ := configTokens_closingBrace_view hinside
  rw [CollectorBlock.rows, runRows_append, runRows_append, runRows_layout,
    runRows_openingRows hparent]
  refine ⟨hclosed, hclosedView.trans ?_⟩
  rw [hcollector, hview]
  exact congrArg (fun collectors => { st.view with collectors })
    (block.fill_listIn st.view.collectors)

/-- **What an item does.** -/
theorem runRows_item {st : ConfigState} (hparent : st.parentId = .none) (item : ConfigItem) :
    (runRows st item.rows).parentId = .none
      ∧ (runRows st item.rows).view = item.apply st.view := by
  cases item with
  | collector block => exact runRows_block hparent block
  | setting layout separator name value =>
      obtain ⟨hparent', hview⟩ := configTokens_variable_view name value hparent
      rw [ConfigItem.rows, runRows_layout]
      refine ⟨hparent', hview.trans ?_⟩
      have hvalues : Function.update st.view.values name (some value.text)
          = fun v => ((ConfigItem.setting layout separator name value).valueOf v).or
            (st.view.values v) := by
        funext v
        by_cases hv : name = v
        · subst hv
          simp [ConfigItem.valueOf]
        · simp [ConfigItem.valueOf, hv, Function.update_of_ne (Ne.symm hv)]
      rw [hvalues]
      rfl

/-- What the items of a file do. -/
theorem runRows_items {st : ConfigState} (hparent : st.parentId = .none)
    (items : List ConfigItem) :
    (runRows st (items.flatMap ConfigItem.rows)).view = items.foldl ConfigItem.apply st.view := by
  induction items generalizing st with
  | nil => rfl
  | cons item items ih =>
      obtain ⟨hparent', hview⟩ := runRows_item hparent item
      rw [List.flatMap_cons, runRows_append, List.foldl_cons, ← hview]
      exact ih hparent'

theorem foldl_apply_collectors (items : List ConfigItem) (view : ConfigView) :
    (items.foldl ConfigItem.apply view).collectors
      = (items.filterMap ConfigItem.listed).reverse ++ view.collectors := by
  induction items generalizing view with
  | nil => rfl
  | cons item items ih =>
      rw [List.foldl_cons, ih]
      cases hlisted : item.listed <;> simp [ConfigItem.apply, hlisted]

theorem foldl_apply_exportInterval (items : List ConfigItem) (view : ConfigView) :
    (items.foldl ConfigItem.apply view).exportInterval = view.exportInterval := by
  induction items generalizing view with
  | nil => rfl
  | cons item items ih => exact ih (item.apply view)

theorem ConfigFile.view_eq (file : ConfigFile) :
    file.view = file.items.foldl ConfigItem.apply {} := by
  have hvalues : (file.items.foldl ConfigItem.apply {}).values = file.view.values := by
    funext v
    rw [Tokens.read_foldl_eq_or (fun view : ConfigView => view.values v) (fun _ _ => rfl)
      file.items {}]
    exact Option.or_none
  have hcollectors := foldl_apply_collectors file.items {}
  have hinterval := foldl_apply_exportInterval file.items {}
  rw [List.append_nil] at hcollectors
  exact ConfigView.ext hvalues.symm hinterval.symm hcollectors.symm

/-! ### The lines of a file -/

/-- No setting waits for a value at the end of a line. -/
def Settled (words : List CString) : Prop :=
  ∀ config, (words.foldl configToken { config }).tokenIndex ≠ 1

theorem settled_nil : Settled [] := fun _ => Nat.zero_ne_one

theorem settled_pair {name value : CString} (hname : ¬ IsBrace name) (hvalue : ¬ IsBrace value) :
    Settled [name, value] := by
  intro config
  rw [foldl_configToken_pair hname hvalue, configValueToken_tokenIndex]
  exact Nat.succ_ne_self 1

theorem settled_openingBrace (words : List CString) : Settled (words ++ [ascii "\x7b"]) := by
  intro config
  rw [List.foldl_append, List.foldl_cons, configToken_openingBrace]
  exact Nat.zero_ne_one

theorem settled_closingBrace : Settled [ascii "\x7d"] := by
  intro config
  rw [List.foldl_cons, List.foldl_nil, configToken_closingBrace_tokenIndex]
  exact Nat.zero_ne_one

/-- Short lines among these are read as their words. -/
def Readable (rows : List ConfigRow) : Prop :=
  ∀ row ∈ rows, row.1.length < sizeofConfigBuffer → ReadsAs row.1 row.2

theorem Readable.append {rows rows' : List ConfigRow} (h : Readable rows) (h' : Readable rows') :
    Readable (rows ++ rows') :=
  fun row hrow => (List.mem_append.1 hrow).elim (h row) (h' row)

theorem readable_fillers (fillers : List ConfigLineEnd) : Readable (fillers.map (rowOf [])) := by
  intro row hrow hshort
  obtain ⟨filler, -, rfl⟩ := List.mem_map.1 hrow
  exact readsAs_rowOf (fun w hw => by simp at hw) hshort settled_nil

theorem readable_layout (layout : ConfigLayout) {word : ConfigWord}
    {words : List (ConfigSeparator × ConfigWord)}
    (hsettled : Settled (word.text :: words.map fun w => w.2.text)) :
    Readable (layout.rows word words) := by
  refine (readable_fillers layout.fillers).append ?_
  intro row hrow hshort
  rw [List.mem_singleton] at hrow
  subst hrow
  refine readsAs_rowOf ?_ hshort ?_
  · intro w hw
    obtain ⟨v, -, rfl⟩ := List.mem_map.1 hw
    exact v.1.ne
  · simpa [Settled, rowOf, Function.comp_def] using hsettled

theorem readable_block (block : CollectorBlock) : Readable block.rows := by
  have hname : ¬ IsBrace (ConfigWord.ofAscii "collector").text := by decide
  have hopening : Readable block.openingRows := by
    rw [CollectorBlock.openingRows]
    cases block.brace with
    | sameLine separator =>
        exact readable_layout _ (settled_openingBrace [ascii "collector", block.name.text])
    | nextLine layout =>
        exact (readable_layout _ (settled_pair hname block.name.not_isBrace)).append
          (readable_layout _ (settled_openingBrace []))
  refine (hopening.append ?_).append (readable_layout _ settled_closingBrace)
  intro row hrow
  obtain ⟨s, -, hrow⟩ := List.mem_flatMap.1 hrow
  exact readable_layout _ (settled_pair s.2.2.not_isBrace.1 s.2.2.not_isBrace.2) row hrow

theorem readable_item (item : ConfigItem) : Readable item.rows := by
  cases item with
  | collector block => exact readable_block block
  | setting layout separator name value =>
      have hname : ¬ IsBrace name.word.text := by cases name <;> decide
      exact readable_layout layout (settled_pair hname value.not_isBrace)

/-- The lines of a file are read as their words. -/
theorem ConfigFile.readsAs (file : ConfigFile) : ∀ row ∈ file.rows, ReadsAs row.1 row.2 := by
  have hitems : Readable (file.items.flatMap ConfigItem.rows) := by
    intro row hrow
    obtain ⟨item, -, hrow⟩ := List.mem_flatMap.1 hrow
    exact readable_item item row hrow
  intro row hrow
  exact hitems.append (readable_fillers file.fillers) row hrow (file.short row hrow)

/-- **Reading undoes writing.** -/
theorem nvipfixConfigRead_text (stack : CollectorInfo) (file : ConfigFile) :
    (nvipfixConfigRead stack (some file.text)).view = file.view := by
  rw [ConfigFile.text, nvipfixConfigRead_rows stack file.readsAs, file.view_eq]
  show (runRows { collector := stack } file.rows).view = _
  rw [ConfigFile.rows, runRows_append, runRows_fillers]
  have hview : ({ collector := stack } : ConfigState).view = {} := by
    refine ConfigView.ext (funext fun v => ?_) rfl rfl
    cases v <;> rfl
  have hparent : ({ collector := stack } : ConfigState).parentId = .none := rfl
  rw [runRows_items hparent, hview]

theorem nvipfixConfigRead_text_sample :
    (nvipfixConfigRead {} (some sampleConfigFile.text)).view = sampleConfigFile.view :=
  nvipfixConfigRead_text {} sampleConfigFile

end NvIpfix
