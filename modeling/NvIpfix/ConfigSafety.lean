/-
**Reading any configuration is safe.**

Whatever the file holds, a collector struct is put in the list only after a `collector` token has
zeroed it and only once, so that the strings of the list have one owner each.  The invariant ties
the two identifiers of the machine to the struct: while `id` is that of `collector` the struct has
been zeroed and has neither host nor address, and inside a collector block it has been zeroed.  A
closing brace that lists the struct therefore finds another `id`, and no opening brace can bring the
block back before the next `collector` token.

Main definitions:

* `NvIpfix.armed` — whether the struct has been zeroed and not been listed since;
* `NvIpfix.ConfigState.owned` — the strings with an owner;
* `NvIpfix.ConfigState.Safe`, `NvIpfix.ConfigLine.Safe` — the invariants of lines and of tokens.

Main results:

* `NvIpfix.ConfigLine.Safe.configToken` — every token keeps the invariant;
* `NvIpfix.nvipfixConfigRead_safe` — **reading is safe on any text**.
-/

import NvIpfix.Config
import Mathlib.Data.List.ReduceOption
import Mathlib.Data.List.Induction

set_option relaxedAutoImplicit false
set_option autoImplicit false

namespace NvIpfix

/-! ### The log -/

/-- Whether the struct has been zeroed and not been put in the list since. -/
def armed (events : List ConfigEvent) : Bool :=
  events.foldl (fun armed e => match e with
    | .zeroed => true
    | .listed => false
    | _ => armed) false

@[simp] theorem armed_append_zeroed (events : List ConfigEvent) :
    armed (events ++ [.zeroed]) = true := by simp [armed]

@[simp] theorem armed_append_listed (events : List ConfigEvent) :
    armed (events ++ [.listed]) = false := by simp [armed]

@[simp] theorem armed_append_addCollector (events : List ConfigEvent) :
    armed (events ++ [.addCollector]) = armed events := by simp [armed]

@[simp] theorem armed_append_parse (events : List ConfigEvent) (parser : ConfigParser)
    (destination : Option ConfigField) :
    armed (events ++ [.parse parser destination]) = armed events := by simp [armed]

/-- The struct is armed at every call of `nvipfix_config_add_collector`. -/
def AddsArmed (events : List ConfigEvent) : Prop :=
  ∀ before after, events = before ++ .addCollector :: after → armed before = true

theorem addsArmed_append_singleton {events : List ConfigEvent} {e : ConfigEvent} :
    AddsArmed (events ++ [e]) ↔ AddsArmed events ∧ (e = .addCollector → armed events = true) := by
  constructor
  · intro h
    refine ⟨fun before after heq => h before (after ++ [e]) (by simp [heq]), ?_⟩
    rintro rfl
    exact h events [] rfl
  · rintro ⟨hevents, hlast⟩ before after heq
    rcases List.eq_nil_or_concat after with rfl | ⟨after, e', rfl⟩
    · obtain ⟨rfl, he⟩ := List.append_inj' heq rfl
      exact hlast (List.cons.inj he).1
    · rw [List.concat_eq_append, ← List.cons_append, ← List.append_assoc] at heq
      exact hevents before after (List.append_inj' heq rfl).1

/-! ### Owners -/

section Slots

variable {α : Type*}

theorem mem_reduceOption_set {l : List (Option α)} {a b : α} {i : ℕ}
    (h : b ∈ (l.set i (some a)).reduceOption) : b = a ∨ b ∈ l.reduceOption := by
  rw [List.reduceOption_mem_iff] at h ⊢
  rcases List.mem_or_eq_of_mem_set h with h | h
  · exact .inr h
  · exact .inl (Option.some.inj h)

/-- A new pointer in one place keeps the pointers apart. -/
theorem nodup_reduceOption_set {l : List (Option α)} {a : α} (h : l.reduceOption.Nodup)
    (ha : a ∉ l.reduceOption) (i : ℕ) : (l.set i (some a)).reduceOption.Nodup := by
  induction l generalizing i with
  | nil => simp
  | cons x l ih =>
      cases i with
      | zero =>
          rw [List.set_cons_zero, List.reduceOption_cons_of_some, List.nodup_cons]
          cases x with
          | none => exact ⟨by simpa using ha, by simpa using h⟩
          | some b =>
              rw [List.reduceOption_cons_of_some] at h ha
              exact ⟨fun hmem => ha (List.mem_cons_of_mem _ hmem), h.of_cons⟩
      | succ i =>
          rw [List.set_cons_succ]
          cases x with
          | none => simpa using ih (by simpa using h) (by simpa using ha) i
          | some b =>
              rw [List.reduceOption_cons_of_some] at h ha ⊢
              rw [List.nodup_cons] at h ⊢
              refine ⟨fun hmem => ?_, ih h.2 (fun hmem => ha (List.mem_cons_of_mem _ hmem)) i⟩
              rcases mem_reduceOption_set hmem with rfl | hmem
              · exact ha List.mem_cons_self
              · exact h.1 hmem

end Slots

/-- The pointers of a collector. -/
def CollectorInfo.slots (collector : CollectorInfo) : List (Option Address) :=
  [collector.name, collector.host, collector.port].map (·.map ConfigString.address)

/-- The pointers of the variables, of the struct while it is armed, and of the list. -/
def ConfigState.slots (st : ConfigState) : List (Option Address) :=
  [st.switchName, st.switchApiHost, st.switchApiLogin, st.switchApiPassword].map
      (·.map ConfigString.address)
    ++ (if armed st.events then st.collector.slots else [none, none, none])
    ++ st.collectors.flatMap CollectorInfo.slots

/-- The strings with an owner. -/
def ConfigState.owned (st : ConfigState) : List Address := st.slots.reduceOption

/-- A collector that can be exported to. -/
structure CollectorInfo.Complete (collector : CollectorInfo) : Prop where
  address : collector.host ≠ none ∨ collector.ipAddress.hasValue = true
  port : collector.port ≠ none
  transport : collector.transport ≠ .undefined

/-! ### The invariant of lines -/

/-- What holds between lines. -/
structure ConfigState.Safe (st : ConfigState) : Prop where
  adds : AddsArmed st.events
  /-- Behind a `collector` token that no setting has followed. -/
  header : st.id = .collector → armed st.events = true ∧ st.collector.host = none
    ∧ st.collector.ipAddress.hasValue = false
  /-- Inside a collector block. -/
  block : st.parentId = .collector → armed st.events = true
  complete : ∀ collector ∈ st.collectors, collector.Complete
  nodup : st.owned.Nodup
  fresh : ∀ a ∈ st.owned, a < st.nextAddress
  sound : st.corrupted = false

/-! ### Storing values -/

section Storing

variable {st : ConfigState}

/-- Logging what does not change whether the struct is armed. -/
theorem ConfigState.Safe.logEvent (hs : st.Safe) {e : ConfigEvent}
    (hkeep : armed (st.events ++ [e]) = armed st.events)
    (hadd : e = .addCollector → armed st.events = true) : (st.log e).Safe := by
  have harmed : armed (st.log e).events = armed st.events := hkeep
  have howned : (st.log e).owned = st.owned := by
    simp only [ConfigState.owned, ConfigState.slots, harmed]
    rfl
  exact
    { adds := addsArmed_append_singleton.2 ⟨hs.adds, hadd⟩
      header := fun hid => harmed ▸ hs.header hid
      block := fun hparent => harmed ▸ hs.block hparent
      complete := hs.complete
      nodup := howned ▸ hs.nodup
      fresh := howned ▸ hs.fresh
      sound := hs.sound }

/-- Logging a parser call. -/
theorem ConfigState.Safe.logParse (hs : st.Safe) (parser : ConfigParser)
    (destination : Option ConfigField) : (st.log (.parse parser destination)).Safe :=
  hs.logEvent (armed_append_parse _ _ _) (by simp)

/-- The place of a string among the pointers. -/
def ConfigField.slot : ConfigField → Option ℕ
  | .switchName => some 0
  | .switchApiHost => some 1
  | .switchApiLogin => some 2
  | .switchApiPassword => some 3
  | .name => some 4
  | .host => some 5
  | .port => some 6
  | _ => none

/-- Whether a field is one of the struct. -/
def ConfigField.ofCollector : ConfigField → Bool
  | .name | .ipAddress | .host | .transport | .port | .dscp => true
  | _ => false

/-- A duplicate of a string, stored. -/
def ConfigState.storeDuplicate (st : ConfigState) (field : ConfigField) (s : CString) :
    ConfigState :=
  (st.stringDuplicate s).2.storeString field (st.stringDuplicate s).1

theorem slots_storeDuplicate {field : ConfigField} {i : ℕ} (hslot : field.slot = some i)
    (harmed : field.ofCollector = true → armed st.events = true) (s : CString) :
    (st.storeDuplicate field s).slots = st.slots.set i (some st.nextAddress) := by
  cases field <;> simp only [ConfigField.slot, Option.some.injEq, reduceCtorEq] at hslot <;>
    subst hslot <;>
    simp_all [ConfigField.ofCollector, ConfigState.slots, ConfigState.storeDuplicate,
      ConfigState.stringDuplicate, ConfigState.storeString, CollectorInfo.slots]

/-- **A new string keeps the pointers apart.** -/
theorem ConfigState.Safe.storeDuplicate (hs : st.Safe) (field : ConfigField) {i : ℕ}
    (hslot : field.slot = some i) (harmed : field.ofCollector = true → armed st.events = true)
    (hhost : field = .host → st.id ≠ .collector) (s : CString) :
    (st.storeDuplicate field s).Safe := by
  have hnew : st.nextAddress ∉ st.owned := fun hmem => (hs.fresh _ hmem).false
  have hslots := slots_storeDuplicate hslot harmed s
  constructor
  case adds => cases field <;> exact hs.adds
  case header =>
    intro hid
    have hid' : st.id = .collector := by cases field <;> exact hid
    obtain ⟨hstruct, hnohost, hnoip⟩ := hs.header hid'
    cases field <;> first
      | exact ⟨hstruct, hnohost, hnoip⟩
      | exact absurd hid' (hhost rfl)
  case block => cases field <;> exact hs.block
  case complete => cases field <;> exact hs.complete
  case nodup =>
    rw [ConfigState.owned, hslots]
    exact nodup_reduceOption_set hs.nodup hnew i
  case fresh =>
    intro a ha
    have hnext : (st.storeDuplicate field s).nextAddress = st.nextAddress + 1 := by
      cases field <;> rfl
    rw [ConfigState.owned, hslots] at ha
    rw [hnext]
    rcases mem_reduceOption_set ha with rfl | ha
    · exact Nat.lt_succ_self _
    · exact Nat.lt_succ_of_lt (hs.fresh a ha)
  case sound => cases field <;> first | exact hs.sound | simp [ConfigField.slot] at hslot

/-- A value of another kind in the struct leaves the pointers as they are. -/
theorem ConfigState.Safe.setCollector (hs : st.Safe) {collector : CollectorInfo}
    (hslots : collector.slots = st.collector.slots)
    (hheader : st.id = .collector → collector.host = none ∧ collector.ipAddress.hasValue = false) :
    ({ st with collector := collector } : ConfigState).Safe := by
  have howned : ({ st with collector := collector } : ConfigState).owned = st.owned := by
    simp only [ConfigState.owned, ConfigState.slots, hslots]
  exact
    { adds := hs.adds
      header := fun hid => ⟨(hs.header hid).1, hheader hid⟩
      block := hs.block
      complete := hs.complete
      nodup := howned ▸ hs.nodup
      fresh := howned ▸ hs.fresh
      sound := hs.sound }

/-- A collector setting inside a block. -/
theorem ConfigState.Safe.parseOffset (hs : st.Safe) {setting : Setting}
    (hmem : setting ∈ settings) (hblock : st.parentId = .collector) (hid : st.id = setting.id)
    (hparent : setting.id = .collector ∨ setting.parentId = .collector) (s : CString) :
    (st.parseValue setting.parseValue (some setting.offset) s).Safe := by
  have harmed : ∀ parser destination,
      armed (st.log (.parse parser destination)).events = true := by
    simp [ConfigState.log, hs.block hblock]
  have hid' : ∀ parser destination, (st.log (.parse parser destination)).id = setting.id :=
    fun _ _ => hid
  simp only [settings, configSetting, configSettingCollector, List.mem_cons, List.not_mem_nil,
    or_false] at hmem
  rcases hmem with rfl | rfl | rfl | rfl | rfl | rfl | rfl | rfl | rfl | rfl | rfl
  -- the variables of the file are not set in a block
  iterate 5 simp at hparent
  -- `collector`
  case _ =>
    exact (hs.logParse _ _).storeDuplicate .name rfl (fun _ => harmed _ _) (by simp) s
  -- `collector-ip-address`, behind which `id` is no longer that of `collector`
  case _ =>
    refine (hs.logParse _ _).setCollector rfl fun hcollector => ?_
    rw [hid'] at hcollector
    cases hcollector
  -- `collector-hostname`
  case _ =>
    refine (hs.logParse _ _).storeDuplicate .host rfl (fun _ => harmed _ _) ?_ s
    rw [hid']
    simp
  -- `transport`
  case _ =>
    exact (hs.logParse _ _).setCollector rfl fun hcollector =>
      ((hs.logParse _ _).header hcollector).2
  -- `transport-port`
  case _ =>
    exact (hs.logParse _ _).storeDuplicate .port rfl (fun _ => harmed _ _) (by simp) s
  -- `dscp`
  case _ =>
    exact (hs.logParse _ _).setCollector rfl fun hcollector =>
      ((hs.logParse _ _).header hcollector).2

/-- A setting outside of blocks. -/
theorem ConfigState.Safe.parseVariable (hs : st.Safe) {setting : Setting}
    (hmem : setting ∈ settings) (hid : setting.id ≠ .collector) (hparent : setting.parentId = .none)
    (s : CString) : (st.parseValue setting.parseValue setting.value s).Safe := by
  simp only [settings, configSetting, configSettingCollector, List.mem_cons, List.not_mem_nil,
    or_false] at hmem
  rcases hmem with rfl | rfl | rfl | rfl | rfl | rfl | rfl | rfl | rfl | rfl | rfl
  iterate 4
    exact (hs.logParse _ _).storeDuplicate _ rfl (by simp [ConfigField.ofCollector]) (by simp) s
  -- `export-interval`, which holds no string
  case _ =>
    have hlog := hs.logParse .timespan (some .exportInterval)
    exact { hlog with }
  case _ => exact absurd rfl hid
  iterate 5 simp at hparent

/-! ### Listing -/

/-- A struct with a port keeps the pointers apart. -/
theorem ConfigState.Safe.defaultPort (hs : st.Safe) (harmed : armed st.events = true) :
    st.defaultPort.Safe := by
  cases hport : st.collector.port with
  | some p => simpa [ConfigState.defaultPort, hport] using hs
  | none =>
      have h := hs.storeDuplicate .port rfl (fun _ => harmed) (by simp)
        configDefaultPortStr
      simpa [ConfigState.defaultPort, hport, ConfigState.storeDuplicate,
        ConfigState.stringDuplicate, ConfigState.storeString] using h

theorem ConfigState.Safe.defaultTransport (hs : st.Safe) : st.defaultTransport.Safe := by
  simp only [ConfigState.defaultTransport]
  split
  · exact hs.setCollector rfl fun hid => (hs.header hid).2
  · exact hs

/-- Leaving a block, or entering one of a setting that is no collector. -/
theorem ConfigState.Safe.setParentId (hs : st.Safe) {parentId : SettingId}
    (hblock : parentId = .collector → armed st.events = true) :
    ({ st with parentId := parentId } : ConfigState).Safe :=
  { hs with block := hblock }

theorem ConfigState.Safe.logAddCollector (hs : st.Safe) (harmed : armed st.events = true) :
    (st.log .addCollector).Safe :=
  hs.logEvent (armed_append_addCollector _) fun _ => harmed

/-- The struct moves into the list with its strings. -/
theorem ConfigState.Safe.list (hs : st.Safe) (harmed : armed st.events = true)
    (hcomplete : st.collector.Complete) (hid : st.id ≠ .collector) :
    ({ st.log .listed with collectors := st.collector :: st.collectors, parentId := .none } :
      ConfigState).Safe := by
  set st' : ConfigState :=
    { st.log .listed with collectors := st.collector :: st.collectors, parentId := .none }
  have harmed' : armed st'.events = false := armed_append_listed st.events
  have howned : st'.owned = st.owned := by
    simp only [ConfigState.owned, ConfigState.slots, harmed, harmed', List.reduceOption_append]
    show _ ++ [none, none, none].reduceOption
      ++ (st.collector.slots ++ st.collectors.flatMap CollectorInfo.slots).reduceOption = _
    rw [List.reduceOption_append]
    simp [List.reduceOption_cons_of_none, st', ConfigState.log]
  exact
    { adds := addsArmed_append_singleton.2 ⟨hs.adds, by simp⟩
      header := fun hid' => absurd hid' hid
      block := fun hparent => by cases hparent
      complete := by
        intro collector hmem
        rcases List.mem_cons.1 hmem with rfl | hmem
        · exact hcomplete
        · exact hs.complete collector hmem
      nodup := howned ▸ hs.nodup
      fresh := howned ▸ hs.fresh
      sound := hs.sound }

/-- What the defaults leave of a struct, and what they add. -/
theorem defaults_frame (st : ConfigState) :
    st.defaultPort.defaultTransport.id = st.id
      ∧ st.defaultPort.defaultTransport.events = st.events
      ∧ st.defaultPort.defaultTransport.collector.host = st.collector.host
      ∧ st.defaultPort.defaultTransport.collector.ipAddress = st.collector.ipAddress
      ∧ st.defaultPort.defaultTransport.collector.port ≠ none
      ∧ st.defaultPort.defaultTransport.collector.transport ≠ .undefined := by
  cases hport : st.collector.port <;> by_cases htransport : st.collector.transport = .undefined <;>
    simp [ConfigState.defaultPort, ConfigState.defaultTransport, ConfigState.stringDuplicate,
      hport, htransport, configDefaultTransport]

/-- **A closing brace finds a struct that may be listed.** -/
theorem ConfigState.Safe.closeBlock (hs : st.Safe) (hblock : st.parentId = .collector) :
    ({ st.addCollector with parentId := .none } : ConfigState).Safe := by
  have harmed := hs.block hblock
  have hlog := hs.logAddCollector harmed
  have hlogArmed : armed (st.log .addCollector).events = true := by
    simpa [ConfigState.log] using harmed
  simp only [ConfigState.addCollector]
  split
  · exact hlog.setParentId (by simp)
  · rename_i haddress
    obtain ⟨hid, hevents, hhost, hip, hport, htransport⟩ := defaults_frame (st.log .addCollector)
    have hsome : st.collector.host ≠ none ∨ st.collector.ipAddress.hasValue = true := by
      by_contra hnone
      simp only [not_or, not_not, Bool.not_eq_true] at hnone
      simp [ConfigState.log, hnone] at haddress
    refine ((hlog.defaultPort hlogArmed).defaultTransport).list (by rw [hevents, hlogArmed])
      ⟨?_, hport, htransport⟩ ?_
    · rw [hhost, hip]
      exact hsome
    · -- behind a `collector` token there would be neither host nor address
      rw [hid]
      intro hcollector
      obtain ⟨-, hnohost, hnoip⟩ := hs.header hcollector
      rcases hsome with h | h
      · exact h hnohost
      · rw [hnoip] at h
        cases h

end Storing

/-! ### Tokens -/

/-- What holds within a line: behind the first token of a statement the setting is the one that was
found last, in the block it belongs to. -/
structure ConfigLine.Safe (line : ConfigLine) : Prop where
  config : line.config.Safe
  setting : line.tokenIndex ≠ 0 → ∀ setting ∈ line.setting, setting ∈ settings
    ∧ line.config.id = setting.id
    ∧ line.config.parentId = if setting.id = .collector then .collector else setting.parentId

/-- A `collector` token zeroes the struct. -/
theorem ConfigState.Safe.zero {st : ConfigState} (hs : st.Safe) :
    ({ st.log .zeroed with id := .collector, collector := {}, parentId := .collector } :
      ConfigState).Safe := by
  set st' : ConfigState :=
    { st.log .zeroed with id := .collector, collector := {}, parentId := .collector }
  have harmed : armed st'.events = true := armed_append_zeroed st.events
  have howned : st'.owned.Sublist st.owned := by
    simp only [ConfigState.owned, ConfigState.slots, harmed, List.reduceOption_append]
    refine List.Sublist.append (List.Sublist.append (List.Sublist.refl _) ?_) (List.Sublist.refl _)
    exact List.nil_sublist _
  exact
    { adds := addsArmed_append_singleton.2 ⟨hs.adds, by simp⟩
      header := fun _ => ⟨harmed, rfl, rfl⟩
      block := fun _ => harmed
      complete := hs.complete
      nodup := hs.nodup.sublist howned
      fresh := fun a ha => hs.fresh a (howned.subset ha)
      sound := hs.sound }

/-- A token at the place of a setting. -/
theorem ConfigLine.Safe.configSettingToken (line : ConfigLine) (hs : line.config.Safe)
    (token : CString) : (configSettingToken line token).Safe := by
  cases hget : configGetSetting token line.config.parentId with
  | none =>
      simp only [NvIpfix.configSettingToken, hget]
      exact ⟨hs, fun _ setting hsetting => by cases hsetting⟩
  | some setting =>
      have hmem : setting ∈ settings := List.mem_of_find?_eq_some hget
      have hparent : setting.parentId = line.config.parentId := by
        have hfound := List.find?_some hget
        simp only [Bool.and_eq_true, beq_iff_eq] at hfound
        exact hfound.1
      by_cases hcollector : setting.id = .collector
      · simp only [NvIpfix.configSettingToken, hget, hcollector, ↓reduceIte]
        refine ⟨hs.zero, fun _ setting' hsetting => ?_⟩
        obtain rfl := Option.some.inj hsetting
        exact ⟨hmem, hcollector.symm, by simp [hcollector]⟩
      · simp only [NvIpfix.configSettingToken, hget, hcollector, ↓reduceIte]
        have hsafe : ({ line.config with id := setting.id } : ConfigState).Safe :=
          { hs with header := fun hid => absurd hid hcollector }
        refine ⟨hsafe, fun _ setting' hsetting => ?_⟩
        obtain rfl := Option.some.inj hsetting
        exact ⟨hmem, rfl, by simp [hcollector, hparent]⟩

/-- A parser call leaves the identifiers. -/
theorem parseValue_ids (st : ConfigState) (parser : ConfigParser)
    (destination : Option ConfigField) (s : CString) :
    (st.parseValue parser destination s).id = st.id
      ∧ (st.parseValue parser destination s).parentId = st.parentId := by
  cases destination with
  | none => exact ⟨rfl, rfl⟩
  | some field => cases parser <;> cases field <;> exact ⟨rfl, rfl⟩

/-- In a collector block, the setting is the block or one of its members. -/
theorem ConfigLine.Safe.inBlock {line : ConfigLine} (hs : line.Safe) (hindex : line.tokenIndex ≠ 0)
    {setting : Setting} (hsetting : line.setting = some setting)
    (hblock : line.config.parentId = .collector) :
    setting.id = .collector ∨ setting.parentId = .collector := by
  obtain ⟨-, -, hparent⟩ := hs.setting hindex setting hsetting
  by_cases hcollector : setting.id = .collector
  · exact .inl hcollector
  · rw [hparent, if_neg hcollector] at hblock
    exact .inr hblock

/-- Outside of the blocks, the setting is a variable. -/
theorem ConfigLine.Safe.outside {line : ConfigLine} (hs : line.Safe) (hindex : line.tokenIndex ≠ 0)
    {setting : Setting} (hsetting : line.setting = some setting)
    (houtside : line.config.parentId = .none) :
    setting.id ≠ .collector ∧ setting.parentId = .none := by
  obtain ⟨-, -, hparent⟩ := hs.setting hindex setting hsetting
  by_cases hcollector : setting.id = .collector
  · rw [hparent, if_pos hcollector] at houtside
    cases houtside
  · rw [hparent, if_neg hcollector] at houtside
    exact ⟨hcollector, houtside⟩

/-- A token at the place of a value. -/
theorem ConfigLine.Safe.configValueToken {line : ConfigLine} (hs : line.Safe)
    (hindex : line.tokenIndex ≠ 0) (token : CString) : (configValueToken line token).Safe := by
  cases hsetting : line.setting with
  | none => simpa only [NvIpfix.configValueToken, hsetting] using hs
  | some setting =>
      obtain ⟨hmem, hid, -⟩ := hs.setting hindex setting hsetting
      have hkeep : ∀ destination, ConfigState.Safe
          (line.config.parseValue setting.parseValue destination token) →
          ConfigLine.Safe { line with
            setting := some setting
            config := line.config.parseValue setting.parseValue destination token } := by
        intro destination hsafe
        obtain ⟨hid', hparent'⟩ :=
          parseValue_ids line.config setting.parseValue destination token
        refine ⟨hsafe, fun _ setting' hsetting' => ?_⟩
        rw [hid', hparent']
        exact hs.setting hindex setting' (hsetting ▸ hsetting')
      simp only [NvIpfix.configValueToken, hsetting]
      split
      · rename_i hblock
        have hplace := hs.inBlock hindex hsetting hblock
        exact hkeep _ (hs.config.parseOffset hmem hblock hid hplace token)
      · split
        · rename_i houtside
          obtain ⟨hcollector, houtside⟩ := hs.outside hindex hsetting houtside
          exact hkeep _ (hs.config.parseVariable hmem hcollector houtside token)
        · exact hs

/-- **Every token keeps the invariant.** -/
theorem ConfigLine.Safe.configToken {line : ConfigLine} (hs : line.Safe) (token : CString) :
    (configToken line token).Safe := by
  simp only [NvIpfix.configToken]
  split
  · -- an opening brace leads to the block of the setting found last
    refine ⟨hs.config.setParentId fun hid => (hs.config.header hid).1, ?_⟩
    exact fun hindex => absurd rfl hindex
  · split
    · refine ⟨?_, fun hindex => absurd rfl hindex⟩
      split
      · rename_i hblock
        exact hs.config.closeBlock hblock
      · exact hs.config.setParentId (by simp)
    · split
      · exact ConfigLine.Safe.configSettingToken
          { line with tokenIndex := line.tokenIndex + 1 } hs.config token
      · rename_i hindex
        have hindex' : line.tokenIndex ≠ 0 := fun h => hindex (by rw [h])
        have hnext : ConfigLine.Safe { line with tokenIndex := line.tokenIndex + 1 } :=
          ⟨hs.config, fun _ => hs.setting hindex'⟩
        split
        · exact hnext.configValueToken (Nat.succ_ne_zero _) token
        · exact hnext

/-! ### Lines and files -/

theorem ConfigState.Safe.configTokens {st : ConfigState} (hs : st.Safe) (tokens : List CString) :
    (configTokens st tokens).Safe := by
  have hline : ∀ line : ConfigLine, line.Safe → (tokens.foldl configToken line).Safe := by
    induction tokens with
    | nil => exact fun line hline => hline
    | cons token tokens ih => exact fun line hline => ih _ (hline.configToken token)
  exact (hline { config := st } ⟨hs, fun hindex => absurd rfl hindex⟩).config

theorem ConfigState.Safe.configLines {st : ConfigState} (hs : st.Safe)
    (buffers : List (List UInt8)) : (configLines st buffers).Safe := by
  induction buffers generalizing st with
  | nil => exact hs
  | cons buffer buffers ih =>
      simp only [NvIpfix.configLines]
      split
      · exact hs
      · split
        · exact ih hs
        · split
          · exact hs
          · exact ih (hs.configTokens _)

/-- The strings freed at the end have an owner. -/
theorem cleanup_sublist_owned (st : ConfigState) : (nvipfixConfigCleanup st).Sublist st.owned := by
  have hslots : ∀ pointers : List (Option ConfigString),
      (pointers.map (·.map ConfigString.address)).reduceOption
        = pointers.filterMap (·.map ConfigString.address) := by
    intro pointers
    simp [List.reduceOption, List.filterMap_map]
  have hcollectors : ∀ collectors : List CollectorInfo,
      (collectors.flatMap CollectorInfo.slots).reduceOption
        = collectors.flatMap CollectorInfo.addresses := by
    intro collectors
    induction collectors with
    | nil => rfl
    | cons collector collectors ih =>
        rw [List.flatMap_cons, List.reduceOption_append, ih, List.flatMap_cons,
          CollectorInfo.slots, hslots, CollectorInfo.addresses]
  rw [ConfigState.owned, ConfigState.slots, List.reduceOption_append, List.reduceOption_append,
    hslots, hcollectors]
  exact (List.sublist_append_left _ _).append (List.Sublist.refl _)

theorem ConfigState.safe_start (stack : CollectorInfo) :
    ({ collector := stack } : ConfigState).Safe := by
  constructor <;> simp [AddsArmed, ConfigState.owned, ConfigState.slots, armed,
    List.reduceOption_cons_of_none]

/-- The strings of the list are freed at the end. -/
theorem addresses_sublist_cleanup (st : ConfigState) :
    (st.collectors.flatMap CollectorInfo.addresses).Sublist (nvipfixConfigCleanup st) :=
  List.sublist_append_right _ _

/-- **Reading is safe on any text**: whatever the stack and the file hold, a struct is added only
when it has been zeroed and not been listed since, and the collectors of the list are complete.  No
two pointers of the list are the same, and the clean-up frees every one of them, and no string
twice. -/
theorem nvipfixConfigRead_safe (stack : CollectorInfo) (file : Option (List UInt8)) :
    AddsArmed (nvipfixConfigRead stack file).events
      ∧ (∀ collector ∈ (nvipfixConfigRead stack file).collectors, collector.Complete)
      ∧ ((nvipfixConfigRead stack file).collectors.flatMap CollectorInfo.addresses).Nodup
      ∧ (∀ collector ∈ (nvipfixConfigRead stack file).collectors, ∀ a ∈ collector.addresses,
          a ∈ nvipfixConfigCleanup (nvipfixConfigRead stack file))
      ∧ (nvipfixConfigCleanup (nvipfixConfigRead stack file)).Nodup
      ∧ (nvipfixConfigRead stack file).corrupted = false := by
  have hsafe : (nvipfixConfigRead stack file).Safe := by
    cases file with
    | none => exact ConfigState.safe_start stack
    | some text => exact (ConfigState.safe_start stack).configLines _
  have hfreed := hsafe.nodup.sublist (cleanup_sublist_owned _)
  have hlist := addresses_sublist_cleanup (nvipfixConfigRead stack file)
  exact ⟨hsafe.adds, hsafe.complete, hfreed.sublist hlist, fun collector hcollector a ha =>
    hlist.subset (List.mem_flatMap.2 ⟨collector, hcollector, ha⟩), hfreed, hsafe.sound⟩

end NvIpfix
