/-
**Configuration files.**

The text of a configuration: settings of the switch and blocks of collectors, one setting to a line,
with the opening brace of a block behind its name or on a line of its own.  Every line may be
indented, have blanks between and behind its words, end in a comment, and follow any number of
blank lines and comment lines.  What a file gives is read off its items: the values of the switch,
and the collectors with a host or an address, the last block first.

Main definitions:

* `NvIpfix.ConfigWord` — values;
* `NvIpfix.ConfigLayout` — where blanks, comments and empty lines stand;
* `NvIpfix.ConfigVariable`, `NvIpfix.CollectorSetting`, `NvIpfix.CollectorBlock`,
  `NvIpfix.ConfigItem` — the items;
* `NvIpfix.ConfigFile`, `NvIpfix.ConfigFile.text` — a file and its text;
* `NvIpfix.ConfigView`, `NvIpfix.ConfigFile.view` — what a file gives.

Main results:

* `NvIpfix.configWords_rowOf`, `NvIpfix.readsAs_rowOf` — a line of words is read as them.
-/

import NvIpfix.ConfigText

set_option relaxedAutoImplicit false
set_option autoImplicit false

namespace NvIpfix

open CNumeral

/-! ### Lines -/

/-- A word of a line: not empty, of 7-bit characters other than NUL, without blanks and `#`. -/
structure ConfigWord where
  text : CString
  ne : text ≠ []
  plain : ∀ c ∈ text, 0 < c ∧ c < 128
  free : Free (ascii " \t\n\r#") text

/-- A value: a word that does not begin with a brace. -/
structure ConfigValue extends ConfigWord where
  head : text.head? ≠ some 123 ∧ text.head? ≠ some 125

/-- Blanks within a line. -/
structure ConfigBlanks where
  text : CString
  blank : ∀ c ∈ text, c ∈ ascii " \t\r"

/-- Blanks between words. -/
structure ConfigSeparator extends ConfigBlanks where
  ne : text ≠ []

/-- A comment behind its `#`. -/
structure ConfigComment where
  text : CString
  plain : ∀ c ∈ text, 0 < c ∧ c < 128 ∧ c ≠ 10

/-- The end of a line behind its last word, or a whole line without words. -/
structure ConfigLineEnd where
  blanks : ConfigBlanks
  comment : Option ConfigComment

/-- The characters of a line end, without the line feed. -/
def ConfigLineEnd.body (e : ConfigLineEnd) : CString :=
  e.blanks.text ++ match e.comment with
    | some comment => 35 :: comment.text
    | none => []

/-- A line of the file and its words. -/
abbrev ConfigRow := CString × List CString

/-- A line of words, each with the blanks before it. -/
def rowOf (words : List (ConfigBlanks × ConfigWord)) (lineEnd : ConfigLineEnd) : ConfigRow :=
  (words.flatMap (fun w => w.1.text ++ w.2.text) ++ lineEnd.body ++ [10],
    words.map fun w => w.2.text)

/-- The empty lines before a line, its indentation and its end. -/
structure ConfigLayout where
  fillers : List ConfigLineEnd
  indent : ConfigBlanks
  lineEnd : ConfigLineEnd

/-- The lines of a statement: a word, and further words with their separators. -/
def ConfigLayout.rows (layout : ConfigLayout) (word : ConfigWord)
    (words : List (ConfigSeparator × ConfigWord)) : List ConfigRow :=
  layout.fillers.map (rowOf []) ++
    [rowOf ((layout.indent, word) :: words.map fun w => (w.1.toConfigBlanks, w.2)) layout.lineEnd]

/-! ### Reading lines -/

theorem configCut_append_of_free {s : CString} (h : 35 ∉ s) (t : CString) :
    configCut (s ++ t) = s ++ configCut t :=
  takeWhile_bne_append h t

/-- A character that neither ends a string, a line nor what counts of a line. -/
def IsInner (c : UInt8) : Prop := c ≠ 0 ∧ c ≠ 10 ∧ c ≠ 35

theorem ConfigBlanks.isInner (blanks : ConfigBlanks) : ∀ c ∈ blanks.text, IsInner c := by
  intro c hc
  have h := blanks.blank c hc
  refine ⟨?_, ?_, ?_⟩ <;> rintro rfl <;> exact absurd h (by decide)

theorem ConfigWord.isInner (word : ConfigWord) : ∀ c ∈ word.text, IsInner c := by
  intro c hc
  have hpos := (word.plain c hc).1
  have hfree := word.free c hc
  refine ⟨?_, ?_, ?_⟩ <;> rintro rfl
  · exact absurd hpos (by decide)
  · exact hfree (by decide)
  · exact hfree (by decide)

theorem isInner_words (words : List (ConfigBlanks × ConfigWord)) :
    ∀ c ∈ words.flatMap (fun w => w.1.text ++ w.2.text), IsInner c := by
  intro c hc
  obtain ⟨w, -, hc⟩ := List.mem_flatMap.1 hc
  exact (List.mem_append.1 hc).elim (w.1.isInner c) (w.2.isInner c)

theorem ConfigLineEnd.ne_of_mem (lineEnd : ConfigLineEnd) :
    ∀ c ∈ lineEnd.body, c ≠ 0 ∧ c ≠ 10 := by
  intro c hc
  rcases List.mem_append.1 hc with hc | hc
  · exact ⟨(lineEnd.blanks.isInner c hc).1, (lineEnd.blanks.isInner c hc).2.1⟩
  · cases hcomment : lineEnd.comment with
    | none => simp [hcomment] at hc
    | some comment =>
        rw [hcomment] at hc
        rcases List.mem_cons.1 hc with rfl | hc
        · decide
        · obtain ⟨hpos, -, hlf⟩ := comment.plain c hc
          exact ⟨fun h => absurd (h ▸ hpos) (by decide), hlf⟩

theorem ConfigBlanks.inCharset (blanks : ConfigBlanks) :
    ∀ c ∈ blanks.text, inCharset (ascii " \t\n\r") c := by
  intro c hc
  have hsub : ∀ c ∈ ascii " \t\r", NvIpfix.inCharset (ascii " \t\n\r") c := by decide
  exact hsub c (blanks.blank c hc)

/-- The cut keeps the words, and behind them only delimiters. -/
theorem exists_configCut_rowOf (words : List (ConfigBlanks × ConfigWord))
    (lineEnd : ConfigLineEnd) :
    ∃ rest, configCut (rowOf words lineEnd).1
      = words.flatMap (fun w => w.1.text ++ w.2.text) ++ rest
      ∧ ∀ c ∈ rest, inCharset (ascii " \t\n\r") c := by
  have hfree : 35 ∉ words.flatMap (fun w => w.1.text ++ w.2.text) :=
    fun hmem => (isInner_words words 35 hmem).2.2 rfl
  have hfree' : 35 ∉ lineEnd.blanks.text := fun hmem => (lineEnd.blanks.isInner 35 hmem).2.2 rfl
  cases hcomment : lineEnd.comment with
  | none =>
      refine ⟨lineEnd.blanks.text ++ [10], ?_, ?_⟩
      · simp only [rowOf, ConfigLineEnd.body, hcomment, List.append_nil, List.append_assoc]
        rw [configCut_append_of_free hfree, configCut_append_of_free hfree']
        rfl
      · intro c hc
        rcases List.mem_append.1 hc with hc | hc
        · exact lineEnd.blanks.inCharset c hc
        · rw [List.mem_singleton.1 hc]
          rfl
  | some comment =>
      refine ⟨lineEnd.blanks.text, ?_, lineEnd.blanks.inCharset⟩
      simp only [rowOf, ConfigLineEnd.body, hcomment, List.append_assoc]
      rw [configCut_append_of_free hfree, configCut_append_of_free hfree']
      simp [configCut]

/-- A line of words has them as its words. -/
theorem configWords_rowOf {words : List (ConfigBlanks × ConfigWord)} {lineEnd : ConfigLineEnd}
    (hsep : ∀ w ∈ words.tail, w.1.text ≠ []) :
    configWords (rowOf words lineEnd).1 = (rowOf words lineEnd).2 := by
  obtain ⟨rest, hcut, hrest⟩ := exists_configCut_rowOf words lineEnd
  set texts := words.map fun w => (w.1.text, w.2.text) with htexts
  have hruns : Tokens.runs (inCharset (ascii " \t\n\r"))
      (texts.flatMap (fun w => w.1 ++ w.2) ++ rest) = texts.map Prod.snd := by
    refine Tokens.runs_flatMap_words _ ?_ ?_ ?_ hrest
    · rintro w hw c hc
      obtain ⟨v, -, rfl⟩ := List.mem_map.1 hw
      exact v.1.inCharset c hc
    · intro w hw
      obtain ⟨v, -, rfl⟩ := List.mem_map.1 hw
      exact ⟨v.2.ne, (v.2.free.mono (by decide)).inCharset_eq_false⟩
    · intro w hw
      rw [htexts, ← List.map_tail] at hw
      obtain ⟨v, hv, rfl⟩ := List.mem_map.1 hw
      exact hsep v hv
  rw [htexts, List.flatMap_map, List.map_map] at hruns
  rw [configWords, hcut, hruns]
  rfl

/-- A line of words is read as them. -/
theorem readsAs_rowOf {words : List (ConfigBlanks × ConfigWord)} {lineEnd : ConfigLineEnd}
    (hsep : ∀ w ∈ words.tail, w.1.text ≠ [])
    (hshort : (rowOf words lineEnd).1.length < sizeofConfigBuffer)
    (hsettled : ∀ config, ((rowOf words lineEnd).2.foldl configToken
      { config }).tokenIndex ≠ 1) :
    ReadsAs (rowOf words lineEnd).1 (rowOf words lineEnd).2 where
  ended := by
    refine ⟨_, rfl, fun hmem => ?_⟩
    rcases List.mem_append.1 hmem with hmem | hmem
    · exact (isInner_words words 10 hmem).2.1 rfl
    · exact (lineEnd.ne_of_mem 10 hmem).2 rfl
  nul := by
    intro hmem
    simp only [rowOf, List.mem_append, List.mem_singleton] at hmem
    rcases hmem with (hmem | hmem) | hmem
    · exact (isInner_words words 0 hmem).1 rfl
    · exact (lineEnd.ne_of_mem 0 hmem).1 rfl
    · cases hmem
  short := hshort
  reads := configWords_rowOf hsep
  settled := hsettled

/-! ### Items -/

/-- A word of the format itself. -/
def ConfigWord.ofAscii (s : String) (hne : ascii s ≠ [] := by decide)
    (hplain : ∀ c ∈ ascii s, 0 < c ∧ c < 128 := by decide)
    (hfree : Free (ascii " \t\n\r#") (ascii s) := by decide) : ConfigWord :=
  { text := ascii s, ne := hne, plain := hplain, free := hfree }

/-- The settings of the switch. -/
inductive ConfigVariable
  | switchName
  | switchApiHost
  | switchApiLogin
  | switchApiPassword
  deriving DecidableEq, Repr

/-- The name of a setting of the switch. -/
def ConfigVariable.word : ConfigVariable → ConfigWord
  | switchName => .ofAscii "switch"
  | switchApiHost => .ofAscii "switch-nvapi-host"
  | switchApiLogin => .ofAscii "switch-nvapi-login"
  | switchApiPassword => .ofAscii "switch-nvapi-password"

/-- The names of transports. -/
inductive TransportName
  | udp
  | tcp
  | sctp
  deriving DecidableEq, Repr

/-- The word of a transport. -/
def TransportName.word : TransportName → ConfigWord
  | udp => .ofAscii "udp"
  | tcp => .ofAscii "tcp"
  | sctp => .ofAscii "sctp"

/-- The transport of a name. -/
def TransportName.transport : TransportName → Transport
  | udp => .udp
  | tcp => .tcp
  | sctp => .sctp

/-- The settings of a collector. -/
inductive CollectorSetting
  | ipAddress (a b c d : UInt8)
  | hostname (host : ConfigValue)
  | transport (t : TransportName)
  | transportPort (port : ConfigValue)
  | dscp (d : UInt8)

/-- The name of a setting of a collector. -/
def CollectorSetting.word : CollectorSetting → ConfigWord
  | ipAddress .. => .ofAscii "collector-ip-address"
  | hostname _ => .ofAscii "collector-hostname"
  | transport _ => .ofAscii "transport"
  | transportPort _ => .ofAscii "transport-port"
  | dscp _ => .ofAscii "dscp"

theorem forall_mem_dottedQuad {P : UInt8 → Prop} (hdigit : ∀ d < 10, P (digitChar d))
    (hdot : P 46) (a b c d : UInt8) : ∀ x ∈ dottedQuad a b c d, P x := by
  intro x hx
  simp only [dottedQuad, List.mem_append, List.mem_cons] at hx
  rcases hx with hx | rfl | hx | rfl | hx | rfl | hx
  · exact forall_mem_decimal hdigit x hx
  · exact hdot
  · exact forall_mem_decimal hdigit x hx
  · exact hdot
  · exact forall_mem_decimal hdigit x hx
  · exact hdot
  · exact forall_mem_decimal hdigit x hx

/-- A canonical dotted quad. -/
def ConfigWord.ofDottedQuad (a b c d : UInt8) : ConfigWord where
  text := dottedQuad a b c d
  ne := by simp [dottedQuad]
  plain := forall_mem_dottedQuad (by decide) (by decide) a b c d
  free := forall_mem_dottedQuad (by decide) (by decide) a b c d

/-- A decimal number without leading zeros. -/
def ConfigWord.ofDecimal (n : ℕ) : ConfigWord where
  text := decimal n
  ne := decimal_ne_nil n
  plain := forall_mem_decimal (by decide)
  free := forall_mem_decimal (by decide)

/-- The value of a setting of a collector. -/
def CollectorSetting.value : CollectorSetting → ConfigWord
  | ipAddress a b c d => .ofDottedQuad a b c d
  | hostname host => host.toConfigWord
  | transport t => t.word
  | transportPort port => port.toConfigWord
  | dscp d => .ofDecimal d.toNat

/-- Where the opening brace of a block stands. -/
inductive ConfigBrace
  | sameLine (separator : ConfigSeparator)
  | nextLine (layout : ConfigLayout)

/-- A block of a collector. -/
structure CollectorBlock where
  header : ConfigLayout
  separator : ConfigSeparator
  name : ConfigValue
  brace : ConfigBrace
  settings : List (ConfigLayout × ConfigSeparator × CollectorSetting)
  close : ConfigLayout

/-- The lines that open a block. -/
def CollectorBlock.openingRows (block : CollectorBlock) : List ConfigRow :=
  match block.brace with
  | .sameLine separator => block.header.rows (.ofAscii "collector")
      [(block.separator, block.name.toConfigWord), (separator, .ofAscii "\x7b")]
  | .nextLine layout => block.header.rows (.ofAscii "collector")
      [(block.separator, block.name.toConfigWord)] ++ layout.rows (.ofAscii "\x7b") []

/-- The lines of settings in a block. -/
def settingRows (settings : List (ConfigLayout × ConfigSeparator × CollectorSetting)) :
    List ConfigRow :=
  settings.flatMap fun s => s.1.rows s.2.2.word [(s.2.1, s.2.2.value)]

/-- The lines of a block. -/
def CollectorBlock.rows (block : CollectorBlock) : List ConfigRow :=
  block.openingRows ++ settingRows block.settings ++ block.close.rows (.ofAscii "\x7d") []

/-- An item of a configuration. -/
inductive ConfigItem
  | setting (layout : ConfigLayout) (separator : ConfigSeparator) (name : ConfigVariable)
      (value : ConfigValue)
  | collector (block : CollectorBlock)

/-- The lines of an item. -/
def ConfigItem.rows : ConfigItem → List ConfigRow
  | setting layout separator name value =>
      layout.rows name.word [(separator, value.toConfigWord)]
  | collector block => block.rows

/-- A configuration file: items, and empty lines behind the last.  Every line is shorter than 4095
characters, not counting its line feed. -/
structure ConfigFile where
  items : List ConfigItem
  fillers : List ConfigLineEnd
  short : ∀ row ∈ items.flatMap ConfigItem.rows ++ fillers.map (rowOf []),
    row.1.length < sizeofConfigBuffer

/-- The lines of a file. -/
def ConfigFile.rows (file : ConfigFile) : List ConfigRow :=
  file.items.flatMap ConfigItem.rows ++ file.fillers.map (rowOf [])

/-- The text of a file. -/
def ConfigFile.text (file : ConfigFile) : CString := (file.rows.map Prod.fst).flatten

/-! ### What a file gives -/

/-- A collector without the addresses of its strings. -/
structure CollectorView where
  name : Option CString := none
  host : Option CString := none
  port : Option CString := none
  ipAddress : IpAddress := {}
  dscp : UInt8 := 0
  transport : Transport := .undefined
  ctx : Option Address := none
  deriving DecidableEq, Repr

/-- The content of a collector. -/
def CollectorInfo.view (collector : CollectorInfo) : CollectorView where
  name := collector.name.map ConfigString.value
  host := collector.host.map ConfigString.value
  port := collector.port.map ConfigString.value
  ipAddress := collector.ipAddress
  dscp := collector.dscp
  transport := collector.transport
  ctx := collector.ctx

/-- The variable of a setting of the switch. -/
def ConfigState.pointer (st : ConfigState) : ConfigVariable → Option ConfigString
  | .switchName => st.switchName
  | .switchApiHost => st.switchApiHost
  | .switchApiLogin => st.switchApiLogin
  | .switchApiPassword => st.switchApiPassword

/-- The contents of the variables and of the list. -/
@[ext]
structure ConfigView where
  values : ConfigVariable → Option CString := fun _ => none
  exportInterval : Timespan := timespanSetSeconds 60
  collectors : List CollectorView := []

/-- The contents of a state. -/
def ConfigState.view (st : ConfigState) : ConfigView where
  values v := (st.pointer v).map ConfigString.value
  exportInterval := st.exportInterval
  collectors := st.collectors.map CollectorInfo.view

/-- What a setting does to its collector. -/
def CollectorSetting.apply (collector : CollectorView) : CollectorSetting → CollectorView
  | ipAddress a b c d =>
      { collector with ipAddress := { value := ipAddressOf a b c d, hasValue := true } }
  | hostname host => { collector with host := some host.text }
  | transport t => { collector with transport := t.transport }
  | transportPort port => { collector with port := some port.text }
  | dscp d => { collector with dscp := d }

/-- The host name that a setting gives. -/
def CollectorSetting.givenHost : CollectorSetting → Option CString
  | hostname host => some host.text
  | _ => none

/-- The port that a setting gives. -/
def CollectorSetting.givenPort : CollectorSetting → Option CString
  | transportPort port => some port.text
  | _ => none

/-- The address that a setting gives. -/
def CollectorSetting.givenIpAddress : CollectorSetting → Option IpAddress
  | ipAddress a b c d => some { value := ipAddressOf a b c d, hasValue := true }
  | _ => none

/-- The DSCP that a setting gives. -/
def CollectorSetting.givenDscp : CollectorSetting → Option UInt8
  | dscp d => some d
  | _ => none

/-- The transport that a setting gives. -/
def CollectorSetting.givenTransport : CollectorSetting → Option Transport
  | transport t => some t.transport
  | _ => none

/-- The value of one kind that a block gives: the last, if there are several. -/
def CollectorBlock.given {α : Type} (block : CollectorBlock) (value : CollectorSetting → Option α) :
    Option α :=
  (block.settings.filterMap fun s => value s.2.2).getLast?

/-- The collector of a block: each field as it is given, and its default otherwise. -/
def CollectorBlock.view (block : CollectorBlock) : CollectorView where
  name := some block.name.text
  host := block.given CollectorSetting.givenHost
  port := some ((block.given CollectorSetting.givenPort).getD (ascii "4739"))
  ipAddress := (block.given CollectorSetting.givenIpAddress).getD {}
  dscp := (block.given CollectorSetting.givenDscp).getD 0
  transport := (block.given CollectorSetting.givenTransport).getD .udp

/-- The collector of an item, if it gives a host or an address. -/
def ConfigItem.listed : ConfigItem → Option CollectorView
  | setting .. => none
  | collector block =>
      if block.view.host ≠ none ∨ block.view.ipAddress.hasValue then some block.view else none

/-- The value that an item gives to a variable. -/
def ConfigItem.valueOf (v : ConfigVariable) : ConfigItem → Option CString
  | setting _ _ name value => if name = v then some value.text else none
  | collector _ => none

/-- **What a file gives.** -/
def ConfigFile.view (file : ConfigFile) : ConfigView where
  values v := (file.items.filterMap (ConfigItem.valueOf v)).getLast?
  collectors := (file.items.filterMap ConfigItem.listed).reverse

/-! ### A file -/

/-- A layout without empty lines. -/
def ConfigLayout.plain (indent : ConfigBlanks) : ConfigLayout := ⟨[], indent, ⟨⟨[], by simp⟩, none⟩⟩

/-- One blank. -/
def ConfigSeparator.single : ConfigSeparator := ⟨⟨ascii " ", by decide⟩, by decide⟩

/-- No blanks. -/
def ConfigBlanks.none : ConfigBlanks := ⟨[], by simp⟩

/-- A setting of the switch behind a comment, a collector with an address and a port, and one with
nothing but its transport. -/
def sampleConfigFile : ConfigFile where
  items :=
    [.setting ⟨[⟨.none, some ⟨ascii " a switch", by decide⟩⟩], .none, ⟨.none, none⟩⟩ .single
        .switchName ⟨⟨ascii "leaf1", by decide, by decide, by decide⟩, by decide⟩,
      .collector
        { header := .plain .none
          separator := .single
          name := ⟨⟨ascii "c1", by decide, by decide, by decide⟩, by decide⟩
          brace := .sameLine .single
          settings :=
            [(.plain ⟨ascii "\t", by decide⟩, .single, .ipAddress 10 0 0 1),
              (.plain ⟨ascii "\t", by decide⟩, .single,
                .transportPort ⟨⟨ascii "9992", by decide, by decide, by decide⟩, by decide⟩)]
          close := .plain .none },
      .collector
        { header := .plain .none
          separator := .single
          name := ⟨⟨ascii "c2", by decide, by decide, by decide⟩, by decide⟩
          brace := .nextLine (.plain .none)
          settings := [(.plain .none, .single, .transport .tcp)]
          close := .plain .none }]
  fillers := []
  short := by decide

example : sampleConfigFile.text = ascii ("# a switch\nswitch leaf1\ncollector c1 \x7b\n" ++
    "\tcollector-ip-address 10.0.0.1\n\ttransport-port 9992\n\x7d\ncollector c2\n\x7b\n" ++
    "transport tcp\n\x7d\n") := by decide +kernel

example : sampleConfigFile.view.collectors =
    [{ name := some (ascii "c1"), port := some (ascii "9992"), transport := .udp,
       ipAddress := { value := ipAddressOf 10 0 0 1, hasValue := true } }] := by decide

end NvIpfix
