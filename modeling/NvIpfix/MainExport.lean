/-
**The hosts that records are exported to.**

`nvipfix_main_export` calls `nvipfix_export` for each collector of the list, with the host, the port
and the transport of the collector and with the context that the collector keeps.  A collector is
put in the list when it has a host or an address.  The address is written to the log only.

Main definitions:

* `NvIpfix.ipAddressToString` — `nvipfix_ip_address_to_string`;
* `NvIpfix.ExportRound`, `NvIpfix.nvipfixMainExport` — a call of `nvipfix_main_export`;
* `NvIpfix.ExportsToOwnAddress` — every collector is exported to its host, or else to its address;
* `NvIpfix.namesHosts` — actions that put no collector in the list without a host.

Main results:

* `NvIpfix.parseIpAddress_ipAddressToString` — **addresses survive being written and read**;
* `NvIpfix.MainState.hosts_round` — the hosts of a call are those of the list;
* `NvIpfix.exportsToOwnAddress_iff` — **when every collector is exported to its own address**.
-/

import NvIpfix.ConfigEffects
import NvIpfix.Export

set_option relaxedAutoImplicit false
set_option autoImplicit false

namespace NvIpfix

open CNumeral

/-! ### Addresses as text -/

/-- `NV_IPFIX_SIZE_STRING_IP_ADDRESS`. -/
def sizeStringIpAddress : ℕ := 3 * 4 + 3 + 1

/-- `nvipfix_ip_address_to_string` (no allocation failing). -/
def ipAddressToString (address : IpAddress) : CString :=
  (dottedQuad (address.value >>> 24).toUInt8 (address.value >>> 16).toUInt8
    (address.value >>> 8).toUInt8 address.value.toUInt8).take (sizeStringIpAddress - 1)

theorem length_decimal_octet (a : UInt8) : (decimal a.toNat).length ≤ 3 := by
  have hall : ∀ n < 256, (decimal n).length ≤ 3 := by decide +kernel
  exact hall a.toNat a.toNat_lt

/-- The buffer holds every dotted quad. -/
theorem length_dottedQuad (a b c d : UInt8) :
    (dottedQuad a b c d).length ≤ sizeStringIpAddress - 1 := by
  have ha := length_decimal_octet a
  have hb := length_decimal_octet b
  have hc := length_decimal_octet c
  have hd := length_decimal_octet d
  simp only [dottedQuad, List.length_append, List.length_cons, sizeStringIpAddress]
  omega

/-- The value of an address from its octets. -/
theorem toNat_ipAddressOf (a b c d : UInt8) : (ipAddressOf a b c d).toNat =
    a.toNat * 2 ^ 24 + (b.toNat * 2 ^ 16 + (c.toNat * 2 ^ 8 + d.toNat)) := by
  have hshift : ∀ {x k : ℕ}, x < 2 ^ 8 → k ≤ 24 → x <<< k % 2 ^ 32 = x * 2 ^ k := by
    intro x k hx hk
    rw [Nat.shiftLeft_eq]
    refine Nat.mod_eq_of_lt ?_
    calc x * 2 ^ k ≤ (2 ^ 8 - 1) * 2 ^ 24 :=
          Nat.mul_le_mul (by omega) (Nat.pow_le_pow_right (by omega) hk)
      _ < 2 ^ 32 := by omega
  have hor : ∀ {x y : ℕ} (k : ℕ), y < 2 ^ k → x * 2 ^ k ||| y = x * 2 ^ k + y := by
    intro x y k hy
    rw [Nat.mul_comm, Nat.two_pow_add_eq_or_of_lt hy]
  have ha := a.toNat_lt
  have hb := b.toNat_lt
  have hc := c.toNat_lt
  have hd := d.toNat_lt
  have hvalue : (ipAddressOf a b c d).toNat = a.toNat <<< 24 % 2 ^ 32 |||
      b.toNat <<< 16 % 2 ^ 32 ||| c.toNat <<< 8 % 2 ^ 32 ||| d.toNat := by
    simp [ipAddressOf]
  rw [hvalue, hshift ha (by omega), hshift hb (by omega), hshift hc (by omega), Nat.or_assoc,
    Nat.or_assoc, hor 8 hd, hor 16 (by omega), hor 24 (by omega)]

/-- An octet of a value. -/
theorem toNat_toUInt8_shiftRight (value : UInt32) {k : UInt32} (hk : k.toNat < 32) :
    (value >>> k).toUInt8.toNat = value.toNat / 2 ^ k.toNat % 2 ^ 8 := by
  rw [UInt32.toNat_toUInt8, UInt32.toNat_shiftRight, Nat.mod_eq_of_lt hk, Nat.shiftRight_eq_div_pow]

/-- An address is written as the dotted quad that it is read from. -/
theorem ipAddressToString_ipAddressOf (a b c d : UInt8) (hasValue : Bool) :
    ipAddressToString { value := ipAddressOf a b c d, hasValue } = dottedQuad a b c d := by
  have ha := a.toNat_lt
  have hb := b.toNat_lt
  have hc := c.toNat_lt
  have hd := d.toNat_lt
  have hoctet : ∀ (k : UInt32) (x : UInt8), k.toNat < 32 →
      (ipAddressOf a b c d).toNat / 2 ^ k.toNat % 2 ^ 8 = x.toNat →
      (ipAddressOf a b c d >>> k).toUInt8 = x := by
    intro k x hk hx
    rw [← UInt8.toNat_inj, ← hx, toNat_toUInt8_shiftRight _ hk]
  have hvalue := toNat_ipAddressOf a b c d
  have h24 := hoctet 24 a (by decide) (by simp only [UInt32.reduceToNat]; omega)
  have h16 := hoctet 16 b (by decide) (by simp only [UInt32.reduceToNat]; omega)
  have h8 := hoctet 8 c (by decide) (by simp only [UInt32.reduceToNat]; omega)
  have h0 : (ipAddressOf a b c d).toUInt8 = d := by
    rw [← UInt8.toNat_inj, UInt32.toNat_toUInt8]
    omega
  rw [ipAddressToString, List.take_of_length_le (length_dottedQuad _ _ _ _)]
  simp only [h24, h16, h8, h0]

/-- An address has the value of its octets. -/
theorem ipAddressOf_octets (value : UInt32) :
    ipAddressOf (value >>> 24).toUInt8 (value >>> 16).toUInt8 (value >>> 8).toUInt8
      value.toUInt8 = value := by
  have hlt := value.toNat_lt
  refine UInt32.toNat_inj.1 ?_
  rw [toNat_ipAddressOf, toNat_toUInt8_shiftRight value (k := 24) (by decide),
    toNat_toUInt8_shiftRight value (k := 16) (by decide),
    toNat_toUInt8_shiftRight value (k := 8) (by decide), UInt32.toNat_toUInt8]
  simp only [UInt32.reduceToNat]
  omega

/-- **Addresses survive being written and read**: the buffer holds the whole text, and the text
restores the address. -/
theorem parseIpAddress_ipAddressToString (address old : IpAddress) :
    ipAddressToString address =
        dottedQuad (address.value >>> 24).toUInt8 (address.value >>> 16).toUInt8
          (address.value >>> 8).toUInt8 address.value.toUInt8 ∧
      parseIpAddress (ipAddressToString address) old =
        (true, { value := address.value, hasValue := true }) := by
  have htext : ipAddressToString address =
      dottedQuad (address.value >>> 24).toUInt8 (address.value >>> 16).toUInt8
        (address.value >>> 8).toUInt8 address.value.toUInt8 :=
    List.take_of_length_le (length_dottedQuad _ _ _ _)
  refine ⟨htext, ?_⟩
  rw [htext, parseIpAddress_dottedQuad, ipAddressOf_octets]

/-! ### Exporting to the list -/

/-- A call of `nvipfix_main_export`: its arguments, and what the library calls inside the `i`-th
call of `nvipfix_export` return. -/
structure ExportRound where
  outcomes : ℕ → ExportOutcomes
  calendar : Calendar
  data : Option (List DataRecord)
  startTs : Datetime
  endTs : Datetime

/-- The list, whose collectors keep their contexts, and the heap. -/
structure MainState where
  collectors : List CollectorInfo
  heap : ExportHeap := {}

/-- The arguments of `nvipfix_export` for a collector. -/
def mainExportArgs (round : ExportRound) (data : List DataRecord) (collector : CollectorInfo) :
    ExportArgs where
  host := collector.host.map ConfigString.value
  port := collector.port.map ConfigString.value
  transport := collector.transport
  data := data
  startTs := round.startTs
  endTs := round.endTs

/-- The loop over the list, from the `i`-th collector on: the calls of `nvipfix_export`, and the
list and the heap behind them. -/
def mainExportLoop (round : ExportRound) (data : List DataRecord) :
    ℕ → List CollectorInfo → ExportHeap → List ExportArgs × MainState
  | _, [], h => ([], { collectors := [], heap := h })
  | i, collector :: collectors, h =>
      let args := mainExportArgs round data collector
      let (_, ctx, h) := nvipfixExport (round.outcomes i) round.calendar args collector.ctx h
      let (calls, st) := mainExportLoop round data (i + 1) collectors h
      (args :: calls, { st with collectors := { collector with ctx } :: st.collectors })

/-- `nvipfix_main_export`, which does nothing without records. -/
def nvipfixMainExport (st : MainState) (round : ExportRound) : List ExportArgs × MainState :=
  match round.data with
  | none => ([], st)
  | some data => mainExportLoop round data 0 st.collectors st.heap

namespace MainState

/-- The state behind calls of `nvipfix_main_export`. -/
def after (st : MainState) (rounds : List ExportRound) : MainState :=
  rounds.foldl (fun st round => (nvipfixMainExport st round).2) st

/-- A collector as `nvipfix_main_export` finds it, apart from its context. -/
def destination (collector : CollectorInfo) : CollectorInfo := { collector with ctx := none }

theorem mainExportLoop_collectors (round : ExportRound) (data : List DataRecord) (i : ℕ)
    (collectors : List CollectorInfo) (h : ExportHeap) :
    (mainExportLoop round data i collectors h).2.collectors.map destination =
      collectors.map destination := by
  induction collectors generalizing i h with
  | nil => rfl
  | cons collector collectors ih =>
      simp only [mainExportLoop, List.map_cons, ih]
      rfl

/-- Exporting changes the contexts only. -/
theorem after_collectors (st : MainState) (rounds : List ExportRound) :
    (st.after rounds).collectors.map destination = st.collectors.map destination := by
  induction rounds generalizing st with
  | nil => rfl
  | cons round rounds ih =>
      have hround : (nvipfixMainExport st round).2.collectors.map destination =
          st.collectors.map destination := by
        rw [nvipfixMainExport]
        cases round.data with
        | none => rfl
        | some data => exact mainExportLoop_collectors round data 0 st.collectors st.heap
      exact (ih _).trans hround

theorem mainExportLoop_calls (round : ExportRound) (data : List DataRecord) (i : ℕ)
    (collectors : List CollectorInfo) (h : ExportHeap) :
    (mainExportLoop round data i collectors h).1 =
      collectors.map (mainExportArgs round data) := by
  induction collectors generalizing i h with
  | nil => rfl
  | cons collector collectors ih => simp only [mainExportLoop, List.map_cons, ih]

/-- **The hosts of a call are those of the list**, whatever has been exported before. -/
theorem hosts_round (st : MainState) (rounds : List ExportRound) {round : ExportRound}
    {data : List DataRecord} (hdata : round.data = some data) :
    (nvipfixMainExport (st.after rounds) round).1.map ExportArgs.host =
      st.collectors.map fun collector => collector.host.map ConfigString.value := by
  have hhost : ∀ collectors : List CollectorInfo,
      (collectors.map fun collector => collector.host.map ConfigString.value) =
        (collectors.map destination).map fun collector =>
          collector.host.map ConfigString.value := by
    intro collectors
    rw [List.map_map]
    rfl
  rw [nvipfixMainExport, hdata]
  simp only [mainExportLoop_calls, List.map_map]
  rw [hhost st.collectors, ← after_collectors st rounds, ← hhost]
  rfl

end MainState

/-! ### Own addresses -/

/-- The host name of a collector, or else its address as text. -/
def CollectorInfo.ownAddress (collector : CollectorInfo) : CString :=
  (collector.host.map ConfigString.value).getD (ipAddressToString collector.ipAddress)

/-- Whatever is exported before, records are exported to the own address of each collector. -/
def ExportsToOwnAddress (collectors : List CollectorInfo) : Prop :=
  ∀ (heap : ExportHeap) (rounds : List ExportRound) (round : ExportRound) (data : List DataRecord),
    round.data = some data →
      (nvipfixMainExport (MainState.after { collectors, heap } rounds) round).1.map
        ExportArgs.host = collectors.map fun collector => some collector.ownAddress

/-- No collector is put in the list without a host. -/
def namesHosts : Reach → List ConfigAction → Bool
  | _, [] => true
  | r, action :: actions =>
      !(action == .close && r.address && !r.host) && namesHosts (r.next action) actions

/-- Records are exported to the own addresses of collectors that have hosts. -/
theorem exportsToOwnAddress_iff_host (collectors : List CollectorInfo) :
    ExportsToOwnAddress collectors ↔ ∀ collector ∈ collectors, collector.host ≠ none := by
  constructor
  · intro h collector hmem hnone
    let round : ExportRound :=
      { outcomes := fun _ => {}, calendar := .epoch, data := some [], startTs := {}, endTs := {} }
    have hhosts := h {} [] round [] rfl
    rw [MainState.hosts_round _ _ rfl, List.map_inj_left] at hhosts
    have hown := hhosts collector hmem
    rw [hnone] at hown
    cases hown
  · intro h heap rounds round data hdata
    rw [MainState.hosts_round _ _ hdata]
    refine List.map_congr_left fun collector hmem => ?_
    obtain ⟨host, hhost⟩ := Option.ne_none_iff_exists'.1 (h collector hmem)
    rw [CollectorInfo.ownAddress, hhost]
    rfl

/-- A run puts no collector in the list without a host. -/
theorem run_namesHosts_iff (d : ConfigData) (actions : List ConfigAction) :
    (∀ collector ∈ (d.run actions).view.collectors, collector.host ≠ none) ↔
      (∀ collector ∈ d.view.collectors, collector.host ≠ none) ∧
        namesHosts d.reach actions = true := by
  induction actions generalizing d with
  | nil => simp [ConfigData.run, namesHosts]
  | cons action actions ih =>
      rw [ConfigData.run_cons, ih, reach_act, namesHosts]
      cases action with
      | zero => simp [ConfigData.act]
      | store field value => simp [ConfigData.act, store_collectors]
      | close =>
          have hhost : d.reach.host = d.collector.host.isSome := rfl
          by_cases h : d.reach.listed
          · have hwith : d.collector.withDefaults.host = d.collector.host := rfl
            have haddress : d.reach.host = false → d.reach.address = true := by
              intro hnone
              simpa [Reach.listed, hnone] using h
            rw [ConfigData.act, close_of_listed d h]
            cases hd : d.collector.host with
            | none =>
                rw [hd] at hhost
                simp [hwith, hd, hhost, haddress hhost]
            | some host =>
                rw [hd] at hhost
                simp [hwith, hd, hhost]
          · rw [ConfigData.act, close_of_not_listed d h]
            simp only [Reach.listed, Bool.or_eq_true, not_or, Bool.not_eq_true] at h
            simp [h]

/-! ### The struct before the first block -/

/-- The machine has not found a collector setting yet. -/
structure ConfigControl.Outside (c : ConfigControl) : Prop where
  id : c.id ≠ .collector
  parentId : c.parentId ≠ .collector
  setting : ∀ setting ∈ c.setting, ∀ field ∈ setting.value, field.ofCollector = false

namespace ConfigControl

variable {c : ConfigControl}

theorem Outside.newLine (h : c.Outside) : c.newLine.Outside :=
  ⟨h.id, h.parentId, fun _ hmem => by cases hmem⟩

/-- Outside of blocks a token zeroes the struct, or gives a value to a variable at most. -/
theorem Outside.token (h : c.Outside) (token : CString) :
    c.action token = some .zero ∨ (c.next token).Outside ∧ ∀ action ∈ c.action token,
      ∃ field value, action = .store field value ∧ field.ofCollector = false := by
  have hvalue : ∀ setting ∈ settings, ∀ field ∈ setting.value, field.ofCollector = false := by
    decide
  by_cases hopen : token.head? = some 123
  · simp only [next, action, hopen, ↓reduceIte]
    exact .inr ⟨⟨h.id, h.id, h.setting⟩, by simp⟩
  by_cases hclose : token.head? = some 125
  · simp only [next, action, hclose, h.parentId, ↓reduceIte]
    exact .inr ⟨⟨h.id, by simp, h.setting⟩, by simp⟩
  by_cases hfirst : c.tokenIndex = 0
  · cases hget : configGetSetting token c.parentId with
    | none =>
        simp only [next, action, hopen, hclose, hfirst, find, hget, ↓reduceIte]
        exact .inr ⟨⟨h.id, h.parentId, by simp⟩, by simp⟩
    | some setting =>
        have hmem : setting ∈ settings := List.mem_of_find?_eq_some hget
        by_cases hid : setting.id = .collector
        · simp only [action, hopen, hclose, hfirst, find, hget, hid, ↓reduceIte]
          exact .inl (by simp [hid])
        · simp only [next, action, hopen, hclose, hfirst, find, hget, hid, ↓reduceIte]
          refine .inr ⟨⟨hid, h.parentId, fun setting' hsetting => ?_⟩, by simp [hid]⟩
          exact hvalue setting' (Option.some.inj hsetting ▸ hmem)
  · simp only [next, action, hopen, hclose, hfirst, ↓reduceIte]
    refine .inr ⟨⟨h.id, h.parentId, h.setting⟩, fun action haction => ?_⟩
    by_cases hsecond : c.tokenIndex = 1
    · rw [if_pos hsecond, Option.mem_map] at haction
      obtain ⟨field, hfield, rfl⟩ := haction
      refine ⟨field, token, rfl, ?_⟩
      rw [destination, Option.mem_def, Option.bind_eq_some_iff] at hfield
      obtain ⟨setting, hsetting, hfield⟩ := hfield
      rw [if_neg h.parentId] at hfield
      by_cases houtside : c.parentId = .none
      · rw [if_pos houtside] at hfield
        exact h.setting setting hsetting field hfield
      · rw [if_neg houtside] at hfield
        cases hfield
    · rw [if_neg hsecond] at haction
      cases haction

end ConfigControl

/-- What the struct holds in front of the first block does not matter. -/
theorem namesHosts_actions {c : ConfigControl} (h : c.Outside) (tokens : List CString)
    {actions : List ConfigAction}
    (hactions : (tokens.foldl ConfigControl.next c).Outside →
      ∀ r r', namesHosts r actions = namesHosts r' actions) (r r' : Reach) :
    namesHosts r (c.actions tokens ++ actions) = namesHosts r' (c.actions tokens ++ actions) := by
  induction tokens generalizing c with
  | nil => exact hactions h r r'
  | cons token tokens ih =>
      rw [ConfigControl.actions, List.append_assoc]
      rcases h.token token with hzero | ⟨hnext, hstore⟩
      · rw [hzero]
        rfl
      · have hrest := ih hnext hactions
        cases haction : c.action token with
        | none => exact hrest
        | some action =>
            obtain ⟨field, value, rfl, hfield⟩ := hstore action haction
            have hreach : ∀ r : Reach, r.next (.store field value) = r := by
              intro r
              cases field <;> first | rfl | cases hfield
            have hclose : (ConfigAction.store field value == .close) = false := rfl
            simp only [Option.toList_some, List.singleton_append, namesHosts, hclose, hreach, hrest,
              Bool.false_and]

theorem namesHosts_linesActions {c : ConfigControl} (h : c.Outside) (buffers : List (List UInt8))
    (r r' : Reach) :
    namesHosts r (c.linesActions buffers) = namesHosts r' (c.linesActions buffers) := by
  induction buffers generalizing c r r' with
  | nil => rfl
  | cons buffer buffers ih =>
      simp only [ConfigControl.linesActions]
      split
      · rfl
      · split
        · exact ih h r r'
        · cases stringSplit (configIsEmptyLine true (cstringOf buffer)).2 (ascii " \t\n\r") with
          | none => rfl
          | some tokens =>
              exact namesHosts_actions h.newLine tokens (fun hnext => ih hnext) r r'

/-- **When every collector is exported to its own address**: every closing brace that finds an
address in the struct finds a host in it. -/
theorem exportsToOwnAddress_iff (stack : CollectorInfo) (text : List UInt8) :
    ExportsToOwnAddress (nvipfixConfigRead stack (some text)).collectors ↔
      namesHosts {} (configActions text) = true := by
  have houtside : ConfigControl.Outside {} := ⟨by decide, by decide, by simp⟩
  have hview : (nvipfixConfigRead stack (some text)).collectors.map CollectorInfo.view =
      ((ConfigData.run { collector := stack.view } (configActions text)).view.collectors) :=
    congrArg (·.view.collectors) (nvipfixConfigRead_data stack text)
  have hrun := run_namesHosts_iff { collector := stack.view } (configActions text)
  rw [← hview, List.forall_mem_map] at hrun
  rw [exportsToOwnAddress_iff_host, configActions, namesHosts_linesActions houtside _ {}
    (ConfigData.reach { collector := stack.view }), ← configActions]
  simpa [CollectorInfo.view] using hrun

/-- A collector with an address and no host is exported to no host. -/
theorem nvipfixMainExport_noHost :
    let st := nvipfixConfigRead {}
      (some (ascii "collector c \x7b\ncollector-ip-address 10.0.0.1\n\x7d\n"))
    let round : ExportRound :=
      { outcomes := fun _ => {}, calendar := .epoch, data := some [], startTs := {}, endTs := {} }
    st.collectors.map CollectorInfo.ownAddress = [ascii "10.0.0.1"] ∧
      (nvipfixMainExport { collectors := st.collectors } round).1.map ExportArgs.host = [none] ∧
      ¬ ExportsToOwnAddress st.collectors := by
  refine ⟨by decide +kernel, by decide +kernel, ?_⟩
  rw [exportsToOwnAddress_iff_host]
  decide +kernel

end NvIpfix
