/-
**Collectors are read without contexts.**

A collector of the list has a pointer for its export context, which no setting names.  The struct
that is copied into the list has been zeroed by then, so that the pointer is `NULL`, whatever the
stack held before.  An export may therefore start from the list as it has been read.

A line that does not fit into the buffer ends the reading, and so does one with a NUL character
before its end: what comes behind has no effect at all.

Main definitions:

* `NvIpfix.ConfigState.Unused` — no struct that has been zeroed has a context;
* `NvIpfix.Stops` — a text that starts with a line that cannot be read.

Main results:

* `NvIpfix.nvipfixConfigRead_ctx` — **the collectors of any file have no context**;
* `NvIpfix.nvipfixConfigRead_stops` — **from a line that cannot be read on, a file has no effect**.
-/

import NvIpfix.ConfigSafety
import NvIpfix.ConfigText

set_option relaxedAutoImplicit false
set_option autoImplicit false

namespace NvIpfix

/-! ### Contexts -/

/-- The struct has no context once it has been zeroed, and no collector of the list has one. -/
structure ConfigState.Unused (st : ConfigState) : Prop where
  collector : armed st.events = true → st.collector.ctx = none
  collectors : ∀ collector ∈ st.collectors, collector.ctx = none

section Contexts

variable {st : ConfigState}

/-- What a parser call leaves alone. -/
theorem parseValue_ctx (st : ConfigState) (parser : ConfigParser)
    (destination : Option ConfigField) (s : CString) :
    (st.parseValue parser destination s).collector.ctx = st.collector.ctx ∧
      (st.parseValue parser destination s).collectors = st.collectors ∧
      armed (st.parseValue parser destination s).events = armed st.events := by
  have harmed := armed_append_parse st.events parser destination
  cases destination with
  | none => exact ⟨rfl, rfl, harmed⟩
  | some field => cases parser <;> cases field <;> exact ⟨rfl, rfl, harmed⟩

theorem ConfigState.Unused.parseValue (hu : st.Unused) (parser : ConfigParser)
    (destination : Option ConfigField) (s : CString) :
    (st.parseValue parser destination s).Unused := by
  obtain ⟨hctx, hcollectors, harmed⟩ := parseValue_ctx st parser destination s
  refine ⟨fun h => ?_, ?_⟩
  · rw [hctx]
    exact hu.collector (harmed ▸ h)
  · rw [hcollectors]
    exact hu.collectors

/-- The defaults leave the context alone. -/
theorem defaults_ctx (st : ConfigState) :
    st.defaultPort.defaultTransport.collector.ctx = st.collector.ctx ∧
      st.defaultPort.defaultTransport.collectors = st.collectors := by
  have htransport : ∀ st : ConfigState, st.defaultTransport.collector.ctx = st.collector.ctx ∧
      st.defaultTransport.collectors = st.collectors := by
    intro st
    rw [ConfigState.defaultTransport]
    split <;> exact ⟨rfl, rfl⟩
  obtain ⟨hctx, hcollectors⟩ := htransport st.defaultPort
  rw [hctx, hcollectors, ConfigState.defaultPort]
  cases st.collector.port <;> exact ⟨rfl, rfl⟩

/-- The struct is copied into the list without a context, as it has been zeroed. -/
theorem ConfigState.Unused.addCollector (hu : st.Unused) (harmed : armed st.events = true) :
    st.addCollector.Unused := by
  have hlog : (st.log .addCollector).Unused :=
    ⟨fun _ => hu.collector harmed, hu.collectors⟩
  obtain ⟨hctx, hcollectors⟩ := defaults_ctx (st.log .addCollector)
  rw [ConfigState.addCollector]
  split
  · exact hlog
  · refine ⟨fun h => ?_, fun collector hmem => ?_⟩
    · exact absurd h (by simp [ConfigState.log])
    · rcases List.mem_cons.1 hmem with rfl | hmem
      · exact hctx.trans (hu.collector harmed)
      · rw [hcollectors] at hmem
        exact hu.collectors collector hmem

theorem ConfigState.Unused.configSettingToken (line : ConfigLine) (hu : line.config.Unused)
    (token : CString) : (configSettingToken line token).config.Unused := by
  cases hget : configGetSetting token line.config.parentId with
  | none => simpa only [NvIpfix.configSettingToken, hget] using hu
  | some setting =>
      by_cases hcollector : setting.id = .collector
      · simp only [NvIpfix.configSettingToken, hget, hcollector, ↓reduceIte]
        exact ⟨fun _ => rfl, hu.collectors⟩
      · simp only [NvIpfix.configSettingToken, hget, hcollector, ↓reduceIte]
        exact ⟨hu.collector, hu.collectors⟩

theorem ConfigState.Unused.configValueToken (line : ConfigLine) (hu : line.config.Unused)
    (token : CString) : (configValueToken line token).config.Unused := by
  cases hsetting : line.setting with
  | none => simpa only [NvIpfix.configValueToken, hsetting] using hu
  | some setting =>
      simp only [NvIpfix.configValueToken, hsetting]
      split
      · exact hu.parseValue _ _ token
      · split
        · exact hu.parseValue _ _ token
        · exact hu

/-- A token. -/
theorem ConfigState.Unused.configToken {line : ConfigLine} (hs : line.Safe)
    (hu : line.config.Unused) (token : CString) : (configToken line token).config.Unused := by
  simp only [NvIpfix.configToken]
  split
  · exact ⟨hu.collector, hu.collectors⟩
  · split
    · split
      · rename_i hblock
        have hadd := hu.addCollector (hs.config.block hblock)
        exact ⟨hadd.collector, hadd.collectors⟩
      · exact ⟨hu.collector, hu.collectors⟩
    · split
      · exact ConfigState.Unused.configSettingToken
          { line with tokenIndex := line.tokenIndex + 1 } hu token
      · split
        · exact ConfigState.Unused.configValueToken
            { line with tokenIndex := line.tokenIndex + 1 } hu token
        · exact hu

theorem ConfigState.Unused.configTokens (hs : st.Safe) (hu : st.Unused) (tokens : List CString) :
    (configTokens st tokens).Unused := by
  have hline : ∀ line : ConfigLine, line.Safe → line.config.Unused →
      (tokens.foldl NvIpfix.configToken line).config.Unused := by
    induction tokens with
    | nil => exact fun line _ hu => hu
    | cons token tokens ih =>
        exact fun line hs hu => ih _ (hs.configToken token) (hu.configToken hs token)
  exact hline { config := st } ⟨hs, fun hindex => absurd rfl hindex⟩ hu

theorem ConfigState.Unused.configLines (hs : st.Safe) (hu : st.Unused)
    (buffers : List (List UInt8)) : (configLines st buffers).Unused := by
  induction buffers generalizing st with
  | nil => exact hu
  | cons buffer buffers ih =>
      simp only [NvIpfix.configLines]
      split
      · exact hu
      · split
        · exact ih hs hu
        · split
          · exact hu
          · exact ih (hs.configTokens _) (ConfigState.Unused.configTokens hs hu _)

/-- **The collectors of any file have no context**, whatever the stack held. -/
theorem nvipfixConfigRead_ctx (stack : CollectorInfo) (file : Option (List UInt8)) :
    ∀ collector ∈ (nvipfixConfigRead stack file).collectors, collector.ctx = none := by
  have hstart : ({ collector := stack } : ConfigState).Unused :=
    ⟨fun h => absurd h (by simp [armed]), by simp⟩
  cases file with
  | none => exact hstart.collectors
  | some text =>
      exact (ConfigState.Unused.configLines (ConfigState.safe_start stack) hstart _).collectors

end Contexts

/-! ### Lines that cannot be read -/

/-- The text starts with a line that does not fit into the buffer, or that has a NUL character
before its end. -/
def Stops (text : CString) : Prop :=
  ∃ body rest, text = body ++ rest ∧ 10 ∉ body ∧
    (body.length + 1 = sizeofConfigBuffer ∨
      body.length + 1 < sizeofConfigBuffer ∧ rest.head? = some 0)

section Stops

variable {size : ℕ} {buffer body rest text : CString}

/-- A call of `fgets` goes on with what it has got. -/
theorem exists_fgetsCalls_append (hbuffer : buffer ≠ []) :
    ∃ more buffers, fgetsCalls size buffer text = (buffer ++ more) :: buffers := by
  induction text generalizing buffer with
  | nil =>
      rw [fgetsCalls, List.isEmpty_eq_false_iff.2 hbuffer]
      exact ⟨[], [], by simp⟩
  | cons c text ih =>
      simp only [fgetsCalls]
      split
      · exact ⟨[c], _, rfl⟩
      · obtain ⟨more, buffers, heq⟩ := @ih (buffer ++ [c]) (by simp)
        exact ⟨c :: more, buffers, by rw [heq, List.append_assoc, List.singleton_append]⟩

/-- A call of `fgets` ends when the buffer is full. -/
theorem fgetsCalls_full (hbody : 10 ∉ body) (hne : body ≠ [])
    (hfull : buffer.length + body.length + 1 = size) :
    fgetsCalls size buffer (body ++ rest) = (buffer ++ body) :: fgetsCalls size [] rest := by
  induction body generalizing buffer with
  | nil => exact absurd rfl hne
  | cons c body ih =>
      simp only [List.mem_cons, not_or] at hbody
      have hc : c ≠ 10 := fun h => hbody.1 h.symm
      rw [List.length_cons] at hfull
      rw [List.cons_append, fgetsCalls]
      by_cases hnil : body = []
      · subst hnil
        have hlast : (buffer ++ [c]).length + 1 = size := by simpa using hfull
        simp only [hc, decide_false, Bool.false_or, hlast, beq_self_eq_true, ↓reduceIte,
          List.nil_append]
      · have hpos := List.length_pos_iff.2 hnil
        have hroom : ¬ (buffer ++ [c]).length + 1 = size := by
          simp only [List.length_append, List.length_singleton]
          omega
        simp only [hc, decide_false, Bool.false_or, beq_iff_eq, hroom, ↓reduceIte]
        rw [ih hbody.2 hnil (by
          simp only [List.length_append, List.length_singleton]
          omega), List.append_assoc, List.singleton_append]

/-- A call of `fgets` reads on behind a NUL character. -/
theorem exists_fgetsCalls_nul (hbody : 10 ∉ body)
    (hshort : buffer.length + body.length + 1 < size) :
    ∃ more buffers, fgetsCalls size buffer (body ++ 0 :: rest) =
      (buffer ++ body ++ 0 :: more) :: buffers := by
  induction body generalizing buffer with
  | nil =>
      simp only [List.nil_append, List.append_nil, fgetsCalls]
      split
      · exact ⟨[], _, rfl⟩
      · obtain ⟨more, buffers, heq⟩ :=
          @exists_fgetsCalls_append size (buffer ++ [0]) rest (by simp)
        exact ⟨more, buffers, by rw [heq, List.append_assoc, List.singleton_append]⟩
  | cons c body ih =>
      simp only [List.mem_cons, not_or] at hbody
      have hc : c ≠ 10 := fun h => hbody.1 h.symm
      rw [List.length_cons] at hshort
      have hroom : ¬ (buffer ++ [c]).length + 1 = size := by
        simp only [List.length_append, List.length_singleton]
        omega
      rw [List.cons_append, fgetsCalls]
      simp only [hc, decide_false, Bool.false_or, beq_iff_eq, hroom, ↓reduceIte]
      obtain ⟨more, buffers, heq⟩ := @ih (buffer ++ [c]) hbody.2 (by
        simp only [List.length_append, List.length_singleton]
        omega)
      exact ⟨more, buffers, by rw [heq, ← List.append_cons]⟩

/-- The first call for such a text returns no line feed that `strchr` finds. -/
theorem Stops.exists_fgetsCalls (h : Stops text) :
    ∃ buffer buffers, fgetsCalls sizeofConfigBuffer [] text = buffer :: buffers ∧
      10 ∉ cstringOf buffer := by
  obtain ⟨body, rest, rfl, hbody, hfull | ⟨hshort, hnul⟩⟩ := h
  · have hne : body ≠ [] := by
      rintro rfl
      exact absurd hfull (by decide)
    refine ⟨body, _, fgetsCalls_full hbody hne (by simpa using hfull), fun hmem => hbody ?_⟩
    exact (List.takeWhile_sublist _).subset hmem
  · obtain ⟨rest, rfl⟩ : ∃ tail, rest = 0 :: tail := by
      cases rest with
      | nil => cases hnul
      | cons c rest =>
          obtain rfl := Option.some.inj hnul
          exact ⟨rest, rfl⟩
    obtain ⟨more, buffers, heq⟩ :=
      @exists_fgetsCalls_nul sizeofConfigBuffer [] body rest hbody (by simpa using hshort)
    refine ⟨_, buffers, heq, fun hmem => hbody ?_⟩
    rw [List.nil_append, cstringOf, List.takeWhile_append] at hmem
    split at hmem
    · rcases List.mem_append.1 hmem with hmem | hmem
      · exact hmem
      · simp at hmem
    · exact (List.takeWhile_sublist _).subset hmem

/-- The loop over the lines ends there. -/
theorem configLines_append_stop (st : ConfigState) (buffers rest : List (List UInt8))
    {buffer : List UInt8} (hbuffer : 10 ∉ cstringOf buffer) :
    configLines st (buffers ++ buffer :: rest) = configLines st buffers := by
  induction buffers generalizing st with
  | nil => simp only [List.nil_append, configLines, hbuffer, not_false_eq_true, ↓reduceIte]
  | cons first buffers ih => simp only [List.cons_append, configLines, ih]

/-- **From a line that cannot be read on, a file has no effect**, whatever it is and whatever is
behind it. -/
theorem nvipfixConfigRead_stops (stack : CollectorInfo) {lines : List CString}
    (hlines : ∀ line ∈ lines, 10 ∉ line ∧ line.length + 1 < sizeofConfigBuffer)
    (hstops : Stops text) :
    nvipfixConfigRead stack (some (lines.flatMap (· ++ [10]) ++ text)) =
      nvipfixConfigRead stack (some (lines.flatMap (· ++ [10]))) := by
  have hcalls : ∀ rest, fgetsCalls sizeofConfigBuffer [] (lines.flatMap (· ++ [10]) ++ rest) =
      lines.map (· ++ [10]) ++ fgetsCalls sizeofConfigBuffer [] rest := by
    intro rest
    induction lines with
    | nil => rfl
    | cons line lines ih =>
        obtain ⟨hlf, hshort⟩ := hlines line List.mem_cons_self
        rw [List.flatMap_cons, List.append_assoc, List.append_assoc, List.singleton_append,
          fgetsCalls_append _ _ _ _ hlf (by simpa using hshort), List.nil_append,
          ih fun line' hline => hlines line' (List.mem_cons_of_mem _ hline), List.map_cons,
          List.cons_append]
  obtain ⟨buffer, buffers, htext, hbuffer⟩ := hstops.exists_fgetsCalls
  have hfile := hcalls []
  rw [List.append_nil, fgetsCalls, List.isEmpty_nil, if_pos rfl, List.append_nil] at hfile
  rw [nvipfixConfigRead, nvipfixConfigRead, hcalls, htext, hfile,
    configLines_append_stop _ _ _ hbuffer]

/-- A line of a collector, and one with a NUL character. -/
theorem nvipfixConfigRead_stops_nul :
    nvipfixConfigRead {} (some ([ascii "collector a"].flatMap (· ++ [10]) ++
        (ascii "switch b" ++ 0 :: ascii "\nswitch c\n"))) =
      nvipfixConfigRead {} (some ([ascii "collector a"].flatMap (· ++ [10]))) :=
  nvipfixConfigRead_stops {} (by decide)
    ⟨ascii "switch b", _, rfl, by decide, .inr ⟨by decide, rfl⟩⟩

end Stops

end NvIpfix
