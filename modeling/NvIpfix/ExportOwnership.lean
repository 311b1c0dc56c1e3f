/-
**Contexts do not share objects.**

The contexts of different collectors keep their counters, sessions and buffers to themselves.  Who
keeps an object is recorded by a map from addresses to contexts, which a context and all of its
parts lead back to.  A call of `nvipfix_export` touches nothing but the objects of one context:
whatever else happens in it, the objects of every other context stay as they are, and nothing is
handed to a buffer of theirs.

Main definitions:

* `NvIpfix.ExportHeap.OwnedBy` — a map says who keeps the objects of a heap;
* `NvIpfix.ExportHeap.Local` — a change that touches the objects of one context.

Main results:

* `NvIpfix.local_exportSend`, `NvIpfix.local_exportErrorPath` — sending and the error paths;
* `NvIpfix.exists_local_nvipfixExport` — **a call touches the objects of one context**.
-/

import NvIpfix.ExportCalls

set_option relaxedAutoImplicit false
set_option autoImplicit false

namespace NvIpfix

/-! ### Owners -/

/-- The objects that a context keeps. -/
def CollectorPrivate.parts (priv : CollectorPrivate) : List Address :=
  [priv.collector, priv.session, priv.buffer].filterMap id

theorem CollectorPrivate.mem_parts {priv : CollectorPrivate} {x : Address} : x ∈ priv.parts ↔
    priv.collector = some x ∨ priv.session = some x ∨ priv.buffer = some x := by
  rw [parts, List.mem_filterMap]
  simp [eq_comm (a := some x)]

/-- The buffer that a call of fixbuf is about. -/
def FixbufCall.buffer : FixbufCall → Option Address
  | .exporterAllocNet _ _ _ _ => none
  | .append buffer _ _ => buffer
  | .appendStats buffer _ _ => buffer
  | .emit buffer _ => buffer

/-- The objects of a heap are older than the next one, and the map leads from the parts of a
context to the context, and from a session to the context of its buffer. -/
structure ExportHeap.OwnedBy (h : ExportHeap) (owner : Address → Address) : Prop where
  privates : ∀ a priv, h.privates a = some priv →
    a < h.next ∧ owner a = a ∧ ∀ x ∈ priv.parts, x < h.next ∧ owner x = a
  buffers : ∀ b s, h.buffers b = some s → b < h.next ∧ s < h.next ∧ owner s = owner b

/-- A change of a heap that touches the objects of the context at `a`. -/
structure ExportHeap.Local (owner : Address → Address) (a : Address) (h h' : ExportHeap) :
    Prop where
  next_le : h.next ≤ h'.next
  owned : h.OwnedBy owner → h'.OwnedBy owner
  privates : ∀ x, owner x ≠ a → h'.privates x = h.privates x
  collectors : ∀ x, owner x ≠ a → h'.collectors x = h.collectors x
  sessions : ∀ x, owner x ≠ a → h'.sessions x = h.sessions x
  buffers : ∀ x, owner x ≠ a → h'.buffers x = h.buffers x
  calls : ∃ new, h'.calls = h.calls ++ new ∧
    ∀ call ∈ new, ∀ b ∈ call.buffer, b < h'.next ∧ owner b = a

namespace ExportHeap

variable {owner : Address → Address} {a x : Address} {h h' h'' : ExportHeap}

namespace Local

theorem refl (owner : Address → Address) (a : Address) (h : ExportHeap) : Local owner a h h where
  next_le := Nat.le_refl _
  owned hown := hown
  privates _ _ := rfl
  collectors _ _ := rfl
  sessions _ _ := rfl
  buffers _ _ := rfl
  calls := ⟨[], by simp, by simp⟩

theorem trans (hl : Local owner a h h') (hr : Local owner a h' h'') : Local owner a h h'' where
  next_le := hl.next_le.trans hr.next_le
  owned hown := hr.owned (hl.owned hown)
  privates x hx := (hr.privates x hx).trans (hl.privates x hx)
  collectors x hx := (hr.collectors x hx).trans (hl.collectors x hx)
  sessions x hx := (hr.sessions x hx).trans (hl.sessions x hx)
  buffers x hx := (hr.buffers x hx).trans (hl.buffers x hx)
  calls := by
    obtain ⟨new, hnew, hbuffer⟩ := hl.calls
    obtain ⟨new', hnew', hbuffer'⟩ := hr.calls
    refine ⟨new ++ new', by rw [hnew', hnew, List.append_assoc], ?_⟩
    intro call hcall b hb
    rcases List.mem_append.1 hcall with hcall | hcall
    · obtain ⟨hlt, howner⟩ := hbuffer call hcall b hb
      exact ⟨hlt.trans_le hr.next_le, howner⟩
    · exact hbuffer' call hcall b hb

/-- **The context of another owner stays as it is.** -/
theorem isContext (hl : Local owner a h h') (hown : h.OwnedBy owner)
    {a' collector session buffer : Address} {priv : CollectorPrivate} (hne : a' ≠ a)
    (hctx : h.IsContext a' priv collector session buffer) :
    h'.IsContext a' priv collector session buffer := by
  obtain ⟨-, hself, hparts⟩ := hown.privates a' priv hctx.privates
  have hpart : ∀ x ∈ priv.parts, owner x ≠ a := fun x hx => (hparts x hx).2 ▸ hne
  refine ⟨?_, hctx.collector_eq, hctx.session_eq, hctx.buffer_eq, ?_, ?_, ?_⟩
  · rw [hl.privates a' (hself.symm ▸ hne), hctx.privates]
  · rw [hl.collectors _ (hpart _ (CollectorPrivate.mem_parts.2 (.inl hctx.collector_eq)))]
    exact hctx.collectors
  · rw [hl.sessions _ (hpart _ (CollectorPrivate.mem_parts.2 (.inr (.inl hctx.session_eq)))),
      hctx.sessions]
  · rw [hl.buffers _ (hpart _ (CollectorPrivate.mem_parts.2 (.inr (.inr hctx.buffer_eq)))),
      hctx.buffers]

end Local

/-! ### Single operations -/

theorem update_of_owner_ne {β : Type} {f : Address → β} {value : β} (hx : owner x = a) (y : Address)
    (hy : owner y ≠ a) : Function.update f x value y = f y := by
  refine Function.update_of_ne ?_ value f
  rintro rfl
  exact hy hx

/-- What is found behind a write. -/
theorem update_eq_some {β : Type} {f : Address → Option β} {value : Option β} {y : Address} {b : β}
    (h : Function.update f x value y = some b) : y = x ∧ value = some b ∨ f y = some b := by
  by_cases hyx : y = x
  · subst hyx
    rw [Function.update_self] at h
    exact .inl ⟨rfl, h⟩
  · rw [Function.update_of_ne hyx] at h
    exact .inr h

theorem local_require (live : Bool) : Local owner a h (h.require live) :=
  { Local.refl owner a h with owned := fun hown => ⟨hown.privates, hown.buffers⟩ }

/-- Buffers of the context may be called. -/
theorem local_calls {new : List FixbufCall}
    (hnew : ∀ call ∈ new, ∀ b ∈ call.buffer, b < h.next ∧ owner b = a) :
    Local owner a h { h with calls := h.calls ++ new } :=
  { Local.refl owner a h with
    owned := fun hown => ⟨hown.privates, hown.buffers⟩
    calls := ⟨new, rfl, hnew⟩ }

theorem local_call {c : FixbufCall} (hc : ∀ b ∈ c.buffer, b < h.next ∧ owner b = a) :
    Local owner a h (h.call c) := by
  refine local_calls ?_
  intro call hcall
  rw [List.mem_singleton.1 hcall]
  exact hc

/-- A context may be stored that keeps what is its own. -/
theorem local_setPrivate (hx : owner x = a) {content : Option CollectorPrivate}
    (hcontent : ∀ priv ∈ content, x < h.next ∧ x = a ∧
      ∀ y ∈ priv.parts, y < h.next ∧ owner y = a) :
    Local owner a h (h.setPrivate x content) :=
  { Local.refl owner a h with
    privates := update_of_owner_ne hx
    owned := by
      intro hown
      refine ⟨?_, hown.buffers⟩
      intro y priv hy
      rcases update_eq_some hy with ⟨rfl, hpriv⟩ | hy
      · obtain ⟨hlt, rfl, hparts⟩ := hcontent priv hpriv
        exact ⟨hlt, hx, hparts⟩
      · exact hown.privates y priv hy }

/-- A change goes on with a call of a buffer that was there before it. -/
theorem Local.call (hl : Local owner a h h') {c : FixbufCall}
    (hc : ∀ b ∈ c.buffer, b < h.next ∧ owner b = a) : Local owner a h (h'.call c) := by
  refine hl.trans (local_call ?_)
  intro b hb
  obtain ⟨hlt, howner⟩ := hc b hb
  exact ⟨hlt.trans_le hl.next_le, howner⟩

theorem local_setCollector (hx : owner x = a) (totals : Option CollectorTotals) :
    Local owner a h (h.setCollector x totals) :=
  { Local.refl owner a h with
    collectors := update_of_owner_ne hx
    owned := fun hown => ⟨hown.privates, hown.buffers⟩ }

theorem local_freePrivate (hx : owner x = a) : Local owner a h (h.freePrivate x) :=
  (local_require _).trans (local_setPrivate hx (by simp))

theorem local_freeCollector (hx : owner x = a) : Local owner a h (h.freeCollector x) :=
  (local_require _).trans (local_setCollector hx none)

theorem local_setSession (hx : owner x = a) (live : Bool) :
    Local owner a h { h with sessions := Function.update h.sessions x live } :=
  { Local.refl owner a h with
    sessions := update_of_owner_ne hx
    owned := fun hown => ⟨hown.privates, hown.buffers⟩
    calls := ⟨[], by simp, by simp⟩ }

/-- A buffer may be stored with a session of the same owner. -/
theorem local_setBuffer (hx : owner x = a) {session : Option Address}
    (hsession : ∀ s ∈ session, x < h.next ∧ s < h.next ∧ owner s = a) :
    Local owner a h { h with buffers := Function.update h.buffers x session } :=
  { Local.refl owner a h with
    buffers := update_of_owner_ne hx
    calls := ⟨[], by simp, by simp⟩
    owned := by
      intro hown
      refine ⟨hown.privates, ?_⟩
      intro y s hy
      rcases update_eq_some hy with ⟨rfl, hs⟩ | hy
      · obtain ⟨hlt, hslt, howner⟩ := hsession s hs
        exact ⟨hlt, hslt, howner.trans hx.symm⟩
      · exact hown.buffers y s hy }

/-- The counter of a heap goes up. -/
theorem local_next : Local owner a h { h with next := h.next + 1 } :=
  { Local.refl owner a h with
    next_le := Nat.le_succ _
    calls := ⟨[], by simp, by simp⟩
    owned := by
      intro hown
      constructor
      · intro y priv hy
        obtain ⟨hlt, hself, hparts⟩ := hown.privates y priv hy
        refine ⟨hlt.trans (Nat.lt_succ_self _), hself, ?_⟩
        intro x hx
        obtain ⟨hlt, howner⟩ := hparts x hx
        exact ⟨hlt.trans (Nat.lt_succ_self _), howner⟩
      · intro b s hb
        obtain ⟨hlt, hslt, howner⟩ := hown.buffers b s hb
        exact ⟨hlt.trans (Nat.lt_succ_self _), hslt.trans (Nat.lt_succ_self _), howner⟩ }

/-- Releasing a buffer releases its session, which has the same owner. -/
theorem local_fBufFree {p : Option Address} (hp : ∀ b ∈ p, owner b = a) (hown : h.OwnedBy owner) :
    Local owner a h (h.fBufFree p) := by
  cases p with
  | none => exact Local.refl owner a h
  | some b =>
      have hb : owner b = a := hp b rfl
      cases hbuffer : h.buffers b with
      | none =>
          simp only [fBufFree, hbuffer]
          exact local_require false
      | some s =>
          have hs : owner s = a := (hown.buffers b s hbuffer).2.2.trans hb
          have hfree : Local owner a h (h.fbSessionFree s) :=
            (local_require _).trans (local_setSession hs false)
          simp only [fBufFree, hbuffer]
          exact hfree.trans (local_setBuffer hb (by simp))

end ExportHeap

/-! ### Sending and the error paths -/

section Use

open ExportHeap

variable {owner : Address → Address} {a : Address} {h : ExportHeap}

/-- The loop over the records calls its buffer. -/
theorem local_exportAppend (o : ExportOutcomes) (calendar : Calendar) (startTs endTs : UInt32)
    (buffer : Option Address) (hbuffer : ∀ b ∈ buffer, b < h.next ∧ owner b = a)
    (records : List DataRecord) (i : ℕ) (recordCount : Int32) :
    Local owner a h
      (exportAppend o calendar startTs endTs buffer i records recordCount h).2 := by
  rw [exportAppend_calls]
  refine local_calls ?_
  intro call hcall
  obtain ⟨p, -, rfl⟩ := List.mem_map.1 hcall
  exact hbuffer

/-- Sending touches the objects of the context that it sends from. -/
theorem local_exportSend (o : ExportOutcomes) (calendar : Calendar) (args : ExportArgs)
    {priv : CollectorPrivate} (hpriv : ∀ x ∈ priv.parts, x < h.next ∧ owner x = a) :
    Local owner a h (exportSend o calendar args priv h).2 := by
  have hbuffer : ∀ b ∈ priv.buffer, b < h.next ∧ owner b = a := by
    intro b hb
    exact hpriv b (CollectorPrivate.mem_parts.2 (.inr (.inr hb)))
  have hrequire : Local owner a h ((h.require (h.isSession priv.session)).require
      ((h.require (h.isSession priv.session)).isBuffer priv.buffer)) :=
    (local_require _).trans (local_require _)
  simp only [exportSend]
  split
  · exact hrequire
  · generalize (h.require (h.isSession priv.session)).require
      ((h.require (h.isSession priv.session)).isBuffer priv.buffer) = h₁ at hrequire ⊢
    have happend := hrequire.trans (local_exportAppend o calendar
      (datetimeGetSecondsSinceEpoch calendar args.startTs 1970 1)
      (datetimeGetSecondsSinceEpoch calendar args.endTs 1970 1) priv.buffer
      (fun b hb => ⟨(hbuffer b hb).1.trans_le hrequire.next_le, (hbuffer b hb).2⟩) args.data 0 0)
    generalize exportAppend o calendar (datetimeGetSecondsSinceEpoch calendar args.startTs 1970 1)
      (datetimeGetSecondsSinceEpoch calendar args.endTs 1970 1) priv.buffer 0 args.data 0 h₁ = r
      at happend ⊢
    have hemits : ∀ sent, ∀ b ∈ (FixbufCall.emit priv.buffer sent).buffer,
        b < h.next ∧ owner b = a := fun _ => hbuffer
    have hstats : ∀ stats accepted,
        ∀ b ∈ (FixbufCall.appendStats priv.buffer stats accepted).buffer,
          b < h.next ∧ owner b = a := fun _ _ => hbuffer
    have hemit := happend.call (hemits o.emit)
    split
    · exact hemit
    · refine Local.call (Local.call ?_ (hstats _ _)) (hemits _)
      cases hcollector : priv.collector with
      | none => exact hemit.trans (local_require _)
      | some c =>
          have hc : owner c = a := (hpriv c (CollectorPrivate.mem_parts.2 (.inl hcollector))).2
          exact (hemit.trans (local_require _)).trans (local_setCollector hc _)

/-- The objects that the locals of a call lead to are those of one context. -/
structure ExportLocals.Of (l : ExportLocals) (owner : Address → Address) (a : Address) : Prop where
  priv : ∀ x ∈ l.priv, owner x = a
  collector : ∀ x ∈ l.collector, owner x = a
  buffer : ∀ x ∈ l.buffer, owner x = a

theorem local_exportFreeContext {l : ExportLocals} (hl : l.Of owner a) :
    Local owner a h (exportFreeContext l h) := by
  have hcollector : ∀ (x : Address) (h' : ExportHeap), l.collector = some x →
      Local owner a h' (h'.freeCollector x) :=
    fun x h' hx => local_freeCollector (hl.collector x hx)
  simp only [exportFreeContext]
  cases hpriv : l.priv with
  | none =>
      cases hx : l.collector with
      | none => exact Local.refl owner a h
      | some x => exact hcollector x h hx
  | some y =>
      have hfreed : Local owner a h (h.freePrivate y) := local_freePrivate (hl.priv y hpriv)
      cases hx : l.collector with
      | none => exact hfreed
      | some x => exact hfreed.trans (hcollector x _ hx)

/-- The error paths release objects of the context only. -/
theorem local_exportErrorPath (label : ExportLabel) {l : ExportLocals} (hl : l.Of owner a)
    (hown : h.OwnedBy owner) : Local owner a h (exportErrorPath label l h) := by
  cases label <;>
    first
    | exact Local.refl owner a h
    | exact local_exportFreeContext hl
    | exact (local_fBufFree hl.buffer hown).trans (local_exportFreeContext hl)

theorem local_exportReturn (failure : Option ExportFailure) {l : ExportLocals}
    (hl : l.Of owner a) (hown : h.OwnedBy owner) :
    Local owner a h (exportReturn failure l h).2 := by
  cases failure with
  | none => exact Local.refl owner a h
  | some failure => exact local_exportErrorPath failure.2 hl hown

/-- The part of a call behind its opening touches the objects of the context. -/
theorem local_exportUse (o : ExportOutcomes) (calendar : Calendar) (args : ExportArgs)
    (hown : h.OwnedBy owner) {l : ExportLocals} (hl : l.priv = some a) (ha : owner a = a) :
    Local owner a h (exportUse o calendar args l h).2.2 ∧
      (exportUse o calendar args l h).2.1.Of owner a := by
  have hparts : ∀ x ∈ ((h.privateAt l.priv).getD {}).parts, x < h.next ∧ owner x = a := by
    intro x hx
    cases hpriv : h.privates a with
    | none => simp [ExportHeap.privateAt, hl, hpriv, CollectorPrivate.parts] at hx
    | some priv =>
        have hx' : x ∈ priv.parts := by simpa [ExportHeap.privateAt, hl, hpriv] using hx
        exact (hown.privates a priv hpriv).2.2 x hx'
  simp only [exportUse]
  refine ⟨(local_require _).trans (local_exportSend o calendar args hparts), ?_, ?_, ?_⟩
  · intro x hx
    obtain rfl : a = x := Option.some.inj (hl.symm.trans hx)
    exact ha
  · intro x hx
    exact (hparts x (CollectorPrivate.mem_parts.2 (.inl hx))).2
  · intro x hx
    exact (hparts x (CollectorPrivate.mem_parts.2 (.inr (.inr hx)))).2

end Use

/-! ### Opening a context -/

section Open

open ExportHeap

variable {owner : Address → Address} {a : Address} {h : ExportHeap}

/-- A new context keeps nothing yet. -/
theorem local_callocPrivate (hnext : owner h.next = h.next) :
    Local owner h.next h h.callocPrivate.2 := by
  refine local_next.trans (local_setPrivate hnext ?_)
  rintro priv ⟨⟩
  exact ⟨Nat.lt_succ_self _, rfl, by simp [CollectorPrivate.parts]⟩

theorem local_mallocCollector (hnext : owner h.next = a) :
    Local owner a h h.mallocCollector.2 :=
  local_next.trans (local_setCollector hnext _)

theorem local_fbSessionAlloc (hnext : owner h.next = a) : Local owner a h h.fbSessionAlloc.2 :=
  local_next.trans (local_setSession hnext true)

theorem local_fBufAllocForExport (hnext : owner h.next = a) (session : Address)
    (hsession : session < h.next ∧ owner session = a) :
    Local owner a h (h.fBufAllocForExport session).2 := by
  refine local_next.trans (local_setBuffer hnext ?_)
  rintro s ⟨⟩
  exact ⟨Nat.lt_succ_self _, hsession.1.trans (Nat.lt_succ_self _), hsession.2⟩

/-- A set-up gives new objects to the context. -/
theorem local_exportSetUp (o : ExportOutcomes) (args : ExportArgs) (collector : Address)
    (ha : a < h.next ∧ owner a = a) (hcollector : collector < h.next ∧ owner collector = a)
    (hnext : ∀ x, h.next ≤ x → owner x = a) :
    Local owner a h (exportSetUp o args a collector h).2 := by
  simp only [exportSetUp]
  split
  · exact Local.refl owner a h
  · have hsession : Local owner a h h.fbSessionAlloc.2 := local_fbSessionAlloc (hnext _ (le_refl _))
    have hstored : Local owner a h (h.fbSessionAlloc.2.setPrivate a
        (some { collector := some collector, session := some h.next })) := by
      refine hsession.trans (local_setPrivate ha.2 ?_)
      rintro priv ⟨⟩
      refine ⟨ha.1.trans_le hsession.next_le, rfl, ?_⟩
      intro x hx
      simp only [CollectorPrivate.mem_parts, Option.some.injEq, reduceCtorEq, or_false] at hx
      rcases hx with rfl | rfl
      · exact ⟨hcollector.1.trans_le hsession.next_le, hcollector.2⟩
      · exact ⟨Nat.lt_succ_self _, hnext _ (le_refl _)⟩
    have hcalled := hstored.trans (local_call (c := .exporterAllocNet args.host args.port
      (fbTransport args.transport) o.exporterAllocNet) (by simp [FixbufCall.buffer]))
    split
    · exact hcalled
    · have hbuffer : owner (h.next + 1) = a := hnext _ (Nat.le_succ _)
      have halloc := hcalled.trans (local_fBufAllocForExport hbuffer h.next
        ⟨Nat.lt_succ_self _, hnext _ (le_refl _)⟩)
      refine halloc.trans (local_setPrivate ha.2 ?_)
      rintro priv ⟨⟩
      refine ⟨ha.1.trans_le halloc.next_le, rfl, ?_⟩
      intro x hx
      simp only [CollectorPrivate.mem_parts, Option.some.injEq] at hx
      rcases hx with rfl | rfl | rfl
      · exact ⟨hcollector.1.trans_le halloc.next_le, hcollector.2⟩
      · exact ⟨(Nat.lt_succ_self _).trans (Nat.lt_succ_self _), hnext _ (le_refl _)⟩
      · exact ⟨Nat.lt_succ_self _, hbuffer⟩

/-- A call without a context opens one at the next address, if at all. -/
theorem local_exportOpen_first (o : ExportOutcomes) (args : ExportArgs)
    (hnext : ∀ x, h.next ≤ x → owner x = h.next) :
    Local owner h.next h (exportOpen o args none h).2.2.2 ∧
      (exportOpen o args none h).2.1.Of owner h.next ∧
      ((exportOpen o args none h).1 = none → (exportOpen o args none h).2.1.priv = some h.next) ∧
      ((exportOpen o args none h).2.2.1 = none ∨
        (exportOpen o args none h).2.2.1 = some h.next ∧
          h.next < (exportOpen o args none h).2.2.2.next) := by
  have hself : owner h.next = h.next := hnext _ (le_refl _)
  have hpriv : Local owner h.next h h.callocPrivate.2 := local_callocPrivate hself
  have hcollector : Local owner h.next h h.callocPrivate.2.mallocCollector.2 :=
    hpriv.trans (local_mallocCollector (hnext _ (Nat.le_succ _)))
  have hstored : Local owner h.next h (h.callocPrivate.2.mallocCollector.2.setPrivate h.next
      (some { collector := some (h.next + 1) })) := by
    refine hcollector.trans (local_setPrivate hself ?_)
    rintro priv ⟨⟩
    refine ⟨(Nat.lt_succ_self _).trans (Nat.lt_succ_self _), rfl, ?_⟩
    intro x hx
    obtain rfl : h.next + 1 = x := by simpa [CollectorPrivate.mem_parts] using hx
    exact ⟨Nat.lt_succ_self _, hnext _ (Nat.le_succ _)⟩
  have hsetUp := local_exportSetUp o args (h.next + 1)
    (h := h.callocPrivate.2.mallocCollector.2.setPrivate h.next
      (some { collector := some (h.next + 1) }))
    ⟨(Nat.lt_succ_self _).trans (Nat.lt_succ_self _), hself⟩
    ⟨Nat.lt_succ_self _, hnext _ (Nat.le_succ _)⟩
    (fun x hx => hnext x (((Nat.le_succ _).trans (Nat.le_succ _)).trans hx))
  simp only [exportOpen]
  split
  · exact ⟨Local.refl owner h.next h, ⟨by simp, by simp, by simp⟩, by simp, .inl rfl⟩
  · split
    · exact ⟨hpriv, ⟨by rintro x ⟨⟩; exact hself, by simp, by simp⟩, by simp, .inl rfl⟩
    · refine ⟨hstored.trans hsetUp, ⟨?_, ?_, by simp⟩, fun _ => rfl, .inr ⟨rfl, ?_⟩⟩
      · rintro x ⟨⟩
        exact hself
      · rintro x ⟨⟩
        exact hnext _ (Nat.le_succ _)
      · exact (Nat.lt_succ_self _).trans_le ((Nat.le_succ _).trans hsetUp.next_le)

end Open

/-! ### Whole calls -/

section Calls

open ExportHeap

variable {owner : Address → Address} {h : ExportHeap}

/-- The map that gives `a` what lies at `n` and behind it. -/
def giveFrom (owner : Address → Address) (n a : Address) (x : Address) : Address :=
  if n ≤ x then a else owner x

theorem giveFrom_of_le {n a x : Address} (hx : n ≤ x) : giveFrom owner n a x = a := if_pos hx

theorem giveFrom_of_lt {n a x : Address} (hx : x < n) : giveFrom owner n a x = owner x :=
  if_neg (Nat.not_le.2 hx)

/-- What lies ahead of a heap may be given to anyone. -/
theorem ExportHeap.OwnedBy.giveFrom (hown : h.OwnedBy owner) (a : Address) :
    h.OwnedBy (giveFrom owner h.next a) := by
  have hold : ∀ {x}, x < h.next → NvIpfix.giveFrom owner h.next a x = owner x := giveFrom_of_lt
  constructor
  · intro y priv hy
    obtain ⟨hlt, hself, hparts⟩ := hown.privates y priv hy
    refine ⟨hlt, (hold hlt).trans hself, ?_⟩
    intro x hx
    obtain ⟨hlt', howner⟩ := hparts x hx
    exact ⟨hlt', (hold hlt').trans howner⟩
  · intro b s hb
    obtain ⟨hlt, hslt, howner⟩ := hown.buffers b s hb
    exact ⟨hlt, hslt, (hold hslt).trans (howner.trans (hold hlt).symm)⟩

/-- The part of a call behind its opening, together with its end. -/
theorem local_exportReturn_exportUse (o : ExportOutcomes) (calendar : Calendar) (args : ExportArgs)
    {a : Address} {l : ExportLocals} (hown : h.OwnedBy owner) (hl : l.priv = some a)
    (ha : owner a = a) :
    Local owner a h (exportReturn (exportUse o calendar args l h).1
      (exportUse o calendar args l h).2.1 (exportUse o calendar args l h).2.2).2 := by
  obtain ⟨huse, hof⟩ := local_exportUse o calendar args hown hl ha
  exact huse.trans (local_exportReturn _ hof (huse.owned hown))

/-- A call with a context touches the objects of this context. -/
theorem local_nvipfixExport_some (o : ExportOutcomes) (calendar : Calendar) (args : ExportArgs)
    {a : Address} (hown : h.OwnedBy owner) (ha : owner a = a) :
    Local owner a h (nvipfixExport o calendar args (some a) h).2.2 ∧
      (nvipfixExport o calendar args (some a) h).2.1 = some a := by
  simp only [nvipfixExport, exportOpen]
  split
  · exact ⟨Local.refl owner a h, rfl⟩
  · exact ⟨local_exportReturn_exportUse o calendar args hown rfl ha, rfl⟩

/-- A call without a context touches the objects of the context that it makes. -/
theorem local_nvipfixExport_none (o : ExportOutcomes) (calendar : Calendar) (args : ExportArgs)
    (hown : h.OwnedBy owner) (hnext : ∀ x, h.next ≤ x → owner x = h.next) :
    Local owner h.next h (nvipfixExport o calendar args none h).2.2 ∧
      ∀ a ∈ (nvipfixExport o calendar args none h).2.1,
        a = h.next ∧ h.next < (nvipfixExport o calendar args none h).2.2.next := by
  obtain ⟨hopen, hof, hpriv, hresult⟩ := local_exportOpen_first o args hnext
  have hopened := hopen.owned hown
  simp only [nvipfixExport]
  split
  · exact ⟨Local.refl _ _ h, by simp⟩
  · generalize exportOpen o args none h = opened at *
    obtain ⟨failure, l, result, h'⟩ := opened
    -- the context is known before what follows the opening, which keeps the addresses in use
    have hdone : ∀ h'' : ExportHeap, Local owner h.next h' h'' →
        Local owner h.next h h'' ∧ ∀ a ∈ result, a = h.next ∧ h.next < h''.next := by
      intro h'' hlocal
      refine ⟨hopen.trans hlocal, ?_⟩
      rintro a rfl
      rcases hresult with hnone | ⟨hsome, hlt⟩
      · cases hnone
      · exact ⟨Option.some.inj hsome, hlt.trans_le hlocal.next_le⟩
    cases failure with
    | some failure => exact hdone _ (local_exportReturn (some failure) hof hopened)
    | none =>
        exact hdone _ (local_exportReturn_exportUse o calendar args hopened (hpriv rfl)
          (hnext _ (le_refl _)))

/-- **A call touches the objects of one context**, the one that it is given, or else the one that it
makes at the next address. -/
theorem exists_local_nvipfixExport (o : ExportOutcomes) (calendar : Calendar) (args : ExportArgs)
    {ptr : Option Address} (hown : h.OwnedBy owner) (hptr : ∀ a ∈ ptr, a < h.next ∧ owner a = a) :
    ∃ owner' a, (∀ x < h.next, owner' x = owner x) ∧
      ((∀ x, owner x ≤ x) → ∀ x, owner' x ≤ x) ∧ h.OwnedBy owner' ∧
      Local owner' a h (nvipfixExport o calendar args ptr h).2.2 ∧
      (ptr = some a ∨ ptr = none ∧ a = h.next) ∧
      ∀ a' ∈ (nvipfixExport o calendar args ptr h).2.1,
        a' = a ∧ a < (nvipfixExport o calendar args ptr h).2.2.next ∧ owner' a = a := by
  cases ptr with
  | some a =>
      obtain ⟨hlt, ha⟩ := hptr a rfl
      obtain ⟨hlocal, hsame⟩ := local_nvipfixExport_some o calendar args hown ha
      refine ⟨owner, a, fun _ _ => rfl, id, hown, hlocal, .inl rfl, ?_⟩
      intro a' ha'
      rw [hsame] at ha'
      exact ⟨(Option.some.inj ha').symm, hlt.trans_le hlocal.next_le, ha⟩
  | none =>
      have hnext : ∀ x, h.next ≤ x → giveFrom owner h.next h.next x = h.next :=
        fun x hx => giveFrom_of_le hx
      obtain ⟨hlocal, hresult⟩ :=
        local_nvipfixExport_none o calendar args (hown.giveFrom h.next) hnext
      refine ⟨giveFrom owner h.next h.next, h.next, fun x hx => giveFrom_of_lt hx, ?_,
        hown.giveFrom h.next, hlocal, .inr ⟨rfl, rfl⟩, ?_⟩
      · intro hle x
        by_cases hx : h.next ≤ x
        · rwa [giveFrom_of_le hx]
        · rw [giveFrom_of_lt (Nat.not_le.1 hx)]
          exact hle x
      · intro a' ha'
        obtain ⟨hsame, hlt⟩ := hresult a' ha'
        exact ⟨hsame, hlt, hnext _ (le_refl _)⟩

end Calls

end NvIpfix
