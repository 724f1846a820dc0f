import Sicha.Response.Assembly

/-!
# Raw reports

Which payloads the event callback reports raw.  The header promises a report of every payload
with members that are not modelled; of the members of a delta only {lit}`tool_calls` is looked at.

Main results:

- Definition {lit}`ReportDue`: the payloads that are to be reported.
- Theorem {lit}`streamOnEvent_reports_iff`: a payload is reported as promised exactly if every
  delta with an unmodelled member has {lit}`tool_calls` as well.
-/

namespace Sicha

/-! ## What is to be reported -/

/-- The members of a delta that are modelled. -/
def deltaNames : List Bytes :=
  [ascii "role", ascii "content", ascii "reasoning", ascii "reasoning_content"]

/-- The names of the members of an object. -/
def Json.names : Json → List Bytes
  | .obj members => members.map Prod.fst
  | _ => []

/-- A delta with a member that is not modelled. -/
def Unmodelled (delta : Json) : Prop :=
  ∃ name ∈ delta.names, name ∉ deltaNames

instance (delta : Json) : Decidable (Unmodelled delta) :=
  inferInstanceAs (Decidable (∃ name ∈ delta.names, name ∉ deltaNames))

/-- A payload that is not fully consumed: it is no JSON object, it has a member {lit}`error`, its
first choice is no object, or its delta has a member that is not modelled. -/
def ReportDue (Y : Yyjson) (payload : Bytes) : Prop :=
  ∀ root, Y.read payload = some root →
    root.isObj = false ∨ (root.get? (ascii "error")).isSome ∨
      (∃ choice0, firstChoice root = some choice0 ∧ choice0.isObj = false) ∨
      ∃ delta, eventDelta root = some delta ∧ Unmodelled delta

/-- The deltas with unmodelled members that are looked at: those with tool calls. -/
def ToolCallsOnly (Y : Yyjson) (payload : Bytes) : Prop :=
  ∀ root delta, chatEvent Y payload = some root → eventDelta root = some delta →
    Unmodelled delta → (delta.get? (ascii "tool_calls")).isSome

/-- A call of {lit}`on_raw_chunk`. -/
def Act.isRaw : Act → Bool
  | .onRawChunk _ _ => true
  | _ => false

/-- A payload is not reported otherwise than due: no chat event, or an unmodelled member. -/
theorem ReportDue.cases {Y : Yyjson} {payload : Bytes} (h : ReportDue Y payload) :
    chatEvent Y payload = none ∨ ∃ root delta, chatEvent Y payload = some root ∧
      eventDelta root = some delta ∧ Unmodelled delta := by
  cases hchat : chatEvent Y payload with
  | none => exact .inl rfl
  | some root =>
      obtain ⟨hread, hroot⟩ := Option.filter_eq_some_iff.mp hchat
      rw [Bool.and_eq_true, Bool.and_eq_true] at hroot
      obtain ⟨⟨hobj, herror⟩, hfirst⟩ := hroot
      rcases h root hread with hno | hsome | ⟨choice0, hchoice, hno⟩ | ⟨delta, hdelta, hun⟩
      · rw [hobj] at hno
        cases hno
      · rw [Option.isNone_iff_eq_none.mp herror] at hsome
        cases hsome
      · rw [hchoice, Option.all_some, hno] at hfirst
        cases hfirst
      · exact .inr ⟨root, delta, rfl, hdelta, hun⟩

section Reports

variable [SizeT] {σ : Type} {cbs : Option (Callbacks σ)}

/-- A piece brings no raw chunk. -/
theorem pieceCalls_raw (ch : Channel) (piece : Option Bytes) :
    (pieceCalls cbs ch piece).filter Act.isRaw = [] := by
  unfold pieceCalls
  cases piece with
  | none => rfl
  | some bytes =>
      dsimp only
      split_ifs
      · cases ch <;> rfl
      · rfl

/-- The raw reports among the calls of a payload: one, of the whole payload, if it is no chat
event or carries tool calls. -/
theorem payloadCalls_raw (Y : Yyjson) (cbs : Option (Callbacks σ)) (hset : (cbs.bind Callbacks.onRawChunk).isSome)
    (payload : Bytes) :
    (payloadCalls Y cbs payload).filter Act.isRaw =
      if (chatEvent Y payload).all fun root =>
        ((eventDelta root).bind fun delta => delta.get? (ascii "tool_calls")).isSome
      then [.onRawChunk payload 0] else [] := by
  have hraw : (rawCalls cbs payload).filter Act.isRaw = [.onRawChunk payload 0] := by
    unfold rawCalls
    rw [if_pos hset]
    rfl
  unfold payloadCalls
  cases chatEvent Y payload with
  | none => exact hraw
  | some root =>
      dsimp only [Option.elim, Option.all]
      unfold chatCalls eventCalls
      rw [List.filter_append, List.filter_append, pieceCalls_raw, pieceCalls_raw]
      split_ifs
      · exact hraw
      · rfl

/-- The report of a payload as it is promised: the callback answers zero and reports at most once,
exactly the payload, and it does so if a report is due. -/
def Reported (Y : Yyjson) (payload : Bytes) (s : StreamW σ) (out : Int × StreamW σ) : Prop :=
  out.1 = 0 ∧ ∃ calls, out.2.world.acts = s.world.acts ++ calls ∧
    (calls.filter Act.isRaw = [] ∨ calls.filter Act.isRaw = [.onRawChunk payload 0]) ∧
    (ReportDue Y payload → calls.filter Act.isRaw = [.onRawChunk payload 0])

/-- A payload other than {lit}`[DONE]`, no cap exceeded: it is reported as promised exactly if an
unmodelled member of a delta comes with tool calls. -/
theorem streamOnEvent_reports_iff (Y : Yyjson) (H : Heap σ) (hH : H.Reliable)
    (hcbs : Agreeable cbs) (hset : (cbs.bind Callbacks.onRawChunk).isSome) (payload : Bytes)
    (hdata : payload ≠ ascii "[DONE]") (s : StreamW σ) (hs : RawOk s)
    (hfits : ∀ root, chatEvent Y payload = some root → s.ctx.accumulate = true →
      ¬ EventFull s root) :
    Reported Y payload s (streamOnEvent Y H cbs payload s) ↔ ToolCallsOnly Y payload := by
  rcases streamOnEvent_assembles (Y := Y) hH hcbs hdata hs with
    ⟨hzero, hass⟩ | ⟨-, -, hacc, root, hroot, hfull⟩
  · have hraw := payloadCalls_raw Y cbs hset payload
    constructor
    · rintro ⟨-, calls, hacts, -, hdue⟩ root delta hchat hdelta hun
      obtain rfl : payloadCalls Y cbs payload = calls :=
        List.append_cancel_left (hass.acts.symm.trans hacts)
      have hreport : ReportDue Y payload := by
        intro root' hread
        obtain rfl : root' = root :=
          Option.some.inj (hread.symm.trans (Option.filter_eq_some_iff.mp hchat).1)
        exact .inr (.inr (.inr ⟨delta, hdelta, hun⟩))
      rw [hdue hreport, hchat, Option.all_some, hdelta, Option.bind_some] at hraw
      split_ifs at hraw with htools
      exact htools
    · intro htools
      refine ⟨hzero, payloadCalls Y cbs payload, hass.acts, ?_, ?_⟩
      · rw [hraw]
        split_ifs
        · exact .inr rfl
        · exact .inl rfl
      · intro hdue
        rw [hraw, if_pos]
        rcases hdue.cases with hnone | ⟨root, delta, hchat, hdelta, hun⟩
        · rw [hnone]
          rfl
        · rw [hchat, Option.all_some, hdelta, Option.bind_some]
          exact htools root delta hchat hdelta hun
  · exact absurd hfull (hfits root hroot hacc)

end Reports

section Plain

attribute [local instance] lp64

/-- A delta that carries a refusal, as text. -/
def refusalText : Bytes :=
  ascii "\x7b\"choices\":[\x7b\"delta\":\x7b\"refusal\":\"no\"\x7d\x7d]\x7d"

/-- A delta that carries a refusal. -/
def refusalEvent : Json :=
  .obj [(ascii "choices",
    .arr [.obj [(ascii "delta", .obj [(ascii "refusal", .str (ascii "no"))])]])]

/-- A fresh stream. -/
def freshStream : StreamW Unit :=
  ⟨streamCtxInit true, resultInit 64, ⟨(), []⟩⟩

/-- An event with a refusal is one that ought to be reported. -/
theorem refusal_due : ReportDue (plainYyjson refusalText refusalEvent) refusalText := by
  intro root hread
  obtain rfl : refusalEvent = root := Option.some.inj hread
  exact .inr (.inr (.inr ⟨.obj [(ascii "refusal", .str (ascii "no"))], rfl, by decide +kernel⟩))

/-- A refusal is dropped without a report. -/
theorem streamOnEvent_drops_refusal :
    ¬ Reported (plainYyjson refusalText refusalEvent) refusalText freshStream
      (streamOnEvent (plainYyjson refusalText refusalEvent) Heap.plentiful (some plainCallbacks)
        refusalText freshStream) := by
  rintro ⟨-, calls, hacts, -, hdue⟩
  have hnone : (streamOnEvent (plainYyjson refusalText refusalEvent) Heap.plentiful
      (some plainCallbacks) refusalText freshStream).2.world.acts = [] := by
    decide +kernel
  obtain rfl : calls = [] := (hacts.symm.trans hnone : [] ++ calls = [])
  cases hdue refusal_due

/-- The plain event reads as its tree. -/
theorem plainEvent_chat {root : Json}
    (h : chatEvent (plainYyjson (plainEventText "hi") (plainEvent "hi")) (plainEventText "hi") =
      some root) : plainEvent "hi" = root := by
  have hread : (plainYyjson (plainEventText "hi") (plainEvent "hi")).read (plainEventText "hi") =
      some (plainEvent "hi") := by
    simp only [plainYyjson, if_true]
  exact Option.some.inj (hread.symm.trans (Option.filter_eq_some_iff.mp h).1)

/-- The plain event has nothing that ought to be reported, and is not reported. -/
theorem streamOnEvent_reports_iff_plain :
    Reported (plainYyjson (plainEventText "hi") (plainEvent "hi")) (plainEventText "hi") freshStream
      (streamOnEvent (plainYyjson (plainEventText "hi") (plainEvent "hi")) Heap.plentiful
        (some plainCallbacks) (plainEventText "hi") freshStream) :=
  (streamOnEvent_reports_iff (plainYyjson (plainEventText "hi") (plainEvent "hi")) Heap.plentiful
    Heap.plentiful_reliable plainCallbacks_agreeable rfl (plainEventText "hi") (by decide +kernel)
    freshStream ⟨rfl, rfl⟩
    (fun root hroot _ => by
      obtain rfl := plainEvent_chat hroot
      rintro ⟨ch, bytes, hpiece, hfull⟩
      cases ch with
      | content =>
          cases hpiece
          exact hfull.2 (by decide +kernel)
      | reasoning => cases hpiece)).mpr
    fun root delta hroot hdelta hun => by
      obtain rfl := plainEvent_chat hroot
      cases hdelta
      exact absurd hun (by decide +kernel)

end Plain

end Sicha
