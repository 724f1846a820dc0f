import Sicha.Client.Acts
import Sicha.Lib.LastWins
import Sicha.Response.Rule

/-!
# What a stream assembles

The event callback, with an allocator that does not fail and callbacks that answer zero:
each chat event appends its pieces, hands them over, and lifts its fields; every other
payload is only reported raw.

Main results:

- Definition {lit}`chatEvent`: the payloads that count.
- Theorem {lit}`streamOnEvent_assembles`: what one payload does, unless a buffer is full.
- Theorem {lit}`run_assembles`: what a list of payloads does.
- Theorem {lit}`streamOnEvent_assembly`: the content of the result, piece by piece.
-/

namespace Sicha

/-! ## The events -/

/-- The root of a payload that is a chat event: a JSON object without an {lit}`error` member
whose choices, if a non-empty array, start with an object. -/
def chatEvent (Y : Yyjson) (payload : Bytes) : Option Json :=
  (Y.read payload).filter fun root =>
    root.isObj && (root.get? (ascii "error")).isNone && (firstChoice root).all Json.isObj

/-- {lit}`choices[0].delta` of an event, when it is an object. -/
def eventDelta (root : Json) : Option Json :=
  ((firstChoice root).bind fun choice0 => choice0.get? (ascii "delta")).filter Json.isObj

/-- The string an event carries on a channel. -/
def eventPiece : Channel → Json → Option Bytes
  | .content, root => (eventDelta root).bind fun delta => delta.getStr? (ascii "content")
  | .reasoning, root => (eventDelta root).bind deltaReasoning

/-- The string {lit}`finish_reason` of an event. -/
def eventFinish (root : Json) : Option Bytes :=
  (firstChoice root).bind fun choice0 => choice0.getStr? (ascii "finish_reason")

/-- The string {lit}`model` of an event. -/
def eventModel (root : Json) : Option Bytes :=
  root.getStr? (ascii "model")

/-- A token count that is lifted from an event: a number that is not negative. -/
def eventCount (key : String) (root : Json) : Option Int :=
  (((root.get? (ascii "usage")).filter Json.isObj).map fun usage =>
    liftI64 usage (ascii key)).filter (0 ≤ ·)

/-! ## The fields of a result -/

/-- The fields of a result that events are lifted into. -/
structure Lifted where
  finishRaw : Option Bytes
  finish : FinishReason
  model : Option Bytes
  promptTokens : Int
  completionTokens : Int
  totalTokens : Int

/-- The lifted fields after a finish reason. -/
def Lifted.finished (a : Lifted) (raw : Option Bytes) : Lifted :=
  { a with finishRaw := raw.or a.finishRaw, finish := (raw.map mapFinish).getD a.finish }

/-- The lifted fields after the usage and the model of an event. -/
def Lifted.reported (a : Lifted) (root : Json) : Lifted :=
  { a with
    model := a.model.or (eventModel root)
    promptTokens := (eventCount "prompt_tokens" root).getD a.promptTokens
    completionTokens := (eventCount "completion_tokens" root).getD a.completionTokens
    totalTokens := (eventCount "total_tokens" root).getD a.totalTokens }

/-- The lifted fields after an event. -/
def Lifted.add (a : Lifted) (root : Json) : Lifted :=
  (a.finished (eventFinish root)).reported root

section Events

variable [SizeT] {σ : Type}

/-- The lifted fields of a result. -/
def Result.lifted (r : Result) : Lifted where
  finishRaw := r.finishRaw
  finish := r.finish
  model := r.model
  promptTokens := r.promptTokens
  completionTokens := r.completionTokens
  totalTokens := r.totalTokens

/-- What the usage of an event makes of the lifted fields. -/
theorem liftUsage_lifted (r : Result) (root : Json) :
    (liftUsage r root).lifted =
      { r.lifted with
        promptTokens := (eventCount "prompt_tokens" root).getD r.promptTokens
        completionTokens := (eventCount "completion_tokens" root).getD r.completionTokens
        totalTokens := (eventCount "total_tokens" root).getD r.totalTokens } := by
  have hcount : ∀ (old : Int) (usage : Json) (key : Bytes),
      liftCount old (liftI64 usage key) =
        ((some (liftI64 usage key)).filter fun n => decide (0 ≤ n)).getD old := by
    intro old usage key
    unfold liftCount
    by_cases hn : 0 ≤ liftI64 usage key
    · rw [if_pos hn, Option.filter_some, if_pos (by simpa using hn)]
      rfl
    · rw [if_neg hn, Option.filter_some, if_neg (by simpa using hn)]
      rfl
  unfold liftUsage eventCount
  split <;> rename_i husage
  · rw [husage]
    rfl
  · rw [husage]
    simp only [Result.lifted, hcount, Option.map_some]

/-- The usage and the model of a JSON tree are lifted together. -/
theorem liftModel_lifted {w : Type} {H : Heap w} (hH : H.Reliable) (r : Result) (root : Json)
    (s : w) :
    (liftModel H (liftUsage r root) root s).1 = .ok ∧
      (liftModel H (liftUsage r root) root s).2.1.lifted = r.lifted.reported root := by
  have hfields := liftUsage_lifted r root
  have hmodel : (liftUsage r root).model = r.model := congrArg Lifted.model hfields
  unfold liftModel
  rw [hmodel]
  split
  · rename_i model hold hnew
    unfold resultSetModel
    rw [if_pos (hH _ _)]
    refine ⟨rfl, ?_⟩
    change ({ (liftUsage r root).lifted with model := some model } : Lifted) = _
    rw [hfields]
    simp [Lifted.reported, eventModel, Result.lifted, hold, hnew]
  · rename_i hnew
    refine ⟨rfl, ?_⟩
    rw [hfields]
    have hsame : r.model.or (eventModel root) = r.model := by
      cases hm : r.model with
      | some m => rfl
      | none =>
          cases hn : root.getStr? (ascii "model") with
          | none => simp [eventModel, hn]
          | some m => exact absurd hn (hnew m hm)
    simp [Lifted.reported, Result.lifted, hsame]

/-! ## Callbacks that go on -/

/-- Callbacks whose data answers are zero. -/
structure Agreeable (cbs : Option (Callbacks σ)) : Prop where
  data : ∀ (ch : Channel) f, ch.callback cbs = some f → ∀ bytes s, (f bytes s).1 = 0
  raw : ∀ f, cbs.bind Callbacks.onRawChunk = some f → ∀ bytes s, (f bytes s).1 = 0

/-- The calls that hand a piece to a channel: one, if it is set and the piece is not
empty. -/
def pieceCalls (cbs : Option (Callbacks σ)) (ch : Channel) (piece : Option Bytes) : List Act :=
  match piece with
  | some bytes => if (ch.callback cbs).isSome && !bytes.isEmpty then [ch.act bytes 0] else []
  | none => []

/-- The calls of an event: content before reasoning. -/
def eventCalls (cbs : Option (Callbacks σ)) (root : Json) : List Act :=
  pieceCalls cbs .content (eventPiece .content root) ++
    pieceCalls cbs .reasoning (eventPiece .reasoning root)

/-- The call that reports a payload raw, if it is set. -/
def rawCalls (cbs : Option (Callbacks σ)) (data : Bytes) : List Act :=
  if (cbs.bind Callbacks.onRawChunk).isSome then [.onRawChunk data 0] else []

/-- All calls of a chat event: its deltas, and the raw report of tool calls. -/
def chatCalls (cbs : Option (Callbacks σ)) (data : Bytes) (root : Json) : List Act :=
  eventCalls cbs root ++
    if ((eventDelta root).bind fun delta => delta.get? (ascii "tool_calls")).isSome then
      rawCalls cbs data
    else []

/-- All calls of a payload. -/
def payloadCalls (Y : Yyjson) (cbs : Option (Callbacks σ)) (data : Bytes) : List Act :=
  (chatEvent Y data).elim (rawCalls cbs data) (chatCalls cbs data)

/-- The deltas a world has seen handed over. -/
def World.deltas (w : World σ) : List Act :=
  w.acts.filter Act.isDelta

/-! ## One event -/

/-- The remembered raw payload is sound. -/
structure RawOk (s : StreamW σ) : Prop where
  err : s.ctx.lastRaw.err = .ok
  cap : s.ctx.lastRaw.maxLen = excerptMax

/-- From {lit}`s` to {lit}`s'` the stream has stored the pieces {lit}`g`, changed the lifted fields by
{lit}`f` and handed over the deltas {lit}`calls`. -/
structure Assembles (s s' : StreamW σ) (g : Channel → Bytes) (f : Lifted → Lifted)
    (calls : List Act) : Prop where
  accumulate : s'.ctx.accumulate = s.ctx.accumulate
  done : s'.ctx.done = s.ctx.done
  err : s'.ctx.err = s.ctx.err
  raw : RawOk s'
  stored : ∀ ch : Channel, (ch.buf s'.r).view = (ch.buf s.r).view.plus (g ch)
  lifted : s'.r.lifted = f s.r.lifted
  acts : s'.world.acts = s.world.acts ++ calls

/-- Nothing is assembled from no step. -/
theorem Assembles.refl {s : StreamW σ} (h : RawOk s) : Assembles s s (fun _ => []) id [] where
  accumulate := rfl
  done := rfl
  err := rfl
  raw := h
  stored ch := by simp
  lifted := rfl
  acts := (List.append_nil _).symm

/-- What two steps assemble in a row. -/
theorem Assembles.trans {s s' s'' : StreamW σ} {g g' : Channel → Bytes}
    {f f' : Lifted → Lifted} {calls calls' : List Act} (h : Assembles s s' g f calls)
    (h' : Assembles s' s'' g' f' calls') :
    Assembles s s'' (fun ch => g ch ++ g' ch) (f' ∘ f) (calls ++ calls') where
  accumulate := h'.accumulate.trans h.accumulate
  done := h'.done.trans h.done
  err := h'.err.trans h.err
  raw := h'.raw
  stored ch := by
    rw [h'.stored, h.stored]
    simp [CappedBytes.plus, List.append_assoc]
  lifted := by
    rw [h'.lifted, h.lifted]
    rfl
  acts := by rw [h'.acts, h.acts, List.append_assoc]

/-- How a step ends: it answers zero and has assembled, or a piece finds its buffer full. -/
def AssemblesOr (full : Prop) (s : StreamW σ) (g : Channel → Bytes) (f : Lifted → Lifted)
    (calls : List Act) (r : Int × StreamW σ) : Prop :=
  (r.1 = 0 ∧ Assembles s r.2 g f calls) ∨
    (r.1 = -1 ∧ r.2.ctx.err ≠ .ok ∧ s.ctx.accumulate = true ∧ full)

/-- Two steps in a row assemble both, or one of them is refused. -/
theorem AssemblesOr.andThen {full full' : Prop} {s : StreamW σ} {g g' : Channel → Bytes}
    {f f' : Lifted → Lifted} {calls calls' : List Act} {r : Int × StreamW σ}
    {next : StreamW σ → Int × StreamW σ} (h : AssemblesOr full s g f calls r)
    (hnext : ∀ s', Assembles s s' g f calls → AssemblesOr full' s' g' f' calls' (next s')) :
    AssemblesOr (full ∨ full') s (fun ch => g ch ++ g' ch) (f' ∘ f) (calls ++ calls')
      (andThen r next) := by
  unfold Sicha.andThen
  rcases h with ⟨hzero, hass⟩ | ⟨hcode, herr, hacc, hfull⟩
  · rw [if_pos hzero]
    rcases hnext r.2 hass with ⟨hzero', hass'⟩ | ⟨hcode', herr', hacc', hfull'⟩
    · exact .inl ⟨hzero', hass.trans hass'⟩
    · exact .inr ⟨hcode', herr', hass.accumulate.symm.trans hacc', .inr hfull'⟩
  · rw [if_neg (by rw [hcode]; decide)]
    exact .inr ⟨hcode, herr, hacc, .inl hfull⟩

/-- A call of an agreeable callback is logged, and changes nothing else. -/
theorem callData_agreeable {cb : Option (DataCallback σ)}
    (hcb : ∀ f, cb = some f → ∀ bytes s, (f bytes s).1 = 0) (mk : Bytes → Int → Act)
    (data : Bytes) (s : StreamW σ) :
    (callData cb mk data s).1 = 0 ∧ (callData cb mk data s).2.ctx = s.ctx ∧
      (callData cb mk data s).2.r = s.r ∧
      (callData cb mk data s).2.world.acts =
        s.world.acts ++ if cb.isSome then [mk data 0] else [] := by
  unfold callData
  cases cb with
  | none => exact ⟨rfl, rfl, rfl, (List.append_nil _).symm⟩
  | some f =>
      have hzero : (s.world.act (f data) (mk data)).1 = 0 := hcb f rfl data s.world.env
      refine ⟨by simp [hzero], rfl, rfl, ?_⟩
      rw [World.act_acts, hzero]
      rfl

variable {Y : Yyjson} {H : Heap σ} {cbs : Option (Callbacks σ)} (hH : H.Reliable)
  (hcbs : Agreeable cbs)

include hH hcbs

/-- A raw report leaves the content alone. -/
theorem rawChunk_assembles (data : Bytes) {s : StreamW σ} (hs : RawOk s) :
    AssemblesOr False s (fun _ => []) id (rawCalls cbs data) (rawChunk H cbs data s) := by
  have hview := bufAppend_view hH (bufReset s.ctx.lastRaw) (data.take excerptMax) s.world.env
  have hroom : ((bufReset s.ctx.lastRaw).view.append (data.take excerptMax)).err = .ok := by
    have hlen := List.length_take_le excerptMax data
    have hmax := sizeMax_ge
    have hexcerpt : excerptMax = 2048 := rfl
    simp only [bufReset_view, hs.err, hs.cap, CappedBytes.append]
    rw [if_neg (by simp), if_neg (by simp; omega), if_neg, if_neg (by simp; omega)]
    rintro ⟨-, hover⟩
    simp only [List.length_nil, Nat.zero_add] at hover
    omega
  rw [CappedBytes.append_ok hroom] at hview
  generalize hb : bufAppend H (bufReset s.ctx.lastRaw) (data.take excerptMax) s.world.env = b
    at hview
  have herr : b.1.err = .ok := (congrArg CappedBytes.err hview).trans hs.err
  have hcap : b.1.maxLen = excerptMax := (congrArg CappedBytes.maxLen hview).trans hs.cap
  have hcall := callData_agreeable hcbs.raw .onRawChunk data
    { s.setEnv b.2 with ctx := { s.ctx with lastRaw := b.1 } }
  unfold rawChunk
  dsimp only
  rw [hb, if_neg (by simp [bufStatus, herr])]
  obtain ⟨hzero, hctx, hr, hacts⟩ := hcall
  refine .inl ⟨hzero, ?_⟩
  refine
    { accumulate := by rw [hctx]
      done := by rw [hctx]
      err := by rw [hctx]
      raw := ⟨by rw [hctx]; exact herr, by rw [hctx]; exact hcap⟩
      stored := fun ch => by
        rw [hr]
        simp [StreamW.setEnv]
      lifted := by rw [hr]; rfl
      acts := hacts }

/-- A delivery stores the piece, if the stream accumulates, and hands it over. -/
theorem deliver_assembles (ch : Channel) (piece : Option Bytes) {s : StreamW σ} (hs : RawOk s) :
    AssemblesOr
      (∃ bytes, piece = some bytes ∧ bytes ≠ [] ∧ ((ch.buf s.r).view.append bytes).err ≠ .ok) s
      (fun ch' => if ch' = ch ∧ s.ctx.accumulate = true then piece.getD [] else []) id
      (pieceCalls cbs ch piece) (deliverOpt H cbs ch piece s) := by
  have hcall : ∀ (bytes : Bytes) (s : StreamW σ), bytes ≠ [] → RawOk s →
      AssemblesOr False s (fun _ => []) id (pieceCalls cbs ch (some bytes))
        (deliverCall cbs ch bytes s) := by
    intro bytes s hne hs
    have hdata := callData_agreeable (hcbs.data ch) ch.act bytes
      { s with ctx := { s.ctx with delivered := true } }
    unfold deliverCall pieceCalls
    dsimp only
    by_cases hset : (ch.callback cbs).isSome = true
    · rw [if_pos hset, if_pos (by simp [hset, hne])]
      obtain ⟨hzero, hctx, hr, hacts⟩ := hdata
      refine .inl ⟨hzero, ?_⟩
      refine
        { accumulate := by rw [hctx]
          done := by rw [hctx]
          err := by rw [hctx]
          raw := ⟨by rw [hctx]; exact hs.err, by rw [hctx]; exact hs.cap⟩
          stored := fun ch => by
            rw [hr]
            simp
          lifted := by rw [hr]; rfl
          acts := by rw [hacts, if_pos hset] }
    · rw [if_neg hset, if_neg (by simp [hset])]
      exact .inl ⟨rfl, .refl hs⟩
  cases piece with
  | none =>
      refine .inl ⟨rfl, ?_⟩
      have hrefl : Assembles s s (fun _ => []) id [] := .refl hs
      simpa [deliverOpt, pieceCalls] using hrefl
  | some bytes =>
      unfold deliverOpt deliver
      dsimp only
      by_cases hempty : bytes = []
      · subst hempty
        rw [if_pos (by rfl)]
        refine .inl ⟨rfl, ?_⟩
        have hrefl : Assembles s s (fun _ => []) id [] := .refl hs
        simpa [pieceCalls] using hrefl
      rw [if_neg (by simpa using hempty)]
      by_cases hacc : s.ctx.accumulate = true
      · rw [if_pos hacc]
        have hview := bufAppend_view hH (ch.buf s.r) bytes s.world.env
        generalize bufAppend H (ch.buf s.r) bytes s.world.env = b at hview ⊢
        have herr : b.1.err = ((ch.buf s.r).view.append bytes).err :=
          congrArg CappedBytes.err hview
        by_cases hroom : ((ch.buf s.r).view.append bytes).err = .ok
        · rw [if_neg (by simp [bufStatus, herr, hroom]), if_neg (by simp [bufStatus, herr, hroom])]
          rw [CappedBytes.append_ok hroom] at hview
          have hstore : Assembles s { s.setEnv b.2 with r := ch.setBuf s.r b.1 }
              (fun ch' => if ch' = ch ∧ s.ctx.accumulate = true then bytes else []) id [] :=
            { accumulate := rfl
              done := rfl
              err := rfl
              raw := ⟨hs.err, hs.cap⟩
              stored := by
                intro ch'
                cases ch <;> cases ch' <;> simp [hacc, Channel.buf, Channel.setBuf] <;> exact hview
              lifted := by cases ch <;> rfl
              acts := (List.append_nil _).symm }
          rcases hcall bytes _ hempty hstore.raw with ⟨hzero, hass⟩ | ⟨-, -, -, hfalse⟩
          · refine .inl ⟨hzero, ?_⟩
            simpa using hstore.trans hass
          · exact hfalse.elim
        · have hstatus := b.1.inv_err
          rw [herr] at hstatus
          simp only [List.mem_cons, List.not_mem_nil, or_false] at hstatus
          rcases hstatus with hok | hnomem | hbig
          · exact absurd hok hroom
          · rw [if_pos (by rw [bufStatus, herr, hnomem])]
            exact .inr ⟨rfl, by simp [StreamW.failWith], hacc, bytes, rfl, hempty, hroom⟩
          · rw [if_neg (by simp [bufStatus, herr, hbig]), if_pos (by rw [bufStatus, herr, hbig])]
            exact .inr ⟨rfl, by simp [StreamW.failWith], hacc, bytes, rfl, hempty, hroom⟩
      · rw [if_neg hacc]
        rcases hcall bytes s hempty hs with ⟨hzero, hass⟩ | ⟨-, -, -, hfalse⟩
        · refine .inl ⟨hzero, ?_⟩
          simpa [hacc] using hass
        · exact hfalse.elim

omit hcbs in
/-- The finish reason of an event. -/
theorem streamFinish_assembles (choice0 : Json) {s : StreamW σ} (hs : RawOk s) :
    AssemblesOr False s (fun _ => [])
      (·.finished (choice0.getStr? (ascii "finish_reason"))) [] (streamFinish H choice0 s) := by
  unfold streamFinish
  cases choice0.getStr? (ascii "finish_reason") with
  | none => exact .inl ⟨rfl, .refl hs⟩
  | some raw =>
      have hset : (resultSetFinish H s.r raw s.world.env).1 = .ok ∧
          (resultSetFinish H s.r raw s.world.env).2.1 =
            { s.r with finishRaw := some raw, finish := mapFinish raw } := by
        unfold resultSetFinish
        rw [if_pos (hH _ _)]
        exact ⟨rfl, rfl⟩
      dsimp only
      rw [if_neg (by simp [hset.1]), hset.2]
      refine .inl ⟨rfl, ?_⟩
      exact
        { accumulate := rfl
          done := rfl
          err := rfl
          raw := ⟨hs.err, hs.cap⟩
          stored := fun ch => by
            rw [CappedBytes.plus_nil]
            cases ch <;> rfl
          lifted := rfl
          acts := (List.append_nil _).symm }

omit hcbs in
/-- The usage and the model of an event. -/
theorem streamLift_assembles (root : Json) {s : StreamW σ} (hs : RawOk s) :
    AssemblesOr False s (fun _ => []) (·.reported root) [] (streamLift H root s) := by
  have hframe := liftModel_frame H (liftUsage s.r root) root s.world.env
  have husage := liftUsage_frame s.r root
  have hlift := liftModel_lifted hH s.r root s.world.env
  unfold streamLift
  dsimp only
  rw [if_neg (by simp [hlift.1])]
  refine .inl ⟨rfl, ?_⟩
  exact
    { accumulate := rfl
      done := rfl
      err := rfl
      raw := ⟨hs.err, hs.cap⟩
      stored := fun ch => by
        rw [CappedBytes.plus_nil]
        change (ch.buf (liftModel H (liftUsage s.r root) root s.world.env).2.1).view = _
        rw [hframe.buf, husage.buf]
      lifted := hlift.2
      acts := (List.append_nil _).symm }

/-- The bytes an event stores on a channel. -/
def eventStored (accumulate : Bool) (root : Json) (ch : Channel) : Bytes :=
  if accumulate then (eventPiece ch root).getD [] else []

/-- A piece of an event does not fit into its buffer. -/
def EventFull (s : StreamW σ) (root : Json) : Prop :=
  ∃ ch bytes, eventPiece ch root = some bytes ∧ bytes ≠ [] ∧
    ((ch.buf s.r).view.append bytes).err ≠ .ok

omit hH hcbs in
/-- What is assembled may be written another way. -/
theorem AssemblesOr.congr {full full' : Prop} {s : StreamW σ} {g g' : Channel → Bytes}
    {f f' : Lifted → Lifted} {calls calls' : List Act} {r : Int × StreamW σ}
    (h : AssemblesOr full s g f calls r) (hfull : full → full') (hg : ∀ ch, g ch = g' ch)
    (hf : ∀ a, f a = f' a) (hcalls : calls = calls') : AssemblesOr full' s g' f' calls' r := by
  obtain rfl : g = g' := funext hg
  obtain rfl : f = f' := funext hf
  subst hcalls
  exact h.imp_right fun ⟨hcode, herr, hacc, h⟩ => ⟨hcode, herr, hacc, hfull h⟩

/-- The {lit}`delta` of an event: content, reasoning, and the report of tool calls. -/
theorem streamDelta_assembles (data : Bytes) (delta : Json) {s : StreamW σ} (hs : RawOk s) :
    AssemblesOr
      ((∃ bytes, delta.getStr? (ascii "content") = some bytes ∧ bytes ≠ [] ∧
          ((Channel.content.buf s.r).view.append bytes).err ≠ .ok) ∨
        ∃ bytes, deltaReasoning delta = some bytes ∧ bytes ≠ [] ∧
          ((Channel.reasoning.buf s.r).view.append bytes).err ≠ .ok) s
      (fun ch => if s.ctx.accumulate = true then
        match ch with
        | .content => (delta.getStr? (ascii "content")).getD []
        | .reasoning => (deltaReasoning delta).getD []
        else [])
      id
      (pieceCalls cbs .content (delta.getStr? (ascii "content")) ++
        pieceCalls cbs .reasoning (deltaReasoning delta) ++
        if (delta.get? (ascii "tool_calls")).isSome then rawCalls cbs data else [])
      (streamDelta H cbs data delta s) := by
  have hcontent := deliver_assembles hH hcbs .content (delta.getStr? (ascii "content")) hs
  have hall := hcontent.andThen fun s1 h1 => by
    have hreasoning := deliver_assembles hH hcbs .reasoning (deltaReasoning delta) h1.raw
    have hsame : (Channel.reasoning.buf s1.r).view = (Channel.reasoning.buf s.r).view := by
      rw [h1.stored]
      simp
    rw [hsame, h1.accumulate] at hreasoning
    exact hreasoning.andThen fun s2 h2 => by
      have htools : AssemblesOr False s2 (fun _ => []) id
          (if (delta.get? (ascii "tool_calls")).isSome then rawCalls cbs data else [])
          (if (delta.get? (ascii "tool_calls")).isSome then rawChunk H cbs data s2
            else (0, s2)) := by
        split_ifs
        · exact rawChunk_assembles hH hcbs data h2.raw
        · exact .inl ⟨rfl, .refl h2.raw⟩
      exact htools
  unfold streamDelta
  refine hall.congr ?_ ?_ (fun _ => rfl) (by simp)
  · rintro (h | h | h)
    · exact .inl h
    · exact .inr h
    · exact h.elim
  · intro ch
    by_cases hacc : s.ctx.accumulate = true <;> cases ch <;> simp [hacc]

/-- The chat event: pieces, finish reason, usage and model. -/
theorem streamEvent_assembles (data : Bytes) {root : Json}
    (hroot : (firstChoice root).all Json.isObj = true) {s : StreamW σ} (hs : RawOk s) :
    AssemblesOr (EventFull s root) s (eventStored s.ctx.accumulate root) (·.add root)
      (chatCalls cbs data root) (streamEvent H cbs data root s) := by
  unfold streamEvent
  cases hchoice : firstChoice root with
  | none =>
      have hpiece : ∀ ch, eventPiece ch root = none := by
        intro ch
        cases ch <;> simp [eventPiece, eventDelta, hchoice]
      refine (streamLift_assembles hH root hs).congr False.elim ?_ ?_ ?_
      · intro ch
        simp [eventStored, hpiece]
      · intro a
        simp [Lifted.add, Lifted.finished, eventFinish, hchoice]
      · simp [chatCalls, eventCalls, hpiece, pieceCalls, eventDelta, hchoice]
  | some choice0 =>
      rw [hchoice] at hroot
      dsimp only
      rw [if_pos (by simpa using hroot)]
      have hdelta : eventDelta root = (choice0.get? (ascii "delta")).filter Json.isObj := by
        simp [eventDelta, hchoice]
      have hfinish : eventFinish root = choice0.getStr? (ascii "finish_reason") := by
        simp [eventFinish, hchoice]
      obtain ⟨r, hstep, hpieces⟩ : ∃ r, streamChoice H cbs data choice0 s =
          andThen r (streamFinish H choice0) ∧
          AssemblesOr (EventFull s root) s (eventStored s.ctx.accumulate root) id
            (chatCalls cbs data root) r := by
        unfold streamChoice
        refine ⟨_, rfl, ?_⟩
        cases hd : (choice0.get? (ascii "delta")).filter Json.isObj with
        | none =>
            have hpiece : ∀ ch, eventPiece ch root = none := by
              intro ch
              cases ch <;> simp [eventPiece, hdelta, hd]
            have hnone : AssemblesOr False s (fun _ => []) id [] (0, s) := .inl ⟨rfl, .refl hs⟩
            refine hnone.congr False.elim ?_ (fun _ => rfl) ?_
            · intro ch
              simp [eventStored, hpiece]
            · simp [chatCalls, eventCalls, hpiece, pieceCalls, hdelta, hd]
        | some delta =>
            have hcontent : eventPiece .content root = delta.getStr? (ascii "content") := by
              simp [eventPiece, hdelta, hd]
            have hreasoning : eventPiece .reasoning root = deltaReasoning delta := by
              simp [eventPiece, hdelta, hd]
            refine (streamDelta_assembles hH hcbs data delta hs).congr ?_ ?_ (fun _ => rfl) ?_
            · rintro (⟨bytes, hb, h⟩ | ⟨bytes, hb, h⟩)
              · exact ⟨.content, bytes, hcontent.trans hb, h⟩
              · exact ⟨.reasoning, bytes, hreasoning.trans hb, h⟩
            · intro ch
              cases ch <;> simp [eventStored, hcontent, hreasoning]
            · rw [chatCalls, eventCalls, hcontent, hreasoning, hdelta, hd]
              rfl
      have hall := (hpieces.andThen fun s1 h1 =>
        streamFinish_assembles hH choice0 h1.raw).andThen fun s2 h2 =>
          streamLift_assembles hH root h2.raw
      rw [hstep]
      refine hall.congr ?_ ?_ ?_ ?_
      · rintro ((h | h) | h)
        · exact h
        · exact h.elim
        · exact h.elim
      · intro ch
        simp
      · intro a
        simp [Lifted.add, hfinish]
      · simp

/-- One payload: a chat event assembles, everything else is only reported. -/
theorem streamOnEvent_assembles {data : Bytes} (hdata : data ≠ ascii "[DONE]")
    {s : StreamW σ} (hs : RawOk s) :
    AssemblesOr (∃ root, chatEvent Y data = some root ∧ EventFull s root) s
      (fun ch => (chatEvent Y data).elim [] fun root => eventStored s.ctx.accumulate root ch)
      (fun a => (chatEvent Y data).elim a a.add)
      (payloadCalls Y cbs data) (streamOnEvent Y H cbs data s) := by
  have hread : yyjsonRead Y H data s.world.env =
      (Y.read data, (yyjsonRead Y H data s.world.env).2) := by
    unfold yyjsonRead
    rw [if_pos (hH _ _)]
  -- the read and the flag change nothing that is assembled
  have hback : ∀ (full : Prop) g f calls (saw : Bool) (r : Int × StreamW σ) (env : σ),
      AssemblesOr full { s.setEnv env with ctx := { s.ctx with sawEvent := saw } } g f calls r →
      AssemblesOr full s g f calls r := by
    rintro full g f calls saw r env (⟨hzero, h⟩ | hfull)
    · exact .inl ⟨hzero, h.accumulate, h.done, h.err, h.raw, h.stored, h.lifted, h.acts⟩
    · exact .inr hfull
  have hraw : ∀ env, AssemblesOr False s (fun _ => []) id (rawCalls cbs data)
      (rawChunk H cbs data (s.setEnv env)) :=
    fun env => hback _ _ _ _ s.ctx.sawEvent _ env
      (rawChunk_assembles hH hcbs data (s := { s.setEnv env with ctx := s.ctx }) ⟨hs.err, hs.cap⟩)
  unfold streamOnEvent payloadCalls chatEvent
  rw [if_neg hdata, hread]
  dsimp only
  cases Y.read data with
  | none => exact (hraw _).congr False.elim (fun _ => rfl) (fun _ => rfl) rfl
  | some root =>
      dsimp only
      by_cases hobj : (root.isObj && (root.get? (ascii "error")).isNone) = true
      · rw [if_pos hobj]
        by_cases hchoice : (firstChoice root).all Json.isObj = true
        · have hchat : (some root).filter (fun root => root.isObj &&
              (root.get? (ascii "error")).isNone && (firstChoice root).all Json.isObj) =
              some root := Option.filter_eq_some_iff.mpr ⟨rfl, by rw [hobj, hchoice]; rfl⟩
          rw [hchat]
          refine (hback _ _ _ _ true _ _
            (streamEvent_assembles hH hcbs data hchoice ⟨hs.err, hs.cap⟩)).congr ?_
            (fun _ => rfl) (fun _ => rfl) rfl
          exact fun h => ⟨root, rfl, h⟩
        · have hchat : (some root).filter (fun root => root.isObj &&
              (root.get? (ascii "error")).isNone && (firstChoice root).all Json.isObj) =
              none := by
            rw [Option.filter_some, if_neg (by rw [hobj]; simpa using hchoice)]
          rw [hchat]
          unfold streamEvent
          cases hfirst : firstChoice root with
          | none =>
              rw [hfirst] at hchoice
              exact absurd rfl hchoice
          | some choice0 =>
              rw [hfirst] at hchoice
              dsimp only
              rw [if_neg (by simpa using hchoice)]
              exact (hback _ _ _ _ true _ _
                (rawChunk_assembles hH hcbs data ⟨hs.err, hs.cap⟩)).congr False.elim
                (fun _ => rfl) (fun _ => rfl) rfl
      · have hchat : (some root).filter (fun root => root.isObj &&
            (root.get? (ascii "error")).isNone && (firstChoice root).all Json.isObj) =
            none := by
          rw [Option.filter_some, if_neg]
          intro hall
          exact hobj (by
            rw [Bool.and_eq_true] at hall
            exact hall.1)
        rw [if_neg hobj, hchat]
        exact (hraw _).congr False.elim (fun _ => rfl) (fun _ => rfl) rfl

/-! ## A list of payloads -/

/-- The chat events among payloads. -/
def chatEvents (Y : Yyjson) (payloads : List Bytes) : List Json :=
  payloads.filterMap (chatEvent Y)

/-- What events carry on a channel. -/
def eventsPiece (ch : Channel) (roots : List Json) : Bytes :=
  (roots.filterMap (eventPiece ch)).flatten

omit [SizeT] hH hcbs in
/-- The piece of the first event stands in front of the others. -/
theorem eventsPiece_cons (ch : Channel) (root : Json) (roots : List Json) :
    eventsPiece ch (root :: roots) = (eventPiece ch root).getD [] ++ eventsPiece ch roots := by
  unfold eventsPiece
  cases h : eventPiece ch root <;> simp [h]

omit hH hcbs in
/-- Room for two pieces is room for the first, and then for the second. -/
theorem CappedBytes.append_room {c : CappedBytes} {xs ys : Bytes}
    (h : (c.append (xs ++ ys)).err = .ok) :
    (c.append xs).err = .ok ∧ ((c.plus xs).append ys).err = .ok := by
  obtain ⟨herr, hfits⟩ := (CappedBytes.append_ok_iff _ _).mp h
  rw [← List.append_assoc] at hfits
  exact ⟨(CappedBytes.append_ok_iff _ _).mpr
      ⟨herr, hfits.shorter (List.prefix_append _ ys).length_le⟩,
    (CappedBytes.append_ok_iff _ _).mpr ⟨herr, hfits⟩⟩

/-- Payloads for which there is room: all of them are taken, and they assemble. -/
theorem run_assembles (payloads : List Bytes) (hdata : ∀ p ∈ payloads, p ≠ ascii "[DONE]")
    {s : StreamW σ} (hs : RawOk s) (hacc : s.ctx.accumulate = true)
    (hroom : ∀ ch : Channel, ((ch.buf s.r).view.append (eventsPiece ch (chatEvents Y payloads))).err = .ok) :
    (StopFold.run (streamOnEvent Y H cbs) payloads s).1 = 0 ∧
      Assembles s (StopFold.run (streamOnEvent Y H cbs) payloads s).2
        (fun ch => eventsPiece ch (chatEvents Y payloads))
        (fun a => (chatEvents Y payloads).foldl Lifted.add a)
        (payloads.flatMap (payloadCalls Y cbs)) := by
  induction payloads generalizing s with
  | nil => exact ⟨rfl, .refl hs⟩
  | cons p payloads ih =>
      have hfirst := streamOnEvent_assembles (Y := Y) hH hcbs (hdata p (by simp)) hs
      have hrest := fun q hq => hdata q (List.mem_cons_of_mem p hq)
      rw [hacc] at hfirst
      cases hchat : chatEvent Y p with
      | none =>
          have hevents : chatEvents Y (p :: payloads) = chatEvents Y payloads := by
            simp [chatEvents, hchat]
          rw [hevents] at hroom ⊢
          rw [hchat] at hfirst
          rcases hfirst with ⟨hzero, hass⟩ | ⟨-, -, -, root, hroot, -⟩
          · have hstored : ∀ ch : Channel,
                (ch.buf (streamOnEvent Y H cbs p s).2.r).view = (ch.buf s.r).view := by
              intro ch
              rw [hass.stored]
              simp
            have hlater := ih hrest hass.raw (hass.accumulate.trans hacc)
              fun ch => by rw [hstored]; exact hroom ch
            rw [StopFold.run_cons, if_pos hzero]
            exact ⟨hlater.1, hass.trans hlater.2⟩
          · cases hroot
      | some root =>
          have hevents : chatEvents Y (p :: payloads) = root :: chatEvents Y payloads := by
            simp [chatEvents, hchat]
          rw [hevents] at hroom ⊢
          simp only [eventsPiece_cons] at hroom ⊢
          rw [hchat] at hfirst
          rcases hfirst with ⟨hzero, hass⟩ | ⟨-, -, -, root', hroot, ch, bytes, hbytes, -, hfull⟩
          · have hlater := ih hrest hass.raw (hass.accumulate.trans hacc) fun ch => by
              rw [hass.stored]
              exact (CappedBytes.append_room (hroom ch)).2
            rw [StopFold.run_cons, if_pos hzero]
            exact ⟨hlater.1, hass.trans hlater.2⟩
          · cases hroot
            have hfits := (CappedBytes.append_room (hroom ch)).1
            rw [hbytes] at hfits
            exact absurd hfits hfull

omit hH hcbs in
/-- All calls for a piece are deltas. -/
theorem pieceCalls_deltas (ch : Channel) (piece : Option Bytes) :
    (pieceCalls cbs ch piece).filter Act.isDelta = pieceCalls cbs ch piece := by
  unfold pieceCalls
  cases piece with
  | none => rfl
  | some bytes =>
      dsimp only
      split_ifs with hset
      · rw [Bool.and_eq_true] at hset
        simp only [List.filter_singleton, channel_act_isDelta, hset.2, cond_true]
      · rfl

omit hH hcbs in
/-- The deltas among the calls of some payloads. -/
theorem payloadCalls_deltas (payloads : List Bytes) :
    (payloads.flatMap (payloadCalls Y cbs)).filter Act.isDelta =
      (chatEvents Y payloads).flatMap (eventCalls cbs) := by
  have hraw : ∀ data, (rawCalls cbs data).filter Act.isDelta = [] := by
    intro data
    unfold rawCalls
    split_ifs <;> rfl
  have hone : ∀ payload, (payloadCalls Y cbs payload).filter Act.isDelta =
      (chatEvent Y payload).elim [] (eventCalls cbs) := by
    intro payload
    unfold payloadCalls
    cases chatEvent Y payload with
    | none => exact hraw payload
    | some root =>
        dsimp only [Option.elim]
        unfold chatCalls eventCalls
        rw [List.filter_append, List.filter_append, pieceCalls_deltas, pieceCalls_deltas]
        split_ifs
        · rw [hraw, List.append_nil]
        · rw [List.filter_nil, List.append_nil]
  induction payloads with
  | nil => rfl
  | cons payload payloads ih =>
      rw [List.flatMap_cons, List.filter_append, hone, ih]
      cases hchat : chatEvent Y payload <;> simp [chatEvents, hchat]

end Events

/-! ## The content of the result -/

/-- The last of the values a list offers. -/
def lastOf {α : Type} (new : Json → Option α) (roots : List Json) : Option α :=
  (roots.filterMap new).getLast?

/-- The lifted fields after a list of events: the last finish reason and counts, and the first
model. -/
theorem foldl_lifted (roots : List Json) (a : Lifted) :
    roots.foldl Lifted.add a =
      { finishRaw := (lastOf eventFinish roots).or a.finishRaw
        finish := ((lastOf eventFinish roots).map mapFinish).getD a.finish
        model := a.model.or (roots.filterMap eventModel).head?
        promptTokens := (lastOf (eventCount "prompt_tokens") roots).getD a.promptTokens
        completionTokens :=
          (lastOf (eventCount "completion_tokens") roots).getD a.completionTokens
        totalTokens := (lastOf (eventCount "total_tokens") roots).getD a.totalTokens } := by
  have hlast : ∀ {β : Type} (get : Lifted → β) (new : Json → Option β),
      (∀ a root, get (Lifted.add a root) = (new root).getD (get a)) →
      get (roots.foldl Lifted.add a) = (lastOf new roots).getD (get a) :=
    fun _ _ hstep => LastWins.foldl_last hstep roots a
  have hmapped : ∀ {α β : Type} (new : Json → Option α) (g : α → β),
      lastOf (fun root => (new root).map g) roots = (lastOf new roots).map g := by
    intro α β new g
    rw [lastOf, lastOf, ← List.map_filterMap, List.getLast?_map]
  have hraw := hlast (fun a => a.finishRaw) (fun root => (eventFinish root).map some)
    fun a root => by
      cases h : eventFinish root <;> simp [Lifted.add, Lifted.finished, Lifted.reported, h]
  have hor : ((lastOf eventFinish roots).map some).getD a.finishRaw =
      (lastOf eventFinish roots).or a.finishRaw := by
    cases lastOf eventFinish roots <;> rfl
  rw [hmapped, hor] at hraw
  have hfinish := hlast (fun a => a.finish) (fun root => (eventFinish root).map mapFinish)
    fun _ _ => rfl
  rw [hmapped] at hfinish
  have hmodel := @LastWins.foldl_first _ _ _ Lifted.add (fun a => a.model) eventModel
    (fun _ _ => rfl) roots a
  have hprompt := hlast (fun a => a.promptTokens) (eventCount "prompt_tokens") fun _ _ => rfl
  have hcompletion := hlast (fun a => a.completionTokens) (eventCount "completion_tokens")
    fun _ _ => rfl
  have htotal := hlast (fun a => a.totalTokens) (eventCount "total_tokens") fun _ _ => rfl
  rw [← hraw, ← hfinish, ← hmodel, ← hprompt, ← hcompletion, ← htotal]

section Fresh

variable [SizeT] {σ : Type}

/-- Payloads that are passed in order to the event callback, none of them {lit}`[DONE]` and their
pieces within the caps, on a fresh context and result: all are taken.  The text is the
concatenation of the content strings of the chat events and the reasoning that of the
reasoning strings; each of them that is not empty is handed over once, in order; the finish
reason and the counts are the last ones, the model is the first one. -/
theorem streamOnEvent_assembly (Y : Yyjson) (H : Heap σ) (hH : H.Reliable)
    (cbs : Option (Callbacks σ)) (hcbs : Agreeable cbs) (maxResponseBytes : Nat)
    (payloads : List Bytes) (hdata : ∀ p ∈ payloads, p ≠ ascii "[DONE]")
    (hfits : ∀ ch, Fits maxResponseBytes (eventsPiece ch (chatEvents Y payloads)))
    (w : World σ) :
    let out := StopFold.run (streamOnEvent Y H cbs) payloads
      ⟨streamCtxInit true, resultInit maxResponseBytes, w⟩
    let roots := chatEvents Y payloads
    let r := out.2.r
    out.1 = 0 ∧ out.2.ctx.err = .ok ∧
      resultText r = (roots.filterMap (eventPiece .content)).flatten ∧
      resultReasoning r = (roots.filterMap (eventPiece .reasoning)).flatten ∧
      out.2.world.deltas = w.deltas ++ roots.flatMap (eventCalls cbs) ∧
      r.finishRaw = (roots.filterMap eventFinish).getLast? ∧
      r.finish = (r.finishRaw.map mapFinish).getD .unknown ∧
      r.model = (roots.filterMap eventModel).head? ∧
      r.promptTokens =
        ((roots.filterMap (eventCount "prompt_tokens")).getLast?).getD (-1) ∧
      r.completionTokens =
        ((roots.filterMap (eventCount "completion_tokens")).getLast?).getD (-1) ∧
      r.totalTokens =
        ((roots.filterMap (eventCount "total_tokens")).getLast?).getD (-1) := by
  intro out roots r
  have hraw : RawOk (⟨streamCtxInit true, resultInit maxResponseBytes, w⟩ : StreamW σ) :=
    ⟨rfl, rfl⟩
  have hempty : ∀ ch : Channel,
      (ch.buf (resultInit maxResponseBytes)).view = ⟨[], maxResponseBytes, .ok⟩ := by
    intro ch
    cases ch <;> exact bufInit_view maxResponseBytes
  obtain ⟨hzero, hass⟩ := run_assembles (Y := Y) hH hcbs payloads hdata hraw rfl fun ch => by
    rw [hempty]
    exact (hfits ch).append
  have hstored : ∀ ch : Channel, (ch.buf r).bytes = eventsPiece ch roots := by
    intro ch
    have hview := congrArg CappedBytes.bytes (hass.stored ch)
    rw [hempty] at hview
    exact hview
  have hlifted : r.lifted = _ := hass.lifted.trans (foldl_lifted roots _)
  have hfinishRaw : r.finishRaw = (roots.filterMap eventFinish).getLast? :=
    (congrArg Lifted.finishRaw hlifted).trans Option.or_none
  have hdeltas : out.2.world.deltas = w.deltas ++ roots.flatMap (eventCalls cbs) := by
    rw [World.deltas, hass.acts, List.filter_append, payloadCalls_deltas]
    rfl
  refine ⟨hzero, hass.err, hstored .content, hstored .reasoning, hdeltas, hfinishRaw, ?_,
    congrArg Lifted.model hlifted, congrArg Lifted.promptTokens hlifted,
    congrArg Lifted.completionTokens hlifted, congrArg Lifted.totalTokens hlifted⟩
  rw [hfinishRaw]
  exact congrArg Lifted.finish hlifted

end Fresh

section Plain

attribute [local instance] lp64

/-- The plain callbacks answer zero. -/
theorem plainCallbacks_agreeable {σ : Type} : Agreeable (some (plainCallbacks : Callbacks σ)) where
  data ch f hf bytes s := by
    cases ch <;> cases hf <;> rfl
  raw f hf bytes s := by
    cases hf
    rfl

/-- Two pieces with noise between them are put together. -/
theorem streamOnEvent_assembly_plain :
    resultText (StopFold.run
      (streamOnEvent (plainYyjson (plainEventText "hi") (plainEvent "hi")) Heap.plentiful
        (some plainCallbacks))
      [plainEventText "hi", ascii "noise", plainEventText "hi"]
      ⟨streamCtxInit true, resultInit 4, ⟨(), []⟩⟩).2.r = ascii "hihi" :=
  (streamOnEvent_assembly (plainYyjson (plainEventText "hi") (plainEvent "hi")) Heap.plentiful
    Heap.plentiful_reliable (some plainCallbacks) plainCallbacks_agreeable 4
    [plainEventText "hi", ascii "noise", plainEventText "hi"] (by decide +kernel)
    (fun ch => by cases ch <;> exact ⟨.inr (by decide +kernel), by decide +kernel⟩)
    ⟨(), []⟩).2.2.1.trans (by decide +kernel)

end Plain

end Sicha
