import Sicha.Json
import Sicha.Sse
import Sicha.World

/-!
# Response assembly

A translation of the rest of {lit}`response.c`: the non-streaming parse and the
assembly of streamed events.

Main results:

- Definitions {lit}`responseParse` and {lit}`streamOnEvent`.
-/

namespace Sicha

variable [SizeT] {w : Type}

/-! ## Shared JSON lifting -/

/-- {lit}`lift_i64`: -1 unless the member is a number. -/
def liftI64 (obj : Json) (key : Bytes) : Int :=
  ((obj.get? key).bind Json.sint?).getD (-1)

/-- A lifted count replaces the old one if it is not negative. -/
def liftCount (old new : Int) : Int :=
  if new ≥ 0 then new else old

/-- {lit}`lift_usage`. -/
def liftUsage (r : Result) (root : Json) : Result :=
  match (root.get? (ascii "usage")).filter Json.isObj with
  | none => r
  | some usage =>
      { r with
        promptTokens := liftCount r.promptTokens (liftI64 usage (ascii "prompt_tokens"))
        completionTokens :=
          liftCount r.completionTokens (liftI64 usage (ascii "completion_tokens"))
        totalTokens := liftCount r.totalTokens (liftI64 usage (ascii "total_tokens")) }

/-- {lit}`lift_model`: the first model reported wins. -/
def liftModel (H : Heap w) (r : Result) (root : Json) (s : w) : Status × Result × w :=
  match r.model, root.getStr? (ascii "model") with
  | none, some model => resultSetModel H r model s
  | _, _ => (.ok, r, s)

/-- {lit}`find_reasoning`: the first hit wins. -/
def findReasoning (choice0 : Json) (msg : Option Json) : Option Bytes :=
  (msg.bind fun m => m.getStr? (ascii "reasoning")) <|>
    (msg.bind fun m => m.getStr? (ascii "reasoning_content")) <|>
    choice0.getStr? (ascii "reasoning")

/-- The first element of a non-empty {lit}`choices` array. -/
def firstChoice (root : Json) : Option Json :=
  (root.get? (ascii "choices")).bind Json.first?

/-! ## Non-streaming parse -/

/-- The end of {lit}`sicha_response_parse`: usage and model. -/
def parseTail (H : Heap w) (root : Json) (r : Result) (s : w) :
    Status × BodyState × Result × w :=
  match liftModel H (liftUsage r root) root s with
  | (.ok, r, s) => (.ok, .ok, r, s)
  | (st, r, s) => (st, .malformed, r, s)

/-- The finish reason of {lit}`sicha_response_parse`, and the rest. -/
def parseFinish (H : Heap w) (root choice0 : Json) (r : Result) (s : w) :
    Status × BodyState × Result × w :=
  match choice0.getStr? (ascii "finish_reason") with
  | none => parseTail H root r s
  | some raw =>
      match resultSetFinish H r raw s with
      | (.ok, r, s) => parseTail H root r s
      | (st, r, s) => (st, .malformed, r, s)

/-- How {lit}`sicha_response_parse` goes on after an append: a capped buffer is a
condition of the body, any other error ends the parse. -/
def afterAppend (b : Buf) (r : Result) (s : w)
    (next : Result → w → Status × BodyState × Result × w) : Status × BodyState × Result × w :=
  if bufStatus b = .tooBig then (.ok, .tooBig, r, s)
  else if bufStatus b ≠ .ok then (bufStatus b, .malformed, r, s)
  else next r s

/-- The reasoning of {lit}`sicha_response_parse`, and the rest. -/
def parseReasoning (H : Heap w) (root choice0 : Json) (msg : Option Json) (r : Result)
    (s : w) : Status × BodyState × Result × w :=
  match findReasoning choice0 msg with
  | none => parseFinish H root choice0 r s
  | some reasoning =>
      let b := bufAppend H r.reasoning reasoning s
      afterAppend b.1 { r with reasoning := b.1 } b.2 (parseFinish H root choice0)

/-- A turn that carries tool calls instead of content. -/
def hasToolCalls (msg : Option Json) : Bool :=
  ((msg.bind fun m => m.get? (ascii "tool_calls")).bind Json.first?).isSome

/-- The content of {lit}`sicha_response_parse`, and the rest. -/
def parseContent (H : Heap w) (root choice0 : Json) (r : Result) (s : w) :
    Status × BodyState × Result × w :=
  let msg := (choice0.get? (ascii "message")).filter Json.isObj
  match msg.bind fun m => m.getStr? (ascii "content") with
  | some content =>
      let b := bufAppend H r.text content s
      afterAppend b.1 { r with text := b.1 } b.2 (parseReasoning H root choice0 msg)
  | none =>
      -- a tool-call turn is success; anything else is unusable
      if hasToolCalls msg then parseReasoning H root choice0 msg r s
      else (.ok, .malformed, r, s)

/-- {lit}`sicha_response_parse`. -/
def responseParse (Y : Yyjson) (H : Heap w) (r : Result) (body : Bytes) (s : w) :
    Status × BodyState × Result × w :=
  if body.length = 0 then (.ok, .empty, r, s)
  else
    match yyjsonRead Y H body s with
    | (none, s) => (.ok, .malformed, r, s)
    | (some root, s) =>
        match (firstChoice root).filter Json.isObj with
        | none => (.ok, .malformed, r, s)
        | some choice0 => parseContent H root choice0 r s

/-! ## Streaming assembly -/

/-- {lit}`SICHA_STREAM_STOP`. -/
def streamStop : Int := 1

/-- {lit}`SICHA_STREAM_CANCEL`. -/
def streamCancel : Int := 2

/-- {lit}`sicha_stream_ctx`, without its pointers. -/
structure StreamCtx where
  accumulate : Bool
  /-- saw {lit}`[DONE]` -/
  done : Bool
  /-- a callback received delta bytes -/
  delivered : Bool
  /-- any parseable event arrived -/
  sawEvent : Bool
  err : Status
  /-- last payload forwarded to {lit}`on_raw_chunk`, capped -/
  lastRaw : Buf

/-- {lit}`sicha_stream_ctx_init`. -/
def streamCtxInit (accumulate : Bool) : StreamCtx where
  accumulate := accumulate
  done := false
  delivered := false
  sawEvent := false
  err := .ok
  lastRaw := bufInit excerptMax

/-- What the event callback works on: its context, the result, and the world. -/
structure StreamW (σ : Type) where
  ctx : StreamCtx
  r : Result
  world : World σ

variable {σ : Type}

/-- The allocator, seen from the event callback. -/
def streamHeap (H : Heap σ) : Heap (StreamW σ) :=
  H.lift (fun s => s.world.env) fun v s => { s with world := { s.world with env := v } }

/-- The environment after an allocation. -/
def StreamW.setEnv (s : StreamW σ) (v : σ) : StreamW σ :=
  { s with world := { s.world with env := v } }

/-- Record an internal error and stop. -/
def StreamW.failWith (s : StreamW σ) (err : Status) : Int × StreamW σ :=
  (-1, { s with ctx := { s.ctx with err := err } })

/-- Go on only after a step that answered zero. -/
def andThen {S : Type} (r : Int × S) (next : S → Int × S) : Int × S :=
  if r.1 = 0 then next r.2 else r

/-- Call a data callback, if it is set.  A nonzero answer cancels the request. -/
def callData (cb : Option (DataCallback σ)) (mk : Bytes → Int → Act) (data : Bytes)
    (s : StreamW σ) : Int × StreamW σ :=
  match cb with
  | none => (0, s)
  | some f =>
      let r := s.world.act (f data) (mk data)
      (if r.1 ≠ 0 then streamCancel else 0, { s with world := r.2 })

/-- {lit}`raw_chunk`. -/
def rawChunk (H : Heap σ) (cbs : Option (Callbacks σ)) (data : Bytes) (s : StreamW σ) :
    Int × StreamW σ :=
  let b := bufAppend H (bufReset s.ctx.lastRaw) (data.take excerptMax) s.world.env
  let s := { s.setEnv b.2 with ctx := { s.ctx with lastRaw := b.1 } }
  if bufStatus b.1 = .nomem then s.failWith .nomem
  else callData (cbs.bind Callbacks.onRawChunk) .onRawChunk data s

/-- The two kinds of delta, with the buffer and the callback of each. -/
inductive Channel where
  | content
  | reasoning
deriving DecidableEq

/-- The buffer that accumulates a channel. -/
def Channel.buf (ch : Channel) (r : Result) : Buf :=
  match ch with
  | .content => r.text
  | .reasoning => r.reasoning

/-- The result with a channel's buffer replaced. -/
def Channel.setBuf (ch : Channel) (r : Result) (b : Buf) : Result :=
  match ch with
  | .content => { r with text := b }
  | .reasoning => { r with reasoning := b }

/-- The callback of a channel. -/
def Channel.callback (ch : Channel) (cbs : Option (Callbacks σ)) : Option (DataCallback σ) :=
  match ch with
  | .content => cbs.bind Callbacks.onDelta
  | .reasoning => cbs.bind Callbacks.onReasoning

/-- The logged call of a channel. -/
def Channel.act (ch : Channel) : Bytes → Int → Act :=
  match ch with
  | .content => .onDelta
  | .reasoning => .onReasoning

/-- The second half of {lit}`deliver`: hand the bytes to the callback. -/
def deliverCall (cbs : Option (Callbacks σ)) (ch : Channel) (bytes : Bytes)
    (s : StreamW σ) : Int × StreamW σ :=
  if (ch.callback cbs).isSome then
    callData (ch.callback cbs) ch.act bytes { s with ctx := { s.ctx with delivered := true } }
  else (0, s)

/-- {lit}`deliver`. -/
def deliver (H : Heap σ) (cbs : Option (Callbacks σ)) (ch : Channel) (bytes : Bytes)
    (s : StreamW σ) : Int × StreamW σ :=
  if bytes.length = 0 then (0, s)
  else if s.ctx.accumulate then
    let b := bufAppend H (ch.buf s.r) bytes s.world.env
    let s := { s.setEnv b.2 with r := ch.setBuf s.r b.1 }
    if bufStatus b.1 = .nomem then s.failWith .nomem
    else if bufStatus b.1 = .tooBig then s.failWith .tooBig
    else deliverCall cbs ch bytes s
  else deliverCall cbs ch bytes s

/-- {lit}`deliver` of a string, when there is one. -/
def deliverOpt (H : Heap σ) (cbs : Option (Callbacks σ)) (ch : Channel)
    (bytes : Option Bytes) (s : StreamW σ) : Int × StreamW σ :=
  match bytes with
  | some bytes => deliver H cbs ch bytes s
  | none => (0, s)

/-- The reasoning of a delta. -/
def deltaReasoning (delta : Json) : Option Bytes :=
  delta.getStr? (ascii "reasoning") <|> delta.getStr? (ascii "reasoning_content")

/-- The {lit}`delta` object of an event: content, reasoning, and unmodelled tool
calls. -/
def streamDelta (H : Heap σ) (cbs : Option (Callbacks σ)) (data : Bytes) (delta : Json)
    (s : StreamW σ) : Int × StreamW σ :=
  andThen (deliverOpt H cbs .content (delta.getStr? (ascii "content")) s) fun s =>
    andThen (deliverOpt H cbs .reasoning (deltaReasoning delta) s) fun s =>
      if (delta.get? (ascii "tool_calls")).isSome then rawChunk H cbs data s else (0, s)

/-- The finish reason of an event. -/
def streamFinish (H : Heap σ) (choice0 : Json) (s : StreamW σ) : Int × StreamW σ :=
  match choice0.getStr? (ascii "finish_reason") with
  | none => (0, s)
  | some raw =>
      let f := resultSetFinish H s.r raw s.world.env
      let s := { s.setEnv f.2.2 with r := f.2.1 }
      if f.1 ≠ .ok then s.failWith .nomem else (0, s)

/-- The first choice of an event. -/
def streamChoice (H : Heap σ) (cbs : Option (Callbacks σ)) (data : Bytes) (choice0 : Json)
    (s : StreamW σ) : Int × StreamW σ :=
  andThen
    (match (choice0.get? (ascii "delta")).filter Json.isObj with
      | some delta => streamDelta H cbs data delta s
      | none => (0, s))
    (streamFinish H choice0)

/-- Usage and model of an event. -/
def streamLift (H : Heap σ) (root : Json) (s : StreamW σ) : Int × StreamW σ :=
  let m := liftModel H (liftUsage s.r root) root s.world.env
  let s := { s.setEnv m.2.2 with r := m.2.1 }
  if m.1 ≠ .ok then s.failWith .nomem else (0, s)

/-- An event whose payload parsed as a JSON object without an {lit}`error` member. -/
def streamEvent (H : Heap σ) (cbs : Option (Callbacks σ)) (data : Bytes) (root : Json)
    (s : StreamW σ) : Int × StreamW σ :=
  match firstChoice root with
  | none => streamLift H root s
  | some choice0 =>
      if choice0.isObj then
        andThen (streamChoice H cbs data choice0 s) (streamLift H root)
      else rawChunk H cbs data s

/-- {lit}`sicha_stream_on_event`. -/
def streamOnEvent (Y : Yyjson) (H : Heap σ) (cbs : Option (Callbacks σ)) :
    OnEvent (StreamW σ) :=
  fun data s =>
    if data = ascii "[DONE]" then
      (streamStop, { s with ctx := { s.ctx with done := true } })
    else
      let read := yyjsonRead Y H data s.world.env
      match read.1 with
      | none => rawChunk H cbs data (s.setEnv read.2)
      | some root =>
          if root.isObj && (root.get? (ascii "error")).isNone then
            streamEvent H cbs data root
              { s.setEnv read.2 with ctx := { s.ctx with sawEvent := true } }
          else rawChunk H cbs data (s.setEnv read.2)

/-- Callbacks that accept everything. -/
def plainCallbacks : Callbacks σ where
  structSizeOk := true
  onDelta := some fun _ s => (0, s)
  onReasoning := some fun _ s => (0, s)
  onRawChunk := some fun _ s => (0, s)
  onAttempt := some fun _ s => s
  validate := some fun _ s => (0, s)

/-- An event that carries one piece of content. -/
def plainEvent (content : String) : Json :=
  .obj [(ascii "choices", .arr [.obj [(ascii "delta", .obj [(ascii "content", .str (ascii content))])]])]

/-- The text of the plain event. -/
def plainEventText (content : String) : Bytes :=
  ascii "\x7b\"choices\":[\x7b\"delta\":\x7b\"content\":\"" ++ ascii content ++
    ascii "\"\x7d\x7d]\x7d"

end Sicha
