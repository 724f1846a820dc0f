import Sicha.Response

/-!
# One HTTP round trip

A translation of {lit}`run_attempt` in {lit}`client.c`: the sink it hands to the
transport, the untangling of sink aborts, the flush at the end of a stream, the parse
of a body, and what is kept for the record.

Main results:

- Definition {lit}`runAttempt`: the round trip.
-/

namespace Sicha

variable [SizeT] {σ : Type}

/-- {lit}`attempt_io`.  A field of the other mode stays zeroed. -/
structure AttemptIo where
  r : Result
  ctx : StreamCtx
  sse : Sse
  /-- non-stream accumulation -/
  body : Buf
  httpStatus : Int
  retryAfter : Bytes
  haveRetryAfter : Bool
  sseRc : Int

/-- What the sink works on: the attempt and the log of the call. -/
structure SinkW (σ : Type) where
  io : AttemptIo
  log : List (Entry σ)

/-- The zeroed context of a non-streaming attempt. -/
def streamCtxZero : StreamCtx where
  accumulate := false
  done := false
  delivered := false
  sawEvent := false
  err := .ok
  lastRaw := bufInit 0

/-- The attempt as {lit}`run_attempt` sets it up. -/
def attemptIoInit (c : Client σ) (r : Result) (stream accumulate : Bool) : AttemptIo where
  r := r
  ctx := if stream then streamCtxInit accumulate else streamCtxZero
  sse := if stream then sseInit c.maxEventBytes else sseInit 0
  body := bufInit c.maxResponseBytes
  httpStatus := 0
  retryAfter := []
  haveRetryAfter := false
  sseRc := 0

/-- The step of the loop in {lit}`attempt_on_status`: the last Retry-After is kept, in an
array of 64 bytes. -/
def noteRetryAfter (io : AttemptIo) (h : HeaderRef) : AttemptIo :=
  match h.name, h.value with
  | some name, some value =>
      if headerNameEq name (ascii "Retry-After") then
        { io with retryAfter := snprintf 64 value, haveRetryAfter := true }
      else io
  | _, _ => io

/-- {lit}`attempt_on_status`. -/
def attemptOnStatus (io : AttemptIo) (httpStatus : Int) (headers : List HeaderRef) : AttemptIo :=
  headers.foldl noteRetryAfter { io with httpStatus := httpStatus }

/-- The headers of a response decide what is noted of {lit}`Retry-After`, and nothing else. -/
theorem foldl_noteRetryAfter (io : AttemptIo) (headers : List HeaderRef) :
    ∃ retryAfter haveRetryAfter, headers.foldl noteRetryAfter io =
      { io with retryAfter := retryAfter, haveRetryAfter := haveRetryAfter } := by
  induction headers generalizing io with
  | nil => exact ⟨io.retryAfter, io.haveRetryAfter, rfl⟩
  | cons h headers ih =>
      have hone : ∃ retryAfter haveRetryAfter, noteRetryAfter io h =
          { io with retryAfter := retryAfter, haveRetryAfter := haveRetryAfter } := by
        unfold noteRetryAfter
        split
        · split_ifs
          · exact ⟨_, _, rfl⟩
          · exact ⟨io.retryAfter, io.haveRetryAfter, rfl⟩
        · exact ⟨io.retryAfter, io.haveRetryAfter, rfl⟩
      obtain ⟨retryAfter, haveRetryAfter, hone⟩ := hone
      rw [List.foldl_cons, hone]
      exact ih _

/-- The event callback's view of an attempt. -/
def SinkW.streamW (k : SinkW σ) (env : σ) : StreamW σ where
  ctx := k.io.ctx
  r := k.io.r
  world := { env := env, log := k.log }

/-- The attempt after a call into the parser. -/
def SinkW.afterSse (k : SinkW σ) (out : Int × Sse × StreamW σ) : SinkW σ where
  io := { k.io with sse := out.2.1, ctx := out.2.2.ctx, r := out.2.2.r }
  log := out.2.2.world.log

/-- {lit}`attempt_on_body`, of a streaming attempt. -/
def attemptOnBodyStream (Y : Yyjson) (H : Heap σ) (cbs : Option (Callbacks σ))
    (bytes : Bytes) (k : SinkW σ) (env : σ) : Int × SinkW σ × σ :=
  let out := sseFeed (streamHeap H) (some (streamOnEvent Y H cbs)) k.io.sse bytes
    (k.streamW env)
  let k := k.afterSse out
  if out.1 ≠ 0 then (1, { k with io := { k.io with sseRc := out.1 } }, out.2.2.world.env)
  else (0, k, out.2.2.world.env)

/-- {lit}`attempt_on_body`, of a non-streaming attempt. -/
def attemptOnBodyBuffer (H : Heap σ) (bytes : Bytes) (k : SinkW σ) (env : σ) :
    Int × SinkW σ × σ :=
  let b := bufAppend H k.io.body bytes env
  (if bufStatus b.1 = .ok then 0 else 1, { k with io := { k.io with body := b.1 } }, b.2)

/-- The sink of {lit}`run_attempt`. -/
def attemptSink (Y : Yyjson) (H : Heap σ) (cbs : Option (Callbacks σ)) (stream : Bool) :
    SinkCall → SinkW σ → σ → Int × SinkW σ × σ
  | .status httpStatus headers, k, env =>
      (0, { k with io := attemptOnStatus k.io httpStatus headers }, env)
  | .body bytes, k, env =>
      if stream then attemptOnBodyStream Y H cbs bytes k env
      else attemptOnBodyBuffer H bytes k env

/-! ## The exchange -/

/-- The request of an attempt. -/
def chatRequest (b : Backend) (body : Bytes) (headers : List Header) : HttpRequest where
  method := ascii "POST"
  url := b.urlChat
  headers := headers
  body := body
  timeouts := b.timeouts
  flags := 0

/-- What is left when the transport has returned. -/
structure Exchange (σ : Type) where
  ts : TransportStatus
  latencyMs : UInt64
  io : AttemptIo
  world : World σ

/-- The transport call of {lit}`run_attempt`, between two readings of the clock. -/
def exchange (Y : Yyjson) (H : Heap σ) (c : Client σ) (cbs : Option (Callbacks σ))
    (cancel : Option (CancelToken σ)) (rq : HttpRequest) (stream : Bool) (io : AttemptIo)
    (w : World σ) : Exchange σ :=
  let t0 := (c.debugLog (requestText rq) w).quiet c.clock.nowMs
  let start := t0.2.note (.perform rq true cancel.isSome)
  let out := (c.transport.perform rq true cancel start.env).run (attemptSink Y H cbs stream)
    { io := io, log := start.log }
  let t1 := c.clock.nowMs out.2.2
  { ts := out.1
    latencyMs := t1.1 - t0.1
    io := out.2.1.io
    world := { env := t1.2, log := out.2.1.log } }

/-! ## The outcome -/

/-- The part of {lit}`attempt_outcome` that the stages after the exchange decide. -/
structure Verdict where
  ts : TransportStatus
  bodyState : BodyState
  terminal : Status
deriving DecidableEq

/-- An internal error: out of memory if a buffer says so, else a size cap tripped. -/
def overflowVerdict (ts : TransportStatus) (nomem : Bool) : Verdict :=
  if nomem then ⟨ts, .ok, .nomem⟩ else ⟨.ok, .tooBig, .ok⟩

/-- The context or the parser ran out of memory. -/
def streamNomem (io : AttemptIo) : Bool :=
  io.ctx.err == .nomem || sseStatus io.sse == .nomem

/-- "Untangle sink-driven aborts." -/
def untangle (stream : Bool) (io : AttemptIo) (ts : TransportStatus) : Verdict :=
  if ts = .abortedBySink then
    if stream then
      if io.ctx.done then ⟨.ok, .ok, .ok⟩ -- [DONE]: success
      else if io.sseRc = streamCancel then ⟨.cancelled, .ok, .ok⟩
      else overflowVerdict ts (streamNomem io)
    else overflowVerdict ts (bufStatus io.body == .nomem)
  else if ts = .nomem then ⟨ts, .ok, .nomem⟩
  else ⟨ts, .ok, .ok⟩

/-- A 2xx HTTP status. -/
def httpSuccess (httpStatus : Int) : Bool :=
  httpStatus ≥ 200 && httpStatus ≤ 299

/-- The exchange brought a 2xx response with nothing against its body. -/
def Verdict.complete (v : Verdict) (httpStatus : Int) : Bool :=
  v.terminal == .ok && v.ts == .ok && httpSuccess httpStatus && v.bodyState == .ok

/-- The attempt in its last stages. -/
structure Settled (σ : Type) where
  v : Verdict
  io : AttemptIo
  world : World σ

/-- The lenient flush of a final event at the end of a stream. -/
def flushStream (Y : Yyjson) (H : Heap σ) (cbs : Option (Callbacks σ)) (s : Settled σ) :
    Settled σ :=
  if s.io.ctx.done then s
  else
    let out := sseFinish (streamHeap H) (some (streamOnEvent Y H cbs)) s.io.sse
      ⟨s.io.ctx, s.io.r, s.world⟩
    let io := { s.io with sse := out.2.1, ctx := out.2.2.ctx, r := out.2.2.r }
    let v :=
      if out.1 = streamCancel then { s.v with ts := .cancelled }
      else if out.1 = -1 then
        if streamNomem io then { s.v with terminal := .nomem } else { s.v with bodyState := .tooBig }
      else s.v
    { v := v, io := io, world := out.2.2.world }

/-- A stream with neither {lit}`[DONE]` nor a finish reason is incomplete or empty. -/
def checkStream (s : Settled σ) : Settled σ :=
  if s.v.terminal = .ok ∧ s.v.ts = .ok ∧ s.v.bodyState = .ok ∧ s.io.ctx.done = false ∧
      s.io.r.finishRaw = none then
    { s with v := { s.v with bodyState := if s.io.ctx.sawEvent then .malformed else .empty } }
  else s

/-- The parse of a complete body, which is then retained verbatim. -/
def parseBody (Y : Yyjson) (H : Heap σ) (s : Settled σ) : Settled σ :=
  match responseParse Y H s.io.r s.io.body.bytes s.world.env with
  | (.ok, bodyState, r, env) =>
      match bufTake H s.io.body env with
      | (none, body, env) =>
          { v := { s.v with bodyState := bodyState, terminal := .nomem }
            io := { s.io with r := r, body := body }
            world := { s.world with env := env } }
      | (some raw, body, env) =>
          { v := { s.v with bodyState := bodyState }
            io := { s.io with r := { r with rawBody := some raw }, body := body }
            world := { s.world with env := env } }
  | (st, bodyState, r, env) =>
      { v := { s.v with bodyState := bodyState, terminal := st }
        io := { s.io with r := r }
        world := { s.world with env := env } }

/-- The stage of {lit}`run_attempt` for a 2xx response. -/
def settle (Y : Yyjson) (H : Heap σ) (cbs : Option (Callbacks σ)) (stream : Bool)
    (s : Settled σ) : Settled σ :=
  if s.v.complete s.io.httpStatus then
    if stream then checkStream (flushStream Y H cbs s) else parseBody Y H s
  else s

/-- The message of an outcome, in an array of 96 bytes. -/
def outcomeMessage (v : Verdict) (httpStatus : Int) : Bytes :=
  snprintf 96
    (if v.terminal = .nomem then ascii "out of memory"
    else if v.ts ≠ .ok then ascii "transport: " ++ transportStatusStr v.ts
    else if httpSuccess httpStatus = false then ascii "http " ++ decimal httpStatus
    else
      match v.bodyState with
      | .empty => ascii "empty response body"
      | .malformed => ascii "malformed or incomplete response"
      | .tooBig => ascii "response exceeds size cap"
      | .ok => ascii "ok")

/-- {lit}`outcome_borrow_excerpt`, into an empty excerpt. -/
def borrowExcerpt (bytes : Bytes) : Bytes :=
  bytes.take excerptMax

/-- The bytes of a stream's excerpt. -/
def streamExcerpt (io : AttemptIo) : Bytes :=
  if io.ctx.lastRaw.len > 0 then io.ctx.lastRaw.bytes else io.r.text.bytes

/-- The bytes of a body's excerpt; the parse may have moved it into the result. -/
def bodyExcerpt (io : AttemptIo) : Bytes :=
  match io.r.rawBody with
  | some (b :: rest) => b :: rest
  | _ => io.body.bytes

/-- The excerpt of a response-shaped failure. -/
def outcomeExcerpt (stream : Bool) (v : Verdict) (io : AttemptIo) : Bytes :=
  if v.ts = .ok ∧ (httpSuccess io.httpStatus = false ∨ v.bodyState ≠ .ok) then
    borrowExcerpt (if stream then streamExcerpt io else bodyExcerpt io)
  else []

/-- {lit}`attempt_outcome`. -/
structure AttemptOutcome where
  v : Verdict
  httpStatus : Int
  latencyMs : UInt64
  /-- {lit}`UINT64_MAX` = none -/
  retryAfterMs : UInt64
  /-- a callback got delta bytes -/
  delivered : Bool
  message : Bytes
  excerpt : Bytes

/-- The outcome of a settled attempt. -/
def outcomeOf (stream : Bool) (latencyMs : UInt64) (s : Settled σ) : AttemptOutcome where
  v := s.v
  httpStatus := s.io.httpStatus
  latencyMs := latencyMs
  retryAfterMs :=
    if s.io.haveRetryAfter then retryAfterMs (some s.io.retryAfter) else uint64Max
  delivered := stream && s.io.ctx.delivered
  message := outcomeMessage s.v s.io.httpStatus
  excerpt := outcomeExcerpt stream s.v s.io

/-- A settled round trip with its outcome. -/
structure Ran (σ : Type) where
  o : AttemptOutcome
  r : Result
  world : World σ

/-- {lit}`run_attempt`. -/
def runAttempt (Y : Yyjson) (H : Heap σ) (c : Client σ) (cbs : Option (Callbacks σ))
    (cancel : Option (CancelToken σ)) (rq : HttpRequest) (stream accumulate : Bool)
    (r : Result) (w : World σ) : Ran σ :=
  let x := exchange Y H c cbs cancel rq stream (attemptIoInit c r stream accumulate) w
  let s := settle Y H cbs stream ⟨untangle stream x.io x.ts, x.io, x.world⟩
  { o := outcomeOf stream x.latencyMs s, r := s.io.r, world := s.world }

end Sicha
