import Sicha.Client.Excerpt
import Sicha.Response.Twin

/-!
# Two attempts side by side

Two attempts whose foreign parties behave alike: the transports ask the same, the callbacks
answer the same, and no allocation fails on one side only.  They end with the same verdict and
the same content.

Main results:

- Definitions {lit}`IoTwin` and {lit}`ExchangeTwin`: two attempts that nobody can tell apart.
- Theorem {lit}`exchange_twin`: two exchanges with transports in lockstep.
- Theorems {lit}`settle_twin` and {lit}`ran_twin`: two exchanges that are settled alike.
-/

namespace Sicha

section Runs

variable [SizeT] {σ τ : Type}

/-- Two attempts that nobody can tell apart, their bodies aside. -/
structure IoTwin (S : Sight σ τ) (io io' : AttemptIo) : Prop where
  r : ContentTwin S io.r io'.r
  ctx : CtxTwin S.buf io.ctx io'.ctx
  sse : SseTwin S.buf io.sse io'.sse
  httpStatus : io.httpStatus = io'.httpStatus
  retryAfter : io.retryAfter = io'.retryAfter
  haveRetryAfter : io.haveRetryAfter = io'.haveRetryAfter
  sseRc : io.sseRc = io'.sseRc

/-- Two sinks, with their environments, that nobody can tell apart. -/
structure SinkTwin (S : Sight σ τ) (i : SinkW σ) (s : σ) (j : SinkW τ) (t : τ) : Prop where
  io : IoTwin S i.io j.io
  body : S.buf i.io.body j.io.body
  world : WorldTwin S ⟨s, i.log⟩ ⟨t, j.log⟩

/-- Two exchanges that nobody can tell apart.  A body that the sink has refused may have been
refused at another chunk. -/
structure ExchangeTwin (S : Sight σ τ) (stream : Bool) (x : Exchange σ) (x' : Exchange τ) :
    Prop where
  ts : x.ts = x'.ts
  io : IoTwin S x.io x'.io
  body : S.buf x.io.body x'.io.body ∨
    (x.ts = .abortedBySink ∧ stream = false ∧ x.io.body.err = x'.io.body.err)
  world : WorldTwin S x.world x'.world

/-- Two settled attempts that nobody can tell apart. -/
structure SettledTwin (S : Sight σ τ) (s : Settled σ) (s' : Settled τ) : Prop where
  v : s.v = s'.v
  io : IoTwin S s.io s'.io
  world : WorldTwin S s.world s'.world

/-- Two readings of the clock: they leave the environments related, and if it matters they
agree. -/
def NowTwin (strict : Bool) (Rel : σ → τ → Prop) (c : Clock σ) (c' : Clock τ) : Prop :=
  ∀ s t, Rel s t → (strict = true → (c.nowMs s).1 = (c'.nowMs t).1) ∧
    Rel (c.nowMs s).2 (c'.nowMs t).2

variable {S : Sight σ τ}

/-! ## The sink -/

/-- The status is taken alike. -/
theorem attemptOnStatus_twin {io io' : AttemptIo} (h : IoTwin S io io') (httpStatus : Int)
    (headers : List HeaderRef) :
    IoTwin S (attemptOnStatus io httpStatus headers)
      (attemptOnStatus io' httpStatus headers) := by
  have hone : ∀ {io io' : AttemptIo} (x : HeaderRef), IoTwin S io io' →
      IoTwin S (noteRetryAfter io x) (noteRetryAfter io' x) := by
    intro io io' x h
    unfold noteRetryAfter
    split
    · split_ifs
      · exact ⟨h.r, h.ctx, h.sse, h.httpStatus, rfl, rfl, h.sseRc⟩
      · exact h
    · exact h
  have hstart : IoTwin S { io with httpStatus := httpStatus }
      { io' with httpStatus := httpStatus } :=
    ⟨h.r, h.ctx, h.sse, rfl, h.retryAfter, h.haveRetryAfter, h.sseRc⟩
  unfold attemptOnStatus
  generalize { io with httpStatus := httpStatus } = a, { io' with httpStatus := httpStatus } = a'
    at hstart
  induction headers generalizing a a' with
  | nil => exact hstart
  | cons x headers ih => exact ih _ _ (hone x hstart)

section Lockstep

variable {H : Heap σ} {K : Heap τ} (hB : HeapTwins S.buf H K S.env) {cbs : Option (Callbacks σ)}
  {cbs' : Option (Callbacks τ)} (hcbs : DataTwin S.env cbs cbs') (Y : Yyjson)

include hB hcbs

omit hB hcbs in
/-- A call into the parser leaves two attempts alike. -/
theorem afterSse_twin {io : AttemptIo} {io' : AttemptIo} (h : IoTwin S io io')
    {out : Int × Sse × StreamW σ} {out' : Int × Sse × StreamW τ}
    (hout : TwinOut S.buf (StreamTwin S) out out') :
    IoTwin S { io with sse := out.2.1, ctx := out.2.2.ctx, r := out.2.2.r }
      { io' with sse := out'.2.1, ctx := out'.2.2.ctx, r := out'.2.2.r } :=
  ⟨hout.world.r, hout.world.ctx, hout.parser, h.httpStatus, h.retryAfter, h.haveRetryAfter,
    h.sseRc⟩

/-- The same question to both sinks. -/
theorem attemptSink_twin (stream : Bool) (q : SinkCall) {i : SinkW σ} {s : σ} {j : SinkW τ}
    {t : τ} (h : SinkTwin S i s j t) :
    (attemptSink Y H cbs stream q i s).1 = (attemptSink Y K cbs' stream q j t).1 ∧
      SinkTwin S (attemptSink Y H cbs stream q i s).2.1
        (attemptSink Y H cbs stream q i s).2.2 (attemptSink Y K cbs' stream q j t).2.1
        (attemptSink Y K cbs' stream q j t).2.2 := by
  cases q with
  | status httpStatus headers =>
      refine ⟨rfl, attemptOnStatus_twin h.io httpStatus headers, ?_, h.world⟩
      simp only [attemptSink, attemptOnStatus]
      rw [Call.noteRetryAfter_body, Call.noteRetryAfter_body]
      exact h.body
  | body bytes =>
      cases stream with
      | true =>
          have hfeed := sseFeed_twin (streamHeap_twins hB) (streamOnEvent_twin hB hcbs Y)
            bytes h.io.sse (s := i.streamW s) (t := j.streamW t) ⟨h.io.ctx, h.io.r, h.world⟩
          have hnext := afterSse_twin h.io hfeed
          simp only [attemptSink, if_true, attemptOnBodyStream]
          rw [hfeed.code]
          split_ifs
          · exact ⟨rfl, ⟨hnext.r, hnext.ctx, hnext.sse, hnext.httpStatus, hnext.retryAfter,
              hnext.haveRetryAfter, rfl⟩, h.body, hfeed.world.world⟩
          · exact ⟨rfl, hnext, h.body, hfeed.world.world⟩
      | false =>
          obtain ⟨hbuf, hrel⟩ := hB.append bytes h.body h.world.env
          simp only [attemptSink, Bool.false_eq_true, if_false, attemptOnBodyBuffer]
          rw [bufStatus_twin hB hbuf]
          exact ⟨rfl, ⟨h.io.r, h.io.ctx, h.io.sse, h.io.httpStatus, h.io.retryAfter,
            h.io.haveRetryAfter, h.io.sseRc⟩, hbuf, h.world.setEnv hrel⟩

/-! ## The exchange -/

omit hB hcbs in
/-- The debug log is written alike. -/
theorem debugLog_twin {c : Client σ} {c' : Client τ} (hdebug : c.debug = c'.debug)
    {text text' : Bytes} (htext : S.act (.debug text) (.debug text')) {w : World σ}
    {w' : World τ} (h : WorldTwin S w w') :
    WorldTwin S (c.debugLog text w) (c'.debugLog text' w') := by
  unfold Client.debugLog
  rw [hdebug]
  split_ifs
  · exact h.note htext
  · exact h

/-- Two exchanges with transports in lockstep. -/
theorem exchange_twin {c : Client σ} {c' : Client τ} {cancel : Option (CancelToken σ)}
    {cancel' : Option (CancelToken τ)} {rq rq' : HttpRequest} {strict stream : Bool}
    (hdebug : c.debug = c'.debug) (hnow : NowTwin strict S.env c.clock c'.clock)
    (hrequest : S.act (.debug (requestText rq)) (.debug (requestText rq')))
    (hperform : S.act (.perform rq true cancel.isSome) (.perform rq' true cancel'.isSome))
    (htransport : ∀ s t, S.env s t → (c.transport.perform rq true cancel s).Twin S.env
      (c'.transport.perform rq' true cancel' t))
    {io io' : AttemptIo} (hio : IoTwin S io io') (hbody : S.buf io.body io'.body)
    {w : World σ} {w' : World τ} (hw : WorldTwin S w w') :
    let x := exchange Y H c cbs cancel rq stream io w
    let x' := exchange Y K c' cbs' cancel' rq' stream io' w'
    ExchangeTwin S stream x x' ∧ S.buf x.io.body x'.io.body ∧
      (strict = true → x.latencyMs = x'.latencyMs) := by
  intro x x'
  have hlogged := debugLog_twin hdebug hrequest hw
  obtain ⟨hfirst, hrel⟩ := hnow _ _ hlogged.env
  have hstart := (hlogged.setEnv hrel).note hperform
  obtain ⟨hts, hend⟩ := @Dialogue.run_twin _ _ _ _ _ _ _ S.env (attemptSink Y H cbs stream)
    (attemptSink Y K cbs' stream) (SinkTwin S) (fun h => h.world.env)
    (fun h hrel => ⟨h.io, h.body, h.world.setEnv hrel⟩) (attemptSink_twin hB hcbs Y stream) _ _
    (htransport _ _ hstart.env) ⟨io, _⟩ _ ⟨io', _⟩ _ ⟨hio, hbody, hstart⟩
  obtain ⟨hlast, hrel'⟩ := hnow _ _ hend.world.env
  refine ⟨⟨hts, hend.io, .inl hend.body, hend.world.setEnv hrel'⟩, hend.body, fun hyes => ?_⟩
  exact congrArg₂ (· - ·) (hlast hyes) (hfirst hyes)

/-! ## The verdict -/

omit hB hcbs in
/-- Both streams are out of memory, or neither is. -/
theorem streamNomem_twin {io io' : AttemptIo} (h : IoTwin S io io') :
    streamNomem io = streamNomem io' := by
  unfold streamNomem sseStatus
  rw [h.ctx.err, h.sse.err]

omit hcbs in
/-- The same verdict on both exchanges. -/
theorem untangle_twin {stream : Bool} {x : Exchange σ} {x' : Exchange τ}
    (h : ExchangeTwin S stream x x') :
    untangle stream x.io x.ts = untangle stream x'.io x'.ts := by
  have hbody : stream = false → bufStatus x.io.body = bufStatus x'.io.body := by
    rintro rfl
    rcases h.body with hbody | ⟨-, -, herr⟩
    · exact bufStatus_twin hB hbody
    · exact herr
  unfold untangle
  rw [h.ts, h.io.ctx.done, h.io.sseRc, streamNomem_twin h.io]
  cases stream with
  | true => rfl
  | false => rw [hbody rfl]

/-- The same flush of both streams. -/
theorem flushStream_twin {s : Settled σ} {s' : Settled τ} (h : SettledTwin S s s') :
    SettledTwin S (flushStream Y H cbs s) (flushStream Y K cbs' s') := by
  unfold flushStream
  rw [h.io.ctx.done]
  split_ifs
  · exact h
  · have hfinish := sseFinish_twin (streamHeap_twins hB) (streamOnEvent_twin hB hcbs Y) h.io.sse
      (s := ⟨s.io.ctx, s.io.r, s.world⟩) (t := ⟨s'.io.ctx, s'.io.r, s'.world⟩)
      ⟨h.io.ctx, h.io.r, h.world⟩
    have hnext := afterSse_twin h.io hfinish
    refine ⟨?_, hnext, hfinish.world.world⟩
    dsimp only
    rw [hfinish.code, streamNomem_twin hnext, h.v]

omit hB hcbs in
/-- Both streams are checked alike. -/
theorem checkStream_twin {s : Settled σ} {s' : Settled τ} (h : SettledTwin S s s') :
    SettledTwin S (checkStream s) (checkStream s') := by
  unfold checkStream
  rw [h.v, h.io.ctx.done, h.io.r.finishRaw, h.io.ctx.sawEvent]
  split_ifs
  · exact ⟨rfl, h.io, h.world⟩
  · exact ⟨rfl, h.io, h.world⟩
  · exact h

omit hcbs in
/-- The same parse of both bodies. -/
theorem parseBody_twin {s : Settled σ} {s' : Settled τ} (h : SettledTwin S s s')
    (hbody : S.buf s.io.body s'.io.body) :
    SettledTwin S (parseBody Y H s) (parseBody Y K s') ∧
      S.buf (parseBody Y H s).io.body (parseBody Y K s').io.body := by
  have hparse := responseParse_twin hB Y s.io.body.bytes h.io.r h.world.env
  rw [hB.toTwins.bytes hbody] at hparse
  unfold parseBody
  rw [hB.toTwins.bytes hbody]
  generalize responseParse Y H s.io.r s'.io.body.bytes s.world.env = p at hparse
  generalize responseParse Y K s'.io.r s'.io.body.bytes s'.world.env = p' at hparse
  obtain ⟨st, state, r, env⟩ := p
  obtain ⟨st', state', r', env'⟩ := p'
  obtain ⟨rfl, rfl, hr, henv⟩ := hparse
  have hkeep : ∀ {r r' : Result} {env : σ} {env' : τ} {b b' : Buf} (v : Verdict),
      ContentTwin S r r' → S.env env env' → SettledTwin S
        ⟨v, { s.io with r := r, body := b }, { s.world with env := env }⟩
        ⟨v, { s'.io with r := r', body := b' }, { s'.world with env := env' }⟩ :=
    fun v hr henv => ⟨rfl, ⟨hr, h.io.ctx, h.io.sse, h.io.httpStatus, h.io.retryAfter,
      h.io.haveRetryAfter, h.io.sseRc⟩, h.world.setEnv henv⟩
  rw [h.v]
  cases st with
  | ok =>
      have htake := hB.take hbody henv
      dsimp only at htake ⊢
      generalize bufTake H s.io.body env = taken at htake
      generalize bufTake K s'.io.body env' = taken' at htake
      obtain ⟨raw?, b, env1⟩ := taken
      obtain ⟨raw?', b', env1'⟩ := taken'
      obtain ⟨rfl, hb, henv1⟩ := htake
      cases raw? with
      | none => exact ⟨hkeep _ hr henv1, hb⟩
      | some raw =>
          exact ⟨hkeep _ ⟨hr.text, hr.reasoning, hr.finishRaw, hr.finish, hr.promptTokens,
            hr.completionTokens, hr.totalTokens, hr.model, rfl, hr.rest⟩ henv1, hb⟩
  | _ => exact ⟨hkeep _ hr henv, hbody⟩

omit hB hcbs in
/-- A flushed and checked stream leaves the body alone. -/
theorem streamSettled_body (Y : Yyjson) (H : Heap σ) (cbs : Option (Callbacks σ))
    (s : Settled σ) : (checkStream (flushStream Y H cbs s)).io.body = s.io.body := by
  unfold checkStream flushStream
  split_ifs <;> rfl

/-- Two exchanges are settled alike. -/
theorem settle_twin {stream : Bool} {x : Exchange σ} {x' : Exchange τ}
    (h : ExchangeTwin S stream x x') :
    let s := settle Y H cbs stream ⟨untangle stream x.io x.ts, x.io, x.world⟩
    let s' := settle Y K cbs' stream ⟨untangle stream x'.io x'.ts, x'.io, x'.world⟩
    SettledTwin S s s' ∧ (S.buf x.io.body x'.io.body → S.buf s.io.body s'.io.body) := by
  have hv := untangle_twin hB h
  rw [hv]
  generalize hverdict : untangle stream x'.io x'.ts = v at hv
  have hstart : SettledTwin S ⟨v, x.io, x.world⟩ ⟨v, x'.io, x'.world⟩ :=
    ⟨rfl, h.io, h.world⟩
  unfold settle
  dsimp only
  rw [h.io.httpStatus]
  split_ifs with hcomplete hstream
  · refine ⟨checkStream_twin (flushStream_twin hB hcbs Y hstart), ?_⟩
    rw [streamSettled_body, streamSettled_body]
    exact id
  · rcases h.body with hbody | ⟨hts, rfl, -⟩
    · exact ⟨(parseBody_twin hB Y hstart hbody).1, fun _ => (parseBody_twin hB Y hstart hbody).2⟩
    · rw [← hverdict, ← h.ts, hts, Call.untangle_refused] at hcomplete
      cases hcomplete
  · exact ⟨hstart, id⟩

/-! ## The round trip -/

omit hB hcbs in
/-- Two attempts that are set up alike. -/
theorem attemptIoInit_twin {c : Client σ} {c' : Client τ}
    (hinit : ∀ maxLen, S.buf (bufInit maxLen) (bufInit maxLen))
    (hresponse : c.maxResponseBytes = c'.maxResponseBytes)
    (hevent : c.maxEventBytes = c'.maxEventBytes) {r r' : Result} (hr : ContentTwin S r r')
    (stream accumulate : Bool) :
    IoTwin S (attemptIoInit c r stream accumulate) (attemptIoInit c' r' stream accumulate) ∧
      S.buf (attemptIoInit c r stream accumulate).body
        (attemptIoInit c' r' stream accumulate).body := by
  have hctx : ∀ b, CtxTwin S.buf (streamCtxInit b) (streamCtxInit b) :=
    fun b => ⟨rfl, rfl, rfl, rfl, rfl, hinit _⟩
  have hzero : CtxTwin S.buf streamCtxZero streamCtxZero := ⟨rfl, rfl, rfl, rfl, rfl, hinit _⟩
  have hsse : ∀ n, SseTwin S.buf (sseInit n) (sseInit n) :=
    fun n => ⟨hinit _, hinit _, rfl, rfl, rfl, rfl, rfl, rfl⟩
  unfold attemptIoInit
  rw [hresponse, hevent]
  refine ⟨⟨hr, ?_, ?_, rfl, rfl, rfl, rfl⟩, hinit _⟩
  · dsimp only
    split_ifs
    · exact hctx accumulate
    · exact hzero
  · dsimp only
    split_ifs
    · exact hsse _
    · exact hsse _

/-- Two attempts that end alike; where it matters, with the same latency and the same
excerpt. -/
structure RanTwin (S : Sight σ τ) (strict : Bool) (x : Ran σ) (x' : Ran τ) : Prop where
  v : x.o.v = x'.o.v
  httpStatus : x.o.httpStatus = x'.o.httpStatus
  retryAfterMs : x.o.retryAfterMs = x'.o.retryAfterMs
  delivered : x.o.delivered = x'.o.delivered
  message : x.o.message = x'.o.message
  latency : strict = true → x.o.latencyMs = x'.o.latencyMs
  excerpt : strict = true → x.o.excerpt = x'.o.excerpt
  r : ContentTwin S x.r x'.r
  world : WorldTwin S x.world x'.world

omit hcbs in
/-- The same excerpt of two attempts whose bodies look alike. -/
theorem outcomeExcerpt_twin (stream : Bool) (v : Verdict) {io io' : AttemptIo}
    (h : IoTwin S io io') (hbody : S.buf io.body io'.body) :
    outcomeExcerpt stream v io = outcomeExcerpt stream v io' := by
  have hstream : streamExcerpt io = streamExcerpt io' := by
    unfold streamExcerpt
    rw [hB.toTwins.len h.ctx.lastRaw, hB.toTwins.bytes h.ctx.lastRaw, hB.toTwins.bytes h.r.text]
  have hparsed : bodyExcerpt io = bodyExcerpt io' := by
    unfold bodyExcerpt
    rw [h.r.rawBody, hB.toTwins.bytes hbody]
  unfold outcomeExcerpt
  rw [h.httpStatus, hstream, hparsed]

/-- Two exchanges end in attempts that look alike. -/
theorem ran_twin {strict stream : Bool} {x : Exchange σ} {x' : Exchange τ}
    (h : ExchangeTwin S stream x x') (hbody : strict = true → S.buf x.io.body x'.io.body)
    (hlatency : strict = true → x.latencyMs = x'.latencyMs) :
    let s := settle Y H cbs stream ⟨untangle stream x.io x.ts, x.io, x.world⟩
    let s' := settle Y K cbs' stream ⟨untangle stream x'.io x'.ts, x'.io, x'.world⟩
    RanTwin S strict ⟨outcomeOf stream x.latencyMs s, s.io.r, s.world⟩
      ⟨outcomeOf stream x'.latencyMs s', s'.io.r, s'.world⟩ := by
  intro s s'
  obtain ⟨hsettled, hkept⟩ := settle_twin hB hcbs Y h
  have hsettled : SettledTwin S s s' := hsettled
  have hkept : S.buf x.io.body x'.io.body → S.buf s.io.body s'.io.body := hkept
  have hv := hsettled.v
  have hio := hsettled.io
  exact
    { v := hv
      httpStatus := hio.httpStatus
      retryAfterMs := by
        dsimp only [outcomeOf]
        rw [hio.haveRetryAfter, hio.retryAfter]
      delivered := by
        dsimp only [outcomeOf]
        rw [hio.ctx.delivered]
      message := by
        dsimp only [outcomeOf]
        rw [hv, hio.httpStatus]
      latency := hlatency
      excerpt := fun hstrict => by
        dsimp only [outcomeOf]
        rw [hv]
        exact outcomeExcerpt_twin hB stream s'.v hio (hkept (hbody hstrict))
      r := hio.r
      world := hsettled.world }

end Lockstep

/-- Attempts that end alike are classified alike. -/
theorem firstClass_twin {k : Call σ} {k' : Call τ} (hpolicy : k.c.policy = k'.c.policy)
    {strict : Bool} {x : Ran σ} {x' : Ran τ} (h : RanTwin S strict x x') :
    k.firstClass x = k'.firstClass x' := by
  unfold Call.firstClass
  rw [h.v, hpolicy, h.httpStatus, h.r.finish]

end Runs

end Sicha
