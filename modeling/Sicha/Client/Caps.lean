import Sicha.Client.Excerpt
import Sicha.Response.Caps
import Sicha.Sse.Caps

/-!
# The memory of a call

What a call holds of the responses it gets stays within the caps of its client, whatever the
transport brings, and an answer of which anything was refused for its size is no success.

Main results:

- Definition {lit}`WithinCaps`: the buffers of an attempt are within their caps.
- Theorem {lit}`reached_capped`: so is the result at the head of every turn.
- Theorem {lit}`complete_unrefused`: a complete attempt has refused nothing.
- Theorem {lit}`chat_capped`: both, over every call.
-/

namespace Sicha

section Runs

variable [SizeT] {σ : Type}

namespace Call

variable (k : Call σ)

/-! ## The buffers of an attempt -/

/-- The buffers of an attempt are within the caps of the client. -/
structure WithinCaps (io : AttemptIo) : Prop where
  result : ResultCapped k.c.maxResponseBytes io.r
  body : io.body.len ≤ k.c.maxResponseBytes
  line : io.sse.line.len ≤ k.c.maxEventBytes
  data : io.sse.data.len ≤ k.c.maxEventBytes
  lastRaw : io.ctx.lastRaw.len ≤ excerptMax

/-- The same with the caps the buffers were given: the parser and the context of a body stay
zeroed. -/
structure AttemptCapped (io : AttemptIo) : Prop where
  result : ResultCapped k.c.maxResponseBytes io.r
  body : io.body.Capped k.c.maxResponseBytes
  sse : io.sse.Capped (if k.stream then k.c.maxEventBytes else 0)
  lastRaw : io.ctx.lastRaw.Capped (if k.stream then excerptMax else 0)

variable {k}

/-- An attempt that keeps to its caps is within them. -/
theorem AttemptCapped.within {io : AttemptIo} (h : k.AttemptCapped io) : k.WithinCaps io := by
  have hevent : (if k.stream then k.c.maxEventBytes else 0) ≤ k.c.maxEventBytes := by
    split_ifs <;> omega
  have hraw : (if k.stream then excerptMax else 0) ≤ excerptMax := by
    split_ifs <;> omega
  exact ⟨h.result, h.body.len, h.sse.line.len.trans hevent, h.sse.data.len.trans hevent,
    h.lastRaw.len.trans hraw⟩

/-- A new attempt keeps to its caps. -/
theorem attemptIoInit_capped {r : Result} (h : ResultCapped k.c.maxResponseBytes r)
    (accumulate : Bool) : k.AttemptCapped (attemptIoInit k.c r k.stream accumulate) where
  result := h
  body := bufInit_capped _
  sse := by
    unfold attemptIoInit
    split_ifs <;> exact sseInit_capped _
  lastRaw := by
    unfold attemptIoInit
    split_ifs <;> exact bufInit_capped _

/-- What a call into the parser leaves is within the caps. -/
theorem AttemptCapped.afterSse (hstream : k.stream = true) {io : AttemptIo}
    (h : k.AttemptCapped io) {out : Int × Sse × StreamW σ}
    (hsse : out.2.1.Capped k.c.maxEventBytes)
    (hout : SseOutcome (StreamCapped k.c.maxResponseBytes)
      (fun _ => StreamCapped k.c.maxResponseBytes) out) :
    k.AttemptCapped { io with sse := out.2.1, ctx := out.2.2.ctx, r := out.2.2.r } := by
  have hkept := keeps_of_outcome hout
  refine ⟨hkept.result, h.body, ?_, ?_⟩
  · rw [if_pos hstream]
    exact hsse
  · rw [if_pos hstream]
    exact hkept.lastRaw

/-- The stream of an attempt within its caps. -/
theorem AttemptCapped.stream (hstream : k.stream = true) {io : AttemptIo}
    (h : k.AttemptCapped io) (w : World σ) :
    io.sse.Capped k.c.maxEventBytes ∧ StreamCapped k.c.maxResponseBytes ⟨io.ctx, io.r, w⟩ := by
  have hsse := h.sse
  have hraw := h.lastRaw
  rw [if_pos hstream] at hsse hraw
  exact ⟨hsse, h.result, hraw⟩

/-- Events keep the caps. -/
theorem event_keeps :
    (streamOnEvent k.Y k.H k.cbs).Keeps (StreamCapped k.c.maxResponseBytes)
      (fun _ => StreamCapped k.c.maxResponseBytes) :=
  streamOnEvent_answers (capped_event k.H k.cbs k.c.maxResponse_pos) k.Y

/-- Whatever the transport asks, the sink keeps the buffers within their caps. -/
theorem sink_capped (q : SinkCall) (i : SinkW σ) (env : σ) (h : k.AttemptCapped i.io) :
    k.AttemptCapped (attemptSink k.Y k.H k.cbs k.stream q i env).2.1.io := by
  cases q with
  | status httpStatus headers =>
      have hsame := noteRetryAfter_same { i.io with httpStatus := httpStatus } headers
      have hsse := noteRetryAfter_sse { i.io with httpStatus := httpStatus } headers
      have hbody := noteRetryAfter_body { i.io with httpStatus := httpStatus } headers
      refine ⟨?_, ?_, ?_, ?_⟩ <;> simp only [attemptSink, attemptOnStatus]
      · rw [hsame.2]
        exact h.result
      · rw [hbody]
        exact h.body
      · rw [hsse]
        exact h.sse
      · rw [hsame.1]
        exact h.lastRaw
  | body bytes =>
      by_cases hstream : k.stream = true
      · obtain ⟨hsse, hs⟩ := h.stream hstream ⟨env, i.log⟩
        have hfeed := sseFeed_capped k.c.maxEvent_pos (streamHeap k.H)
          (some (streamOnEvent k.Y k.H k.cbs)) hsse bytes (i.streamW env)
        have hout := sseFeed_spec (H := streamHeap k.H)
          (fun n s hs => (capped_event k.H k.cbs k.c.maxResponse_pos).alloc n s hs) event_keeps
          i.io.sse bytes hs
        have hnext := h.afterSse hstream hfeed hout
        simp only [attemptSink, if_pos hstream, attemptOnBodyStream]
        split_ifs
        · exact ⟨hnext.result, hnext.body, hnext.sse, hnext.lastRaw⟩
        · exact hnext
      · simp only [attemptSink, if_neg hstream, attemptOnBodyBuffer]
        exact ⟨h.result, bufAppend_capped k.c.maxResponse_pos h.body k.H bytes env, h.sse,
          h.lastRaw⟩

/-- An exchange keeps the buffers within their caps at every question, and at its end. -/
theorem exchange_capped (rq : HttpRequest) {s : LoopState k.c}
    (h : ResultCapped k.c.maxResponseBytes s.r) :
    (∀ t ∈ k.asked rq s, k.AttemptCapped t.2.1.io) ∧ k.AttemptCapped (k.exchanged rq s).io := by
  have hcleared : ResultCapped k.c.maxResponseBytes (k.cleared s) :=
    have hreset := resultResetContent_capped h
    ⟨fun ch => by cases ch <;> first | exact hreset.buf .content | exact hreset.buf .reasoning,
      hreset.rawBody, hreset.excerpts⟩
  have hstart := attemptIoInit_capped hcleared k.req.accumulates
  exact ⟨Dialogue.turns_invariant (P := fun i : SinkW σ => k.AttemptCapped i.io) sink_capped _ hstart,
    Dialogue.run_invariant (P := fun i : SinkW σ => k.AttemptCapped i.io) sink_capped _ hstart⟩

/-- The flush of a stream keeps to them. -/
theorem flushStream_capped (hstream : k.stream = true) {s : Settled σ}
    (h : k.AttemptCapped s.io) : k.AttemptCapped (flushStream k.Y k.H k.cbs s).io := by
  by_cases hdone : s.io.ctx.done = true
  · rw [flushStream, if_pos hdone]
    exact h
  · obtain ⟨hsse, hs⟩ := h.stream hstream s.world
    have hfinish := sseFinish_capped k.c.maxEvent_pos (streamHeap k.H)
      (some (streamOnEvent k.Y k.H k.cbs)) hsse ⟨s.io.ctx, s.io.r, s.world⟩
    have hout := sseFinish_spec (H := streamHeap k.H)
      (fun n s hs => (capped_event k.H k.cbs k.c.maxResponse_pos).alloc n s hs) event_keeps
      s.io.sse hs
    rw [flushStream, if_neg hdone]
    exact h.afterSse hstream hfinish hout

/-- The parse of a body keeps the buffers within their caps. -/
theorem parseBody_capped {s : Settled σ} (h : k.AttemptCapped s.io) :
    k.AttemptCapped (parseBody k.Y k.H s).io := by
  have hparse := responseParse_capped (H := k.H) k.Y k.c.maxResponse_pos h.result s.io.body.bytes
    s.world.env
  have htake := fun env => bufTake_capped h.body k.H env
  unfold parseBody
  split
  · rename_i bodyState r env hp
    rw [hp] at hparse
    have htaken := htake env
    split <;> rename_i ht <;> rw [ht] at htaken
    · exact ⟨hparse, htaken.1, h.sse, h.lastRaw⟩
    · refine ⟨⟨fun ch => ?_, ?_, hparse.excerpts⟩, htaken.1, h.sse, h.lastRaw⟩
      · cases ch
        · exact hparse.buf .content
        · exact hparse.buf .reasoning
      · rintro raw ⟨⟩
        exact htaken.2 _ rfl
  · rename_i hp
    rw [hp] at hparse
    exact ⟨hparse, h.body, h.sse, h.lastRaw⟩

/-- The stages after the exchange keep the buffers within their caps. -/
theorem settled_capped (rq : HttpRequest) {s : LoopState k.c}
    (h : ResultCapped k.c.maxResponseBytes s.r) : k.AttemptCapped (k.settled rq s).io := by
  have hexchange := (exchange_capped rq h).2
  unfold settled settle
  dsimp only
  split_ifs with hcomplete hstream
  · rw [(checkStream_same _).1]
    exact flushStream_capped hstream hexchange
  · exact parseBody_capped hexchange
  · exact hexchange

/-! ## The result of a call -/

/-- What follows a class does not touch the result. -/
theorem next_r {cls : ErrorClass} {retryAfter : UInt64} {s : LoopState k.c}
    {out : LoopState k.c ⊕ LoopState k.c} (h : k.Next cls retryAfter s out) :
    (Sum.elim id id out).r = s.r := by
  cases h <;> rfl

/-- An announcement does not touch the result. -/
theorem announced_r (s : LoopState k.c) (rq : HttpRequest) :
    (k.announced s rq).r = (k.recorded s rq).2.r := by
  unfold announced announce
  split <;> rfl

/-- A record is stored with a capped excerpt. -/
theorem recorded_capped (rq : HttpRequest) {s : LoopState k.c}
    (h : ResultCapped k.c.maxResponseBytes s.r) :
    ResultCapped k.c.maxResponseBytes (k.recorded s rq).2.r := by
  have hsettled := (settled_capped rq h).result
  have hout := k.recorded_outcome rq s
  change ResultCapped _ (k.roundTrip rq s).r at hsettled
  generalize (k.recorded s rq).2.r = r, (k.recorded s rq).1 = st at hout
  cases hout with
  | stored cap =>
      refine ⟨fun ch => ?_, hsettled.rawBody, fun a ha => ?_⟩
      · cases ch
        · exact hsettled.buf .content
        · exact hsettled.buf .reasoning
      · rcases List.mem_append.mp ha with ha | ha
        · exact hsettled.excerpts a ha
        · rw [List.mem_singleton.mp ha]
          exact List.length_take_le _ _
  | refused cap hH =>
      refine ⟨fun ch => ?_, hsettled.rawBody, hsettled.excerpts⟩
      cases ch
      · exact hsettled.buf .content
      · exact hsettled.buf .reasoning

/-- A turn keeps the result within its caps. -/
theorem turn_capped {s : LoopState k.c} {out : LoopState k.c ⊕ LoopState k.c}
    (h : ResultCapped k.c.maxResponseBytes s.r) (hturn : k.Turn s out) :
    ResultCapped k.c.maxResponseBytes (Sum.elim id id out).r := by
  cases hturn with
  | cancelled hpoll => exact h
  | @unprepared st s1 hpoll hprep =>
      have hsame := (k.prepared_unchanged hprep).r
      rw [← hsame] at h
      exact h
  | @unrecorded rq s1 hpoll hprep hadd =>
      rw [← (k.prepared_unchanged hprep).r] at h
      exact recorded_capped rq h
  | @terminal rq s1 hpoll hprep hadd _ =>
      rw [← (k.prepared_unchanged hprep).r] at h
      change ResultCapped _ (k.announced s1 rq).r
      rw [announced_r]
      exact recorded_capped rq h
  | @next rq s1 _ hpoll hprep hadd _ hnext =>
      rw [← (k.prepared_unchanged hprep).r] at h
      rw [next_r hnext, announced_r]
      exact recorded_capped rq h

/-! ## Refusals -/

variable (k)

/-- The events of a streaming attempt, those of its flush included. -/
def events (rq : HttpRequest) (s : LoopState k.c) : List (Handled σ) :=
  let x := k.exchanged rq s
  k.handled (k.asked rq s) ++
    if (untangle k.stream x.io x.ts).complete x.io.httpStatus && !x.io.ctx.done then
      k.flushed x.io.sse ⟨x.io.ctx, x.io.r, x.world⟩
    else []

/-- Something of the response was refused for its size: a piece of an event, a piece of a parsed
body, a chunk of a body, a byte of a line, or a line of an event. -/
inductive RefusedForSize (rq : HttpRequest) (s : LoopState k.c) : Prop
  | piece (hstream : k.stream = true) (e : Handled σ) (he : e ∈ k.events rq s)
      (h : EventRefuses k.Y k.H e.1 e.2)
  | parsed (hstream : k.stream = false)
      (hreached : (untangle k.stream (k.exchanged rq s).io (k.exchanged rq s).ts).complete
        (k.exchanged rq s).io.httpStatus = true)
      (h : ParseRefuses k.Y (k.exchanged rq s).io.r (k.exchanged rq s).io.body.bytes)
  | body (h : (k.exchanged rq s).io.body.err = .tooBig)
  | line (h : (k.settled rq s).io.sse.line.err = .tooBig)
  | data (h : (k.settled rq s).io.sse.data.err = .tooBig)

/-- A stream that goes on has refused nothing, and without an event it has no finish reason. -/
structure AllFits (past : List (Handled σ)) (s : StreamW σ) : Prop where
  clean : ∀ e ∈ past, ¬ EventRefuses k.Y k.H e.1 e.2
  open_ : s.ctx.done = false
  bare : past = [] → s.r.finishRaw = none

/-- How a stream stops: at the end mark with nothing refused, or short of it. -/
structure StopsFitting (past : List (Handled σ)) (e : Handled σ) (rc : Int) (s : StreamW σ) : Prop where
  clean : ∀ e ∈ past, ¬ EventRefuses k.Y k.H e.1 e.2
  last : (rc = streamStop ∧ ¬ EventRefuses k.Y k.H e.1 e.2) ∨
    ((rc = -1 ∨ rc = streamCancel) ∧ s.ctx.done = false)

variable {k}

/-- Only the end mark closes a stream. -/
theorem opened_event : EventRule k.H k.cbs (fun s => s.ctx.done = false)
    (fun rc s => rc ≠ streamStop → s.ctx.done = false) where
  alloc _ _ hs := hs
  books _ _ _ hs := hs
  lift _ _ hs _ := hs
  refuse _ _ _ hs _ := hs
  give := by
    intro s ch bytes r hs _ _
    have hsame : (deliverCall k.cbs ch bytes { s with r := r }).2.ctx.done = false := by
      unfold deliverCall
      split_ifs
      · rw [(callData_same _ _ _ _).2]
        exact hs
      · exact hs
    exact ⟨fun _ => hsame, fun _ _ => hsame⟩
  raw := by
    intro s data hs
    have hsame : (callData (k.cbs.bind Callbacks.onRawChunk) .onRawChunk data s).2.ctx.done =
        false := by
      rw [(callData_same _ _ _ _).2]
      exact hs
    exact ⟨fun _ => hsame, fun _ _ => hsame⟩
  fail _ _ hs _ := hs
  stop _ _ hne := absurd rfl hne

/-- In a stream every event fits, or stops it. -/
theorem unrefused_rule : k.StreamRule k.AllFits k.StopsFitting where
  take := by
    intro payload past s hs hzero
    have hanswer := streamOnEvent_answers (@opened_event _ _ k).steps k.Y payload s hs.open_
    refine ⟨fun e he => ?_, hanswer.1 hzero, fun h => absurd h (by simp)⟩
    rcases List.mem_append.mp he with he | he
    · exact hs.clean e he
    · rw [List.mem_singleton.mp he]
      exact streamOnEvent_accepts hzero
  stop := by
    intro payload past s hs hne
    have hanswer := streamOnEvent_answers (@opened_event _ _ k).steps k.Y payload s hs.open_
    refine ⟨hs.clean, ?_⟩
    by_cases hdone : payload = ascii "[DONE]"
    · refine .inl ⟨by simp [streamOnEvent, hdone], fun hrefuses => hrefuses.1 hdone⟩
    · have hcode := (streamOnEvent_coded k.Y k.H k.cbs hdone s).resolve_left hne
      refine .inr ⟨hcode, hanswer.2 hne ?_⟩
      rcases hcode with hcode | hcode <;> rw [hcode] <;> decide
  move _ _ _ hs := ⟨hs.clean, hs.open_, hs.bare⟩
  moved _ _ _ _ _ hs := ⟨hs.clean, hs.last⟩

/-- A verdict that a flush has spoiled. -/
theorem checkStream_incomplete {s : Settled σ} {httpStatus : Int}
    (h : s.v.complete httpStatus = false) : (checkStream s).v.complete httpStatus = false := by
  unfold checkStream
  by_cases hgood : s.v.terminal = .ok ∧ s.v.ts = .ok ∧ s.v.bodyState = .ok ∧
      s.io.ctx.done = false ∧ s.io.r.finishRaw = none
  · rw [if_pos hgood]
    unfold Verdict.complete
    dsimp only
    split_ifs <;> simp
  · rw [if_neg hgood]
    exact h

/-- A stream without an event is no success. -/
theorem checkStream_bare {s : Settled σ} (hopen : s.io.ctx.done = false)
    (hbare : s.io.r.finishRaw = none) (httpStatus : Int) :
    (checkStream s).v.complete httpStatus = false := by
  by_cases h : s.v.complete httpStatus = true
  · obtain ⟨⟨⟨hterminal, hts⟩, -⟩, hbody⟩ := by simpa [Verdict.complete] using h
    rw [checkStream, if_pos ⟨hterminal, hts, hbody, hopen, hbare⟩]
    unfold Verdict.complete
    dsimp only
    split_ifs <;> simp
  · exact checkStream_incomplete (by simpa using h)

/-- A flush that failed, or that a callback cancelled, is no success. -/
theorem flushed_incomplete (v : Verdict) (io : AttemptIo) (out : Int × Sse × StreamW σ)
    (hcode : out.1 = -1 ∨ out.1 = streamCancel) :
    let io' := { io with sse := out.2.1, ctx := out.2.2.ctx, r := out.2.2.r }
    let v' :=
      if out.1 = streamCancel then { v with ts := .cancelled }
      else if out.1 = -1 then
        if streamNomem io' then { v with terminal := .nomem } else { v with bodyState := .tooBig }
      else v
    (checkStream ⟨v', io', out.2.2.world⟩).v.complete io.httpStatus = false := by
  intro io' v'
  refine checkStream_incomplete ?_
  dsimp only [v']
  rcases hcode with hcode | hcode <;> rw [hcode]
  · rw [if_neg (by decide), if_pos rfl]
    split_ifs <;> simp [Verdict.complete]
  · rw [if_pos rfl]
    simp [Verdict.complete]

/-- The flush of a stream that has refused nothing. -/
theorem flush_unrefused {bytes : Bytes} {past : List (Handled σ)}
    {v : Verdict} {io : AttemptIo} {w : World σ}
    (hreading : Reading k.c.maxEventBytes io.sse bytes (past.map Prod.fst))
    (h : k.AllFits past ⟨io.ctx, io.r, w⟩) :
    let t := checkStream (flushStream k.Y k.H k.cbs ⟨v, io, w⟩)
    t.v.complete io.httpStatus = true →
      (∀ e ∈ past ++ k.flushed io.sse ⟨io.ctx, io.r, w⟩, ¬ EventRefuses k.Y k.H e.1 e.2) ∧
        t.io.sse.line.err = .ok ∧ t.io.sse.data.err = .ok := by
  intro t hcomplete
  have hfinish := finish_heeded unrefused_rule hreading h
  have hplain := sseFinish_watched (streamHeap k.H) (streamOnEvent k.Y k.H k.cbs) io.sse
    ⟨io.ctx, io.r, w⟩ []
  have hopen : ¬ io.ctx.done = true := by
    rw [h.open_]
    simp
  rw [(checkStream_same _).1]
  simp only [t, flushStream, if_neg hopen] at hcomplete ⊢
  unfold flushed
  rw [← hplain] at hcomplete ⊢
  unfold onEvent at hfinish ⊢
  generalize sseFinish (streamHeap k.H).besideWatch
    (some (streamOnEvent k.Y k.H k.cbs).watched) io.sse (⟨io.ctx, io.r, w⟩, []) = r
    at hfinish hcomplete ⊢
  have hspoiled := flushed_incomplete v io (unwatched r)
  cases hfinish with
  | @going p u l hnext hP =>
      obtain ⟨hall, hsound | hnone⟩ := hnext
      · exact ⟨hP.clean, hsound.line, hsound.data⟩
      · exact absurd hcomplete (Bool.eq_false_iff.mp (checkStream_bare hP.open_
          (hP.bare (List.map_eq_nil_iff.mp hnone)) _))
  | @stopped rc p u l e hrc hstop hsound hQ =>
      rcases hQ.last with ⟨rfl, hlast⟩ | ⟨hcode, -⟩
      · refine ⟨fun e' he' => ?_, hsound.line, hsound.data⟩
        rw [← List.append_assoc] at he'
        rcases List.mem_append.mp he' with he' | he'
        · exact hQ.clean e' he'
        · rw [List.mem_singleton.mp he']
          exact hlast
      · rw [hspoiled hcode] at hcomplete
        cases hcomplete
  | @failed p u l herr hP hfull =>
      rw [hspoiled (.inl rfl)] at hcomplete
      cases hcomplete

/-- The buffer of a stream's body stays as it was. -/
theorem stream_body (hstream : k.stream = true) (rq : HttpRequest) (s : LoopState k.c) :
    (k.exchanged rq s).io.body.err = .ok := by
  refine Dialogue.run_invariant (P := fun i : SinkW σ => i.io.body.err = .ok) ?_ _ rfl
  intro q i env hi
  cases q with
  | status httpStatus headers =>
      have hbody := noteRetryAfter_body { i.io with httpStatus := httpStatus } headers
      simp only [attemptSink, attemptOnStatus, hbody]
      exact hi
  | body bytes =>
      simp only [attemptSink, if_pos hstream, attemptOnBodyStream]
      split_ifs
      · exact hi
      · exact hi

/-- A streaming attempt that is complete has refused nothing. -/
theorem stream_unrefused (hstream : k.stream = true) (hc : Obedient k.c k.cancel)
    (rq : HttpRequest) (s : LoopState k.c)
    (hcomplete : (k.settled rq s).v.complete (k.settled rq s).io.httpStatus = true) :
    (∀ e ∈ k.events rq s, ¬ EventRefuses k.Y k.H e.1 e.2) ∧
      (k.settled rq s).io.sse.line.err = .ok ∧ (k.settled rq s).io.sse.data.err = .ok := by
  have hstart : k.AllFits [] ⟨k.freshCtx, k.cleared s, k.handed rq s.world⟩ := by
    refine ⟨by simp, ?_, fun _ => rfl⟩
    rw [freshCtx, if_pos hstream]
    rfl
  have hends := exchange_follows hstream hc unrefused_rule rq s hstart
  have hhttp : (k.settled rq s).io.httpStatus = (k.exchanged rq s).io.httpStatus :=
    (settle_response _ _ _ _ _).1
  rw [hhttp] at hcomplete
  unfold events
  unfold settled at hcomplete ⊢
  rw [hstream] at hcomplete ⊢
  dsimp only at hends hcomplete ⊢
  generalize k.asked rq s = turns at hends ⊢
  generalize k.exchanged rq s = x at hends hcomplete ⊢
  rcases hends with hgoing | ⟨haborted, hhalting⟩
  · have hP := hgoing.holds x.world.env
    have hopen : x.io.ctx.done = false := hP.open_
    by_cases hv : (untangle true x.io x.ts).complete x.io.httpStatus = true
    · simp only [settle, hv, if_true] at hcomplete ⊢
      rw [hopen]
      exact flush_unrefused hgoing.reading hP hcomplete
    · simp only [settle, if_neg hv] at hcomplete
      exact absurd hcomplete hv
  · rw [haborted] at hcomplete ⊢
    obtain ⟨hio, hworld, hdone⟩ := @settle_aborted _ _ k x.io x.world
    rw [hio]
    by_cases hopen : x.io.ctx.done = false
    · have hv := untangle_open hopen
      simp only [settle, hv, Bool.false_eq_true, if_false] at hcomplete
    · rw [show x.io.ctx.done = true by simpa using hopen]
      cases hhalting with
      | stopped past e hhandled hrc hstop hsound hQ =>
          have hstopped := hQ x.world.env
          rcases hstopped.last with ⟨-, hlast⟩ | ⟨-, hno⟩
          · refine ⟨fun e' he' => ?_, hsound.line, hsound.data⟩
            rw [hhandled] at he'
            simp only [Bool.not_true, Bool.and_false, Bool.false_eq_true, if_false,
              List.append_nil] at he'
            rcases List.mem_append.mp he' with he' | he'
            · exact hstopped.clean e' he'
            · rw [List.mem_singleton.mp he']
              exact hlast
          · exact absurd hno hopen
      | failed hrc herr hP hfull => exact absurd (hP x.world.env).open_ hopen

/-- The parser of a body stays as it was. -/
theorem body_sse (hstream : k.stream = false) (rq : HttpRequest) (s : LoopState k.c) :
    (k.settled rq s).io.sse = sseInit 0 := by
  have hexchange : (k.exchanged rq s).io.sse = sseInit 0 := by
    refine Dialogue.run_invariant (P := fun i : SinkW σ => i.io.sse = sseInit 0) ?_ _ ?_
    · intro q i env hi
      cases q with
      | status httpStatus headers =>
          have hsse := noteRetryAfter_sse { i.io with httpStatus := httpStatus } headers
          simp only [attemptSink, attemptOnStatus, hsse]
          exact hi
      | body bytes =>
          simp only [attemptSink, hstream, Bool.false_eq_true, if_false, attemptOnBodyBuffer]
          exact hi
    · simp only [attemptIoInit, hstream, Bool.false_eq_true, if_false]
  unfold settled settle
  dsimp only
  split_ifs with hcomplete hyes
  · exact absurd hyes (by simp [hstream])
  · unfold parseBody
    split
    · split <;> exact hexchange
    · exact hexchange
  · exact hexchange

/-- A body is complete only if its parse was good. -/
theorem parseBody_complete {v : Verdict} {io : AttemptIo} {w : World σ} {httpStatus : Int}
    (h : (parseBody k.Y k.H ⟨v, io, w⟩).v.complete httpStatus = true) :
    (responseParse k.Y k.H io.r io.body.bytes w.env).1 = .ok ∧
      (responseParse k.Y k.H io.r io.body.bytes w.env).2.1 = .ok := by
  unfold parseBody at h
  dsimp only at h
  generalize responseParse k.Y k.H io.r io.body.bytes w.env = p at h ⊢
  obtain ⟨st, bodyState, r, env⟩ := p
  cases st with
  | ok =>
      dsimp only at h
      generalize bufTake k.H io.body env = taken at h
      obtain ⟨raw?, body, env'⟩ := taken
      cases raw? with
      | none => simp [Verdict.complete] at h
      | some raw =>
          refine ⟨rfl, ?_⟩
          simp only [Verdict.complete, Bool.and_eq_true, beq_iff_eq] at h
          exact h.2
  | _ => simp [Verdict.complete] at h

/-- An attempt of a body that is complete has refused nothing. -/
theorem body_unrefused (hstream : k.stream = false) (hc : Obedient k.c k.cancel)
    (rq : HttpRequest) (s : LoopState k.c)
    (hcomplete : (k.settled rq s).v.complete (k.settled rq s).io.httpStatus = true) :
    ¬ ParseRefuses k.Y (k.exchanged rq s).io.r (k.exchanged rq s).io.body.bytes ∧
      (k.exchanged rq s).io.body.err = .ok := by
  have hends := exchange_buffered hstream hc rq s
  have hhttp : (k.settled rq s).io.httpStatus = (k.exchanged rq s).io.httpStatus :=
    (settle_response _ _ _ _ _).1
  rw [hhttp] at hcomplete
  unfold settled at hcomplete
  rw [hstream] at hcomplete
  dsimp only at hends hcomplete ⊢
  generalize k.asked rq s = turns at hends
  generalize k.exchanged rq s = x at hends hcomplete ⊢
  by_cases hv : (untangle false x.io x.ts).complete x.io.httpStatus = true
  · simp only [settle, hv, if_true, Bool.false_eq_true, if_false] at hcomplete
    rcases hends with hbuffered | ⟨haborted, -⟩
    · obtain ⟨hst, hstate⟩ := parseBody_complete hcomplete
      exact ⟨fun hrefuses => responseParse_refuses hrefuses ⟨hst, hstate⟩, hbuffered.err⟩
    · rw [haborted, untangle_refused] at hv
      cases hv
  · simp only [settle, if_neg hv] at hcomplete
    exact absurd hcomplete hv

/-- A complete attempt has refused nothing for its size. -/
theorem complete_unrefused (hc : Obedient k.c k.cancel) (rq : HttpRequest) (s : LoopState k.c)
    (hcomplete : (k.settled rq s).v.complete (k.settled rq s).io.httpStatus = true) :
    ¬ k.RefusedForSize rq s := by
  have hstream : (∀ e ∈ k.events rq s, k.stream = true → ¬ EventRefuses k.Y k.H e.1 e.2) ∧
      (k.settled rq s).io.sse.line.err = .ok ∧ (k.settled rq s).io.sse.data.err = .ok := by
    by_cases hyes : k.stream = true
    · obtain ⟨hevents, hbufs⟩ := stream_unrefused hyes hc rq s hcomplete
      exact ⟨fun e he _ => hevents e he, hbufs⟩
    · have hsse := body_sse (by simpa using hyes) rq s
      rw [hsse]
      exact ⟨fun e he htrue => absurd htrue hyes, rfl, rfl⟩
  have hbody : (k.exchanged rq s).io.body.err = .ok := by
    by_cases hyes : k.stream = true
    · exact stream_body hyes rq s
    · exact (body_unrefused (by simpa using hyes) hc rq s hcomplete).2
  intro hrefused
  cases hrefused with
  | piece hyes e he h => exact hstream.1 e he hyes h
  | parsed hno hreached h => exact (body_unrefused hno hc rq s hcomplete).1 h
  | body h =>
      rw [hbody] at h
      cases h
  | line h =>
      rw [hstream.2.1] at h
      cases h
  | data h =>
      rw [hstream.2.2] at h
      cases h

/-- A record of a success is of a complete attempt. -/
theorem entry_none {rq : HttpRequest} {s : LoopState k.c}
    (h : (k.entry rq s).errorClass = .none) :
    (k.settled rq s).v.complete (k.settled rq s).io.httpStatus = true := by
  have hfirst : k.firstClass (k.roundTrip rq s) = .none := by
    change (k.judge (k.roundTrip rq s)).cls = .none at h
    unfold judge at h
    split at h
    · exact h
    · dsimp only at h
      split_ifs at h
      exact h
  unfold firstClass at hfirst
  split_ifs at hfirst with hterminal
  obtain ⟨hts, hhttp, hbody⟩ := classify_none k.c.policy_valid hfirst
  have hterminal : (k.settled rq s).v.terminal = .ok := not_not.mp hterminal
  have hts : (k.settled rq s).v.ts = .ok := hts
  have hbody : (k.settled rq s).v.bodyState = .ok := hbody
  have hrange : (k.settled rq s).io.httpStatus ≥ 200 ∧ (k.settled rq s).io.httpStatus ≤ 299 := hhttp
  have hhttp : httpSuccess (k.settled rq s).io.httpStatus = true := by
    simpa [httpSuccess] using hrange
  simp [Verdict.complete, hterminal, hts, hbody, hhttp]

/-! ## The streams that events find -/

/-- A stream within its caps, and so is every stream that an event has found. -/
def WatchCapped (k : Call σ) (t : StreamW σ × List (Handled σ)) : Prop :=
  StreamCapped k.c.maxResponseBytes t.1 ∧ ∀ e ∈ t.2, StreamCapped k.c.maxResponseBytes e.2

/-- An event keeps to the caps of its attempt. -/
theorem onEvent_keeps : k.onEvent.Keeps (WatchCapped k) fun _ => WatchCapped k := by
  rintro payload ⟨s, l⟩ ⟨hs, hl⟩
  have hnext : StreamCapped k.c.maxResponseBytes (streamOnEvent k.Y k.H k.cbs payload s).2 := by
    have hanswer := @event_keeps _ _ k payload s hs
    by_cases hzero : (streamOnEvent k.Y k.H k.cbs payload s).1 = 0
    · exact hanswer.1 hzero
    · exact hanswer.2 hzero
  have hall : WatchCapped k (k.onEvent payload (s, l)).2 := by
    refine ⟨hnext, fun e he => ?_⟩
    rcases List.mem_append.mp he with he | he
    · exact hl e he
    · rw [List.mem_singleton.mp he]
      exact hs
  exact ⟨fun _ => hall, fun _ => hall⟩

/-- So does an allocation. -/
theorem watch_alloc (n : Nat) (t : StreamW σ × List (Handled σ)) (ht : WatchCapped k t) :
    WatchCapped k ((streamHeap k.H).besideWatch.alloc n t).2 :=
  ⟨(capped_event k.H k.cbs k.c.maxResponse_pos).alloc n t.1 ht.1, ht.2⟩

/-- So does whatever the parser does. -/
theorem watched_of_outcome {r : Int × Sse × (StreamW σ × List (Handled σ))}
    (h : SseOutcome (WatchCapped k) (fun _ => WatchCapped k) r) : WatchCapped k r.2.2 := by
  rcases h with ⟨-, h⟩ | ⟨-, h⟩ | ⟨-, -, h⟩ <;> exact h

/-- Every event of an attempt finds a stream within its caps. -/
theorem events_capped (hstream : k.stream = true) (rq : HttpRequest) {s : LoopState k.c}
    (h : ResultCapped k.c.maxResponseBytes s.r) :
    ∀ e ∈ k.events rq s, StreamCapped k.c.maxResponseBytes e.2 := by
  obtain ⟨hasked, hend⟩ := exchange_capped rq h
  intro e he
  rcases List.mem_append.mp he with he | he
  · obtain ⟨t, ht, he⟩ := List.mem_flatMap.mp he
    obtain ⟨-, hs⟩ := (hasked t ht).stream hstream ⟨t.2.2, t.2.1.log⟩
    exact (watched_of_outcome (sseFeed_spec watch_alloc onEvent_keeps t.2.1.io.sse t.1.bytes
      ⟨hs, by simp⟩)).2 e he
  · split_ifs at he
    · obtain ⟨-, hs⟩ := hend.stream hstream (k.exchanged rq s).world
      exact (watched_of_outcome (sseFinish_spec watch_alloc onEvent_keeps
        (k.exchanged rq s).io.sse ⟨hs, by simp⟩)).2 e he
    · cases he

/-! ## Calls -/

variable (k)

/-- The states of an attempt: at each question of the transport, when it has returned, and when
the attempt is settled. -/
inductive Passes (rq : HttpRequest) (s : LoopState k.c) : AttemptIo → Prop
  | asked (t : SinkCall × SinkW σ × σ) (ht : t ∈ k.asked rq s) : Passes rq s t.2.1.io
  | exchanged : Passes rq s (k.exchanged rq s).io
  | settled : Passes rq s (k.settled rq s).io

variable {k}

/-- At the head of every turn the result is within its caps. -/
theorem reached_capped {ordinal : UInt32} {w : World σ} {s : LoopState k.c}
    (h : k.Reaches ordinal w s) : ResultCapped k.c.maxResponseBytes s.r :=
  @Reaches.invariant _ _ _ _ _ (fun s => ResultCapped k.c.maxResponseBytes s.r)
    (fun _ => resultInit_capped _) (fun _ _ hs hturn => turn_capped hs hturn) _ h

/-- A result keeps to its cap under any status. -/
theorem status_capped {cap : Nat} {r : Result} (h : ResultCapped cap r) (st : Status) :
    ResultCapped cap { r with status := st } where
  buf ch := by
    cases ch
    · exact h.buf .content
    · exact h.buf .reasoning
  rawBody := h.rawBody
  excerpts := h.excerpts

/-- A call that is refused before its loop hands out no result, or an empty one. -/
theorem enter_capped {ordinal : UInt32} {w : World σ} {out : ChatEnd σ ⊕ AtDone σ} {r : Result}
    (he : k.enter ordinal w = .inl out) (h : (k.close out).result = some r) :
    ResultCapped k.c.maxResponseBytes r := by
  unfold enter at he
  split_ifs at he
  · cases he
    cases h
  · split at he
    · cases he
      cases h
    · split at he
      · cases he
        cases h
      · rename_i hcreate
        unfold resultCreate at hcreate
        split_ifs at hcreate
        · cases hcreate
          unfold arrays at he
          dsimp only at he
          split_ifs at he
          · cases he
          · cases he
            dsimp only [close, done] at h
            split at h <;> cases h
            exact status_capped (resultInit_capped _) _
        · cases hcreate

/-- The result that a call hands out is within its caps. -/
theorem result_capped {ordinal : UInt32} {w : World σ} {r : Result}
    (h : (k.run ordinal w).result = some r) : ResultCapped k.c.maxResponseBytes r := by
  rw [run_eq] at h
  rcases k.enter_ends ordinal w with ⟨out, he, -⟩ | ⟨env, he⟩
  · rw [he] at h
    exact enter_capped he h
  · rw [he] at h
    have hend := @run_turns _ _ k (fun s => ResultCapped k.c.maxResponseBytes s.r)
      (fun s => ResultCapped k.c.maxResponseBytes s.r)
      (fun s out hs hturn => by
        have hout := turn_capped hs hturn
        cases out <;> exact hout)
      (k.start ordinal (resultInit k.c.maxResponseBytes) { w with env := env })
      (resultInit_capped _)
    cases h
    exact status_capped hend _

end Call

open Call

/-- What a call holds stays within its caps: at the head of every turn, at every question that a
transport asks, at every event of a stream, once an attempt is settled, and at the end.  And where
the transport stops when it is told to, an attempt that refused anything for its size is recorded
as a failure. -/
theorem chat_capped (k : Call σ) (ordinal : UInt32) (w : World σ) :
    (∀ s, k.Reaches ordinal w s →
      ResultCapped k.c.maxResponseBytes s.r ∧
      ∀ rq s1, k.prepare (k.polled s) = (.ok rq, s1) →
        (∀ io, k.Passes rq s1 io → k.WithinCaps io) ∧
        (k.stream = true → ∀ e ∈ k.events rq s1, StreamCapped k.c.maxResponseBytes e.2) ∧
        (Obedient k.c k.cancel → k.RefusedForSize rq s1 → (k.entry rq s1).errorClass ≠ .none)) ∧
      ∀ r, (k.run ordinal w).result = some r → ResultCapped k.c.maxResponseBytes r := by
  refine ⟨fun s hs => ⟨reached_capped hs, fun rq s1 hprep => ?_⟩, fun r => result_capped⟩
  have hs1 : ResultCapped k.c.maxResponseBytes s1.r := by
    rw [(k.prepared_unchanged hprep).r]
    exact reached_capped hs
  refine ⟨fun io hio => ?_, fun hstream => events_capped hstream rq hs1, fun hc hrefused hnone =>
    complete_unrefused hc rq s1 (entry_none hnone) hrefused⟩
  cases hio with
  | asked t ht => exact ((exchange_capped rq hs1).1 t ht).within
  | exchanged => exact (exchange_capped rq hs1).2.within
  | settled => exact (settled_capped rq hs1).within

end Runs

section Plain

attribute [local instance] lp64

/-- A call with a cap of four bytes, whose response has six. -/
def tinyCall : Call Unit where
  Y := plainYyjson [] .null
  H := Heap.plentiful
  c := plainClient 0 4 (by decide) (replyTransport fun s => ((200, [ascii "abcdef"]), s))
  req := plainRequest
  cbs := none
  cancel := none
  stream := false

/-- Its first turn. -/
def tinyStart : LoopState tinyCall.c :=
  tinyCall.start 0 (resultInit 4) ⟨(), []⟩

/-- The body is refused, and the attempt is recorded as a failure. -/
theorem chat_capped_plain : ∃ rq s1, tinyCall.prepare (tinyCall.polled tinyStart) = (.ok rq, s1) ∧
    tinyCall.WithinCaps (tinyCall.settled rq s1).io ∧
    (tinyCall.entry rq s1).errorClass ≠ .none := by
  have hreach : tinyCall.Reaches 0 ⟨(), []⟩ tinyStart := ⟨tinyStart, rfl, .start⟩
  have hbig : ((tinyCall.prepare (tinyCall.polled tinyStart)).1.toOption.map fun rq =>
      (tinyCall.exchanged rq (tinyCall.prepare (tinyCall.polled tinyStart)).2).io.body.err) =
        some .tooBig := by
    decide +kernel
  obtain ⟨hturns, -⟩ := chat_capped tinyCall 0 ⟨(), []⟩
  obtain ⟨-, hattempt⟩ := hturns tinyStart hreach
  rcases hprep : tinyCall.prepare (tinyCall.polled tinyStart) with ⟨out, s1⟩
  rw [hprep] at hbig
  cases out with
  | error st => cases hbig
  | ok rq =>
      obtain ⟨hpasses, -, hrefused⟩ := hattempt rq s1 hprep
      exact ⟨rq, s1, rfl, hpasses _ .settled, hrefused
        (fun rq s => replyTransport_obedient _ rq none s) (.body (Option.some.inj hbig))⟩

end Plain

end Sicha
