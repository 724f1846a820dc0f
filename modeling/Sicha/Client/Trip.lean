import Sicha.Client.Acts
import Sicha.Client.Turn
import Sicha.Response.Rule

/-!
# What one round trip does

The rules for a whole attempt: from the request handed to the transport to the
settled outcome.  Each lifts an invariant of the event callback over the transport's
side of the conversation, the flush at the end of a stream, and the parse of a body.

Main results:

- Theorem {lit}`roundTrip_keeps`: the invariant rule.
- Theorem {lit}`roundTrip_heard`: what the caller has heard of an attempt, and what the
  result holds of it.
-/

namespace Sicha

variable [SizeT] {σ : Type}

/-! ## The invariant rule -/

/-- The foreign parties of a client, its allocator and the callbacks change the environment
within {lit}`Rel`. -/
structure Parties (H : Heap σ) (c : Client σ) (cbs : Option (Callbacks σ))
    (Rel : σ → σ → Prop) : Prop where
  refl : ∀ s, Rel s s
  trans : ∀ s t u, Rel s t → Rel t u → Rel s u
  alloc : ∀ n s, Rel s (H.alloc n s).2
  now : ∀ s, Rel s (c.clock.nowMs s).2
  wait : ∀ token ms s, Rel s (c.clock.waitMs token ms s).2
  transport : ∀ rq sink token s, (c.transport.perform rq sink token s).Moves Rel s
  data : ∀ (ch : Channel) f, ch.callback cbs = some f → ∀ bytes s, Rel s (f bytes s).2
  raw : ∀ f, cbs.bind Callbacks.onRawChunk = some f → ∀ bytes s, Rel s (f bytes s).2
  validate : ∀ f, cbs.bind Callbacks.validate = some f → ∀ r s, Rel s (f r s).2
  onAttempt : ∀ f, cbs.bind Callbacks.onAttempt = some f → ∀ a s, Rel s (f a s)

/-- The transport stops, and says so, as soon as the sink tells it to. -/
def Obedient (c : Client σ) (cancel : Option (CancelToken σ)) : Prop :=
  ∀ rq s, (c.transport.perform rq true cancel s).StopsWith (· ≠ 0) .abortedBySink

namespace Call

variable (k : Call σ)

/-- Every foreign party of a call changes the environment within {lit}`Rel`. -/
abbrev Within (Rel : σ → σ → Prop) : Prop :=
  Parties k.H k.c k.cbs Rel

end Call

omit [SizeT] in
/-- Every dialogue moves the environment somehow. -/
theorem moves_top {Q A R : Type} (d : Dialogue σ Q A R) (s : σ) :
    d.Moves (fun _ _ => True) s := by
  induction d generalizing s with
  | done r s' => trivial
  | ask q s' next ih => exact ⟨trivial, fun a s'' => ih a s'' s''⟩

namespace Call

variable (k : Call σ)

/-- Without a restriction every call is within it. -/
theorem within_top : k.Within fun _ _ => True where
  refl _ := trivial
  trans _ _ _ _ _ := trivial
  alloc _ _ := trivial
  now _ := trivial
  wait _ _ _ := trivial
  transport _ _ _ s := moves_top _ s
  data _ _ _ _ _ := trivial
  raw _ _ _ _ := trivial
  validate _ _ _ _ := trivial
  onAttempt _ _ _ _ := trivial

/-- An invariant of a whole attempt: it survives events, other moves of the environment,
and, outside streaming, the parse. -/
structure TripRule (Rel : σ → σ → Prop) (P : StreamW σ → Prop) : Prop where
  event : EventRule k.H k.cbs P (fun _ => P)
  move : ∀ s v, Rel s.world.env v → P s → P (s.setEnv v)
  parse : k.stream = false → ∀ s r, P s → r.attempts = s.r.attempts →
    r.backend = s.r.backend → P { s with r := r }

/-- The world when the request of an attempt is handed to the transport. -/
def handed (rq : HttpRequest) (w : World σ) : World σ :=
  ((k.c.debugLog (requestText rq) w).quiet k.c.clock.nowMs).2.note
    (.perform rq true k.cancel.isSome)

/-- The context an attempt starts with. -/
def freshCtx : StreamCtx :=
  if k.stream then streamCtxInit k.req.accumulates else streamCtxZero

variable {k} {Rel : σ → σ → Prop} {P : StreamW σ → Prop}

/-- Any outcome of the parser keeps an invariant that no answer breaks. -/
theorem keeps_of_outcome {r : Int × Sse × StreamW σ} (h : SseOutcome P (fun _ => P) r) :
    P r.2.2 := by
  rcases h with ⟨-, h⟩ | ⟨-, h⟩ | ⟨-, -, h⟩ <;> exact h

/-- To note a header touches neither context nor result. -/
theorem noteRetryAfter_same (io : AttemptIo) (headers : List HeaderRef) :
    (headers.foldl noteRetryAfter io).ctx = io.ctx ∧
      (headers.foldl noteRetryAfter io).r = io.r := by
  obtain ⟨_, _, hnoted⟩ := foldl_noteRetryAfter io headers
  rw [hnoted]
  exact ⟨rfl, rfl⟩

/-- Whatever the transport asks, the sink keeps the invariant. -/
theorem sink_keeps (rule : k.TripRule Rel P) (q : SinkCall) (i : SinkW σ) (env : σ)
    (hi : P (i.streamW env)) :
    let out := attemptSink k.Y k.H k.cbs k.stream q i env
    P (out.2.1.streamW out.2.2) := by
  intro out
  cases q with
  | status httpStatus headers =>
      have hsame := noteRetryAfter_same { i.io with httpStatus := httpStatus } headers
      simp only [out, attemptSink, attemptOnStatus, SinkW.streamW, hsame.1, hsame.2]
      exact hi
  | body bytes =>
      by_cases hstream : k.stream = true
      · have hfeed := keeps_of_outcome (feed_outcome rule.event k.Y i.io.sse bytes hi)
        simp only [out, attemptSink, hstream, if_true, attemptOnBodyStream]
        split_ifs <;> exact hfeed
      · have hbuf := rule.event.append_env (i.streamW env) i.io.body bytes hi
        simp only [out, attemptSink, hstream, Bool.false_eq_true, if_false, attemptOnBodyBuffer]
        exact hbuf

/-- The exchange keeps an invariant that holds when the request is handed over. -/
theorem exchange_keeps (hk : k.Within Rel) (rule : k.TripRule Rel P) (rq : HttpRequest)
    (io : AttemptIo) (w : World σ) (h : P ⟨io.ctx, io.r, k.handed rq w⟩) :
    let x := exchange k.Y k.H k.c k.cbs k.cancel rq k.stream io w
    P ⟨x.io.ctx, x.io.r, x.world⟩ := by
  intro x
  generalize hstart : k.handed rq w = start at h
  have hrun := @Dialogue.run_moves _ _ _ _ _ (attemptSink k.Y k.H k.cbs k.stream) Rel
    (fun i env => P (i.streamW env)) (fun i s s' hs hrel => rule.move (i.streamW s) s' hrel hs)
    (sink_keeps rule) (k.c.transport.perform rq true k.cancel start.env)
    { io := io, log := start.log } start.env (hk.transport _ _ _ _) h
  have hend := rule.move _ _ (hk.now _) hrun
  subst hstart
  exact hend

/-- The flush of a stream keeps what its events keep. -/
theorem flushStream_keeps (rule : k.TripRule Rel P) (s : Settled σ)
    (h : P ⟨s.io.ctx, s.io.r, s.world⟩) :
    let t := flushStream k.Y k.H k.cbs s
    P ⟨t.io.ctx, t.io.r, t.world⟩ := by
  intro t
  by_cases hdone : s.io.ctx.done = true
  · have ht : t = s := by simp [t, flushStream, hdone]
    rw [ht]
    exact h
  · have hfinish := keeps_of_outcome (finish_outcome rule.event k.Y s.io.sse h)
    simp only [t, flushStream, if_neg hdone]
    exact hfinish

/-- The parse of a body keeps what its parts keep. -/
theorem parseBody_keeps (rule : k.TripRule Rel P) (hstream : k.stream = false) (s : Settled σ)
    (h : P ⟨s.io.ctx, s.io.r, s.world⟩) :
    let t := parseBody k.Y k.H s
    P ⟨t.io.ctx, t.io.r, t.world⟩ := by
  intro t
  have halloc : ∀ n r env, P ⟨s.io.ctx, r, { s.world with env := env }⟩ →
      P ⟨s.io.ctx, r, { s.world with env := (k.H.alloc n env).2 }⟩ := by
    intro n r env hr
    exact rule.event.alloc n ⟨s.io.ctx, r, { s.world with env := env }⟩ hr
  have hcontent : ∀ r r' env, P ⟨s.io.ctx, r, { s.world with env := env }⟩ →
      SameRecords r r' → P ⟨s.io.ctx, r', { s.world with env := env }⟩ := by
    intro r r' env hr hsame
    exact rule.parse hstream _ r' hr hsame.attempts hsame.backend
  have hparse := (@responseParse_spec _ _ k.H
    (fun r env => P ⟨s.io.ctx, r, { s.world with env := env }⟩) halloc hcontent k.Y
    s.io.body.bytes s.io.r s.world.env h).keeps
  simp only [t, parseBody]
  split
  · rename_i bodyState r env hp
    rw [hp] at hparse
    have htake := bufTake_keeps (fun n env hr => halloc n r env hr) s.io.body hparse
    split <;> rename_i ht <;> rw [ht] at htake
    · exact htake
    · exact hcontent r _ _ htake ⟨rfl, rfl⟩
  · rename_i hp
    rw [hp] at hparse
    exact hparse

/-- The stages after the exchange keep an invariant. -/
theorem settle_keeps (rule : k.TripRule Rel P) (s : Settled σ)
    (h : P ⟨s.io.ctx, s.io.r, s.world⟩) :
    let t := settle k.Y k.H k.cbs k.stream s
    P ⟨t.io.ctx, t.io.r, t.world⟩ := by
  intro t
  simp only [t, settle]
  split_ifs with hcomplete hstream
  · have hflush := flushStream_keeps rule s h
    unfold checkStream
    split_ifs <;> exact hflush
  · exact parseBody_keeps rule (by simpa using hstream) s h
  · exact h

/-- What survives every part of an attempt survives the attempt. -/
theorem roundTrip_keeps (hk : k.Within Rel) (rule : k.TripRule Rel P) (rq : HttpRequest)
    (s : LoopState k.c) (h : P ⟨k.freshCtx, k.cleared s, k.handed rq s.world⟩) :
    ∃ ctx, P ⟨ctx, (k.roundTrip rq s).r, (k.roundTrip rq s).world⟩ ∧
      (k.roundTrip rq s).o.delivered = (k.stream && ctx.delivered) := by
  have hexchange := exchange_keeps hk rule rq
    (attemptIoInit k.c (k.cleared s) k.stream k.req.accumulates) s.world h
  exact ⟨_, settle_keeps rule _ hexchange, rfl⟩

/-! ## The terminal status -/

/-- A round trip's own error, if any, is out of memory. -/
def GoodOrNomem (v : Verdict) : Prop :=
  v.terminal = .ok ∨ v.terminal = .nomem

/-- At the end of the transport the only terminal status is that of memory. -/
theorem untangle_terminal (stream : Bool) (io : AttemptIo) (ts : TransportStatus) :
    GoodOrNomem (untangle stream io ts) := by
  have hoverflow : ∀ nomem, GoodOrNomem (overflowVerdict ts nomem) := by
    intro nomem
    cases nomem
    · exact .inl rfl
    · exact .inr rfl
  unfold untangle
  split_ifs
  · exact .inl rfl
  · exact .inl rfl
  · exact hoverflow _
  · exact hoverflow _
  · exact .inr rfl
  · exact .inl rfl

/-- It is so behind the flush. -/
theorem flushStream_terminal (s : Settled σ) (h : GoodOrNomem s.v) :
    GoodOrNomem (flushStream k.Y k.H k.cbs s).v := by
  unfold flushStream
  dsimp only
  split_ifs
  · exact h
  · exact h
  · exact .inr rfl
  · exact h
  · exact h

/-- It is so behind the parse. -/
theorem parseBody_terminal (s : Settled σ) (h : GoodOrNomem s.v) :
    GoodOrNomem (parseBody k.Y k.H s).v := by
  have hparse := (@responseParse_spec _ _ k.H (fun _ _ => True) (fun _ _ _ _ => trivial)
    (fun _ _ _ _ _ => trivial) k.Y s.io.body.bytes s.io.r s.world.env trivial).status
  unfold parseBody
  split
  · split
    · exact .inr rfl
    · exact h
  · rename_i hp
    rw [hp] at hparse
    exact hparse

/-- It is so when the round trip is settled. -/
theorem settle_terminal (s : Settled σ) (h : GoodOrNomem s.v) :
    GoodOrNomem (settle k.Y k.H k.cbs k.stream s).v := by
  unfold settle
  split_ifs
  · have hflush := @flushStream_terminal _ _ k s h
    unfold checkStream
    split_ifs <;> exact hflush
  · exact parseBody_terminal s h
  · exact h

/-- A round trip is terminal only for lack of memory. -/
theorem roundTrip_terminal (rq : HttpRequest) (s : LoopState k.c) :
    GoodOrNomem (k.roundTrip rq s).o.v :=
  settle_terminal _ (untangle_terminal _ _ _)

/-! ## What the caller has heard of an attempt -/

/-- An attempt that began with the log {lit}`base` and the result {lit}`r0`, and has called
the data callbacks {lit}`new` since: the context knows whether a delta was delivered,
and the result holds the deltas if it accumulates and both sides listen. -/
structure Heard (k : Call σ) (base : List Act) (r0 : Result) (new : List Act)
    (s : StreamW σ) : Prop where
  log : s.world.acts = base ++ new
  data : ∀ a ∈ new, a.isData = true
  delivered : s.ctx.delivered = true ↔ ∃ a ∈ new, a.isDelta = true
  attempts : s.r.attempts = r0.attempts
  backend : s.r.backend = r0.backend
  accumulate : s.ctx.accumulate = (k.stream && k.req.accumulates)
  held : s.ctx.accumulate = true → ∀ ch : Channel, (ch.callback k.cbs).isSome = true →
    (ch.buf s.r).bytes = (ch.buf r0).bytes ++ heardOn ch new

/-- One more call of a data callback. -/
theorem Heard.call {base : List Act} {r0 : Result} {new : List Act} {s s' : StreamW σ} {a : Act}
    (h : Heard k base r0 new s) (hlog : s'.world.acts = s.world.acts ++ [a])
    (hdata : a.isData = true)
    (hdelivered : s'.ctx.delivered = true ↔ s.ctx.delivered = true ∨ a.isDelta = true)
    (hrecords : SameRecords s.r s'.r) (haccumulate : s'.ctx.accumulate = s.ctx.accumulate)
    (hheld : s.ctx.accumulate = true → ∀ ch : Channel, (ch.callback k.cbs).isSome = true →
      (ch.buf s'.r).bytes = (ch.buf s.r).bytes ++ a.deltaOn ch) :
    Heard k base r0 (new ++ [a]) s' where
  log := by rw [hlog, h.log, List.append_assoc]
  data := by
    intro b hb
    rcases List.mem_append.mp hb with hb | hb
    · exact h.data b hb
    · rw [List.mem_singleton.mp hb]
      exact hdata
  delivered := by
    rw [hdelivered, h.delivered]
    simp [or_and_right, exists_or]
  attempts := hrecords.attempts.trans h.attempts
  backend := hrecords.backend.trans h.backend
  accumulate := haccumulate.trans h.accumulate
  held := by
    intro hacc ch hch
    rw [haccumulate] at hacc
    rw [hheld hacc ch hch, h.held hacc ch hch, heardOn_append, List.append_assoc]
    simp [heardOn]

/-- Every step of an event is heard. -/
theorem heard_event (base : List Act) (r0 : Result) :
    EventRule k.H k.cbs (fun s => ∃ new, Heard k base r0 new s)
      (fun _ s => ∃ new, Heard k base r0 new s) where
  alloc := by
    rintro n s ⟨new, h⟩
    exact ⟨new, h.log, h.data, h.delivered, h.attempts, h.backend, h.accumulate, h.held⟩
  books := by
    rintro s saw raw ⟨new, h⟩
    exact ⟨new, h.log, h.data, h.delivered, h.attempts, h.backend, h.accumulate, h.held⟩
  lift := by
    rintro s r ⟨new, h⟩ hframe
    refine ⟨new, h.log, h.data, h.delivered, hframe.attempts.trans h.attempts,
      hframe.backend.trans h.backend, h.accumulate, ?_⟩
    intro hacc ch hch
    rw [hframe.buf ch]
    exact h.held hacc ch hch
  refuse := by
    rintro s ch b ⟨new, h⟩ hbytes
    rcases setBuf_records ch s.r b with ⟨hattempts, hbackend⟩
    refine ⟨new, h.log, h.data, h.delivered, hattempts.trans h.attempts,
      hbackend.trans h.backend, h.accumulate, ?_⟩
    intro hacc ch' hch'
    rw [setBuf_bytes]
    split_ifs with hsame
    · rw [hbytes, ← hsame]
      exact h.held hacc ch' hch'
    · exact h.held hacc ch' hch'
  give := by
    rintro s ch bytes r ⟨new, h⟩ hne hstored
    unfold deliverCall
    cases hcb : ch.callback k.cbs with
    | none =>
        refine .zero ⟨new, h.log, h.data, h.delivered,
          hstored.records.attempts.trans h.attempts, hstored.records.backend.trans h.backend,
          h.accumulate, ?_⟩
        intro hacc ch' hch'
        have hother : ch' ≠ ch := by
          rintro rfl
          simp [hcb] at hch'
        have hbytes := hstored.bytes_eq hacc ch'
        rw [if_neg hother, List.append_nil] at hbytes
        rw [hbytes]
        exact h.held hacc ch' hch'
    | some f =>
        refine Answers.both ⟨new ++ [ch.act bytes (f bytes s.world.env).1], h.call ?_ ?_ ?_
          hstored.records rfl ?_⟩
        · exact World.act_acts _ _ _
        · exact channel_act_isData ch bytes _
        · simp [callData, hne]
        · intro hacc ch' _
          rw [act_deltaOn]
          exact hstored.bytes_eq hacc ch'
  raw := by
    rintro s data ⟨new, h⟩
    cases hcb : k.cbs.bind Callbacks.onRawChunk with
    | none => exact .zero ⟨new, h⟩
    | some f =>
        refine Answers.both ⟨new ++ [.onRawChunk data (f data s.world.env).1], h.call ?_ rfl ?_
          ⟨rfl, rfl⟩ rfl ?_⟩
        · exact World.act_acts _ _ _
        · simp [callData, Act.isDelta]
        · intro _ ch _
          simp [callData, Act.deltaOn]
  fail := by
    rintro s err ⟨new, h⟩
    exact ⟨new, h.log, h.data, h.delivered, h.attempts, h.backend, h.accumulate, h.held⟩
  stop := by
    rintro s ⟨new, h⟩
    exact ⟨new, h.log, h.data, h.delivered, h.attempts, h.backend, h.accumulate, h.held⟩
/-- A whole round trip is heard. -/
theorem heard_trip (base : List Act) (r0 : Result) :
    k.TripRule (fun _ _ => True) fun s => ∃ new, Heard k base r0 new s where
  event := heard_event base r0
  move := by
    rintro s v - ⟨new, h⟩
    exact ⟨new, h.log, h.data, h.delivered, h.attempts, h.backend, h.accumulate, h.held⟩
  parse := by
    rintro hstream s r ⟨new, h⟩ hattempts hbackend
    have hacc : s.ctx.accumulate = false := by rw [h.accumulate, hstream, Bool.false_and]
    refine ⟨new, h.log, h.data, h.delivered, hattempts.trans h.attempts,
      hbackend.trans h.backend, h.accumulate, ?_⟩
    intro htrue
    rw [hacc] at htrue
    cases htrue

/-- A cleared result holds no bytes. -/
theorem cleared_bytes (s : LoopState k.c) (ch : Channel) :
    (ch.buf (k.cleared s)).bytes = [] := by
  cases ch <;> rfl

/-- What the caller hears of a round trip. -/
theorem roundTrip_heard (rq : HttpRequest) (s : LoopState k.c) :
    ∃ new, (k.roundTrip rq s).world.acts = (k.handed rq s.world).acts ++ new ∧
      (∀ a ∈ new, a.isData = true) ∧
      ((k.roundTrip rq s).o.delivered = true ↔ k.stream = true ∧ ∃ a ∈ new, a.isDelta = true) ∧
      SameRecords (k.cleared s) (k.roundTrip rq s).r ∧
      (k.stream = true → k.req.accumulates = true → ∀ ch : Channel,
        (ch.callback k.cbs).isSome = true →
          (ch.buf (k.roundTrip rq s).r).bytes = heardOn ch new) := by
  have hfresh : Heard k (k.handed rq s.world).acts (k.cleared s) []
      ⟨k.freshCtx, k.cleared s, k.handed rq s.world⟩ := by
    refine ⟨by simp, by simp, ?_, rfl, rfl, ?_, by simp⟩ <;> unfold freshCtx <;>
      split_ifs with hstream <;> simp [streamCtxInit, streamCtxZero, hstream]
  obtain ⟨ctx, ⟨new, h⟩, hdelivered⟩ := roundTrip_keeps (within_top k)
    (heard_trip (k.handed rq s.world).acts (k.cleared s)) rq s ⟨[], hfresh⟩
  refine ⟨new, h.log, h.data, ?_, ⟨h.attempts, h.backend⟩, ?_⟩
  · rw [hdelivered, Bool.and_eq_true]
    exact and_congr_right fun _ => h.delivered
  · intro hstream hreq ch hch
    have hheld := h.held (by rw [h.accumulate, hstream, hreq]; rfl) ch hch
    rw [hheld, cleared_bytes, List.nil_append]

end Call

end Sicha
