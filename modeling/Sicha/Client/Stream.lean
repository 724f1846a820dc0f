import Sicha.Client.Pace
import Sicha.Sse.Follow
import Sicha.Sse.Twin

/-!
# The stream of an attempt

The body of a streaming attempt as one byte string: what the transport has handed over in
however many pieces, and what the parser and the event callback have made of it when the
transport returns.

Main results:

- Definition {lit}`received`: the bytes of a conversation.
- Theorem {lit}`exchange_follows`: the rule for an exchange.
-/

namespace Sicha

variable [SizeT] {σ : Type}

/-! ## The conversation of an attempt -/

/-- The questions of a conversation with the sink, with the states they are asked in. -/
abbrev Turns (σ : Type) := List (SinkCall × SinkW σ × σ)

/-- An event as the event callback is handed it: its payload, and the stream it finds. -/
abbrev Handled (σ : Type) := Bytes × StreamW σ

/-- The body bytes a question carries. -/
def SinkCall.bytes : SinkCall → Bytes
  | .status _ _ => []
  | .body bytes => bytes

/-- The body bytes of a conversation. -/
def received (turns : Turns σ) : Bytes :=
  turns.flatMap fun t => t.1.bytes

/-- One more call brings its bytes. -/
theorem received_snoc (turns : Turns σ) (q : SinkCall) (i : SinkW σ) (env : σ) :
    received (turns ++ [(q, i, env)]) = received turns ++ q.bytes := by
  simp [received]

namespace Call

variable (k : Call σ)

/-- What the transport asks the sink in an attempt. -/
def asked (rq : HttpRequest) (s : LoopState k.c) : Turns σ :=
  (k.c.transport.perform rq true k.cancel (k.handed rq s.world).env).turns
    (attemptSink k.Y k.H k.cbs k.stream)
    { io := attemptIoInit k.c (k.cleared s) k.stream k.req.accumulates
      log := (k.handed rq s.world).log }

/-- What the sink answers. -/
def answer (t : SinkCall × SinkW σ × σ) : Int :=
  (attemptSink k.Y k.H k.cbs k.stream t.1 t.2.1 t.2.2).1

/-- The attempt once it is settled. -/
def settled (rq : HttpRequest) (s : LoopState k.c) : Settled σ :=
  let x := k.exchanged rq s
  settle k.Y k.H k.cbs k.stream ⟨untangle k.stream x.io x.ts, x.io, x.world⟩

/-! ## The events of an attempt -/

/-- The event callback, watched. -/
def onEvent : OnEvent (StreamW σ × List (Handled σ)) :=
  (streamOnEvent k.Y k.H k.cbs).watched

/-- The events the sink handles for one question. -/
def handledIn (t : SinkCall × SinkW σ × σ) : List (Handled σ) :=
  (sseFeed (streamHeap k.H).besideWatch (some k.onEvent) t.2.1.io.sse t.1.bytes
    (t.2.1.streamW t.2.2, [])).2.2.2

/-- The events the sink handles in a conversation. -/
def handled (turns : Turns σ) : List (Handled σ) :=
  turns.flatMap k.handledIn

/-- The events of the flush, were a stream to end here. -/
def flushed (p : Sse) (s : StreamW σ) : List (Handled σ) :=
  (sseFinish (streamHeap k.H).besideWatch (some k.onEvent) p (s, [])).2.2.2

/-! ## The rule -/

/-- What is followed along a stream: {lit}`P` of the events taken, {lit}`Q` of the one at
which the stream stops.  Neither sees the environment. -/
structure StreamRule (P : List (Handled σ) → StreamW σ → Prop)
    (Q : List (Handled σ) → Handled σ → Int → StreamW σ → Prop) : Prop where
  take : ∀ payload past s, P past s → (streamOnEvent k.Y k.H k.cbs payload s).1 = 0 →
    P (past ++ [(payload, s)]) (streamOnEvent k.Y k.H k.cbs payload s).2
  stop : ∀ payload past s, P past s → (streamOnEvent k.Y k.H k.cbs payload s).1 ≠ 0 →
    Q past (payload, s) (streamOnEvent k.Y k.H k.cbs payload s).1
      (streamOnEvent k.Y k.H k.cbs payload s).2
  move : ∀ past s v, P past s → P past (s.setEnv v)
  moved : ∀ past e rc s v, Q past e rc s → Q past e rc (s.setEnv v)

variable {k} {P : List (Handled σ) → StreamW σ → Prop}
  {Q : List (Handled σ) → Handled σ → Int → StreamW σ → Prop}

/-- How a call into the parser ends, after the events {lit}`past`: it has taken the events
{lit}`l`, or stopped at a further one, or a buffer failed, which takes something {lit}`Full` where
the allocator does not fail. -/
inductive Heeded (k : Call σ) (P : List (Handled σ) → StreamW σ → Prop)
    (Q : List (Handled σ) → Handled σ → Int → StreamW σ → Prop) (past : List (Handled σ))
    (Next : List Bytes → Sse → Prop) (Stop Full : List Bytes → Prop) :
    Int × Sse × (StreamW σ × List (Handled σ)) → Prop
  | going {p : Sse} {s : StreamW σ} {l : List (Handled σ)}
      (hnext : Next ((past ++ l).map Prod.fst) p) (hP : P (past ++ l) s) :
      Heeded k P Q past Next Stop Full (0, p, (s, l))
  | stopped {rc : Int} {p : Sse} {s : StreamW σ} {l : List (Handled σ)} {e : Handled σ}
      (hrc : rc ≠ 0) (hstop : Stop ((past ++ (l ++ [e])).map Prod.fst)) (hsound : p.Sound)
      (hQ : Q (past ++ l) e rc s) : Heeded k P Q past Next Stop Full (rc, p, (s, l ++ [e]))
  | failed {p : Sse} {s : StreamW σ} {l : List (Handled σ)} (herr : p.err ≠ .ok)
      (hP : P (past ++ l) s) (hfull : k.H.Reliable → Full ((past ++ l).map Prod.fst)) :
      Heeded k P Q past Next Stop Full (-1, p, (s, l))

/-- The watched callback is followed. -/
theorem StreamRule.follows (rule : k.StreamRule P Q) (past : List (Handled σ)) :
    k.onEvent.Follows (streamHeap k.H).besideWatch
      (fun evs t => evs = (past ++ t.2).map Prod.fst ∧ P (past ++ t.2) t.1)
      (fun evs payload rc t => ∃ l e, t.2 = l ++ [e] ∧
        evs ++ [payload] = (past ++ (l ++ [e])).map Prod.fst ∧ Q (past ++ l) e rc t.1) where
  alloc := by
    rintro n evs ⟨s, l⟩ ⟨hevs, hP⟩
    exact ⟨hevs, rule.move _ s _ hP⟩
  take := by
    rintro payload evs ⟨s, l⟩ ⟨rfl, hP⟩ hzero
    have hnext := rule.take payload (past ++ l) s hP hzero
    rw [List.append_assoc] at hnext
    exact ⟨by simp [onEvent, OnEvent.watched], hnext⟩
  stop := by
    rintro payload evs ⟨s, l⟩ ⟨rfl, hP⟩ hne
    exact ⟨l, (payload, s), rfl, by simp, rule.stop payload (past ++ l) s hP hne⟩

/-- A parser that is followed hands its events to a stream that heeds them. -/
theorem heeded_of_followed {past : List (Handled σ)} {Next : List Bytes → Sse → Prop}
    {Stop Full : List Bytes → Prop} {r : Int × Sse × (StreamW σ × List (Handled σ))}
    (h : Followed (streamHeap k.H).besideWatch
      (fun evs t => evs = (past ++ t.2).map Prod.fst ∧ P (past ++ t.2) t.1)
      (fun evs payload rc t => ∃ l e, t.2 = l ++ [e] ∧
        evs ++ [payload] = (past ++ (l ++ [e])).map Prod.fst ∧ Q (past ++ l) e rc t.1)
      Next (fun evs payload => Stop (evs ++ [payload])) Full r) :
    Heeded k P Q past Next Stop Full r := by
  cases h with
  | @going p t evs hnext hP =>
      obtain ⟨rfl, hP⟩ := hP
      exact .going hnext hP
  | @stopped rc p t evs payload hrc hstop hsound hQ =>
      obtain ⟨s, l'⟩ := t
      obtain ⟨l, e, hl, hevs, hQ⟩ := hQ
      dsimp only at hl
      subst hl
      rw [hevs] at hstop
      exact .stopped hrc hstop hsound hQ
  | @failed p t evs herr hP hfull =>
      obtain ⟨rfl, hP⟩ := hP
      exact .failed herr hP fun hH => hfull ((hH.lift _ _).lift _ _)

/-- A chunk. -/
theorem feed_heeded (rule : k.StreamRule P Q) {past : List (Handled σ)} {cap : Nat} {p : Sse}
    {bytes : Bytes} (hreading : Reading cap p bytes (past.map Prod.fst)) (more : Bytes)
    {s : StreamW σ} (hs : P past s) :
    Heeded k P Q past (fun evs p' => Reading cap p' (bytes ++ more) evs)
      (fun evs => ∀ rest, evs <+: sseBatch (bytes ++ more ++ rest))
      (fun evs => Overflows cap evs (streamLines (bytes ++ more)))
      (sseFeed (streamHeap k.H).besideWatch (some k.onEvent) p more (s, [])) := by
  have hfeed := sseFeed_follows (rule.follows past) more hreading (s := (s, []))
    ⟨by rw [List.append_nil], by rw [List.append_nil]; exact hs⟩
  refine heeded_of_followed (hfeed.weaken (fun _ _ h => h) (fun _ _ h => h) fun evs h => ?_)
  have hall := h []
  rwa [List.append_nil] at hall

/-- The end of input. -/
theorem finish_heeded (rule : k.StreamRule P Q) {past : List (Handled σ)} {cap : Nat} {p : Sse}
    {bytes : Bytes} (hreading : Reading cap p bytes (past.map Prod.fst)) {s : StreamW σ}
    (hs : P past s) :
    Heeded k P Q past (fun evs p' => evs = sseBatch bytes ∧ (p'.Sound ∨ evs = []))
      (fun evs => evs <+: sseBatch bytes) (fun evs => Overflows cap evs (streamLines bytes))
      (sseFinish (streamHeap k.H).besideWatch (some k.onEvent) p (s, [])) :=
  heeded_of_followed (sseFinish_follows (rule.follows past) hreading
    ⟨by rw [List.append_nil], by rw [List.append_nil]; exact hs⟩)

/-- The sink has answered zero so far: the parser has read everything received. -/
structure Streaming (k : Call σ) (P : List (Handled σ) → StreamW σ → Prop) (turns : Turns σ)
    (i : SinkW σ) : Prop where
  answers : ∀ t ∈ turns, k.answer t = 0
  reading : Reading k.c.maxEventBytes i.io.sse (received turns) ((k.handled turns).map Prod.fst)
  holds : ∀ env, P (k.handled turns) (i.streamW env)

/-- The sink has stopped the transport: at an event, or because a buffer failed. -/
inductive Halting (k : Call σ) (P : List (Handled σ) → StreamW σ → Prop)
    (Q : List (Handled σ) → Handled σ → Int → StreamW σ → Prop) (turns : Turns σ)
    (i : SinkW σ) : Prop
  | stopped (past : List (Handled σ)) (e : Handled σ) (hhandled : k.handled turns = past ++ [e])
      (hrc : i.io.sseRc ≠ 0)
      (hstop : ∀ rest, (k.handled turns).map Prod.fst <+: sseBatch (received turns ++ rest))
      (hsound : i.io.sse.Sound) (hQ : ∀ env, Q past e i.io.sseRc (i.streamW env))
  | failed (hrc : i.io.sseRc = -1) (herr : i.io.sse.err ≠ .ok)
      (hP : ∀ env, P (k.handled turns) (i.streamW env))
      (hfull : k.H.Reliable → Overflows k.c.maxEventBytes ((k.handled turns).map Prod.fst)
        (streamLines (received turns)))

/-- To note headers does not touch the parser. -/
theorem noteRetryAfter_sse (io : AttemptIo) (headers : List HeaderRef) :
    (headers.foldl noteRetryAfter io).sse = io.sse := by
  obtain ⟨_, _, hnoted⟩ := foldl_noteRetryAfter io headers
  rw [hnoted]

/-- A status brings no event. -/
theorem handledIn_status (httpStatus : Int) (headers : List HeaderRef) (i : SinkW σ) (env : σ)
    (h : i.io.sse.err = .ok) : k.handledIn (.status httpStatus headers, i, env) = [] := by
  simp [handledIn, SinkCall.bytes, sseFeed, h, sseBom, sseChars]

/-- One question. -/
theorem sink_follows (hstream : k.stream = true) (rule : k.StreamRule P Q) (turns : Turns σ)
    (q : SinkCall) (i : SinkW σ) (env : σ) (h : Streaming k P turns i) :
    let out := attemptSink k.Y k.H k.cbs k.stream q i env
    (out.1 = 0 → Streaming k P (turns ++ [(q, i, env)]) out.2.1) ∧
      (out.1 ≠ 0 → Halting k P Q (turns ++ [(q, i, env)]) out.2.1) := by
  intro out
  have hanswers : out.1 = 0 → ∀ t ∈ turns ++ [(q, i, env)], k.answer t = 0 := by
    intro hzero t ht
    rcases List.mem_append.mp ht with ht | ht
    · exact h.answers t ht
    · rw [List.mem_singleton.mp ht]
      exact hzero
  have hhandled : ∀ l, k.handledIn (q, i, env) = l →
      k.handled (turns ++ [(q, i, env)]) = k.handled turns ++ l := by
    rintro _ rfl
    simp [handled]
  cases q with
  | status httpStatus headers =>
      have hsame := noteRetryAfter_same { i.io with httpStatus := httpStatus } headers
      have hsse := noteRetryAfter_sse { i.io with httpStatus := httpStatus } headers
      have hnone := hhandled [] (handledIn_status _ _ i env h.reading.sound.err)
      rw [List.append_nil] at hnone
      refine ⟨fun hzero => ⟨hanswers hzero, ?_, ?_⟩, fun hne => absurd rfl hne⟩
      · rw [hnone, received_snoc, SinkCall.bytes, List.append_nil]
        simpa only [out, attemptSink, attemptOnStatus, hsse] using h.reading
      · rw [hnone]
        simpa only [out, attemptSink, attemptOnStatus, SinkW.streamW, hsame.1, hsame.2]
          using h.holds
  | body bytes =>
      have hfeed := feed_heeded rule h.reading bytes (h.holds env)
      have hplain := sseFeed_watched (streamHeap k.H) (streamOnEvent k.Y k.H k.cbs) i.io.sse bytes
        (i.streamW env) []
      have hout : out = attemptOnBodyStream k.Y k.H k.cbs bytes i env := by
        simp only [out, attemptSink, hstream, if_true]
      have hmore : received (turns ++ [(SinkCall.body bytes, i, env)]) = received turns ++ bytes :=
        received_snoc turns _ i env
      unfold attemptOnBodyStream at hout
      rw [← hplain] at hout
      unfold handledIn at hhandled
      change Heeded k P Q _ _ _ _ (sseFeed (streamHeap k.H).besideWatch
        (some (streamOnEvent k.Y k.H k.cbs).watched) i.io.sse bytes (i.streamW env, [])) at hfeed
      change ∀ l, (sseFeed (streamHeap k.H).besideWatch
        (some (streamOnEvent k.Y k.H k.cbs).watched) i.io.sse bytes (i.streamW env, [])).2.2.2 = l →
        _ at hhandled
      generalize sseFeed (streamHeap k.H).besideWatch
        (some (streamOnEvent k.Y k.H k.cbs).watched) i.io.sse bytes (i.streamW env, []) = r
        at hfeed hout hhandled
      cases hfeed with
      | @going p t l hnext hP =>
          have hnow := hhandled l rfl
          rw [unwatched, if_neg (by simp)] at hout
          rw [hout]
          refine ⟨fun _ => ⟨hanswers (by rw [hout]), ?_, fun v => ?_⟩, fun hne => absurd rfl hne⟩
          · rw [hmore, hnow]
            exact hnext
          · rw [hnow]
            exact rule.move _ t v hP
      | @stopped rc p t l e hrc hstop hsound hQ =>
          have hnow := hhandled (l ++ [e]) rfl
          rw [unwatched, if_pos hrc] at hout
          rw [hout]
          refine ⟨fun hone => absurd (show (1 : Int) = 0 from hone) (by decide), fun _ => ?_⟩
          refine .stopped (k.handled turns ++ l) e (by rw [hnow, List.append_assoc]) hrc ?_ hsound
            fun v => rule.moved _ e rc t v hQ
          rw [hmore, hnow]
          exact hstop
      | @failed p t l herr hP hfull =>
          have hnow := hhandled l rfl
          rw [unwatched, if_pos (by simp)] at hout
          rw [hout]
          refine ⟨fun hone => absurd (show (1 : Int) = 0 from hone) (by decide), fun _ => ?_⟩
          refine .failed rfl herr (fun v => ?_) fun hH => ?_
          · rw [hnow]
            exact rule.move _ t v hP
          · rw [hmore, hnow]
            exact hfull hH

/-- Rule for an exchange: the transport has ended by itself and everything received is read,
or the sink has stopped it. -/
theorem exchange_follows (hstream : k.stream = true) (hc : Obedient k.c k.cancel)
    (rule : k.StreamRule P Q) (rq : HttpRequest) (s : LoopState k.c)
    (h : P [] ⟨k.freshCtx, k.cleared s, k.handed rq s.world⟩) :
    let x := k.exchanged rq s
    Streaming k P (k.asked rq s) ⟨x.io, x.world.log⟩ ∨
      (x.ts = .abortedBySink ∧ Halting k P Q (k.asked rq s) ⟨x.io, x.world.log⟩) := by
  intro x
  have hstart : Streaming k P []
      { io := attemptIoInit k.c (k.cleared s) k.stream k.req.accumulates
        log := (k.handed rq s.world).log } := by
    refine ⟨by simp, ?_, fun env => ?_⟩
    · simp only [attemptIoInit, hstream, if_true]
      exact .init k.c.maxEventBytes
    · exact rule.move [] ⟨k.freshCtx, k.cleared s, k.handed rq s.world⟩ env h
  refine @Dialogue.run_stopping_turns _ _ _ _ _ (attemptSink k.Y k.H k.cbs k.stream) (· ≠ 0)
    TransportStatus.abortedBySink (Streaming k P) (Halting k P Q) ?_ ?_ _ (hc rq _) [] _ hstart
  · intro past q i env hi hgo
    exact (sink_follows hstream rule past q i env hi).1 (not_not.mp hgo)
  · intro past q i env hi hstop
    exact (sink_follows hstream rule past q i env hi).2 hstop

/-! ## A stream that the sink stopped -/

/-- A body that the sink has refused is not complete. -/
theorem untangle_refused (io : AttemptIo) (httpStatus : Int) :
    (untangle false io .abortedBySink).complete httpStatus = false := by
  simp only [untangle, if_true, Bool.false_eq_true, if_false, overflowVerdict]
  split_ifs <;> simp [Verdict.complete]

/-- Only at {lit}`[DONE]` is a stopped stream complete. -/
theorem untangle_open {io : AttemptIo} (h : io.ctx.done = false) :
    (untangle true io .abortedBySink).complete io.httpStatus = false := by
  simp only [untangle, if_true, h, Bool.false_eq_true, if_false]
  split_ifs
  · rfl
  · unfold overflowVerdict
    split_ifs <;> simp [Verdict.complete]

/-- What is left of a stopped stream is what the sink left. -/
theorem settle_aborted (io : AttemptIo) (w : World σ) :
    let t := settle k.Y k.H k.cbs true ⟨untangle true io .abortedBySink, io, w⟩
    t.io = io ∧ t.world = w ∧ (io.ctx.done = true → t.v = ⟨.ok, .ok, .ok⟩) := by
  intro t
  by_cases hdone : io.ctx.done = true
  · have hv : untangle true io .abortedBySink = ⟨.ok, .ok, .ok⟩ := by simp [untangle, hdone]
    have hflush : ∀ v, flushStream k.Y k.H k.cbs ⟨v, io, w⟩ = ⟨v, io, w⟩ := by
      intro v
      simp [flushStream, hdone]
    simp only [t, settle, if_true, hflush, checkStream, hv, hdone, Bool.true_eq_false, false_and,
      and_false, if_false, ite_self, true_and]
    exact fun _ => trivial
  · have hopen : io.ctx.done = false := by simpa using hdone
    have ht : t = ⟨untangle true io .abortedBySink, io, w⟩ := by
      simp only [t, settle, untangle_open hopen, Bool.false_eq_true, if_false]
    rw [ht]
    exact ⟨rfl, rfl, fun htrue => absurd htrue hdone⟩

/-- The check of a stream only looks. -/
theorem checkStream_same (s : Settled σ) :
    (checkStream s).io = s.io ∧ (checkStream s).world = s.world := by
  unfold checkStream
  split_ifs <;> exact ⟨rfl, rfl⟩

end Call

end Sicha
