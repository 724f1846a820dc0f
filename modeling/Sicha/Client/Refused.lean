import Sicha.Client.Run
import Sicha.Lib.Split

/-!
# A data callback that refuses

A nonzero answer of a data callback travels from the assembler through the parser, the
sink and the transport back into the engine, which has to tell it from the other reasons
to stop: {lit}`[DONE]`, a size cap, and a failed allocation.

Main results:

- Theorem {lit}`roundTrip_refused`: a refusal is the last callback of its round trip, which
  ends cancelled.
- Theorem {lit}`chatStream_refused`: a refusal is the end of the call.
-/

namespace Sicha

/-! ## Refusals -/

/-- A data callback that answered nonzero. -/
def Act.refuses : Act → Bool
  | .onDelta _ rc | .onReasoning _ rc | .onRawChunk _ rc => rc != 0
  | _ => false

/-- Nobody refused. -/
def Willing (acts : List Act) : Prop :=
  ∀ a ∈ acts, a.refuses = false

/-- The last action is a refusal, and the only one. -/
def Refusing (acts : List Act) : Prop :=
  ∃ front d, acts = front ++ [d] ∧ Willing front ∧ d.refuses = true

/-- Two parts in which nothing is refused. -/
theorem Willing.append {as bs : List Act} (ha : Willing as) (hb : Willing bs) :
    Willing (as ++ bs) := by
  intro a h
  rcases List.mem_append.mp h with h | h
  · exact ha a h
  · exact hb a h

/-- So far an attempt that began with the log {lit}`base` goes on: nobody refused, and the
stream is not done. -/
def Calm (base : List Act) (done : Bool) (acts : List Act) : Prop :=
  (∃ new, acts = base ++ new ∧ Willing new) ∧ done = false

/-- The event callback stopped the parser: with {lit}`SICHA_STREAM_CANCEL` exactly for a
refusal. -/
def Halted (base : List Act) (rc : Int) (done : Bool) (acts : List Act) : Prop :=
  ∃ new, acts = base ++ new ∧
    if rc = streamCancel then Refusing new ∧ done = false else Willing new

/-- Neither a data callback nor a validation nor a chat attempt. -/
structure Act.Quiet (y : Act) : Prop where
  data : y.isData = false
  validate : y.isValidate = false
  attempt : y.isAttempt = false

/-- What is quiet refuses nothing. -/
theorem Act.Quiet.refuses {y : Act} (h : y.Quiet) : y.refuses = false := by
  have hdata := h.data
  cases y <;> first | rfl | cases hdata

/-- In what is quiet nothing is refused. -/
theorem willing_of_quiet {acts : List Act} (h : ∀ y ∈ acts, y.Quiet) : Willing acts :=
  fun y hy => (h y hy).refuses

/-- Data is no attempt. -/
theorem data_no_attempt {acts : List Act} (h : ∀ a ∈ acts, a.isData = true) :
    acts.countP Act.isAttempt = 0 := by
  rw [List.countP_eq_zero]
  intro a ha
  have hdata := h a ha
  cases a <;> first | exact Bool.false_ne_true | cases hdata

/-- What follows a refusal: no data callback, no validation and no chat attempt, and the
record of its attempt is the last, of class {lit}`CANCELLED`. -/
structure EndsCall (front back : List Act) (status : Option Status) (records : List Attempt) :
    Prop where
  quiet : ∀ y ∈ back, y.Quiet
  record : ∃ earlier a, records = earlier ++ [a] ∧
    earlier.length + 1 = front.countP Act.isAttempt ∧ a.errorClass = .cancelled
  status : status = some .cancelled

/-- Every refusal ends the call. -/
def RefusalsEnd (acts : List Act) (status : Option Status) (records : List Attempt) : Prop :=
  ∀ front d back, acts = front ++ d :: back → d.refuses = true →
    EndsCall front back status records

/-- Where nothing is refused nothing has to end. -/
theorem Willing.ends {acts : List Act} (h : Willing acts) (status : Option Status)
    (records : List Attempt) : RefusalsEnd acts status records := by
  intro front d back hacts hd
  have hno := h d (by rw [hacts]; simp)
  rw [hd] at hno
  cases hno

section Runs

variable [SizeT] {σ : Type}

/-! ## One event -/

/-- A data callback either goes on or refuses. -/
theorem callData_refused {base : List Act} {cb : Option (DataCallback σ)}
    {mk : Bytes → Int → Act} (hmk : ∀ bytes rc, (mk bytes rc).refuses = (rc != 0)) (data : Bytes)
    {s : StreamW σ} (h : Calm base s.ctx.done s.world.acts) :
    Answers (fun s => Calm base s.ctx.done s.world.acts)
      (fun rc s => Halted base rc s.ctx.done s.world.acts) (callData cb mk data s) := by
  obtain ⟨⟨new, hacts, hwilling⟩, hopen⟩ := h
  cases cb with
  | none => exact .zero ⟨⟨new, hacts, hwilling⟩, hopen⟩
  | some f =>
      have hlog : (s.world.act (f data) (mk data)).2.acts =
          base ++ (new ++ [mk data (f data s.world.env).1]) := by
        rw [World.act_acts, hacts, List.append_assoc]
        rfl
      unfold callData
      dsimp only
      split_ifs with hrc
      · refine .nonzero (by decide) ⟨_, hlog, ?_⟩
        rw [if_pos rfl]
        refine ⟨⟨new, _, rfl, hwilling, ?_⟩, hopen⟩
        rw [hmk]
        exact bne_iff_ne.mpr hrc
      · refine .zero ⟨⟨_, hlog, hwilling.append ?_⟩, hopen⟩
        intro a ha
        rw [List.mem_singleton.mp ha, hmk]
        exact bne_eq_false_iff_eq.mpr (not_not.mp hrc)

/-- Every step of an event goes on calmly, or halts at a refusal. -/
theorem refused_event (H : Heap σ) (cbs : Option (Callbacks σ)) (base : List Act) :
    EventRule H cbs (fun s => Calm base s.ctx.done s.world.acts)
      (fun rc s => Halted base rc s.ctx.done s.world.acts) where
  alloc _ _ h := h
  books _ _ _ h := h
  lift _ _ h _ := h
  refuse _ _ _ h _ := h
  give s ch bytes r h _ _ := by
    unfold deliverCall
    split_ifs
    · refine callData_refused ?_ bytes h
      intro bytes rc
      cases ch <;> rfl
    · exact .zero h
  raw s data h := callData_refused (fun _ _ => rfl) data h
  fail s err h := by
    obtain ⟨⟨new, hacts, hwilling⟩, -⟩ := h
    exact ⟨new, hacts, hwilling⟩
  stop s h := by
    obtain ⟨⟨new, hacts, hwilling⟩, -⟩ := h
    exact ⟨new, hacts, hwilling⟩

/-- A parser that consumed everything or failed leaves a calm attempt calm. -/
theorem SseOutcome.willing {base : List Act} {r : Int × Sse × StreamW σ}
    (h : SseOutcome (fun s => Calm base s.ctx.done s.world.acts)
      (fun rc s => Halted base rc s.ctx.done s.world.acts) r) :
    (r.1 = 0 ∧ Calm base r.2.2.ctx.done r.2.2.world.acts) ∨
      (r.1 ≠ 0 ∧ Halted base r.1 r.2.2.ctx.done r.2.2.world.acts) := by
  rcases h with h | h | ⟨hrc, -, ⟨new, hacts, hwilling⟩, -⟩
  · exact .inl h
  · exact .inr h
  · refine .inr ⟨by rw [hrc]; decide, new, hacts, ?_⟩
    rw [hrc]
    exact hwilling

/-! ## One round trip -/

/-- How a round trip ends as far as refusals go. -/
def RefusedEnd (base : List Act) (v : Verdict) (acts : List Act) : Prop :=
  ∃ new, acts = base ++ new ∧
    (Willing new ∨ (Refusing new ∧ v.ts = .cancelled ∧ v.terminal = .ok))

/-- A stream that halted is taken for what it is. -/
theorem Halted.untangled {base : List Act} {io : AttemptIo} {acts : List Act}
    (h : Halted base io.sseRc io.ctx.done acts) :
    RefusedEnd base (untangle true io .abortedBySink) acts := by
  obtain ⟨new, hacts, hnew⟩ := h
  refine ⟨new, hacts, ?_⟩
  split_ifs at hnew with hrc
  · refine .inr ⟨hnew.1, ?_⟩
    simp [untangle, hnew.2, hrc]
  · exact .inl hnew

namespace Call

variable {k : Call σ}

/-- The sink of a streaming attempt goes on, or it stops the transport. -/
theorem sink_refused (hstream : k.stream = true) (base : List Act) (q : SinkCall) (i : SinkW σ)
    (env : σ) (h : Calm base i.io.ctx.done (i.log.map Entry.act)) :
    let out := attemptSink k.Y k.H k.cbs k.stream q i env
    (out.1 = 0 → Calm base out.2.1.io.ctx.done (out.2.1.log.map Entry.act)) ∧
      (out.1 ≠ 0 →
        Halted base out.2.1.io.sseRc out.2.1.io.ctx.done (out.2.1.log.map Entry.act)) := by
  intro out
  cases q with
  | status httpStatus headers =>
      have hsame := (noteRetryAfter_same { i.io with httpStatus := httpStatus } headers).1
      refine ⟨fun _ => ?_, fun hne => absurd rfl hne⟩
      simp only [out, attemptSink, attemptOnStatus, hsame]
      exact h
  | body bytes =>
      have hfeed := (feed_outcome (refused_event k.H k.cbs base) k.Y i.io.sse bytes
        (s := i.streamW env) h).willing
      simp only [out, attemptSink, hstream, if_true, attemptOnBodyStream]
      split_ifs with hrc
      · rcases hfeed with ⟨hzero, -⟩ | ⟨-, hhalted⟩
        · exact absurd hzero hrc
        · exact ⟨fun hone => absurd (show (1 : Int) = 0 from hone) (by decide), fun _ => hhalted⟩
      · rcases hfeed with ⟨-, hcalm⟩ | ⟨hne, -⟩
        · exact ⟨fun _ => hcalm, fun hne => absurd rfl hne⟩
        · exact absurd hne hrc

/-- The exchange ends calm, or the sink has stopped it. -/
theorem exchange_refused (hstream : k.stream = true) (hc : Obedient k.c k.cancel)
    (rq : HttpRequest) (io : AttemptIo) (w : World σ) (hio : io.ctx.done = false) :
    let x := exchange k.Y k.H k.c k.cbs k.cancel rq k.stream io w
    Calm (k.handed rq w).acts x.io.ctx.done x.world.acts ∨
      (x.ts = .abortedBySink ∧
        Halted (k.handed rq w).acts x.io.sseRc x.io.ctx.done x.world.acts) := by
  intro x
  refine @Dialogue.run_stopping _ _ _ _ _ (attemptSink k.Y k.H k.cbs k.stream) (· ≠ 0)
    TransportStatus.abortedBySink
    (fun i => Calm (k.handed rq w).acts i.io.ctx.done (i.log.map Entry.act))
    (fun i => Halted (k.handed rq w).acts i.io.sseRc i.io.ctx.done (i.log.map Entry.act))
    ?_ ?_ _ (hc rq _) ⟨io, (k.handed rq w).log⟩ ?_
  · intro q i s hi hgo
    exact (sink_refused hstream _ q i s hi).1 (not_not.mp hgo)
  · intro q i s hi hstop
    exact (sink_refused hstream _ q i s hi).2 hstop
  · exact ⟨⟨[], (List.append_nil _).symm, by simp [Willing]⟩, hio⟩

/-- The flush keeps the account. -/
theorem flushStream_refused {base : List Act} (s : Settled σ)
    (h : Calm base s.io.ctx.done s.world.acts) (hok : s.v.terminal = .ok) :
    let t := flushStream k.Y k.H k.cbs s
    RefusedEnd base t.v t.world.acts := by
  intro t
  have hfinish := (finish_outcome (refused_event k.H k.cbs base) k.Y s.io.sse
    (s := ⟨s.io.ctx, s.io.r, s.world⟩) h).willing
  simp only [t, flushStream, h.2, Bool.false_eq_true, if_false]
  rcases hfinish with ⟨-, ⟨new, hacts, hwilling⟩, -⟩ | ⟨-, new, hacts, hnew⟩
  · exact ⟨new, hacts, .inl hwilling⟩
  · refine ⟨new, hacts, ?_⟩
    split_ifs at hnew ⊢ with hrc
    · exact .inr ⟨hnew.1, rfl, hok⟩
    all_goals exact .inl hnew

/-- The check of a stream keeps a refusal. -/
theorem checkStream_refused {base : List Act} {s : Settled σ}
    (h : RefusedEnd base s.v s.world.acts) :
    RefusedEnd base (checkStream s).v (checkStream s).world.acts := by
  unfold checkStream
  split <;> exact h

/-- An exchange that the sink stopped makes no more callbacks: it is complete only if the
stream is done. -/
theorem settle_stopped {io : AttemptIo} {w : World σ} {base : List Act}
    (h : Halted base io.sseRc io.ctx.done w.acts) :
    let t := settle k.Y k.H k.cbs true ⟨untangle true io .abortedBySink, io, w⟩
    RefusedEnd base t.v t.world.acts := by
  intro t
  have hv := h.untangled
  simp only [t, settle, if_true]
  split_ifs with hcomplete
  · have hdone : io.ctx.done = true := by
      by_contra hopen
      have hopen : io.ctx.done = false := by simpa using hopen
      simp only [untangle, if_true, hopen, Bool.false_eq_true, if_false] at hcomplete
      split_ifs at hcomplete
      · simp [Verdict.complete] at hcomplete
      · unfold overflowVerdict at hcomplete
        split_ifs at hcomplete <;> simp [Verdict.complete] at hcomplete
    refine checkStream_refused ?_
    simp only [flushStream, hdone, if_true]
    exact hv
  · exact hv

/-- An exchange that nobody stopped may still be refused in the flush. -/
theorem settle_calm {v : Verdict} {io : AttemptIo} {w : World σ} {base : List Act}
    (h : Calm base io.ctx.done w.acts) :
    let t := settle k.Y k.H k.cbs true ⟨v, io, w⟩
    RefusedEnd base t.v t.world.acts := by
  intro t
  simp only [t, settle, if_true]
  split_ifs with hcomplete
  · refine checkStream_refused (flushStream_refused _ h ?_)
    simp only [Verdict.complete, Bool.and_eq_true, beq_iff_eq] at hcomplete
    exact hcomplete.1.1.1
  · obtain ⟨⟨new, hacts, hwilling⟩, -⟩ := h
    exact ⟨new, hacts, .inl hwilling⟩

/-- A refusal is the last callback of its round trip, which ends cancelled. -/
theorem roundTrip_refused (hstream : k.stream = true) (hc : Obedient k.c k.cancel)
    (rq : HttpRequest) (s : LoopState k.c) :
    Willing (k.given rq s) ∨ (Refusing (k.given rq s) ∧
      (k.roundTrip rq s).o.v.ts = .cancelled ∧ (k.roundTrip rq s).o.v.terminal = .ok) := by
  have hfresh : (attemptIoInit k.c (k.cleared s) k.stream k.req.accumulates).ctx.done = false := by
    simp [attemptIoInit, hstream, streamCtxInit]
  have hend : RefusedEnd (k.handed rq s.world).acts (k.roundTrip rq s).o.v
      (k.roundTrip rq s).world.acts := by
    have hexchange := exchange_refused hstream hc rq _ s.world hfresh
    unfold roundTrip runAttempt
    dsimp only [outcomeOf]
    rw [hstream] at hexchange ⊢
    rcases hexchange with hcalm | ⟨hts, hhalted⟩
    · exact settle_calm hcalm
    · rw [hts]
      exact settle_stopped hhalted
  obtain ⟨new, hacts, hnew⟩ := hend
  have hgiven : k.given rq s = new := by
    unfold given
    rw [hacts, List.drop_left]
  rw [hgiven]
  exact hnew

/-! ## The run -/

/-- A call that goes on: nobody refused, and every chat attempt has its record. -/
structure Unrefused (k : Call σ) (s : LoopState k.c) : Prop where
  willing : Willing s.world.trace
  count : s.r.attempts.length = s.world.trace.countP Act.isAttempt
  final : s.final = .exhausted

/-- A validation refuses no data. -/
theorem checked_willing (k : Call σ) (x : Ran σ) : Willing (k.checked x) := by
  unfold checked
  split <;> simp [Willing, Act.refuses]

/-- An announcement refuses nothing. -/
theorem told_quiet (k : Call σ) (a : Attempt) : ∀ y ∈ k.told a, y.Quiet := by
  unfold told
  split_ifs
  · simpa using ⟨rfl, rfl, rfl⟩
  · simp

omit [SizeT] in
/-- An abort assist refuses nothing. -/
theorem assisted_quiet (b : Backend) : ∀ y ∈ assisted b, y.Quiet := by
  unfold assisted
  split
  · simp
  · simpa using ⟨rfl, rfl, rfl⟩

/-- Behind a willing attempt nobody has refused yet, and the record is there. -/
theorem Took.unrefused {s s1 s2 : LoopState k.c} {rq : HttpRequest} (h : k.Took s rq s1 s2)
    (hs : k.Unrefused s) (hgiven : Willing (k.given rq s1)) :
    Willing s2.world.trace ∧
      s2.r.attempts.length = s2.world.trace.countP Act.isAttempt := by
  have hhanding : Willing [k.handing rq] := by simp [Willing, handing, Act.refuses]
  rw [h.trace, h.attempts]
  constructor
  · exact hs.willing.append (hhanding.append
      ((hgiven.append (k.checked_willing _)).append (willing_of_quiet (k.told_quiet _))))
  · have hdata := data_no_attempt (k.roundTrip_given rq s1).data
    have hchecked : (k.checked (k.roundTrip rq s1)).countP Act.isAttempt = 0 := by
      unfold checked
      split <;> rfl
    have htold : (k.told (k.entry rq s1)).countP Act.isAttempt = 0 := by
      unfold told
      split_ifs <;> rfl
    simp only [List.countP_append, List.countP_cons, List.length_append, List.length_singleton,
      hdata, hchecked, htold, hs.count]
    rfl

/-- A refused attempt is judged cancelled, whatever the policy says. -/
theorem judged_refused {rq : HttpRequest} {s : LoopState k.c}
    (hts : (k.roundTrip rq s).o.v.ts = .cancelled)
    (hterminal : (k.roundTrip rq s).o.v.terminal = .ok) :
    (k.judged s rq).cls = .cancelled ∧ k.checked (k.roundTrip rq s) = [] := by
  have hfirst : k.firstClass (k.roundTrip rq s) = .cancelled := by
    rw [firstClass, if_neg (not_not.mpr hterminal),
      classify_cancelled_iff k.c.policy_valid]
    exact .inl hts
  have hjudged := k.judge_judgement (k.roundTrip rq s)
  rw [hfirst] at hjudged
  change (k.judge (k.roundTrip rq s)).cls = .cancelled ∧ _
  generalize (k.judge (k.roundTrip rq s)).cls = cls at hjudged
  generalize k.checked (k.roundTrip rq s) = acts at hjudged
  cases hjudged with
  | classified => exact ⟨rfl, rfl⟩

/-- What a refusal in the last attempt does to the whole call, when only quiet actions
follow its record. -/
theorem Took.refused {s s1 s2 : LoopState k.c} {rq : HttpRequest} (h : k.Took s rq s1 s2)
    (hs : k.Unrefused s) (hgiven : Refusing (k.given rq s1))
    (hcls : (k.judged s1 rq).cls = .cancelled) (hchecked : k.checked (k.roundTrip rq s1) = [])
    {more : List Act} (hmore : ∀ y ∈ more, y.Quiet) :
    RefusalsEnd (s2.world.trace ++ more) (some .cancelled) s2.r.attempts := by
  obtain ⟨front, d, hfront, hwilling, hd⟩ := hgiven
  have hback : ∀ y ∈ k.told (k.entry rq s1) ++ more, y.Quiet := by
    intro y hy
    rcases List.mem_append.mp hy with hy | hy
    · exact k.told_quiet _ y hy
    · exact hmore y hy
  have hpre : Willing (s.world.trace ++ k.handing rq :: front) := by
    refine hs.willing.append ?_
    intro a ha
    rcases List.mem_cons.mp ha with rfl | ha
    · rfl
    · exact hwilling a ha
  have htrace : s2.world.trace ++ more =
      (s.world.trace ++ k.handing rq :: front) ++ d :: (k.told (k.entry rq s1) ++ more) := by
    rw [h.trace, hchecked, hfront]
    simp
  intro front' d' back' hsplit hd'
  rw [htrace] at hsplit
  obtain ⟨rfl, rfl, rfl⟩ := @split_unique _ (fun a => a.refuses = true) _ _ _ _ _ _ hsplit
    (fun y hy => by simp [hpre y hy]) (fun y hy => by simp [(hback y hy).refuses]) hd'
  refine ⟨hback, ⟨s.r.attempts, k.entry rq s1, h.attempts, ?_, h.entryClass.trans hcls⟩, rfl⟩
  have hdata : front.countP Act.isAttempt = 0 := by
    refine data_no_attempt fun a ha => (k.roundTrip_given rq s1).data a ?_
    rw [hfront]
    exact List.mem_append_left _ ha
  rw [List.countP_append, List.countP_cons, hdata, hs.count]
  rfl

variable (k)

/-- What every turn preserves, and how it may leave. -/
theorem turn_refused (hstream : k.stream = true) (hc : Obedient k.c k.cancel)
    (hH : k.H.Reliable) (s : LoopState k.c) (out : LoopState k.c ⊕ LoopState k.c)
    (hs : k.Unrefused s) (hturn : k.Turn s out) :
    Sum.elim k.Unrefused
      (fun f => RefusalsEnd f.world.trace (some f.final) f.r.attempts) out := by
  cases hturn with
  | cancelled _ =>
      have hsame := (k.polled_unchanged s).trace
      change RefusalsEnd (k.polled s).world.trace _ _
      rw [hsame]
      exact hs.willing.ends _ _
  | @unprepared st s1 _ hprep =>
      change RefusalsEnd s1.world.trace _ _
      rw [(k.prepared_unchanged hprep).trace]
      exact hs.willing.ends _ _
  | unrecorded _ hprep hadd => exact absurd hH (k.unrecorded_spec hprep hadd).heap
  | @terminal rq s1 _ hprep hadd hfinal =>
      have htook := took hprep hadd
      rcases roundTrip_refused hstream hc rq s1 with hgiven | ⟨-, hts, hterminal⟩
      · exact (htook.unrefused hs hgiven).1.ends _ _
      · have hadvance := htook.terminal_cls k hs.final hfinal
        rw [(judged_refused hts hterminal).1] at hadvance
        cases hadvance
  | @next rq s1 _ _ hprep hadd hfinal hnext =>
      have htook := took hprep hadd
      rcases roundTrip_refused hstream hc rq s1 with hgiven | ⟨hgiven, hts, hterminal⟩
      · obtain ⟨hwilling, hcount⟩ := htook.unrefused hs hgiven
        have hkept := (htook.final_eq hfinal).trans hs.final
        generalize k.announced s1 rq = s2 at hwilling hcount hkept hnext
        cases hnext with
        | success _ => exact hwilling.ends _ _
        | abort _ => exact hwilling.ends _ _
        | lost _ _ => exact hwilling.ends _ _
        | exhausted _ _ _ _ => exact hwilling.ends _ _
        | cancelled _ =>
            change RefusalsEnd (k.koboldAbortAssist (k.backend s2) s2.world).trace _ _
            rw [koboldAbortAssist_trace]
            exact (hwilling.append (willing_of_quiet (assisted_quiet _))).ends _ _
        | interrupted _ _ _ _ =>
            change RefusalsEnd (k.waited _ s2).2.world.trace _ _
            rw [waited_trace]
            exact (hwilling.append (by simp [Willing, Act.refuses])).ends _ _
        | reroll _ _ _ => exact ⟨hwilling, hcount, hkept⟩
        | fallback _ _ _ => exact ⟨hwilling, hcount, hkept⟩
        | retry _ _ _ _ =>
            refine ⟨?_, ?_, hkept⟩
            · rw [waited_trace]
              exact hwilling.append (by simp [Willing, Act.refuses])
            · rw [waited_trace, List.countP_append]
              exact hcount
      · obtain ⟨hcls, hchecked⟩ := judged_refused hts hterminal
        have hends := fun more => @Took.refused _ _ _ _ _ _ _ htook hs hgiven hcls hchecked more
        rw [hcls] at hnext
        generalize k.announced s1 rq = s2 at hends hnext
        cases hnext with
        | success h => cases h
        | abort h => cases h
        | cancelled _ =>
            change RefusalsEnd (k.koboldAbortAssist (k.backend s2) s2.world).trace _ _
            rw [koboldAbortAssist_trace]
            exact hends _ (assisted_quiet _)
        | lost h _ => simp at h
        | reroll h _ _ => cases h
        | interrupted h _ _ _ => cases h
        | retry h _ _ _ => cases h
        | fallback h _ _ => simp [Leaves] at h
        | exhausted h _ _ _ => simp [Leaves] at h

end Call

/-- A nonzero answer of a data callback ends the call: with {lit}`SICHA_E_CANCELLED`, its
attempt recorded as {lit}`CANCELLED`, and without another data callback, validation or
chat attempt. -/
theorem chatStream_refused (Y : Yyjson) (H : Heap σ) (hH : H.Reliable) (c : Client σ)
    (req : Option Request) (cbs : Option (Callbacks σ)) (cancel : Option (CancelToken σ))
    (haveOut : Bool) (ordinal : UInt32) (env : σ) (hc : Obedient c cancel) :
    let e := sichaChatStream Y H (some c) req cbs cancel haveOut ordinal ⟨env, []⟩
    RefusalsEnd e.world.trace e.status e.records := by
  intro e
  rcases chatCommon_ends Y H (some c) req cbs cancel haveOut true ordinal ⟨env, []⟩ with
    hearly | ⟨k, ⟨rfl, hclient, -, rfl, rfl, hstream⟩, env', hrun⟩
  · have hlog : e.world.log = [] := hearly.log
    have htrace : Willing e.world.trace := by
      rw [World.trace, World.acts, hlog]
      simp [Willing]
    exact htrace.ends _ _
  · cases Option.some.inj hclient
    have hend := k.run_turns (k.turn_refused hstream hc hH)
      (⟨by simp [Willing, World.trace, World.acts, Call.start], rfl, rfl⟩ :
        k.Unrefused (k.start ordinal (resultInit k.c.maxResponseBytes) ⟨env', []⟩))
    have he : e = k.handOut (k.attemptLoop.run (k.start ordinal (resultInit k.c.maxResponseBytes)
        ⟨env', []⟩)) := hrun
    rw [he]
    exact hend

end Runs

section Plain

attribute [local instance] lp64

/-- Callbacks that refuse the first delta. -/
def refusing : Callbacks Unit :=
  { plainCallbacks with onDelta := some fun _ s => (1, s) }

/-- A stream whose first piece is refused. -/
theorem chatStream_refused_plain :
    let e := sichaChatStream (plainYyjson (plainEventText "hi") (plainEvent "hi")) Heap.plentiful
      (some (plainClient 0 1048576 (by decide)
        (replyTransport fun s => ((200, plainStream "hi"), s))))
      (some plainRequest) (some refusing) none true 0 ⟨(), []⟩
    e.world.trace.any Act.refuses = true ∧ RefusalsEnd e.world.trace e.status e.records :=
  ⟨by decide +kernel, chatStream_refused _ _ Heap.plentiful_reliable _ _ _ _ _ _ _
    fun rq s => replyTransport_obedient _ rq none s⟩

end Plain

end Sicha
