import Sicha.Client.Chat
import Sicha.Client.Trip

/-!
# What a recorded attempt leaves behind

From the head of the attempt loop to the state behind {lit}`on_attempt`: the record,
the counters, the buffers and the visible trace.

Main results:

- Theorem {lit}`recorded_trace`: the visible actions of an attempt.
- Theorem {lit}`took`: what a turn that stored a record has done.
-/

namespace Sicha

variable [SizeT] {σ : Type}

namespace Call

variable (k : Call σ)

/-! ## The visible actions of an attempt -/

/-- The data callbacks of a round trip, in order. -/
def given (rq : HttpRequest) (s : LoopState k.c) : List Act :=
  (k.roundTrip rq s).world.acts.drop (k.handed rq s.world).acts.length

/-- The validator's call, if it is made. -/
def checked (x : Ran σ) : List Act :=
  match k.validator x with
  | none => []
  | some f => [.validate (f x.r x.world.env).1]

/-- The {lit}`on_attempt` of a record, if it is set. -/
def told (a : Attempt) : List Act :=
  if (k.cbs.bind Callbacks.onAttempt).isSome then [.onAttempt a] else []

/-- The handing over of an attempt's request. -/
def handing (rq : HttpRequest) : Act :=
  .perform rq true k.cancel.isSome

/-- The data callbacks are all a round trip adds to the log. -/
structure Given (rq : HttpRequest) (s : LoopState k.c) : Prop where
  acts : (k.roundTrip rq s).world.acts = (k.handed rq s.world).acts ++ k.given rq s
  data : ∀ a ∈ k.given rq s, a.isData = true
  delivered : (k.roundTrip rq s).o.delivered = true ↔
    k.stream = true ∧ ∃ a ∈ k.given rq s, a.isDelta = true
  records : SameRecords (k.cleared s) (k.roundTrip rq s).r
  held : k.stream = true → k.req.accumulates = true → ∀ ch : Channel,
    (ch.callback k.cbs).isSome = true →
      (ch.buf (k.roundTrip rq s).r).bytes = heardOn ch (k.given rq s)

/-- Between the request and the record there is only data. -/
theorem roundTrip_given (rq : HttpRequest) (s : LoopState k.c) : k.Given rq s := by
  obtain ⟨new, hacts, hdata, hdelivered, hrecords, hheld⟩ := @roundTrip_heard _ _ k rq s
  have hnew : k.given rq s = new := by
    unfold given
    rw [hacts, List.drop_left]
  subst hnew
  exact ⟨hacts, hdata, hdelivered, hrecords, hheld⟩

omit [SizeT] in
/-- All data is visible. -/
theorem data_visible {acts : List Act} (h : ∀ a ∈ acts, a.isData = true) :
    acts.filter Act.visible = acts := by
  rw [List.filter_eq_self]
  intro a ha
  have hdata := h a ha
  cases a <;> first | rfl | cases hdata

/-- A poll is not on the trace. -/
theorem poll_trace (w : World σ) : (k.poll w).2.trace = w.trace := by
  unfold poll
  split
  · rfl
  · rw [World.act_trace]
    exact List.append_nil _

/-- A request is on the trace when it is handed over. -/
theorem handed_trace (rq : HttpRequest) (w : World σ) :
    (k.handed rq w).trace = w.trace ++ [k.handing rq] := by
  unfold handed
  rw [World.note_trace, World.quiet_trace, debugLog_trace]
  rfl

/-- A round trip puts its request and its data on the trace. -/
theorem roundTrip_trace (rq : HttpRequest) (s : LoopState k.c) :
    (k.roundTrip rq s).world.trace = s.world.trace ++ k.handing rq :: k.given rq s := by
  have hgiven := k.roundTrip_given rq s
  calc (k.roundTrip rq s).world.trace
      = (k.handed rq s.world).trace ++ (k.given rq s).filter Act.visible := by
        rw [World.trace, hgiven.acts, List.filter_append]
        rfl
    _ = s.world.trace ++ k.handing rq :: k.given rq s := by
        rw [handed_trace, data_visible hgiven.data, List.append_assoc]
        rfl

/-- A judgement puts the validation on the trace, if there is one. -/
theorem judge_trace (x : Ran σ) : (k.judge x).world.trace = x.world.trace ++ k.checked x := by
  unfold judge checked
  cases k.validator x with
  | none => exact (List.append_nil _).symm
  | some f =>
      dsimp only
      split_ifs <;> exact World.act_trace _ _ _

/-- The visible actions of an attempt up to its record. -/
theorem recorded_trace (rq : HttpRequest) (s : LoopState k.c) :
    (k.recorded s rq).2.world.trace =
      s.world.trace ++ k.handing rq :: (k.given rq s ++ k.checked (k.roundTrip rq s)) := by
  calc (k.recorded s rq).2.world.trace
      = (k.judged s rq).world.trace := rfl
    _ = _ := by rw [judged, judge_trace, roundTrip_trace, List.append_assoc, List.cons_append]

/-- An announcement is on the trace, if there is a callback. -/
theorem callOnAttempt_trace (a : Attempt) (w : World σ) :
    (k.callOnAttempt a w).trace = w.trace ++ k.told a := by
  unfold callOnAttempt told
  cases k.cbs.bind Callbacks.onAttempt with
  | none => exact (List.append_nil _).symm
  | some f => exact World.act_trace _ _ _

/-! ## The record -/

/-- The record of an attempt as the result stores it. -/
def entry (rq : HttpRequest) (s : LoopState k.c) : Attempt :=
  (k.record s (k.roundTrip rq s) (k.judged s rq)).stored

/-- What a turn that stored a record has done by the time {lit}`on_attempt` returns. -/
structure Took (s : LoopState k.c) (rq : HttpRequest) (s1 s2 : LoopState k.c) : Prop where
  i : s2.i = s.i
  retrySameUsed : s2.retrySameUsed = s.retrySameUsed
  validationUsed : s2.validationUsed = s.validationUsed
  tryOfBackend : s2.tryOfBackend = s.tryOfBackend + 1
  attemptOrdinal : s2.attemptOrdinal = s.attemptOrdinal + 1
  anyDelivered : s2.anyDelivered =
    (s.anyDelivered || (k.roundTrip rq s1).o.delivered)
  final : s2.final =
    if (k.roundTrip rq s1).o.v.terminal ≠ .ok then (k.roundTrip rq s1).o.v.terminal else s.final
  attempts : s2.r.attempts = s.r.attempts ++ [k.entry rq s1]
  backend : s2.r.backend = Int32.ofNat s.i.val
  buf : ∀ ch : Channel, ch.buf s2.r = ch.buf (k.roundTrip rq s1).r
  trace : s2.world.trace = s.world.trace ++
    k.handing rq :: (k.given rq s1 ++ k.checked (k.roundTrip rq s1) ++ k.told (k.entry rq s1))
  entryOrdinal : (k.entry rq s1).attempt = s.attemptOrdinal
  entryBackend : (k.entry rq s1).backend = UInt32.ofNat s.i.val
  entryTry : (k.entry rq s1).tryOfBackend = s.tryOfBackend
  entryClass : (k.entry rq s1).errorClass = (k.judged s1 rq).cls

/-- What recording an attempt answers, and leaves of the result. -/
theorem recorded_outcome (rq : HttpRequest) (s : LoopState k.c) :
    AddOutcome k.H (k.roundTrip rq s).r (k.record s (k.roundTrip rq s) (k.judged s rq))
      (k.recorded s rq).1 (k.recorded s rq).2.r :=
  resultAddAttempt_cases k.H (k.roundTrip rq s).r
    (k.record s (k.roundTrip rq s) (k.judged s rq)) (k.judged s rq).world.env

variable {k}

/-- A stored record is the last of the result, and the announcement reads it back. -/
theorem announced_recorded {rq : HttpRequest} {s : LoopState k.c}
    (hadd : (k.recorded s rq).1 = .ok) :
    ∃ cap, (k.recorded s rq).2.r = { (k.roundTrip rq s).r with
        attempts := (k.roundTrip rq s).r.attempts ++ [k.entry rq s], capAttempts := cap } ∧
      k.announced s rq = { (k.recorded s rq).2 with
        world := k.callOnAttempt (k.entry rq s)
          (k.c.debugLog (attemptText (k.entry rq s)) (k.recorded s rq).2.world) } := by
  have hout := k.recorded_outcome rq s
  rw [hadd] at hout
  generalize hr : (k.recorded s rq).2.r = r at hout
  cases hout with
  | stored cap =>
      refine ⟨cap, rfl, ?_⟩
      have hlast : resultAttempt (k.recorded s rq).2.r
          ((k.recorded s rq).2.r.attempts.length - 1) = some (k.entry rq s) := by
        rw [hr]
        simp [resultAttempt, entry]
      unfold announced announce
      rw [hlast]

/-- What a turn that stored a record has done. -/
theorem took {s s1 : LoopState k.c} {rq : HttpRequest}
    (hprep : k.prepare (k.polled s) = (.ok rq, s1)) (hadd : (k.recorded s1 rq).1 = .ok) :
    k.Took s rq s1 (k.announced s1 rq) := by
  obtain ⟨bodies, headers, env, hs1⟩ := (k.prepare_spec (k.polled s)).1
  rw [hprep] at hs1
  dsimp only at hs1
  subst hs1
  obtain ⟨cap, hr, hann⟩ := announced_recorded hadd
  have hrecords := (k.roundTrip_given rq (k.recached (k.polled s) bodies headers env)).records
  exact
    { i := by rw [hann]; rfl
      retrySameUsed := by rw [hann]; rfl
      validationUsed := by rw [hann]; rfl
      tryOfBackend := by rw [hann]; rfl
      attemptOrdinal := by rw [hann]; rfl
      anyDelivered := by rw [hann]; rfl
      final := by rw [hann]; rfl
      attempts := by
        rw [hann]
        dsimp only
        rw [hr]
        exact congrArg (· ++ _) hrecords.attempts
      backend := by
        rw [hann]
        dsimp only
        rw [hr]
        exact hrecords.backend
      buf := by
        intro ch
        rw [hann]
        dsimp only
        rw [hr]
        cases ch <;> rfl
      trace := by
        have hpolled : (k.recached (k.polled s) bodies headers env).world.trace =
            s.world.trace := k.poll_trace s.world
        rw [hann]
        dsimp only
        rw [callOnAttempt_trace, debugLog_trace, recorded_trace, hpolled, List.append_assoc,
          List.cons_append]
      entryOrdinal := rfl
      entryBackend := rfl
      entryTry := rfl
      entryClass := rfl }

/-- Past the terminal check the final status is untouched. -/
theorem Took.final_eq {s s1 s2 : LoopState k.c} {rq : HttpRequest} (h : k.Took s rq s1 s2)
    (hne : s2.final ≠ .nomem) : s2.final = s.final := by
  have hfinal := h.final
  rw [hfinal] at hne ⊢
  rcases @roundTrip_terminal _ _ k rq s1 with hok | hnomem
  · rw [if_neg (not_not.mpr hok)]
  · rw [if_pos (by rw [hnomem]; decide), hnomem] at hne
    exact absurd rfl hne

/-! ## What a class says about the trace -/

variable (k)

/-- The validator is asked about a success only. -/
theorem validator_eq (x : Ran σ) :
    k.validator x = if k.firstClass x = .none then k.cbs.bind Callbacks.validate else none := by
  have hterminal : k.firstClass x = .none → x.o.v.terminal = .ok := by
    intro h
    by_contra hne
    rw [firstClass, if_pos hne] at h
    cases h
  unfold validator
  split_ifs with hboth hnone hnone
  · rfl
  · exact absurd hboth.2 hnone
  · exact absurd ⟨hterminal hnone, hnone⟩ hboth
  · rfl

/-- How an attempt is judged, from its first class to its last: a validator that is set
decides about a classified success, and about nothing else. -/
inductive Judgement (validator : Bool) : ErrorClass → ErrorClass → List Act → Prop
  | accepted (hset : validator = true) : Judgement validator .none .none [.validate 0]
  | rejected {rc : Int} (hset : validator = true) (hrc : rc ≠ 0) :
      Judgement validator .none .validation [.validate rc]
  | classified {cls : ErrorClass} (h : cls = .none → validator = false) :
      Judgement validator cls cls []

/-- A judgement is what the validator makes of the first class. -/
theorem judge_judgement (x : Ran σ) :
    Judgement (k.cbs.bind Callbacks.validate).isSome (k.firstClass x) (k.judge x).cls
      (k.checked x) := by
  have hval := k.validator_eq x
  unfold judge checked
  split_ifs at hval with hnone
  · cases hset : k.cbs.bind Callbacks.validate with
    | none =>
        rw [hval, hset]
        exact .classified fun _ => rfl
    | some f =>
        rw [hval, hset, hnone]
        dsimp only [World.act]
        by_cases hrc : (f x.r x.world.env).1 = 0
        · rw [if_neg (not_not.mpr hrc), hrc]
          exact .accepted rfl
        · rw [if_pos hrc]
          exact .rejected rfl hrc
  · rw [hval]
    exact .classified fun h => absurd h hnone

/-- A terminal round trip is recorded as an advance. -/
theorem judge_terminal {x : Ran σ} (h : x.o.v.terminal ≠ .ok) : (k.judge x).cls = .advance := by
  have hfirst : k.firstClass x = .advance := by rw [firstClass, if_pos h]
  have hjudged := k.judge_judgement x
  rw [hfirst] at hjudged
  generalize (k.judge x).cls = cls at hjudged
  generalize k.checked x = acts at hjudged
  cases hjudged with
  | classified => rfl

/-- An attempt that ends the call for memory is recorded as one that moves on. -/
theorem Took.terminal_cls {s s1 s2 : LoopState k.c} {rq : HttpRequest} (h : k.Took s rq s1 s2)
    (hs : s.final = .exhausted) (hfinal : s2.final = .nomem) :
    (k.judged s1 rq).cls = .advance := by
  refine k.judge_terminal fun hok => ?_
  rw [h.final, if_neg (not_not.mpr hok), hs] at hfinal
  cases hfinal

/-- The last record is that of the attempt. -/
theorem Took.last {s s1 s2 : LoopState k.c} {rq : HttpRequest} (h : k.Took s rq s1 s2) :
    s2.r.attempts.getLast? = some (k.entry rq s1) := by
  rw [h.attempts, List.getLast?_concat]

/-! ## Waits and the abort assist -/

/-- A wait is on the trace. -/
theorem waited_trace (retryAfter : UInt64) (s : LoopState k.c) :
    (k.waited retryAfter s).2.world.trace = s.world.trace ++
      [.wait (k.waitFor retryAfter (s.retrySameUsed + 1) s.rng).1 (k.waited retryAfter s).1] :=
  World.act_trace _ _ _

/-- The request of the abort assist, if the backend has an abort URL. -/
def assisted (b : Backend) : List Act :=
  match b.urlAbort with
  | none => []
  | some url => [.perform (assistRequest b url) false false]

/-- The abort assist logs its request; what the transport then says is drained. -/
theorem koboldAbortAssist_drained {b : Backend} {url : Bytes} (hurl : b.urlAbort = some url)
    (w : World σ) : (k.koboldAbortAssist b w).log =
      ((k.c.debugLog (requestText (assistRequest b url)) w).note
        (.perform (assistRequest b url) false false)).log := by
  unfold koboldAbortAssist
  rw [hurl]
  dsimp only
  generalize (k.c.debugLog (requestText (assistRequest b url)) w).note
    (.perform (assistRequest b url) false false) = start
  exact @Dialogue.run_invariant _ _ _ _ _ drain (· = start.log) (fun _ _ _ h => h)
    (k.c.transport.perform (assistRequest b url) false none start.env) start.log rfl

/-- Without an abort URL nothing is sent. -/
theorem koboldAbortAssist_none {b : Backend} (hurl : b.urlAbort = none) (w : World σ) :
    k.koboldAbortAssist b w = w := by
  unfold koboldAbortAssist
  rw [hurl]

/-- The abort assist is on the trace, if the backend has one. -/
theorem koboldAbortAssist_trace (b : Backend) (w : World σ) :
    (k.koboldAbortAssist b w).trace = w.trace ++ assisted b := by
  unfold assisted
  cases hurl : b.urlAbort with
  | none =>
      rw [k.koboldAbortAssist_none hurl]
      exact (List.append_nil _).symm
  | some url =>
      have hdrained := k.koboldAbortAssist_drained hurl w
      calc (k.koboldAbortAssist b w).trace
          = ((k.c.debugLog (requestText (assistRequest b url)) w).note
              (.perform (assistRequest b url) false false)).trace := by
            simp only [World.trace, World.acts, hdrained]
        _ = w.trace ++ [.perform (assistRequest b url) false false] := by
            rw [World.note_trace, debugLog_trace]
            rfl

end Call

end Sicha
