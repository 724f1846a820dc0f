import Sicha.Client.Release
import Sicha.Client.Turn
import Sicha.Lib.Loop

/-!
# A whole call

The engine as a loop with a measure, and the two calls of the public interface.

Main results:

- Theorem {lit}`step_lowers`: every further turn lowers the rank, so every call ends.
- Definitions {lit}`sichaChat` and {lit}`sichaChatStream`.
-/

namespace Sicha

variable [SizeT] {σ : Type}

namespace Call

variable (k : Call σ)

/-! ## The loop ends -/

/-- The attempts one backend can still cost, at most. -/
def budget : Nat :=
  k.c.policy.maxTries.toNat + k.c.policy.validationRetries.toNat

/-- What is left: the budgets of the backends behind this one, and of this one. -/
def rank (s : LoopState k.c) : Nat :=
  (k.c.backends.length - 1 - s.i.val) * (k.budget + 1) +
    (k.c.policy.maxTries.toNat - s.retrySameUsed) +
    (k.c.policy.validationRetries.toNat - s.validationUsed)

/-- Two states at the same place of the chain, with the same counters. -/
def SamePlace (s s' : LoopState k.c) : Prop :=
  s'.i = s.i ∧ s'.retrySameUsed = s.retrySameUsed ∧ s'.validationUsed = s.validationUsed

/-- An attempt does not move the place of the loop. -/
theorem announced_place {s s1 : LoopState k.c} {rq : HttpRequest}
    (h : k.prepare (k.polled s) = (.ok rq, s1)) : k.SamePlace s (k.announced s1 rq) := by
  obtain ⟨bodies, headers, env, hs1⟩ := (k.prepare_spec (k.polled s)).1
  rw [h] at hs1
  dsimp only at hs1
  subst hs1
  unfold announced announce
  split <;> exact ⟨rfl, rfl, rfl⟩

/-- Every way back to the loop uses up some of its budget. -/
theorem next_lowers {cls : ErrorClass} {retryAfter : UInt64} {s s' : LoopState k.c}
    (h : k.Next cls retryAfter s (.inl s')) : k.rank s' < k.rank s := by
  generalize hout : (Sum.inl s' : LoopState k.c ⊕ LoopState k.c) = out at h
  cases h with
  | success _ => cases hout
  | abort _ => cases hout
  | cancelled _ => cases hout
  | lost _ _ => cases hout
  | interrupted _ _ _ _ => cases hout
  | exhausted _ _ _ _ => cases hout
  | reroll _ _ hlt =>
      cases hout
      simp only [rank]
      omega
  | retry _ _ hlt _ =>
      cases hout
      simp only [rank, waited]
      omega
  | fallback _ _ hnext =>
      cases hout
      have hstep : k.c.backends.length - 1 - s.i.val =
          (k.c.backends.length - 1 - (s.i.val + 1)) + 1 := by omega
      simp only [rank, budget, hstep, Nat.add_mul, Nat.one_mul]
      omega

/-- Every further turn lowers the rank. -/
theorem step_lowers {s s' : LoopState k.c} (h : k.step s = .inl s') : k.rank s' < k.rank s := by
  have hturn := k.step_turn s
  rw [h] at hturn
  generalize hout : (Sum.inl s' : LoopState k.c ⊕ LoopState k.c) = out at hturn
  cases hturn with
  | cancelled _ => cases hout
  | unprepared _ _ => cases hout
  | unrecorded _ _ _ => cases hout
  | terminal _ _ _ _ => cases hout
  | next _ hprep _ _ hnext =>
      subst hout
      rcases k.announced_place hprep with ⟨hi, hretry, hvalid⟩
      have hlow := k.next_lowers hnext
      simpa only [rank, hi, hretry, hvalid] using hlow

/-- The attempt loop of {lit}`chat_common`. -/
def attemptLoop : Loop (LoopState k.c) (LoopState k.c) where
  step := k.step
  measure := k.rank
  lowers := k.step_lowers

/-- The locals of {lit}`chat_common` when the loop is entered. -/
def start (ordinal : UInt32) (r : Result) (w : World σ) : LoopState k.c where
  i := ⟨0, List.length_pos_iff.mpr k.c.backends_ne⟩
  retrySameUsed := 0
  validationUsed := 0
  tryOfBackend := 0
  bodies := List.replicate k.c.backends.length none
  headers := List.replicate k.c.backends.length none
  rng := k.c.prngSeed ^^^ ordinal.toUInt64
  attemptOrdinal := 0
  anyDelivered := false
  final := .exhausted
  r := r
  world := w

/-! ## The calls -/

/-- How a call ends.  {lit}`fault` is the cleanup reading {lit}`n_headers[0]` through a NULL
pointer. -/
inductive ChatEnd (σ : Type) where
  | returned (status : Status) (out : Option Result) (world : World σ)
  | fault (world : World σ)

/-- The world a call leaves behind. -/
def ChatEnd.world : ChatEnd σ → World σ
  | .returned _ _ w => w
  | .fault w => w

/-- The status a call returns, if it returns. -/
def ChatEnd.status : ChatEnd σ → Option Status
  | .returned st _ _ => some st
  | .fault _ => none

/-- The result a call hands out. -/
def ChatEnd.result : ChatEnd σ → Option Result
  | .returned _ out _ => out
  | .fault _ => none

/-- The records of a result; without one there are none. -/
def ChatEnd.records (e : ChatEnd σ) : List Attempt :=
  (e.result.map Result.attempts).getD []

/-- {lit}`sicha_result_backend`, which answers -1 without a result. -/
def ChatEnd.backend (e : ChatEnd σ) : Int32 :=
  (e.result.map resultBackend).getD (-1)

/-- A call with a status has returned. -/
theorem ChatEnd.of_status {e : ChatEnd σ} {st : Status} (h : e.status = some st) :
    ∃ out w, e = .returned st out w := by
  cases e with
  | returned st' out w =>
      cases h
      exact ⟨out, w, rfl⟩
  | fault w => cases h

/-- The locals of {lit}`chat_common` that its common exit looks at. -/
structure AtDone (σ : Type) where
  arrays : Arrays
  final : Status
  r : Result
  world : World σ

/-- What the common exit does. -/
def exitActs (x : AtDone σ) : List ExitAct :=
  ((x.arrays.cleanup k.c.backends.length).exec []).2

/-- The common exit of {lit}`chat_common`: the cleanup, and if it runs through the result gets
its status and is handed out. -/
def done (x : AtDone σ) : ChatEnd σ :=
  match ((x.arrays.cleanup k.c.backends.length).exec []).1 with
  | .ok () => .returned x.final (some { x.r with status := x.final }) x.world
  | .error () => .fault x.world

/-- {lit}`goto done` out of the loop, with all four arrays. -/
def atDone (s : LoopState k.c) : AtDone σ where
  arrays :=
    { bodies := some s.bodies
      bodyLens := some (s.bodies.map fun body => (body.map List.length).getD 0)
      headers := some s.headers
      nHeaders := some (s.headers.map fun headers => (headers.map List.length).getD 0) }
  final := s.final
  r := s.r
  world := s.world

/-- An array that {lit}`calloc` granted, zeroed, or NULL. -/
def calloced {α : Type} (n : Nat) (granted : Bool) (zero : α) : Option (List α) :=
  if granted then some (List.replicate n zero) else none

/-- {lit}`chat_common` once the result exists: the four arrays, all requested before any is
looked at. -/
def arrays (ordinal : UInt32) (r : Result) (w : World σ) : AtDone σ ⊕ LoopState k.c :=
  let n := k.c.backends.length
  let bodies := w.quiet (k.H.alloc n)
  let bodyLens := bodies.2.quiet (k.H.alloc n)
  let headers := bodyLens.2.quiet (k.H.alloc n)
  let nHeaders := headers.2.quiet (k.H.alloc n)
  if bodies.1 && bodyLens.1 && headers.1 && nHeaders.1 then
    .inr (k.start ordinal r nHeaders.2)
  else
    .inl
      { arrays :=
          { bodies := calloced n bodies.1 none
            bodyLens := calloced n bodyLens.1 0
            headers := calloced n headers.1 none
            nHeaders := calloced n nHeaders.1 0 }
        final := .nomem
        r := r
        world := nHeaders.2 }

/-- {lit}`chat_common`, its pointers checked, up to its loop: it returns, goes to {lit}`done`, or
enters the loop. -/
def enter (ordinal : UInt32) (w : World σ) : (ChatEnd σ ⊕ AtDone σ) ⊕ LoopState k.c :=
  if k.cbs.any fun cbs => !cbs.structSizeOk then .inl (.inl (.returned .invalidArg none w))
  else
    match (requestValidate k.Y k.H k.req).exec w.env with
    | (.error st, env) => .inl (.inl (.returned st none { w with env := env }))
    | (.ok (), env) =>
        match resultCreate k.H k.c.maxResponseBytes env with
        | (none, env) => .inl (.inl (.returned .nomem none { w with env := env }))
        | (some r, env) => (k.arrays ordinal r { w with env := env }).map .inr id

/-- {lit}`chat_common`, its pointers checked, up to {lit}`done`. -/
def body (ordinal : UInt32) (w : World σ) : ChatEnd σ ⊕ AtDone σ :=
  match k.enter ordinal w with
  | .inl out => out
  | .inr s => .inr (k.atDone (k.attemptLoop.run s))

/-- The rest of a call that has returned, or has come to {lit}`done`. -/
def close : ChatEnd σ ⊕ AtDone σ → ChatEnd σ
  | .inl e => e
  | .inr x => k.done x

/-- {lit}`chat_common`, its pointers checked. -/
def run (ordinal : UInt32) (w : World σ) : ChatEnd σ :=
  k.close (k.body ordinal w)

end Call

/-- {lit}`chat_common`.  {lit}`haveOut` says that {lit}`out` is not NULL, and
{lit}`ordinal` is what the request counter of the client answers. -/
def chatCommon (Y : Yyjson) (H : Heap σ) (c : Option (Client σ)) (req : Option Request)
    (cbs : Option (Callbacks σ)) (cancel : Option (CancelToken σ)) (haveOut stream : Bool)
    (ordinal : UInt32) (w : World σ) : Call.ChatEnd σ :=
  if haveOut then
    match c, req with
    | some c, some req => Call.run ⟨Y, H, c, req, cbs, cancel, stream⟩ ordinal w
    | _, _ => .returned .invalidArg none w
  else .returned .invalidArg none w

/-- {lit}`sicha_chat`. -/
def sichaChat (Y : Yyjson) (H : Heap σ) (c : Option (Client σ)) (req : Option Request)
    (cbs : Option (Callbacks σ)) (cancel : Option (CancelToken σ)) (haveOut : Bool)
    (ordinal : UInt32) (w : World σ) : Call.ChatEnd σ :=
  chatCommon Y H c req cbs cancel haveOut false ordinal w

/-- {lit}`sicha_chat_stream`. -/
def sichaChatStream (Y : Yyjson) (H : Heap σ) (c : Option (Client σ)) (req : Option Request)
    (cbs : Option (Callbacks σ)) (cancel : Option (CancelToken σ)) (haveOut : Bool)
    (ordinal : UInt32) (w : World σ) : Call.ChatEnd σ :=
  chatCommon Y H c req cbs cancel haveOut true ordinal w

/-! ## A plain call

The foreign parties of the concrete calls below: one backend, a fixed request, and a
transport that answers from the environment. -/

/-- One body after the other, until the sink says stop. -/
def feedChunks : List Bytes → σ → Dialogue σ SinkCall Int TransportStatus
  | [], s => .done .ok s
  | chunk :: chunks, s =>
      .ask (.body chunk) s fun rc s =>
        if rc = 0 then feedChunks chunks s else .done .abortedBySink s

/-- A transport that answers with the status and the body the environment holds ready. -/
def replyTransport (reply : σ → (Int × List Bytes) × σ) : Transport σ where
  perform _ sink _ s :=
    if sink then
      .ask (.status (reply s).1.1 []) (reply s).2 fun rc s' =>
        if rc = 0 then feedChunks (reply s).1.2 s' else .done .abortedBySink s'
    else .done .ok s

omit [SizeT] in
/-- The feed stops at the first piece that is refused. -/
theorem feedChunks_stops (chunks : List Bytes) (s : σ) :
    (feedChunks chunks s).StopsWith (· ≠ 0) .abortedBySink := by
  induction chunks generalizing s with
  | nil => trivial
  | cons chunk chunks ih =>
      intro rc s'
      dsimp only
      split_ifs with hrc
      · exact ⟨fun hne => absurd hrc hne, ih s'⟩
      · exact ⟨fun _ => ⟨s', rfl⟩, trivial⟩

omit [SizeT] in
/-- The plain transport stops when the sink tells it to. -/
theorem replyTransport_obedient (reply : σ → (Int × List Bytes) × σ) (rq : HttpRequest)
    (cancel : Option (CancelToken σ)) (s : σ) :
    ((replyTransport reply).perform rq true cancel s).StopsWith (· ≠ 0) .abortedBySink := by
  intro rc s'
  dsimp only
  split_ifs with hrc
  · exact ⟨fun hne => absurd hrc hne, feedChunks_stops _ _⟩
  · exact ⟨fun _ => ⟨s', rfl⟩, trivial⟩

/-- A transport that is busy on every backend: 503, and no body. -/
def busyTransport : Transport σ :=
  replyTransport fun s => ((503, []), s)

/-- The default policy. -/
def plainPolicy : RetryPolicy :=
  policyResolve ⟨0, 0, 0, 0, 0, 0, 0, .null 0⟩

omit [SizeT] in
/-- The plain cap lets something through. -/
theorem plainCap_pos : 0 < 1048576 := by decide

/-- A client with the default policy and some copies of the plain backend. -/
def plainClient (backends maxResponseBytes : Nat) (hresponse : 0 < maxResponseBytes)
    (transport : Transport σ) : Client σ where
  backends := List.replicate (backends + 1) plainBackend
  policy := plainPolicy
  transport := transport
  clock := stillClock
  prngSeed := 0
  maxResponseBytes := maxResponseBytes
  maxEventBytes := 1048576
  userAgent := ascii "sicha/0.1"
  debug := false
  backends_ne := by simp [List.replicate_succ]
  policy_valid := by decide
  policy_resolved := by rfl
  maxResponse_pos := hresponse
  maxEvent_pos := plainCap_pos

/-- A heap that refuses one request: the environment counts them. -/
def refusingAt (i : Nat) : Heap Nat where
  alloc _ n := (n != i, n + 1)

/-- Callbacks that accept everything and trigger the token with the first record. -/
def triggering : Callbacks Bool :=
  { plainCallbacks with onAttempt := some fun _ _ => true }

/-- A stream of one event and the end mark. -/
def plainStream (content : String) : List Bytes :=
  [ascii "data: " ++ plainEventText content ++ ascii "\n\ndata: [DONE]\n\n"]

/-- A streaming call that is answered with one piece of content. -/
def plainChat (content : String) : Call.ChatEnd Unit :=
  sichaChatStream (plainYyjson (plainEventText content) (plainEvent content)) Heap.plentiful
    (some (plainClient 0 1048576 (by decide)
      (replyTransport fun s => ((200, plainStream content), s))))
    (some plainRequest) (some plainCallbacks) none true 0 ⟨(), []⟩

end Sicha
