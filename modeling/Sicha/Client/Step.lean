import Sicha.Client.Attempt
import Sicha.Request.ChatBody

/-!
# One turn of the retry and fallback engine

A translation of the attempt loop of {lit}`chat_common` in {lit}`client.c`.  The two
nested loops over backends and attempts are one loop over attempts: its state holds
the locals of both, and leaving the inner loop moves the index on.

Main results:

- Definition {lit}`Call.step`: a turn either goes round again or leaves.
-/

namespace Sicha

variable [SizeT] {σ : Type}

/-! ## The state of the engine -/

/-- The locals of {lit}`chat_common`.  {lit}`body_lens` and {lit}`n_headers` are the
lengths of what {lit}`bodies` and {lit}`headers` hold. -/
structure LoopState (c : Client σ) where
  i : Fin c.backends.length
  retrySameUsed : Nat
  validationUsed : Nat
  tryOfBackend : UInt32
  bodies : List (Option Bytes)
  headers : List (Option (List Header))
  rng : UInt64
  attemptOrdinal : UInt32
  anyDelivered : Bool
  final : Status
  r : Result
  world : World σ

/-- The arguments that stay fixed during a call. -/
structure Call (σ : Type) where
  Y : Yyjson
  H : Heap σ
  c : Client σ
  req : Request
  cbs : Option (Callbacks σ)
  cancel : Option (CancelToken σ)
  stream : Bool

namespace Call

variable (k : Call σ)

/-- {lit}`goto done` with a final status. -/
def exit (s : LoopState k.c) (final : Status) : LoopState k.c ⊕ LoopState k.c :=
  .inr { s with final := final }

/-- The backend of the state. -/
def backend (s : LoopState k.c) : Backend :=
  k.c.backends.get s.i

/-- The cancel poll at the head of the attempt loop. -/
def poll (w : World σ) : Bool × World σ :=
  match k.cancel with
  | none => (false, w)
  | some token => w.act (fun env => (token.flag env, env)) .poll

/-- The body of the backend's requests, built when it is first needed. -/
def prepareBody (s : LoopState k.c) : Except Status Bytes × LoopState k.c :=
  match (s.bodies[s.i.val]?).join with
  | some body => (.ok body, s)
  | none =>
      let out := (buildChatBody k.Y k.H (k.backend s) k.req k.stream).exec s.world.env
      let s := { s with world := { s.world with env := out.2 } }
      match out.1 with
      | .ok body => (.ok body, { s with bodies := s.bodies.set s.i.val (some body) })
      | .error st => (.error st, s)

/-- The headers of the backend's requests, built when they are first needed. -/
def prepareHeaders (s : LoopState k.c) : Except Status (List Header) × LoopState k.c :=
  match (s.headers[s.i.val]?).join with
  | some headers => (.ok headers, s)
  | none =>
      let out := (buildHeaders k.H (k.backend s) k.stream k.c.userAgent).exec s.world.env
      let s := { s with world := { s.world with env := out.2 } }
      match out.1 with
      | .ok headers => (.ok headers, { s with headers := s.headers.set s.i.val (some headers) })
      | .error st => (.error st, s)

/-- The request of the next attempt. -/
def prepare (s : LoopState k.c) : Except Status HttpRequest × LoopState k.c :=
  match k.prepareBody s with
  | (.error st, s) => (.error st, s)
  | (.ok body, s) =>
      match k.prepareHeaders s with
      | (.error st, s) => (.error st, s)
      | (.ok headers, s) => (.ok (chatRequest (k.backend s) body headers), s)

/-- The result as an attempt finds it. -/
def cleared (s : LoopState k.c) : Result :=
  { resultResetContent s.r with backend := Int32.ofNat s.i.val }

/-- The round trip of the next attempt. -/
def roundTrip (rq : HttpRequest) (s : LoopState k.c) : Ran σ :=
  runAttempt k.Y k.H k.c k.cbs k.cancel rq k.stream k.req.accumulates (k.cleared s) s.world

/-! ## Judging an attempt -/

/-- What is known of an attempt before it is recorded. -/
structure Judged (σ : Type) where
  cls : ErrorClass
  message : Bytes
  excerpt : Bytes
  world : World σ

/-- The class before validation; a terminal error is recorded as an advance. -/
def firstClass (x : Ran σ) : ErrorClass :=
  if x.o.v.terminal ≠ .ok then .advance
  else classify k.c.policy x.o.v.ts x.o.httpStatus x.o.v.bodyState x.r.finish

/-- The validator, if it is to run: only on classified successes. -/
def validator (x : Ran σ) : Option (Result → σ → Int × σ) :=
  if x.o.v.terminal = .ok ∧ k.firstClass x = .none then k.cbs.bind Callbacks.validate else none

/-- Classification and validation. -/
def judge (x : Ran σ) : Judged σ :=
  match k.validator x with
  | none => ⟨k.firstClass x, x.o.message, x.o.excerpt, x.world⟩
  | some f =>
      let v := x.world.act (f x.r) .validate
      if v.1 ≠ 0 then
        ⟨.validation, snprintf 96 (ascii "validator rejected"), borrowExcerpt x.r.text.bytes, v.2⟩
      else ⟨k.firstClass x, x.o.message, x.o.excerpt, v.2⟩

/-- The record of an attempt. -/
def record (s : LoopState k.c) (x : Ran σ) (j : Judged σ) : Attempt where
  attempt := s.attemptOrdinal
  backend := UInt32.ofNat s.i.val
  tryOfBackend := s.tryOfBackend
  model := (k.backend s).model
  errorClass := j.cls
  httpStatus := x.o.httpStatus
  transportStatus := x.o.v.ts
  latencyMs := x.o.latencyMs
  promptTokens := x.r.promptTokens
  completionTokens := x.r.completionTokens
  totalTokens := x.r.totalTokens
  message := j.message
  rawBodyExcerpt := if j.cls = .advance ∨ j.cls = .validation then j.excerpt else []

/-- The state once the record has been asked for. -/
def afterRecord (s : LoopState k.c) (x : Ran σ) (j : Judged σ) : Status × LoopState k.c :=
  let add := resultAddAttempt k.H x.r (k.record s x j) j.world.env
  (add.1,
    { s with
      tryOfBackend := s.tryOfBackend + 1
      attemptOrdinal := s.attemptOrdinal + 1
      anyDelivered := s.anyDelivered || x.o.delivered
      final := if x.o.v.terminal ≠ .ok then x.o.v.terminal else s.final
      r := add.2.1
      world := { j.world with env := add.2.2 } })

/-- Call {lit}`on_attempt`, if it is set. -/
def callOnAttempt (a : Attempt) (w : World σ) : World σ :=
  match k.cbs.bind Callbacks.onAttempt with
  | none => w
  | some f => (w.act (fun env => ((), f a env)) fun _ => .onAttempt a).2

/-- The debug line and the one {lit}`on_attempt` of a record: both read it back from the
result. -/
def announce (s : LoopState k.c) : LoopState k.c :=
  match resultAttempt s.r (s.r.attempts.length - 1) with
  | none => s
  | some a =>
      { s with world := k.callOnAttempt a (k.c.debugLog (attemptText a) s.world) }

/-! ## What follows an attempt -/

/-- The streaming commit rule forbids another attempt. -/
def committed (s : LoopState k.c) : Bool :=
  s.anyDelivered && k.c.policy.flags &&& policyRetryAfterDeltas == 0

/-- {lit}`goto advance`: the next backend, or out of the chain. -/
def advance (s : LoopState k.c) : LoopState k.c ⊕ LoopState k.c :=
  if h : s.i.val + 1 < k.c.backends.length then
    .inl { s with i := ⟨s.i.val + 1, h⟩, retrySameUsed := 0, validationUsed := 0, tryOfBackend := 0 }
  else .inr s

/-- The wait before a retry, and the generator after it: Retry-After replaces the
formula, which alone draws. -/
def waitFor (retryAfter : UInt64) (used : Nat) (rng : UInt64) : UInt64 × UInt64 :=
  if retryAfter ≠ uint64Max ∧ k.c.policy.retryAfterCapMs ≠ disabled then
    (if retryAfter > k.c.policy.retryAfterCapMs.toUInt64 then
      k.c.policy.retryAfterCapMs.toUInt64 else retryAfter, rng)
  else (backoffMs k.c.policy (UInt32.ofNat used) (splitmix64 rng).1, (splitmix64 rng).2)

/-- The drain of a call without a sink. -/
def drain : SinkCall → List (Entry σ) → σ → Int × List (Entry σ) × σ :=
  fun _ log env => (0, log, env)

/-- The headers of the abort assist: the key goes along if it fits. -/
def assistHeaders (b : Backend) : List Header :=
  let contentType : Header := ⟨ascii "Content-Type", ascii "application/json"⟩
  match b.apiKey with
  | some key =>
      if key.length < 512 - 8 then
        [contentType, ⟨ascii "Authorization", snprintf 512 (ascii "Bearer " ++ key)⟩]
      else [contentType]
  | none => [contentType]

/-- The request of the abort assist. -/
def assistRequest (b : Backend) (url : Bytes) : HttpRequest where
  method := ascii "POST"
  url := url
  headers := assistHeaders b
  body := ascii "\x7b\x7d"
  timeouts := ⟨2000, 2000, 2000, 2000⟩
  flags := httpFireAndForget

/-- {lit}`kobold_abort_assist`: best effort, no sink, no token, answer ignored. -/
def koboldAbortAssist (b : Backend) (w : World σ) : World σ :=
  match b.urlAbort with
  | none => w
  | some url =>
      let rq := assistRequest b url
      let start := (k.c.debugLog (requestText rq) w).note (.perform rq false false)
      let out := (k.c.transport.perform rq false none start.env).run drain start.log
      { env := out.2.2, log := out.2.1 }

/-- The class {lit}`VALIDATION`: a re-roll without backoff, while there is one left. -/
def onValidation (s : LoopState k.c) : LoopState k.c ⊕ LoopState k.c :=
  if k.committed s then k.exit s .streamLost
  else if s.validationUsed < k.c.policy.validationRetries.toNat then
    .inl { s with validationUsed := s.validationUsed + 1 }
  else k.advance s

/-- The class {lit}`RETRY_SAME`: a wait and another attempt, while there is one left. -/
def onRetrySame (retryAfter : UInt64) (s : LoopState k.c) : LoopState k.c ⊕ LoopState k.c :=
  if k.committed s then k.exit s .streamLost
  else
    let s := { s with retrySameUsed := s.retrySameUsed + 1 }
    if s.retrySameUsed ≥ k.c.policy.maxTries.toNat then k.advance s
    else
      let wait := k.waitFor retryAfter s.retrySameUsed s.rng
      let out := s.world.act (k.c.clock.waitMs k.cancel wait.1) (.wait wait.1)
      let s := { s with rng := wait.2, world := out.2 }
      if out.1 ≠ 0 then k.exit s .cancelled else .inl s

/-- The class {lit}`ADVANCE`. -/
def onAdvance (s : LoopState k.c) : LoopState k.c ⊕ LoopState k.c :=
  if k.committed s then k.exit s .streamLost else k.advance s

/-- The switch over the class of a recorded attempt. -/
def dispatch (cls : ErrorClass) (retryAfter : UInt64) (s : LoopState k.c) :
    LoopState k.c ⊕ LoopState k.c :=
  match cls with
  | .none => k.exit s .ok
  | .abort => k.exit s .aborted
  | .cancelled => k.exit { s with world := k.koboldAbortAssist (k.backend s) s.world } .cancelled
  | .validation => k.onValidation s
  | .retrySame => k.onRetrySame retryAfter s
  | .advance => k.onAdvance s

/-- What follows the round trip: record it, announce it, and go on by its class. -/
def conclude (s : LoopState k.c) (x : Ran σ) : LoopState k.c ⊕ LoopState k.c :=
  let j := k.judge x
  match k.afterRecord s x j with
  | (.ok, s) =>
      let s := k.announce s
      if s.final = .nomem then .inr s -- terminal from the round trip
      else k.dispatch j.cls x.o.retryAfterMs s
  | (_, s) => k.exit s .nomem

/-- One turn of the attempt loop. -/
def step (s : LoopState k.c) : LoopState k.c ⊕ LoopState k.c :=
  let p := k.poll s.world
  let s := { s with world := p.2 }
  if p.1 then k.exit s .cancelled
  else
    match k.prepare s with
    | (.error st, s) => k.exit s st
    | (.ok rq, s) => k.conclude s (k.roundTrip rq s)

end Call

end Sicha
