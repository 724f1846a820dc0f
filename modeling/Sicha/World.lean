import Sicha.Classify
import Sicha.Lib.Dialogue
import Sicha.Request.Backend
import Sicha.Result

/-!
# The world around a call

A call runs among foreign parties: the allocator, a clock, a transport that calls
back into the client, the caller's callbacks, and other threads that may trigger the
cancel token.  They share an environment {lit}`σ` of which the client knows nothing.

What the client does to that environment, apart from allocating and reading the
clock, is logged with the environment before and after.  The log is a device of the
model: no definition reads it.

Main results:

- Definition {lit}`World`: an environment with the log of the client's actions.
- Definitions {lit}`Transport`, {lit}`Clock`, {lit}`Callbacks` and
  {lit}`CancelToken`: the foreign parties.
-/

namespace Sicha

/-! ## Foreign parties -/

/-- {lit}`sicha_http_request`. -/
structure HttpRequest where
  method : Bytes
  url : Bytes
  headers : List Header
  body : Bytes
  timeouts : Timeouts
  flags : UInt32
deriving DecidableEq

/-- {lit}`SICHA_HTTP_FIRE_AND_FORGET`. -/
def httpFireAndForget : UInt32 := 0x1

/-- The questions a transport asks the sink of a {lit}`sicha_http_sink`. -/
inductive SinkCall where
  | status (httpStatus : Int) (headers : List HeaderRef)
  | body (bytes : Bytes)

/-- {lit}`sicha_cancel`: the environment holds the flag, and anyone may set it. -/
structure CancelToken (σ : Type) where
  flag : σ → Bool

/-- {lit}`sicha_clock`. -/
structure Clock (σ : Type) where
  nowMs : σ → UInt64 × σ
  waitMs : Option (CancelToken σ) → UInt64 → σ → Int × σ

/-- {lit}`sicha_transport`.  The second argument of {lit}`perform` says whether it is
given a sink; without one it drains silently. -/
structure Transport (σ : Type) where
  perform : HttpRequest → Bool → Option (CancelToken σ) → σ →
    Dialogue σ SinkCall Int TransportStatus

/-- A callback that is handed bytes and may stop the call. -/
abbrev DataCallback (σ : Type) := Bytes → σ → Int × σ

/-- {lit}`sicha_callbacks`. -/
structure Callbacks [SizeT] (σ : Type) where
  structSizeOk : Bool
  onDelta : Option (DataCallback σ)
  onReasoning : Option (DataCallback σ)
  onRawChunk : Option (DataCallback σ)
  onAttempt : Option (Attempt → σ → σ)
  validate : Option (Result → σ → Int × σ)

/-- A clock that stands still, and whose waits end at once. -/
def stillClock {σ : Type} : Clock σ where
  nowMs s := (0, s)
  waitMs token _ s := (if token.any fun t => t.flag s then 1 else 0, s)

/-! ## The log -/

/-- What the client does to its environment. -/
inductive Act where
  /-- the cancel poll of the attempt loop -/
  | poll (cancelled : Bool)
  /-- a request handed to the transport, and whether a sink and a token go with it -/
  | perform (rq : HttpRequest) (sink cancel : Bool)
  | onDelta (bytes : Bytes) (rc : Int)
  | onReasoning (bytes : Bytes) (rc : Int)
  | onRawChunk (bytes : Bytes) (rc : Int)
  | validate (rc : Int)
  | onAttempt (a : Attempt)
  | wait (ms : UInt64) (rc : Int)
  /-- text written to the debug log -/
  | debug (text : Bytes)
deriving DecidableEq

/-- An action with the environment before and after it. -/
structure Entry (σ : Type) where
  pre : σ
  act : Act
  post : σ

/-- The environment and what the client has done to it. -/
structure World (σ : Type) where
  env : σ
  log : List (Entry σ)

variable {σ : Type}

/-- Take an action and log it with its answer. -/
def World.act {α : Type} (w : World σ) (f : σ → α × σ) (mk : α → Act) : α × World σ :=
  ((f w.env).1,
    { env := (f w.env).2, log := w.log ++ [⟨w.env, mk (f w.env).1, (f w.env).2⟩] })

/-- Log an action that leaves the environment alone. -/
def World.note (w : World σ) (a : Act) : World σ :=
  { w with log := w.log ++ [⟨w.env, a, w.env⟩] }

/-- Use the environment without an action. -/
def World.quiet {α : Type} (w : World σ) (f : σ → α × σ) : α × World σ :=
  ((f w.env).1, { w with env := (f w.env).2 })

/-- A note appends an entry to the log. -/
@[simp] theorem World.note_log (w : World σ) (a : Act) :
    (w.note a).log = w.log ++ [⟨w.env, a, w.env⟩] := rfl

/-- A note leaves the environment alone. -/
@[simp] theorem World.note_env (w : World σ) (a : Act) : (w.note a).env = w.env := rfl

/-- What is quiet is not logged. -/
@[simp] theorem World.quiet_log {α : Type} (w : World σ) (f : σ → α × σ) :
    (w.quiet f).2.log = w.log := rfl

/-- An act is logged with the environments on its two sides. -/
@[simp] theorem World.act_log {α : Type} (w : World σ) (f : σ → α × σ) (mk : α → Act) :
    (w.act f mk).2.log = w.log ++ [⟨w.env, mk (w.act f mk).1, (w.act f mk).2.env⟩] := rfl

/-! ## The client -/

/-- {lit}`sicha_client`, as {lit}`sicha_client_create` leaves it: a non-empty chain, an
accepted and resolved policy, and caps. -/
structure Client (σ : Type) where
  backends : List Backend
  policy : RetryPolicy
  transport : Transport σ
  clock : Clock σ
  prngSeed : UInt64
  maxResponseBytes : Nat
  maxEventBytes : Nat
  userAgent : Bytes
  /-- a debug log is open -/
  debug : Bool
  backends_ne : backends ≠ []
  policy_valid : policyValidate policy = .ok
  policy_resolved : policyResolve policy = policy
  maxResponse_pos : 0 < maxResponseBytes
  maxEvent_pos : 0 < maxEventBytes

/-- A client tries every backend at least once. -/
theorem Client.maxTries_pos (c : Client σ) : 0 < c.policy.maxTries.toNat := by
  rw [← c.policy_resolved]
  exact policyResolve_maxTries c.policy

/-! ## The debug log -/

/-- {lit}`%.*s`: the precision is converted to {lit}`int`, and a negative one is none. -/
def printfPrec (n : Nat) (s : Bytes) : Bytes :=
  if n % 2 ^ 32 < 2 ^ 31 then (cstr s).take (n % 2 ^ 32) else cstr s

/-- One header in the debug log, its secret redacted. -/
def debugHeader (h : Header) : Bytes :=
  if headerNameEq h.name (ascii "Authorization") then
    ascii "  " ++ h.name ++ ascii ": Bearer ***\n"
  else ascii "  " ++ h.name ++ ascii ": " ++ h.value ++ ascii "\n"

/-- The text of {lit}`debug_request`. -/
def requestText (rq : HttpRequest) : Bytes :=
  ascii "=== sicha request ===\n" ++ rq.method ++ ascii " " ++ rq.url ++ ascii "\n" ++
    rq.headers.flatMap debugHeader ++ printfPrec rq.body.length rq.body ++ ascii "\n"

/-- The text of {lit}`debug_attempt`. -/
def attemptText (a : Attempt) : Bytes :=
  ascii "=== sicha attempt " ++ decimal a.attempt.toNat ++ ascii " (backend " ++
    decimal a.backend.toNat ++ ascii " try " ++ decimal a.tryOfBackend.toNat ++
    ascii ") class=" ++ errorClassStr a.errorClass ++ ascii " transport=" ++
    transportStatusStr a.transportStatus ++ ascii " http=" ++ decimal a.httpStatus ++
    ascii " latency=" ++ decimal a.latencyMs.toUInt32.toNat ++ ascii "ms: " ++ a.message ++
    ascii "\n" ++
    if a.rawBodyExcerpt.length > 0 then
      ascii "  body: " ++ printfPrec a.rawBodyExcerpt.length a.rawBodyExcerpt ++ ascii "\n"
    else []

/-- Write to the debug log, if there is one. -/
def Client.debugLog (c : Client σ) (text : Bytes) (w : World σ) : World σ :=
  if c.debug then w.note (.debug text) else w

end Sicha
