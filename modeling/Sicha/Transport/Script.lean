import Mathlib.Algebra.GroupWithZero.Nat
import Sicha.World

/-!
# The scripted transport

A translation of {lit}`transport_script.c`: the sections that hold its mutex, the waits within
deadlines, and a perform.

The loop of a wait ends only if the clock goes on, so it runs on fuel; {lit}`none` is the end of
the fuel.

Main results:

- Definitions {lit}`scriptEnter` and {lit}`scriptPush`: the two sections.
- Definition {lit}`scriptPerform`: a perform.
-/

namespace Sicha

/-! ## The state -/

/-- {lit}`SICHA_MAX_HEADERS`. -/
def maxHeaders : Nat := 256

/-- {lit}`SICHA_MAX_HEADER_BYTES`. -/
def maxHeaderBytes : Nat := 16 * 1024

/-- {lit}`SICHA_MAX_HEADERS_TOTAL_BYTES`. -/
def maxHeadersTotalBytes : Nat := 64 * 1024

/-- {lit}`sicha_script_response`, as the transport keeps it: a deep copy. -/
structure ScriptResponse where
  /-- {lit}`SICHA_T_OK`: deliver the response below; else fail with it -/
  status : TransportStatus
  httpStatus : Int
  headers : List Header
  body : Bytes
  /-- split the body every N bytes; 0 = one single write -/
  chunkSize : Nat
  connectDelayMs : UInt64
  firstByteDelayMs : UInt64
  perChunkDelayMs : UInt64
  /-- only when {lit}`status` is not {lit}`SICHA_T_OK` -/
  failAfterBytes : Nat
deriving DecidableEq

/-- {lit}`script_call`: a recorded call. -/
structure ScriptCall where
  url : Bytes
  body : Bytes
  headers : List Header
deriving DecidableEq

/-- {lit}`script_state`, what its mutex guards. -/
structure ScriptState where
  queue : List ScriptResponse
  qCap : Nat
  calls : List ScriptCall
  cCap : Nat

/-- {lit}`sicha_script_create`. -/
def scriptInit : ScriptState where
  queue := []
  qCap := 0
  calls := []
  cCap := 0

section Sections

variable {w : Type}

/-- A copy of a string or of bytes with a NUL. -/
def dupBytes (H : Heap w) (bytes : Bytes) (s : w) : Bool × w :=
  H.alloc (bytes.length + 1) s

/-- The loop of {lit}`headers_deep_copy`: a NULL pointer is copied as the empty string. -/
def headersCopy (H : Heap w) : List HeaderRef → w → Option (List Header) × w
  | [], s => (some [], s)
  | h :: hs, s =>
      let name := dupBytes H (h.name.getD []) s
      let value := dupBytes H (h.value.getD []) name.2
      if name.1 && value.1 then
        let rest := headersCopy H hs value.2
        (rest.1.map (⟨h.name.getD [], h.value.getD []⟩ :: ·), rest.2)
      else (none, value.2)

/-- {lit}`headers_deep_copy`: no headers still take a sentinel. -/
def headersDeepCopy (H : Heap w) (hs : List HeaderRef) (s : w) : Option (List Header) × w :=
  let array := H.alloc (max hs.length 1) s
  if array.1 then headersCopy H hs array.2 else (none, array.2)

/-- The capacity an array of calls or responses grows to. -/
def scriptGrow (cap : Nat) : Nat :=
  if cap = 0 then 8 else cap * 2

/-- The array has room for one more, or is given it.  The answer is the new capacity. -/
def scriptRoom (H : Heap w) (len cap : Nat) (s : w) : Option Nat × w :=
  if len = cap then
    let grown := H.alloc (scriptGrow cap) s
    (if grown.1 then some (scriptGrow cap) else none, grown.2)
  else (some cap, s)

/-! ## The section of a perform -/

/-- The record of a request. -/
def scriptCallOf (rq : HttpRequest) : ScriptCall where
  url := rq.url
  body := rq.body
  headers := rq.headers

/-- A header as foreign code sees it. -/
def Header.ref (h : Header) : HeaderRef :=
  ⟨some h.name, some h.value⟩

/-- The copies of a record: the URL, the body and the headers are all asked for. -/
def scriptCopyCall (H : Heap w) (rq : HttpRequest) (s : w) : Option ScriptCall × w :=
  let url := dupBytes H rq.url s
  let body := dupBytes H rq.body url.2
  let headers := headersDeepCopy H (rq.headers.map Header.ref) body.2
  (if url.1 && body.1 then headers.1.map fun hs => ⟨rq.url, rq.body, hs⟩ else none, headers.2)

/-- How a perform leaves its section. -/
inductive Entered where
  /-- the call was not recorded -/
  | nomem
  /-- recorded, and the queue was empty -/
  | empty
  /-- recorded, with the response it took -/
  | took (resp : ScriptResponse)
deriving DecidableEq

/-- "Record the call and pop the next scripted response": the section of
{lit}`script_perform`. -/
def scriptEnter (H : Heap w) (rq : HttpRequest) (st : ScriptState) (s : w) :
    Entered × ScriptState × w :=
  match scriptRoom H st.calls.length st.cCap s with
  | (none, s) => (.nomem, st, s)
  | (some cap, s) =>
      match scriptCopyCall H rq s with
      | (none, s) => (.nomem, { st with cCap := cap }, s)
      | (some call, s) =>
          let st := { st with cCap := cap, calls := st.calls ++ [call] }
          match st.queue with
          | [] => (.empty, st, s)
          | resp :: queue => (.took resp, { st with queue := queue }, s)

/-! ## A push -/

/-- What {lit}`sicha_script_push` is given. -/
structure ScriptDesc where
  structSizeOk : Bool
  status : TransportStatus
  httpStatus : Int
  headers : Span HeaderRef
  /-- {lit}`none` = NULL -/
  body : Option Bytes
  /-- {lit}`SICHA_LEN_CSTR` stands for the length -/
  bodyIsCstr : Bool
  chunkSize : Nat
  connectDelayMs : UInt64
  firstByteDelayMs : UInt64
  perChunkDelayMs : UInt64
  failAfterBytes : Nat

/-- The bytes of a header, as the caps count them. -/
def headerBytes (h : HeaderRef) : Nat :=
  (h.name.getD []).length + (h.value.getD []).length

/-- The checks of {lit}`sicha_script_push`. -/
def scriptDescOk (r : ScriptDesc) : Bool :=
  r.structSizeOk && !r.headers.dangling && r.headers.items.length ≤ maxHeaders &&
    r.headers.items.all (fun h => headerBytes h ≤ maxHeaderBytes) &&
    (r.headers.items.map headerBytes).sum ≤ maxHeadersTotalBytes

/-- The body of a pushed response. -/
def scriptDescBody (r : ScriptDesc) : Bytes :=
  let body := r.body.getD []
  if r.bodyIsCstr then cstr body else body

/-- The part of {lit}`sicha_script_push` before the section: the checks and the deep copy. -/
def scriptCopy (H : Heap w) (r : ScriptDesc) (s : w) : Except Status ScriptResponse × w :=
  if scriptDescOk r = false then (.error .invalidArg, s)
  else
    let body := dupBytes H (scriptDescBody r) s
    let headers := headersDeepCopy H r.headers.items body.2
    match body.1, headers.1 with
    | true, some hs =>
        (.ok
          { status := r.status
            httpStatus := r.httpStatus
            headers := hs
            body := scriptDescBody r
            chunkSize := r.chunkSize
            connectDelayMs := r.connectDelayMs
            firstByteDelayMs := r.firstByteDelayMs
            perChunkDelayMs := r.perChunkDelayMs
            failAfterBytes := r.failAfterBytes }, headers.2)
    | _, _ => (.error .nomem, headers.2)

/-- The section of {lit}`sicha_script_push`. -/
def scriptPush (H : Heap w) (copy : ScriptResponse) (st : ScriptState) (s : w) :
    Status × ScriptState × w :=
  match scriptRoom H st.queue.length st.qCap s with
  | (none, s) => (.nomem, st, s)
  | (some cap, s) => (.ok, { st with qCap := cap, queue := st.queue ++ [copy] }, s)

end Sections

/-! ## Waits within deadlines -/

/-- {lit}`abs_deadline`. -/
def absDeadline (start : UInt64) (budgetMs : UInt32) : UInt64 :=
  if budgetMs = disabled then uint64Max else addSat start budgetMs.toUInt64

/-- A deadline with the status of its timeout. -/
structure Deadline where
  at_ : UInt64
  status : TransportStatus

/-- One round of the loop in {lit}`delay_within` after the poll of the token: it ends the wait, or
waits for some time. -/
def delayRound (now target : UInt64) (a b : Deadline) : TransportStatus ⊕ UInt64 :=
  if now ≥ a.at_ then .inl a.status
  else if now ≥ b.at_ then .inl b.status
  else if now ≥ target then .inl .ok
  else
    let until_ := if a.at_ < target then a.at_ else target
    let until_ := if b.at_ < until_ then b.at_ else until_
    .inr (if until_ - now > 100 then 100 else until_ - now)

section Perform

variable {σ : Type}

/-- {lit}`cancel != NULL && sicha_cancel_is_cancelled(cancel)`. -/
def cancelledNow (cancel : Option (CancelToken σ)) (s : σ) : Bool :=
  cancel.elim false fun token => token.flag s

/-- The loop of {lit}`delay_within`. -/
def delayLoop (ck : Clock σ) (cancel : Option (CancelToken σ)) (target : UInt64)
    (a b : Deadline) : Nat → σ → Option TransportStatus × σ
  | 0, s => (none, s)
  | fuel + 1, s =>
      let now := ck.nowMs s
      if cancelledNow cancel now.2 then (some .cancelled, now.2)
      else
        match delayRound now.1 target a b with
        | .inl st => (some st, now.2)
        | .inr chunk =>
            let waited := ck.waitMs cancel chunk now.2
            if waited.1 ≠ 0 then (some .cancelled, waited.2)
            else delayLoop ck cancel target a b fuel waited.2

/-- {lit}`delay_within`. -/
def delayWithin (ck : Clock σ) (cancel : Option (CancelToken σ)) (fuel : Nat)
    (delayMs : UInt64) (a b : Deadline) (s : σ) : Option TransportStatus × σ :=
  let start := ck.nowMs s
  delayLoop ck cancel (addSat start.1 delayMs) a b fuel start.2

/-! ## A perform -/

/-- The pieces of a body, of {lit}`chunkSize` bytes each; 0 is one piece. -/
def bodyPieces (chunkSize : Nat) : Nat → Bytes → List Bytes
  | 0, _ => []
  | _ + 1, [] => []
  | rounds + 1, bytes =>
      let n := if chunkSize = 0 then bytes.length else min chunkSize bytes.length
      bytes.take n :: bodyPieces chunkSize rounds (bytes.drop n)

/-- The bytes of the body that are delivered. -/
def ScriptResponse.delivered (resp : ScriptResponse) : Bytes :=
  if resp.status ≠ .ok then resp.body.take resp.failAfterBytes else resp.body

/-- The pieces in which they are delivered. -/
def ScriptResponse.pieces (resp : ScriptResponse) : List Bytes :=
  bodyPieces resp.chunkSize resp.delivered.length resp.delivered

variable (ck : Clock σ) (cancel : Option (CancelToken σ)) (fuel : Nat) (sink : Bool)
  (rq : HttpRequest) (resp : ScriptResponse) (total : Deadline)

/-- The body loop of {lit}`script_perform`. -/
def scriptBody : List Bytes → σ → Dialogue σ SinkCall Int (Option TransportStatus)
  | [], s => .done (some resp.status) s
  | piece :: pieces, s =>
      let start := ck.nowMs s
      let idle : Deadline := ⟨absDeadline start.1 rq.timeouts.idleMs, .timeoutIdle⟩
      match delayWithin ck cancel fuel resp.perChunkDelayMs idle total start.2 with
      | (some .ok, s) =>
          if sink then
            .ask (.body piece) s fun rc s =>
              if rc ≠ 0 then .done (some .abortedBySink) s else scriptBody pieces s
          else scriptBody pieces s
      | (st, s) => .done st s

/-- {lit}`script_perform` from the wait for the status line on. -/
def scriptRespond (start : UInt64) (s : σ) :
    Dialogue σ SinkCall Int (Option TransportStatus) :=
  let first : Deadline := ⟨absDeadline start rq.timeouts.firstByteMs, .timeoutFirstByte⟩
  match delayWithin ck cancel fuel resp.firstByteDelayMs first total s with
  | (some .ok, s) =>
      if sink then
        .ask (.status resp.httpStatus (resp.headers.map Header.ref)) s fun rc s =>
          if rc ≠ 0 then .done (some .abortedBySink) s
          else scriptBody ck cancel fuel sink rq resp total resp.pieces s
      else scriptBody ck cancel fuel sink rq resp total resp.pieces s
  | (st, s) => .done st s

omit total in
/-- {lit}`script_perform` behind its section, with the response it took. -/
def scriptRun (s : σ) : Dialogue σ SinkCall Int (Option TransportStatus) :=
  let start := ck.nowMs s
  let total : Deadline := ⟨absDeadline start.1 rq.timeouts.totalMs, .timeoutTotal⟩
  let connect : Deadline := ⟨absDeadline start.1 rq.timeouts.connectMs, .timeoutConnect⟩
  match delayWithin ck cancel fuel resp.connectDelayMs connect total start.2 with
  | (some .ok, s) =>
      -- pure transport failure before any HTTP
      if resp.status ≠ .ok ∧ resp.failAfterBytes = 0 then .done (some resp.status) s
      else scriptRespond ck cancel fuel sink rq resp total start.1 s
  | (st, s) => .done st s

end Perform

/-- {lit}`script_perform`, next to an environment. -/
def scriptPerform {σ : Type} (H : Heap σ) (ck : Clock (ScriptState × σ))
    (cancel : Option (CancelToken (ScriptState × σ))) (fuel : Nat) (sink : Bool)
    (rq : HttpRequest) (s : ScriptState × σ) :
    Dialogue (ScriptState × σ) SinkCall Int (Option TransportStatus) :=
  match scriptEnter H rq s.1 s.2 with
  | (.nomem, s) => .done (some .nomem) s
  | (.empty, s) => .done (some .connect) s
  | (.took resp, s) => scriptRun ck cancel fuel sink rq resp s

end Sicha
