import Sicha.Lib.Relay
import Sicha.Transport.Curl

/-!
# A perform of the curl transport

A translation of {lit}`curl_perform` around libcurl, which is foreign code: it calls the two
callbacks while {lit}`curl_multi_perform` runs, tells what has become of a transfer, and sleeps.

The loop ends only if libcurl or the clock go on, so it runs on fuel; {lit}`none` is the end of
the fuel.

Main results:

- Definition {lit}`Libcurl`: what is called of libcurl.
- Definitions {lit}`headerDialogue` and {lit}`writeCb`: the callbacks, as they call the sink.
- Theorem {lit}`headerDialogue_run`: the first is the header callback.
- Definition {lit}`curlPerform`: a perform.
-/

namespace Sicha

/-! ## libcurl -/

/-- {lit}`CURLcode`, as far as {lit}`map_curl_code` tells the codes apart. -/
inductive CurlCode where
  | ok
  | couldntResolveHost
  | couldntResolveProxy
  | couldntConnect
  | operationTimedout
  | peerFailedVerification
  | sslConnectError
  | sslCertproblem
  | sslCipher
  | sslCacertBadfile
  | sslIssuerError
  | sendError
  | recvError
  | partialFile
  | gotNothing
  | http2
  | http2Stream
  | writeError
  | outOfMemory
  | other
deriving DecidableEq

/-- {lit}`CURLMcode`, as far as {lit}`curl_perform` tells the codes apart. -/
inductive CurlMCode where
  | ok
  | outOfMemory
  | other
deriving DecidableEq

/-- What libcurl calls. -/
inductive CurlCall where
  /-- {lit}`header_cb`, with one line -/
  | header (line : Bytes)
  /-- {lit}`write_cb` -/
  | body (bytes : Bytes)

/-- The bytes of a call. -/
def CurlCall.bytes : CurlCall → Bytes
  | .header line => line
  | .body bytes => bytes

/-- The options of a transfer.  The rest of them are constants. -/
structure CurlSetup where
  /-- {lit}`CURLOPT_URL` -/
  url : Bytes
  /-- {lit}`CURLOPT_POSTFIELDS` -/
  body : Bytes
  /-- {lit}`CURLOPT_CONNECTTIMEOUT_MS`, if it is set -/
  connectTimeoutMs : Option UInt32
  /-- {lit}`CURLOPT_HTTPHEADER` -/
  headers : List Bytes
deriving DecidableEq

/-- What {lit}`curl_perform` calls of libcurl, with the handles of a slot. -/
structure Libcurl (α σ : Type) where
  /-- {lit}`curl_slist_append`: false is NULL -/
  slistAppend : Bytes → σ → Bool × σ
  /-- {lit}`curl_multi_add_handle`: false is not {lit}`CURLM_OK` -/
  addHandle : CurlSlot α → CurlSetup → σ → Bool × σ
  /-- {lit}`curl_multi_perform`, and whether transfers are running -/
  perform : CurlSlot α → σ → Dialogue σ CurlCall Nat (CurlMCode × Bool)
  /-- {lit}`curl_multi_info_read`: the result of {lit}`CURLMSG_DONE` -/
  infoRead : CurlSlot α → σ → Option CurlCode × σ
  /-- {lit}`curl_multi_poll` -/
  poll : CurlSlot α → σ → σ
  /-- {lit}`curl_multi_remove_handle` -/
  removeHandle : CurlSlot α → σ → σ
  /-- {lit}`curl_easy_cleanup` and {lit}`curl_multi_cleanup` -/
  cleanup : CurlSlot α → σ → σ

/-- {lit}`map_curl_code`. -/
def mapCurlCode (rc : CurlCode) (x : Xfer) (elapsedMs : UInt64) (connectBudgetMs : UInt32) :
    TransportStatus :=
  if x.oom then .nomem
  else if x.capsExceeded then .protocol
  else if x.sinkAborted then .abortedBySink
  else
    match rc with
    | .ok => if x.statusDelivered then .ok else .reset -- closed before any status
    | .couldntResolveHost | .couldntResolveProxy | .couldntConnect => .connect
    | .operationTimedout =>
        -- only the connect timeout is delegated to curl
        if x.statusDelivered = false ∧ connectBudgetMs ≠ disabled ∧
            elapsedMs + 50 ≥ connectBudgetMs.toUInt64 then .timeoutConnect
        else .other
    | .peerFailedVerification | .sslConnectError | .sslCertproblem | .sslCipher
    | .sslCacertBadfile | .sslIssuerError => .tls
    | .sendError | .recvError | .partialFile | .gotNothing | .http2 | .http2Stream => .reset
    | .writeError => .other
    | .outOfMemory => .nomem
    | .other => .other

/-! ## The callbacks -/

section Callbacks

variable {σ : Type} (H : Heap σ) (ck : Clock σ) (sink : Bool)

/-- What {lit}`xfer_finish_headers` does: the sink, if there is one, is told the final block. -/
def finishHeaders (len : Nat) (x : Xfer) (s : σ) : Dialogue σ SinkCall Int (Nat × Xfer) :=
  if isInterim x.httpStatus then .done (len, x.freeHeaders) s
  else
    let x := { x with statusDelivered := true }
    if sink then
      .ask (.status x.httpStatus (x.headers.map Header.ref)) s fun rc s =>
        if rc ≠ 0 then .done (0, { x with sinkAborted := true }) s else .done (len, x) s
    else .done (len, x) s

/-- {lit}`header_cb`, as it calls the sink. -/
def headerDialogue (line : Bytes) (x : Xfer) (s : σ) : Dialogue σ SinkCall Int (Nat × Xfer) :=
  let now := ck.nowMs s
  let x := { x with lastActivityMs := now.1 }
  if x.statusDelivered then .done (line.length, x) now.2
  else if ascii "HTTP/" <+: line then
    .done (line.length, { x with httpStatus := statusCode line }.freeHeaders) now.2
  else if line = [chCR, chLF] ∨ line = [chLF] then finishHeaders sink line.length x now.2
  else
    let field := headerCbField H line x now.2
    .done (field.1, field.2.1) field.2.2

/-- {lit}`write_cb`. -/
def writeCb (bytes : Bytes) (x : Xfer) (s : σ) : Dialogue σ SinkCall Int (Nat × Xfer) :=
  let now := ck.nowMs s
  let x := { x with lastActivityMs := now.1 }
  if sink then
    .ask (.body bytes) now.2 fun rc s =>
      if rc ≠ 0 then .done (0, { x with sinkAborted := true }) s
      else .done (bytes.length, x) s
  else .done (bytes.length, x) now.2

/-- The callbacks. -/
def curlCallback : CurlCall → Xfer → σ → Dialogue σ SinkCall Int (Nat × Xfer)
  | .header line => headerDialogue H ck sink line
  | .body bytes => writeCb ck sink bytes

/-- A sink that is only asked for the status. -/
def OnStatus.handler (onStatus : OnStatus σ) (q : SinkCall) (i : Unit) (s : σ) :
    Int × Unit × σ :=
  match q with
  | .status httpStatus headers =>
      let r := onStatus httpStatus (headers.map fun h => ⟨h.name.getD [], h.value.getD []⟩) s
      (r.1, i, r.2)
  | .body _ => (0, i, s)

/-- References to headers refer to those headers. -/
theorem refs_headers (hs : List Header) :
    ((hs.map Header.ref).map fun h => (⟨h.name.getD [], h.value.getD []⟩ : Header)) = hs := by
  rw [List.map_map]
  exact List.map_id'' (fun _ => rfl) hs

/-- The end of the headers, with the status callback called in place. -/
theorem finishHeaders_run (onStatus : Option (OnStatus σ)) (len : Nat) (x : Xfer) (s : σ) :
    let f := onStatus.getD fun _ _ s => (0, s)
    let e := (finishHeaders onStatus.isSome len x s).run f.handler ()
    let r := xferFinishHeaders onStatus x s
    (if r.1 ≠ 0 then 0 else len, r.2) = (e.1.1, e.1.2, e.2.2) := by
  unfold xferFinishHeaders finishHeaders
  by_cases hinterim : isInterim x.httpStatus = true
  · simp [hinterim, Dialogue.run]
  · cases onStatus with
    | none => simp [hinterim, Dialogue.run]
    | some f =>
        by_cases hrc : (f x.httpStatus x.headers s).1 = 0 <;>
          simp [hinterim, Dialogue.run, OnStatus.handler, refs_headers, hrc, -List.map_map]

/-- The callback as it calls the sink is the header callback. -/
theorem headerDialogue_run (onStatus : Option (OnStatus σ)) (line : Bytes) (x : Xfer) (s : σ) :
    let f := onStatus.getD fun _ _ s => (0, s)
    let e := (headerDialogue H ck onStatus.isSome line x s).run f.handler ()
    headerCb H ck onStatus line x s = (e.1.1, e.1.2, e.2.2) := by
  unfold headerCb headerDialogue
  dsimp only
  by_cases hdelivered : x.statusDelivered = true
  · simp only [if_pos hdelivered, Dialogue.run]
  by_cases hstatus : ascii "HTTP/" <+: line
  · simp only [if_neg hdelivered, if_pos hstatus, Dialogue.run]
  by_cases hblank : line = [chCR, chLF] ∨ line = [chLF]
  · simp only [if_neg hdelivered, if_neg hstatus, if_pos hblank]
    exact finishHeaders_run onStatus _ _ _
  · simp only [if_neg hdelivered, if_neg hstatus, if_neg hblank, Dialogue.run]

end Callbacks

/-! ## The loop -/

section Loop

variable {α σ : Type} (L : Libcurl α σ) (H : Heap σ) (ck : Clock σ)
  (cancel : Option (CancelToken σ)) (sink : Bool) (rq : HttpRequest) (slot : CurlSlot α)

/-- {lit}`curl_multi_perform` with the callbacks. -/
def curlPump (x : Xfer) (s : σ) : Dialogue σ SinkCall Int ((CurlMCode × Bool) × Xfer) :=
  (L.perform slot s).relay (curlCallback H ck sink) x

/-- What {lit}`curl_perform` does behind {lit}`curl_multi_perform`: it leaves the loop, or goes round
again, with a poll if transfers are running. -/
def curlDecide (start : UInt64) (code : CurlMCode) (running : Bool) (x : Xfer) (s : σ) :
    (TransportStatus ⊕ Bool) × σ :=
  match code with
  | .outOfMemory => (.inl .nomem, s)
  | .other => (.inl .other, s)
  | .ok =>
      match L.infoRead slot s with
      | (some rc, s) =>
          let now := ck.nowMs s
          (.inl (mapCurlCode rc x (now.1 - start) rq.timeouts.connectMs), now.2)
      | (none, s) =>
          if running then
            let now := ck.nowMs s
            match curlCheck x (cancelledNow cancel now.2) now.1 start rq.timeouts with
            | some st => (.inl st, now.2)
            | none => (.inr true, now.2)
          else (.inr false, s) -- settle on the next info_read pass

/-- The loop of {lit}`curl_perform`. -/
def curlLoop (start : UInt64) :
    Nat → Xfer → σ → Dialogue σ SinkCall Int (Option TransportStatus)
  | 0, _, s => .done none s
  | fuel + 1, x, s =>
      (curlPump L H ck sink slot x s).bind fun o s =>
        match curlDecide L ck cancel rq slot start o.1.1 o.1.2 o.2 s with
        | (.inl st, s) => .done (some st) s
        | (.inr poll, s) => curlLoop start fuel o.2 (if poll then L.poll slot s else s)

/-- {lit}`"Name: value"`. -/
def curlHeaderLine (h : Header) : Bytes :=
  h.name ++ ascii ": " ++ h.value

/-- The list of header lines; the last one suppresses delays of a POST. -/
def curlHeaders : List Header → List Bytes → σ → Option (List Bytes) × σ
  | [], lines, s =>
      let next := L.slistAppend (ascii "Expect:") s
      (if next.1 then some (lines ++ [ascii "Expect:"]) else none, next.2)
  | h :: hs, lines, s =>
      let line := H.alloc (h.name.length + h.value.length + 3) s
      if line.1 then
        let next := L.slistAppend (curlHeaderLine h) line.2
        if next.1 then curlHeaders hs (lines ++ [curlHeaderLine h]) next.2 else (none, next.2)
      else (none, line.2)

/-- The options of a request. -/
def curlSetup (lines : List Bytes) : CurlSetup where
  url := rq.url
  body := rq.body
  connectTimeoutMs := if rq.timeouts.connectMs ≠ disabled then some rq.timeouts.connectMs else none
  headers := lines

/-- {lit}`curl_perform` up to its label {lit}`out_headers`. -/
def curlTransfer (fuel : Nat) (s : σ) : Dialogue σ SinkCall Int (Option TransportStatus) :=
  match curlHeaders L H rq.headers [] s with
  | (none, s) => .done (some .nomem) s
  | (some lines, s) =>
      let added := L.addHandle slot (curlSetup rq lines) s
      if added.1 then
        let start := ck.nowMs added.2
        curlLoop L H ck cancel sink rq slot start.1 fuel
          { xferInit with lastActivityMs := start.1 } start.2
      else .done (some .other) added.2

end Loop

/-! ## A perform -/

/-- {lit}`curl_perform`, next to an environment.  On every path the handle is removed, and the slot
given back or the transient handles cleaned up. -/
def curlPerform {α σ : Type} (C : CurlInit α σ) (L : Libcurl α (CurlPool α × σ))
    (H : Heap (CurlPool α × σ)) (ck : Clock (CurlPool α × σ))
    (cancel : Option (CancelToken (CurlPool α × σ))) (fuel : Nat) (sink : Bool)
    (rq : HttpRequest) (s : CurlPool α × σ) :
    Dialogue (CurlPool α × σ) SinkCall Int (Option TransportStatus) :=
  match slotScan C s.1 s.2 with
  | (.nomem, s) => .done (some .nomem) s
  | (.slot i copy, s) =>
      (curlTransfer L H ck cancel sink rq copy fuel s).bind fun r s =>
        let s := L.removeHandle copy s
        .done r (slotRelease s.1 i, s.2)
  | (.saturated, s) =>
      match slotTransient C s.2 with
      | (none, v) => .done (some .nomem) (s.1, v)
      | (some copy, v) =>
          (curlTransfer L H ck cancel sink rq copy fuel (s.1, v)).bind fun r s =>
            .done r (L.cleanup copy (L.removeHandle copy s))

end Sicha
