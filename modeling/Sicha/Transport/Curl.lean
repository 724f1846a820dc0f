import Sicha.Sse
import Sicha.Transport.Script

/-!
# The curl transport

A translation of the parts of {lit}`transport_curl.c` that decide something: the header callback,
the deadline checks of a perform, and the pool of handles.  What libcurl does is foreign code.

Main results:

- Definition {lit}`headerCb`: the header callback.
- Definition {lit}`curlCheck`: the checks that end a transfer.
- Definitions {lit}`slotScan`, {lit}`slotTransient` and {lit}`slotRelease`: the pool.
-/

namespace Sicha

/-! ## Per-transfer context -/

/-- {lit}`xfer`, without its pointers. -/
structure Xfer where
  headers : List Header
  headerBytes : Nat
  httpStatus : Int
  /-- {lit}`on_status` already fired -/
  statusDelivered : Bool
  /-- a sink callback returned nonzero -/
  sinkAborted : Bool
  capsExceeded : Bool
  oom : Bool
  lastActivityMs : UInt64

/-- The zeroed context. -/
def xferInit : Xfer where
  headers := []
  headerBytes := 0
  httpStatus := 0
  statusDelivered := false
  sinkAborted := false
  capsExceeded := false
  oom := false
  lastActivityMs := 0

/-- {lit}`xfer_free_headers`. -/
def Xfer.freeHeaders (x : Xfer) : Xfer :=
  { x with headers := [], headerBytes := 0 }

/-- {lit}`on_status` of the sink; {lit}`none` without a sink or without the callback. -/
abbrev OnStatus (σ : Type) := Int → List Header → σ → Int × σ

section Headers

variable {σ : Type}

/-- An interim response. -/
def isInterim (httpStatus : Int) : Bool :=
  httpStatus ≥ 100 && httpStatus ≤ 199

/-- {lit}`xfer_finish_headers`. -/
def xferFinishHeaders (onStatus : Option (OnStatus σ)) (x : Xfer) (s : σ) : Int × Xfer × σ :=
  if isInterim x.httpStatus then (0, x.freeHeaders, s)
  else
    let x := { x with statusDelivered := true }
    match onStatus with
    | none => (0, x, s)
    | some f =>
        let r := f x.httpStatus x.headers s
        if r.1 ≠ 0 then (1, { x with sinkAborted := true }, r.2) else (0, x, r.2)

/-- The digits of the status code: those behind the first space. -/
def statusDigits (line : Bytes) : Bytes :=
  ((line.dropWhile (· != chSpace)).drop 1).takeWhile isDigit

/-- The status code of a status line. -/
def statusCode (line : Bytes) : Int :=
  (statusDigits line).foldl (fun code ch => code * 10 + (ch.toNat - 48)) 0

/-- {lit}`'\t'`. -/
def chTab : UInt8 := 9

/-- Whitespace before a value. -/
def isBlank (ch : UInt8) : Bool :=
  ch == chSpace || ch == chTab

/-- Whitespace behind a value. -/
def isTrailing (ch : UInt8) : Bool :=
  ch == chCR || ch == chLF || ch == chSpace || ch == chTab

/-- A header field line, split at the first colon; {lit}`none` without one. -/
def headerField (line : Bytes) : Option Header :=
  if chColon ∈ line then
    some
      { name := line.takeWhile (· != chColon)
        value := (((line.dropWhile (· != chColon)).drop 1).dropWhile isBlank).rdropWhile isTrailing }
  else none

/-- The caps of {lit}`header_cb` are exceeded by one more field line. -/
def headerOverCap (x : Xfer) (len : Nat) : Bool :=
  x.headers.length ≥ maxHeaders || len > maxHeaderBytes ||
    x.headerBytes + len > maxHeadersTotalBytes

/-- {lit}`header_cb` of a field line.  The first component is what it returns: the length, or 0 to
abort. -/
def headerCbField (H : Heap σ) (line : Bytes) (x : Xfer) (s : σ) : Nat × Xfer × σ :=
  match headerField line with
  | none => (line.length, x, s) -- folded or garbage line
  | some h =>
      if headerOverCap x line.length then (0, { x with capsExceeded := true }, s)
      else
        let name := dupBytes H h.name s
        let value := dupBytes H h.value name.2
        if name.1 && value.1 then
          (line.length,
            { x with headers := x.headers ++ [h], headerBytes := x.headerBytes + line.length },
            value.2)
        else (0, { x with oom := true }, value.2)

/-- {lit}`header_cb`: libcurl passes one complete header line. -/
def headerCb (H : Heap σ) (ck : Clock σ) (onStatus : Option (OnStatus σ)) (line : Bytes)
    (x : Xfer) (s : σ) : Nat × Xfer × σ :=
  let now := ck.nowMs s
  let x := { x with lastActivityMs := now.1 }
  if x.statusDelivered then (line.length, x, now.2) -- trailers after the body
  else if ascii "HTTP/" <+: line then
    (line.length, { x with httpStatus := statusCode line }.freeHeaders, now.2)
  else if line = [chCR, chLF] ∨ line = [chLF] then
    let r := xferFinishHeaders onStatus x now.2
    (if r.1 ≠ 0 then 0 else line.length, r.2)
  else headerCbField H line x now.2

end Headers

/-! ## Deadlines -/

/-- "Sicha-owned deadlines": the timeout a running transfer has reached. -/
def curlTimeout (delivered : Bool) (last now start : UInt64) (t : Timeouts) :
    Option TransportStatus :=
  if t.totalMs ≠ disabled ∧ now - start ≥ t.totalMs.toUInt64 then some .timeoutTotal
  else if delivered = false ∧ t.firstByteMs ≠ disabled ∧ now - start ≥ t.firstByteMs.toUInt64 then
    some .timeoutFirstByte
  else if delivered = true ∧ t.idleMs ≠ disabled ∧ now - last ≥ t.idleMs.toUInt64 then
    some .timeoutIdle
  else none

/-- All checks of {lit}`curl_perform` between two polls. -/
def curlCheck (x : Xfer) (cancelled : Bool) (now start : UInt64) (t : Timeouts) :
    Option TransportStatus :=
  if cancelled then some .cancelled
  else if x.oom then some .nomem
  else if x.capsExceeded then some .protocol
  else if x.sinkAborted then some .abortedBySink
  else curlTimeout x.statusDelivered x.lastActivityMs now start t

/-! ## Slot pool -/

/-- {lit}`CURL_POOL_CAP`. -/
def curlPoolCap : Nat := 8

/-- {lit}`curl_slot`, with NULL for a handle that is not there. -/
structure CurlSlot (α : Type) where
  easy : Option α
  multi : Option α
  inUse : Bool

/-- {lit}`curl_easy_init` and {lit}`curl_multi_init`: either may fail. -/
structure CurlInit (α σ : Type) where
  easy : σ → Option α × σ
  multi : σ → Option α × σ

/-- The pool. -/
abbrev CurlPool (α : Type) := Fin curlPoolCap → CurlSlot α

/-- How the scan of {lit}`slot_acquire` leaves the mutex. -/
inductive Scanned (α : Type) where
  /-- a slot of the pool and a copy of it -/
  | slot (i : Fin curlPoolCap) (copy : CurlSlot α)
  /-- -2 -/
  | nomem
  /-- no slot is free -/
  | saturated

section Pool

variable {α σ : Type}

/-- The first slot with a property. -/
def firstSlot (pool : CurlPool α) (ok : CurlSlot α → Bool) : Option (Fin curlPoolCap) :=
  (List.finRange curlPoolCap).find? fun i => ok (pool i)

/-- A pair of new handles: both, or neither, what was made being cleaned up. -/
def newHandles (C : CurlInit α σ) (s : σ) : Option (α × α) × σ :=
  let easy := C.easy s
  let multi := C.multi easy.2
  match easy.1, multi.1 with
  | some e, some m => (some (e, m), multi.2)
  | _, _ => (none, multi.2)

/-- The slot that holds new handles. -/
def heldSlot (handles : α × α) : CurlSlot α :=
  ⟨some handles.1, some handles.2, true⟩

/-- The part of {lit}`slot_acquire` under the mutex: a warm slot, or a new one. -/
def slotScan (C : CurlInit α σ) (pool : CurlPool α) (s : σ) : Scanned α × CurlPool α × σ :=
  match firstSlot pool fun slot => !slot.inUse && slot.easy.isSome with
  | some i =>
      let slot := { pool i with inUse := true }
      (.slot i slot, Function.update pool i slot, s)
  | none =>
      match firstSlot pool fun slot => !slot.inUse && slot.easy.isNone with
      | some i =>
          match newHandles C s with
          | (none, s) =>
              (.nomem, Function.update pool i { pool i with easy := none, multi := none }, s)
          | (some handles, s) =>
              (.slot i (heldSlot handles), Function.update pool i (heldSlot handles), s)
      | none => (.saturated, pool, s)

/-- The part of {lit}`slot_acquire` behind the mutex: transient handles, or -2. -/
def slotTransient (C : CurlInit α σ) (s : σ) : Option (CurlSlot α) × σ :=
  let handles := newHandles C s
  (handles.1.map heldSlot, handles.2)

/-- {lit}`slot_release` of a slot of the pool. -/
def slotRelease (pool : CurlPool α) (i : Fin curlPoolCap) : CurlPool α :=
  Function.update pool i { pool i with inUse := false }

end Pool

end Sicha
