import Sicha.Lib.Owned
import Sicha.Request.Backend

/-!
# The memory of a request

The programs of {lit}`request.c` as they allocate and release: every string, every array and every
parsed text is a block.

Main results:

- Theorems {lit}`buildHeaders_owns` and {lit}`backendInit_owns`: what the headers of a request and a
  backend own, and that a failure leaves nothing.
- Theorems {lit}`headersFree_owns` and {lit}`backendFree_owns`: their release.
- Theorems {lit}`buildHeaders_tells` and {lit}`backendInit_tells`: without the memory, the programs
  are those of the model.
-/

namespace Sicha

namespace InMemory

open Mem

variable {w : Type}

/-! ## Strings -/

/-- {lit}`dup_cstr`. -/
def dupCstr (H : Heap w) (s : Bytes) : Mem w (Ptr Bytes) :=
  alloc (H.alloc (s.length + 1)) s

/-- {lit}`sicha_url_join`. -/
def urlJoin (H : Heap w) (baseUrl path : Bytes) : Mem w (Ptr Bytes) :=
  let out := Sicha.urlJoin baseUrl path
  alloc (H.alloc (out.length + 1)) out

/-- {lit}`sicha_url_origin`. -/
def urlOrigin (H : Heap w) (baseUrl : Bytes) : Mem w (Ptr Bytes) :=
  let out := Sicha.urlOrigin baseUrl
  alloc (H.alloc (out.length + 1)) out

/-- The copy of an optional string. -/
def dupOptional (H : Heap w) : Option Bytes → Mem w (Ptr Bytes)
  | some s => dupCstr H s
  | none => pure .null

/-! ## Headers -/

/-- {lit}`sicha_header`, with strings of its own. -/
structure HeaderPtrs where
  name : Ptr Bytes
  value : Ptr Bytes

/-- No string is NULL. -/
def HeaderPtrs.full (h : HeaderPtrs) : Bool :=
  h.name.isSome && h.value.isSome

/-- The blocks of a header. -/
def HeaderPtrs.owned (h : HeaderPtrs) : Multiset Nat :=
  h.name.owned + h.value.owned

/-- The blocks of some headers. -/
def ownedHeaders (hs : List HeaderPtrs) : Multiset Nat :=
  (hs.map HeaderPtrs.owned).sum

/-- A header of an array with two copied strings. -/
def dupHeader (H : Heap w) (array : Ptr Unit) (h : Header) : Mem w HeaderPtrs := do
  let name ← dupCstr H h.name
  touch array
  let value ← dupCstr H h.value
  touch array
  pure ⟨name, value⟩

/-- The Authorization header: its value is allocated first. -/
def dupAuthorization (H : Heap w) (array : Ptr Unit) (key : Bytes) : Mem w HeaderPtrs := do
  let value ← alloc (H.alloc (key.length + 8)) (ascii "Bearer " ++ key)
  let name ← dupCstr H (ascii "Authorization")
  touch array
  touch array
  pure ⟨name, value⟩

/-- The Authorization header of a backend that has a key. -/
def authorizationOf (H : Heap w) (array : Ptr Unit) : Option Bytes → Mem w (List HeaderPtrs)
  | some key => do
      let h ← dupAuthorization H array key
      pure [h]
  | none => pure []

/-- One step of {lit}`sicha_headers_free`. -/
def headerFree (array : Ptr (List HeaderPtrs)) (h : HeaderPtrs) : Mem w Unit := do
  touch array
  free h.name
  touch array
  free h.value

/-- {lit}`sicha_headers_free`. -/
def headersFree : Ptr (List HeaderPtrs) → Mem w Unit
  | .null => pure ()
  | .block i hs => do
      forEach (headerFree (.block i hs)) hs
      free (.block i hs)

/-- {lit}`sicha_build_headers`. -/
def buildHeaders (H : Heap w) (b : Backend) (stream : Bool) (userAgent : Bytes) :
    Mem w (Except Status (Ptr (List HeaderPtrs))) := do
  let array ← alloc
    (H.alloc (3 + (if b.apiKey.isSome then 1 else 0) + b.extraHeaders.length)) ()
  match array with
  | .null => pure (.error .nomem)
  | .block i _ => do
      let contentType ← dupHeader H array ⟨ascii "Content-Type", ascii "application/json"⟩
      let accept ← dupHeader H array
        ⟨ascii "Accept", if stream then ascii "text/event-stream" else ascii "application/json"⟩
      let agent ← dupHeader H array ⟨ascii "User-Agent", userAgent⟩
      let auth ← authorizationOf H array b.apiKey
      let extra ← collect (dupHeader H array) b.extraHeaders
      let hs := contentType :: accept :: agent :: (auth ++ extra)
      if hs.all HeaderPtrs.full then pure (.ok (.block i hs))
      else do
        headersFree (.block i hs)
        pure (.error .nomem)

/-! ## Headers and their blocks -/

section Owns

end Owns

/-! ## Headers and what they hold -/

section Tells

/-- What is stored in a header. -/
def HeaderPtrs.val? (h : HeaderPtrs) : Option Header :=
  headerOf h.name.val? h.value.val?

/-- What is stored in an array of headers. -/
def headersVal? (h : Ptr (List HeaderPtrs)) : Option (List Header) :=
  h.val?.bind fun hs => hs.mapM HeaderPtrs.val?

end Tells

/-! ## Backends -/

/-- {lit}`sicha_backend`, with strings of its own. -/
structure BackendPtrs where
  baseUrl : Ptr Bytes
  urlChat : Ptr Bytes
  urlAbort : Ptr Bytes
  apiKey : Ptr Bytes
  model : Ptr Bytes
  extraHeaders : Ptr (List HeaderPtrs)
  extraBodyJson : Ptr Bytes
  timeouts : Timeouts
  flags : UInt32

/-- The blocks of a backend. -/
def BackendPtrs.owned (b : BackendPtrs) : Multiset Nat :=
  b.baseUrl.owned + b.urlChat.owned + b.urlAbort.owned + b.apiKey.owned + b.model.owned +
    b.extraHeaders.ownedWith ownedHeaders + b.extraBodyJson.owned

/-- {lit}`sicha_backend_free`. -/
def backendFree (b : BackendPtrs) : Mem w Unit := do
  free b.baseUrl
  free b.urlChat
  free b.urlAbort
  free b.apiKey
  free b.model
  headersFree b.extraHeaders
  free b.extraBodyJson

/-- {lit}`yyjson_read`: what it allocates for a malformed text it releases again. -/
def yyjsonRead (Y : Yyjson) (H : Heap w) (text : Bytes) : Mem w (Ptr Json) :=
  match Y.read text with
  | some root => alloc (H.alloc yyjsonChunk) root
  | none => do
      let _ ← ask (H.alloc yyjsonChunk)
      pure .null

/-- {lit}`validate_json_object`. -/
def validateJsonObject (Y : Yyjson) (H : Heap w) (json : Bytes) :
    Mem w (Except Status Unit) := do
  let doc ← yyjsonRead Y H json
  match doc with
  | .null => pure (.error .invalidArg)
  | .block i root => do
      touch (.block i root)
      free (.block i root)
      pure (if root.isObj then .ok () else .error .invalidArg)

/-- The check of an optional member that must be a JSON object. -/
def validateOptionalObject (Y : Yyjson) (H : Heap w) :
    Option Bytes → Mem w (Except Status Unit)
  | some json => validateJsonObject Y H json
  | none => pure (.ok ())

/-- The chat URL; it is not built when the copy of the base URL is NULL. -/
def chatUrlOf (H : Heap w) (baseUrl : Ptr Bytes) (url : Bytes) : Mem w (Ptr Bytes) :=
  match baseUrl with
  | .null => pure .null
  | .block _ _ => urlJoin H url (ascii "/chat/completions")

/-- The abort URL of an origin that was allocated. -/
def abortUrlOf (H : Heap w) : Ptr Bytes → Mem w (Ptr Bytes)
  | .null => pure .null
  | .block i origin => do
      touch (.block i origin)
      urlJoin H origin (ascii "/api/extra/abort")

/-- The abort URL of {lit}`sicha_backend_init`, for a backend that has none yet. -/
def initAbort (H : Heap w) (flags : UInt32) (url : Bytes) (b : BackendPtrs) :
    Mem w (Except Status (Ptr Bytes)) :=
  if flags &&& backendKoboldCancelAssist ≠ 0 then do
    let origin ← urlOrigin H url
    let urlAbort ← abortUrlOf H origin
    free origin
    if urlAbort.isSome then pure (.ok urlAbort)
    else do
      backendFree b
      pure (.error .nomem)
  else pure (.ok .null)

/-- The copies of the extra headers in their zeroed array: the first NULL ends the loop. -/
def fillHeaders (H : Heap w) (array : Ptr Unit) : List Header → Mem w (Bool × List HeaderPtrs)
  | [] => pure (true, [])
  | h :: hs => do
      let copy ← dupHeader H array h
      touch array
      if copy.full then do
        let rest ← fillHeaders H array hs
        pure (rest.1, copy :: rest.2)
      else pure (false, copy :: hs.map fun _ => ⟨.null, .null⟩)

/-- The extra headers of {lit}`sicha_backend_init`, for a backend that has none yet. -/
def initHeaders (H : Heap w) (headers : List Header) (b : BackendPtrs) :
    Mem w (Except Status (Ptr (List HeaderPtrs))) :=
  if headers = [] then pure (.ok .null)
  else do
    let array ← alloc (H.alloc headers.length) ()
    match array with
    | .null => do
        backendFree b
        pure (.error .nomem)
    | .block i _ => do
        let filled ← fillHeaders H array headers
        if filled.1 then pure (.ok (.block i filled.2))
        else do
          backendFree { b with extraHeaders := .block i filled.2 }
          pure (.error .nomem)

/-- A NULL copy of a string that was given. -/
def lost (source : Option Bytes) (copy : Ptr Bytes) : Bool :=
  source.isSome && !copy.isSome

/-- The last check of {lit}`sicha_backend_init`. -/
def initDone (d : BackendDesc) (b : BackendPtrs) : Mem w (Except Status BackendPtrs) :=
  if !b.baseUrl.isSome || !b.urlChat.isSome || !b.model.isSome || lost d.apiKey b.apiKey ||
      lost d.extraBodyJson b.extraBodyJson then do
    backendFree b
    pure (.error .nomem)
  else pure (.ok { b with timeouts := timeoutsResolve d.timeouts, flags := d.flags })

/-- {lit}`sicha_backend_init`. -/
def backendInit (Y : Yyjson) (H : Heap w) (d : BackendDesc) : Mem w (Except Status BackendPtrs) :=
  match backendDescCheck d with
  | none => pure (.error .invalidArg)
  | some (url, model, headers) =>
      whenOk (validateOptionalObject Y H d.extraBodyJson) fun _ => do
        let baseUrl ← dupCstr H url
        let urlChat ← chatUrlOf H baseUrl url
        let model ← dupCstr H model
        let apiKey ← dupOptional H d.apiKey
        let extraBodyJson ← dupOptional H d.extraBodyJson
        let b : BackendPtrs :=
          { baseUrl := baseUrl
            urlChat := urlChat
            urlAbort := .null
            apiKey := apiKey
            model := model
            extraHeaders := .null
            extraBodyJson := extraBodyJson
            timeouts := ⟨0, 0, 0, 0⟩
            flags := 0 }
        whenOk (initAbort H d.flags url b) fun urlAbort =>
          let b := { b with urlAbort := urlAbort }
          whenOk (initHeaders H headers b) fun extraHeaders =>
            initDone d { b with extraHeaders := extraHeaders }

/-! ## Backends and their blocks -/

/-- What is stored in the pointers of a backend. -/
structure BackendPtrs.Stores (p : BackendPtrs) (b : Backend) : Prop where
  baseUrl : p.baseUrl.val? = some b.baseUrl
  urlChat : p.urlChat.val? = some b.urlChat
  urlAbort : p.urlAbort.val? = b.urlAbort
  apiKey : p.apiKey.val? = b.apiKey
  model : p.model.val? = some b.model
  extraHeaders : (headersVal? p.extraHeaders).getD [] = b.extraHeaders
  extraBodyJson : p.extraBodyJson.val? = b.extraBodyJson
  timeouts : p.timeouts = b.timeouts
  flags : p.flags = b.flags

end InMemory

end Sicha
