import Sicha.Json
import Sicha.Request.Text

/-!
# Backends and their headers

A translation of the second part of {lit}`request.c`: the deep copy of a backend
description and the header set of one attempt.  A copied string that could not be
allocated is {lit}`none`, as its pointer is NULL; the source looks at the pointers
only where the translation does.

Main results:

- Definition {lit}`Backend`: a resolved backend; it has an abort URL exactly when the
  assist flag is set.
- Theorem {lit}`buildHeaders_keeps`: the frame rule.
-/

namespace Sicha

variable {w : Type}

/-- {lit}`sicha_header`. -/
structure Header where
  name : Bytes
  value : Bytes
deriving DecidableEq

/-- A header as foreign code passes it: either pointer may be NULL. -/
structure HeaderRef where
  name : Option Bytes
  value : Option Bytes

/-- {lit}`sicha_timeouts`. -/
structure Timeouts where
  connectMs : UInt32
  firstByteMs : UInt32
  idleMs : UInt32
  totalMs : UInt32
deriving DecidableEq

/-- {lit}`SICHA_BACKEND_KOBOLD_CANCEL_ASSIST`. -/
def backendKoboldCancelAssist : UInt32 := 0x1

/-- {lit}`SICHA_BACKEND_STREAM_USAGE`. -/
def backendStreamUsage : UInt32 := 0x2

/-- {lit}`sicha_backend_desc`. -/
structure BackendDesc where
  structSizeOk : Bool
  baseUrl : Option Bytes
  apiKey : Option Bytes
  model : Option Bytes
  extraHeaders : Span HeaderRef
  extraBodyJson : Option Bytes
  timeouts : Timeouts
  flags : UInt32

/-- {lit}`sicha_backend`. -/
structure Backend where
  baseUrl : Bytes
  urlChat : Bytes
  urlAbort : Option Bytes
  apiKey : Option Bytes
  model : Bytes
  extraHeaders : List Header
  extraBodyJson : Option Bytes
  timeouts : Timeouts
  flags : UInt32
  abort_iff : urlAbort.isSome = true ↔ flags &&& backendKoboldCancelAssist ≠ 0

/-! ## Allocation -/

/-- {lit}`malloc` of {lit}`n` bytes, or {lit}`calloc` of {lit}`n` elements, for what is then
stored there.  NULL is {lit}`none`. -/
def mallocFor {α : Type} (H : Heap w) (n : Nat) (value : α) :
    Fallible Status w (Option α) :=
  Fallible.total fun s => (if (H.alloc n s).1 then some value else none, (H.alloc n s).2)

/-- {lit}`dup_cstr`. -/
def dupCstr (H : Heap w) (s : Bytes) : Fallible Status w (Option Bytes) :=
  mallocFor H (s.length + 1) s

/-- Both strings of a header were allocated. -/
def headerOf (name value : Option Bytes) : Option Header :=
  match name, value with
  | some name, some value => some ⟨name, value⟩
  | _, _ => none

/-- A header with two copied strings; {lit}`none` if either is NULL. -/
def dupHeader (H : Heap w) (h : Header) : Fallible Status w (Option Header) := do
  let name ← dupCstr H h.name
  let value ← dupCstr H h.value
  pure (headerOf name value)

/-- The Authorization header of {lit}`sicha_build_headers`: its value is allocated
first. -/
def dupAuthorization (H : Heap w) (key : Bytes) : Fallible Status w (Option Header) := do
  let value ← mallocFor H (key.length + 8) (ascii "Bearer " ++ key)
  let name ← dupCstr H (ascii "Authorization")
  pure (headerOf name value)

/-- The Authorization header of a backend that has a key. -/
def authorizationOf (H : Heap w) : Option Bytes → Fallible Status w (List (Option Header))
  | some key => (fun h => [h]) <$> dupAuthorization H key
  | none => pure []

/-- The array is handed out only if no string is NULL. -/
def allPresent (headers : List (Option Header)) : Fallible Status w (List Header) :=
  match headers.mapM id with
  | some headers => pure headers
  | none => throw .nomem

/-- {lit}`sicha_build_headers`. -/
def buildHeaders (H : Heap w) (b : Backend) (stream : Bool) (userAgent : Bytes) :
    Fallible Status w (List Header) := do
  Fallible.guarded
    (H.alloc (3 + (if b.apiKey.isSome then 1 else 0) + b.extraHeaders.length)) .nomem
  let contentType ← dupHeader H ⟨ascii "Content-Type", ascii "application/json"⟩
  let accept ← dupHeader H
    ⟨ascii "Accept", if stream then ascii "text/event-stream" else ascii "application/json"⟩
  let agent ← dupHeader H ⟨ascii "User-Agent", userAgent⟩
  let auth ← authorizationOf H b.apiKey
  let extra ← Fallible.forList (dupHeader H) b.extraHeaders
  allPresent (contentType :: accept :: agent :: (auth ++ extra))

/-! ## Backend resolution -/

/-- {lit}`timeouts_resolve`. -/
def timeoutsResolve (t : Timeouts) : Timeouts where
  connectMs := if t.connectMs = 0 then 30000 else t.connectMs
  firstByteMs := if t.firstByteMs = 0 then 60000 else t.firstByteMs
  idleMs := if t.idleMs = 0 then 300000 else t.idleMs
  totalMs := if t.totalMs = 0 then 1800000 else t.totalMs

/-- {lit}`is_reserved_header`: names the client generates itself. -/
def isReservedHeader (name : Bytes) (haveApiKey : Bool) : Bool :=
  headerNameEq name (ascii "Content-Type") || headerNameEq name (ascii "Accept") ||
    headerNameEq name (ascii "User-Agent") || headerNameEq name (ascii "Content-Length") ||
    headerNameEq name (ascii "Host") || headerNameEq name (ascii "Transfer-Encoding") ||
    (haveApiKey && headerNameEq name (ascii "Authorization"))

/-- {lit}`validate_json_object`: the text must parse as an object. -/
def validateJsonObject (Y : Yyjson) (H : Heap w) (json : Bytes) : Fallible Status w Unit := do
  let root ← Fallible.total (yyjsonRead Y H json)
  if root.any Json.isObj then pure () else throw .invalidArg

/-- The check of an optional member that must be a JSON object. -/
def validateOptionalObject (Y : Yyjson) (H : Heap w) :
    Option Bytes → Fallible Status w Unit
  | some json => validateJsonObject Y H json
  | none => pure ()

/-- The check {lit}`sicha_backend_init` makes of one extra header. -/
def extraHeaderCheck (haveApiKey : Bool) (h : HeaderRef) : Option Header :=
  match h.name, h.value with
  | some name, some value =>
      if headerValidate (some name) (some value) = .ok ∧
          isReservedHeader name haveApiKey = false then some ⟨name, value⟩
      else none
  | _, _ => none

/-- The checks of {lit}`sicha_backend_init`, up to the JSON one. -/
def backendDescCheck (d : BackendDesc) : Option (Bytes × Bytes × List Header) :=
  if d.structSizeOk = false then none
  else if d.flags &&& ~~~(backendKoboldCancelAssist ||| backendStreamUsage) ≠ 0 then none
  else
    match d.baseUrl, d.model with
    | some url, some model =>
        if urlValidate (some url) ≠ .ok then none
        else if model = [] ∨ utf8Valid model = false then none
        else if d.apiKey.any (fun key => key == [] || !valueBytesOk key) then none
        else if d.extraHeaders.dangling then none
        else (d.extraHeaders.items.mapM (extraHeaderCheck d.apiKey.isSome)).map
          fun headers => (url, model, headers)
    | _, _ => none

/-- A copy that ends the initialisation when it is NULL. -/
def orNomem {α : Type} : Option α → Fallible Status w α
  | some a => pure a
  | none => throw .nomem

/-- The abort URL of {lit}`sicha_backend_init`. -/
def abortUrl (H : Heap w) (url : Bytes) : Fallible Status w Bytes := do
  let origin ← mallocFor H ((urlOrigin url).length + 1) (urlOrigin url)
  let origin ← orNomem origin
  let joined := urlJoin origin (ascii "/api/extra/abort")
  let copy ← mallocFor H (joined.length + 1) joined
  orNomem copy

/-- The abort URL, when the assist flag asks for one. -/
def abortUrlOf (H : Heap w) (flags : UInt32) (url : Bytes) :
    Fallible Status w
      {u : Option Bytes // u.isSome = true ↔ flags &&& backendKoboldCancelAssist ≠ 0} :=
  if hflag : flags &&& backendKoboldCancelAssist ≠ 0 then
    (fun u => ⟨some u, by simp [hflag]⟩) <$> abortUrl H url
  else pure ⟨none, by simp [not_not.mp hflag]⟩

/-- The chat URL; it is not built when the copy of the base URL is NULL. -/
def chatUrlOf (H : Heap w) (baseUrl : Option Bytes) (url : Bytes) :
    Fallible Status w (Option Bytes) :=
  match baseUrl with
  | some _ =>
      let joined := urlJoin url (ascii "/chat/completions")
      mallocFor H (joined.length + 1) joined
  | none => pure none

/-- The copy of an optional string: a NULL source is not copied. -/
def dupOptional (H : Heap w) : Option Bytes → Fallible Status w (Option Bytes)
  | some s => dupCstr H s
  | none => pure none

/-- The copied extra headers; the first NULL ends the loop. -/
def copyExtraHeaders (H : Heap w) (headers : List Header) : Fallible Status w (List Header) :=
  if headers = [] then pure []
  else do
    Fallible.guarded (H.alloc headers.length) .nomem
    Fallible.forList (fun h => do
      let copy ← dupHeader H h
      orNomem copy) headers

/-- A NULL copy of a string that was given. -/
def lost (source copy : Option Bytes) : Bool :=
  source.isSome && copy.isNone

/-- {lit}`sicha_backend_init`. -/
def backendInit (Y : Yyjson) (H : Heap w) (d : BackendDesc) : Fallible Status w Backend := do
  match backendDescCheck d with
  | none => throw .invalidArg
  | some (url, model, headers) =>
      validateOptionalObject Y H d.extraBodyJson
      let baseCopy ← dupCstr H url
      let chatCopy ← chatUrlOf H baseCopy url
      let modelCopy ← dupCstr H model
      let apiKey ← dupOptional H d.apiKey
      let extraBody ← dupOptional H d.extraBodyJson
      let urlAbort ← abortUrlOf H d.flags url
      let extra ← copyExtraHeaders H headers
      match baseCopy, chatCopy, modelCopy with
      | some baseUrl, some urlChat, some model =>
          if lost d.apiKey apiKey || lost d.extraBodyJson extraBody then throw .nomem
          else
            pure
              { baseUrl := baseUrl
                urlChat := urlChat
                urlAbort := urlAbort.val
                apiKey := apiKey
                model := model
                extraHeaders := extra
                extraBodyJson := extraBody
                timeouts := timeoutsResolve d.timeouts
                flags := d.flags
                abort_iff := urlAbort.property }
      | _, _, _ => throw .nomem

/-! ## Frame rules -/

/-- The errors of the request path. -/
inductive Refusal : Status → Prop
  | invalidArg : Refusal .invalidArg
  | nomem : Refusal .nomem

section Keeps

variable {H : Heap w} {P : w → Prop} {E : Status → Prop}
  (halloc : ∀ n s, P s → P (H.alloc n s).2) (hnomem : E .nomem)

include halloc hnomem

omit hnomem in
/-- A request for a string keeps what the allocator keeps. -/
theorem mallocFor_keeps {α : Type} (n : Nat) (value : α) :
    Fallible.Keeps P E (mallocFor H n value) :=
  Fallible.keeps_total fun s hs => halloc n s hs

omit hnomem in
/-- So does the copy of a header. -/
theorem dupHeader_keeps (h : Header) : Fallible.Keeps P E (dupHeader H h) :=
  Fallible.keeps_bind (mallocFor_keeps halloc _ _) fun _ =>
    Fallible.keeps_bind (mallocFor_keeps halloc _ _) fun _ => Fallible.keeps_pure _

omit hnomem in
/-- So does the bearer header. -/
theorem authorizationOf_keeps (key : Option Bytes) :
    Fallible.Keeps P E (authorizationOf H key) := by
  cases key with
  | some key =>
      refine Fallible.keeps_map _ ?_
      exact Fallible.keeps_bind (mallocFor_keeps halloc _ _) fun _ =>
        Fallible.keeps_bind (mallocFor_keeps halloc _ _) fun _ => Fallible.keeps_pure _
  | none => exact Fallible.keeps_pure _

omit halloc in
/-- A missing copy is an error that is expected. -/
theorem allPresent_keeps (headers : List (Option Header)) :
    Fallible.Keeps P E (allPresent headers : Fallible Status w (List Header)) := by
  unfold allPresent
  split
  · exact Fallible.keeps_pure _
  · exact Fallible.keeps_throw hnomem

/-- What every request keeps, building the headers keeps; it fails only out of memory. -/
theorem buildHeaders_keeps (b : Backend) (stream : Bool) (userAgent : Bytes) :
    Fallible.Keeps P E (buildHeaders H b stream userAgent) := by
  refine Fallible.keeps_bind (Fallible.keeps_guarded (halloc _) hnomem) fun _ => ?_
  refine Fallible.keeps_bind (dupHeader_keeps halloc _) fun _ => ?_
  refine Fallible.keeps_bind (dupHeader_keeps halloc _) fun _ => ?_
  refine Fallible.keeps_bind (dupHeader_keeps halloc _) fun _ => ?_
  refine Fallible.keeps_bind (authorizationOf_keeps halloc _) fun _ => ?_
  refine Fallible.keeps_bind (Fallible.keeps_forList (dupHeader_keeps halloc) _) fun _ => ?_
  exact allPresent_keeps hnomem _

omit hnomem in
/-- The check of a JSON object may refuse it, and keeps what the allocator keeps. -/
theorem validateOptionalObject_keeps (hinvalid : E .invalidArg) (Y : Yyjson)
    (json : Option Bytes) :
    Fallible.Keeps P E (validateOptionalObject Y H json) := by
  cases json with
  | some json =>
      refine Fallible.keeps_bind
        (Fallible.keeps_total fun s hs => yyjsonRead_keeps Y halloc json hs) fun root => ?_
      split_ifs
      · exact Fallible.keeps_pure _
      · exact Fallible.keeps_throw hinvalid
  | none => exact Fallible.keeps_pure _

end Keeps

/-! ## What the parts yield -/

section Yields

variable {H : Heap w} {X : Prop}

/-- A request for a string brings that string, unless the allocator refused. -/
theorem mallocFor_yields {α : Type} (hheap : H.Reliable ∨ X) (n : Nat) (value : α) :
    Fallible.Yields X (mallocFor H n value) fun o => o = some value ∨ o = none ∧ X := by
  refine Fallible.yields_total fun s => ?_
  by_cases hgranted : (H.alloc n s).1 = true
  · exact .inl (if_pos hgranted)
  · rcases hheap with hH | hX
    · exact absurd (hH _ _) hgranted
    · exact .inr ⟨if_neg hgranted, hX⟩

/-- Where the block is there, it is the one that was asked for. -/
theorem orNomem_yields {α : Type} {o : Option α} {a : α} (h : o = some a ∨ o = none ∧ X) :
    Fallible.Yields X (orNomem o : Fallible Status w α) (· = a) := by
  rcases h with rfl | ⟨rfl, hX⟩
  · exact Fallible.yields_pure rfl
  · exact Fallible.yields_throw hX

end Yields

/-- A backend without options. -/
def plainBackend : Backend where
  baseUrl := ascii "http://localhost"
  urlChat := ascii "http://localhost/chat/completions"
  urlAbort := none
  apiKey := none
  model := ascii "m"
  extraHeaders := []
  extraBodyJson := none
  timeouts := ⟨15000, 300000, 120000, 1800000⟩
  flags := 0
  abort_iff := by decide

end Sicha
