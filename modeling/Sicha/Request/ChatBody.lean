import Sicha.Request.Backend

/-!
# Requests and the chat-completion body

A translation of the last part of {lit}`request.c`: the validation of a request and
the body that is written for one backend.  Doubles are given by their bits.

Main results:

- Definitions {lit}`requestValidate` and {lit}`buildChatBody`.
- Theorems {lit}`requestValidate_keeps` and {lit}`buildChatBody_keeps`: the frame
  rules.
-/

namespace Sicha

variable {w : Type}

/-- {lit}`sicha_message`.  {lit}`contentLen` is {lit}`none` for {lit}`SICHA_LEN_CSTR`;
otherwise {lit}`content` holds the bytes at the pointer, NULs included. -/
structure Message where
  role : Int
  content : Option Bytes
  contentLen : Option Nat
  toolCallId : Option Bytes

/-- {lit}`SICHA_SET_MAX_TOKENS`. -/
def setMaxTokens : UInt32 := 0x1

/-- {lit}`SICHA_SET_TEMPERATURE`. -/
def setTemperature : UInt32 := 0x2

/-- {lit}`SICHA_SET_TOP_P`. -/
def setTopP : UInt32 := 0x4

/-- {lit}`SICHA_SET_TOP_K`. -/
def setTopK : UInt32 := 0x8

/-- {lit}`SICHA_SET_PRESENCE_PENALTY`. -/
def setPresencePenalty : UInt32 := 0x10

/-- {lit}`SICHA_SET_FREQUENCY_PENALTY`. -/
def setFrequencyPenalty : UInt32 := 0x20

/-- {lit}`SICHA_REQ_NO_ACCUMULATE`. -/
def reqNoAccumulate : UInt32 := 0x1

/-- {lit}`sicha_request`. -/
structure Request where
  structSizeOk : Bool
  messages : Span Message
  messagesJson : Option Bytes
  setMask : UInt32
  maxTokens : Int
  temperature : UInt64
  topP : UInt64
  topK : Int
  presencePenalty : UInt64
  frequencyPenalty : UInt64
  stop : Span (Option Bytes)
  responseFormatJson : Option Bytes
  flags : UInt32

/-- The request accumulates text and reasoning on the result. -/
def Request.accumulates (req : Request) : Bool :=
  req.flags &&& reqNoAccumulate == 0

/-- A sampler bit of the mask is on. -/
def Request.sets (req : Request) (bit : UInt32) : Bool :=
  req.setMask &&& bit != 0

/-- {lit}`role_str`. -/
def roleStr (role : Int) : Option Bytes :=
  if role = 0 then some (ascii "system")
  else if role = 1 then some (ascii "user")
  else if role = 2 then some (ascii "assistant")
  else if role = 3 then some (ascii "tool")
  else none

/-- The content a message sends. -/
def Message.contentBytes (m : Message) : Bytes :=
  match m.contentLen with
  | none => cstr (m.content.getD [])
  | some n => (m.content.getD []).take n

/-- {lit}`isfinite`, on the bits of a double. -/
def isFinite (bits : UInt64) : Bool :=
  (bits >>> 52) &&& 0x7FF != 0x7FF

/-- {lit}`x >= 0.0`, on the bits of a finite double; the negative zero passes. -/
def isNonneg (bits : UInt64) : Bool :=
  bits >>> 63 == 0 || bits <<< 1 == 0

/-! ## Validation -/

/-- The check of one message. -/
def messageOk (m : Message) : Bool :=
  (roleStr m.role).isSome && m.content.isSome && utf8Valid m.contentBytes &&
    m.toolCallId.all fun id => m.role == 3 && id != [] && utf8Valid id

/-- The check of one stop sequence. -/
def stopOk (s : Option Bytes) : Bool :=
  s.any fun s => s != [] && utf8Valid s

/-- {lit}`messages != NULL || n_messages > 0`. -/
def haveArray : Span Message → Bool
  | .null n => n > 0
  | .list _ => true

/-- The checks of {lit}`sicha_request_validate` that need no parser. -/
def requestShapeOk (req : Request) : Bool :=
  let known := setMaxTokens ||| setTemperature ||| setTopP ||| setTopK |||
    setPresencePenalty ||| setFrequencyPenalty
  req.structSizeOk &&
    (req.setMask &&& ~~~known == 0 && req.flags &&& ~~~reqNoAccumulate == 0) &&
    haveArray req.messages != req.messagesJson.isSome && -- exactly one source
    (!haveArray req.messages || !req.messages.items.isEmpty) &&
    req.messages.items.all messageOk &&
    (!req.sets setMaxTokens || req.maxTokens ≥ 1) &&
    (!req.sets setTopK || req.topK ≥ 0) &&
    (!req.sets setTemperature || (isFinite req.temperature && isNonneg req.temperature)) &&
    (!req.sets setTopP || isFinite req.topP) &&
    (!req.sets setPresencePenalty || isFinite req.presencePenalty) &&
    (!req.sets setFrequencyPenalty || isFinite req.frequencyPenalty) &&
    !req.stop.dangling && req.stop.items.all stopOk

/-- The check that {lit}`messages_json` parses as an array. -/
def validateMessagesJson (Y : Yyjson) (H : Heap w) : Option Bytes → Fallible Status w Unit
  | some json => do
      let root ← Fallible.total (yyjsonRead Y H json)
      if root.any Json.isArr then pure () else throw .invalidArg
  | none => pure ()

/-- {lit}`sicha_request_validate`. -/
def requestValidate (Y : Yyjson) (H : Heap w) (req : Request) : Fallible Status w Unit :=
  if requestShapeOk req then do
    validateMessagesJson Y H req.messagesJson
    validateOptionalObject Y H req.responseFormatJson
  else throw .invalidArg

/-! ## The body -/

/-- A yyjson call that allocates; a refusal is {lit}`goto oom`. -/
def yyjsonCall (H : Heap w) : Fallible Status w Unit :=
  Fallible.guarded (H.alloc yyjsonChunk) .nomem

/-- A member added to an object under construction. -/
def addMember (H : Heap w) (key : String) (value : Json) (members : List (Bytes × Json)) :
    Fallible Status w (List (Bytes × Json)) := do
  yyjsonCall H
  pure (members ++ [(ascii key, value)])

/-- A member added when a condition holds. -/
def addMemberIf (H : Heap w) (cond : Bool) (key : String) (value : Json)
    (members : List (Bytes × Json)) : Fallible Status w (List (Bytes × Json)) :=
  if cond then addMember H key value members else pure members

/-- {lit}`import_json`.  A text the reader refuses, for whatever reason, is an invalid
argument; only a refused copy is out of memory. -/
def importJson (Y : Yyjson) (H : Heap w) (json : Bytes) (expectObj : Bool) :
    Fallible Status w Json := do
  let root ← Fallible.total (yyjsonRead Y H json)
  match root.filter fun v => if expectObj then v.isObj else v.isArr with
  | some v => do
      yyjsonCall H
      pure v
  | none => throw .invalidArg

/-- One message of the {lit}`messages` array. -/
def messageJson (H : Heap w) (m : Message) : Fallible Status w Json := do
  yyjsonCall H
  let members ← addMember H "role" (.str ((roleStr m.role).getD [])) []
  let members ← addMember H "content" (.str m.contentBytes) members
  let members ← addMemberIf H m.toolCallId.isSome "tool_call_id"
    (.str (m.toolCallId.getD [])) members
  pure (.obj members)

/-- The {lit}`messages` member. -/
def messagesMember (Y : Yyjson) (H : Heap w) (req : Request) : Fallible Status w Json :=
  match req.messagesJson with
  | some json => do
      let arr ← importJson Y H json false
      yyjsonCall H
      pure arr
  | none => do
      yyjsonCall H -- the array
      yyjsonCall H -- its member
      let items ← Fallible.forList (messageJson H) req.messages.items
      pure (.arr items)

/-- The {lit}`stream_options` member, for a backend that reports usage. -/
def streamOptionsMember (H : Heap w) (b : Backend) (members : List (Bytes × Json)) :
    Fallible Status w (List (Bytes × Json)) :=
  if b.flags &&& backendStreamUsage ≠ 0 then do
    yyjsonCall H
    let usage ← addMember H "include_usage" (.bool true) []
    addMember H "stream_options" (.obj usage) members
  else pure members

/-- The members a streaming request adds. -/
def streamMembers (H : Heap w) (b : Backend) (stream : Bool)
    (members : List (Bytes × Json)) : Fallible Status w (List (Bytes × Json)) :=
  if stream then do
    let members ← addMember H "stream" (.bool true) members
    streamOptionsMember H b members
  else pure members

/-- The samplers whose bit is on. -/
def samplerMembers (H : Heap w) (req : Request) (members : List (Bytes × Json)) :
    Fallible Status w (List (Bytes × Json)) := do
  let members ← addMemberIf H (req.sets setMaxTokens) "max_tokens"
    (.sint (Int64.ofInt req.maxTokens)) members
  let members ← addMemberIf H (req.sets setTemperature) "temperature"
    (.real req.temperature) members
  let members ← addMemberIf H (req.sets setTopP) "top_p" (.real req.topP) members
  let members ← addMemberIf H (req.sets setTopK) "top_k" (.sint (Int64.ofInt req.topK)) members
  let members ← addMemberIf H (req.sets setPresencePenalty) "presence_penalty"
    (.real req.presencePenalty) members
  addMemberIf H (req.sets setFrequencyPenalty) "frequency_penalty"
    (.real req.frequencyPenalty) members

/-- The {lit}`stop` member. -/
def stopMember (H : Heap w) (req : Request) (members : List (Bytes × Json)) :
    Fallible Status w (List (Bytes × Json)) :=
  match req.stop.items with
  | [] => pure members
  | _ :: _ => do
      yyjsonCall H -- the array
      yyjsonCall H -- its member
      let items ← Fallible.forList (fun s => do
        yyjsonCall H
        pure (Json.str (s.getD []))) req.stop.items
      pure (members ++ [(ascii "stop", .arr items)])

/-- The {lit}`response_format` member. -/
def responseFormatMember (Y : Yyjson) (H : Heap w) (req : Request)
    (members : List (Bytes × Json)) : Fallible Status w (List (Bytes × Json)) :=
  match req.responseFormatJson with
  | some json => do
      let rf ← importJson Y H json true
      addMember H "response_format" rf members
  | none => pure members

/-- One member of the extra object: members of its name go, and it comes last. -/
def mergeMember (H : Heap w) (members : List (Bytes × Json)) (m : Bytes × Json) :
    Fallible Status w (List (Bytes × Json)) := do
  let key ← mallocFor H yyjsonChunk m.1
  let value ← mallocFor H yyjsonChunk m.2
  let key ← orNomem key
  let value ← orNomem value
  pure (members.filter (fun old => old.1 != m.1) ++ [(key, value)])

/-- The merge loop over the extra object. -/
def mergeMembers (H : Heap w) : List (Bytes × Json) → List (Bytes × Json) →
    Fallible Status w (List (Bytes × Json))
  | members, [] => pure members
  | members, m :: rest => do
      let members ← mergeMember H members m
      mergeMembers H members rest

/-- The members of the root of a parsed extra body. -/
def Json.members : Json → List (Bytes × Json)
  | .obj members => members
  | _ => []

/-- The extra body merges last; on a collision it wins.  It was validated with the
backend, so a text the reader refuses now is out of memory. -/
def extraMembers (Y : Yyjson) (H : Heap w) (b : Backend) (members : List (Bytes × Json)) :
    Fallible Status w (List (Bytes × Json)) :=
  match b.extraBodyJson with
  | some json => do
      let root ← Fallible.total (yyjsonRead Y H json)
      let root ← orNomem root
      mergeMembers H members root.members
  | none => pure members

/-- {lit}`sicha_build_chat_body`. -/
def buildChatBody (Y : Yyjson) (H : Heap w) (b : Backend) (req : Request) (stream : Bool) :
    Fallible Status w Bytes := do
  requestValidate Y H req
  yyjsonCall H -- the document
  yyjsonCall H -- its root
  let members ← addMember H "model" (.str b.model) []
  let messages ← messagesMember Y H req
  let members ← streamMembers H b stream (members ++ [(ascii "messages", messages)])
  let members ← samplerMembers H req members
  let members ← stopMember H req members
  let members ← responseFormatMember Y H req members
  let members ← extraMembers Y H b members
  yyjsonCall H -- the text
  orNomem (Y.write (.obj members))

/-! ## Frame rules -/

section Keeps

variable {H : Heap w} {P : w → Prop} {E : Status → Prop}
  (halloc : ∀ n s, P s → P (H.alloc n s).2) (hnomem : E .nomem)
  (hinvalid : E .invalidArg)

include halloc hnomem

/-- A call of the document builder keeps what the allocator keeps. -/
theorem yyjsonCall_keeps : Fallible.Keeps P E (yyjsonCall H) :=
  Fallible.keeps_guarded (halloc _) hnomem

/-- So does an added member. -/
theorem addMember_keeps (key : String) (value : Json) (members : List (Bytes × Json)) :
    Fallible.Keeps P E (addMember H key value members) :=
  Fallible.keeps_bind (yyjsonCall_keeps halloc hnomem) fun _ => Fallible.keeps_pure _

/-- So does a member that is added under a condition. -/
theorem addMemberIf_keeps (cond : Bool) (key : String) (value : Json)
    (members : List (Bytes × Json)) :
    Fallible.Keeps P E (addMemberIf H cond key value members) := by
  unfold addMemberIf
  split_ifs
  · exact addMember_keeps halloc hnomem _ _ _
  · exact Fallible.keeps_pure _

omit halloc in
/-- A missing block is an error that is expected. -/
theorem orNomem_keeps {α : Type} (a : Option α) :
    Fallible.Keeps P E (orNomem a : Fallible Status w α) := by
  cases a with
  | some a => exact Fallible.keeps_pure _
  | none => exact Fallible.keeps_throw hnomem

omit hnomem in
include hinvalid in
/-- What every request keeps, validation keeps; it fails only for an invalid argument. -/
theorem requestValidate_keeps (Y : Yyjson) (req : Request) :
    Fallible.Keeps P E (requestValidate Y H req) := by
  unfold requestValidate
  split_ifs
  · refine Fallible.keeps_bind ?_ fun _ => validateOptionalObject_keeps halloc hinvalid Y _
    unfold validateMessagesJson
    split
    · refine Fallible.keeps_bind
        (Fallible.keeps_total fun s hs => yyjsonRead_keeps Y halloc _ hs) fun root => ?_
      split_ifs
      · exact Fallible.keeps_pure _
      · exact Fallible.keeps_throw hinvalid
    · exact Fallible.keeps_pure _
  · exact Fallible.keeps_throw hinvalid

include hinvalid in
/-- Passthrough JSON may be refused as malformed, and keeps what the allocator keeps. -/
theorem importJson_keeps (Y : Yyjson) (json : Bytes) (expectObj : Bool) :
    Fallible.Keeps P E (importJson Y H json expectObj) := by
  refine Fallible.keeps_bind
    (Fallible.keeps_total fun s hs => yyjsonRead_keeps Y halloc json hs) fun root => ?_
  split
  · exact Fallible.keeps_bind (yyjsonCall_keeps halloc hnomem) fun _ => Fallible.keeps_pure _
  · exact Fallible.keeps_throw hinvalid

/-- A message keeps what the allocator keeps. -/
theorem messageJson_keeps (m : Message) : Fallible.Keeps P E (messageJson H m) := by
  refine Fallible.keeps_bind (yyjsonCall_keeps halloc hnomem) fun _ => ?_
  refine Fallible.keeps_bind (addMember_keeps halloc hnomem _ _ _) fun _ => ?_
  refine Fallible.keeps_bind (addMember_keeps halloc hnomem _ _ _) fun _ => ?_
  exact Fallible.keeps_bind (addMemberIf_keeps halloc hnomem _ _ _ _) fun _ => Fallible.keeps_pure _

include hinvalid in
/-- So do the messages of a request. -/
theorem messagesMember_keeps (Y : Yyjson) (req : Request) :
    Fallible.Keeps P E (messagesMember Y H req) := by
  unfold messagesMember
  split
  · refine Fallible.keeps_bind (importJson_keeps halloc hnomem hinvalid Y _ _) fun _ => ?_
    exact Fallible.keeps_bind (yyjsonCall_keeps halloc hnomem) fun _ => Fallible.keeps_pure _
  · refine Fallible.keeps_bind (yyjsonCall_keeps halloc hnomem) fun _ => ?_
    refine Fallible.keeps_bind (yyjsonCall_keeps halloc hnomem) fun _ => ?_
    exact Fallible.keeps_bind (Fallible.keeps_forList (messageJson_keeps halloc hnomem) _)
      fun _ => Fallible.keeps_pure _

/-- So do the options of a stream. -/
theorem streamOptionsMember_keeps (b : Backend) (members : List (Bytes × Json)) :
    Fallible.Keeps P E (streamOptionsMember H b members) := by
  unfold streamOptionsMember
  split_ifs
  · refine Fallible.keeps_bind (yyjsonCall_keeps halloc hnomem) fun _ => ?_
    exact Fallible.keeps_bind (addMember_keeps halloc hnomem _ _ _)
      fun _ => addMember_keeps halloc hnomem _ _ _
  · exact Fallible.keeps_pure _

/-- So do all members of a stream. -/
theorem streamMembers_keeps (b : Backend) (stream : Bool) (members : List (Bytes × Json)) :
    Fallible.Keeps P E (streamMembers H b stream members) := by
  unfold streamMembers
  split_ifs
  · exact Fallible.keeps_bind (addMember_keeps halloc hnomem _ _ _)
      fun _ => streamOptionsMember_keeps halloc hnomem b _
  · exact Fallible.keeps_pure _

/-- So do the samplers. -/
theorem samplerMembers_keeps (req : Request) (members : List (Bytes × Json)) :
    Fallible.Keeps P E (samplerMembers H req members) := by
  refine Fallible.keeps_bind (addMemberIf_keeps halloc hnomem _ _ _ _) fun _ => ?_
  refine Fallible.keeps_bind (addMemberIf_keeps halloc hnomem _ _ _ _) fun _ => ?_
  refine Fallible.keeps_bind (addMemberIf_keeps halloc hnomem _ _ _ _) fun _ => ?_
  refine Fallible.keeps_bind (addMemberIf_keeps halloc hnomem _ _ _ _) fun _ => ?_
  refine Fallible.keeps_bind (addMemberIf_keeps halloc hnomem _ _ _ _) fun _ => ?_
  exact addMemberIf_keeps halloc hnomem _ _ _ _

/-- So do the stop strings. -/
theorem stopMember_keeps (req : Request) (members : List (Bytes × Json)) :
    Fallible.Keeps P E (stopMember H req members) := by
  unfold stopMember
  split
  · exact Fallible.keeps_pure _
  · refine Fallible.keeps_bind (yyjsonCall_keeps halloc hnomem) fun _ => ?_
    refine Fallible.keeps_bind (yyjsonCall_keeps halloc hnomem) fun _ => ?_
    refine Fallible.keeps_bind (Fallible.keeps_forList (fun s => ?_) _)
      fun _ => Fallible.keeps_pure _
    exact Fallible.keeps_bind (yyjsonCall_keeps halloc hnomem) fun _ => Fallible.keeps_pure _

include hinvalid in
/-- So does the response format. -/
theorem responseFormatMember_keeps (Y : Yyjson) (req : Request)
    (members : List (Bytes × Json)) :
    Fallible.Keeps P E (responseFormatMember Y H req members) := by
  unfold responseFormatMember
  split
  · exact Fallible.keeps_bind (importJson_keeps halloc hnomem hinvalid Y _ _)
      fun _ => addMember_keeps halloc hnomem _ _ _
  · exact Fallible.keeps_pure _

/-- A merge keeps what the allocator keeps. -/
theorem mergeMembers_keeps (members extra : List (Bytes × Json)) :
    Fallible.Keeps P E (mergeMembers H members extra) := by
  induction extra generalizing members with
  | nil => exact Fallible.keeps_pure _
  | cons m rest ih =>
      refine Fallible.keeps_bind ?_ fun members => ih members
      refine Fallible.keeps_bind (mallocFor_keeps halloc _ _) fun _ => ?_
      refine Fallible.keeps_bind (mallocFor_keeps halloc _ _) fun _ => ?_
      refine Fallible.keeps_bind (orNomem_keeps hnomem _) fun _ => ?_
      exact Fallible.keeps_bind (orNomem_keeps hnomem _) fun _ => Fallible.keeps_pure _

/-- So does the merge of a backend's own members. -/
theorem extraMembers_keeps (Y : Yyjson) (b : Backend) (members : List (Bytes × Json)) :
    Fallible.Keeps P E (extraMembers Y H b members) := by
  unfold extraMembers
  split
  · refine Fallible.keeps_bind
      (Fallible.keeps_total fun s hs => yyjsonRead_keeps Y halloc _ hs) fun root => ?_
    exact Fallible.keeps_bind (orNomem_keeps hnomem _) fun _ => mergeMembers_keeps halloc hnomem _ _
  · exact Fallible.keeps_pure _

include hinvalid in
/-- What every request keeps, building the body keeps; it fails only by a refusal. -/
theorem buildChatBody_keeps (Y : Yyjson) (b : Backend) (req : Request) (stream : Bool) :
    Fallible.Keeps P E (buildChatBody Y H b req stream) := by
  refine Fallible.keeps_bind (requestValidate_keeps halloc hinvalid Y req) fun _ => ?_
  refine Fallible.keeps_bind (yyjsonCall_keeps halloc hnomem) fun _ => ?_
  refine Fallible.keeps_bind (yyjsonCall_keeps halloc hnomem) fun _ => ?_
  refine Fallible.keeps_bind (addMember_keeps halloc hnomem _ _ _) fun _ => ?_
  refine Fallible.keeps_bind (messagesMember_keeps halloc hnomem hinvalid Y req) fun _ => ?_
  refine Fallible.keeps_bind (streamMembers_keeps halloc hnomem b stream _) fun _ => ?_
  refine Fallible.keeps_bind (samplerMembers_keeps halloc hnomem req _) fun _ => ?_
  refine Fallible.keeps_bind (stopMember_keeps halloc hnomem req _) fun _ => ?_
  refine Fallible.keeps_bind (responseFormatMember_keeps halloc hnomem hinvalid Y req _) fun _ => ?_
  refine Fallible.keeps_bind (extraMembers_keeps halloc hnomem Y b _) fun _ => ?_
  exact Fallible.keeps_bind (yyjsonCall_keeps halloc hnomem) fun _ => orNomem_keeps hnomem _

end Keeps

/-- The request with one user message. -/
def plainRequest : Request where
  structSizeOk := true
  messages := .list [⟨1, some (ascii "hi"), none, none⟩]
  messagesJson := none
  setMask := 0
  maxTokens := 0
  temperature := 0
  topP := 0
  topK := 0
  presencePenalty := 0
  frequencyPenalty := 0
  stop := .null 0
  responseFormatJson := none
  flags := 0

end Sicha
