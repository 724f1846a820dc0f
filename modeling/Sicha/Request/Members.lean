import Sicha.Lib.LastWins
import Sicha.Request.Reads

/-!
# The members of a chat body

What {lit}`sicha_build_chat_body` writes: the members it generates itself, in order, into
which the members of the backend's extra object are merged one by one.

Main results:

- Definition {lit}`generated`: the generated members, as a list.
- Theorem {lit}`buildRoot_yields`: the loop and the conditional members compute the merge of
  the two lists.
- Theorem {lit}`buildChatBody_content`: the root object has distinct names, the extra
  object's last value wins, and the order is that of the last additions.
-/

namespace Sicha

variable {w : Type}

open Fallible LastWins

/-! ## The generated members -/

/-- A member that is there when it has a value. -/
def optionalMember (key : String) : Option Json → List (Bytes × Json)
  | some v => [(ascii key, v)]
  | none => []

/-- A member that is there when a condition holds. -/
def memberIf (cond : Bool) (key : String) (value : Json) : List (Bytes × Json) :=
  if cond then [(ascii key, value)] else []

/-- The tree of one message: the role's name, the exact bytes of the content, and the id of
the tool call it answers. -/
def messageTree (m : Message) : Json :=
  .obj (optionalMember "role" ((roleStr m.role).map Json.str) ++
    [(ascii "content", .str m.contentBytes)] ++
    optionalMember "tool_call_id" (m.toolCallId.map Json.str))

/-- The value of {lit}`messages`: the parsed text when the request brings one, otherwise the
messages of the array. -/
def messagesTree (Y : Yyjson) (req : Request) : Option Json :=
  match req.messagesJson with
  | some json => Y.read json
  | none => some (.arr (req.messages.items.map messageTree))

/-- The members by which a body asks for a stream. -/
def streamGenerated (b : Backend) (stream : Bool) : List (Bytes × Json) :=
  memberIf stream "stream" (.bool true) ++
    memberIf (stream && b.flags &&& backendStreamUsage != 0) "stream_options"
      (.obj [(ascii "include_usage", .bool true)])

/-- The samplers whose bit is on. -/
def samplerGenerated (req : Request) : List (Bytes × Json) :=
  memberIf (req.sets setMaxTokens) "max_tokens" (.sint (Int64.ofInt req.maxTokens)) ++
    memberIf (req.sets setTemperature) "temperature" (.real req.temperature) ++
    memberIf (req.sets setTopP) "top_p" (.real req.topP) ++
    memberIf (req.sets setTopK) "top_k" (.sint (Int64.ofInt req.topK)) ++
    memberIf (req.sets setPresencePenalty) "presence_penalty" (.real req.presencePenalty) ++
    memberIf (req.sets setFrequencyPenalty) "frequency_penalty" (.real req.frequencyPenalty)

/-- The generated members of a body, in order. -/
def generated (Y : Yyjson) (b : Backend) (req : Request) (stream : Bool) :
    List (Bytes × Json) :=
  [(ascii "model", .str b.model)] ++
    optionalMember "messages" (messagesTree Y req) ++
    streamGenerated b stream ++
    samplerGenerated req ++
    memberIf (!req.stop.items.isEmpty) "stop"
      (.arr (req.stop.items.reduceOption.map Json.str)) ++
    optionalMember "response_format" (req.responseFormatJson.bind Y.read)

/-- The members of the extra object of a backend. -/
def extraGenerated (Y : Yyjson) (b : Backend) : List (Bytes × Json) :=
  ((b.extraBodyJson.bind Y.read).map Json.members).getD []

/-- The names a body may generate, in order. -/
def generatedNames : List Bytes :=
  [ascii "model"] ++ [ascii "messages"] ++ ([ascii "stream"] ++ [ascii "stream_options"]) ++
    ([ascii "max_tokens"] ++ [ascii "temperature"] ++ [ascii "top_p"] ++ [ascii "top_k"] ++
      [ascii "presence_penalty"] ++ [ascii "frequency_penalty"]) ++
    [ascii "stop"] ++ [ascii "response_format"]

/-- An optional member has its own name, or none. -/
theorem names_optionalMember (key : String) (v : Option Json) :
    (names (optionalMember key v)).Sublist [ascii key] := by
  cases v with
  | some v => exact List.Sublist.refl _
  | none => exact List.nil_sublist _

/-- A member under a condition has its own name, or none. -/
theorem names_memberIf (cond : Bool) (key : String) (v : Json) :
    (names (memberIf cond key v)).Sublist [ascii key] := by
  cases cond with
  | true => exact List.Sublist.refl _
  | false => exact List.nil_sublist _

/-- The generated names are distinct, whichever of them a request needs. -/
theorem nodup_generated (Y : Yyjson) (b : Backend) (req : Request) (stream : Bool) :
    (names (generated Y b req stream)).Nodup := by
  have hall : generatedNames.Nodup := by decide
  refine hall.sublist ?_
  simp only [generated, streamGenerated, samplerGenerated, names_append, generatedNames]
  have hopt := names_optionalMember
  have hif := names_memberIf
  refine .append (.append (.append (.append (.append (.refl _) (hopt ..)) ?_) ?_) (hif ..)) (hopt ..)
  · exact .append (hif ..) (hif ..)
  · exact .append (.append (.append (.append (.append (hif ..) (hif ..)) (hif ..)) (hif ..))
      (hif ..)) (hif ..)

/-! ## What the code builds -/

section Yields

variable {Y : Yyjson} {H : Heap w} {X : Prop} (hheap : H.Reliable ∨ X)

include hheap

/-- A call of the document builder succeeds, unless the allocator refused. -/
theorem yyjsonCall_yields : Yields X (yyjsonCall H) fun _ => True :=
  yields_guarded (hheap.imp_left fun h s => h _ s)

/-- An added member stands behind the others. -/
theorem addMember_yields (key : String) (value : Json) (members : List (Bytes × Json)) :
    Yields X (addMember H key value members) (· = members ++ [(ascii key, value)]) :=
  yields_bind (yyjsonCall_yields hheap) fun _ _ => yields_pure rfl

/-- A member under a condition stands behind the others, if it is added. -/
theorem addMemberIf_yields (cond : Bool) (key : String) (value : Json)
    (members : List (Bytes × Json)) :
    Yields X (addMemberIf H cond key value members) (· = members ++ memberIf cond key value) := by
  unfold addMemberIf memberIf
  split_ifs
  · exact addMember_yields hheap key value members
  · exact yields_pure (by simp)

/-- A read yields the tree of the text, unless it is refused. -/
theorem yyjsonRead_yields (json : Bytes) :
    Yields X (Fallible.total (yyjsonRead Y H json) : Fallible Status w _)
      fun root => root = Y.read json ∨ root = none ∧ X := by
  refine yields_total fun s => ?_
  unfold yyjsonRead
  by_cases hgranted : (H.alloc yyjsonChunk s).1 = true
  · rw [if_pos hgranted]
    exact .inl rfl
  · rw [if_neg hgranted]
    rcases hheap with hH | hX
    · exact absurd (hH _ _) hgranted
    · exact .inr ⟨rfl, hX⟩

/-- The import of a text of the expected kind yields its tree. -/
theorem importJson_yields {json : Bytes} {v : Json} (expectObj : Bool)
    (hv : Y.read json = some v) (hkind : (if expectObj then v.isObj else v.isArr) = true) :
    Yields X (importJson Y H json expectObj) (· = v) := by
  refine yields_bind (yyjsonRead_yields hheap json) ?_
  rintro root (rfl | ⟨rfl, hX⟩)
  · have hfilter : ((Y.read json).filter fun v => if expectObj then v.isObj else v.isArr) =
        some v := by
      rw [hv]
      exact Option.filter_eq_some_iff.mpr ⟨rfl, hkind⟩
    rw [hfilter]
    exact yields_bind (yyjsonCall_yields hheap) fun _ _ => yields_pure rfl
  · exact yields_throw hX

/-- One message of the array. -/
theorem messageJson_yields {m : Message} (hm : messageOk m = true) :
    Yields X (messageJson H m) (· = messageTree m) := by
  obtain ⟨role, hrole⟩ : ∃ role, roleStr m.role = some role := by
    simp only [messageOk, Bool.and_eq_true] at hm
    exact Option.isSome_iff_exists.mp hm.1.1.1
  refine yields_bind (yyjsonCall_yields hheap) fun _ _ => ?_
  refine yields_bind (addMember_yields hheap _ _ _) ?_
  rintro _ rfl
  refine yields_bind (addMember_yields hheap _ _ _) ?_
  rintro _ rfl
  refine yields_bind (addMemberIf_yields hheap _ _ _ _) ?_
  rintro _ rfl
  refine yields_pure ?_
  unfold messageTree
  rw [hrole]
  cases m.toolCallId <;> rfl

/-- The messages, from the text or from the array. -/
theorem messagesMember_yields {req : Request} (hreq : Accepted Y req) :
    Yields X (messagesMember Y H req) fun v => messagesTree Y req = some v := by
  unfold messagesMember messagesTree
  cases hjson : req.messagesJson with
  | some json =>
      obtain ⟨v, hv, harr⟩ := Option.any_eq_true _ _ |>.mp (hreq.messages json hjson)
      refine yields_bind (importJson_yields hheap false hv harr) ?_
      rintro _ rfl
      exact yields_bind (yyjsonCall_yields hheap) fun _ _ => yields_pure hv
  | none =>
      have hall : ∀ m ∈ req.messages.items, messageOk m = true := by
        have hshape := hreq.shape
        simp only [requestShapeOk, Bool.and_eq_true] at hshape
        exact List.all_eq_true.mp hshape.1.1.1.1.1.1.1.1.2
      refine yields_bind (yyjsonCall_yields hheap) fun _ _ => ?_
      refine yields_bind (yyjsonCall_yields hheap) fun _ _ => ?_
      refine yields_bind (yields_forList fun m hm => messageJson_yields hheap (hall m hm)) ?_
      rintro _ rfl
      exact yields_pure rfl

/-- The members of a stream stand behind the others. -/
theorem streamMembers_yields (b : Backend) (stream : Bool) (members : List (Bytes × Json)) :
    Yields X (streamMembers H b stream members) (· = members ++ streamGenerated b stream) := by
  unfold streamMembers streamGenerated
  cases stream with
  | false => exact yields_pure (by simp [memberIf])
  | true =>
      refine yields_bind (addMember_yields hheap _ _ _) ?_
      rintro _ rfl
      unfold streamOptionsMember
      by_cases husage : b.flags &&& backendStreamUsage = 0
      · rw [if_neg (by simpa using husage)]
        exact yields_pure (by simp [memberIf, husage])
      · rw [if_pos husage]
        refine yields_bind (yyjsonCall_yields hheap) fun _ _ => ?_
        refine yields_bind (addMember_yields hheap _ _ _) ?_
        rintro _ rfl
        have hsplit : memberIf true "stream" (.bool true) ++
            memberIf (true && b.flags &&& backendStreamUsage != 0) "stream_options"
              (.obj [(ascii "include_usage", .bool true)]) =
            [(ascii "stream", .bool true)] ++
              [(ascii "stream_options", .obj [(ascii "include_usage", .bool true)])] := by
          simp [memberIf, husage]
        rw [hsplit, ← List.append_assoc]
        exact addMember_yields hheap _ _ _

/-- The samplers that are set stand behind the others. -/
theorem samplerMembers_yields (req : Request) (members : List (Bytes × Json)) :
    Yields X (samplerMembers H req members) (· = members ++ samplerGenerated req) := by
  unfold samplerMembers samplerGenerated
  simp only [← List.append_assoc]
  refine yields_bind (addMemberIf_yields hheap _ _ _ _) ?_
  rintro _ rfl
  refine yields_bind (addMemberIf_yields hheap _ _ _ _) ?_
  rintro _ rfl
  refine yields_bind (addMemberIf_yields hheap _ _ _ _) ?_
  rintro _ rfl
  refine yields_bind (addMemberIf_yields hheap _ _ _ _) ?_
  rintro _ rfl
  refine yields_bind (addMemberIf_yields hheap _ _ _ _) ?_
  rintro _ rfl
  exact addMemberIf_yields hheap _ _ _ _

/-- The stop sequences; every one of a validated request is there. -/
theorem stopMember_yields {req : Request} (hreq : Accepted Y req)
    (members : List (Bytes × Json)) :
    Yields X (stopMember H req members)
      (· = members ++ memberIf (!req.stop.items.isEmpty) "stop"
        (.arr (req.stop.items.reduceOption.map Json.str))) := by
  have hall : ∀ s ∈ req.stop.items, stopOk s = true := by
    have hshape := hreq.shape
    simp only [requestShapeOk, Bool.and_eq_true] at hshape
    exact List.all_eq_true.mp hshape.2
  have hstrings : ∀ items : List (Option Bytes), (∀ s ∈ items, stopOk s = true) →
      items.map (fun s => Json.str (s.getD [])) = items.reduceOption.map Json.str := by
    intro items hitems
    induction items with
    | nil => rfl
    | cons s items ih =>
        have hrest := ih fun s' hs' => hitems s' (by simp [hs'])
        cases s with
        | none => exact absurd (hitems none (by simp)) (by simp [stopOk])
        | some s => exact congrArg (Json.str s :: ·) hrest
  have hvalue := hstrings req.stop.items hall
  unfold stopMember
  cases hstop : req.stop.items with
  | nil => exact yields_pure (by simp [memberIf])
  | cons s rest =>
      rw [hstop] at hvalue
      refine yields_bind (yyjsonCall_yields hheap) fun _ _ => ?_
      refine yields_bind (yyjsonCall_yields hheap) fun _ _ => ?_
      refine yields_bind (@yields_forList _ _ _ _ _ _ (fun s => Json.str (s.getD [])) _
        fun s _ => yields_bind (yyjsonCall_yields hheap) fun _ _ => yields_pure rfl) ?_
      rintro _ rfl
      refine yields_pure ?_
      rw [← hvalue]
      rfl

/-- The response format stands behind the others as the tree that its text reads as. -/
theorem responseFormatMember_yields {req : Request} (hreq : Accepted Y req)
    (members : List (Bytes × Json)) :
    Yields X (responseFormatMember Y H req members)
      (· = members ++ optionalMember "response_format" (req.responseFormatJson.bind Y.read)) := by
  unfold responseFormatMember
  cases hjson : req.responseFormatJson with
  | some json =>
      obtain ⟨v, hv, hobj⟩ := Option.any_eq_true _ _ |>.mp (hreq.format json hjson)
      refine yields_bind (importJson_yields hheap true hv hobj) ?_
      rintro _ rfl
      simp only [Option.bind_some, hv]
      exact addMember_yields hheap _ _ _
  | none => exact yields_pure (by simp [optionalMember])

/-- One round of the merge loop puts one member. -/
theorem mergeMember_yields (members : List (Bytes × Json)) (m : Bytes × Json) :
    Yields X (mergeMember H members m) (· = put members m) := by
  refine yields_bind (mallocFor_yields hheap _ m.1) fun key hkey => ?_
  refine yields_bind (mallocFor_yields hheap _ m.2) fun value hvalue => ?_
  refine yields_bind (orNomem_yields hkey) ?_
  rintro _ rfl
  refine yields_bind (orNomem_yields hvalue) ?_
  rintro _ rfl
  exact yields_pure rfl

/-- A merge puts all members of the backend. -/
theorem mergeMembers_yields (members extra : List (Bytes × Json)) :
    Yields X (mergeMembers H members extra) (· = putAll members extra) := by
  induction extra generalizing members with
  | nil => exact yields_pure rfl
  | cons m rest ih =>
      refine yields_bind (mergeMember_yields hheap members m) ?_
      rintro _ rfl
      exact ih (put members m)

/-- The extra object merges last. -/
theorem extraMembers_yields {b : Backend}
    (hextra : (∀ json, b.extraBodyJson = some json → (Y.read json).isSome = true) ∨ X)
    (members : List (Bytes × Json)) :
    Yields X (extraMembers Y H b members) (· = putAll members (extraGenerated Y b)) := by
  unfold extraMembers extraGenerated
  cases hjson : b.extraBodyJson with
  | none => exact yields_pure rfl
  | some json =>
      refine yields_bind (yyjsonRead_yields hheap json) fun root hroot => ?_
      cases hread : Y.read json with
      | some tree =>
          rw [hread] at hroot
          refine yields_bind (orNomem_yields hroot) ?_
          rintro _ rfl
          simp only [Option.bind_some, hread, Option.map_some, Option.getD_some]
          exact mergeMembers_yields hheap _ _
      | none =>
          have hX : X := by
            rcases hextra with hextra | hX
            · exact absurd (hextra json hjson) (by simp [hread])
            · exact hX
          have hnone : root = none := by
            rcases hroot with rfl | ⟨rfl, -⟩
            · exact hread
            · rfl
          rw [hnone]
          have hthrow : Yields X (orNomem (none : Option Json) : Fallible Status w Json)
              fun _ => False := yields_throw hX
          exact yields_bind hthrow fun _ h => h.elim

/-- The validation inside the body passes for a request that was validated. -/
theorem requestValidate_yields {req : Request} (hreq : Accepted Y req) :
    Yields X (requestValidate Y H req) fun _ => True := by
  have hcheck : ∀ (json : Option Bytes) (kind : Json → Bool),
      (∀ text, json = some text → (Y.read text).any kind = true) →
      ∀ text, json = some text → Yields X (do
        let root ← Fallible.total (yyjsonRead Y H text)
        if root.any kind then pure () else throw Status.invalidArg : Fallible Status w Unit)
        fun _ => True := by
    intro json kind hgood text htext
    refine yields_bind (yyjsonRead_yields hheap text) ?_
    rintro root (rfl | ⟨rfl, hX⟩)
    · rw [if_pos (hgood text htext)]
      exact yields_pure trivial
    · exact yields_throw hX
  unfold requestValidate
  rw [if_pos hreq.shape]
  refine @yields_bind _ _ _ _ _ (fun _ => True) _ _ _ ?_ fun _ _ => ?_
  · cases hjson : req.messagesJson with
    | none => exact yields_pure trivial
    | some json => exact hcheck _ _ hreq.messages json hjson
  · cases hjson : req.responseFormatJson with
    | none => exact yields_pure trivial
    | some json => exact hcheck _ _ hreq.format json hjson

/-- Everything of {lit}`sicha_build_chat_body` in front of the writer yields the merge of the
extra members into the generated ones. -/
theorem buildRoot_yields {req : Request} (hreq : Accepted Y req) {b : Backend}
    (hextra : (∀ json, b.extraBodyJson = some json → (Y.read json).isSome = true) ∨ X)
    (stream : Bool) :
    Yields X (buildRoot Y H b req stream)
      (· = putAll (generated Y b req stream) (extraGenerated Y b)) := by
  unfold buildRoot buildFront buildHead
  simp only [bind_assoc]
  refine yields_bind (requestValidate_yields hheap hreq) fun _ _ => ?_
  refine yields_bind (yyjsonCall_yields hheap) fun _ _ => ?_
  refine yields_bind (yyjsonCall_yields hheap) fun _ _ => ?_
  refine yields_bind (addMember_yields hheap _ _ _) ?_
  rintro _ rfl
  refine yields_bind (messagesMember_yields hheap hreq) fun messages hmessages => ?_
  refine yields_bind (streamMembers_yields hheap b stream _) ?_
  rintro _ rfl
  refine yields_bind (samplerMembers_yields hheap req _) ?_
  rintro _ rfl
  refine yields_bind (stopMember_yields hheap hreq _) ?_
  rintro _ rfl
  refine yields_bind (responseFormatMember_yields hheap hreq _) ?_
  rintro _ rfl
  have hgenerated : generated Y b req stream = [] ++ [(ascii "model", .str b.model)] ++
      [(ascii "messages", messages)] ++ streamGenerated b stream ++ samplerGenerated req ++
      memberIf (!req.stop.items.isEmpty) "stop"
        (.arr (req.stop.items.reduceOption.map Json.str)) ++
      optionalMember "response_format" (req.responseFormatJson.bind Y.read) := by
    unfold generated
    rw [hmessages]
    rfl
  rw [hgenerated]
  exact extraMembers_yields hheap hextra _

end Yields

/-! ## The body -/

/-- The root object that comes out of a merge of the extra members into the generated ones:
its names are distinct; under a name of the extra object stands that object's last value of
the name, under every other name the generated value; and the unused generated names come in
their order, then the extra names in the order of their last occurrence. -/
structure MergedRoot (generated extra root : List (Bytes × Json)) : Prop where
  distinct : (names root).Nodup
  value : ∀ k, (Json.obj root).get? k =
    (lastValue? extra k).or ((Json.obj generated).get? k)
  order : names root =
    ((names generated).filter fun k => k ∉ names extra) ++ (names extra).dedup

/-- To put members into distinct ones merges them. -/
theorem putAll_merged {generated : List (Bytes × Json)} (h : (names generated).Nodup)
    (extra : List (Bytes × Json)) : MergedRoot generated extra (putAll generated extra) where
  distinct := nodup_putAll h extra
  value k := value_putAll generated extra k
  order := names_putAll generated extra

/-- Whenever the body of a validated request is written, it is the text of the merged root
object.  If no allocation fails, the body is written whenever the writer can encode that
object. -/
theorem buildChatBody_content (Y : Yyjson) (H : Heap w) (b : Backend) (req : Request)
    (stream : Bool) {s0 s1 : w} (hreq : (requestValidate Y H req).exec s0 = (.ok (), s1)) :
    ∃ root, MergedRoot (generated Y b req stream) (extraGenerated Y b) root ∧
      (∀ s text s', (buildChatBody Y H b req stream).exec s = (.ok text, s') →
        Y.write (.obj root) = some text) ∧
      (H.Reliable → (∀ json, b.extraBodyJson = some json → (Y.read json).isSome = true) →
        ∀ s text, Y.write (.obj root) = some text →
          ((buildChatBody Y H b req stream).exec s).1 = .ok text) := by
  have hacc := requestValidate_accepted hreq
  have hbody : buildChatBody Y H b req stream = (do
      let root ← buildRoot Y H b req stream
      yyjsonCall H
      orNomem (Y.write (.obj root))) := by
    rw [buildChatBody_front]
    simp only [buildRoot, bind_assoc]
  refine ⟨putAll (generated Y b req stream) (extraGenerated Y b),
    putAll_merged (nodup_generated Y b req stream) _, ?_, ?_⟩
  · intro s text s' hrun
    rw [hbody] at hrun
    obtain ⟨root, s1, hroot, hrun⟩ := exec_bind_ok.mp hrun
    obtain ⟨-, s2, -, hwrite⟩ := exec_bind_ok.mp hrun
    obtain rfl := (buildRoot_yields (X := True) (.inr trivial) hacc (.inr trivial) stream).value
      hroot
    cases htext : Y.write (.obj (putAll (generated Y b req stream) (extraGenerated Y b))) with
    | some text =>
        rw [htext] at hwrite
        cases hwrite
        rfl
    | none =>
        rw [htext] at hwrite
        cases hwrite
  · intro hH hextra s text hwrite
    have hyields : Yields False (buildChatBody Y H b req stream) (· = text) := by
      rw [hbody]
      refine yields_bind (buildRoot_yields (.inl hH) hacc (.inl hextra) stream) ?_
      rintro _ rfl
      refine yields_bind (yyjsonCall_yields (.inl hH)) fun _ _ => ?_
      rw [hwrite]
      exact yields_pure rfl
    obtain ⟨a, ha, rfl⟩ | ⟨hfalse, -⟩ := hyields s
    · exact ha
    · exact hfalse.elim

/-- An extra object that uses a generated name, and twice a name of its own. -/
def seedObject : List (Bytes × Json) :=
  [(ascii "seed", .uint 1), (ascii "model", .str (ascii "n")), (ascii "seed", .uint 2)]

/-- A backend with that extra object. -/
def seedBackend : Backend :=
  { plainBackend with extraBodyJson := some (ascii "seed") }

/-- A backend that brings a seed: it stands behind the generated members. -/
theorem buildChatBody_content_seed :
    ∃ root, MergedRoot
        [(ascii "model", .str (ascii "m")),
          (ascii "messages", .arr [.obj [(ascii "role", .str (ascii "user")),
            (ascii "content", .str (ascii "hi"))]])]
        seedObject root ∧
      ((buildChatBody (plainYyjson (ascii "seed") (.obj seedObject)) Heap.plentiful seedBackend
        plainRequest false).exec ()).1 = .ok plainBody := by
  obtain ⟨root, hroot, -, hwritten⟩ := @buildChatBody_content Unit
    (plainYyjson (ascii "seed") (.obj seedObject)) Heap.plentiful seedBackend plainRequest
    false () () rfl
  refine ⟨root, hroot, hwritten Heap.plentiful_reliable ?_ () plainBody rfl⟩
  rintro json ⟨⟩
  rfl

end Sicha
