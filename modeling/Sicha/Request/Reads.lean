import Sicha.Request.ChatBody

/-!
# The reads of passthrough JSON

A request may bring its messages and its response format as JSON text.  The text is read
when the request is validated, once more when the body validates the request again, and a
third time when it is imported into the body.  A refused allocation and malformed text
look alike to the reader's caller.

Main results:

- Theorem {lit}`requestValidate_accepted`: what a validated request is known to be.
- Theorem {lit}`buildChatBody_invalid`: a body for a validated request is an invalid argument
  exactly when the allocator refuses one of these reads.
-/

namespace Sicha

variable {w : Type}

open Fallible

/-- What {lit}`sicha_request_validate` has found out about a request. -/
structure Accepted (Y : Yyjson) (req : Request) : Prop where
  shape : requestShapeOk req = true
  messages : ∀ json, req.messagesJson = some json → (Y.read json).any Json.isArr = true
  format : ∀ json, req.responseFormatJson = some json → (Y.read json).any Json.isObj = true

/-- The members of a body in front of the messages, the request validated once more. -/
def buildHead (Y : Yyjson) (H : Heap w) (b : Backend) (req : Request) :
    Fallible Status w (List (Bytes × Json)) := do
  requestValidate Y H req
  yyjsonCall H -- the document
  yyjsonCall H -- its root
  addMember H "model" (.str b.model) []

/-- The members of a body in front of the response format. -/
def buildFront (Y : Yyjson) (H : Heap w) (b : Backend) (req : Request) (stream : Bool) :
    Fallible Status w (List (Bytes × Json)) := do
  let members ← buildHead Y H b req
  let messages ← messagesMember Y H req
  let members ← streamMembers H b stream (members ++ [(ascii "messages", messages)])
  let members ← samplerMembers H req members
  stopMember H req members

/-- The members of a body, all that is in front of the writer. -/
def buildRoot (Y : Yyjson) (H : Heap w) (b : Backend) (req : Request) (stream : Bool) :
    Fallible Status w (List (Bytes × Json)) := do
  let members ← buildFront Y H b req stream
  let members ← responseFormatMember Y H req members
  extraMembers Y H b members

/-- The allocator refuses a read of passthrough JSON while a body is built: in the
validation, or in the import. -/
inductive ReadRefused (Y : Yyjson) (H : Heap w) (b : Backend) (req : Request) (stream : Bool)
    (s : w) : Prop
  | messagesCheck {json : Bytes} (h : req.messagesJson = some json)
      (hrefused : (H.alloc yyjsonChunk s).1 = false)
  | formatCheck {json : Bytes} {s1 : w} (h : req.responseFormatJson = some json)
      (hbefore : (validateMessagesJson Y H req.messagesJson).exec s = (.ok (), s1))
      (hrefused : (H.alloc yyjsonChunk s1).1 = false)
  | messagesImport {json : Bytes} {members : List (Bytes × Json)} {s1 : w}
      (h : req.messagesJson = some json)
      (hbefore : (buildHead Y H b req).exec s = (.ok members, s1))
      (hrefused : (H.alloc yyjsonChunk s1).1 = false)
  | formatImport {json : Bytes} {members : List (Bytes × Json)} {s1 : w}
      (h : req.responseFormatJson = some json)
      (hbefore : (buildFront Y H b req stream).exec s = (.ok members, s1))
      (hrefused : (H.alloc yyjsonChunk s1).1 = false)

/-- A reliable allocator refuses no read. -/
theorem Heap.Reliable.no_refusal (hH : H.Reliable) (b : Backend) (req : Request) (stream : Bool)
    (s : w) : ¬ ReadRefused Y H b req stream s := by
  rintro (⟨_, hrefused⟩ | ⟨_, _, hrefused⟩ | ⟨_, _, hrefused⟩ | ⟨_, _, hrefused⟩) <;>
    · rw [hH] at hrefused
      cases hrefused

/-- The building of a body: its front, the response format, and what the backend brings. -/
theorem buildChatBody_front (Y : Yyjson) (H : Heap w) (b : Backend) (req : Request)
    (stream : Bool) :
    buildChatBody Y H b req stream = (do
      let members ← buildFront Y H b req stream
      let members ← responseFormatMember Y H req members
      let members ← extraMembers Y H b members
      yyjsonCall H
      orNomem (Y.write (.obj members))) := by
  simp only [buildChatBody, buildFront, buildHead, bind_assoc]

variable {Y : Yyjson} {H : Heap w}

/-- The error of a refused allocation. -/
inductive OutOfMemory : Status → Prop
  | nomem : OutOfMemory .nomem

/-- Nothing but memory can be missing. -/
abbrev OnlyNomem {α : Type} (m : Fallible Status w α) : Prop :=
  Keeps (fun _ => True) OutOfMemory m

/-- What fails out of memory only does not fail for an invalid argument. -/
theorem OnlyNomem.not_invalid {α : Type} {m : Fallible Status w α} (h : OnlyNomem m) (s : w) :
    ¬ Fails .invalidArg m s :=
  fun hfails => nomatch (h s trivial).2 .invalidArg hfails

/-- The allocator keeps what holds of every environment. -/
theorem onlyNomem_alloc (H : Heap w) :
    ∀ n s, (fun _ : w => True) s → (fun _ : w => True) (H.alloc n s).2 :=
  fun _ _ _ => trivial

/-- A read of good text fails exactly when the allocator refuses it. -/
theorem read_fails {α : Type} {json : Bytes} {v : Json} (hv : Y.read json = some v)
    {next : Option Json → Fallible Status w α} (hnone : ∀ s, Fails .invalidArg (next none) s)
    (hsome : ∀ s, ¬ Fails .invalidArg (next (some v)) s) (s : w) :
    Fails .invalidArg (Fallible.total (yyjsonRead Y H json) >>= next) s ↔
      (H.alloc yyjsonChunk s).1 = false := by
  have hread : (Fallible.total (yyjsonRead Y H json) : Fallible Status w _).exec s =
      (.ok (yyjsonRead Y H json s).1, (yyjsonRead Y H json s).2) := rfl
  rw [fails_bind]
  constructor
  · rintro (h | ⟨root, s', h, hfails⟩)
    · cases h
    · rw [hread] at h
      by_contra hgranted
      have hroot : (yyjsonRead Y H json s).1 = some v := by
        unfold yyjsonRead
        rw [if_pos (by simpa using hgranted), hv]
      rw [hroot] at h
      cases h
      exact hsome _ hfails
  · intro hrefused
    have hroot : (yyjsonRead Y H json s).1 = none := by
      unfold yyjsonRead
      rw [if_neg (by simp [hrefused])]
    rw [hroot] at hread
    exact .inr ⟨none, _, hread, hnone _⟩

/-! ## The validation -/

/-- The check of a text that passes it fails exactly for a refused read. -/
theorem check_fails {check : Json → Bool} {json : Bytes} (hgood : (Y.read json).any check = true)
    (s : w) :
    Fails Status.invalidArg (Fallible.total (yyjsonRead Y H json) >>= fun root =>
      if root.any check then pure () else throw .invalidArg) s ↔
      (H.alloc yyjsonChunk s).1 = false := by
  obtain ⟨v, hv, hcheck⟩ := Option.any_eq_true _ _ |>.mp hgood
  refine read_fails hv (fun s => fails_throw.mpr rfl) (fun s => ?_) s
  rw [if_pos (by simpa using hcheck)]
  exact fails_pure

/-- The check of a message text that is good fails exactly for a refused read. -/
theorem validateMessagesJson_invalid {json : Option Bytes}
    (hgood : ∀ j, json = some j → (Y.read j).any Json.isArr = true) (s : w) :
    Fails .invalidArg (validateMessagesJson Y H json) s ↔
      (∃ j, json = some j) ∧ (H.alloc yyjsonChunk s).1 = false := by
  cases json with
  | none => exact ⟨fun h => absurd h fails_pure, fun h => by simp at h⟩
  | some j => exact (check_fails (hgood j rfl) s).trans (by simp)

/-- The check of an object text that is good fails exactly for a refused read. -/
theorem validateOptionalObject_invalid {json : Option Bytes}
    (hgood : ∀ j, json = some j → (Y.read j).any Json.isObj = true) (s : w) :
    Fails .invalidArg (validateOptionalObject Y H json) s ↔
      (∃ j, json = some j) ∧ (H.alloc yyjsonChunk s).1 = false := by
  cases json with
  | none => exact ⟨fun h => absurd h fails_pure, fun h => by simp at h⟩
  | some j => exact (check_fails (hgood j rfl) s).trans (by simp)

/-- A check of a text that passes has read a good one. -/
theorem validated_any {good : Json → Bool} {json : Bytes} {s s' : w}
    (h : (do
      let root ← Fallible.total (yyjsonRead Y H json)
      if root.any good then pure () else throw .invalidArg : Fallible Status w Unit).exec s =
        (.ok (), s')) : (Y.read json).any good = true := by
  obtain ⟨root, s1, hread, hcheck⟩ := exec_bind_ok.mp h
  have hroot : root.any good = true := by
    by_contra hbad
    rw [if_neg hbad] at hcheck
    cases hcheck
  cases hread
  unfold yyjsonRead at hroot
  split_ifs at hroot
  · exact hroot
  · cases hroot

/-- A validated request has the right shape, and its texts parse. -/
theorem requestValidate_accepted {req : Request} {s s' : w}
    (h : (requestValidate Y H req).exec s = (.ok (), s')) : Accepted Y req := by
  unfold requestValidate at h
  split_ifs at h with hshape
  · obtain ⟨_, s1, hmessages, hformat⟩ := exec_bind_ok.mp h
    refine ⟨hshape, ?_, ?_⟩
    · intro json hjson
      rw [hjson] at hmessages
      exact validated_any hmessages
    · intro json hjson
      rw [hjson] at hformat
      exact validated_any hformat
  · cases h

/-- A valid request is only found invalid again by a refused read, of its messages or of its
response format. -/
theorem requestValidate_invalid {req : Request} (hreq : Accepted Y req) (s : w) :
    Fails .invalidArg (requestValidate Y H req) s ↔
      ((∃ json, req.messagesJson = some json) ∧ (H.alloc yyjsonChunk s).1 = false) ∨
        ∃ s1, (validateMessagesJson Y H req.messagesJson).exec s = (.ok (), s1) ∧
          (∃ json, req.responseFormatJson = some json) ∧ (H.alloc yyjsonChunk s1).1 = false := by
  unfold requestValidate
  rw [if_pos hreq.shape, fails_bind, validateMessagesJson_invalid hreq.messages]
  refine or_congr_right ⟨?_, ?_⟩
  · rintro ⟨_, s1, hbefore, h⟩
    exact ⟨s1, hbefore, (validateOptionalObject_invalid hreq.format s1).mp h⟩
  · rintro ⟨s1, hbefore, h⟩
    exact ⟨(), s1, hbefore, (validateOptionalObject_invalid hreq.format s1).mpr h⟩

/-! ## The body -/

/-- The import of a text that is good fails exactly for a refused read. -/
theorem importJson_invalid {json : Bytes} (expectObj : Bool)
    (hgood : (Y.read json).any (fun v => if expectObj then v.isObj else v.isArr) = true) (s : w) :
    Fails .invalidArg (importJson Y H json expectObj) s ↔ (H.alloc yyjsonChunk s).1 = false := by
  obtain ⟨v, hv, hkind⟩ := Option.any_eq_true _ _ |>.mp hgood
  refine read_fails hv ?_ ?_ s
  · exact fun s => fails_throw.mpr rfl
  · intro s
    have hfilter : ((some v).filter fun v => if expectObj then v.isObj else v.isArr) = some v :=
      Option.filter_eq_some_iff.mpr ⟨rfl, hkind⟩
    rw [hfilter]
    have honly : OnlyNomem (do
        yyjsonCall H
        pure v : Fallible Status w Json) :=
      keeps_bind (yyjsonCall_keeps (onlyNomem_alloc H) .nomem) fun _ => keeps_pure _
    exact honly.not_invalid s

/-- The messages are only found invalid again by a refused read. -/
theorem messagesMember_invalid {req : Request} (hreq : Accepted Y req) (s : w) :
    Fails .invalidArg (messagesMember Y H req) s ↔
      (∃ json, req.messagesJson = some json) ∧ (H.alloc yyjsonChunk s).1 = false := by
  unfold messagesMember
  cases hjson : req.messagesJson with
  | some json =>
      dsimp only
      rw [fails_bind_left, importJson_invalid false (hreq.messages json hjson)]
      · simp
      · intro arr s'
        have honly : OnlyNomem (do
            yyjsonCall H
            pure arr : Fallible Status w Json) :=
          keeps_bind (yyjsonCall_keeps (onlyNomem_alloc H) .nomem) fun _ => keeps_pure _
        exact honly.not_invalid s'
  | none =>
      have honly : OnlyNomem (do
          yyjsonCall H
          yyjsonCall H
          let items ← Fallible.forList (messageJson H) req.messages.items
          pure (Json.arr items) : Fallible Status w Json) :=
        keeps_bind (yyjsonCall_keeps (onlyNomem_alloc H) .nomem) fun _ =>
          keeps_bind (yyjsonCall_keeps (onlyNomem_alloc H) .nomem) fun _ =>
            keeps_bind (keeps_forList (messageJson_keeps (onlyNomem_alloc H) .nomem) _)
              fun _ => keeps_pure _
      exact ⟨fun h => absurd h (honly.not_invalid s), fun h => by simp at h⟩

/-- The response format is only found invalid again by a refused read. -/
theorem responseFormatMember_invalid {req : Request} (hreq : Accepted Y req)
    (members : List (Bytes × Json)) (s : w) :
    Fails .invalidArg (responseFormatMember Y H req members) s ↔
      (∃ json, req.responseFormatJson = some json) ∧ (H.alloc yyjsonChunk s).1 = false := by
  unfold responseFormatMember
  cases hjson : req.responseFormatJson with
  | some json =>
      dsimp only
      rw [fails_bind_left, importJson_invalid true (hreq.format json hjson)]
      · simp
      · intro rf s'
        have honly : OnlyNomem (addMember H "response_format" rf members) :=
          addMember_keeps (onlyNomem_alloc H) .nomem _ _ _
        exact honly.not_invalid s'
  | none => exact ⟨fun h => absurd h fails_pure, fun h => by simp at h⟩

/-- The head of the body fails for an invalid argument exactly where the validation does. -/
theorem buildHead_invalid (req : Request) (b : Backend) (s : w) :
    Fails .invalidArg (buildHead Y H b req) s ↔
      Fails .invalidArg (requestValidate Y H req) s := by
  unfold buildHead
  refine fails_bind_left fun _ s' => ?_
  have honly : OnlyNomem (do
      yyjsonCall H
      yyjsonCall H
      addMember H "model" (.str b.model) []) :=
    keeps_bind (yyjsonCall_keeps (onlyNomem_alloc H) .nomem) fun _ =>
      keeps_bind (yyjsonCall_keeps (onlyNomem_alloc H) .nomem) fun _ =>
        addMember_keeps (onlyNomem_alloc H) .nomem _ _ _
  exact honly.not_invalid s'

/-- With the messages, it also fails so if their read is refused. -/
theorem buildFront_invalid {req : Request} (hreq : Accepted Y req) (b : Backend) (stream : Bool)
    (s : w) :
    Fails .invalidArg (buildFront Y H b req stream) s ↔
      Fails .invalidArg (requestValidate Y H req) s ∨
        ∃ members s1, (buildHead Y H b req).exec s = (.ok members, s1) ∧
          (∃ json, req.messagesJson = some json) ∧ (H.alloc yyjsonChunk s1).1 = false := by
  unfold buildFront
  rw [fails_bind, buildHead_invalid]
  refine or_congr_right (exists_congr fun members => exists_congr fun s1 => and_congr_right fun _ => ?_)
  rw [fails_bind_left, messagesMember_invalid hreq]
  intro messages s2
  have honly : OnlyNomem (do
      let members ← streamMembers H b stream (members ++ [(ascii "messages", messages)])
      let members ← samplerMembers H req members
      stopMember H req members) :=
    keeps_bind (streamMembers_keeps (onlyNomem_alloc H) .nomem b stream _) fun _ =>
      keeps_bind (samplerMembers_keeps (onlyNomem_alloc H) .nomem req _) fun _ =>
        stopMember_keeps (onlyNomem_alloc H) .nomem req _
  exact honly.not_invalid s2

/-- A body for a validated request is an invalid argument exactly when the allocator
refuses a read of passthrough JSON. -/
theorem buildChatBody_invalid {req : Request} (hreq : Accepted Y req) (b : Backend)
    (stream : Bool) (s : w) :
    Fails .invalidArg (buildChatBody Y H b req stream) s ↔ ReadRefused Y H b req stream s := by
  rw [buildChatBody_front, fails_bind, buildFront_invalid hreq, requestValidate_invalid hreq]
  constructor
  · rintro (((⟨⟨_, h⟩, hrefused⟩ | ⟨s1, hbefore, ⟨_, h⟩, hrefused⟩) |
      ⟨members, s1, hbefore, ⟨_, h⟩, hrefused⟩) | ⟨members, s1, hbefore, hfails⟩)
    · exact .messagesCheck h hrefused
    · exact .formatCheck h hbefore hrefused
    · exact .messagesImport h hbefore hrefused
    · rw [fails_bind_left, responseFormatMember_invalid hreq] at hfails
      · obtain ⟨⟨_, h⟩, hrefused⟩ := hfails
        exact .formatImport h hbefore hrefused
      · intro members s2
        have honly : OnlyNomem (do
            let members ← extraMembers Y H b members
            yyjsonCall H
            orNomem (Y.write (.obj members))) :=
          keeps_bind (extraMembers_keeps (onlyNomem_alloc H) .nomem Y b _) fun _ =>
            keeps_bind (yyjsonCall_keeps (onlyNomem_alloc H) .nomem) fun _ => orNomem_keeps .nomem _
        exact honly.not_invalid s2
  · intro hread
    cases hread with
    | messagesCheck h hrefused => exact .inl (.inl (.inl ⟨⟨_, h⟩, hrefused⟩))
    | formatCheck h hbefore hrefused =>
        exact .inl (.inl (.inr ⟨_, hbefore, ⟨_, h⟩, hrefused⟩))
    | messagesImport h hbefore hrefused => exact .inl (.inr ⟨_, _, hbefore, ⟨_, h⟩, hrefused⟩)
    | formatImport h hbefore hrefused =>
        refine .inr ⟨_, _, hbefore, fails_bind.mpr (.inl ?_)⟩
        exact (responseFormatMember_invalid hreq _ _).mpr ⟨⟨_, h⟩, hrefused⟩

end Sicha
