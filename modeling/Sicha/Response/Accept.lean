import Sicha.Response.Assembly

/-!
# What a body is accepted for

The non-streaming parse, with an allocator that does not fail and buffers that take every piece:
which bodies it accepts, what it reads from them, and that a body it rejects leaves the result
as it was.

Main results:

- Definition {lit}`Usable`: a JSON tree with an answer in its first choice.
- Theorem {lit}`responseParse_usable`: what the parse of a usable body reads.
- Theorem {lit}`responseParse_unusable`: the parse of any other body only fails.
- Theorem {lit}`responseParse_accepts_iff`: the three body states, and that a rejected body
  changes no content.
-/

namespace Sicha

/-! ## Usable bodies -/

/-- A JSON tree with an answer: {lit}`choice0` is the first element of its {lit}`choices`, and
{lit}`msg` the message of that choice, with a string content or with tool calls. -/
structure Usable (root choice0 msg : Json) : Prop where
  choices : ∃ rest, root.get? (ascii "choices") = some (.arr (choice0 :: rest))
  choice : choice0.isObj = true
  message : choice0.get? (ascii "message") = some msg
  object : msg.isObj = true
  answer : (∃ content, msg.get? (ascii "content") = some (.str content)) ∨
    ∃ call calls, msg.get? (ascii "tool_calls") = some (.arr (call :: calls))

/-- The first choice of a usable answer is an object. -/
theorem Usable.first {root choice0 msg : Json} (h : Usable root choice0 msg) :
    (firstChoice root).filter Json.isObj = some choice0 := by
  obtain ⟨rest, hchoices⟩ := h.choices
  rw [firstChoice, hchoices]
  exact Option.filter_eq_some_iff.mpr ⟨rfl, h.choice⟩

/-- The message of a usable answer is an object. -/
theorem Usable.msg {root choice0 msg : Json} (h : Usable root choice0 msg) :
    (choice0.get? (ascii "message")).filter Json.isObj = some msg :=
  Option.filter_eq_some_iff.mpr ⟨h.message, h.object⟩

/-- A tree with a first element is an array that begins with it. -/
theorem Json.first?_eq_some {v first : Json} (h : v.first? = some first) :
    ∃ rest, v = .arr (first :: rest) := by
  cases v with
  | arr items =>
      cases items with
      | nil => cases h
      | cons v rest =>
          cases h
          exact ⟨rest, rfl⟩
  | _ => cases h

/-- A string member is a member that is a string. -/
theorem Json.getStr?_eq_some {v : Json} {key s : Bytes} :
    v.getStr? key = some s ↔ v.get? key = some (.str s) := by
  unfold Json.getStr?
  constructor
  · intro h
    obtain ⟨m, hm, hs⟩ := Option.bind_eq_some_iff.mp h
    cases m with
    | str t =>
        cases hs
        exact hm
    | _ => cases hs
  · intro h
    rw [h]
    rfl

/-- There are tool calls if the member is an array that is not empty. -/
theorem hasToolCalls_iff {msg : Json} :
    hasToolCalls (some msg) = true ↔
      ∃ call calls, msg.get? (ascii "tool_calls") = some (.arr (call :: calls)) := by
  unfold hasToolCalls
  rw [Option.bind_some, Option.isSome_iff_exists]
  constructor
  · rintro ⟨call, h⟩
    obtain ⟨v, hv, hfirst⟩ := Option.bind_eq_some_iff.mp h
    obtain ⟨calls, rfl⟩ := Json.first?_eq_some hfirst
    exact ⟨call, calls, hv⟩
  · rintro ⟨call, calls, h⟩
    rw [h]
    exact ⟨call, rfl⟩

/-- The guards of the parse pass on the usable trees only. -/
theorem Usable.of_guards {root choice0 msg : Json}
    (hfirst : (firstChoice root).filter Json.isObj = some choice0)
    (hmsg : (choice0.get? (ascii "message")).filter Json.isObj = some msg)
    (hanswer : (msg.getStr? (ascii "content")).isSome ∨ hasToolCalls (some msg) = true) :
    Usable root choice0 msg := by
  obtain ⟨hchoice, hobj⟩ := Option.filter_eq_some_iff.mp hfirst
  obtain ⟨hmessage, hobject⟩ := Option.filter_eq_some_iff.mp hmsg
  obtain ⟨v, hv, hv0⟩ := Option.bind_eq_some_iff.mp hchoice
  obtain ⟨rest, rfl⟩ := Json.first?_eq_some hv0
  refine ⟨⟨rest, hv⟩, hobj, hmessage, hobject, ?_⟩
  rcases hanswer with hcontent | hcalls
  · obtain ⟨content, h⟩ := Option.isSome_iff_exists.mp hcontent
    exact .inl ⟨content, Json.getStr?_eq_some.mp h⟩
  · exact .inr (hasToolCalls_iff.mp hcalls)

section Parse

variable [SizeT] {w : Type}

/-! ## Room for the pieces -/

/-- The buffer takes these bytes: it carries no error, and they fit under its cap, if it has one,
and into the address space. -/
structure Buf.Takes (b : Buf) (bytes : Bytes) : Prop where
  err : b.err = .ok
  cap : b.maxLen = 0 ∨ b.len + bytes.length ≤ b.maxLen
  room : b.len + bytes.length < sizeMax

/-- What a buffer takes is appended without an error. -/
theorem Buf.Takes.append {b : Buf} {bytes : Bytes} (h : b.Takes bytes) :
    (b.view.append bytes).err = .ok := by
  have hlen : (b.bytes ++ bytes).length = b.len + bytes.length := by
    rw [List.length_append, Buf.bytes_length]
  refine (CappedBytes.append_ok_iff _ _).mpr ⟨h.err, ?_, ?_⟩
  · exact hlen ▸ h.cap
  · exact hlen ▸ h.room

/-- No cap is exceeded by the pieces that the parse of a body stores. -/
def BodyFits (Y : Yyjson) (r : Result) (body : Bytes) : Prop :=
  ∀ root choice0 msg, Y.read body = some root → Usable root choice0 msg →
    (∀ content, msg.getStr? (ascii "content") = some content → r.text.Takes content) ∧
      ∀ reasoning, findReasoning choice0 (some msg) = some reasoning →
        r.reasoning.Takes reasoning

/-! ## What an accepted body leaves -/

/-- The parse has accepted: the text and the reasoning have grown by these bytes and the lifted
fields have become {lit}`a`. -/
structure ParsedTo (x : Status × BodyState × Result × w) (r : Result) (text reasoning : Bytes)
    (a : Lifted) : Prop where
  status : x.1 = .ok
  state : x.2.1 = .ok
  text : x.2.2.1.text.view = r.text.view.plus text
  reasoning : x.2.2.1.reasoning.view = r.reasoning.view.plus reasoning
  lifted : x.2.2.1.lifted = a

variable {H : Heap w} (hH : H.Reliable)

include hH

/-- The tail of a body lifts the usage and the model. -/
theorem parseTail_parsed (root : Json) (r : Result) (s : w) :
    ParsedTo (parseTail H root r s) r [] [] (r.lifted.reported root) := by
  have hlift := liftModel_lifted hH r root s
  have hframe := liftModel_frame H (liftUsage r root) root s
  have husage := liftUsage_frame r root
  have htail : parseTail H root r s =
      (.ok, .ok, (liftModel H (liftUsage r root) root s).2) := by
    unfold parseTail
    split <;> rename_i hm <;> rw [hm] at hlift ⊢
    rename_i hne
    exact absurd hlift.1 hne
  rw [htail]
  refine ⟨rfl, rfl, ?_, ?_, hlift.2⟩
  · rw [CappedBytes.plus_nil]
    exact congrArg Buf.view (hframe.text.trans husage.text)
  · rw [CappedBytes.plus_nil]
    exact congrArg Buf.view (hframe.reasoning.trans husage.reasoning)

/-- The finish reason is stored before the tail. -/
theorem parseFinish_parsed (root choice0 : Json) (r : Result) (s : w) :
    ParsedTo (parseFinish H root choice0 r s) r [] []
      ((r.lifted.finished (choice0.getStr? (ascii "finish_reason"))).reported root) := by
  unfold parseFinish
  cases choice0.getStr? (ascii "finish_reason") with
  | none => exact parseTail_parsed hH root r s
  | some raw =>
      have hset : resultSetFinish H r raw s =
          (.ok, { r with finishRaw := some raw, finish := mapFinish raw },
            (H.alloc (raw.length + 1) s).2) := by
        unfold resultSetFinish
        rw [if_pos (hH _ _)]
      dsimp only
      rw [hset]
      have htail := parseTail_parsed hH root
        { r with finishRaw := some raw, finish := mapFinish raw } (H.alloc (raw.length + 1) s).2
      exact ⟨htail.status, htail.state, htail.text, htail.reasoning, htail.lifted⟩

/-- An append that the buffer takes goes on to the rest of the parse. -/
theorem afterAppend_takes {b : Buf} {bytes : Bytes} (hfits : b.Takes bytes) (r : Result)
    (s s' : w) (next : Result → w → Status × BodyState × Result × w) :
    (bufAppend H b bytes s).1.view = b.view.plus bytes ∧
      afterAppend (bufAppend H b bytes s).1 r s' next = next r s' := by
  have hview := (bufAppend_view hH b bytes s).trans (CappedBytes.append_ok hfits.append)
  have hok : (bufAppend H b bytes s).1.err = .ok :=
    (congrArg CappedBytes.err hview).trans hfits.err
  refine ⟨hview, ?_⟩
  unfold afterAppend bufStatus
  rw [if_neg (by rw [hok]; decide), if_neg (by simp [hok])]

/-- The reasoning is stored before the finish reason, if it fits. -/
theorem parseReasoning_parsed (root choice0 : Json) (msg : Option Json) (r : Result) (s : w)
    (hfits : ∀ reasoning, findReasoning choice0 msg = some reasoning →
      r.reasoning.Takes reasoning) :
    ParsedTo (parseReasoning H root choice0 msg r s) r [] ((findReasoning choice0 msg).getD [])
      ((r.lifted.finished (choice0.getStr? (ascii "finish_reason"))).reported root) := by
  unfold parseReasoning
  cases hfind : findReasoning choice0 msg with
  | none => exact parseFinish_parsed hH root choice0 r s
  | some reasoning =>
      dsimp only
      obtain ⟨hview, hnext⟩ := afterAppend_takes hH (hfits reasoning hfind)
        { r with reasoning := (bufAppend H r.reasoning reasoning s).1 } s
        (bufAppend H r.reasoning reasoning s).2 (parseFinish H root choice0)
      rw [hnext]
      have hrest := parseFinish_parsed hH root choice0
        { r with reasoning := (bufAppend H r.reasoning reasoning s).1 }
        (bufAppend H r.reasoning reasoning s).2
      refine ⟨hrest.status, hrest.state, hrest.text, ?_, hrest.lifted⟩
      rw [hrest.reasoning, CappedBytes.plus_nil]
      exact hview

/-- The parse of a usable body, all its pieces within the caps: the content, the first reasoning
found and the lifted fields are in the result. -/
theorem responseParse_usable {Y : Yyjson} {r : Result} {body : Bytes} {root choice0 msg : Json}
    (hbody : body.length ≠ 0) (hread : Y.read body = some root)
    (husable : Usable root choice0 msg) (hfits : BodyFits Y r body) (s : w) :
    ParsedTo (responseParse Y H r body s) r
      ((msg.getStr? (ascii "content")).getD []) ((findReasoning choice0 (some msg)).getD [])
      ((r.lifted.finished (choice0.getStr? (ascii "finish_reason"))).reported root) := by
  obtain ⟨htext, hreasoning⟩ := hfits root choice0 msg hread husable
  have hgot : yyjsonRead Y H body s = (some root, (H.alloc yyjsonChunk s).2) := by
    unfold yyjsonRead
    rw [if_pos (hH _ _), hread]
  unfold responseParse
  rw [if_neg hbody, hgot]
  dsimp only
  rw [husable.first]
  dsimp only
  unfold parseContent
  dsimp only
  rw [husable.msg, Option.bind_some]
  cases hcontent : msg.getStr? (ascii "content") with
  | none =>
      have hcalls : hasToolCalls (some msg) = true := by
        rcases husable.answer with ⟨content, h⟩ | h
        · rw [Json.getStr?_eq_some.mpr h] at hcontent
          cases hcontent
        · exact hasToolCalls_iff.mpr h
      dsimp only
      rw [if_pos hcalls, Option.getD_none]
      exact parseReasoning_parsed hH root choice0 (some msg) r _ hreasoning
  | some content =>
      dsimp only
      obtain ⟨hview, hnext⟩ := afterAppend_takes hH (htext content hcontent)
        { r with text := (bufAppend H r.text content (H.alloc yyjsonChunk s).2).1 }
        (H.alloc yyjsonChunk s).2 (bufAppend H r.text content (H.alloc yyjsonChunk s).2).2
        (parseReasoning H root choice0 (some msg))
      rw [hnext]
      have hrest := parseReasoning_parsed hH root choice0 (some msg)
        { r with text := (bufAppend H r.text content (H.alloc yyjsonChunk s).2).1 }
        (bufAppend H r.text content (H.alloc yyjsonChunk s).2).2 hreasoning
      refine ⟨hrest.status, hrest.state, ?_, hrest.reasoning, hrest.lifted⟩
      rw [hrest.text, CappedBytes.plus_nil]
      exact hview

omit hH in
/-- The parse of a body that is not usable: nothing is stored. -/
theorem responseParse_unusable {Y : Yyjson} {body : Bytes}
    (h : ∀ root choice0 msg, Y.read body = some root → ¬ Usable root choice0 msg) (r : Result)
    (s : w) :
    (responseParse Y H r body s).1 = .ok ∧
      (responseParse Y H r body s).2.1 = (if body.length = 0 then .empty else .malformed) ∧
      (responseParse Y H r body s).2.2.1 = r := by
  unfold responseParse
  split_ifs
  · exact ⟨rfl, rfl, rfl⟩
  · split
    · exact ⟨rfl, rfl, rfl⟩
    · rename_i root s' hgot
      have hread : Y.read body = some root := yyjsonRead_some hgot
      split
      · exact ⟨rfl, rfl, rfl⟩
      · rename_i choice0 hchoice
        have hno : ∀ msg, (choice0.get? (ascii "message")).filter Json.isObj = some msg →
            msg.getStr? (ascii "content") = none ∧ hasToolCalls (some msg) = false := by
          intro msg hmsg
          refine ⟨Option.not_isSome_iff_eq_none.mp fun hcontent => ?_,
            Bool.eq_false_iff.mpr fun hcalls => ?_⟩
          · exact h root choice0 msg hread (.of_guards hchoice hmsg (.inl hcontent))
          · exact h root choice0 msg hread (.of_guards hchoice hmsg (.inr hcalls))
        unfold parseContent
        dsimp only
        cases hmsg : (choice0.get? (ascii "message")).filter Json.isObj with
        | none => exact ⟨rfl, rfl, rfl⟩
        | some msg =>
            obtain ⟨hcontent, hcalls⟩ := hno msg hmsg
            rw [Option.bind_some, hcontent]
            dsimp only
            rw [if_neg (by simp [hcalls])]
            exact ⟨rfl, rfl, rfl⟩

omit hH in
/-- An append that leaves no error was taken. -/
theorem Buf.Takes.of_append {b : Buf} {bytes : Bytes} {s : w}
    (h : (bufAppend H b bytes s).1.err = .ok) : b.Takes bytes := by
  rw [← Buf.view_err] at h
  rcases bufAppend_view_or H b bytes s with hview | ⟨-, -, hview⟩
  · rw [hview] at h
    have hlen := b.bytes_length
    unfold CappedBytes.append at h
    split_ifs at h with herr hover hcap hfull
    · exact absurd h herr
    · cases h
    · cases h
    · cases h
    · rw [Buf.view_bytes, hlen] at hover hfull
      rw [Buf.view_bytes, Buf.view_maxLen, hlen] at hcap
      exact ⟨not_not.mp herr, by omega, by omega⟩
  · rw [hview] at h
    cases h

end Parse

/-! ## Acceptance -/

section Accepts

variable [SizeT] {w : Type}

/-- The bodies that are accepted: those that read as a usable tree. -/
def BodyAccepted (Y : Yyjson) (body : Bytes) : Prop :=
  body.length ≠ 0 ∧ ∃ root choice0 msg, Y.read body = some root ∧ Usable root choice0 msg

/-- A body is reported empty exactly if it has no bytes, good exactly if it reads as a usable
tree, and malformed otherwise; a body reported empty or malformed changes no content. -/
theorem responseParse_accepts_iff (Y : Yyjson) (H : Heap w) (hH : H.Reliable) (r : Result)
    (body : Bytes) (hfits : BodyFits Y r body) (s : w) :
    let x := responseParse Y H r body s
    x.1 = .ok ∧ (x.2.1 = .empty ↔ body.length = 0) ∧ (x.2.1 = .ok ↔ BodyAccepted Y body) ∧
      (x.2.1 = .malformed ↔ ¬ body.length = 0 ∧ ¬ BodyAccepted Y body) ∧
      (x.2.1 = .empty ∨ x.2.1 = .malformed → x.2.2.1 = r) := by
  intro x
  by_cases hempty : body.length = 0
  · have hx : x = (.ok, .empty, r, s) := if_pos hempty
    rw [hx]
    exact ⟨rfl, by simp [hempty], by simp [BodyAccepted, hempty], by simp [hempty], fun _ => rfl⟩
  · by_cases haccepted : BodyAccepted Y body
    · obtain ⟨root, choice0, msg, hread, husable⟩ := haccepted.2
      have hparsed := responseParse_usable hH hempty hread husable hfits s
      have hstate : x.2.1 = .ok := hparsed.state
      rw [hstate]
      exact ⟨hparsed.status, by simp [hempty], by simp [haccepted], by simp [haccepted], by simp⟩
    · have hno : ∀ root choice0 msg, Y.read body = some root → ¬ Usable root choice0 msg :=
        fun root choice0 msg hread husable =>
          haccepted ⟨hempty, root, choice0, msg, hread, husable⟩
      obtain ⟨hstatus, hstate, hsame⟩ := responseParse_unusable (H := H) hno r s
      rw [if_neg hempty] at hstate
      change x.2.1 = .malformed at hstate
      rw [hstate]
      exact ⟨hstatus, by simp [hempty], by simp [haccepted], by simp [hempty, haccepted],
        fun _ => hsame⟩

end Accepts

section Plain

attribute [local instance] lp64

/-- A tree that answers with one piece of content. -/
def plainAnswer (content : String) : Json :=
  .obj [(ascii "choices",
    .arr [.obj [(ascii "message", .obj [(ascii "content", .str (ascii content))])]])]

/-- The plain answer has its content and no reasoning. -/
theorem plainAnswer_usable {root choice0 msg : Json}
    (hread : some (plainAnswer "hi") = some root) (h : Usable root choice0 msg) :
    msg = .obj [(ascii "content", .str (ascii "hi"))] ∧
      findReasoning choice0 (some msg) = none := by
  cases hread
  obtain ⟨rest, hchoices⟩ := h.choices
  cases hchoices
  have hmessage := h.message
  cases hmessage
  exact ⟨rfl, rfl⟩

/-- A body with a short content is accepted. -/
theorem responseParse_accepts_iff_plain :
    (responseParse (plainYyjson (ascii "answer") (plainAnswer "hi")) Heap.plentiful
      (resultInit 4) (ascii "answer") ()).2.1 = .ok :=
  (responseParse_accepts_iff (plainYyjson (ascii "answer") (plainAnswer "hi")) Heap.plentiful
    Heap.plentiful_reliable (resultInit 4) (ascii "answer")
    (fun root choice0 msg hread husable => by
      obtain ⟨rfl, hreasoning⟩ := plainAnswer_usable hread husable
      refine ⟨fun content hcontent => ?_, fun reasoning h => ?_⟩
      · cases hcontent
        exact ⟨rfl, .inr (by decide +kernel), by decide +kernel⟩
      · rw [hreasoning] at h
        cases h)
    ()).2.2.1.mpr
    ⟨by decide +kernel, plainAnswer "hi", .obj [(ascii "message", .obj [(ascii "content", .str (ascii "hi"))])],
      .obj [(ascii "content", .str (ascii "hi"))], rfl,
      ⟨⟨[], rfl⟩, rfl, rfl, rfl, .inl ⟨ascii "hi", rfl⟩⟩⟩

end Plain

end Sicha
