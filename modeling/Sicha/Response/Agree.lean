import Sicha.Response.Accept

/-!
# The two assembly paths

The same answer, once as a body and once as a streamed event: what the non-streaming parse
reads from the message, the event callback assembles from a delta with the same members.

Main results:

- Definition {lit}`asDelta`: a tree with the {lit}`message` of its first choice renamed {lit}`delta`.
- Theorem {lit}`asDelta_agrees`: both paths leave the same content.
- Theorem {lit}`asDelta_disagrees`: the conditions of this cannot be dropped.
-/

namespace Sicha

/-! ## Changing one member -/

/-- Change the first member of a name. -/
def updateFirst (key : Bytes) (f : Bytes × Json → Bytes × Json) :
    List (Bytes × Json) → List (Bytes × Json)
  | [] => []
  | m :: ms => if m.1 == key then f m :: ms else m :: updateFirst key f ms

/-- An object with its first member of a name changed. -/
def Json.update (v : Json) (key : Bytes) (f : Bytes × Json → Bytes × Json) : Json :=
  match v with
  | .obj members => .obj (updateFirst key f members)
  | v => v

/-- A non-empty array with its first element changed. -/
def Json.mapFirst (f : Json → Json) : Json → Json
  | .arr (v :: rest) => .arr (f v :: rest)
  | v => v

/-- The names of the members before the first one of a name. -/
def Json.namesBefore (v : Json) (key : Bytes) : List Bytes :=
  match v with
  | .obj members => (members.map Prod.fst).takeWhile (· != key)
  | _ => []

/-- A choice with its {lit}`message` renamed {lit}`delta`. -/
def choiceAsDelta (choice0 : Json) : Json :=
  choice0.update (ascii "message") fun m => (ascii "delta", m.2)

/-- A tree with the {lit}`message` of its first choice renamed {lit}`delta`. -/
def asDelta (root : Json) : Json :=
  root.update (ascii "choices") fun m => (m.1, m.2.mapFirst choiceAsDelta)

/-- An update of a member leaves an object an object. -/
theorem Json.update_isObj (v : Json) (key : Bytes) (f : Bytes × Json → Bytes × Json) :
    (v.update key f).isObj = v.isObj := by
  cases v <;> rfl

/-- A member of another name, before and after, is found as before. -/
theorem Json.update_get?_of_ne (v : Json) {key key' : Bytes} {f : Bytes × Json → Bytes × Json}
    (hne : key ≠ key') (hf : ∀ m, m.1 = key → (f m).1 ≠ key') :
    (v.update key f).get? key' = v.get? key' := by
  cases v with
  | obj members =>
      simp only [Json.update, Json.get?]
      congr 1
      induction members with
      | nil => rfl
      | cons m ms ih =>
          simp only [updateFirst]
          split_ifs with hm
          · have hm : m.1 = key := by simpa using hm
            rw [List.find?_cons_of_neg (by simpa using hf m hm),
              List.find?_cons_of_neg (by simpa [hm] using hne)]
          · by_cases hk : m.1 = key'
            · rw [List.find?_cons_of_pos (by simpa using hk),
                List.find?_cons_of_pos (by simpa using hk)]
            · rw [List.find?_cons_of_neg (by simpa using hk),
                List.find?_cons_of_neg (by simpa using hk), ih]
  | _ => rfl

/-- The changed member is found under its new name, if that name does not stand before it. -/
theorem Json.update_get? (v : Json) (key key' : Bytes) (f : Bytes × Json → Bytes × Json)
    (hf : ∀ m, m.1 = key → (f m).1 = key') (hbefore : key' ∉ v.namesBefore key)
    {old : Json} (hold : v.get? key = some old) :
    ∃ m, m.1 = key ∧ m.2 = old ∧ (v.update key f).get? key' = some (f m).2 := by
  cases v with
  | obj members =>
      simp only [Json.update, Json.get?, Json.namesBefore] at hold hbefore ⊢
      induction members with
      | nil => cases hold
      | cons m ms ih =>
          by_cases hm : m.1 = key
          · refine ⟨m, hm, ?_, ?_⟩
            · rw [List.find?_cons_of_pos (by simpa using hm)] at hold
              exact Option.some.inj hold
            · rw [updateFirst, if_pos (by simpa using hm),
                List.find?_cons_of_pos (by simpa using hf m hm)]
              rfl
          · rw [List.find?_cons_of_neg (by simpa using hm)] at hold
            rw [List.map_cons, List.takeWhile_cons_of_pos (by simpa using hm),
              List.mem_cons, not_or] at hbefore
            rw [updateFirst, if_neg (by simpa using hm),
              List.find?_cons_of_neg (by simpa using Ne.symm hbefore.1)]
            exact ih hbefore.2 hold
  | _ => cases hold

/-- A name does not stand before itself. -/
theorem Json.namesBefore_self (v : Json) (key : Bytes) : key ∉ v.namesBefore key := by
  cases v with
  | obj members =>
      intro hmem
      have := List.mem_takeWhile_imp hmem
      simp at this
  | _ => exact List.not_mem_nil

/-! ## The same answer as an event -/

/-- A usable tree whose streamed form carries the same answer: no {lit}`error` member, no reasoning
in the third position only, and no {lit}`delta` before the message. -/
structure Streamable (root choice0 msg : Json) : Prop where
  error : root.get? (ascii "error") = none
  reasoning : (choice0.getStr? (ascii "reasoning")).isSome → (deltaReasoning msg).isSome
  delta : ascii "delta" ∉ choice0.namesBefore (ascii "message")

/-- A member of the root, other than {lit}`choices`, is found in the event. -/
theorem asDelta_get? (root : Json) {key : Bytes} (hne : ascii "choices" ≠ key) :
    (asDelta root).get? key = root.get? key :=
  root.update_get?_of_ne hne fun m hm => by rw [hm]; exact hne

/-- The first choice of the delta form is the first choice, as a delta. -/
theorem asDelta_firstChoice {root choice0 msg : Json} (h : Usable root choice0 msg) :
    firstChoice (asDelta root) = some (choiceAsDelta choice0) := by
  obtain ⟨rest, hchoices⟩ := h.choices
  obtain ⟨m, -, hm, hget⟩ := root.update_get? (ascii "choices") (ascii "choices")
    (fun m => (m.1, m.2.mapFirst choiceAsDelta)) (fun _ hm => hm) (root.namesBefore_self _)
    hchoices
  unfold firstChoice asDelta
  rw [hget, Option.bind_some]
  dsimp only
  rw [hm]
  rfl

/-- The event of a usable tree: its delta is the message, everything else is where it was. -/
theorem asDelta_event {Y : Yyjson} {payload : Bytes} {root choice0 msg : Json}
    (hread : Y.read payload = some (asDelta root)) (husable : Usable root choice0 msg)
    (hstream : Streamable root choice0 msg) :
    chatEvent Y payload = some (asDelta root) ∧ eventDelta (asDelta root) = some msg ∧
      eventFinish (asDelta root) = choice0.getStr? (ascii "finish_reason") := by
  have hfirst := asDelta_firstChoice husable
  have hobj : (choiceAsDelta choice0).isObj = true :=
    (choice0.update_isObj _ _).trans husable.choice
  have hroot : (asDelta root).isObj = true := by
    obtain ⟨rest, hchoices⟩ := husable.choices
    rw [asDelta, Json.update_isObj]
    cases root with
    | obj members => rfl
    | _ => cases hchoices
  obtain ⟨m, -, hm, hdelta⟩ := choice0.update_get? (ascii "message") (ascii "delta")
    (fun m => (ascii "delta", m.2)) (fun _ _ => rfl) hstream.delta husable.message
  refine ⟨?_, ?_, ?_⟩
  · rw [chatEvent, hread, Option.filter_eq_some_iff]
    refine ⟨rfl, ?_⟩
    rw [hroot, asDelta_get? root (by decide), hstream.error, hfirst]
    simpa using hobj
  · rw [eventDelta, hfirst, Option.bind_some, choiceAsDelta, hdelta]
    dsimp only
    rw [hm]
    exact Option.filter_eq_some_iff.mpr ⟨rfl, husable.object⟩
  · have hne : ascii "delta" ≠ ascii "finish_reason" := by decide
    rw [eventFinish, hfirst, Option.bind_some, Json.getStr?, choiceAsDelta,
      choice0.update_get?_of_ne (by decide) fun _ _ => hne]
    rfl

/-- The reasoning that the parse finds is that of the delta. -/
theorem Streamable.findReasoning {root choice0 msg : Json} (h : Streamable root choice0 msg) :
    findReasoning choice0 (some msg) = deltaReasoning msg := by
  have hthird := h.reasoning
  unfold Sicha.findReasoning
  simp only [Option.bind_some]
  unfold deltaReasoning at hthird ⊢
  cases hfirst : msg.getStr? (ascii "reasoning") with
  | some bytes => rfl
  | none =>
      cases hsecond : msg.getStr? (ascii "reasoning_content") with
      | some bytes => rfl
      | none =>
          rw [hfirst, hsecond] at hthird
          cases hchoice : choice0.getStr? (ascii "reasoning") with
          | none => rfl
          | some bytes =>
              rw [hchoice] at hthird
              cases hthird rfl

section Agree

variable [SizeT] {σ w : Type}

omit [SizeT] in
/-- The fields that are lifted from an event are those of its tree. -/
theorem asDelta_reported (root : Json) (a : Lifted) :
    a.reported (asDelta root) = a.reported root := by
  have hmodel : (asDelta root).get? (ascii "model") = root.get? (ascii "model") :=
    asDelta_get? root (by decide)
  have husage : (asDelta root).get? (ascii "usage") = root.get? (ascii "usage") :=
    asDelta_get? root (by decide)
  simp only [Lifted.reported, eventModel, eventCount, Json.getStr?, hmodel, husage]

/-- Without callbacks there is nothing to refuse. -/
theorem agreeable_none : Agreeable (none : Option (Callbacks σ)) where
  data ch f hf := by cases ch <;> cases hf
  raw f hf := by cases hf

/-- A streamable answer as an event on a fresh result, its pieces within the caps: it is
assembled. -/
theorem asDelta_assembles {Y : Yyjson} {K : Heap σ} (hK : K.Reliable) {cap : Nat}
    {payload : Bytes} {root choice0 msg : Json} (hpayload : Y.read payload = some (asDelta root))
    (hne : payload ≠ ascii "[DONE]") (husable : Usable root choice0 msg)
    (hst : Streamable root choice0 msg)
    (htext : ∀ content, msg.getStr? (ascii "content") = some content →
      (resultInit cap).text.Takes content)
    (hreasoning : ∀ reasoning, Sicha.findReasoning choice0 (some msg) = some reasoning →
      (resultInit cap).reasoning.Takes reasoning) (world : World σ) :
    let s : StreamW σ := ⟨streamCtxInit true, resultInit cap, world⟩
    let out := streamOnEvent Y K none payload s
    out.1 = 0 ∧
      out.2.r.text.view = s.r.text.view.plus ((msg.getStr? (ascii "content")).getD []) ∧
      out.2.r.reasoning.view =
        s.r.reasoning.view.plus ((findReasoning choice0 (some msg)).getD []) ∧
      out.2.r.lifted =
        (s.r.lifted.finished (choice0.getStr? (ascii "finish_reason"))).reported root := by
  intro s out
  obtain ⟨hchat, hdelta, hfinish⟩ := asDelta_event hpayload husable hst
  have hcontent : eventPiece .content (asDelta root) = msg.getStr? (ascii "content") := by
    rw [eventPiece, hdelta, Option.bind_some]
  have hreas : eventPiece .reasoning (asDelta root) = findReasoning choice0 (some msg) := by
    rw [eventPiece, hdelta, Option.bind_some, hst.findReasoning]
  rcases streamOnEvent_assembles (Y := Y) hK agreeable_none hne (s := s) ⟨rfl, rfl⟩ with
    ⟨hzero, hass⟩ | ⟨-, -, -, root', hroot', ch, bytes, hpiece, -, hfull⟩
  · have hstored := hass.stored
    have hlifted := hass.lifted
    rw [hchat] at hstored hlifted
    refine ⟨hzero, ?_, ?_, ?_⟩
    · rw [← hcontent]
      exact hstored .content
    · rw [← hreas]
      exact hstored .reasoning
    · rw [← hfinish, ← asDelta_reported]
      exact hlifted
  · -- a piece that finds its buffer full is one that the buffer takes
    obtain rfl : asDelta root = root' := Option.some.inj (hchat.symm.trans hroot')
    cases ch with
    | content => exact absurd (htext bytes (hcontent.symm.trans hpiece)).append hfull
    | reasoning => exact absurd (hreasoning bytes (hreas.symm.trans hpiece)).append hfull

/-- An accepted answer, parsed as a body and streamed as one event before {lit}`[DONE]`, each time
into a fresh result: if it is streamable, both leave the same text, reasoning, finish reason,
counts and model. -/
theorem asDelta_agrees (Y : Yyjson) (hdone : Y.read (ascii "[DONE]") = none) (H : Heap w)
    (hH : H.Reliable) (K : Heap σ) (hK : K.Reliable) (cap : Nat) (body payload : Bytes)
    (root : Json) (hbody : Y.read body = some root) (hpayload : Y.read payload = some (asDelta root))
    (hfits : BodyFits Y (resultInit cap) body)
    (hstream : ∀ choice0 msg, Usable root choice0 msg → Streamable root choice0 msg) (s : w)
    (world : World σ) :
    let x := responseParse Y H (resultInit cap) body s
    let out := StopFold.run (streamOnEvent Y K none) [payload, ascii "[DONE]"]
      ⟨streamCtxInit true, resultInit cap, world⟩
    x.2.1 = .ok →
      resultText out.2.r = resultText x.2.2.1 ∧
        resultReasoning out.2.r = resultReasoning x.2.2.1 ∧ out.2.r.lifted = x.2.2.1.lifted := by
  intro x out hok
  obtain ⟨hne, root', choice0, msg, hread, husable⟩ :=
    (responseParse_accepts_iff Y H hH (resultInit cap) body hfits s).2.2.1.mp hok
  obtain rfl : root = root' := Option.some.inj (hbody.symm.trans hread)
  have hnotDone : payload ≠ ascii "[DONE]" := by
    rintro rfl
    rw [hdone] at hpayload
    cases hpayload
  have hparsed := responseParse_usable hH hne hbody husable hfits s
  obtain ⟨htext, hreasoning⟩ := hfits root choice0 msg hbody husable
  obtain ⟨hzero, htext', hreasoning', hlifted⟩ := asDelta_assembles hK hpayload hnotDone husable
    (hstream choice0 msg husable) htext hreasoning world
  -- {lit}`[DONE]` only ends the stream
  have hout : out.2.r =
      (streamOnEvent Y K none payload ⟨streamCtxInit true, resultInit cap, world⟩).2.r := by
    change (StopFold.run (streamOnEvent Y K none) [payload, ascii "[DONE]"] _).2.r = _
    rw [StopFold.run_cons, if_pos hzero, StopFold.run_singleton]
    rfl
  rw [hout]
  refine ⟨?_, ?_, hlifted.trans hparsed.lifted.symm⟩
  · exact congrArg CappedBytes.bytes (htext'.trans hparsed.text.symm)
  · exact congrArg CappedBytes.bytes (hreasoning'.trans hparsed.reasoning.symm)

end Agree

/-! ## The conditions -/

section Plain

attribute [local instance] lp64

/-- A reader that knows an answer as a body and as an event.  The two texts differ in the name
of one member. -/
def answerYyjson (text : String → Bytes) (tree : Json) : Yyjson where
  read t :=
    if t = text "message" then some tree
    else if t = text "delta" then some (asDelta tree)
    else none
  write _ := none

/-- What the two paths leave: the state of the body, the text and the reasoning of the parse, and
the text and the reasoning of the stream. -/
def bothPaths (text : String → Bytes) (tree : Json) : BodyState × (Bytes × Bytes) × Bytes × Bytes :=
  let x := responseParse (answerYyjson text tree) Heap.plentiful (resultInit 64) (text "message") ()
  let out := StopFold.run (streamOnEvent (answerYyjson text tree) Heap.plentiful none)
    [text "delta", ascii "[DONE]"] ⟨streamCtxInit true, resultInit 64, ⟨(), []⟩⟩
  (x.2.1, (resultText x.2.2.1, resultReasoning x.2.2.1), resultText out.2.r,
    resultReasoning out.2.r)

/-- The message of the plain answer. -/
def hiMessage : Json :=
  .obj [(ascii "content", .str (ascii "hi"))]

/-- An answer next to a member {lit}`error`, as text. -/
def errorAnswerText (key : String) : Bytes :=
  ascii "\x7b\"error\":null,\"choices\":[\x7b\"" ++ ascii key ++
    ascii "\":\x7b\"content\":\"hi\"\x7d\x7d]\x7d"

/-- An answer next to a member {lit}`error`. -/
def errorAnswer : Json :=
  .obj [(ascii "error", .null), (ascii "choices", .arr [.obj [(ascii "message", hiMessage)]])]

/-- An answer whose choice carries the reasoning, as text. -/
def thoughtAnswerText (key : String) : Bytes :=
  ascii "\x7b\"choices\":[\x7b\"reasoning\":\"think\",\"" ++ ascii key ++
    ascii "\":\x7b\"content\":\"hi\"\x7d\x7d]\x7d"

/-- An answer whose choice carries the reasoning. -/
def thoughtAnswer : Json :=
  .obj [(ascii "choices", .arr [.obj [(ascii "reasoning", .str (ascii "think")),
    (ascii "message", hiMessage)]])]

/-- An answer whose choice has a delta already, as text. -/
def deltaAnswerText (key : String) : Bytes :=
  ascii "\x7b\"choices\":[\x7b\"delta\":\x7b\x7d,\"" ++ ascii key ++
    ascii "\":\x7b\"content\":\"hi\"\x7d\x7d]\x7d"

/-- An answer whose choice has a delta already. -/
def deltaAnswer : Json :=
  .obj [(ascii "choices", .arr [.obj [(ascii "delta", .obj []), (ascii "message", hiMessage)]])]

/-- Each of the three conditions is needed: an answer with an error, with the reasoning of its
choice, and with a delta before the message is accepted as a body, and streamed differently. -/
theorem asDelta_disagrees :
    bothPaths errorAnswerText errorAnswer = (.ok, (ascii "hi", []), [], []) ∧
      bothPaths thoughtAnswerText thoughtAnswer = (.ok, (ascii "hi", ascii "think"), ascii "hi", []) ∧
      bothPaths deltaAnswerText deltaAnswer = (.ok, (ascii "hi", []), [], []) := by
  decide +kernel

/-- The plain answer, as text. -/
def plainAnswerText (key : String) : Bytes :=
  ascii "\x7b\"choices\":[\x7b\"" ++ ascii key ++ ascii "\":\x7b\"content\":\"hi\"\x7d\x7d]\x7d"

/-- A plain answer, parsed as a body and streamed as one delta. -/
theorem asDelta_agrees_plain :
    resultText (StopFold.run
      (streamOnEvent (answerYyjson plainAnswerText (plainAnswer "hi")) Heap.plentiful none)
      [plainAnswerText "delta", ascii "[DONE]"]
      ⟨streamCtxInit true, resultInit 4, ⟨(), []⟩⟩).2.r = ascii "hi" :=
  (asDelta_agrees (answerYyjson plainAnswerText (plainAnswer "hi")) (by decide +kernel)
    Heap.plentiful (w := Unit) Heap.plentiful_reliable Heap.plentiful Heap.plentiful_reliable 4
    (plainAnswerText "message") (plainAnswerText "delta") (plainAnswer "hi") rfl rfl
    (fun root choice0 msg hread husable => by
      obtain ⟨rfl, hreasoning⟩ := plainAnswer_usable hread husable
      refine ⟨fun content hcontent => ?_, fun reasoning h => ?_⟩
      · cases hcontent
        exact ⟨rfl, .inr (by decide +kernel), by decide +kernel⟩
      · rw [hreasoning] at h
        cases h)
    (fun choice0 msg husable => by
      obtain ⟨rest, hchoices⟩ := husable.choices
      cases hchoices
      exact ⟨rfl, fun h => absurd h (by decide +kernel), by decide +kernel⟩)
    () ⟨(), []⟩ (by decide +kernel)).1.trans (by decide +kernel)

end Plain

end Sicha
