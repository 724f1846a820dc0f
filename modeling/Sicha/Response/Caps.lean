import Sicha.Response.Assembly

/-!
# The caps of a response

The text, the reasoning and the remembered raw payload stay within their caps through every
event and every parse, and a piece that is refused for its size stops the stream, or leaves
a body that is not good.

Main results:

- Theorem {lit}`capped_event`: an event keeps the buffers within their caps.
- Theorem {lit}`streamOnEvent_accepts`: an event that goes on has refused no piece.
- Theorem {lit}`responseParse_refuses`: a parse that refuses a piece is no success.
-/

namespace Sicha

variable [SizeT] {σ : Type}

/-! ## The buffers of a result -/

/-- A result whose buffers, body and records are within their caps. -/
structure ResultCapped (cap : Nat) (r : Result) : Prop where
  buf : ∀ ch : Channel, (ch.buf r).Capped cap
  rawBody : ∀ raw, r.rawBody = some raw → raw.length ≤ cap
  excerpts : ∀ a ∈ r.attempts, a.rawBodyExcerpt.length ≤ excerptMax

/-- The result and the raw payload of a stream are within their caps. -/
structure StreamCapped (cap : Nat) (s : StreamW σ) : Prop where
  result : ResultCapped cap s.r
  lastRaw : s.ctx.lastRaw.Capped excerptMax

/-- A new result keeps to the cap. -/
theorem resultInit_capped (cap : Nat) : ResultCapped cap (resultInit cap) where
  buf ch := by cases ch <;> exact bufInit_capped cap
  rawBody _ h := by cases h
  excerpts _ h := by cases h

/-- A reset result keeps to the cap. -/
theorem resultResetContent_capped {cap : Nat} {r : Result} (h : ResultCapped cap r) :
    ResultCapped cap (resultResetContent r) where
  buf ch := by
    cases ch
    · exact bufReset_capped (h.buf .content)
    · exact bufReset_capped (h.buf .reasoning)
  rawBody _ h := by cases h
  excerpts := h.excerpts

/-- A result with the same frame keeps to the cap. -/
theorem ResultCapped.frame {cap : Nat} {r r' : Result} (h : ResultCapped cap r)
    (hframe : SameFrame r r') : ResultCapped cap r' where
  buf ch := by
    rw [hframe.buf]
    exact h.buf ch
  rawBody := by
    rw [hframe.rawBody]
    exact h.rawBody
  excerpts := by
    rw [hframe.attempts]
    exact h.excerpts

/-- A buffer that keeps to the cap may take the place of another. -/
theorem ResultCapped.setBuf {cap : Nat} {r : Result} (h : ResultCapped cap r) (ch : Channel)
    {b : Buf} (hb : b.Capped cap) : ResultCapped cap (ch.setBuf r b) where
  buf ch' := by
    have hother := h.buf ch'
    cases ch <;> cases ch' <;> first | exact hb | exact hother
  rawBody := by
    cases ch <;> exact h.rawBody
  excerpts := by
    cases ch <;> exact h.excerpts

/-! ## Events -/

/-- Every step of an event keeps the buffers within their caps. -/
theorem capped_event (H : Heap σ) (cbs : Option (Callbacks σ)) {cap : Nat} (hcap : 0 < cap) :
    EventSteps H cbs (StreamCapped cap) (fun _ => StreamCapped cap) where
  alloc n s hs := ⟨hs.result, hs.lastRaw⟩
  saw s hs := ⟨hs.result, hs.lastRaw⟩
  keep := by
    rintro s data b hs rfl
    exact ⟨hs.result, bufAppend_capped (by decide) (bufReset_capped hs.lastRaw) H _ _⟩
  lift s r hs hframe := ⟨hs.result.frame hframe, hs.lastRaw⟩
  store := by
    rintro s ch bytes b hs hne hacc rfl
    have hstored := hs.result.setBuf ch
      (bufAppend_capped hcap (hs.result.buf ch) H bytes s.world.env)
    refine ⟨fun _ => Answers.both ?_, fun _ => ⟨hstored, hs.lastRaw⟩⟩
    obtain ⟨hr, hraw, -⟩ := deliverCall_same cbs ch bytes
      { s.setEnv (bufAppend H (ch.buf s.r) bytes s.world.env).2 with
        r := ch.setBuf s.r (bufAppend H (ch.buf s.r) bytes s.world.env).1 }
    exact ⟨by rw [hr]; exact hstored, by rw [hraw]; exact hs.lastRaw⟩
  give := by
    intro s ch bytes hs hne hacc
    obtain ⟨hr, hraw, -⟩ := deliverCall_same cbs ch bytes s
    exact Answers.both ⟨by rw [hr]; exact hs.result, by rw [hraw]; exact hs.lastRaw⟩
  raw := by
    intro s data hs
    obtain ⟨hr, hctx⟩ := callData_same (cbs.bind Callbacks.onRawChunk) .onRawChunk data s
    exact Answers.both ⟨by rw [hr]; exact hs.result, by rw [hctx]; exact hs.lastRaw⟩
  fail s hs := ⟨hs.result, hs.lastRaw⟩
  stop s hs := ⟨hs.result, hs.lastRaw⟩

/-! ## Refused pieces -/

/-- A piece of an event is refused for its size in the stream that the event finds. -/
def EventRefuses (Y : Yyjson) (H : Heap σ) (payload : Bytes) (s : StreamW σ) : Prop :=
  payload ≠ ascii "[DONE]" ∧ s.ctx.accumulate = true ∧
    ∃ root, (yyjsonRead Y H payload s.world.env).1 = some root ∧ root.isObj = true ∧
      root.get? (ascii "error") = none ∧
      ∃ ch bytes, eventPiece ch root = some bytes ∧ bytes ≠ [] ∧ (ch.buf s.r).Refuses bytes

omit [SizeT] in
/-- Two steps in a row return 0 only if both do. -/
theorem andThen_zero {S : Type} {r : Int × S} {next : S → Int × S}
    (h : (andThen r next).1 = 0) : r.1 = 0 ∧ (next r.2).1 = 0 := by
  unfold andThen at h
  split_ifs at h with hzero
  · exact ⟨hzero, h⟩
  · exact absurd h hzero

/-- A delivery that goes on has not refused the piece, and leaves the other channel alone. -/
theorem deliverOpt_accepts {H : Heap σ} {cbs : Option (Callbacks σ)} {ch : Channel}
    {piece : Option Bytes} {s : StreamW σ} (hacc : s.ctx.accumulate = true)
    (h : (deliverOpt H cbs ch piece s).1 = 0) :
    (∀ bytes, piece = some bytes → bytes ≠ [] → ¬ (ch.buf s.r).Refuses bytes) ∧
      (deliverOpt H cbs ch piece s).2.ctx.accumulate = true ∧
      ∀ ch', ch' ≠ ch → ch'.buf (deliverOpt H cbs ch piece s).2.r = ch'.buf s.r := by
  cases piece with
  | none => exact ⟨nofun, hacc, fun _ _ => rfl⟩
  | some bytes =>
      unfold deliverOpt deliver at h ⊢
      dsimp only at h ⊢
      split_ifs at h ⊢ with hempty hnomem hbig
      · refine ⟨?_, hacc, fun _ _ => rfl⟩
        rintro _ ⟨⟩ hne
        exact absurd (List.length_eq_zero_iff.mp hempty) hne
      · simp [StreamW.failWith] at h
      · simp [StreamW.failWith] at h
      · obtain ⟨hr, -, haccumulate⟩ := deliverCall_same cbs ch bytes
          { s.setEnv (bufAppend H (ch.buf s.r) bytes s.world.env).2 with
            r := ch.setBuf s.r (bufAppend H (ch.buf s.r) bytes s.world.env).1 }
        refine ⟨?_, haccumulate.trans hacc, ?_⟩
        · rintro _ ⟨⟩ - hrefuses
          have hstatus := (bufAppend H (ch.buf s.r) bytes s.world.env).1.inv_err
          simp only [List.mem_cons, List.not_mem_nil, or_false] at hstatus
          rcases hstatus with hok | h | h
          · exact hrefuses.err H s.world.env hok
          · exact hnomem h
          · exact hbig h
        · intro ch' hne
          rw [hr]
          cases ch <;> cases ch' <;> first | rfl | exact absurd rfl hne

/-- A delta that goes on has refused neither piece. -/
theorem streamDelta_accepts {H : Heap σ} {cbs : Option (Callbacks σ)} {data : Bytes}
    {delta : Json} {s : StreamW σ} (hacc : s.ctx.accumulate = true)
    (h : (streamDelta H cbs data delta s).1 = 0) {bytes : Bytes} (hne : bytes ≠ []) :
    (delta.getStr? (ascii "content") = some bytes → ¬ s.r.text.Refuses bytes) ∧
      (deltaReasoning delta = some bytes → ¬ s.r.reasoning.Refuses bytes) := by
  unfold streamDelta at h
  obtain ⟨hcontentZero, hrest⟩ := andThen_zero h
  obtain ⟨hcontent, hacc', hother⟩ := deliverOpt_accepts hacc hcontentZero
  have hsame := hother .reasoning (by decide)
  generalize (deliverOpt H cbs .content (delta.getStr? (ascii "content")) s).2 = s1
    at hrest hacc' hsame
  obtain ⟨hreasoning, -, -⟩ := deliverOpt_accepts hacc' (andThen_zero hrest).1
  rw [hsame] at hreasoning
  exact ⟨fun hpiece => hcontent bytes hpiece hne, fun hpiece => hreasoning bytes hpiece hne⟩

/-- An event that goes on has refused no piece. -/
theorem streamOnEvent_accepts {Y : Yyjson} {H : Heap σ} {cbs : Option (Callbacks σ)}
    {payload : Bytes} {s : StreamW σ} (h : (streamOnEvent Y H cbs payload s).1 = 0) :
    ¬ EventRefuses Y H payload s := by
  rintro ⟨hne, hacc, root, hread, hobj, herror, ch, bytes, hpiece, hbytes, hrefuses⟩
  unfold streamOnEvent at h
  rw [if_neg hne] at h
  dsimp only at h
  rw [hread] at h
  dsimp only at h
  rw [if_pos (by simp [hobj, herror])] at h
  obtain ⟨delta, hdelta⟩ : ∃ delta, eventDelta root = some delta := by
    cases ch <;> exact ⟨_, (Option.bind_eq_some_iff.mp hpiece).choose_spec.1⟩
  obtain ⟨hget, hdeltaObj⟩ := Option.filter_eq_some_iff.mp hdelta
  obtain ⟨choice0, hchoice, hmember⟩ := Option.bind_eq_some_iff.mp hget
  have hchoiceObj : choice0.isObj = true := by
    cases choice0 <;> first | rfl | cases hmember
  unfold streamEvent at h
  rw [hchoice] at h
  dsimp only at h
  rw [if_pos hchoiceObj] at h
  have hchoiceZero := (andThen_zero h).1
  unfold streamChoice at hchoiceZero
  rw [hmember, Option.filter_some, if_pos hdeltaObj] at hchoiceZero
  obtain ⟨hcontent, hreasoning⟩ :=
    streamDelta_accepts (by exact hacc) (andThen_zero hchoiceZero).1 hbytes
  cases ch with
  | content =>
      simp only [eventPiece, hdelta, Option.bind_some] at hpiece
      exact hcontent hpiece hrefuses
  | reasoning =>
      simp only [eventPiece, hdelta, Option.bind_some] at hpiece
      exact hreasoning hpiece hrefuses

/-! ## The answers of an event -/

/-- Zero, an error, or the cancellation by a callback. -/
def Coded {S : Type} (r : Int × S) : Prop :=
  r.1 = 0 ∨ r.1 = -1 ∨ r.1 = streamCancel

omit [SizeT] in
/-- Two steps in a row answer with one of the three codes. -/
theorem Coded.andThen {S : Type} {r : Int × S} {next : S → Int × S} (h : Coded r)
    (hnext : ∀ s, Coded (next s)) : Coded (andThen r next) := by
  unfold Sicha.andThen
  split_ifs
  · exact hnext r.2
  · exact h

/-- A failure answers with one of the codes. -/
theorem failWith_coded (s : StreamW σ) (err : Status) : Coded (s.failWith err) :=
  .inr (.inl rfl)

/-- So does the call of a callback. -/
theorem callData_coded (cb : Option (DataCallback σ)) (mk : Bytes → Int → Act) (data : Bytes)
    (s : StreamW σ) : Coded (callData cb mk data s) := by
  unfold callData
  cases cb with
  | none => exact .inl rfl
  | some f =>
      dsimp only
      split_ifs
      · exact .inr (.inr rfl)
      · exact .inl rfl

/-- So does the report of a raw chunk. -/
theorem rawChunk_coded (H : Heap σ) (cbs : Option (Callbacks σ)) (data : Bytes)
    (s : StreamW σ) : Coded (rawChunk H cbs data s) := by
  unfold rawChunk
  dsimp only
  split_ifs
  · exact failWith_coded _ _
  · exact callData_coded _ _ data _

/-- So does a delivery. -/
theorem deliverOpt_coded (H : Heap σ) (cbs : Option (Callbacks σ)) (ch : Channel)
    (piece : Option Bytes) (s : StreamW σ) : Coded (deliverOpt H cbs ch piece s) := by
  have hcall : ∀ bytes s, Coded (deliverCall cbs ch bytes s) := by
    intro bytes s
    unfold deliverCall
    split_ifs
    · exact callData_coded _ _ bytes _
    · exact .inl rfl
  cases piece with
  | none => exact .inl rfl
  | some bytes =>
      unfold deliverOpt deliver
      dsimp only
      split_ifs
      · exact .inl rfl
      · exact failWith_coded _ _
      · exact failWith_coded _ _
      · exact hcall bytes _
      · exact hcall bytes _

/-- So does a choice. -/
theorem streamChoice_coded (H : Heap σ) (cbs : Option (Callbacks σ)) (data : Bytes)
    (choice0 : Json) (s : StreamW σ) : Coded (streamChoice H cbs data choice0 s) := by
  have hdelta : ∀ delta, Coded (streamDelta H cbs data delta s) := by
    intro delta
    refine (deliverOpt_coded H cbs .content _ s).andThen fun s => ?_
    refine (deliverOpt_coded H cbs .reasoning _ s).andThen fun s => ?_
    split_ifs
    · exact rawChunk_coded H cbs data s
    · exact .inl rfl
  have hfinish : ∀ s, Coded (streamFinish H choice0 s) := by
    intro s
    unfold streamFinish
    split
    · exact .inl rfl
    · dsimp only
      split_ifs
      · exact failWith_coded _ _
      · exact .inl rfl
  unfold streamChoice
  refine Coded.andThen ?_ hfinish
  split
  · exact hdelta _
  · exact .inl rfl

/-- Only the end mark stops a stream for good. -/
theorem streamOnEvent_coded (Y : Yyjson) (H : Heap σ) (cbs : Option (Callbacks σ))
    {payload : Bytes} (hne : payload ≠ ascii "[DONE]") (s : StreamW σ) :
    Coded (streamOnEvent Y H cbs payload s) := by
  have hlift : ∀ root s, Coded (streamLift H root s) := by
    intro root s
    unfold streamLift
    dsimp only
    split_ifs
    · exact failWith_coded _ _
    · exact .inl rfl
  unfold streamOnEvent
  rw [if_neg hne]
  dsimp only
  split
  · exact rawChunk_coded H cbs payload _
  · split_ifs
    · unfold streamEvent
      split
      · exact hlift _ _
      · split_ifs
        · exact (streamChoice_coded H cbs payload _ _).andThen (hlift _)
        · exact rawChunk_coded H cbs payload _
    · exact rawChunk_coded H cbs payload _

/-! ## The parse of a body -/

/-- A piece of a body is refused for its size in the result that the parse finds. -/
def ParseRefuses (Y : Yyjson) (r : Result) (body : Bytes) : Prop :=
  ∃ root choice0, Y.read body = some root ∧ (firstChoice root).filter Json.isObj = some choice0 ∧
    ((∃ content, (((choice0.get? (ascii "message")).filter Json.isObj).bind fun m =>
        m.getStr? (ascii "content")) = some content ∧ r.text.Refuses content) ∨
      ∃ reasoning, findReasoning choice0 ((choice0.get? (ascii "message")).filter Json.isObj) =
        some reasoning ∧ r.reasoning.Refuses reasoning)

/-- How an append of a body goes on. -/
theorem afterAppend_refuses {w : Type} {H : Heap w} {b : Buf} {bytes : Bytes} {r : Result} {s s' : w}
    {next : Result → w → Status × BodyState × Result × w}
    (h : b.Refuses bytes ∨ ¬ ((next r s').1 = .ok ∧ (next r s').2.1 = .ok)) :
    ¬ ((afterAppend (bufAppend H b bytes s).1 r s' next).1 = .ok ∧
      (afterAppend (bufAppend H b bytes s).1 r s' next).2.1 = .ok) := by
  unfold afterAppend bufStatus
  split_ifs with hbig hother
  · simp
  · simp
  · rcases h with hrefuses | hnext
    · exact absurd (not_not.mp hother) (hrefuses.err H s)
    · exact hnext

/-- Reasoning that the buffer refuses makes the body no answer. -/
theorem parseReasoning_refuses {w : Type} {H : Heap w} {root choice0 : Json} {msg : Option Json}
    {r : Result} {s : w} {reasoning : Bytes} (hfind : findReasoning choice0 msg = some reasoning)
    (h : r.reasoning.Refuses reasoning) :
    ¬ ((parseReasoning H root choice0 msg r s).1 = .ok ∧
      (parseReasoning H root choice0 msg r s).2.1 = .ok) := by
  unfold parseReasoning
  rw [hfind]
  exact afterAppend_refuses (.inl h)

/-- A parse that refuses a piece is no success. -/
theorem responseParse_refuses {w : Type} {Y : Yyjson} {H : Heap w} {r : Result} {body : Bytes}
    {s : w} (h : ParseRefuses Y r body) :
    ¬ ((responseParse Y H r body s).1 = .ok ∧ (responseParse Y H r body s).2.1 = .ok) := by
  obtain ⟨root, choice0, hread, hchoice, hpiece⟩ := h
  unfold responseParse
  split_ifs
  · simp
  · split
    · simp
    · rename_i root' s' hgot
      obtain rfl : root' = root := Option.some.inj ((yyjsonRead_some hgot).symm.trans hread)
      rw [hchoice]
      dsimp only
      unfold parseContent
      dsimp only
      rcases hpiece with ⟨content, hcontent, hrefuses⟩ | ⟨reasoning, hfind, hrefuses⟩
      · rw [hcontent]
        exact afterAppend_refuses (.inl hrefuses)
      · split
        · exact afterAppend_refuses (.inr (parseReasoning_refuses hfind hrefuses))
        · split_ifs
          · exact parseReasoning_refuses hfind hrefuses
          · simp

section Parse

variable {w : Type} {H : Heap w} {cap : Nat}

/-- The tail of a body keeps to the cap. -/
theorem parseTail_capped (root : Json) {r : Result} (h : ResultCapped cap r) (s : w) :
    ResultCapped cap (parseTail H root r s).2.2.1 := by
  have hlift := (h.frame (liftUsage_frame r root)).frame
    (liftModel_frame H (liftUsage r root) root s)
  unfold parseTail
  split <;> rename_i hm <;> rw [hm] at hlift <;> exact hlift

/-- So does the finish reason. -/
theorem parseFinish_capped (root choice0 : Json) {r : Result} (h : ResultCapped cap r) (s : w) :
    ResultCapped cap (parseFinish H root choice0 r s).2.2.1 := by
  unfold parseFinish
  split
  · exact parseTail_capped root h s
  · rename_i raw _
    have hset : ResultCapped cap (resultSetFinish H r raw s).2.1 := by
      unfold resultSetFinish
      split_ifs
      · exact h.frame ⟨rfl, rfl, rfl, rfl, rfl⟩
      · exact h
    split <;> rename_i hf <;> rw [hf] at hset
    · exact parseTail_capped root hset _
    · exact hset

/-- So does what comes behind an append. -/
theorem afterAppend_capped {b : Buf} {r : Result} {s : w}
    {next : Result → w → Status × BodyState × Result × w} (h : ResultCapped cap r)
    (hnext : ResultCapped cap (next r s).2.2.1) :
    ResultCapped cap (afterAppend b r s next).2.2.1 := by
  unfold afterAppend
  split_ifs
  · exact h
  · exact h
  · exact hnext

/-- So does the reasoning. -/
theorem parseReasoning_capped (hcap : 0 < cap) (root choice0 : Json) (msg : Option Json)
    {r : Result} (h : ResultCapped cap r) (s : w) :
    ResultCapped cap (parseReasoning H root choice0 msg r s).2.2.1 := by
  unfold parseReasoning
  split
  · exact parseFinish_capped root choice0 h s
  · rename_i reasoning _
    have hstored := h.setBuf .reasoning
      (bufAppend_capped hcap (h.buf .reasoning) H reasoning s)
    exact afterAppend_capped hstored (parseFinish_capped root choice0 hstored _)

/-- A parse keeps the buffers within their caps. -/
theorem responseParse_capped (Y : Yyjson) (hcap : 0 < cap) {r : Result}
    (h : ResultCapped cap r) (body : Bytes) (s : w) :
    ResultCapped cap (responseParse Y H r body s).2.2.1 := by
  unfold responseParse
  split_ifs
  · exact h
  · split
    · exact h
    · rename_i root s' hread
      split
      · exact h
      · unfold parseContent
        dsimp only
        split
        · rename_i content _
          have hstored := h.setBuf .content (bufAppend_capped hcap (h.buf .content) H content s')
          exact afterAppend_capped hstored (parseReasoning_capped hcap _ _ _ hstored _)
        · split_ifs
          · exact parseReasoning_capped hcap _ _ _ h _
          · exact h

end Parse

end Sicha
