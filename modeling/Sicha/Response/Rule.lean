import Sicha.Response

/-!
# The rule for streamed events

The event callback {lit}`streamOnEvent` does five kinds of things: it allocates, it keeps
books, it lifts fields into the result, it stores and delivers delta bytes, and it
reports raw payloads.  An invariant that survives each of these survives every event,
and every call into the parser.

Main results:

- Theorem {lit}`streamOnEvent_answers`: the rule for one event.
- Theorem {lit}`EventRule.steps`: an invariant that does not look into the buffers.
- Theorems {lit}`feed_outcome` and {lit}`finish_outcome`: the rule for the parser.
-/

namespace Sicha

/-- {lit}`P` holds after a step that answered zero, {lit}`Q` after one that did not. -/
def Answers {S : Type} (P : S → Prop) (Q : Int → S → Prop) (r : Int × S) : Prop :=
  (r.1 = 0 → P r.2) ∧ (r.1 ≠ 0 → Q r.1 r.2)

/-- A step that returns 0. -/
theorem Answers.zero {S : Type} {P : S → Prop} {Q : Int → S → Prop} {s : S} (h : P s) :
    Answers P Q (0, s) :=
  ⟨fun _ => h, fun hne => absurd rfl hne⟩

/-- A step that returns an error. -/
theorem Answers.nonzero {S : Type} {P : S → Prop} {Q : Int → S → Prop} {rc : Int} {s : S}
    (hrc : rc ≠ 0) (h : Q rc s) : Answers P Q (rc, s) :=
  ⟨fun hzero => absurd hzero hrc, fun _ => h⟩

/-- A step behind which the same holds, whatever it returns. -/
theorem Answers.both {S : Type} {P : S → Prop} {r : Int × S} (h : P r.2) :
    Answers P (fun _ => P) r :=
  ⟨fun _ => h, fun _ => h⟩

/-- Two steps in a row, the second only behind a zero. -/
theorem Answers.andThen {S : Type} {P : S → Prop} {Q : Int → S → Prop} {r : Int × S}
    {next : S → Int × S} (h : Answers P Q r) (hnext : ∀ s, P s → Answers P Q (next s)) :
    Answers P Q (andThen r next) := by
  unfold Sicha.andThen
  split_ifs with hzero
  · exact hnext r.2 (h.1 hzero)
  · exact h

variable [SizeT] {σ : Type}

/-- What lifting fields leaves alone in a result. -/
structure SameFrame (r r' : Result) : Prop where
  text : r'.text = r.text
  reasoning : r'.reasoning = r.reasoning
  attempts : r'.attempts = r.attempts
  backend : r'.backend = r.backend
  rawBody : r'.rawBody = r.rawBody

/-- The records and the place of a result. -/
structure SameRecords (r r' : Result) : Prop where
  attempts : r'.attempts = r.attempts
  backend : r'.backend = r.backend

/-- A result has its own frame. -/
theorem SameFrame.refl (r : Result) : SameFrame r r :=
  ⟨rfl, rfl, rfl, rfl, rfl⟩

/-- Another buffer leaves the records and the backend alone. -/
theorem setBuf_records (ch : Channel) (r : Result) (b : Buf) :
    SameRecords r (ch.setBuf r b) := by
  cases ch <;> exact ⟨rfl, rfl⟩

/-- Another buffer changes the bytes of its channel only. -/
theorem setBuf_bytes (ch ch' : Channel) (r : Result) (b : Buf) :
    (ch'.buf (ch.setBuf r b)).bytes = if ch' = ch then b.bytes else (ch'.buf r).bytes := by
  cases ch <;> cases ch' <;> rfl

/-- Results with one frame have the same buffers. -/
theorem SameFrame.buf {r r' : Result} (h : SameFrame r r') (ch : Channel) :
    ch.buf r' = ch.buf r := by
  cases ch
  · exact h.text
  · exact h.reasoning

/-- The result of a delivery before the callback: the bytes are stored if the stream
accumulates. -/
def Stored (ch : Channel) (bytes : Bytes) (s : StreamW σ) (r : Result) : Prop :=
  if s.ctx.accumulate then
    ∃ b : Buf, b.bytes = (ch.buf s.r).bytes ++ bytes ∧ r = ch.setBuf s.r b
  else r = s.r

/-- What is stored leaves the records alone. -/
theorem Stored.records {ch : Channel} {bytes : Bytes} {s : StreamW σ} {r : Result}
    (h : Stored ch bytes s r) : SameRecords s.r r := by
  unfold Stored at h
  split_ifs at h
  · obtain ⟨b, -, rfl⟩ := h
    exact setBuf_records ch s.r b
  · rw [h]
    exact ⟨rfl, rfl⟩

/-- What is stored stands behind the bytes of its channel. -/
theorem Stored.bytes_eq {ch : Channel} {bytes : Bytes} {s : StreamW σ} {r : Result}
    (h : Stored ch bytes s r) (hacc : s.ctx.accumulate = true) (ch' : Channel) :
    (ch'.buf r).bytes = (ch'.buf s.r).bytes ++ if ch' = ch then bytes else [] := by
  unfold Stored at h
  rw [if_pos hacc] at h
  obtain ⟨b, hb, rfl⟩ := h
  rw [setBuf_bytes]
  split_ifs with hsame
  · rw [hb, hsame]
  · rw [List.append_nil]

/-- A callback touches neither the result nor the context. -/
theorem callData_same (cb : Option (DataCallback σ)) (mk : Bytes → Int → Act) (data : Bytes)
    (s : StreamW σ) :
    (callData cb mk data s).2.r = s.r ∧ (callData cb mk data s).2.ctx = s.ctx := by
  unfold callData
  cases cb <;> exact ⟨rfl, rfl⟩

/-- To announce a piece stores nothing. -/
theorem deliverCall_same (cbs : Option (Callbacks σ)) (ch : Channel) (bytes : Bytes)
    (s : StreamW σ) :
    (deliverCall cbs ch bytes s).2.r = s.r ∧
      (deliverCall cbs ch bytes s).2.ctx.lastRaw = s.ctx.lastRaw ∧
      (deliverCall cbs ch bytes s).2.ctx.accumulate = s.ctx.accumulate := by
  unfold deliverCall
  split_ifs
  · obtain ⟨hr, hctx⟩ := callData_same (ch.callback cbs) ch.act bytes
      { s with ctx := { s.ctx with delivered := true } }
    rw [hr, hctx]
    exact ⟨rfl, rfl, rfl⟩
  · exact ⟨rfl, rfl, rfl⟩

/-- What the event callback does, step by step, and an invariant has to survive. -/
structure EventSteps (H : Heap σ) (cbs : Option (Callbacks σ)) (P : StreamW σ → Prop)
    (Q : Int → StreamW σ → Prop) : Prop where
  alloc : ∀ n s, P s → P (s.setEnv (H.alloc n s.world.env).2)
  saw : ∀ s, P s → P { s with ctx := { s.ctx with sawEvent := true } }
  /-- a raw payload is remembered -/
  keep : ∀ s (data : Bytes) b, P s →
    b = bufAppend H (bufReset s.ctx.lastRaw) (data.take excerptMax) s.world.env →
    P { s.setEnv b.2 with ctx := { s.ctx with lastRaw := b.1 } }
  lift : ∀ s r, P s → SameFrame s.r r → P { s with r := r }
  /-- a piece is stored and handed over, or does not fit -/
  store : ∀ s (ch : Channel) (bytes : Bytes) b, P s → bytes ≠ [] → s.ctx.accumulate = true →
    b = bufAppend H (ch.buf s.r) bytes s.world.env →
    (b.1.err = .ok →
      Answers P Q (deliverCall cbs ch bytes { s.setEnv b.2 with r := ch.setBuf s.r b.1 })) ∧
    (b.1.err ≠ .ok → Q (-1) { s.setEnv b.2 with
      r := ch.setBuf s.r b.1, ctx := { s.ctx with err := b.1.err } })
  /-- a piece is handed over -/
  give : ∀ s (ch : Channel) bytes, P s → bytes ≠ [] → s.ctx.accumulate = false →
    Answers P Q (deliverCall cbs ch bytes s)
  raw : ∀ s data, P s → Answers P Q (callData (cbs.bind Callbacks.onRawChunk) .onRawChunk data s)
  /-- out of memory -/
  fail : ∀ s, P s → Q (-1) { s with ctx := { s.ctx with err := .nomem } }
  stop : ∀ s, P s → Q streamStop { s with ctx := { s.ctx with done := true } }

/-- What an invariant of the event callback has to survive that does not look into the
buffers. -/
structure EventRule (H : Heap σ) (cbs : Option (Callbacks σ)) (P : StreamW σ → Prop)
    (Q : Int → StreamW σ → Prop) : Prop where
  alloc : ∀ n s, P s → P (s.setEnv (H.alloc n s.world.env).2)
  /-- the books: {lit}`sawEvent` and {lit}`lastRaw` -/
  books : ∀ s saw raw, P s → P { s with ctx := { s.ctx with sawEvent := saw, lastRaw := raw } }
  lift : ∀ s r, P s → SameFrame s.r r → P { s with r := r }
  /-- an append that failed -/
  refuse : ∀ s (ch : Channel) (b : Buf), P s → b.bytes = (ch.buf s.r).bytes →
    P { s with r := ch.setBuf s.r b }
  give : ∀ s (ch : Channel) bytes r, P s → bytes ≠ [] → Stored ch bytes s r →
    Answers P Q (deliverCall cbs ch bytes { s with r := r })
  raw : ∀ s data, P s → Answers P Q (callData (cbs.bind Callbacks.onRawChunk) .onRawChunk data s)
  fail : ∀ s err, P s → Q (-1) { s with ctx := { s.ctx with err := err } }
  stop : ∀ s, P s → Q streamStop { s with ctx := { s.ctx with done := true } }

/-- An append asks the allocator, and nothing else. -/
theorem EventRule.append_env {H : Heap σ} {cbs : Option (Callbacks σ)} {P : StreamW σ → Prop}
    {Q : Int → StreamW σ → Prop} (rule : EventRule H cbs P Q) (s : StreamW σ) (b : Buf)
    (xs : Bytes) (hs : P s) : P (s.setEnv (bufAppend H b xs s.world.env).2) :=
  @bufAppend_keeps _ _ H (fun v => P (s.setEnv v)) (fun n v hv => rule.alloc n (s.setEnv v) hv)
    b xs s.world.env hs

/-- An invariant that does not look into the buffers survives every step. -/
theorem EventRule.steps {H : Heap σ} {cbs : Option (Callbacks σ)} {P : StreamW σ → Prop}
    {Q : Int → StreamW σ → Prop} (rule : EventRule H cbs P Q) : EventSteps H cbs P Q where
  alloc := rule.alloc
  saw s hs := rule.books s true s.ctx.lastRaw hs
  keep := by
    rintro s data b hs rfl
    exact rule.books _ s.ctx.sawEvent _ (rule.append_env s _ _ hs)
  lift := rule.lift
  store := by
    rintro s ch bytes b hs hne hacc rfl
    have henv := rule.append_env s (ch.buf s.r) bytes hs
    rcases bufAppend_bytes H (ch.buf s.r) bytes s.world.env with ⟨hok, hbytes⟩ | ⟨herr, hbytes⟩
    · refine ⟨fun _ => rule.give _ ch bytes _ henv hne ?_, fun h => absurd hok h⟩
      unfold Stored
      rw [if_pos (by exact hacc)]
      exact ⟨_, hbytes, rfl⟩
    · exact ⟨fun h => absurd h herr, fun _ => rule.fail _ _ (rule.refuse _ ch _ henv hbytes)⟩
  give := by
    intro s ch bytes hs hne hacc
    refine rule.give s ch bytes s.r hs hne ?_
    unfold Stored
    rw [if_neg (by simp [hacc])]
  raw := rule.raw
  fail s hs := rule.fail s .nomem hs
  stop := rule.stop

section Rule

variable {H : Heap σ} {cbs : Option (Callbacks σ)} {P : StreamW σ → Prop}
  {Q : Int → StreamW σ → Prop} (rule : EventSteps H cbs P Q)

include rule

/-- A granted or refused request leaves the property standing. -/
theorem alloc_env (s : StreamW σ) (n : Nat) (v : σ) (hs : P (s.setEnv v)) :
    P (s.setEnv (H.alloc n v).2) :=
  rule.alloc n (s.setEnv v) hs

/-- To fail for memory is a failure that the rule knows. -/
theorem failWith_answers {s : StreamW σ} (hs : P s) : Answers P Q (s.failWith .nomem) :=
  .nonzero (by decide) (rule.fail s hs)

/-- The report of a raw chunk follows the rule. -/
theorem rawChunk_answers (data : Bytes) {s : StreamW σ} (hs : P s) :
    Answers P Q (rawChunk H cbs data s) := by
  have hkeep := rule.keep s data _ hs rfl
  unfold rawChunk
  dsimp only
  split_ifs
  · exact failWith_answers rule hkeep
  · exact rule.raw _ data hkeep

/-- A delivery follows the rule: it is stored, if it should be, and then announced. -/
theorem deliver_answers (ch : Channel) (bytes : Bytes) {s : StreamW σ} (hs : P s) :
    Answers P Q (deliver H cbs ch bytes s) := by
  unfold deliver
  split_ifs with hempty hacc
  · exact .zero hs
  · have hne : bytes ≠ [] := fun h => hempty (by simp [h])
    obtain ⟨hgive, hfail⟩ := rule.store s ch bytes _ hs hne hacc rfl
    have hstatus := (bufAppend H (ch.buf s.r) bytes s.world.env).1.inv_err
    simp only [List.mem_cons, List.not_mem_nil, or_false] at hstatus
    dsimp only
    unfold bufStatus
    rcases hstatus with hok | hnomem | hbig
    · rw [if_neg (by simp [hok]), if_neg (by simp [hok])]
      exact hgive hok
    · rw [hnomem] at hfail
      rw [if_pos hnomem]
      exact .nonzero (by decide) (hfail (by decide))
    · rw [hbig] at hfail
      rw [if_neg (by simp [hbig]), if_pos hbig]
      exact .nonzero (by decide) (hfail (by decide))
  · exact rule.give s ch bytes hs (fun h => hempty (by simp [h])) (by simpa using hacc)

/-- With nothing to deliver, nothing happens. -/
theorem deliverOpt_answers (ch : Channel) (bytes : Option Bytes) {s : StreamW σ} (hs : P s) :
    Answers P Q (deliverOpt H cbs ch bytes s) := by
  cases bytes with
  | none => exact .zero hs
  | some bytes => exact deliver_answers rule ch bytes hs

/-- A delta follows the rule, as its pieces do. -/
theorem streamDelta_answers (data : Bytes) (delta : Json) {s : StreamW σ} (hs : P s) :
    Answers P Q (streamDelta H cbs data delta s) := by
  refine (deliverOpt_answers rule _ _ hs).andThen fun s hs => ?_
  refine (deliverOpt_answers rule _ _ hs).andThen fun s hs => ?_
  split_ifs
  · exact rawChunk_answers rule data hs
  · exact .zero hs

/-- The finish reason follows the rule. -/
theorem streamFinish_answers (choice0 : Json) {s : StreamW σ} (hs : P s) :
    Answers P Q (streamFinish H choice0 s) := by
  unfold streamFinish
  split
  · exact .zero hs
  · rename_i raw _
    have henv := alloc_env rule s (raw.length + 1) s.world.env hs
    have hlift : P { s.setEnv (resultSetFinish H s.r raw s.world.env).2.2 with
        r := (resultSetFinish H s.r raw s.world.env).2.1 } := by
      unfold resultSetFinish
      split_ifs
      · exact rule.lift _ _ henv ⟨rfl, rfl, rfl, rfl, rfl⟩
      · exact rule.lift _ _ henv (SameFrame.refl _)
    dsimp only
    split_ifs
    · exact failWith_answers rule hlift
    · exact .zero hlift

/-- A choice follows the rule: its delta, then its finish reason. -/
theorem streamChoice_answers (data : Bytes) (choice0 : Json) {s : StreamW σ} (hs : P s) :
    Answers P Q (streamChoice H cbs data choice0 s) := by
  unfold streamChoice
  refine Answers.andThen ?_ fun s hs => streamFinish_answers rule choice0 hs
  split
  · exact streamDelta_answers rule data _ hs
  · exact .zero hs

omit rule in
/-- The usage is no part of the frame. -/
theorem liftUsage_frame (r : Result) (root : Json) : SameFrame r (liftUsage r root) := by
  unfold liftUsage
  split
  · exact SameFrame.refl r
  · exact ⟨rfl, rfl, rfl, rfl, rfl⟩

omit rule in
/-- The model is no part of the frame. -/
theorem liftModel_frame {w : Type} (H : Heap w) (r : Result) (root : Json) (s : w) :
    SameFrame r (liftModel H r root s).2.1 := by
  unfold liftModel
  split
  · unfold resultSetModel
    split_ifs
    · exact ⟨rfl, rfl, rfl, rfl, rfl⟩
    · exact SameFrame.refl r
  · exact SameFrame.refl r

/-- The usage and the model of an event follow the rule. -/
theorem streamLift_answers (root : Json) {s : StreamW σ} (hs : P s) :
    Answers P Q (streamLift H root s) := by
  have henv : P (s.setEnv (liftModel H (liftUsage s.r root) root s.world.env).2.2) := by
    unfold liftModel resultSetModel
    split
    · split_ifs <;> exact alloc_env rule s _ s.world.env hs
    · exact hs
  have hframe : SameFrame s.r (liftModel H (liftUsage s.r root) root s.world.env).2.1 := by
    have husage := liftUsage_frame s.r root
    have hmodel := liftModel_frame H (liftUsage s.r root) root s.world.env
    exact ⟨hmodel.text.trans husage.text, hmodel.reasoning.trans husage.reasoning,
      hmodel.attempts.trans husage.attempts, hmodel.backend.trans husage.backend,
      hmodel.rawBody.trans husage.rawBody⟩
  have hlift := rule.lift _ _ henv hframe
  unfold streamLift
  dsimp only
  split_ifs
  · exact failWith_answers rule hlift
  · exact .zero hlift

/-- An event follows the rule, whatever tree it reads as. -/
theorem streamEvent_answers (data : Bytes) (root : Json) {s : StreamW σ} (hs : P s) :
    Answers P Q (streamEvent H cbs data root s) := by
  unfold streamEvent
  split
  · exact streamLift_answers rule root hs
  · split_ifs
    · exact (streamChoice_answers rule data _ hs).andThen
        fun s hs => streamLift_answers rule root hs
    · exact rawChunk_answers rule data hs

/-- What survives every step survives an event. -/
theorem streamOnEvent_answers (Y : Yyjson) : (streamOnEvent Y H cbs).Keeps P Q := by
  intro data s hs
  change Answers P Q (streamOnEvent Y H cbs data s)
  have henv : P (s.setEnv (yyjsonRead Y H data s.world.env).2) := by
    unfold yyjsonRead
    split_ifs <;> exact alloc_env rule s _ s.world.env hs
  unfold streamOnEvent
  split_ifs
  · exact .nonzero (by decide) (rule.stop s hs)
  · dsimp only
    split
    · exact rawChunk_answers rule data henv
    · split_ifs
      · exact streamEvent_answers rule data _ (rule.saw _ henv)
      · exact rawChunk_answers rule data henv

omit rule in
/-- A chunk fed to the parser. -/
theorem feed_outcome (rule : EventRule H cbs P Q) (Y : Yyjson) (p : Sse) (bytes : Bytes)
    {s : StreamW σ} (hs : P s) :
    SseOutcome P Q (sseFeed (streamHeap H) (some (streamOnEvent Y H cbs)) p bytes s) :=
  sseFeed_spec (fun n s hs => rule.alloc n s hs) (streamOnEvent_answers rule.steps Y) p bytes hs

omit rule in
/-- The end of input. -/
theorem finish_outcome (rule : EventRule H cbs P Q) (Y : Yyjson) (p : Sse) {s : StreamW σ}
    (hs : P s) :
    SseOutcome P Q (sseFinish (streamHeap H) (some (streamOnEvent Y H cbs)) p s) :=
  sseFinish_spec (fun n s hs => rule.alloc n s hs) (streamOnEvent_answers rule.steps Y) p hs

end Rule

/-! ## The rule for a parsed body -/

/-- How a parse ends: {lit}`P` holds, and the status is good or out of memory. -/
structure Parsed {w : Type} (P : Result → w → Prop) (x : Status × BodyState × Result × w) :
    Prop where
  keeps : P x.2.2.1 x.2.2.2
  status : x.1 = .ok ∨ x.1 = .nomem

section Parse

variable {w : Type} {H : Heap w} {P : Result → w → Prop}

omit [SizeT] in
/-- A guarded store succeeds or fails for memory. -/
theorem set_status {α : Type} {st : Status} {granted : Bool} {a b : α}
    (h : (if granted then (Status.ok, a) else (Status.nomem, b)).1 = st) :
    st = .ok ∨ st = .nomem := by
  subst h
  split_ifs
  · exact .inl rfl
  · exact .inr rfl

/-- The model is stored, or memory was missing. -/
theorem liftModel_status (r : Result) (root : Json) (s : w) :
    (liftModel H r root s).1 = .ok ∨ (liftModel H r root s).1 = .nomem := by
  unfold liftModel resultSetModel
  split
  · exact set_status rfl
  · exact .inl rfl

variable (halloc : ∀ n r s, P r s → P r (H.alloc n s).2)
  (hr : ∀ r r' s, P r s → SameRecords r r' → P r' s)

include halloc hr

/-- The tail of a body keeps what holds of the result and the allocator. -/
theorem parseTail_spec (root : Json) (r : Result) {s : w} (h : P r s) :
    Parsed P (parseTail H root r s) := by
  have hlift : P (liftModel H (liftUsage r root) root s).2.1
      (liftModel H (liftUsage r root) root s).2.2 := by
    have husage := liftUsage_frame r root
    have hmodel := liftModel_frame H (liftUsage r root) root s
    refine hr r _ _ ?_ ⟨hmodel.attempts.trans husage.attempts, hmodel.backend.trans husage.backend⟩
    unfold liftModel resultSetModel
    split
    · split_ifs <;> exact halloc _ _ _ h
    · exact h
  have hstatus := @liftModel_status _ _ H (liftUsage r root) root s
  unfold parseTail
  split <;> rename_i hm <;> rw [hm] at hlift hstatus
  · exact ⟨hlift, .inl rfl⟩
  · exact ⟨hlift, hstatus⟩

/-- So does the finish reason in front of it. -/
theorem parseFinish_spec (root choice0 : Json) (r : Result) {s : w} (h : P r s) :
    Parsed P (parseFinish H root choice0 r s) := by
  unfold parseFinish
  split
  · exact parseTail_spec halloc hr root r h
  · rename_i raw _
    have hset : P (resultSetFinish H r raw s).2.1 (resultSetFinish H r raw s).2.2 := by
      unfold resultSetFinish
      split_ifs
      · exact hr r _ _ (halloc _ _ _ h) ⟨rfl, rfl⟩
      · exact halloc _ _ _ h
    have hstatus : (resultSetFinish H r raw s).1 = .ok ∨ (resultSetFinish H r raw s).1 = .nomem :=
      set_status rfl
    split <;> rename_i hf <;> rw [hf] at hset hstatus
    · exact parseTail_spec halloc hr root _ hset
    · exact ⟨hset, hstatus⟩

omit halloc hr in
/-- So does what comes behind an append. -/
theorem afterAppend_spec {b : Buf} {r : Result} {s : w}
    {next : Result → w → Status × BodyState × Result × w} (h : P r s)
    (hnext : Parsed P (next r s)) : Parsed P (afterAppend b r s next) := by
  have herr := b.inv_err
  simp only [List.mem_cons, List.not_mem_nil, or_false] at herr
  unfold afterAppend
  split_ifs with hbig hok
  · exact ⟨h, .inl rfl⟩
  · refine ⟨h, .inr ?_⟩
    rcases herr with herr | herr | herr
    · exact absurd herr hok
    · exact herr
    · exact absurd herr hbig
  · exact hnext

/-- So does the reasoning. -/
theorem parseReasoning_spec (root choice0 : Json) (msg : Option Json) (r : Result) {s : w}
    (h : P r s) : Parsed P (parseReasoning H root choice0 msg r s) := by
  unfold parseReasoning
  split
  · exact parseFinish_spec halloc hr root choice0 r h
  · rename_i reasoning _
    have happend := hr r { r with reasoning := (bufAppend H r.reasoning reasoning s).1 } _
      (bufAppend_keeps (fun n s hs => halloc n r s hs) r.reasoning reasoning h) ⟨rfl, rfl⟩
    exact afterAppend_spec happend (parseFinish_spec halloc hr root choice0 _ happend)

/-- So does the content. -/
theorem parseContent_spec (root choice0 : Json) (r : Result) {s : w} (h : P r s) :
    Parsed P (parseContent H root choice0 r s) := by
  unfold parseContent
  dsimp only
  split
  · rename_i content _
    have happend := hr r { r with text := (bufAppend H r.text content s).1 } _
      (bufAppend_keeps (fun n s hs => halloc n r s hs) r.text content h) ⟨rfl, rfl⟩
    exact afterAppend_spec happend (parseReasoning_spec halloc hr root choice0 _ _ happend)
  · split_ifs
    · exact parseReasoning_spec halloc hr root choice0 _ r h
    · exact ⟨h, .inl rfl⟩

/-- What survives allocation and a change of content survives the parse of a body. -/
theorem responseParse_spec (Y : Yyjson) (body : Bytes) (r : Result) {s : w} (h : P r s) :
    Parsed P (responseParse Y H r body s) := by
  have hread := yyjsonRead_keeps Y (fun n s hs => halloc n r s hs) body h
  unfold responseParse
  split_ifs
  · exact ⟨h, .inl rfl⟩
  · split <;> rename_i hy <;> rw [hy] at hread
    · exact ⟨hread, .inl rfl⟩
    · split
      · exact ⟨hread, .inl rfl⟩
      · exact parseContent_spec halloc hr _ _ r hread

end Parse

end Sicha
