import Sicha.Client.Acts
import Sicha.Sse.Twin

/-!
# Two responses side by side

The same events and the same bodies, over two allocators, two environments and two sets of
callbacks that answer alike, assemble the same content.  The buffers of the two results need
not be equal, as in {lit}`SseTwin`, and the environments and the logs are compared as one
chooses to look at them.

Main results:

- Definitions {lit}`HeapTwins`, {lit}`Sight` and {lit}`StreamTwin`: what is related.
- Theorem {lit}`streamOnEvent_twin`: two event callbacks in lockstep.
- Theorem {lit}`responseParse_twin`: two parses in lockstep.
-/

namespace Sicha

variable [SizeT]

/-! ## Allocators that look alike -/

/-- Two allocators that nobody can tell apart, given the buffers they fill. -/
structure HeapTwins {v w : Type} (B : Buf → Buf → Prop) (H : Heap v) (K : Heap w)
    (Rel : v → w → Prop) : Prop extends Twins B H K Rel where
  alloc : H.Sim K Rel
  take : ∀ {b b' s t}, B b b' → Rel s t →
    (bufTake H b s).1 = (bufTake K b' t).1 ∧ B (bufTake H b s).2.1 (bufTake K b' t).2.1 ∧
      Rel (bufTake H b s).2.2 (bufTake K b' t).2.2
  init : ∀ maxLen, B (bufInit maxLen) (bufInit maxLen)

/-- Allocators that answer alike, and equal buffers. -/
theorem HeapTwins.of_sim {v w : Type} {H : Heap v} {K : Heap w} {Rel : v → w → Prop}
    (hsim : H.Sim K Rel) : HeapTwins Eq H K Rel where
  toTwins := .of_sim hsim
  alloc := hsim
  take := by
    rintro b _ s t rfl hst
    obtain ⟨hcode, hbuf, hrel⟩ := bufReserve_sim hsim b 0 hst
    unfold bufTake
    split_ifs
    · exact ⟨rfl, rfl, hst⟩
    · generalize bufReserve H b 0 s = out at hcode hbuf hrel
      generalize bufReserve K b 0 t = out' at hcode hbuf hrel
      obtain ⟨granted, b1, s1⟩ := out
      obtain ⟨granted', b1', t1⟩ := out'
      obtain rfl : granted = granted' := hcode
      obtain rfl : b1 = b1' := hbuf
      cases granted <;> exact ⟨rfl, rfl, hrel⟩
    · exact ⟨rfl, rfl, hst⟩
  init _ := rfl

/-- Allocators that never fail, and that the relation does not see. -/
theorem HeapTwins.of_reliable {v w : Type} {H : Heap v} {K : Heap w} {Rel : v → w → Prop}
    (hH : H.Reliable) (hK : K.Reliable) (hleft : ∀ n s t, Rel s t → Rel (H.alloc n s).2 t)
    (hright : ∀ n s t, Rel s t → Rel s (K.alloc n t).2) : HeapTwins SameView H K Rel where
  toTwins := .of_reliable hH hK hleft hright
  alloc n s t hst := ⟨(hH n s).trans (hK n t).symm, hright n _ t (hleft n s t hst)⟩
  take := by
    intro b b' s t hview hst
    have hb := bufTake_reliable hH b s
    have hb' := bufTake_reliable hK b' t
    have herr : b.err = b'.err := congrArg CappedBytes.err hview
    have hbytes : b.bytes = b'.bytes := congrArg CappedBytes.bytes hview
    have hmax : b.maxLen = b'.maxLen := congrArg CappedBytes.maxLen hview
    refine ⟨?_, ?_, ?_⟩
    · rw [hb.1, hb'.1, herr, hbytes]
    · rw [hb.2, hb'.2, hmax]
      rfl
    · have hone : Rel (bufTake H b s).2.2 t :=
        bufTake_keeps (P := fun s => Rel s t) (fun n s hs => hleft n s t hs) b hst
      exact bufTake_keeps (P := fun t => Rel (bufTake H b s).2.2 t)
        (fun n t ht => hright n _ t ht) b' hone
  init _ := rfl

variable {σ τ : Type}

/-- An append over the allocator of a stream. -/
theorem streamAppend_eq (H : Heap σ) (b : Buf) (xs : Bytes) (s : StreamW σ) :
    bufAppend (streamHeap H) b xs s =
      ((bufAppend H b xs s.world.env).1, s.setEnv (bufAppend H b xs s.world.env).2) := by
  have hone : (streamHeap H).Sim H fun s' v => s' = s.setEnv v := by
    rintro n _ v rfl
    exact ⟨rfl, rfl⟩
  have hstart : s = s.setEnv s.world.env := rfl
  obtain ⟨hbuf, henv⟩ := bufAppend_sim hone b xs hstart
  exact Prod.ext hbuf henv

/-! ## What is compared -/

/-- What a result holds beside its content. -/
structure ResultRest where
  status : Status
  backend : Int32
  attempts : List Attempt
  capAttempts : UInt32

/-- The rest of a result. -/
def Result.rest (r : Result) : ResultRest :=
  ⟨r.status, r.backend, r.attempts, r.capAttempts⟩

/-- How two runs are looked at: which buffers, which environments and which rests of results
look alike, and which actions and which logs. -/
structure Sight (σ τ : Type) where
  buf : Buf → Buf → Prop
  env : σ → τ → Prop
  rest : ResultRest → ResultRest → Prop
  act : Act → Act → Prop
  log : List Act → List Act → Prop
  data : ∀ a, a.isData = true → act a a
  snoc : ∀ {as bs a b}, log as bs → act a b → log (as ++ [a]) (bs ++ [b])

/-- Two results that nobody can tell apart. -/
structure ContentTwin (S : Sight σ τ) (r r' : Result) : Prop where
  text : S.buf r.text r'.text
  reasoning : S.buf r.reasoning r'.reasoning
  finishRaw : r.finishRaw = r'.finishRaw
  finish : r.finish = r'.finish
  promptTokens : r.promptTokens = r'.promptTokens
  completionTokens : r.completionTokens = r'.completionTokens
  totalTokens : r.totalTokens = r'.totalTokens
  model : r.model = r'.model
  rawBody : r.rawBody = r'.rawBody
  rest : S.rest r.rest r'.rest

/-- Two contexts that nobody can tell apart. -/
structure CtxTwin (B : Buf → Buf → Prop) (c c' : StreamCtx) : Prop where
  accumulate : c.accumulate = c'.accumulate
  done : c.done = c'.done
  delivered : c.delivered = c'.delivered
  sawEvent : c.sawEvent = c'.sawEvent
  err : c.err = c'.err
  lastRaw : B c.lastRaw c'.lastRaw

/-- Two worlds that look alike. -/
structure WorldTwin (S : Sight σ τ) (w : World σ) (w' : World τ) : Prop where
  env : S.env w.env w'.env
  log : S.log w.acts w'.acts

/-- Two streams that nobody can tell apart. -/
structure StreamTwin (S : Sight σ τ) (s : StreamW σ) (t : StreamW τ) : Prop where
  ctx : CtxTwin S.buf s.ctx t.ctx
  r : ContentTwin S s.r t.r
  world : WorldTwin S s.world t.world

/-- Two callbacks that answer alike from related environments. -/
def DataAlike (Rel : σ → τ → Prop) (f : DataCallback σ) (g : DataCallback τ) : Prop :=
  ∀ bytes s t, Rel s t → (f bytes s).1 = (g bytes t).1 ∧ Rel (f bytes s).2 (g bytes t).2

/-- The data callbacks of two callers answer alike. -/
structure DataTwin (Rel : σ → τ → Prop) (cbs : Option (Callbacks σ))
    (cbs' : Option (Callbacks τ)) : Prop where
  data : ∀ ch : Channel, Option.Rel (DataAlike Rel) (ch.callback cbs) (ch.callback cbs')
  raw : Option.Rel (DataAlike Rel) (cbs.bind Callbacks.onRawChunk)
    (cbs'.bind Callbacks.onRawChunk)

/-- Two steps that answer alike. -/
structure StepTwin (S : Sight σ τ) (r : Int × StreamW σ) (r' : Int × StreamW τ) : Prop where
  code : r.1 = r'.1
  state : StreamTwin S r.2 r'.2

section Lockstep

variable {S : Sight σ τ}

/-- Another environment. -/
theorem WorldTwin.setEnv {w : World σ} {w' : World τ} (h : WorldTwin S w w') {v : σ} {u : τ}
    (hvu : S.env v u) : WorldTwin S { w with env := v } { w' with env := u } :=
  ⟨hvu, h.log⟩

/-- One more action on both sides. -/
theorem WorldTwin.act {α α' : Type} {w : World σ} {w' : World τ} (h : WorldTwin S w w')
    {f : σ → α × σ} {g : τ → α' × τ} {m : α → Act} {n : α' → Act}
    (hact : S.act (m (f w.env).1) (n (g w'.env).1)) (hrel : S.env (f w.env).2 (g w'.env).2) :
    WorldTwin S (w.act f m).2 (w'.act g n).2 := by
  refine ⟨hrel, ?_⟩
  rw [World.act_acts, World.act_acts]
  exact S.snoc h.log hact

/-- Twins of the world stay so with notes that look alike. -/
theorem WorldTwin.note {w : World σ} {w' : World τ} (h : WorldTwin S w w') {a a' : Act}
    (hact : S.act a a') : WorldTwin S (w.note a) (w'.note a') := by
  refine ⟨h.env, ?_⟩
  rw [World.note_acts, World.note_acts]
  exact S.snoc h.log hact

/-- Twins of the stream stay so with environments that are alike. -/
theorem StreamTwin.setEnv {s : StreamW σ} {t : StreamW τ} (h : StreamTwin S s t) {v : σ}
    {u : τ} (hvu : S.env v u) : StreamTwin S (s.setEnv v) (t.setEnv u) :=
  ⟨h.ctx, h.r, h.world.setEnv hvu⟩

/-- Two steps in a row, alike on both sides. -/
theorem StepTwin.andThen {r : Int × StreamW σ} {r' : Int × StreamW τ}
    (h : StepTwin S r r') {next : StreamW σ → Int × StreamW σ}
    {next' : StreamW τ → Int × StreamW τ}
    (hnext : ∀ s t, StreamTwin S s t → StepTwin S (next s) (next' t)) :
    StepTwin S (andThen r next) (andThen r' next') := by
  unfold Sicha.andThen
  rw [h.code]
  split_ifs
  · exact hnext _ _ h.state
  · exact h

/-- A step that does nothing, alike on both sides. -/
theorem StepTwin.done {s : StreamW σ} {t : StreamW τ} (h : StreamTwin S s t) (rc : Int) :
    StepTwin S (rc, s) (rc, t) :=
  ⟨rfl, h⟩

/-- Both sides fail alike. -/
theorem failWith_twin {s : StreamW σ} {t : StreamW τ} (h : StreamTwin S s t)
    (err : Status) : StepTwin S (s.failWith err) (t.failWith err) :=
  ⟨rfl, ⟨h.ctx.accumulate, h.ctx.done, h.ctx.delivered, h.ctx.sawEvent, rfl, h.ctx.lastRaw⟩, h.r,
    h.world⟩

/-- Callbacks that are alike are called alike. -/
theorem callData_twin {f : Option (DataCallback σ)} {g : Option (DataCallback τ)}
    (hfg : Option.Rel (DataAlike S.env) f g) {mk : Bytes → Int → Act}
    (hmk : ∀ bytes rc, (mk bytes rc).isData = true) (data : Bytes) {s : StreamW σ}
    {t : StreamW τ} (h : StreamTwin S s t) :
    StepTwin S (callData f mk data s) (callData g mk data t) := by
  cases hfg with
  | none => exact .done h 0
  | @some f g hfg =>
      obtain ⟨hcode, hrel⟩ := hfg data _ _ h.world.env
      have hworld := h.world.act (f := f data) (g := g data) (m := mk data) (n := mk data)
        (by rw [hcode]; exact S.data _ (hmk data _)) hrel
      exact ⟨congrArg (fun rc : Int => if rc ≠ 0 then streamCancel else 0) hcode, h.ctx, h.r,
        hworld⟩

/-! ## Events -/

section Events

variable {H : Heap σ} {K : Heap τ} (hB : HeapTwins S.buf H K S.env)

include hB

/-- The allocators of two streams are alike as those of their calls are. -/
theorem streamHeap_twins : Twins S.buf (streamHeap H) (streamHeap K) (StreamTwin S) where
  view := hB.view
  append := by
    intro b b' xs s t hb h
    obtain ⟨hbuf, hrel⟩ := hB.append xs hb h.world.env
    rw [streamAppend_eq, streamAppend_eq]
    exact ⟨hbuf, h.setEnv hrel⟩
  reset := hB.reset

/-- Buffers that are alike have one status. -/
theorem bufStatus_twin {b b' : Buf} (h : S.buf b b') : bufStatus b = bufStatus b' :=
  hB.toTwins.err h

omit hB in
/-- Contents that are alike stay so with buffers that are. -/
theorem setBuf_twin {r r' : Result} (h : ContentTwin S r r') (ch : Channel) {b b' : Buf}
    (hb : S.buf b b') : ContentTwin S (ch.setBuf r b) (ch.setBuf r' b') := by
  cases ch
  · exact ⟨hb, h.reasoning, h.finishRaw, h.finish, h.promptTokens, h.completionTokens,
      h.totalTokens, h.model, h.rawBody, h.rest⟩
  · exact ⟨h.text, hb, h.finishRaw, h.finish, h.promptTokens, h.completionTokens,
      h.totalTokens, h.model, h.rawBody, h.rest⟩

omit hB in
/-- Contents that are alike have buffers that are. -/
theorem ContentTwin.buf {r r' : Result} (h : ContentTwin S r r') (ch : Channel) :
    S.buf (ch.buf r) (ch.buf r') := by
  cases ch
  · exact h.text
  · exact h.reasoning

/-- Two steps on a result that answer alike. -/
structure ResultStep (S : Sight σ τ) (x : Status × Result × σ) (x' : Status × Result × τ) :
    Prop where
  code : x.1 = x'.1
  r : ContentTwin S x.2.1 x'.2.1
  env : S.env x.2.2 x'.2.2

/-- The finish reason is stored alike. -/
theorem resultSetFinish_twin {r r' : Result} (h : ContentTwin S r r') (raw : Bytes) {s : σ}
    {t : τ} (hst : S.env s t) : ResultStep S (resultSetFinish H r raw s) (resultSetFinish K r' raw t) := by
  obtain ⟨hans, hrel⟩ := hB.alloc (raw.length + 1) s t hst
  unfold resultSetFinish
  rw [hans]
  split_ifs
  · exact ⟨rfl, ⟨h.text, h.reasoning, rfl, rfl, h.promptTokens, h.completionTokens, h.totalTokens,
      h.model, h.rawBody, h.rest⟩, hrel⟩
  · exact ⟨rfl, h, hrel⟩

omit hB in
/-- The usage is lifted alike. -/
theorem liftUsage_twin {r r' : Result} (h : ContentTwin S r r') (root : Json) :
    ContentTwin S (liftUsage r root) (liftUsage r' root) := by
  unfold liftUsage
  split
  · exact h
  · rw [h.promptTokens, h.completionTokens, h.totalTokens]
    exact ⟨h.text, h.reasoning, h.finishRaw, h.finish, rfl, rfl, rfl, h.model, h.rawBody,
      h.rest⟩

/-- The model is lifted alike. -/
theorem liftModel_twin {r r' : Result} (h : ContentTwin S r r') (root : Json) {s : σ} {t : τ}
    (hst : S.env s t) : ResultStep S (liftModel H r root s) (liftModel K r' root t) := by
  unfold liftModel
  rw [h.model]
  cases r'.model with
  | some model => exact ⟨rfl, h, hst⟩
  | none =>
      cases root.getStr? (ascii "model") with
      | none => exact ⟨rfl, h, hst⟩
      | some model =>
          obtain ⟨hans, hrel⟩ := hB.alloc (model.length + 1) s t hst
          dsimp only
          unfold resultSetModel
          rw [hans]
          split_ifs
          · exact ⟨rfl, ⟨h.text, h.reasoning, h.finishRaw, h.finish, h.promptTokens,
              h.completionTokens, h.totalTokens, rfl, h.rawBody, h.rest⟩, hrel⟩
          · exact ⟨rfl, h, hrel⟩

/-- A text is read alike. -/
theorem yyjsonRead_twin (Y : Yyjson) (text : Bytes) {s : σ} {t : τ} (hst : S.env s t) :
    (yyjsonRead Y H text s).1 = (yyjsonRead Y K text t).1 ∧
      S.env (yyjsonRead Y H text s).2 (yyjsonRead Y K text t).2 := by
  obtain ⟨hans, hrel⟩ := hB.alloc yyjsonChunk s t hst
  unfold yyjsonRead
  rw [hans]
  split_ifs
  · exact ⟨rfl, hrel⟩
  · exact ⟨rfl, hrel⟩

omit hB in
/-- The fields that an event lifts into the result. -/
theorem lifted_twin {s : StreamW σ} {t : StreamW τ} (h : StreamTwin S s t)
    {x : Status × Result × σ} {x' : Status × Result × τ} (hx : ResultStep S x x') :
    StepTwin S
      (if x.1 ≠ .ok then ({ s.setEnv x.2.2 with r := x.2.1 } : StreamW σ).failWith .nomem
        else (0, { s.setEnv x.2.2 with r := x.2.1 }))
      (if x'.1 ≠ .ok then ({ t.setEnv x'.2.2 with r := x'.2.1 } : StreamW τ).failWith .nomem
        else (0, { t.setEnv x'.2.2 with r := x'.2.1 })) := by
  have hnext : StreamTwin S { s.setEnv x.2.2 with r := x.2.1 }
      { t.setEnv x'.2.2 with r := x'.2.1 } :=
    ⟨h.ctx, hx.r, h.world.setEnv hx.env⟩
  rw [hx.code]
  split_ifs
  · exact failWith_twin hnext .nomem
  · exact .done hnext 0

/-- The finish reason of an event is stored alike. -/
theorem streamFinish_twin (choice0 : Json) {s : StreamW σ} {t : StreamW τ}
    (h : StreamTwin S s t) :
    StepTwin S (streamFinish H choice0 s) (streamFinish K choice0 t) := by
  unfold streamFinish
  cases choice0.getStr? (ascii "finish_reason") with
  | none => exact .done h 0
  | some raw => exact lifted_twin h (resultSetFinish_twin hB h.r raw h.world.env)

/-- The usage and the model of an event are lifted alike. -/
theorem streamLift_twin (root : Json) {s : StreamW σ} {t : StreamW τ}
    (h : StreamTwin S s t) :
    StepTwin S (streamLift H root s) (streamLift K root t) :=
  lifted_twin h (liftModel_twin hB (liftUsage_twin h.r root) root h.world.env)

variable {cbs : Option (Callbacks σ)} {cbs' : Option (Callbacks τ)}
  (hcbs : DataTwin S.env cbs cbs')

include hcbs

/-- A raw chunk is reported alike. -/
theorem rawChunk_twin (data : Bytes) {s : StreamW σ} {t : StreamW τ}
    (h : StreamTwin S s t) :
    StepTwin S (rawChunk H cbs data s) (rawChunk K cbs' data t) := by
  obtain ⟨hbuf, hrel⟩ := hB.append (data.take excerptMax) (hB.reset h.ctx.lastRaw) h.world.env
  have hkept : StreamTwin S
      { s.setEnv (bufAppend H (bufReset s.ctx.lastRaw) (data.take excerptMax) s.world.env).2 with
        ctx := { s.ctx with lastRaw := (bufAppend H (bufReset s.ctx.lastRaw)
          (data.take excerptMax) s.world.env).1 } }
      { t.setEnv (bufAppend K (bufReset t.ctx.lastRaw) (data.take excerptMax) t.world.env).2 with
        ctx := { t.ctx with lastRaw := (bufAppend K (bufReset t.ctx.lastRaw)
          (data.take excerptMax) t.world.env).1 } } :=
    ⟨⟨h.ctx.accumulate, h.ctx.done, h.ctx.delivered, h.ctx.sawEvent, h.ctx.err, hbuf⟩, h.r,
      h.world.setEnv hrel⟩
  unfold rawChunk
  dsimp only
  rw [bufStatus_twin hB hbuf]
  split_ifs
  · exact failWith_twin hkept .nomem
  · exact callData_twin hcbs.raw (fun _ _ => rfl) data hkept

omit hB in
/-- A piece is announced alike. -/
theorem deliverCall_twin (ch : Channel) (bytes : Bytes) {s : StreamW σ} {t : StreamW τ}
    (h : StreamTwin S s t) :
    StepTwin S (deliverCall cbs ch bytes s) (deliverCall cbs' ch bytes t) := by
  have hset : (ch.callback cbs).isSome = (ch.callback cbs').isSome := by
    have hdata := hcbs.data ch
    generalize ch.callback cbs = f, ch.callback cbs' = g at hdata
    cases hdata <;> rfl
  have hmarked : StreamTwin S { s with ctx := { s.ctx with delivered := true } }
      { t with ctx := { t.ctx with delivered := true } } :=
    ⟨⟨h.ctx.accumulate, h.ctx.done, rfl, h.ctx.sawEvent, h.ctx.err, h.ctx.lastRaw⟩, h.r, h.world⟩
  unfold deliverCall
  rw [hset]
  split_ifs
  · exact callData_twin (hcbs.data ch) (channel_act_isData ch) bytes hmarked
  · exact .done h 0

/-- A piece, if there is one, is delivered alike. -/
theorem deliverOpt_twin (ch : Channel) (piece : Option Bytes) {s : StreamW σ} {t : StreamW τ}
    (h : StreamTwin S s t) :
    StepTwin S (deliverOpt H cbs ch piece s) (deliverOpt K cbs' ch piece t) := by
  cases piece with
  | none => exact .done h 0
  | some bytes =>
      obtain ⟨hbuf, hrel⟩ := hB.append bytes (h.r.buf ch) h.world.env
      have hstored : StreamTwin S
          { s.setEnv (bufAppend H (ch.buf s.r) bytes s.world.env).2 with
            r := ch.setBuf s.r (bufAppend H (ch.buf s.r) bytes s.world.env).1 }
          { t.setEnv (bufAppend K (ch.buf t.r) bytes t.world.env).2 with
            r := ch.setBuf t.r (bufAppend K (ch.buf t.r) bytes t.world.env).1 } :=
        ⟨h.ctx, setBuf_twin h.r ch hbuf, h.world.setEnv hrel⟩
      unfold deliverOpt deliver
      dsimp only
      rw [h.ctx.accumulate, bufStatus_twin hB hbuf]
      split_ifs
      · exact .done h 0
      · exact failWith_twin hstored .nomem
      · exact failWith_twin hstored .tooBig
      · exact deliverCall_twin hcbs ch bytes hstored
      · exact deliverCall_twin hcbs ch bytes h

/-- A delta is taken alike. -/
theorem streamDelta_twin (data : Bytes) (delta : Json) {s : StreamW σ} {t : StreamW τ}
    (h : StreamTwin S s t) :
    StepTwin S (streamDelta H cbs data delta s) (streamDelta K cbs' data delta t) := by
  refine (deliverOpt_twin hB hcbs .content _ h).andThen fun s t h => ?_
  refine (deliverOpt_twin hB hcbs .reasoning _ h).andThen fun s t h => ?_
  split_ifs
  · exact rawChunk_twin hB hcbs data h
  · exact .done h 0

/-- A choice is taken alike. -/
theorem streamChoice_twin (data : Bytes) (choice0 : Json) {s : StreamW σ} {t : StreamW τ}
    (h : StreamTwin S s t) :
    StepTwin S (streamChoice H cbs data choice0 s) (streamChoice K cbs' data choice0 t) := by
  unfold streamChoice
  refine StepTwin.andThen ?_ fun s t h => streamFinish_twin hB choice0 h
  split
  · exact streamDelta_twin hB hcbs data _ h
  · exact .done h 0

/-- An event is taken alike. -/
theorem streamEvent_twin (data : Bytes) (root : Json) {s : StreamW σ} {t : StreamW τ}
    (h : StreamTwin S s t) :
    StepTwin S (streamEvent H cbs data root s) (streamEvent K cbs' data root t) := by
  unfold streamEvent
  split
  · exact streamLift_twin hB root h
  · split_ifs
    · exact (streamChoice_twin hB hcbs data _ h).andThen fun s t h => streamLift_twin hB root h
    · exact rawChunk_twin hB hcbs data h

/-- The same event on both sides. -/
theorem streamOnEvent_twin (Y : Yyjson) :
    (streamOnEvent Y H cbs).Twin (streamOnEvent Y K cbs') (StreamTwin S) := by
  intro payload s t h
  obtain ⟨hread, hrel⟩ := yyjsonRead_twin hB Y payload h.world.env
  have hstep : StepTwin S (streamOnEvent Y H cbs payload s)
      (streamOnEvent Y K cbs' payload t) := by
    unfold streamOnEvent
    split_ifs
    · exact ⟨rfl, ⟨h.ctx.accumulate, rfl, h.ctx.delivered, h.ctx.sawEvent, h.ctx.err,
        h.ctx.lastRaw⟩, h.r, h.world⟩
    · dsimp only
      rw [hread]
      cases (yyjsonRead Y K payload t.world.env).1 with
      | none => exact rawChunk_twin hB hcbs payload (h.setEnv hrel)
      | some root =>
          dsimp only
          split_ifs
          · exact streamEvent_twin hB hcbs payload root
              ⟨⟨h.ctx.accumulate, h.ctx.done, h.ctx.delivered, rfl, h.ctx.err, h.ctx.lastRaw⟩,
                h.r, h.world.setEnv hrel⟩
          · exact rawChunk_twin hB hcbs payload (h.setEnv hrel)
  exact ⟨hstep.code, hstep.state⟩

end Events

/-! ## Bodies -/

section Parse

variable {H : Heap σ} {K : Heap τ} (hB : HeapTwins S.buf H K S.env)

/-- Two parses that end alike. -/
structure ParseTwin (S : Sight σ τ) (x : Status × BodyState × Result × σ)
    (x' : Status × BodyState × Result × τ) : Prop where
  status : x.1 = x'.1
  state : x.2.1 = x'.2.1
  r : ContentTwin S x.2.2.1 x'.2.2.1
  env : S.env x.2.2.2 x'.2.2.2

include hB

/-- The tail of a body is parsed alike. -/
theorem parseTail_twin (root : Json) {r r' : Result} (h : ContentTwin S r r') {s : σ} {t : τ}
    (hst : S.env s t) : ParseTwin S (parseTail H root r s) (parseTail K root r' t) := by
  have hlift := liftModel_twin hB (liftUsage_twin h root) root hst
  unfold parseTail
  generalize liftModel H (liftUsage r root) root s = x at hlift
  generalize liftModel K (liftUsage r' root) root t = x' at hlift
  obtain ⟨st, r1, s1⟩ := x
  obtain ⟨st', r1', t1⟩ := x'
  obtain ⟨rfl, hr, hrel⟩ := hlift
  cases st <;> exact ⟨rfl, rfl, hr, hrel⟩

/-- The finish reason of a body is parsed alike. -/
theorem parseFinish_twin (root choice0 : Json) {r r' : Result} (h : ContentTwin S r r') {s : σ}
    {t : τ} (hst : S.env s t) :
    ParseTwin S (parseFinish H root choice0 r s) (parseFinish K root choice0 r' t) := by
  unfold parseFinish
  cases choice0.getStr? (ascii "finish_reason") with
  | none => exact parseTail_twin hB root h hst
  | some raw =>
      have hset := resultSetFinish_twin hB h raw hst
      dsimp only
      generalize resultSetFinish H r raw s = x at hset
      generalize resultSetFinish K r' raw t = x' at hset
      obtain ⟨st, r1, s1⟩ := x
      obtain ⟨st', r1', t1⟩ := x'
      obtain ⟨rfl, hr, hrel⟩ := hset
      cases st <;> first | exact parseTail_twin hB root hr hrel | exact ⟨rfl, rfl, hr, hrel⟩

omit hB in
/-- What comes behind an append is parsed alike. -/
theorem afterAppend_twin (hB : HeapTwins S.buf H K S.env) {b b' : Buf} (hb : S.buf b b') {r r' : Result}
    (h : ContentTwin S r r') {s : σ} {t : τ} (hst : S.env s t)
    {next : Result → σ → Status × BodyState × Result × σ}
    {next' : Result → τ → Status × BodyState × Result × τ}
    (hnext : ParseTwin S (next r s) (next' r' t)) :
    ParseTwin S (afterAppend b r s next) (afterAppend b' r' t next') := by
  unfold afterAppend
  rw [bufStatus_twin hB hb]
  split_ifs
  · exact ⟨rfl, rfl, h, hst⟩
  · exact ⟨rfl, rfl, h, hst⟩
  · exact hnext

/-- The reasoning of a body is parsed alike. -/
theorem parseReasoning_twin (root choice0 : Json) (msg : Option Json) {r r' : Result}
    (h : ContentTwin S r r') {s : σ} {t : τ} (hst : S.env s t) :
    ParseTwin S (parseReasoning H root choice0 msg r s)
      (parseReasoning K root choice0 msg r' t) := by
  unfold parseReasoning
  cases findReasoning choice0 msg with
  | none => exact parseFinish_twin hB root choice0 h hst
  | some reasoning =>
      obtain ⟨hbuf, hrel⟩ := hB.append reasoning h.reasoning hst
      have hstored := setBuf_twin h .reasoning hbuf
      exact afterAppend_twin hB hbuf hstored hrel (parseFinish_twin hB root choice0 hstored hrel)

/-- The same body on both sides. -/
theorem responseParse_twin (Y : Yyjson) (body : Bytes) {r r' : Result} (h : ContentTwin S r r')
    {s : σ} {t : τ} (hst : S.env s t) :
    ParseTwin S (responseParse Y H r body s) (responseParse Y K r' body t) := by
  obtain ⟨hread, hrel⟩ := yyjsonRead_twin hB Y body hst
  unfold responseParse
  split_ifs
  · exact ⟨rfl, rfl, h, hst⟩
  · generalize yyjsonRead Y H body s = x at hread hrel
    generalize yyjsonRead Y K body t = x' at hread hrel
    obtain ⟨root?, s1⟩ := x
    obtain ⟨root?', t1⟩ := x'
    dsimp only at hread hrel
    subst hread
    cases root? with
    | none => exact ⟨rfl, rfl, h, hrel⟩
    | some root =>
        dsimp only
        cases (firstChoice root).filter Json.isObj with
        | none => exact ⟨rfl, rfl, h, hrel⟩
        | some choice0 =>
            dsimp only
            unfold parseContent
            dsimp only
            split
            · rename_i content _
              obtain ⟨hbuf, hrel'⟩ := hB.append content h.text hrel
              have hstored := setBuf_twin h .content hbuf
              exact afterAppend_twin hB hbuf hstored hrel'
                (parseReasoning_twin hB root choice0 _ hstored hrel')
            · split_ifs
              · exact parseReasoning_twin hB root choice0 _ h hrel
              · exact ⟨rfl, rfl, h, hrel⟩

end Parse

end Lockstep

end Sicha
