import Sicha.Client.Run
import Sicha.Client.Twin
import Sicha.Request.Twin

/-!
# Two calls side by side

Two calls with the same request and the same options, but for the keys of the backends, whose
parties answer alike: they make the same performs and the same callbacks, and end alike.

Main results:

- Definition {lit}`Call.Twin`: two calls whose parties answer alike.
- Theorem {lit}`Call.step_twin`: a turn of both engines.
- Theorem {lit}`Call.run_twin`: two whole calls.
-/

namespace Sicha

section Runs

variable [SizeT] {σ τ : Type}

/-! ## What is compared -/

/-- A record without what the caps and the clock decide. -/
def Attempt.masked (a : Attempt) : Attempt :=
  { a with latencyMs := 0, rawBodyExcerpt := [] }

/-- Two records that agree, if it matters also in their latencies and excerpts. -/
structure RecordTwin (strict : Bool) (a a' : Attempt) : Prop where
  masked : a.masked = a'.masked
  same : strict = true → a = a'

omit [SizeT] in
/-- Records that look alike are stored alike. -/
theorem RecordTwin.stored {strict : Bool} {a a' : Attempt} (h : RecordTwin strict a a') :
    RecordTwin strict a.stored a'.stored where
  masked := h.masked
  same hstrict := by rw [h.same hstrict]

/-- Two results with the same place and records that agree. -/
structure RestTwin (strict : Bool) (x x' : ResultRest) : Prop where
  status : x.status = x'.status
  backend : x.backend = x'.backend
  attempts : List.Forall₂ (RecordTwin strict) x.attempts x'.attempts
  capAttempts : x.capAttempts = x'.capAttempts

/-- The key of a backend of the chain. -/
def Client.keyAt (c : Client σ) (i : Nat) : Option Bytes :=
  (c.backends[i]?).bind Backend.apiKey

/-- Two requests for one backend of the chain that agree but for its key. -/
structure RequestTwin (c : Client σ) (c' : Client τ) (i : Nat) (rq rq' : HttpRequest) : Prop where
  backend : ∃ b, c.backends[i]? = some b ∧ (rq.url = b.urlChat ∨ b.urlAbort = some rq.url)
  method : rq.method = rq'.method
  url : rq.url = rq'.url
  headers : HeadersTwin (c.keyAt i) (c'.keyAt i) rq.headers rq'.headers
  body : rq.body = rq'.body
  timeouts : rq.timeouts = rq'.timeouts
  flags : rq.flags = rq'.flags

omit [SizeT] in
/-- Two requests with one key are the same. -/
theorem RequestTwin.eq {c : Client σ} {c' : Client τ} {i : Nat} {rq rq' : HttpRequest}
    (h : RequestTwin c c' i rq rq') (hkey : c.keyAt i = c'.keyAt i) : rq = rq' := by
  have hheaders : rq.headers = rq'.headers := by
    have hkeys := h.headers
    generalize rq.headers = hs, rq'.headers = hs' at hkeys
    cases hkeys with
    | same _ _ => rfl
    | bearer ha ha' pre post =>
        rw [hkey, ha'] at ha
        cases ha
        rfl
  cases rq
  cases rq'
  simp only [HttpRequest.mk.injEq]
  exact ⟨h.method, h.url, hheaders, h.body, h.timeouts, h.flags⟩

/-- Two actions that agree but for the key of a request, and what the records leave out. -/
inductive ActTwin (strict : Bool) (c : Client σ) (c' : Client τ) : Act → Act → Prop
  | same (a : Act) : ActTwin strict c c' a a
  | perform {i : Nat} {rq rq' : HttpRequest} (h : RequestTwin c c' i rq rq')
      (sink cancel : Bool) :
      ActTwin strict c c' (.perform rq sink cancel) (.perform rq' sink cancel)
  | onAttempt {a a' : Attempt} (h : RecordTwin strict a a') :
      ActTwin strict c c' (.onAttempt a) (.onAttempt a')
  | debug {a a' : Attempt} (h : RecordTwin strict a a') :
      ActTwin strict c c' (.debug (attemptText a)) (.debug (attemptText a'))

/-- Two calls, compared by buffers that look alike, environments in {lit}`Rel`, and actions that
agree. -/
def Sight.lockstep (strict : Bool) (c : Client σ) (c' : Client τ) (B : Buf → Buf → Prop)
    (Rel : σ → τ → Prop) : Sight σ τ where
  buf := B
  env := Rel
  rest := RestTwin strict
  act := ActTwin strict c c'
  log := List.Forall₂ (ActTwin strict c c')
  data a _ := .same a
  snoc hlog hact := List.rel_append hlog (.cons hact .nil)

omit [SizeT] in
/-- The debug log never shows a key. -/
theorem requestText_twin {c : Client σ} {c' : Client τ} {i : Nat} {rq rq' : HttpRequest}
    (h : RequestTwin c c' i rq rq') : requestText rq = requestText rq' := by
  have hheaders : rq.headers.flatMap debugHeader = rq'.headers.flatMap debugHeader := by
    have hkeys := h.headers
    generalize rq.headers = hs, rq'.headers = hs' at hkeys
    cases hkeys with
    | same _ _ => rfl
    | @bearer a a' _ _ pre post =>
        have hone : debugHeader (bearer a) = debugHeader (bearer a') := by
          unfold debugHeader bearer
          rfl
        simp only [List.flatMap_append, List.flatMap_cons, hone]
  unfold requestText
  rw [h.method, h.url, h.body, hheaders]

/-- Two backends of one place in the chain: they differ in their keys at most, which are copied
alike and travel alike. -/
structure BackendTwin (H : Heap σ) (K : Heap τ) (Rel : σ → τ → Prop) (b b' : Backend) : Prop
    extends Rekeyed b b' where
  key : KeyAlike H K Rel 8 b.apiKey b'.apiKey
  assist : HeadersTwin b.apiKey b'.apiKey (Call.assistHeaders b) (Call.assistHeaders b')

namespace Call

/-- Two calls with the same request and the same options, but for the keys, whose parties
answer alike. -/
structure Twin (strict : Bool) (B : Buf → Buf → Prop) (Rel : σ → τ → Prop) (k : Call σ)
    (k' : Call τ) : Prop where
  heaps : HeapTwins B k.H k'.H Rel
  alloc : ∀ n n', (strict = true → n = n') → ∀ s t, Rel s t →
    (k.H.alloc n s).1 = (k'.H.alloc n' t).1 ∧ Rel (k.H.alloc n s).2 (k'.H.alloc n' t).2
  yyjson : k.Y = k'.Y
  req : k.req = k'.req
  stream : k.stream = k'.stream
  backends : List.Forall₂ (BackendTwin k.H k'.H Rel) k.c.backends k'.c.backends
  policy : k.c.policy = k'.c.policy
  prngSeed : k.c.prngSeed = k'.c.prngSeed
  maxResponseBytes : k.c.maxResponseBytes = k'.c.maxResponseBytes
  userAgent : k.c.userAgent = k'.c.userAgent
  debug : k.c.debug = k'.c.debug
  structSizeOk : (k.cbs.any fun cbs => !cbs.structSizeOk) = k'.cbs.any fun cbs => !cbs.structSizeOk
  data : DataTwin Rel k.cbs k'.cbs
  validate : Option.Rel
    (fun f g => ∀ r r' s t, ContentTwin (.lockstep strict k.c k'.c B Rel) r r' → Rel s t →
      (f r s).1 = (g r' t).1 ∧ Rel (f r s).2 (g r' t).2)
    (k.cbs.bind Callbacks.validate) (k'.cbs.bind Callbacks.validate)
  onAttempt : Option.Rel
    (fun f g => ∀ a a' s t, RecordTwin strict a a' → Rel s t → Rel (f a s) (g a' t))
    (k.cbs.bind Callbacks.onAttempt) (k'.cbs.bind Callbacks.onAttempt)
  cancel : Option.Rel (fun token token' => ∀ s t, Rel s t → token.flag s = token'.flag t)
    k.cancel k'.cancel
  wait : ∀ ms s t, Rel s t →
    (k.c.clock.waitMs k.cancel ms s).1 = (k'.c.clock.waitMs k'.cancel ms t).1 ∧
      Rel (k.c.clock.waitMs k.cancel ms s).2 (k'.c.clock.waitMs k'.cancel ms t).2
  exchange : ∀ {i rq rq' r r' w w'}, RequestTwin k.c k'.c i rq rq' →
    ContentTwin (.lockstep strict k.c k'.c B Rel) r r' →
    WorldTwin (.lockstep strict k.c k'.c B Rel) w w' →
      let x := Sicha.exchange k.Y k.H k.c k.cbs k.cancel rq k.stream
        (attemptIoInit k.c r k.stream k.req.accumulates) w
      let x' := Sicha.exchange k'.Y k'.H k'.c k'.cbs k'.cancel rq' k'.stream
        (attemptIoInit k'.c r' k'.stream k'.req.accumulates) w'
      ExchangeTwin (.lockstep strict k.c k'.c B Rel) k.stream x x' ∧
        (strict = true → B x.io.body x'.io.body) ∧ (strict = true → x.latencyMs = x'.latencyMs)
  assist : ∀ {i rq rq'}, RequestTwin k.c k'.c i rq rq' → ∀ s t, Rel s t →
    (k.c.transport.perform rq false none s).Twin Rel (k'.c.transport.perform rq' false none t)

variable {strict : Bool} {B : Buf → Buf → Prop} {Rel : σ → τ → Prop} {k : Call σ} {k' : Call τ}

/-- Two states of the engines that look alike. -/
structure StateTwin (strict : Bool) (B : Buf → Buf → Prop) (Rel : σ → τ → Prop)
    (k : Call σ) (k' : Call τ) (s : LoopState k.c) (t : LoopState k'.c) : Prop where
  i : s.i.val = t.i.val
  retrySameUsed : s.retrySameUsed = t.retrySameUsed
  validationUsed : s.validationUsed = t.validationUsed
  tryOfBackend : s.tryOfBackend = t.tryOfBackend
  bodies : s.bodies = t.bodies
  headers : ∀ i, Option.Rel (HeadersTwin (k.c.keyAt i) (k'.c.keyAt i)) (s.headers[i]?).join
    (t.headers[i]?).join
  headersLength : s.headers.length = t.headers.length
  rng : s.rng = t.rng
  attemptOrdinal : s.attemptOrdinal = t.attemptOrdinal
  anyDelivered : s.anyDelivered = t.anyDelivered
  final : s.final = t.final
  r : ContentTwin (.lockstep strict k.c k'.c B Rel) s.r t.r
  world : WorldTwin (.lockstep strict k.c k'.c B Rel) s.world t.world

variable (h : k.Twin strict B Rel k')

include h

/-! ## Preparing the request -/

/-- The chains have the same length. -/
theorem Twin.length_eq : k.c.backends.length = k'.c.backends.length :=
  h.backends.length_eq

/-- The backends of two states at one place. -/
theorem Twin.backend {s : LoopState k.c} {t : LoopState k'.c} (hi : s.i.val = t.i.val) :
    BackendTwin k.H k'.H Rel (k.backend s) (k'.backend t) := by
  have hlt : s.i.val < k'.c.backends.length := hi ▸ t.i.isLt
  have hplace : t.i = ⟨s.i.val, hlt⟩ := Fin.ext hi.symm
  unfold Call.backend
  rw [hplace]
  exact h.backends.get s.i.isLt hlt

omit h in
/-- The key at the place of a turn is that of its backend. -/
theorem keyAt_backend (s : LoopState k.c) : k.c.keyAt s.i.val = (k.backend s).apiKey := by
  unfold Client.keyAt Call.backend
  rw [List.getElem?_eq_getElem s.i.isLt]
  rfl

/-- The body is prepared alike. -/
theorem prepareBody_twin {s : LoopState k.c} {t : LoopState k'.c}
    (hs : StateTwin strict B Rel k k' s t) :
    Fallible.EndAlike Eq (k.prepareBody s).1 (k'.prepareBody t).1 ∧
      StateTwin strict B Rel k k' (k.prepareBody s).2 (k'.prepareBody t).2 ∧
      (k.prepareBody s).2.i = s.i ∧ (k'.prepareBody t).2.i = t.i := by
  have hbuild := buildChatBody_alike h.heaps.alloc (h.backend hs.i).toRekeyed k'.Y k'.req
    k'.stream s.world.env t.world.env hs.world.env
  have hcached : (s.bodies[s.i.val]?).join = (t.bodies[t.i.val]?).join := by
    rw [hs.bodies, hs.i]
  unfold prepareBody
  rw [h.yyjson, h.req, h.stream, hcached]
  split
  · exact ⟨.ok rfl, hs, rfl, rfl⟩
  · generalize (buildChatBody k'.Y k.H (k.backend s) k'.req k'.stream).exec s.world.env = out
      at hbuild
    generalize (buildChatBody k'.Y k'.H (k'.backend t) k'.req k'.stream).exec t.world.env = out'
      at hbuild
    obtain ⟨r, env⟩ := out
    obtain ⟨r', env'⟩ := out'
    obtain ⟨hend, henv⟩ := hbuild
    have hnext := hs.world.setEnv henv
    cases hend with
    | ok hbody =>
        obtain rfl := hbody
        refine ⟨.ok rfl, { hs with bodies := ?_, world := hnext }, rfl, rfl⟩
        dsimp only
        rw [hs.bodies, hs.i]
    | error st => exact ⟨.error st, { hs with world := hnext }, rfl, rfl⟩

omit h in
/-- Two caches that are filled at one place with headers that look alike. -/
theorem headers_set {hs hs' : List (Option (List Header))} {xs xs' : List Header} {n : Nat}
    (hall : ∀ i, Option.Rel (HeadersTwin (k.c.keyAt i) (k'.c.keyAt i)) (hs[i]?).join (hs'[i]?).join)
    (hlength : hs.length = hs'.length) (hxs : HeadersTwin (k.c.keyAt n) (k'.c.keyAt n) xs xs') :
    ∀ i, Option.Rel (HeadersTwin (k.c.keyAt i) (k'.c.keyAt i)) ((hs.set n (some xs))[i]?).join
      ((hs'.set n (some xs'))[i]?).join := by
  intro i
  rw [List.getElem?_set, List.getElem?_set, hlength]
  split_ifs with hn hlt
  · subst hn
    exact .some hxs
  · exact .none
  · exact hall i

/-- The headers are prepared alike, up to the keys. -/
theorem prepareHeaders_twin {s : LoopState k.c} {t : LoopState k'.c}
    (hs : StateTwin strict B Rel k k' s t) :
    Fallible.EndAlike (HeadersTwin (k.c.keyAt s.i.val) (k'.c.keyAt s.i.val)) (k.prepareHeaders s).1
        (k'.prepareHeaders t).1 ∧
      StateTwin strict B Rel k k' (k.prepareHeaders s).2 (k'.prepareHeaders t).2 := by
  have hb := h.backend hs.i
  have hbuild := buildHeaders_alike h.heaps.alloc hb.toRekeyed hb.key k'.stream k'.c.userAgent
    s.world.env t.world.env hs.world.env
  have hkey : k'.c.keyAt s.i.val = (k'.backend t).apiKey := by
    rw [hs.i, keyAt_backend]
  rw [← keyAt_backend, ← hkey] at hbuild
  have hcached := hs.headers s.i.val
  unfold prepareHeaders
  rw [h.stream, h.userAgent, ← hs.i]
  generalize (s.headers[s.i.val]?).join = o, (t.headers[s.i.val]?).join = o' at hcached
  cases hcached with
  | some hsame => exact ⟨.ok hsame, hs⟩
  | none =>
      dsimp only
      generalize (buildHeaders k.H (k.backend s) k'.stream k'.c.userAgent).exec s.world.env = out
        at hbuild
      generalize (buildHeaders k'.H (k'.backend t) k'.stream k'.c.userAgent).exec t.world.env = out'
        at hbuild
      obtain ⟨r, env⟩ := out
      obtain ⟨r', env'⟩ := out'
      obtain ⟨hend, henv⟩ := hbuild
      have hnext := hs.world.setEnv henv
      cases hend with
      | @ok xs xs' hxs =>
          have hset := headers_set hs.headers hs.headersLength hxs
          refine ⟨.ok hxs, { hs with headers := ?_, headersLength := ?_, world := hnext }⟩
          · dsimp only
            rw [← hs.i]
            exact hset
          · dsimp only
            rw [List.length_set, List.length_set, hs.headersLength]
      | error st => exact ⟨.error st, { hs with world := hnext }⟩

/-- The requests of two attempts with the same body. -/
theorem chatRequest_twin {s : LoopState k.c} {t : LoopState k'.c} (hi : s.i.val = t.i.val)
    (body : Bytes) {hs hs' : List Header}
    (hkeys : HeadersTwin (k.c.keyAt s.i.val) (k'.c.keyAt s.i.val) hs hs') :
    RequestTwin k.c k'.c s.i.val (chatRequest (k.backend s) body hs)
      (chatRequest (k'.backend t) body hs') where
  backend := ⟨k.backend s, List.getElem?_eq_getElem s.i.isLt, .inl rfl⟩
  method := rfl
  url := (h.backend hi).urlChat
  headers := hkeys
  body := rfl
  timeouts := (h.backend hi).timeouts
  flags := rfl

/-- The request is prepared alike, up to the keys. -/
theorem prepare_twin {s : LoopState k.c} {t : LoopState k'.c}
    (hs : StateTwin strict B Rel k k' s t) :
    Fallible.EndAlike (RequestTwin k.c k'.c (k.prepare s).2.i.val) (k.prepare s).1
        (k'.prepare t).1 ∧
      StateTwin strict B Rel k k' (k.prepare s).2 (k'.prepare t).2 := by
  obtain ⟨hbody, hmid, -, -⟩ := prepareBody_twin h hs
  unfold prepare
  generalize k.prepareBody s = out at hbody hmid
  generalize k'.prepareBody t = out' at hbody hmid
  obtain ⟨r, s1⟩ := out
  obtain ⟨r', t1⟩ := out'
  cases hbody with
  | error st => exact ⟨.error st, hmid⟩
  | @ok body _ hbody =>
      obtain rfl := hbody
      obtain ⟨hheaders, hnext⟩ := prepareHeaders_twin h hmid
      obtain ⟨headers, env, hspec⟩ := k.prepareHeaders_spec s1
      have hi : (k.prepareHeaders s1).2.i = s1.i := by rw [hspec]; rfl
      dsimp only at hheaders hnext ⊢
      generalize k.prepareHeaders s1 = out at hheaders hnext hi
      generalize k'.prepareHeaders t1 = out' at hheaders hnext
      obtain ⟨r, s2⟩ := out
      obtain ⟨r', t2⟩ := out'
      dsimp only at hi
      cases hheaders with
      | error st => exact ⟨.error st, hnext⟩
      | ok hkeys =>
          rw [← hi] at hkeys
          exact ⟨.ok (chatRequest_twin h hnext.i body hkeys), hnext⟩

/-! ## The round trip -/

/-- The results as an attempt finds them. -/
theorem cleared_lockstep {s : LoopState k.c} {t : LoopState k'.c}
    (hs : StateTwin strict B Rel k k' s t) :
    ContentTwin (.lockstep strict k.c k'.c B Rel) (k.cleared s) (k'.cleared t) where
  text := h.heaps.reset hs.r.text
  reasoning := h.heaps.reset hs.r.reasoning
  finishRaw := rfl
  finish := rfl
  promptTokens := rfl
  completionTokens := rfl
  totalTokens := rfl
  model := rfl
  rawBody := rfl
  rest :=
    { hs.r.rest with
      backend := congrArg Int32.ofNat hs.i }

/-- A request and its twin make round trips that are twins. -/
theorem roundTrip_twin {s : LoopState k.c} {t : LoopState k'.c}
    (hs : StateTwin strict B Rel k k' s t) {i : Nat} {rq rq' : HttpRequest}
    (hrq : RequestTwin k.c k'.c i rq rq') :
    RanTwin (.lockstep strict k.c k'.c B Rel) strict (k.roundTrip rq s) (k'.roundTrip rq' t) := by
  have hx := h.exchange hrq (cleared_lockstep h hs) hs.world
  unfold roundTrip runAttempt
  dsimp only at hx ⊢
  generalize exchange k.Y k.H k.c k.cbs k.cancel rq k.stream
    (attemptIoInit k.c (k.cleared s) k.stream k.req.accumulates) s.world = x at hx ⊢
  generalize exchange k'.Y k'.H k'.c k'.cbs k'.cancel rq' k'.stream
    (attemptIoInit k'.c (k'.cleared t) k'.stream k'.req.accumulates) t.world = x' at hx ⊢
  obtain ⟨hexchange, hbody, hlatency⟩ := hx
  rw [← h.yyjson, ← h.stream]
  exact ran_twin h.heaps h.data k.Y hexchange hbody hlatency

/-- Two judgements that agree, if it matters also in the excerpt. -/
structure JudgedTwin (strict : Bool) (B : Buf → Buf → Prop) (Rel : σ → τ → Prop) (k : Call σ)
    (k' : Call τ) (j : Judged σ) (j' : Judged τ) : Prop where
  cls : j.cls = j'.cls
  message : j.message = j'.message
  excerpt : strict = true → j.excerpt = j'.excerpt
  world : WorldTwin (.lockstep strict k.c k'.c B Rel) j.world j'.world

/-- Round trips that are twins are judged alike. -/
theorem judge_twin {x : Ran σ} {x' : Ran τ}
    (hx : RanTwin (.lockstep strict k.c k'.c B Rel) strict x x') :
    JudgedTwin strict B Rel k k' (k.judge x) (k'.judge x') := by
  have hfirst := firstClass_twin h.policy hx
  have hset := h.validate
  have hplain : JudgedTwin strict B Rel k k' ⟨k.firstClass x, x.o.message, x.o.excerpt, x.world⟩
      ⟨k'.firstClass x', x'.o.message, x'.o.excerpt, x'.world⟩ :=
    ⟨hfirst, hx.message, hx.excerpt, hx.world⟩
  unfold judge validator
  rw [hx.v, hfirst]
  split_ifs
  · generalize k.cbs.bind Callbacks.validate = f, k'.cbs.bind Callbacks.validate = f' at hset
    cases hset with
    | none => exact hfirst ▸ hplain
    | @some f g hfg =>
        obtain ⟨hcode, hrel⟩ := hfg x.r x'.r x.world.env x'.world.env hx.r hx.world.env
        have hworld := hx.world.act (f := f x.r) (g := g x'.r) (m := .validate) (n := .validate)
          (by rw [hcode]; exact .same _) hrel
        have hanswer : (x.world.act (f x.r) .validate).1 = (x'.world.act (g x'.r) .validate).1 :=
          hcode
        have hbytes : x.r.text.bytes = x'.r.text.bytes := h.heaps.toTwins.bytes hx.r.text
        dsimp only
        rw [hanswer, hbytes]
        split_ifs
        · exact ⟨rfl, rfl, fun _ => rfl, hworld⟩
        · exact ⟨rfl, hx.message, hx.excerpt, hworld⟩
  · exact hfirst ▸ hplain

/-! ## The record -/

/-- Their records look alike. -/
theorem record_twin {s : LoopState k.c} {t : LoopState k'.c}
    (hs : StateTwin strict B Rel k k' s t) {x : Ran σ} {x' : Ran τ}
    (hx : RanTwin (.lockstep strict k.c k'.c B Rel) strict x x') {j : Judged σ} {j' : Judged τ}
    (hj : JudgedTwin strict B Rel k k' j j') :
    RecordTwin strict (k.record s x j) (k'.record t x' j') := by
  have hmodel := (h.backend hs.i).model
  constructor
  · unfold record Attempt.masked
    simp only [hs.attemptOrdinal, hs.i, hs.tryOfBackend, hmodel, hj.cls, hx.httpStatus, hx.v,
      hx.r.promptTokens, hx.r.completionTokens, hx.r.totalTokens, hj.message]
  · intro hstrict
    unfold record
    simp only [hs.attemptOrdinal, hs.i, hs.tryOfBackend, hmodel, hj.cls, hx.httpStatus, hx.v,
      hx.r.promptTokens, hx.r.completionTokens, hx.r.totalTokens, hj.message,
      hx.latency hstrict, hj.excerpt hstrict]

/-- The array of attempts grows alike. -/
theorem resultGrow_twin {r r' : Result}
    (hr : ContentTwin (.lockstep strict k.c k'.c B Rel) r r') {s : σ} {t : τ} (hst : Rel s t) :
    (resultGrow k.H r s).1 = (resultGrow k'.H r' t).1 ∧
      ContentTwin (.lockstep strict k.c k'.c B Rel) (resultGrow k.H r s).2.1
        (resultGrow k'.H r' t).2.1 ∧
      Rel (resultGrow k.H r s).2.2 (resultGrow k'.H r' t).2.2 := by
  have hcap : r.capAttempts = r'.capAttempts := hr.rest.capAttempts
  have hlength : r.attempts.length = r'.attempts.length := hr.rest.attempts.length_eq
  obtain ⟨hgrant, hrel⟩ := h.heaps.alloc (growAttempts r'.capAttempts).toNat s t hst
  unfold resultGrow Result.nAttempts
  dsimp only
  rw [hlength, hcap, hgrant]
  split_ifs
  · exact ⟨rfl, { hr with rest := { hr.rest with capAttempts := rfl } }, hrel⟩
  · exact ⟨rfl, hr, hrel⟩
  · exact ⟨rfl, hr, hst⟩

/-- The copies of two records that agree. -/
theorem dupAttempt_twin {a a' : Attempt} (ha : RecordTwin strict a a') {s : σ} {t : τ}
    (hst : Rel s t) :
    Option.Rel (RecordTwin strict) (dupAttempt k.H a s).1 (dupAttempt k'.H a' t).1 ∧
      Rel (dupAttempt k.H a s).2 (dupAttempt k'.H a' t).2 := by
  have hmodel : a.model = a'.model := (congrArg Attempt.model ha.masked :)
  have hmessage : a.message = a'.message := (congrArg Attempt.message ha.masked :)
  obtain ⟨hgrant1, hrel1⟩ := h.heaps.alloc (a'.model.length + 1) s t hst
  obtain ⟨hgrant2, hrel2⟩ := h.heaps.alloc (a'.message.length + 1) _ _ hrel1
  obtain ⟨hgrant3, hrel3⟩ := h.alloc (a.stored.rawBodyExcerpt.length + 1)
    (a'.stored.rawBodyExcerpt.length + 1) (fun hstrict => by rw [ha.same hstrict]) _ _ hrel2
  unfold dupAttempt
  dsimp only
  rw [hmodel, hmessage, hgrant1, hgrant2, hgrant3]
  refine ⟨?_, hrel3⟩
  split_ifs
  · exact .some ha.stored
  · exact .none

/-- The result after a record was asked for, on both sides. -/
theorem resultAddAttempt_twin {r r' : Result}
    (hr : ContentTwin (.lockstep strict k.c k'.c B Rel) r r') {a a' : Attempt}
    (ha : RecordTwin strict a a') {s : σ} {t : τ} (hst : Rel s t) :
    ResultStep (.lockstep strict k.c k'.c B Rel) (resultAddAttempt k.H r a s)
      (resultAddAttempt k'.H r' a' t) := by
  obtain ⟨hroom, hgrown, hrel⟩ := resultGrow_twin h hr hst
  unfold resultAddAttempt
  generalize resultGrow k.H r s = g at hroom hgrown hrel
  generalize resultGrow k'.H r' t = g' at hroom hgrown hrel
  obtain ⟨room, r1, s1⟩ := g
  obtain ⟨room', r1', t1⟩ := g'
  obtain rfl : room = room' := hroom
  cases room with
  | false => exact ⟨rfl, hgrown, hrel⟩
  | true =>
      obtain ⟨hcopy, hrel2⟩ := dupAttempt_twin h ha hrel
      dsimp only at hcopy hrel2 ⊢
      generalize dupAttempt k.H a s1 = d at hcopy hrel2
      generalize dupAttempt k'.H a' t1 = d' at hcopy hrel2
      obtain ⟨copy, s2⟩ := d
      obtain ⟨copy', t2⟩ := d'
      cases hcopy with
      | none => exact ⟨rfl, hgrown, hrel2⟩
      | some hcopy =>
          have hattempts := List.rel_append hgrown.rest.attempts (.cons hcopy .nil)
          exact ⟨rfl, { hgrown with rest := { hgrown.rest with attempts := hattempts } }, hrel2⟩

/-- The records are added alike. -/
theorem afterRecord_twin {s : LoopState k.c} {t : LoopState k'.c}
    (hs : StateTwin strict B Rel k k' s t) {x : Ran σ} {x' : Ran τ}
    (hx : RanTwin (.lockstep strict k.c k'.c B Rel) strict x x') {j : Judged σ} {j' : Judged τ}
    (hj : JudgedTwin strict B Rel k k' j j') :
    (k.afterRecord s x j).1 = (k'.afterRecord t x' j').1 ∧
      StateTwin strict B Rel k k' (k.afterRecord s x j).2 (k'.afterRecord t x' j').2 := by
  have hadd := resultAddAttempt_twin h hx.r (record_twin h hs hx hj) hj.world.env
  refine ⟨hadd.code, { hs with
    tryOfBackend := ?_, attemptOrdinal := ?_, anyDelivered := ?_, final := ?_
    r := hadd.r, world := hj.world.setEnv hadd.env }⟩
  · exact congrArg (· + 1) hs.tryOfBackend
  · exact congrArg (· + 1) hs.attemptOrdinal
  · exact congrArg₂ (· || ·) hs.anyDelivered hx.delivered
  · unfold afterRecord
    rw [hx.v, hs.final]

omit h in
/-- The attempts of two results look alike. -/
theorem resultAttempt_twin {r r' : Result}
    (hr : ContentTwin (.lockstep strict k.c k'.c B Rel) r r') (i : Nat) :
    Option.Rel (RecordTwin strict) (resultAttempt r i) (resultAttempt r' i) := by
  have hattempts : List.Forall₂ (RecordTwin strict) r.attempts r'.attempts := hr.rest.attempts
  unfold resultAttempt
  generalize r.attempts = as, r'.attempts = as' at hattempts
  induction hattempts generalizing i with
  | nil => exact .none
  | cons hone _ ih =>
      cases i with
      | zero => exact .some hone
      | succ i => exact ih i

/-- The debug line and the callback of a record, on both sides. -/
theorem announce_twin {s : LoopState k.c} {t : LoopState k'.c}
    (hs : StateTwin strict B Rel k k' s t) :
    StateTwin strict B Rel k k' (k.announce s) (k'.announce t) := by
  have hlength : s.r.attempts.length = t.r.attempts.length := hs.r.rest.attempts.length_eq
  have hlast := resultAttempt_twin hs.r (t.r.attempts.length - 1)
  have hset := h.onAttempt
  unfold announce callOnAttempt
  rw [hlength]
  generalize resultAttempt s.r (t.r.attempts.length - 1) = o at hlast
  generalize resultAttempt t.r (t.r.attempts.length - 1) = o' at hlast
  cases hlast with
  | none => exact hs
  | @some a a' ha =>
      have hlogged := debugLog_twin h.debug (S := .lockstep strict k.c k'.c B Rel) (.debug ha)
        hs.world
      generalize k.cbs.bind Callbacks.onAttempt = f, k'.cbs.bind Callbacks.onAttempt = f' at hset
      cases hset with
      | none => exact { hs with world := hlogged }
      | @some f g hfg =>
          have htold := hlogged.act (f := fun env => ((), f a env)) (g := fun env => ((), g a' env))
            (m := fun _ => .onAttempt a) (n := fun _ => .onAttempt a') (.onAttempt ha)
            (hfg a a' _ _ ha hlogged.env)
          exact { hs with world := htold }

/-! ## What follows an attempt -/

/-- Two turns that go round alike, or leave alike. -/
abbrev TurnTwin (strict : Bool) (B : Buf → Buf → Prop) (Rel : σ → τ → Prop) (k : Call σ)
    (k' : Call τ) : LoopState k.c ⊕ LoopState k.c → LoopState k'.c ⊕ LoopState k'.c → Prop :=
  Sum.LiftRel (StateTwin strict B Rel k k') (StateTwin strict B Rel k k')

omit h in
/-- The loop is left alike. -/
theorem exit_twin {s : LoopState k.c} {t : LoopState k'.c}
    (hs : StateTwin strict B Rel k k' s t) (final : Status) :
    TurnTwin strict B Rel k k' (k.exit s final) (k'.exit t final) :=
  .inr { hs with final := rfl }

/-- The chain moves on alike. -/
theorem advance_twin {s : LoopState k.c} {t : LoopState k'.c}
    (hs : StateTwin strict B Rel k k' s t) :
    TurnTwin strict B Rel k k' (k.advance s) (k'.advance t) := by
  have hlength := h.length_eq
  unfold advance
  by_cases hnext : s.i.val + 1 < k.c.backends.length
  · have hnext' : t.i.val + 1 < k'.c.backends.length := by rw [← hs.i, ← hlength]; exact hnext
    rw [dif_pos hnext, dif_pos hnext']
    exact .inl { hs with
      i := congrArg (· + 1) hs.i
      retrySameUsed := rfl, validationUsed := rfl, tryOfBackend := rfl }
  · have hnext' : ¬ t.i.val + 1 < k'.c.backends.length := by rw [← hs.i, ← hlength]; exact hnext
    rw [dif_neg hnext, dif_neg hnext']
    exact .inr hs

/-- The abort assist goes to the same URL, with the key of the backend if it fits. -/
theorem assistRequest_twin {s : LoopState k.c} {t : LoopState k'.c} (hi : s.i.val = t.i.val)
    {url : Bytes} (hurl : (k.backend s).urlAbort = some url) :
    RequestTwin k.c k'.c s.i.val (assistRequest (k.backend s) url)
      (assistRequest (k'.backend t) url) where
  backend := ⟨k.backend s, List.getElem?_eq_getElem s.i.isLt, .inr hurl⟩
  method := rfl
  url := rfl
  headers := by
    have hkey : k'.c.keyAt s.i.val = (k'.backend t).apiKey := by rw [hi, keyAt_backend]
    rw [keyAt_backend, hkey]
    exact (h.backend hi).assist
  body := rfl
  timeouts := rfl
  flags := rfl

/-- The abort assist is sent alike, up to the keys. -/
theorem koboldAbortAssist_twin {s : LoopState k.c} {t : LoopState k'.c}
    (hs : StateTwin strict B Rel k k' s t) :
    WorldTwin (.lockstep strict k.c k'.c B Rel) (k.koboldAbortAssist (k.backend s) s.world)
      (k'.koboldAbortAssist (k'.backend t) t.world) := by
  have hb := h.backend hs.i
  unfold koboldAbortAssist
  rw [← hb.urlAbort]
  cases hurl : (k.backend s).urlAbort with
  | none => exact hs.world
  | some url =>
      have hrq := assistRequest_twin h hs.i hurl
      have hline : ActTwin strict k.c k'.c (.debug (requestText (assistRequest (k.backend s) url)))
          (.debug (requestText (assistRequest (k'.backend t) url))) := by
        rw [requestText_twin hrq]
        exact .same _
      have hlogged := debugLog_twin h.debug (S := .lockstep strict k.c k'.c B Rel) hline hs.world
      have hstart := hlogged.note (.perform hrq false false)
      exact (Dialogue.run_twin
        (P := fun log env log' env' =>
          WorldTwin (.lockstep strict k.c k'.c B Rel) ⟨env, log⟩ ⟨env', log'⟩)
        (fun hw => hw.env) (fun hw hrel => hw.setEnv hrel) (fun _ _ _ _ _ hw => ⟨rfl, hw⟩) _
        (h.assist hrq _ _ hstart.env) hstart).2

/-- Both calls are committed, or neither is. -/
theorem committed_twin {s : LoopState k.c} {t : LoopState k'.c}
    (hs : StateTwin strict B Rel k k' s t) : k.committed s = k'.committed t := by
  unfold committed
  rw [hs.anyDelivered, h.policy]

/-- Both wait the same time. -/
theorem waitFor_twin (retryAfter : UInt64) (used : Nat) (rng : UInt64) :
    k.waitFor retryAfter used rng = k'.waitFor retryAfter used rng := by
  unfold waitFor
  rw [h.policy]

/-- A rejected answer is followed alike. -/
theorem onValidation_twin {s : LoopState k.c} {t : LoopState k'.c}
    (hs : StateTwin strict B Rel k k' s t) :
    TurnTwin strict B Rel k k' (k.onValidation s) (k'.onValidation t) := by
  have hused := hs.validationUsed
  unfold onValidation
  rw [committed_twin h hs, hused, h.policy]
  split_ifs
  · exact exit_twin hs _
  · exact .inl { hs with validationUsed := rfl }
  · exact advance_twin h hs

/-- A retry on the same backend is followed alike. -/
theorem onRetrySame_twin {s : LoopState k.c} {t : LoopState k'.c}
    (hs : StateTwin strict B Rel k k' s t) (retryAfter : UInt64) :
    TurnTwin strict B Rel k k' (k.onRetrySame retryAfter s) (k'.onRetrySame retryAfter t) := by
  have hused : StateTwin strict B Rel k k' { s with retrySameUsed := s.retrySameUsed + 1 }
      { t with retrySameUsed := t.retrySameUsed + 1 } :=
    { hs with retrySameUsed := congrArg (· + 1) hs.retrySameUsed }
  have hwait : k.waitFor retryAfter (s.retrySameUsed + 1) s.rng =
      k'.waitFor retryAfter (t.retrySameUsed + 1) t.rng := by
    rw [hs.retrySameUsed, hs.rng]
    exact waitFor_twin h _ _ _
  unfold onRetrySame
  dsimp only
  rw [hwait, committed_twin h hs, h.policy]
  generalize k'.waitFor retryAfter (t.retrySameUsed + 1) t.rng = wait
  obtain ⟨hcode, hrel⟩ := h.wait wait.1 _ _ hs.world.env
  have hworld := hs.world.act (f := k.c.clock.waitMs k.cancel wait.1)
    (g := k'.c.clock.waitMs k'.cancel wait.1) (m := .wait wait.1) (n := .wait wait.1)
    (by rw [hcode]; exact .same _) hrel
  have hwaited : StateTwin strict B Rel k k'
      { s with
        retrySameUsed := s.retrySameUsed + 1
        rng := wait.2
        world := (s.world.act (k.c.clock.waitMs k.cancel wait.1) (.wait wait.1)).2 }
      { t with
        retrySameUsed := t.retrySameUsed + 1
        rng := wait.2
        world := (t.world.act (k'.c.clock.waitMs k'.cancel wait.1) (.wait wait.1)).2 } :=
    { hused with rng := rfl, world := hworld }
  have hanswer : (s.world.act (k.c.clock.waitMs k.cancel wait.1) (.wait wait.1)).1 =
      (t.world.act (k'.c.clock.waitMs k'.cancel wait.1) (.wait wait.1)).1 := hcode
  rw [hanswer]
  rw [hs.retrySameUsed] at hused hwaited ⊢
  split_ifs
  · exact exit_twin hs _
  · exact advance_twin h hused
  · exact exit_twin hwaited _
  · exact .inl hwaited

/-- What follows a recorded attempt, on both sides. -/
theorem dispatch_twin (cls : ErrorClass) (retryAfter : UInt64) {s : LoopState k.c}
    {t : LoopState k'.c} (hs : StateTwin strict B Rel k k' s t) :
    TurnTwin strict B Rel k k' (k.dispatch cls retryAfter s) (k'.dispatch cls retryAfter t) := by
  cases cls with
  | none => exact exit_twin hs _
  | abort => exact exit_twin hs _
  | cancelled =>
      have hassisted : StateTwin strict B Rel k k'
          { s with world := k.koboldAbortAssist (k.backend s) s.world }
          { t with world := k'.koboldAbortAssist (k'.backend t) t.world } :=
        { hs with world := koboldAbortAssist_twin h hs }
      exact exit_twin hassisted _
  | validation => exact onValidation_twin h hs
  | retrySame => exact onRetrySame_twin h hs retryAfter
  | advance =>
      unfold dispatch onAdvance
      rw [committed_twin h hs]
      split_ifs
      · exact exit_twin hs _
      · exact advance_twin h hs

/-! ## A turn -/

/-- Both tokens are polled alike. -/
theorem poll_twin {w : World σ} {w' : World τ}
    (hw : WorldTwin (.lockstep strict k.c k'.c B Rel) w w') :
    (k.poll w).1 = (k'.poll w').1 ∧
      WorldTwin (.lockstep strict k.c k'.c B Rel) (k.poll w).2 (k'.poll w').2 := by
  have hcancel := h.cancel
  unfold poll
  generalize k.cancel = o, k'.cancel = o' at hcancel
  cases hcancel with
  | none => exact ⟨rfl, hw⟩
  | @some token token' hflag =>
      have hsame := hflag _ _ hw.env
      exact ⟨hsame, hw.act (f := fun env => (token.flag env, env))
        (g := fun env => (token'.flag env, env)) (m := .poll) (n := .poll)
        (by rw [hsame]; exact .same _) hw.env⟩

/-- What is behind a round trip goes alike. -/
theorem conclude_twin {s : LoopState k.c} {t : LoopState k'.c}
    (hs : StateTwin strict B Rel k k' s t) {x : Ran σ} {x' : Ran τ}
    (hx : RanTwin (.lockstep strict k.c k'.c B Rel) strict x x') :
    TurnTwin strict B Rel k k' (k.conclude s x) (k'.conclude t x') := by
  have hj := judge_twin h hx
  obtain ⟨hcode, hnext⟩ := afterRecord_twin h hs hx hj
  unfold conclude
  dsimp only
  rw [hj.cls, hx.retryAfterMs]
  generalize k.afterRecord s x (k.judge x) = out at hcode hnext
  generalize k'.afterRecord t x' (k'.judge x') = out' at hcode hnext
  obtain ⟨st, s1⟩ := out
  obtain ⟨st', t1⟩ := out'
  obtain rfl : st = st' := hcode
  cases st with
  | ok =>
      have hann := announce_twin h hnext
      dsimp only
      rw [hann.final]
      split_ifs
      · exact .inr hann
      · exact dispatch_twin h _ _ hann
  | _ => exact exit_twin hnext _

/-- A turn of both engines. -/
theorem step_twin {s : LoopState k.c} {t : LoopState k'.c}
    (hs : StateTwin strict B Rel k k' s t) :
    TurnTwin strict B Rel k k' (k.step s) (k'.step t) := by
  obtain ⟨hcode, hpolled⟩ := poll_twin h hs.world
  have hready : StateTwin strict B Rel k k' { s with world := (k.poll s.world).2 }
      { t with world := (k'.poll t.world).2 } := { hs with world := hpolled }
  obtain ⟨hrq, hnext⟩ := prepare_twin h hready
  unfold step
  dsimp only
  rw [hcode]
  split_ifs
  · exact exit_twin hready _
  · generalize k.prepare _ = out at hrq hnext
    generalize k'.prepare _ = out' at hrq hnext
    obtain ⟨r, s1⟩ := out
    obtain ⟨r', t1⟩ := out'
    cases hrq with
    | error st => exact exit_twin hnext _
    | ok hrq => exact conclude_twin h hnext (roundTrip_twin h hnext hrq)

/-! ## Whole calls -/

/-- Two calls that end alike. -/
inductive EndTwin (strict : Bool) (B : Buf → Buf → Prop) (Rel : σ → τ → Prop) (c : Client σ)
    (c' : Client τ) : ChatEnd σ → ChatEnd τ → Prop
  | returned (st : Status) {out out' : Option Result} {w : World σ} {w' : World τ}
      (hout : Option.Rel (ContentTwin (.lockstep strict c c' B Rel)) out out')
      (hw : WorldTwin (.lockstep strict c c' B Rel) w w') :
      EndTwin strict B Rel c c' (.returned st out w) (.returned st out' w')
  | fault {w : World σ} {w' : World τ} (hw : WorldTwin (.lockstep strict c c' B Rel) w w') :
      EndTwin strict B Rel c c' (.fault w) (.fault w')

/-- Both loops start alike. -/
theorem start_twin (ordinal : UInt32) {r r' : Result}
    (hr : ContentTwin (.lockstep strict k.c k'.c B Rel) r r') {w : World σ} {w' : World τ}
    (hw : WorldTwin (.lockstep strict k.c k'.c B Rel) w w') :
    StateTwin strict B Rel k k' (k.start ordinal r w) (k'.start ordinal r' w') where
  i := rfl
  retrySameUsed := rfl
  validationUsed := rfl
  tryOfBackend := rfl
  bodies := congrArg (fun n => List.replicate n none) h.length_eq
  headers i := by
    have hnone : ∀ n : Nat, ((List.replicate n (none : Option (List Header)))[i]?).join = none := by
      intro n
      rw [List.getElem?_replicate]
      split_ifs <;> rfl
    unfold start
    dsimp only
    rw [hnone, hnone]
    exact .none
  headersLength := by
    unfold start
    dsimp only
    rw [List.length_replicate, List.length_replicate, h.length_eq]
  rng := congrArg (· ^^^ ordinal.toUInt64) h.prngSeed
  attemptOrdinal := rfl
  anyDelivered := rfl
  final := rfl
  r := hr
  world := hw

/-- The arrays are requested alike, and where one is refused both calls end alike. -/
theorem arrays_twin (ordinal : UInt32) {r r' : Result}
    (hr : ContentTwin (.lockstep strict k.c k'.c B Rel) r r') {w : World σ} {w' : World τ}
    (hw : WorldTwin (.lockstep strict k.c k'.c B Rel) w w') :
    Sum.LiftRel (fun x x' => EndTwin strict B Rel k.c k'.c (k.done x) (k'.done x'))
      (StateTwin strict B Rel k k') (k.arrays ordinal r w) (k'.arrays ordinal r' w') := by
  have halloc := h.heaps.alloc k'.c.backends.length
  obtain ⟨hbodies, hw1⟩ := halloc _ _ hw.env
  obtain ⟨hlens, hw2⟩ := halloc _ _ hw1
  obtain ⟨hheaders, hw3⟩ := halloc _ _ hw2
  obtain ⟨hcounts, hw4⟩ := halloc _ _ hw3
  unfold arrays
  rw [h.length_eq]
  dsimp only [World.quiet]
  rw [hbodies, hlens, hheaders, hcounts]
  split_ifs
  · exact .inr (start_twin h ordinal hr (hw.setEnv hw4))
  · refine .inl ?_
    unfold done
    rw [h.length_eq]
    have hfailed : ContentTwin (.lockstep strict k.c k'.c B Rel) { r with status := .nomem }
        { r' with status := .nomem } :=
      { hr with rest := { hr.rest with status := rfl } }
    dsimp only
    split
    · exact .returned _ (.some hfailed) (hw.setEnv hw4)
    · exact .fault (hw.setEnv hw4)

/-- Both calls enter their loops alike, or end alike before. -/
theorem enter_twin (ordinal : UInt32) {w : World σ} {w' : World τ}
    (hw : WorldTwin (.lockstep strict k.c k'.c B Rel) w w') :
    Sum.LiftRel (fun out out' => EndTwin strict B Rel k.c k'.c (k.close out) (k'.close out'))
      (StateTwin strict B Rel k k') (k.enter ordinal w) (k'.enter ordinal w') := by
  have hvalid := requestValidate_alike h.heaps.alloc k'.Y k'.req w.env w'.env hw.env
  unfold enter
  rw [h.structSizeOk, h.yyjson, h.req, h.maxResponseBytes]
  split_ifs
  · exact .inl (.returned _ .none hw)
  · generalize (requestValidate k'.Y k.H k'.req).exec w.env = out at hvalid
    generalize (requestValidate k'.Y k'.H k'.req).exec w'.env = out' at hvalid
    obtain ⟨r, env⟩ := out
    obtain ⟨r', env'⟩ := out'
    obtain ⟨hend, hrel⟩ := hvalid
    cases hend with
    | error st => exact .inl (.returned _ .none (hw.setEnv hrel))
    | ok _ =>
        obtain ⟨hgrant, hnext⟩ := h.heaps.alloc 1 _ _ hrel
        dsimp only [resultCreate] at hgrant hnext ⊢
        rw [hgrant]
        split_ifs
        · have hinit : ContentTwin (.lockstep strict k.c k'.c B Rel)
              (resultInit k'.c.maxResponseBytes) (resultInit k'.c.maxResponseBytes) :=
            { text := h.heaps.init _
              reasoning := h.heaps.init _
              finishRaw := rfl
              finish := rfl
              promptTokens := rfl
              completionTokens := rfl
              totalTokens := rfl
              model := rfl
              rawBody := rfl
              rest := ⟨rfl, rfl, .nil, rfl⟩ }
          have harrays := arrays_twin h ordinal hinit (hw.setEnv hnext)
          dsimp only
          generalize k.arrays ordinal _ _ = out at harrays ⊢
          generalize k'.arrays ordinal _ _ = out' at harrays ⊢
          cases harrays with
          | inl hend => exact .inl hend
          | inr hstart => exact .inr hstart
        · exact .inl (.returned _ .none (hw.setEnv hnext))

/-- Two whole calls. -/
theorem run_twin (ordinal : UInt32) {w : World σ} {w' : World τ}
    (hw : WorldTwin (.lockstep strict k.c k'.c B Rel) w w') :
    EndTwin strict B Rel k.c k'.c (k.run ordinal w) (k'.run ordinal w') := by
  have henter := enter_twin h ordinal hw
  rw [run_eq, run_eq]
  generalize k.enter ordinal w = out at henter
  generalize k'.enter ordinal w' = out' at henter
  cases henter with
  | inl hend => exact hend
  | inr hstart =>
      have hlast := Loop.run_twin (L := k.attemptLoop) (M := k'.attemptLoop)
        (fun _ _ hs => step_twin h hs) hstart
      have hresult := hlast.r
      dsimp only [handOut]
      rw [hlast.final]
      exact .returned _ (.some { hresult with rest := { hresult.rest with status := rfl } })
        hlast.world

end Call

end Runs

end Sicha
