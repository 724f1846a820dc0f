import Sicha.Client.Create
import Sicha.Client.Lockstep
import Sicha.Client.Turns

/-!
# The key of a backend

Two clients are created from the same options, but for the key of one backend, and the same
requests are made through both.  Nobody but the backend with the key learns of the difference:
the requests of its turns carry the key in the Authorization header, and everything else that
the two runs do is the same, down to the debug log.

Main results:

- Definition {lit}`ActKeyed`: the actions of two turns, with the key where it belongs.
- Theorem {lit}`created_keyed`: what the two clients have in common.
- Theorem {lit}`Call.turn_keyed`: one turn of both runs.
- Theorem {lit}`key_isolation`: two clients and any number of requests.
-/

namespace Sicha

section Runs

variable [SizeT] {σ : Type}

/-! ## Two clients -/

/-- The options with another key for a backend of the chain. -/
def ClientOpts.withKey (o : ClientOpts σ) (j : Nat) (key : Bytes) : ClientOpts σ :=
  { o with
    backends := .list (o.backends.items.modify j fun d => { d with apiKey := some key }) }

/-- Two clients that are the same but for the key of one backend. -/
structure Client.Keyed (j : Nat) (key key' : Bytes) (c c' : Client σ) : Prop where
  length : c.backends.length = c'.backends.length
  others : ∀ i, i ≠ j → c.backends[i]? = c'.backends[i]?
  keyed : ∀ b b', c.backends[j]? = some b → c'.backends[j]? = some b' →
    Rekeyed b b' ∧ b.apiKey = some key ∧ b'.apiKey = some key'
  policy : c.policy = c'.policy
  transport : c.transport = c'.transport
  clock : c.clock = c'.clock
  prngSeed : c.prngSeed = c'.prngSeed
  maxResponseBytes : c.maxResponseBytes = c'.maxResponseBytes
  maxEventBytes : c.maxEventBytes = c'.maxEventBytes
  userAgent : c.userAgent = c'.userAgent
  debug : c.debug = c'.debug

omit [SizeT] in
/-- What is checked of a description does not depend on its key, once that is accepted. -/
theorem backendDescCheck_rekeyed {d : BackendDesc} {key key' : Bytes}
    {x x' : Bytes × Bytes × List Header}
    (h : backendDescCheck { d with apiKey := some key } = some x)
    (h' : backendDescCheck { d with apiKey := some key' } = some x') : x = x' := by
  obtain ⟨-, hkey, -⟩ := backendDescCheck_some h
  obtain ⟨-, hkey', -⟩ := backendDescCheck_some h'
  unfold backendDescCheck at h h'
  rw [hkey] at h
  rw [hkey'] at h'
  exact Option.some.inj (h.symm.trans h')

omit [SizeT] in
/-- Two resolved backends of one description. -/
theorem Describes.unique {d : BackendDesc} {b b' : Backend} (h : Describes d b)
    (h' : Describes d b') : b = b' := by
  obtain ⟨url, model, headers, hcheck, rfl⟩ := h
  obtain ⟨url', model', headers', hcheck', rfl⟩ := h'
  rw [hcheck] at hcheck'
  cases hcheck'
  rfl

omit [SizeT] in
/-- Two resolved backends of one description with two keys. -/
theorem Describes.rekeyed {d : BackendDesc} {key key' : Bytes} {b b' : Backend}
    (h : Describes { d with apiKey := some key } b)
    (h' : Describes { d with apiKey := some key' } b') :
    Rekeyed b b' ∧ b.apiKey = some key ∧ b'.apiKey = some key' := by
  obtain ⟨url, model, headers, hcheck, rfl⟩ := h
  obtain ⟨url', model', headers', hcheck', rfl⟩ := h'
  cases backendDescCheck_rekeyed hcheck hcheck'
  exact ⟨⟨rfl, rfl, rfl, rfl, rfl, rfl, rfl, rfl⟩, rfl, rfl⟩

omit [SizeT] in
/-- The description of a backend of a created client. -/
theorem Created.describes {P : Platform σ} {o : ClientOpts σ} {j : Nat} {key : Bytes}
    {c : Client σ} (h : Created P (o.withKey j key) c) {i : Nat} {b : Backend}
    (hb : c.backends[i]? = some b) :
    ∃ d, o.backends.items[i]? = some d ∧
      Describes (if j = i then { d with apiKey := some key } else d) b := by
  obtain ⟨hlt, hget⟩ := List.getElem?_eq_some_iff.mp hb
  have hlength := h.backends.length_eq
  have hdescribed := h.backends.get (hlength.symm ▸ hlt) hlt
  have hitem : ((o.withKey j key).backends.items)[i]? =
      some ((o.withKey j key).backends.items.get ⟨i, hlength.symm ▸ hlt⟩) :=
    List.getElem?_eq_getElem _
  have hmodified : ((o.withKey j key).backends.items)[i]? =
      (fun d : BackendDesc => if j = i then { d with apiKey := some key } else d) <$>
        o.backends.items[i]? := List.getElem?_modify _ _ _ _
  rw [hitem] at hmodified
  obtain ⟨d, hd, hsame⟩ := Option.map_eq_some_iff.mp hmodified.symm
  refine ⟨d, hd, ?_⟩
  rw [hsame]
  have hplace : c.backends.get ⟨i, hlt⟩ = b := hget
  rw [← hplace]
  exact hdescribed

omit [SizeT] in
/-- A key more or less does not change the length of the chain. -/
theorem Created.length_eq {P : Platform σ} {o : ClientOpts σ} {j : Nat} {key : Bytes}
    {c : Client σ} (h : Created P (o.withKey j key) c) :
    c.backends.length = o.backends.items.length := by
  have hlength : (o.withKey j key).backends.items.length = o.backends.items.length :=
    List.length_modify _ _ _
  exact h.backends.length_eq.symm.trans hlength

omit [SizeT] in
/-- Two clients created from the same options but for the key of one backend. -/
theorem created_keyed {P : Platform σ} {o : ClientOpts σ} {j : Nat} {key key' : Bytes}
    {c c' : Client σ} (h : Created P (o.withKey j key) c) (h' : Created P (o.withKey j key') c')
    (hseed : o.prngSeed ≠ 0) (hdebug : c.debug = c'.debug) : c.Keyed j key key' c' where
  length := h.length_eq.trans h'.length_eq.symm
  others i hi := by
    have hlength := h.length_eq.trans h'.length_eq.symm
    by_cases hlt : i < c.backends.length
    · have hlt' : i < c'.backends.length := hlength ▸ hlt
      have hb : c.backends[i]? = some c.backends[i] := List.getElem?_eq_getElem hlt
      have hb' : c'.backends[i]? = some c'.backends[i] := List.getElem?_eq_getElem hlt'
      obtain ⟨d, hd, hdescribed⟩ := h.describes hb
      obtain ⟨d', hd', hdescribed'⟩ := h'.describes hb'
      rw [hd] at hd'
      cases hd'
      rw [if_neg (Ne.symm hi)] at hdescribed hdescribed'
      rw [hb, hb', hdescribed.unique hdescribed']
    · rw [List.getElem?_eq_none (by omega), List.getElem?_eq_none (by omega)]
  keyed b b' hb hb' := by
    obtain ⟨d, hd, hdescribed⟩ := h.describes hb
    obtain ⟨d', hd', hdescribed'⟩ := h'.describes hb'
    rw [hd] at hd'
    cases hd'
    rw [if_pos rfl] at hdescribed hdescribed'
    exact hdescribed.rekeyed hdescribed'
  policy := h.policy.trans h'.policy.symm
  transport := Option.some.inj (h.transport.trans h'.transport.symm)
  clock := Option.some.inj (h.clock.symm.trans h'.clock)
  prngSeed := (h.prngSeed hseed).trans (h'.prngSeed hseed).symm
  maxResponseBytes := h.maxResponseBytes.trans h'.maxResponseBytes.symm
  maxEventBytes := h.maxEventBytes.trans h'.maxEventBytes.symm
  userAgent := h.userAgent.trans h'.userAgent.symm
  debug := hdebug

/-! ## The other parties -/

/-- Two requests that differ at most in the values of their Authorization headers. -/
structure SameButAuthorization (rq rq' : HttpRequest) : Prop where
  method : rq.method = rq'.method
  url : rq.url = rq'.url
  headers : List.Forall₂ (fun x x' => x.name = x'.name ∧
    (headerNameEq x.name (ascii "Authorization") = false → x.value = x'.value)) rq.headers
    rq'.headers
  body : rq.body = rq'.body
  timeouts : rq.timeouts = rq'.timeouts
  flags : rq.flags = rq'.flags

/-- A token that reads the same in environments in {lit}`Rel`. -/
def CancelAlike (Rel : σ → σ → Prop) (cancel : Option (CancelToken σ)) : Prop :=
  ∀ token ∈ cancel, ∀ s t, Rel s t → token.flag s = token.flag t

/-- The parties of two runs answer alike from environments in {lit}`Rel`: the allocator, to
requests of one size; the transport, whatever the value of an Authorization header; and the
clock. -/
structure Blind (Rel : σ → σ → Prop) (H : Heap σ) (c : Client σ) : Prop where
  heap : H.Sim H Rel
  transport : ∀ rq rq' sink cancel, SameButAuthorization rq rq' → CancelAlike Rel cancel →
    ∀ s t, Rel s t →
      (c.transport.perform rq sink cancel s).Twin Rel (c.transport.perform rq' sink cancel t)
  now : NowTwin true Rel c.clock c.clock
  wait : ∀ cancel, CancelAlike Rel cancel → ∀ ms s t, Rel s t →
    (c.clock.waitMs cancel ms s).1 = (c.clock.waitMs cancel ms t).1 ∧
      Rel (c.clock.waitMs cancel ms s).2 (c.clock.waitMs cancel ms t).2

/-- A request as a caller makes it. -/
structure Ask (σ : Type) where
  req : Option Request
  cbs : Option (Callbacks σ)
  cancel : Option (CancelToken σ)
  haveOut : Bool
  stream : Bool

/-- The callbacks and the token of a request answer alike from environments in {lit}`Rel`. -/
structure Ask.Alike (Rel : σ → σ → Prop) (ask : Ask σ) : Prop where
  data : DataTwin Rel ask.cbs ask.cbs
  validate : ∀ f ∈ ask.cbs.bind Callbacks.validate, ∀ r s t, Rel s t →
    (f r s).1 = (f r t).1 ∧ Rel (f r s).2 (f r t).2
  onAttempt : ∀ f ∈ ask.cbs.bind Callbacks.onAttempt, ∀ a s t, Rel s t → Rel (f a s) (f a t)
  cancel : CancelAlike Rel ask.cancel

/-- A request through a client, its pointers checked. -/
def Ask.through (ask : Ask σ) (Y : Yyjson) (H : Heap σ) (c : Client σ) (req : Request) : Call σ :=
  ⟨Y, H, c, req, ask.cbs, ask.cancel, ask.stream⟩

/-- The call that gets past the check of its pointers. -/
def Ask.call (ask : Ask σ) (Y : Yyjson) (H : Heap σ) (c : Client σ) : Option (Call σ) :=
  if ask.haveOut then ask.req.map (ask.through Y H c) else none

/-- What a request did, turn by turn, how it ended, and the number of the next one. -/
structure Made (σ : Type) where
  turns : List (Nat × List Act)
  ends : Call.ChatEnd σ
  next : UInt32

/-- The number of the next request: the counter moves once the arrays of a call exist. -/
def Call.counted (k : Call σ) (ordinal : UInt32) (w : World σ) : UInt32 :=
  match k.enter ordinal w with
  | .inl _ => ordinal
  | .inr _ => ordinal + 1

/-- A request is made. -/
def Ask.made (ask : Ask σ) (Y : Yyjson) (H : Heap σ) (c : Client σ) (ordinal : UInt32) (s : σ) :
    Made σ :=
  match ask.call Y H c with
  | none => ⟨[], .returned .invalidArg none ⟨s, []⟩, ordinal⟩
  | some k => ⟨k.turns ordinal ⟨s, []⟩, k.run ordinal ⟨s, []⟩, k.counted ordinal ⟨s, []⟩⟩

/-- It is made with the call of the public interface. -/
theorem Ask.made_ends (ask : Ask σ) (Y : Yyjson) (H : Heap σ) (c : Client σ) (ordinal : UInt32)
    (s : σ) : (ask.made Y H c ordinal s).ends =
      chatCommon Y H (some c) ask.req ask.cbs ask.cancel ask.haveOut ask.stream ordinal
        ⟨s, []⟩ := by
  unfold Ask.made Ask.call chatCommon
  cases ask.haveOut with
  | false => rfl
  | true =>
      cases ask.req with
      | none => rfl
      | some req => rfl

/-- Requests through one client, one after the other; nothing follows a fault. -/
def session (Y : Yyjson) (H : Heap σ) (c : Client σ) : List (Ask σ) → UInt32 → σ → List (Made σ)
  | [], _, _ => []
  | ask :: asks, ordinal, s =>
      let made := ask.made Y H c ordinal s
      made :: if made.ends.status = none then []
        else session Y H c asks made.next made.ends.world.env

section Keyed

variable {Rel : σ → σ → Prop} {H : Heap σ} {c c' : Client σ} {j : Nat} {key key' : Bytes}

omit [SizeT] in
/-- Requests that are twins differ in their authorization only. -/
theorem RequestTwin.sameButAuthorization {i : Nat} {rq rq' : HttpRequest}
    (h : RequestTwin c c' i rq rq') : SameButAuthorization rq rq' where
  method := h.method
  url := h.url
  headers := by
    have hsame : ∀ hs : List Header, List.Forall₂ (fun x x' : Header => x.name = x'.name ∧
        (headerNameEq x.name (ascii "Authorization") = false → x.value = x'.value)) hs hs :=
      fun hs => List.forall₂_same.mpr fun x _ => ⟨rfl, fun _ => rfl⟩
    have hkeys := h.headers
    generalize rq.headers = hs, rq'.headers = hs' at hkeys
    cases hkeys with
    | same _ _ => exact hsame _
    | bearer _ _ pre post =>
        refine List.rel_append (hsame pre) (.cons ⟨rfl, fun hname => ?_⟩ (hsame post))
        cases hname
  body := h.body
  timeouts := h.timeouts
  flags := h.flags

omit [SizeT] in
/-- The key of a backend is carried whole by its abort assist. -/
theorem assistHeaders_bearer {b : Backend} (hkey : b.apiKey = some key)
    (hlength : key.length ≤ 503) :
    Call.assistHeaders b = [⟨ascii "Content-Type", ascii "application/json"⟩, bearer key] := by
  have hfits : snprintf 512 (ascii "Bearer " ++ key) = ascii "Bearer " ++ key := by
    have hprefix : (ascii "Bearer ").length = 7 := rfl
    refine List.take_of_length_le ?_
    rw [List.length_append, hprefix]
    omega
  unfold Call.assistHeaders
  rw [hkey]
  dsimp only
  rw [if_pos (by omega), hfits]
  rfl

omit [SizeT] in
/-- The backends of the two clients, place by place. -/
theorem Client.Keyed.backends (h : c.Keyed j key key' c') (hsim : H.Sim H Rel)
    (hkeys : KeyAlike H H Rel 8 (some key) (some key'))
    (hlength : key.length ≤ 503) (hlength' : key'.length ≤ 503) :
    List.Forall₂ (BackendTwin H H Rel) c.backends c'.backends := by
  refine List.forall₂_iff_get.mpr ⟨h.length, fun i hi hi' => ?_⟩
  have hb : c.backends[i]? = some (c.backends.get ⟨i, hi⟩) := List.getElem?_eq_getElem hi
  have hb' : c'.backends[i]? = some (c'.backends.get ⟨i, hi'⟩) := List.getElem?_eq_getElem hi'
  generalize c.backends.get ⟨i, hi⟩ = b at hb
  generalize c'.backends.get ⟨i, hi'⟩ = b' at hb'
  by_cases hij : i = j
  · subst hij
    obtain ⟨hrekeyed, hkey, hkey'⟩ := h.keyed b b' hb hb'
    refine ⟨hrekeyed, ?_, ?_⟩
    · rw [hkey, hkey']
      exact hkeys
    · rw [assistHeaders_bearer hkey hlength, assistHeaders_bearer hkey' hlength']
      exact .bearer hkey hkey' [_] []
  · obtain rfl : b = b' := Option.some.inj (hb.symm.trans ((h.others i hij).trans hb'))
    exact ⟨Rekeyed.refl b, .self hsim 8 b.apiKey, .same rfl _⟩

omit [SizeT] in
/-- The keys of the two clients, place by place. -/
theorem Client.Keyed.keyAt_others (h : c.Keyed j key key' c') {i : Nat} (hi : i ≠ j) :
    c.keyAt i = c'.keyAt i := by
  unfold Client.keyAt
  rw [h.others i hi]

omit [SizeT] in
/-- At its own place each client has its own key. -/
theorem Client.Keyed.keyAt_self (h : c.Keyed j key key' c') (hj : j < c.backends.length) :
    c.keyAt j = some key ∧ c'.keyAt j = some key' := by
  have hb : c.backends[j]? = some c.backends[j] := List.getElem?_eq_getElem hj
  have hb' : c'.backends[j]? = some (c'.backends.get ⟨j, h.length ▸ hj⟩) :=
    List.getElem?_eq_getElem _
  obtain ⟨-, hkey, hkey'⟩ := h.keyed _ _ hb hb'
  unfold Client.keyAt
  rw [hb, hb', Option.bind_some, Option.bind_some]
  exact ⟨hkey, hkey'⟩

/-! ## Two calls -/

/-- Two results that agree in everything are the same. -/
theorem ContentTwin.eq {r r' : Result} (h : ContentTwin (.lockstep true c c' Eq Rel) r r') :
    r = r' := by
  have hrecords : r.attempts = r'.attempts := by
    have hall := h.rest.attempts.imp fun a a' ha => ha.same rfl
    rwa [List.forall₂_eq_eq_eq] at hall
  cases r
  cases r'
  simp only [Result.mk.injEq]
  exact ⟨h.rest.status, h.text, h.reasoning, h.finishRaw, h.finish, h.promptTokens,
    h.completionTokens, h.totalTokens, h.model, h.rest.backend, h.rawBody, hrecords,
    h.rest.capAttempts⟩


/-- The same request through the two clients. -/
theorem ask_twin (h : c.Keyed j key key' c') (hblind : Blind Rel H c)
    (hkeys : KeyAlike H H Rel 8 (some key) (some key')) (hlength : key.length ≤ 503)
    (hlength' : key'.length ≤ 503) {ask : Ask σ}
    (hask : ask.Alike Rel) (Y : Yyjson) (req : Request) :
    (ask.through Y H c req).Twin true Eq Rel (ask.through Y H c' req) where
  heaps := .of_sim hblind.heap
  alloc n n' hn s t hst := by
    obtain rfl := hn rfl
    exact hblind.heap n s t hst
  yyjson := rfl
  req := rfl
  stream := rfl
  backends := h.backends hblind.heap hkeys hlength hlength'
  policy := h.policy
  prngSeed := h.prngSeed
  maxResponseBytes := h.maxResponseBytes
  userAgent := h.userAgent
  debug := h.debug
  structSizeOk := rfl
  data := hask.data
  validate := by
    refine optionRel_self fun f hf r r' s t hr hst => ?_
    rw [hr.eq]
    exact hask.validate f hf r' s t hst
  onAttempt := by
    refine optionRel_self fun f hf a a' s t ha hst => ?_
    rw [ha.same rfl]
    exact hask.onAttempt f hf a' s t hst
  cancel := optionRel_self hask.cancel
  wait ms s t hst := by
    dsimp only [Ask.through]
    rw [← h.clock]
    exact hblind.wait ask.cancel hask.cancel ms s t hst
  exchange := by
    intro i rq rq' r r' w w' hrq hr hw
    have hnow : NowTwin true Rel c.clock c'.clock := h.clock ▸ hblind.now
    have hline : ActTwin true c c' (.debug (requestText rq)) (.debug (requestText rq')) := by
      rw [requestText_twin hrq]
      exact .same _
    obtain ⟨hio, hbody⟩ := attemptIoInit_twin (S := .lockstep true c c' Eq Rel) (fun _ => rfl)
      h.maxResponseBytes h.maxEventBytes hr ask.stream req.accumulates
    obtain ⟨hx, hbufs, hlatency⟩ := exchange_twin (S := .lockstep true c c' Eq Rel)
      (.of_sim hblind.heap) hask.data Y h.debug hnow hline (.perform hrq true ask.cancel.isSome)
      (fun s t hst => by
        rw [← h.transport]
        exact hblind.transport rq rq' true ask.cancel hrq.sameButAuthorization hask.cancel s t hst)
      hio hbody hw
    exact ⟨hx, fun _ => hbufs, hlatency⟩
  assist := by
    intro i rq rq' hrq s t hst
    dsimp only [Ask.through]
    rw [← h.transport]
    exact hblind.transport rq rq' false none hrq.sameButAuthorization nofun s t hst

/-! ## Two turns -/

/-- The actions of two turns on the backend at {lit}`i`: the same; but a request for the backend
with the key carries the key of its client, in one Authorization header. -/
inductive ActKeyed (j : Nat) (key key' : Bytes) (i : Nat) : Act → Act → Prop
  | same (a : Act) (h : i = j → a.isPerform = true → key = key') : ActKeyed j key key' i a a
  | keyed (h : i = j) (rq : HttpRequest) (pre post : List Header) (sink cancel : Bool) :
      ActKeyed j key key' i
        (.perform { rq with headers := pre ++ bearer key :: post } sink cancel)
        (.perform { rq with headers := pre ++ bearer key' :: post } sink cancel)

/-- Two turns on one backend. -/
structure TurnKeyed (j : Nat) (key key' : Bytes) (x x' : Nat × List Act) : Prop where
  place : x.1 = x'.1
  acts : List.Forall₂ (ActKeyed j key key' x.1) x.2 x'.2

namespace Call

variable {k k' : Call σ} (h : k.Twin true Eq Rel k') (hkeyed : k.c.Keyed j key key' k'.c)

include hkeyed in
/-- The requests of two turns on one backend. -/
theorem request_keyed {i : Nat} (hi : i < k.c.backends.length) {rq rq' : HttpRequest}
    (hrq : RequestTwin k.c k'.c i rq rq') (sink cancel : Bool) :
    ActKeyed j key key' i (.perform rq sink cancel) (.perform rq' sink cancel) := by
  by_cases hij : i = j
  · obtain ⟨hkey, hkey'⟩ := hkeyed.keyAt_self (hij ▸ hi)
    have hkeys := hrq.headers
    rw [hij, hkey, hkey'] at hkeys
    obtain ⟨hs, hrq'⟩ : ∃ hs, rq' = { rq with headers := hs } := by
      refine ⟨rq'.headers, ?_⟩
      cases rq'
      simp only [HttpRequest.mk.injEq, true_and]
      exact ⟨hrq.method.symm, hrq.url.symm, hrq.body.symm, hrq.timeouts.symm, hrq.flags.symm⟩
    subst hrq'
    dsimp only at hkeys
    generalize hheaders : rq.headers = hs0 at hkeys
    cases hkeys with
    | same hsame _ =>
        rw [← hheaders]
        exact .same _ fun _ _ => Option.some.inj hsame
    | bearer ha ha' pre post =>
        cases ha
        cases ha'
        have heq : rq = { rq with headers := pre ++ bearer key :: post } := by rw [← hheaders]
        rw [heq]
        exact .keyed hij rq pre post sink cancel
  · obtain rfl := hrq.eq (hkeyed.keyAt_others hij)
    exact .same _ fun hbad => absurd hbad hij

include h

/-- The polled states of two turns. -/
theorem polled_twin {s : LoopState k.c} {t : LoopState k'.c} (hs : StateTwin true Eq Rel k k' s t) :
    StateTwin true Eq Rel k k' (k.polled s) (k'.polled t) :=
  { hs with world := (poll_twin h hs.world).2 }

/-- A request of one turn, and the request in its place in the other. -/
theorem turnRequest_twin {s : LoopState k.c} {t : LoopState k'.c}
    (hs : StateTwin true Eq Rel k k' s t) {rq rq' : HttpRequest} {sink cancel cancel' : Bool}
    (hrq : .perform rq sink cancel ∈ k.turnActs s)
    (hrq' : .perform rq' sink cancel' ∈ k'.turnActs t) : RequestTwin k.c k'.c s.i.val rq rq' := by
  rcases k.turn_request hrq with ⟨hsink, s1, hprep⟩ | ⟨hsink, url, hurl, rfl⟩
  · rcases k'.turn_request hrq' with ⟨-, t1, hprep'⟩ | ⟨hnosink, -⟩
    · obtain ⟨hend, -⟩ := prepare_twin h (polled_twin h hs)
      have hi : (k.prepare (k.polled s)).2.i = s.i := by
        obtain ⟨bodies, headers, env, hs1⟩ := (k.prepare_spec (k.polled s)).1
        rw [hs1]
        rfl
      rw [hi, hprep, hprep'] at hend
      cases hend with
      | ok hrq => exact hrq
    · rw [hsink] at hnosink
      cases hnosink
  · rcases k'.turn_request hrq' with ⟨hyes, -⟩ | ⟨-, url', hurl', rfl⟩
    · rw [hsink] at hyes
      cases hyes
    · rw [← (h.backend hs.i).urlAbort, hurl] at hurl'
      cases hurl'
      exact assistRequest_twin h hs.i hurl

include hkeyed

/-- One turn of both runs: everything but the key is the same. -/
theorem turn_keyed {s : LoopState k.c} {t : LoopState k'.c} (hs : StateTwin true Eq Rel k k' s t) :
    List.Forall₂ (ActKeyed j key key' s.i.val) (k.turnActs s) (k'.turnActs t) := by
  have hreached : StateTwin true Eq Rel k k' (reached (k.step s)) (reached (k'.step t)) := by
    have hstep := step_twin h hs
    generalize k.step s = out, k'.step t = out' at hstep
    cases hstep with
    | inl hnext => exact hnext
    | inr hend => exact hend
  have hlength : s.world.acts.length = t.world.acts.length := List.Forall₂.length_eq hs.world.log
  have hnew : List.Forall₂ (ActTwin true k.c k'.c) (k.turnActs s) (k'.turnActs t) := by
    unfold turnActs
    rw [← hlength]
    exact List.forall₂_drop _ hreached.world.log
  obtain ⟨hlen, hpairs⟩ := List.forall₂_iff_zip.mp hnew
  refine List.forall₂_iff_zip.mpr ⟨hlen, fun {a a'} hmem => ?_⟩
  obtain ⟨ha, ha'⟩ := List.of_mem_zip hmem
  have hrequest : ∀ {rq rq' sink cancel}, a = .perform rq sink cancel →
      a' = .perform rq' sink cancel → ActKeyed j key key' s.i.val a a' := by
    rintro rq rq' sink cancel rfl rfl
    exact request_keyed hkeyed s.i.isLt (turnRequest_twin h hs ha ha') sink cancel
  cases hpairs hmem with
  | same _ =>
      cases a with
      | perform rq sink cancel => exact hrequest rfl rfl
      | _ => exact .same _ fun _ hbad => nomatch hbad
  | perform _ sink cancel => exact hrequest rfl rfl
  | onAttempt hrecord =>
      rw [hrecord.same rfl]
      exact .same _ fun _ hbad => nomatch hbad
  | debug hrecord =>
      rw [hrecord.same rfl]
      exact .same _ fun _ hbad => nomatch hbad

/-! ## Two calls of a session -/

omit h hkeyed in
/-- The worlds of two requests look alike before they start. -/
theorem fresh_twin (k k' : Call σ) {s t : σ} (hst : Rel s t) :
    WorldTwin (.lockstep true k.c k'.c Eq Rel) ⟨s, []⟩ ⟨t, []⟩ where
  env := hst
  log := .nil

/-- The turns of both calls: each is on the same backend. -/
theorem turns_keyed (ordinal : UInt32) {s t : σ} (hst : Rel s t) :
    List.Forall₂ (TurnKeyed j key key') (k.turns ordinal ⟨s, []⟩) (k'.turns ordinal ⟨t, []⟩) := by
  have henter := enter_twin h ordinal (fresh_twin k k' hst)
  unfold turns
  generalize k.enter ordinal ⟨s, []⟩ = out at henter
  generalize k'.enter ordinal ⟨t, []⟩ = out' at henter
  cases henter with
  | inl _ => exact .nil
  | inr hstart =>
      obtain ⟨htrail, -⟩ := Loop.trail_twin (L := k.attemptLoop) (M := k'.attemptLoop)
        (fun _ _ hs => step_twin h hs) hstart
      refine List.forall₂_map_left_iff.mpr (List.forall₂_map_right_iff.mpr ?_)
      exact htrail.imp fun x y hxy => ⟨hxy.i, turn_keyed h hkeyed hxy⟩

omit hkeyed in
/-- Both calls take a number, or neither does. -/
theorem counted_twin (ordinal : UInt32) {s t : σ} (hst : Rel s t) :
    k.counted ordinal ⟨s, []⟩ = k'.counted ordinal ⟨t, []⟩ := by
  have henter := enter_twin h ordinal (fresh_twin k k' hst)
  unfold counted
  generalize k.enter ordinal ⟨s, []⟩ = out at henter
  generalize k'.enter ordinal ⟨t, []⟩ = out' at henter
  cases henter with
  | inl _ => rfl
  | inr _ => rfl

omit hkeyed in
/-- Both calls end alike. -/
theorem ends_keyed (ordinal : UInt32) {s t : σ} (hst : Rel s t) :
    (k.run ordinal ⟨s, []⟩).status = (k'.run ordinal ⟨t, []⟩).status ∧
      (k.run ordinal ⟨s, []⟩).result = (k'.run ordinal ⟨t, []⟩).result ∧
      Rel (k.run ordinal ⟨s, []⟩).world.env (k'.run ordinal ⟨t, []⟩).world.env := by
  have hrun := run_twin h ordinal (fresh_twin k k' hst)
  generalize k.run ordinal ⟨s, []⟩ = e, k'.run ordinal ⟨t, []⟩ = e' at hrun
  cases hrun with
  | returned st hout hw =>
      refine ⟨rfl, ?_, hw.env⟩
      cases hout with
      | none => rfl
      | some hr => exact congrArg some hr.eq
  | fault hw => exact ⟨rfl, rfl, hw.env⟩

end Call

/-! ## Two sessions -/

/-- A request through the two clients. -/
theorem call_keyed (h : c.Keyed j key key' c') (hblind : Blind Rel H c)
    (hkeys : KeyAlike H H Rel 8 (some key) (some key')) (hlength : key.length ≤ 503)
    (hlength' : key'.length ≤ 503) {ask : Ask σ}
    (hask : ask.Alike Rel) (Y : Yyjson) :
    Option.Rel (fun k k' : Call σ => k.c = c ∧ k'.c = c' ∧ k.Twin true Eq Rel k')
      (ask.call Y H c) (ask.call Y H c') := by
  unfold Ask.call
  cases ask.haveOut with
  | false => exact .none
  | true =>
      cases ask.req with
      | none => exact .none
      | some req => exact .some ⟨rfl, rfl, ask_twin h hblind hkeys hlength hlength' hask Y req⟩

/-- Two requests that were made alike, but for the key. -/
structure MadeKeyed (j : Nat) (key key' : Bytes) (m m' : Made σ) : Prop where
  turns : List.Forall₂ (TurnKeyed j key key') m.turns m'.turns
  acts : m.ends.world.acts = m.turns.flatMap Prod.snd
  acts' : m'.ends.world.acts = m'.turns.flatMap Prod.snd
  status : m.ends.status = m'.ends.status
  result : m.ends.result = m'.ends.result

/-- Requests that were made alike returned alike. -/
theorem statuses_keyed {ms ms' : List (Made σ)} (h : List.Forall₂ (MadeKeyed j key key') ms ms') :
    (ms.map fun m => m.ends.status) = ms'.map fun m => m.ends.status := by
  rw [← List.forall₂_eq_eq_eq]
  refine List.forall₂_map_left_iff.mpr (List.forall₂_map_right_iff.mpr ?_)
  exact h.imp fun _ _ hm => hm.status

/-- One request through the two clients. -/
theorem made_keyed (h : c.Keyed j key key' c') (hblind : Blind Rel H c)
    (hkeys : KeyAlike H H Rel 8 (some key) (some key')) (hlength : key.length ≤ 503)
    (hlength' : key'.length ≤ 503) {ask : Ask σ}
    (hask : ask.Alike Rel) (Y : Yyjson) (ordinal : UInt32) {s t : σ} (hst : Rel s t) :
    MadeKeyed j key key' (ask.made Y H c ordinal s) (ask.made Y H c' ordinal t) ∧
      (ask.made Y H c ordinal s).next = (ask.made Y H c' ordinal t).next ∧
      Rel (ask.made Y H c ordinal s).ends.world.env (ask.made Y H c' ordinal t).ends.world.env := by
  have hcall := call_keyed h hblind hkeys hlength hlength' hask Y
  unfold Ask.made
  generalize ask.call Y H c = o, ask.call Y H c' = o' at hcall
  cases hcall with
  | none => exact ⟨⟨.nil, rfl, rfl, rfl, rfl⟩, rfl, hst⟩
  | @some k k' hk =>
      obtain ⟨rfl, rfl, htwin⟩ := hk
      obtain ⟨hstatus, hresult, henv⟩ := Call.ends_keyed htwin ordinal hst
      exact ⟨⟨Call.turns_keyed htwin h ordinal hst, k.acts_eq_turns ordinal _,
        k'.acts_eq_turns ordinal _, hstatus, hresult⟩, Call.counted_twin htwin ordinal hst, henv⟩

/-- Any number of requests through the two clients. -/
theorem session_keyed (h : c.Keyed j key key' c') (hblind : Blind Rel H c)
    (hkeys : KeyAlike H H Rel 8 (some key) (some key')) (hlength : key.length ≤ 503)
    (hlength' : key'.length ≤ 503) (Y : Yyjson) {asks : List (Ask σ)}
    (hasks : ∀ ask ∈ asks, ask.Alike Rel) (ordinal : UInt32) {s t : σ} (hst : Rel s t) :
    List.Forall₂ (MadeKeyed j key key') (session Y H c asks ordinal s)
      (session Y H c' asks ordinal t) := by
  induction asks generalizing ordinal s t with
  | nil => exact .nil
  | cons ask asks ih =>
      obtain ⟨hmade, hnext, henv⟩ := made_keyed h hblind hkeys hlength hlength'
        (hasks ask List.mem_cons_self) Y ordinal hst
      unfold session
      dsimp only
      rw [hmade.status, hnext]
      refine .cons hmade ?_
      split_ifs
      · exact .nil
      · exact ih (fun a ha => hasks a (List.mem_cons_of_mem ask ha)) _ henv

/-- Two clients created from the same options but for the key of one backend, and any number of
requests through both: they do the same, but that the requests of the turns on that backend carry
the one key or the other in their Authorization header. -/
theorem key_isolation {Y : Yyjson} {P : Platform σ} {o : ClientOpts σ} {s0 s1 t0 t1 : σ}
    (hc : (clientCreate Y P H true (some (o.withKey j key))).exec s0 = (.ok c, s1))
    (hc' : (clientCreate Y P H true (some (o.withKey j key'))).exec t0 = (.ok c', t1))
    (hseed : o.prngSeed ≠ 0) (hlength : key.length ≤ 503) (hlength' : key'.length ≤ 503)
    (hdebug : c.debug = c'.debug) (hblind : Blind Rel H c)
    (hkeys : KeyAlike H H Rel 8 (some key) (some key')) {asks : List (Ask σ)}
    (hasks : ∀ ask ∈ asks, ask.Alike Rel) (ordinal : UInt32) {s t : σ} (hst : Rel s t) :
    List.Forall₂ (MadeKeyed j key key') (session Y H c asks ordinal s)
      (session Y H c' asks ordinal t) := by
  obtain ⟨_, hopts, hcreated⟩ := (clientCreate_created Y P H true _).value hc
  obtain ⟨_, hopts', hcreated'⟩ := (clientCreate_created Y P H true _).value hc'
  cases hopts
  cases hopts'
  exact session_keyed (created_keyed hcreated hcreated' hseed hdebug) hblind hkeys hlength hlength'
    Y hasks ordinal hst

end Keyed

end Runs

/-! ## Two keys of a plain client -/

section Plain

attribute [local instance] lp64

/-- The client of the options with another key. -/
def keyedClient (key : Bytes) : Client Unit :=
  { keyClient with
    backends := [{ keyBackend with apiKey := some key }]
    backends_ne := List.cons_ne_nil _ _ }

/-- A key of forty bytes. -/
def longKey : Bytes :=
  List.replicate 40 107

/-- An allocator that has no block of one size. -/
def withoutBlock (size : Nat) : Heap Unit where
  alloc n s := (n != size, s)

/-- A plain request without callbacks. -/
def plainAsk : Ask Unit where
  req := some plainRequest
  cbs := none
  cancel := none
  haveOut := true
  stream := false

/-- The plain question is like itself. -/
theorem plainAsk_alike : plainAsk.Alike Eq where
  data := ⟨fun ch => by cases ch <;> exact .none, .none⟩
  validate := nofun
  onAttempt := nofun
  cancel := nofun

/-- So are two of them. -/
theorem plainAsks_alike : ∀ ask ∈ [plainAsk, plainAsk], ask.Alike Eq := by
  intro ask hask
  simp only [List.mem_cons, List.not_mem_nil, or_false, or_self] at hask
  exact hask ▸ plainAsk_alike

/-- The transport of the options looks at no header, and its clock stands still. -/
theorem keyedClient_blind (H : Heap Unit) (key : Bytes) : Blind Eq H (keyedClient key) where
  heap _ _ _ _ := ⟨rfl, rfl⟩
  transport rq _ sink cancel _ _ s _ _ :=
    Dialogue.twin_refl ((keyedClient key).transport.perform rq sink cancel s)
  now _ _ _ := ⟨fun _ => rfl, rfl⟩
  wait _ _ _ _ _ _ := ⟨rfl, rfl⟩

/-- Two requests through two clients with a short key and a long one. -/
theorem key_isolation_plain :
    let short := session (plainYyjson [] .null) Heap.plentiful (keyedClient (ascii "k"))
      [plainAsk, plainAsk] 0 ()
    let long := session (plainYyjson [] .null) Heap.plentiful (keyedClient longKey)
      [plainAsk, plainAsk] 0 ()
    (short.map fun made => made.turns.length) = [1, 1] ∧
      List.Forall₂ (MadeKeyed 0 (ascii "k") longKey) short long := by
  have hcreate : (clientCreate (plainYyjson [] .null) plainPlatform Heap.plentiful true
      (some (keyOpts.withKey 0 (ascii "k")))).exec () = (.ok (keyedClient (ascii "k")), ()) := rfl
  have hcreate' : (clientCreate (plainYyjson [] .null) plainPlatform Heap.plentiful true
      (some (keyOpts.withKey 0 longKey))).exec () = (.ok (keyedClient longKey), ()) := rfl
  exact ⟨by decide +kernel, key_isolation hcreate hcreate' (by decide) (by decide) (by decide) rfl
    (keyedClient_blind _ _) (.some fun _ _ _ => ⟨rfl, rfl⟩) plainAsks_alike 0 rfl⟩

/-- An allocator may have room for the one key and none for the other: with the short key the
request is made, and with the long one it is not. -/
theorem key_length_shows :
    (clientCreate (plainYyjson [] .null) plainPlatform (withoutBlock 48) true
        (some (keyOpts.withKey 0 (ascii "k")))).exec () = (.ok (keyedClient (ascii "k")), ()) ∧
      (clientCreate (plainYyjson [] .null) plainPlatform (withoutBlock 48) true
        (some (keyOpts.withKey 0 longKey))).exec () = (.ok (keyedClient longKey), ()) ∧
      keyOpts.prngSeed ≠ 0 ∧ (ascii "k").length ≤ 503 ∧ longKey.length ≤ 503 ∧
      Blind Eq (withoutBlock 48) (keyedClient (ascii "k")) ∧
      (∀ ask ∈ [plainAsk, plainAsk], ask.Alike Eq) ∧
      ¬ List.Forall₂ (MadeKeyed 0 (ascii "k") longKey)
        (session (plainYyjson [] .null) (withoutBlock 48) (keyedClient (ascii "k"))
          [plainAsk, plainAsk] 0 ())
        (session (plainYyjson [] .null) (withoutBlock 48) (keyedClient longKey)
          [plainAsk, plainAsk] 0 ()) := by
  refine ⟨rfl, rfl, by decide, by decide, by decide, keyedClient_blind _ _, plainAsks_alike, ?_⟩
  intro hmade
  have hstatuses := statuses_keyed hmade
  revert hstatuses
  decide +kernel

end Plain

end Sicha
