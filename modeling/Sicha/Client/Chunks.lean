import Sicha.Client.Lockstep
import Sicha.Response.Agree
import Sicha.Sse.Partition

/-!
# Bodies in pieces

A transport may cut a body into pieces as it likes.  Two calls whose transports play the same
exchanges, cut differently, are compared.  How much of a refused body was kept depends on the
pieces, so the excerpts of the records are left out of the comparison, and callbacks that act on
them are too.

Main results:

- Definition {lit}`scriptedTransport`: a transport that plays exchanges.
- Theorem {lit}`pieces_twin`: only the bytes of a body matter.
- Theorem {lit}`chat_chunks`: two such calls make the same callbacks and end alike.
- Theorem {lit}`excerpt_shows_chunks`: with a callback that acts on an excerpt they need not.
-/

namespace Sicha

/-- An exchange that a transport plays.  Its body is one object in memory, with a NUL. -/
structure Scripted [SizeT] where
  httpStatus : Int
  headers : List HeaderRef
  body : Bytes
  final : TransportStatus
  body_fits : body.length < sizeMax

section Runs

variable [SizeT] {σ τ : Type}

/-! ## The transport -/

/-- The pieces of a body, until the sink says stop; then the final code. -/
def playPieces (final : TransportStatus) :
    List Bytes → σ → Dialogue σ SinkCall Int TransportStatus
  | [], s => .done final s
  | piece :: pieces, s =>
      .ask (.body piece) s fun rc s =>
        if rc = 0 then playPieces final pieces s else .done .abortedBySink s

/-- An exchange with the pieces of its body. -/
def playScripted (x : Scripted) (pieces : List Bytes) (s : σ) :
    Dialogue σ SinkCall Int TransportStatus :=
  .ask (.status x.httpStatus x.headers) s fun rc s =>
    if rc = 0 then playPieces x.final pieces s else .done .abortedBySink s

/-- A transport that plays one exchange after the other, the bodies cut by {lit}`cut`. -/
def scriptedTransport (next : HttpRequest → σ → Scripted × σ) (cut : σ → Bytes → List Bytes) :
    Transport σ where
  perform rq sink _ s :=
    let x := next rq s
    if sink then playScripted x.1 (cut s x.1.body) x.2 else .done x.1.final x.2

/-- The status line first, then the pieces. -/
theorem playScripted_run (Y : Yyjson) (H : Heap σ) (cbs : Option (Callbacks σ)) (stream : Bool)
    (x : Scripted) (pieces : List Bytes) (s : σ) (i : SinkW σ) :
    (playScripted x pieces s).run (attemptSink Y H cbs stream) i =
      (playPieces x.final pieces s).run (attemptSink Y H cbs stream)
        { i with io := attemptOnStatus i.io x.httpStatus x.headers } :=
  rfl

/-! ## Streaming -/

section Stream

variable (Y : Yyjson) (H : Heap σ) (cbs : Option (Callbacks σ))

/-- Nothing to read. -/
theorem attemptOnBodyStream_nil {i : SinkW σ} (hi : i.io.sse.err = .ok) (s : σ) :
    attemptOnBodyStream Y H cbs [] i s = (0, i, s) := by
  unfold attemptOnBodyStream
  rw [sseFeed_eq_run _ _ _ hi]
  rfl

/-- Two pieces, one after the other. -/
theorem attemptOnBodyStream_append (xs ys : Bytes) {i : SinkW σ} (hi : i.io.sse.err = .ok) (s : σ) :
    attemptOnBodyStream Y H cbs (xs ++ ys) i s =
      let out := attemptOnBodyStream Y H cbs xs i s
      if out.1 = 0 then attemptOnBodyStream Y H cbs ys out.2.1 out.2.2 else out := by
  have herr := @sseFeed_err _ _ (streamHeap H) (some (streamOnEvent Y H cbs)) xs i.io.sse
    (i.streamW s)
  have hfirst := sseFeed_eq_run (streamHeap H) (some (streamOnEvent Y H cbs)) xs hi (i.streamW s)
  unfold attemptOnBodyStream
  dsimp only
  rw [sseFeed_eq_run _ _ (xs ++ ys) hi, StopFold.run_append, ← hfirst]
  generalize sseFeed (streamHeap H) (some (streamOnEvent Y H cbs)) i.io.sse xs (i.streamW s) = out
    at herr
  obtain ⟨rc, p, w⟩ := out
  by_cases hrc : rc = 0
  · subst hrc
    have hp : p.err = .ok := herr rfl
    simp only [if_true, ne_eq, not_true_eq_false, if_false]
    rw [← sseFeed_eq_run _ _ ys hp]
    rfl
  · simp [hrc]

/-- A stream that goes on has a parser without an error. -/
theorem attemptOnBodyStream_err {bytes : Bytes} {i : SinkW σ} {s : σ}
    (h : (attemptOnBodyStream Y H cbs bytes i s).1 = 0) :
    (attemptOnBodyStream Y H cbs bytes i s).2.1.io.sse.err = .ok := by
  unfold attemptOnBodyStream at h ⊢
  dsimp only at h ⊢
  split_ifs at h ⊢ with hrc
  · exact absurd h Int.one_ne_zero
  · exact sseFeed_err (not_not.mp hrc)

/-- A stream is read byte by byte, so its pieces do not matter. -/
theorem stream_pieces (final : TransportStatus) (pieces : List Bytes) (s : σ) {i : SinkW σ}
    (hi : i.io.sse.err = .ok) :
    (playPieces final pieces s).run (attemptSink Y H cbs true) i =
      (playPieces final [pieces.flatten] s).run (attemptSink Y H cbs true) i := by
  induction pieces generalizing s i with
  | nil =>
      simp only [playPieces, Dialogue.run, List.flatten_nil, attemptSink, if_true]
      rw [attemptOnBodyStream_nil Y H cbs hi]
      rfl
  | cons piece pieces ih =>
      have herr := @attemptOnBodyStream_err _ _ Y H cbs piece i s
      simp only [playPieces, Dialogue.run, List.flatten_cons, attemptSink, if_true] at ih ⊢
      rw [attemptOnBodyStream_append Y H cbs _ _ hi]
      generalize attemptOnBodyStream Y H cbs piece i s = out at herr
      obtain ⟨rc, i', s'⟩ := out
      by_cases hrc : rc = 0
      · simp only [hrc, if_true]
        exact ih s' (herr hrc)
      · simp only [hrc, if_false, Dialogue.run]

end Stream

/-! ## Whole bodies -/

/-- An append to a buffer that can hold it in memory. -/
theorem bufAppend_room {H : Heap σ} (hH : H.Reliable) {b : Buf} (herr : b.err = .ok)
    (hpos : 0 < b.maxLen) {xs : Bytes} (hfits : b.len + xs.length < sizeMax) (s : σ) :
    (bufAppend H b xs s).1.view =
      if b.len + xs.length ≤ b.maxLen then ⟨b.bytes ++ xs, b.maxLen, .ok⟩
      else ⟨b.bytes, b.maxLen, .tooBig⟩ := by
  rw [bufAppend_view hH]
  unfold CappedBytes.append CappedBytes.fail
  simp only [Buf.view_err, Buf.view_bytes, Buf.view_maxLen, Buf.bytes_length]
  rw [if_neg (not_not.mpr herr), if_neg (by omega)]
  by_cases hcap : b.len + xs.length ≤ b.maxLen
  · rw [if_neg (by omega), if_neg (by omega), if_pos hcap, herr]
  · rw [if_pos ⟨by omega, by omega⟩, if_neg hcap]

/-- What a sink has made of the pieces of a body: all of it, or it has refused one. -/
structure BodyKept (final : TransportStatus) (b : Buf) (body : Bytes) (ts : TransportStatus)
    (b' : Buf) : Prop where
  fits : b.len + body.length ≤ b.maxLen → ts = final ∧ b'.view = ⟨b.bytes ++ body, b.maxLen, .ok⟩
  refused : b.maxLen < b.len + body.length → ts = .abortedBySink ∧ b'.err = .tooBig

/-- A body is collected or refused, and nothing else of the attempt changes. -/
theorem body_pieces {H : Heap σ} (hH : H.Reliable) {P : σ → Prop}
    (hP : ∀ n s, P s → P (H.alloc n s).2) (Y : Yyjson) (cbs : Option (Callbacks σ))
    (final : TransportStatus) (pieces : List Bytes) {s : σ} (hs : P s) {i : SinkW σ}
    (hi : i.io.body.err = .ok) (hpos : 0 < i.io.body.maxLen)
    (hcap : i.io.body.len ≤ i.io.body.maxLen)
    (hfits : i.io.body.len + pieces.flatten.length < sizeMax) :
    let out := (playPieces final pieces s).run (attemptSink Y H cbs false) i
    BodyKept final i.io.body pieces.flatten out.1 out.2.1.io.body ∧
      out.2.1 = { i with io := { i.io with body := out.2.1.io.body } } ∧ P out.2.2 := by
  induction pieces generalizing s i with
  | nil =>
      have hview : i.io.body.view = ⟨i.io.body.bytes ++ [], i.io.body.maxLen, .ok⟩ := by
        rw [List.append_nil, ← hi]
        rfl
      refine ⟨⟨fun _ => ⟨rfl, hview⟩, fun hover => ?_⟩, rfl, hs⟩
      simp only [List.flatten_nil, List.length_nil] at hover
      omega
  | cons piece pieces ih =>
      rw [List.flatten_cons, List.length_append] at hfits
      have hle : i.io.body.len + piece.length < sizeMax := by omega
      have hpiece := bufAppend_room hH hi hpos hle s
      have henv := bufAppend_keeps hP i.io.body piece hs
      simp only [playPieces, Dialogue.run, attemptSink, attemptOnBodyBuffer, Bool.false_eq_true,
        if_false, bufStatus] at ih ⊢
      generalize bufAppend H i.io.body piece s = out at hpiece henv
      obtain ⟨b, s'⟩ := out
      by_cases hroom : i.io.body.len + piece.length ≤ i.io.body.maxLen
      · rw [if_pos hroom] at hpiece
        have hbytes : b.bytes = i.io.body.bytes ++ piece := congrArg CappedBytes.bytes hpiece
        have hmax : b.maxLen = i.io.body.maxLen := congrArg CappedBytes.maxLen hpiece
        have herr : b.err = .ok := congrArg CappedBytes.err hpiece
        have hlen : b.len = i.io.body.len + piece.length := by
          rw [← b.bytes_length, hbytes, List.length_append, Buf.bytes_length]
        simp only [herr, if_true]
        obtain ⟨hkeptBody, hsame, hend⟩ := @ih s' henv { i with io := { i.io with body := b } } herr
          (hmax ▸ hpos) (by dsimp only; omega) (by dsimp only; omega)
        refine ⟨⟨fun hle => ?_, fun hover => ?_⟩, hsame, hend⟩
        · rw [List.flatten_cons, List.length_append] at hle
          obtain ⟨hts, hview⟩ := hkeptBody.fits (by dsimp only; omega)
          refine ⟨hts, ?_⟩
          rw [hview, hbytes, hmax, List.append_assoc, List.flatten_cons]
        · rw [List.flatten_cons, List.length_append] at hover
          exact hkeptBody.refused (by dsimp only; omega)
      · rw [if_neg hroom] at hpiece
        have herr : b.err = .tooBig := congrArg CappedBytes.err hpiece
        simp only [herr, reduceCtorEq, if_false, Int.one_ne_zero, Dialogue.run]
        refine ⟨⟨fun hle => ?_, fun _ => ⟨rfl, herr⟩⟩, trivial, henv⟩
        rw [List.flatten_cons, List.length_append] at hle
        omega

/-! ## Two sets of pieces -/

/-- An attempt before the first piece of its body. -/
structure FreshIo (cap : Nat) (io : AttemptIo) : Prop where
  sse : io.sse.err = .ok
  body : io.body = bufInit cap

/-- A status line leaves the parser and the body alone. -/
theorem FreshIo.onStatus {cap : Nat} {io : AttemptIo} (h : FreshIo cap io) (httpStatus : Int)
    (headers : List HeaderRef) : FreshIo cap (attemptOnStatus io httpStatus headers) := by
  obtain ⟨_, _, hnoted⟩ := foldl_noteRetryAfter { io with httpStatus := httpStatus } headers
  unfold attemptOnStatus
  rw [hnoted]
  exact ⟨h.sse, h.body⟩

/-- A new attempt has received nothing. -/
theorem attemptIoInit_fresh (c : Client σ) (r : Result) (stream accumulate : Bool) :
    FreshIo c.maxResponseBytes (attemptIoInit c r stream accumulate) := by
  cases stream <;> exact ⟨rfl, rfl⟩

/-- What a dialogue with the sink leaves of an exchange. -/
def played (out : TransportStatus × SinkW σ × σ) : Exchange σ where
  ts := out.1
  latencyMs := 0
  io := out.2.1.io
  world := { env := out.2.2, log := out.2.1.log }

section Lockstep

variable {c : Client σ} {c' : Client τ} {Rel : σ → τ → Prop} {H : Heap σ} {K : Heap τ}
  (hH : H.Reliable) (hK : K.Reliable) (hleft : ∀ n s t, Rel s t → Rel (H.alloc n s).2 t)
  (hright : ∀ n s t, Rel s t → Rel s (K.alloc n t).2) {cbs : Option (Callbacks σ)}
  {cbs' : Option (Callbacks τ)} (hcbs : DataTwin Rel cbs cbs') (Y : Yyjson)

include hH hK hleft hright

/-- However a body is cut, a sink collects the same of it. -/
theorem bodyKept_twin {cap : Nat} (hcap : 0 < cap) (final : TransportStatus)
    {pieces pieces' : List Bytes} (hsame : pieces.flatten = pieces'.flatten)
    (hfits : pieces.flatten.length < sizeMax) {i : SinkW σ} {s : σ} {j : SinkW τ} {t : τ}
    (h : SinkTwin (.lockstep false c c' SameView Rel) i s j t) (hi : FreshIo cap i.io)
    (hj : FreshIo cap j.io) :
    ExchangeTwin (.lockstep false c c' SameView Rel) false
      (played ((playPieces final pieces s).run (attemptSink Y H cbs false) i))
      (played ((playPieces final pieces' t).run (attemptSink Y K cbs' false) j)) := by
  have hready : ∀ {io : AttemptIo}, FreshIo cap io → io.body.err = .ok ∧ io.body.maxLen = cap ∧
      io.body.len = 0 ∧ io.body.bytes = [] := by
    rintro io ⟨-, hbody⟩
    rw [hbody]
    exact ⟨rfl, rfl, rfl, rfl⟩
  obtain ⟨herr, hmax, hlen, hbytes⟩ := hready hi
  obtain ⟨herr', hmax', hlen', hbytes'⟩ := hready hj
  obtain ⟨hkeptBody, hkept, hrel⟩ := body_pieces hH (P := fun s => Rel s t)
    (fun n s hs => hleft n s t hs) Y cbs final pieces h.world.env herr (by omega) (by omega)
    (by omega)
  generalize (playPieces final pieces s).run (attemptSink Y H cbs false) i = out
    at hkeptBody hkept hrel ⊢
  obtain ⟨hkeptBody', hkept', hrel'⟩ := body_pieces hK (P := fun t => Rel out.2.2 t)
    (fun n t ht => hright n _ t ht) Y cbs' final pieces' hrel herr' (by omega) (by omega)
    (by rw [← hsame]; omega)
  generalize (playPieces final pieces' t).run (attemptSink Y K cbs' false) j = out'
    at hkeptBody' hkept' hrel' ⊢
  have hio : out.2.1.io = { i.io with body := out.2.1.io.body } := (congrArg SinkW.io hkept :)
  have hio' : out'.2.1.io = { j.io with body := out'.2.1.io.body } := (congrArg SinkW.io hkept' :)
  have hlog : out.2.1.log = i.log := (congrArg SinkW.log hkept :)
  have hlog' : out'.2.1.log = j.log := (congrArg SinkW.log hkept' :)
  have hends : out.1 = out'.1 ∧ (SameView out.2.1.io.body out'.2.1.io.body ∨
      (out.1 = .abortedBySink ∧ out.2.1.io.body.err = out'.2.1.io.body.err)) := by
    rw [← hsame] at hkeptBody'
    by_cases hroom : pieces.flatten.length ≤ cap
    · obtain ⟨hts, hview⟩ := hkeptBody.fits (by omega)
      obtain ⟨hts', hview'⟩ := hkeptBody'.fits (by omega)
      rw [hbytes, hmax, ← hbytes', ← hmax', ← hview'] at hview
      exact ⟨hts.trans hts'.symm, .inl hview⟩
    · obtain ⟨hts, hbig⟩ := hkeptBody.refused (by omega)
      obtain ⟨hts', hbig'⟩ := hkeptBody'.refused (by omega)
      exact ⟨hts.trans hts'.symm, .inr ⟨hts, hbig.trans hbig'.symm⟩⟩
  refine ⟨hends.1, ?_, hends.2.imp_right fun ⟨hstop, herr⟩ => ⟨hstop, rfl, herr⟩, ?_⟩
  · dsimp only [played]
    rw [hio, hio']
    exact ⟨h.io.r, h.io.ctx, h.io.sse, h.io.httpStatus, h.io.retryAfter, h.io.haveRetryAfter,
      h.io.sseRc⟩
  · dsimp only [played]
    rw [hlog, hlog']
    exact h.world.setEnv hrel'

include hcbs

/-- Only the bytes of a body matter, not how they are cut. -/
theorem pieces_twin {cap : Nat} (hcap : 0 < cap) (stream : Bool) (final : TransportStatus)
    {pieces pieces' : List Bytes} (hsame : pieces.flatten = pieces'.flatten)
    (hfits : pieces.flatten.length < sizeMax) {i : SinkW σ} {s : σ} {j : SinkW τ} {t : τ}
    (h : SinkTwin (.lockstep false c c' SameView Rel) i s j t) (hi : FreshIo cap i.io)
    (hj : FreshIo cap j.io) :
    ExchangeTwin (.lockstep false c c' SameView Rel) stream
      (played ((playPieces final pieces s).run (attemptSink Y H cbs stream) i))
      (played ((playPieces final pieces' t).run (attemptSink Y K cbs' stream) j)) := by
  cases stream with
  | false => exact bodyKept_twin hH hK hleft hright Y hcap final hsame hfits h hi hj
  | true =>
      have hheaps : HeapTwins SameView H K Rel := .of_reliable hH hK hleft hright
      have hwhole : (playPieces final [pieces.flatten] s).Twin Rel
          (playPieces final [pieces'.flatten] t) := by
        refine ⟨congrArg SinkCall.body hsame, h.world.env, fun rc s' t' hst => ?_⟩
        dsimp only [playPieces]
        split_ifs
        · exact ⟨rfl, hst⟩
        · exact ⟨rfl, hst⟩
      rw [stream_pieces Y H cbs final pieces s hi.sse,
        stream_pieces Y K cbs' final pieces' t hj.sse]
      obtain ⟨hts, hend⟩ := Dialogue.run_twin (fun h => h.world.env)
        (fun h hrel => ⟨h.io, h.body, h.world.setEnv hrel⟩) (attemptSink_twin hheaps hcbs Y true)
        _ hwhole h
      exact ⟨hts, hend.io, .inl hend.body, hend.world⟩

/-- A whole exchange, its body cut in two ways. -/
theorem scripted_twin {cap : Nat} (hcap : 0 < cap) (stream : Bool) (x : Scripted)
    {pieces pieces' : List Bytes} (hpieces : pieces.flatten = x.body)
    (hpieces' : pieces'.flatten = x.body) {i : SinkW σ} {s : σ} {j : SinkW τ} {t : τ}
    (h : SinkTwin (.lockstep false c c' SameView Rel) i s j t) (hi : FreshIo cap i.io)
    (hj : FreshIo cap j.io) :
    ExchangeTwin (.lockstep false c c' SameView Rel) stream
      (played ((playScripted x pieces s).run (attemptSink Y H cbs stream) i))
      (played ((playScripted x pieces' t).run (attemptSink Y K cbs' stream) j)) := by
  have hheaps : HeapTwins SameView H K Rel := .of_reliable hH hK hleft hright
  have hstatus := (attemptSink_twin hheaps hcbs Y stream (.status x.httpStatus x.headers) h).2
  have hfits : pieces.flatten.length < sizeMax := hpieces ▸ x.body_fits
  rw [playScripted_run, playScripted_run]
  exact pieces_twin hH hK hleft hright hcbs Y hcap stream x.final (hpieces.trans hpieces'.symm)
    hfits hstatus (hi.onStatus _ _) (hj.onStatus _ _)

end Lockstep

/-! ## What is compared -/

/-- A result without the latencies and the excerpts of its records, and without the spare room
of its buffers. -/
structure ShownResult where
  text : CappedBytes
  reasoning : CappedBytes
  finishRaw : Option Bytes
  finish : FinishReason
  promptTokens : Int
  completionTokens : Int
  totalTokens : Int
  model : Option Bytes
  rawBody : Option Bytes
  rest : ResultRest

/-- What is shown of a result. -/
def Result.shown (r : Result) : ShownResult where
  text := r.text.view
  reasoning := r.reasoning.view
  finishRaw := r.finishRaw
  finish := r.finish
  promptTokens := r.promptTokens
  completionTokens := r.completionTokens
  totalTokens := r.totalTokens
  model := r.model
  rawBody := r.rawBody
  rest := { r.rest with attempts := r.attempts.map Attempt.masked }

/-- An action, the latency and the excerpt of a record aside. -/
def Act.masked : Act → Act
  | .onAttempt a => .onAttempt a.masked
  | act => act

omit [SizeT] in
/-- Records that agree are the same without latency and excerpt. -/
theorem masked_records {strict : Bool} {xs ys : List Attempt}
    (h : List.Forall₂ (RecordTwin strict) xs ys) :
    xs.map Attempt.masked = ys.map Attempt.masked := by
  induction h with
  | nil => rfl
  | cons hone _ ih => rw [List.map_cons, List.map_cons, hone.masked, ih]

/-- Results that agree show the same. -/
theorem shown_twin {strict : Bool} {c : Client σ} {c' : Client τ} {Rel : σ → τ → Prop}
    {r r' : Result} (h : ContentTwin (.lockstep strict c c' SameView Rel) r r') :
    r.shown = r'.shown := by
  have hrest : { r.rest with attempts := r.attempts.map Attempt.masked } =
      { r'.rest with attempts := r'.attempts.map Attempt.masked } := by
    simp only [ResultRest.mk.injEq]
    exact ⟨h.rest.status, h.rest.backend, masked_records h.rest.attempts, h.rest.capAttempts⟩
  simp only [Result.shown, ShownResult.mk.injEq]
  exact ⟨h.text, h.reasoning, h.finishRaw, h.finish, h.promptTokens, h.completionTokens,
    h.totalTokens, h.model, h.rawBody, hrest⟩

omit [SizeT] in
/-- Logs that agree, with the same keys, show the same. -/
theorem masked_acts {strict : Bool} {c : Client σ} {c' : Client τ}
    (hkeys : ∀ i, c.keyAt i = c'.keyAt i) {acts acts' : List Act}
    (h : List.Forall₂ (ActTwin strict c c') acts acts') :
    (acts.filter Act.visible).map Act.masked = (acts'.filter Act.visible).map Act.masked := by
  induction h with
  | nil => rfl
  | cons hone _ ih =>
      cases hone with
      | same a =>
          rw [List.filter_cons, List.filter_cons]
          split_ifs
          · rw [List.map_cons, List.map_cons, ih]
          · exact ih
      | perform hrq sink cancel =>
          obtain rfl := hrq.eq (hkeys _)
          exact congrArg (_ :: ·) ih
      | onAttempt ha =>
          have hact := congrArg Act.onAttempt ha.masked
          exact congrArg₂ List.cons hact ih
      | debug _ => exact ih

/-! ## Two ways of cutting -/

namespace Call

/-- The call over another transport. -/
def withTransport (k : Call σ) (T : Transport σ) : Call σ :=
  { k with c := { k.c with transport := T } }

/-- A call without a token and without a failing allocation, to play the exchanges of
{lit}`next`.  Its parties answer alike from environments in {lit}`Rel`, so their answers depend
only on what they were asked; but they do not look at how long a response took, or at how much
of a failed one was kept. -/
structure Steady (Rel : σ → σ → Prop) (k : Call σ) (next : HttpRequest → σ → Scripted × σ) :
    Prop where
  cancel : k.cancel = none
  heap : k.H.Reliable
  unseen : ∀ n s t, Rel s t → Rel (k.H.alloc n s).2 t
  unseen' : ∀ n s t, Rel s t → Rel s (k.H.alloc n t).2
  next : ∀ rq s t, Rel s t → (next rq s).1 = (next rq t).1 ∧ Rel (next rq s).2 (next rq t).2
  data : DataTwin Rel k.cbs k.cbs
  validate : ∀ f ∈ k.cbs.bind Callbacks.validate, ∀ r r' s t, r.shown = r'.shown → Rel s t →
    (f r s).1 = (f r' t).1 ∧ Rel (f r s).2 (f r' t).2
  onAttempt : ∀ f ∈ k.cbs.bind Callbacks.onAttempt, ∀ a a' s t, a.masked = a'.masked → Rel s t →
    Rel (f a s) (f a' t)
  now : ∀ s t, Rel s t → Rel (k.c.clock.nowMs s).2 (k.c.clock.nowMs t).2
  wait : ∀ ms s t, Rel s t → (k.c.clock.waitMs none ms s).1 = (k.c.clock.waitMs none ms t).1 ∧
    Rel (k.c.clock.waitMs none ms s).2 (k.c.clock.waitMs none ms t).2

variable {Rel : σ → σ → Prop} {k : Call σ} {next : HttpRequest → σ → Scripted × σ}
  (h : k.Steady Rel next) {cut cut' : σ → Bytes → List Bytes}
  (hcut : ∀ s body, (cut s body).flatten = body) (hcut' : ∀ s body, (cut' s body).flatten = body)

include h

/-- The allocators of a steady call are alike. -/
theorem Steady.heaps : HeapTwins SameView k.H k.H Rel :=
  .of_reliable h.heap h.heap h.unseen h.unseen'

include hcut hcut'

/-- The transports play one exchange, each in its own pieces. -/
theorem play_pieces (rq : HttpRequest) {c c' : Client σ} {r r' : Result}
    (hr : ContentTwin (.lockstep false c c' SameView Rel) r r') {w w' : World σ}
    (hw : WorldTwin (.lockstep false c c' SameView Rel) w w') :
    ExchangeTwin (.lockstep false c c' SameView Rel) k.stream
      (played (((scriptedTransport next cut).perform rq true none w.env).run
        (attemptSink k.Y k.H k.cbs k.stream)
        ⟨attemptIoInit k.c r k.stream k.req.accumulates, w.log⟩))
      (played (((scriptedTransport next cut').perform rq true none w'.env).run
        (attemptSink k.Y k.H k.cbs k.stream)
        ⟨attemptIoInit k.c r' k.stream k.req.accumulates, w'.log⟩)) := by
  obtain ⟨hio, hbody⟩ := attemptIoInit_twin (S := .lockstep false c c' SameView Rel)
    h.heaps.init (c := k.c) rfl rfl hr k.stream k.req.accumulates
  obtain ⟨hplayed, hnext⟩ := h.next rq _ _ hw.env
  have hpieces := hcut' w'.env (next rq w'.env).1.body
  dsimp only [scriptedTransport]
  rw [if_pos rfl, if_pos rfl]
  rw [← hplayed] at hpieces ⊢
  exact scripted_twin h.heap h.heap h.unseen h.unseen' h.data k.Y k.c.maxResponse_pos k.stream _
    (hcut _ _) hpieces ⟨hio, hbody, hw.setEnv hnext⟩ (attemptIoInit_fresh _ _ _ _)
    (attemptIoInit_fresh _ _ _ _)

/-- The exchanges of an attempt, however the bodies are cut. -/
theorem exchange_pieces {i : Nat} {rq rq' : HttpRequest} {r r' : Result} {w w' : World σ} :
    let l := k.withTransport (scriptedTransport next cut)
    let l' := k.withTransport (scriptedTransport next cut')
    RequestTwin l.c l'.c i rq rq' → ContentTwin (.lockstep false l.c l'.c SameView Rel) r r' →
      WorldTwin (.lockstep false l.c l'.c SameView Rel) w w' →
        ExchangeTwin (.lockstep false l.c l'.c SameView Rel) k.stream
          (Sicha.exchange k.Y k.H l.c k.cbs k.cancel rq k.stream
            (attemptIoInit k.c r k.stream k.req.accumulates) w)
          (Sicha.exchange k.Y k.H l'.c k.cbs k.cancel rq' k.stream
            (attemptIoInit k.c r' k.stream k.req.accumulates) w') := by
  intro l l' hrq hr hw
  obtain rfl := hrq.eq rfl
  have hdebug : l.c.debug = l'.c.debug := rfl
  have hlogged := debugLog_twin hdebug (S := .lockstep false l.c l'.c SameView Rel)
    (.same (.debug (requestText rq))) hw
  have hrel := h.now _ _ hlogged.env
  have hstart := (hlogged.setEnv hrel).note (.same (.perform rq true false))
  have hends := play_pieces h hcut hcut' rq hr hstart
  have hlast := h.now _ _ hends.world.env
  unfold exchange
  rw [h.cancel]
  exact ⟨hends.ts, hends.io, hends.body, hends.world.setEnv hlast⟩

omit hcut hcut' in
/-- The validator, on both sides. -/
theorem Steady.validators {c c' : Client σ} : Option.Rel
    (fun f g => ∀ r r' s t, ContentTwin (.lockstep false c c' SameView Rel) r r' → Rel s t →
      (f r s).1 = (g r' t).1 ∧ Rel (f r s).2 (g r' t).2)
    (k.cbs.bind Callbacks.validate) (k.cbs.bind Callbacks.validate) := by
  refine optionRel_self fun f hf r r' s t hr hst => ?_
  exact h.validate f hf r r' s t (shown_twin hr) hst

omit hcut hcut' in
/-- The telemetry callback, on both sides. -/
theorem Steady.observers : Option.Rel
    (fun f g => ∀ a a' s t, RecordTwin false a a' → Rel s t → Rel (f a s) (g a' t))
    (k.cbs.bind Callbacks.onAttempt) (k.cbs.bind Callbacks.onAttempt) := by
  refine optionRel_self fun f hf a a' s t ha hst => ?_
  exact h.onAttempt f hf a a' s t ha.masked hst

/-- Two ways of cutting make two calls whose parties answer alike. -/
theorem Steady.twin : (k.withTransport (scriptedTransport next cut)).Twin false SameView Rel
    (k.withTransport (scriptedTransport next cut')) where
  heaps := h.heaps
  alloc n n' _ s t hst :=
    ⟨(h.heap n s).trans (h.heap n' t).symm, h.unseen' n' _ t (h.unseen n s t hst)⟩
  yyjson := rfl
  req := rfl
  stream := rfl
  backends := List.forall₂_same.mpr fun b _ =>
    ⟨Rekeyed.refl b, .self h.heaps.alloc 8 b.apiKey, .same rfl _⟩
  policy := rfl
  prngSeed := rfl
  maxResponseBytes := rfl
  userAgent := rfl
  debug := rfl
  structSizeOk := rfl
  data := h.data
  validate := h.validators
  onAttempt := h.observers
  cancel := by
    dsimp only [withTransport]
    rw [h.cancel]
    exact .none
  wait ms s t hst := by
    dsimp only [withTransport]
    rw [h.cancel]
    exact h.wait ms s t hst
  exchange hrq hr hw := ⟨exchange_pieces h hcut hcut' hrq hr hw, nofun, nofun⟩
  assist := by
    intro i rq rq' hrq s t hst
    obtain rfl := hrq.eq rfl
    obtain ⟨hplayed, hnext⟩ := h.next rq s t hst
    exact ⟨congrArg Scripted.final hplayed, hnext⟩

end Call

/-- However the bodies of the exchanges are cut, a call makes the same performs and the same
callbacks, and ends with the same status, the same content and the same records. -/
theorem chat_chunks {Rel : σ → σ → Prop} {k : Call σ} {next : HttpRequest → σ → Scripted × σ}
    (h : k.Steady Rel next) {cut cut' : σ → Bytes → List Bytes}
    (hcut : ∀ s body, (cut s body).flatten = body)
    (hcut' : ∀ s body, (cut' s body).flatten = body) (ordinal : UInt32) {s t : σ} (hst : Rel s t) :
    let e := (k.withTransport (scriptedTransport next cut)).run ordinal ⟨s, []⟩
    let e' := (k.withTransport (scriptedTransport next cut')).run ordinal ⟨t, []⟩
    e.world.trace.map Act.masked = e'.world.trace.map Act.masked ∧ e.status = e'.status ∧
      e.result.map Result.shown = e'.result.map Result.shown ∧ Rel e.world.env e'.world.env := by
  intro e e'
  have hstart : WorldTwin (.lockstep false (k.withTransport (scriptedTransport next cut)).c
      (k.withTransport (scriptedTransport next cut')).c SameView Rel) ⟨s, []⟩ ⟨t, []⟩ := ⟨hst, .nil⟩
  have hends : Call.EndTwin false SameView Rel _ _ e e' :=
    Call.run_twin (h.twin hcut hcut') ordinal hstart
  have hkeys : ∀ i, (k.withTransport (scriptedTransport next cut)).c.keyAt i =
      (k.withTransport (scriptedTransport next cut')).c.keyAt i := fun _ => rfl
  clear_value e e'
  cases hends with
  | @returned st out out' w w' hout hw =>
      refine ⟨masked_acts hkeys hw.log, rfl, ?_, hw.env⟩
      cases hout with
      | none => rfl
      | some hr => exact congrArg some (shown_twin hr)
  | fault hw => exact ⟨masked_acts hkeys hw.log, rfl, rfl, hw.env⟩

end Runs

section Plain

attribute [local instance] lp64

/-- A body in one piece. -/
def wholeCut (_ : Nat × Nat) (body : Bytes) : List Bytes :=
  [body]

/-- A body cut after 40 bytes. -/
def shortCut (_ : Nat × Nat) (body : Bytes) : List Bytes :=
  [body.take 40, body.drop 40]

/-- A body that is not cut is whole. -/
theorem wholeCut_flatten (s : Nat × Nat) (body : Bytes) : (wholeCut s body).flatten = body :=
  List.append_nil body

/-- A body cut into short pieces is whole. -/
theorem shortCut_flatten (s : Nat × Nat) (body : Bytes) : (shortCut s body).flatten = body := by
  rw [shortCut, List.flatten_cons, List.flatten_cons, List.flatten_nil, List.append_nil,
    List.take_append_drop]

/-- The long body fits. -/
theorem longBody_fits : (List.replicate 80 (120 : UInt8)).length < sizeMax := by
  decide

/-- The plain answer fits. -/
theorem plainAnswer_fits : (plainAnswerText "message").length < sizeMax := by
  decide +kernel

/-- A body of 80 bytes first, and answers after it.  The environment counts the exchanges. -/
def longThenAnswer (_ : HttpRequest) (s : Nat × Nat) : Scripted × Nat × Nat :=
  (if s.1 = 0 then ⟨200, [], List.replicate 80 120, .ok, longBody_fits⟩
    else ⟨200, [], plainAnswerText "message", .ok, plainAnswer_fits⟩, s.1 + 1, s.2)

/-- The narrow cap lets something through. -/
theorem narrowCap_pos : 0 < 64 := by
  decide

/-- A call over two backends with a cap of 64 bytes. -/
def narrowCall (cbs : Callbacks (Nat × Nat)) : Call (Nat × Nat) where
  Y := plainYyjson (plainAnswerText "message") (plainAnswer "hi")
  H := Heap.plentiful
  c := plainClient 1 64 narrowCap_pos (scriptedTransport longThenAnswer wholeCut)
  req := plainRequest
  cbs := some cbs
  cancel := none
  stream := false

/-- Callbacks that remember how long the last excerpt was, and accept only behind a long one. -/
def excerptReader : Callbacks (Nat × Nat) :=
  { plainCallbacks with
    onAttempt := some fun a s => (s.1, a.rawBodyExcerpt.length)
    validate := some fun _ s => (if s.2 = 40 then 0 else 1, s) }

/-- The excerpt of the long body shows how it was cut, and a callback that looks at it can end
the call otherwise. -/
theorem excerpt_shows_chunks :
    let k := narrowCall excerptReader
    k.cancel = none ∧ k.H.Reliable ∧ (∀ s body, (wholeCut s body).flatten = body) ∧
      (∀ s body, (shortCut s body).flatten = body) ∧
      ((k.withTransport (scriptedTransport longThenAnswer wholeCut)).run 0 ⟨(0, 0), []⟩).status =
        some .exhausted ∧
      ((k.withTransport (scriptedTransport longThenAnswer shortCut)).run 0 ⟨(0, 0), []⟩).status =
        some .ok :=
  ⟨rfl, Heap.plentiful_reliable, wholeCut_flatten, shortCut_flatten, by decide +kernel,
    by decide +kernel⟩

/-- The call with the narrow cap is steady. -/
theorem narrowCall_steady : (narrowCall plainCallbacks).Steady Eq longThenAnswer where
  cancel := rfl
  heap := Heap.plentiful_reliable
  unseen := by
    rintro n s _ rfl
    rfl
  unseen' := by
    rintro n s _ rfl
    rfl
  next := by
    rintro rq s _ rfl
    exact ⟨rfl, rfl⟩
  data := by
    have hsame : DataAlike (Eq (α := Nat × Nat)) (fun _ s => (0, s)) (fun _ s => (0, s)) := by
      rintro bytes s _ rfl
      exact ⟨rfl, rfl⟩
    exact ⟨fun ch => by cases ch <;> exact .some hsame, .some hsame⟩
  validate := by
    rintro f ⟨⟩ r r' s _ - rfl
    exact ⟨rfl, rfl⟩
  onAttempt := by
    rintro f ⟨⟩ a a' s _ - rfl
    rfl
  now := by
    rintro s _ rfl
    rfl
  wait := by
    rintro ms s _ rfl
    exact ⟨rfl, rfl⟩

/-- A call that is refused a long body, and then answered. -/
theorem chat_chunks_plain :
    let k := narrowCall plainCallbacks
    let e := (k.withTransport (scriptedTransport longThenAnswer wholeCut)).run 0 ⟨(0, 0), []⟩
    let e' := (k.withTransport (scriptedTransport longThenAnswer shortCut)).run 0 ⟨(0, 0), []⟩
    e.status = some .ok ∧ e.records.length = 2 ∧
      e.world.trace.map Act.masked = e'.world.trace.map Act.masked ∧ e.status = e'.status ∧
      e.result.map Result.shown = e'.result.map Result.shown ∧ e.world.env = e'.world.env :=
  ⟨by decide +kernel, by decide +kernel,
    chat_chunks narrowCall_steady wholeCut_flatten shortCut_flatten 0 rfl⟩

end Plain

end Sicha
