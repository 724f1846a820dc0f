import Sicha.Client.Caps
import Sicha.Client.Override
import Sicha.Client.Twin

/-!
# A result that is used again

All attempts of a call fill one result, which is reset between them.  An attempt on a reset
result is compared with the first attempt of a new call, whose foreign parties behave the same.

Main results:

- Theorem {lit}`cleared_twin`: a reset result looks like a fresh one, but for the errors of its
  two buffers.
- Theorem {lit}`roundTrip_anew`: from results that look alike, attempts end alike.
- Theorem {lit}`chat_attempt_anew`: an attempt on buffers without an error is as good as the
  first attempt of a new call.
-/

namespace Sicha

section Runs

variable [SizeT] {σ τ : Type}

/-! ## Results that look fresh -/

/-- The buffers of two results with one cap and no error look alike once they are reset. -/
theorem bufReset_sameView {b b' : Buf} (hmax : b.maxLen = b'.maxLen) (herr : b.err = .ok)
    (herr' : b'.err = .ok) : SameView (bufReset b) (bufReset b') := by
  unfold SameView
  rw [bufReset_view, bufReset_view, hmax, herr, herr']

/-- The result of an attempt has no error left from an earlier one. -/
structure Result.Clean (r : Result) : Prop where
  text : r.text.err = .ok
  reasoning : r.reasoning.err = .ok

/-- A new result has no error. -/
theorem resultInit_clean (cap : Nat) : (resultInit cap).Clean :=
  ⟨rfl, rfl⟩

/-- Two runs that are compared by what the parties see: buffers by their contents, environments
by {lit}`Rel`, records and logs not at all. -/
def Sight.parties (Rel : σ → τ → Prop) : Sight σ τ where
  buf := SameView
  env := Rel
  rest _ _ := True
  act _ _ := True
  log _ _ := True
  data _ _ := trivial
  snoc _ _ := trivial

/-- Two clean results with one cap look alike once they are reset. -/
theorem resetContent_twin (Rel : σ → τ → Prop) {cap : Nat} {r r' : Result} (hr : ResultCapped cap r)
    (hr' : ResultCapped cap r') (hclean : r.Clean) (hclean' : r'.Clean) :
    ContentTwin (.parties Rel) (resultResetContent r) (resultResetContent r') where
  text := bufReset_sameView ((hr.buf .content).maxLen.trans (hr'.buf .content).maxLen.symm)
    hclean.text hclean'.text
  reasoning :=
    bufReset_sameView ((hr.buf .reasoning).maxLen.trans (hr'.buf .reasoning).maxLen.symm)
      hclean.reasoning hclean'.reasoning
  finishRaw := rfl
  finish := rfl
  promptTokens := rfl
  completionTokens := rfl
  totalTokens := rfl
  model := rfl
  rawBody := rfl
  rest := trivial

/-! ## Two calls on the same terms -/

namespace Call

/-- Two calls with the same caps, flags and policy, whose allocators never fail and whose
parties answer alike from environments that they cannot tell apart. -/
structure SameTerms (k : Call σ) (k' : Call τ) (Rel : σ → τ → Prop) : Prop where
  yyjson : k.Y = k'.Y
  stream : k.stream = k'.stream
  accumulates : k.req.accumulates = k'.req.accumulates
  policy : k.c.policy = k'.c.policy
  maxResponseBytes : k.c.maxResponseBytes = k'.c.maxResponseBytes
  maxEventBytes : k.c.maxEventBytes = k'.c.maxEventBytes
  debug : k.c.debug = k'.c.debug
  heap : k.H.Reliable
  heap' : k'.H.Reliable
  unseen : ∀ n s t, Rel s t → Rel (k.H.alloc n s).2 t
  unseen' : ∀ n s t, Rel s t → Rel s (k'.H.alloc n t).2
  now : NowTwin false Rel k.c.clock k'.c.clock
  data : DataTwin Rel k.cbs k'.cbs
  validate : Option.Rel
    (fun f g => ∀ r r' s t, ContentTwin (.parties Rel) r r' → Rel s t → (f r s).1 = (g r' t).1)
    (k.cbs.bind Callbacks.validate) (k'.cbs.bind Callbacks.validate)

/-- Two attempts with the same class and body state, that leave the same content. -/
structure SameEnd (k : Call σ) (k' : Call τ) (x : Ran σ) (x' : Ran τ) : Prop where
  cls : (k.judge x).cls = (k'.judge x').cls
  bodyState : x.o.v.bodyState = x'.o.v.bodyState
  text : x.r.text.bytes = x'.r.text.bytes
  reasoning : x.r.reasoning.bytes = x'.r.reasoning.bytes
  finishRaw : x.r.finishRaw = x'.r.finishRaw
  finish : x.r.finish = x'.r.finish
  promptTokens : x.r.promptTokens = x'.r.promptTokens
  completionTokens : x.r.completionTokens = x'.r.completionTokens
  totalTokens : x.r.totalTokens = x'.r.totalTokens
  model : x.r.model = x'.r.model

variable {k : Call σ} {k' : Call τ} {Rel : σ → τ → Prop}

/-- Two results without an error are cleared alike. -/
theorem cleared_twin (hcap : k.c.maxResponseBytes = k'.c.maxResponseBytes) {s : LoopState k.c}
    {t : LoopState k'.c} (hs : ResultCapped k.c.maxResponseBytes s.r)
    (ht : ResultCapped k'.c.maxResponseBytes t.r) (hclean : s.r.Clean) (hclean' : t.r.Clean) :
    ContentTwin (.parties Rel) (k.cleared s) (k'.cleared t) := by
  rw [hcap] at hs
  have hreset := resetContent_twin Rel hs ht hclean hclean'
  exact ⟨hreset.text, hreset.reasoning, rfl, rfl, rfl, rfl, rfl, rfl, rfl, trivial⟩

/-- The allocators of calls on the same terms are alike. -/
theorem SameTerms.heaps (h : k.SameTerms k' Rel) : HeapTwins SameView k.H k'.H Rel :=
  .of_reliable h.heap h.heap' h.unseen h.unseen'

/-- Attempts that look alike are judged alike. -/
theorem judge_anew (h : k.SameTerms k' Rel) {x : Ran σ} {x' : Ran τ}
    (hx : RanTwin (.parties Rel) false x x') : (k.judge x).cls = (k'.judge x').cls := by
  have hfirst := firstClass_twin h.policy hx
  have hset := h.validate
  unfold judge validator
  rw [hx.v, hfirst]
  split_ifs
  · generalize k.cbs.bind Callbacks.validate = f, k'.cbs.bind Callbacks.validate = f' at hset
    cases hset with
    | none => rfl
    | @some f g hfg =>
        have hcode := hfg x.r x'.r x.world.env x'.world.env hx.r hx.world.env
        simp only [World.act, hcode]
        by_cases hzero : (g x'.r x'.world.env).1 = 0
        · simp only [hzero, ne_eq, not_true_eq_false, if_false]
        · simp only [hzero, ne_eq, not_false_eq_true, if_true]
  · rfl

/-- Round trips that are twins end the same. -/
theorem sameEnd_of_ran (h : k.SameTerms k' Rel) {x : Ran σ} {x' : Ran τ}
    (hx : RanTwin (.parties Rel) false x x') : k.SameEnd k' x x' where
  cls := judge_anew h hx
  bodyState := congrArg Verdict.bodyState hx.v
  text := congrArg CappedBytes.bytes hx.r.text
  reasoning := congrArg CappedBytes.bytes hx.r.reasoning
  finishRaw := hx.r.finishRaw
  finish := hx.r.finish
  promptTokens := hx.r.promptTokens
  completionTokens := hx.r.completionTokens
  totalTokens := hx.r.totalTokens
  model := hx.r.model

/-- Attempts on results that look alike, with the same behaviour of the transport, end alike. -/
theorem roundTrip_anew (h : k.SameTerms k' Rel) {rq rq' : HttpRequest} {s : LoopState k.c}
    {t : LoopState k'.c} (hr : ContentTwin (.parties Rel) (k.cleared s) (k'.cleared t))
    (henv : Rel s.world.env t.world.env)
    (htransport : ∀ u v, Rel u v → (k.c.transport.perform rq true k.cancel u).Twin Rel
      (k'.c.transport.perform rq' true k'.cancel v)) :
    k.SameEnd k' (k.roundTrip rq s) (k'.roundTrip rq' t) := by
  obtain ⟨hio, hbody⟩ := attemptIoInit_twin (S := .parties Rel) (fun _ => rfl) h.maxResponseBytes
    h.maxEventBytes hr k.stream k.req.accumulates
  have hworld : WorldTwin (.parties Rel) s.world t.world := ⟨henv, trivial⟩
  have hran : RanTwin (.parties Rel) false (k.roundTrip rq s) (k'.roundTrip rq' t) := by
    unfold roundTrip runAttempt
    rw [← h.yyjson, ← h.stream, ← h.accumulates]
    obtain ⟨hexchange, -, -⟩ := exchange_twin (S := .parties Rel) h.heaps h.data k.Y h.debug
      h.now trivial trivial htransport hio hbody hworld
    exact ran_twin h.heaps h.data k.Y hexchange nofun nofun
  exact sameEnd_of_ran h hran

/-! ## New calls -/

/-- The first attempt of a call, if it gets that far. -/
def first (k : Call σ) (ordinal : UInt32) (w : World σ) : Option (HttpRequest × LoopState k.c) :=
  match k.enter ordinal w with
  | .inl _ => none
  | .inr s => k.attempt? s

/-- The first attempt of a call is on a fresh result. -/
theorem first_fresh {ordinal : UInt32} {w : World σ} {t : HttpRequest × LoopState k.c}
    (ht : k.first ordinal w = some t) : t.2.r = resultInit k.c.maxResponseBytes := by
  unfold first at ht
  rcases k.enter_ends ordinal w with ⟨e, henter, -⟩ | ⟨env, henter⟩
  · rw [henter] at ht
    cases ht
  · rw [henter] at ht
    exact (k.prepared_unchanged (k.attempt_prepared ht)).r

/-- An attempt starts with the caps of the call. -/
theorem attempts_capped {ordinal : UInt32} {w : World σ} {t : HttpRequest × LoopState k.c}
    (ht : t ∈ k.attempts ordinal w) : ResultCapped k.c.maxResponseBytes t.2.r := by
  obtain ⟨s, hreach, hattempt⟩ := k.attempts_reaches ht
  rw [(k.prepared_unchanged (k.attempt_prepared hattempt)).r]
  exact reached_capped hreach

end Call

/-- An attempt of a call whose result carries no error when it starts has the class, the body
state and the content of the first attempt of a new call on the same terms, if the transport
behaves there as it does here. -/
theorem chat_attempt_anew (k : Call σ) (k' : Call τ) (Rel : σ → τ → Prop)
    (hterms : k.SameTerms k' Rel) (ordinal ordinal' : UInt32) (env : σ) (env' : τ) :
    ∀ t ∈ k.attempts ordinal ⟨env, []⟩, t.2.r.Clean →
      ∀ t', k'.first ordinal' ⟨env', []⟩ = some t' → Rel t.2.world.env t'.2.world.env →
        (∀ u v, Rel u v → (k.c.transport.perform t.1 true k.cancel u).Twin Rel
          (k'.c.transport.perform t'.1 true k'.cancel v)) →
        k.SameEnd k' (k.roundTrip t.1 t.2) (k'.roundTrip t'.1 t'.2) := by
  intro t ht hclean t' ht' henv htransport
  have hfresh := Call.first_fresh ht'
  have hcap' : ResultCapped k'.c.maxResponseBytes t'.2.r := hfresh ▸ resultInit_capped _
  have hclean' : t'.2.r.Clean := hfresh ▸ resultInit_clean _
  exact Call.roundTrip_anew hterms (Call.cleared_twin hterms.maxResponseBytes
    (Call.attempts_capped ht) hcap' hclean hclean') henv htransport

end Runs

section Plain

attribute [local instance] lp64

/-- A reader of two plain events. -/
def twoEvents : Yyjson where
  read text :=
    if text = plainEventText "hello" then some (plainEvent "hello")
    else if text = plainEventText "hi" then some (plainEvent "hi")
    else none
  write _ := some plainBody

/-- The short cap lets something through. -/
theorem shortCap_pos : 0 < 4 := by
  decide

/-- A streaming call over two backends with a cap of four bytes; the environment counts the
responses. -/
def twoBackends (reply : Nat → Int × List Bytes) : Call Nat where
  Y := twoEvents
  H := Heap.plentiful
  c := plainClient 1 4 shortCap_pos (replyTransport fun n => (reply n, n + 1))
  req := plainRequest
  cbs := none
  cancel := none
  stream := true

/-- The call over two backends is on the same terms as itself. -/
theorem twoBackends_terms (reply : Nat → Int × List Bytes) :
    (twoBackends reply).SameTerms (twoBackends reply) Eq where
  yyjson := rfl
  stream := rfl
  accumulates := rfl
  policy := rfl
  maxResponseBytes := rfl
  maxEventBytes := rfl
  debug := rfl
  heap := Heap.plentiful_reliable
  heap' := Heap.plentiful_reliable
  unseen := by
    rintro n s _ rfl
    rfl
  unseen' := by
    rintro n s _ rfl
    rfl
  now := by
    rintro s _ rfl
    exact ⟨fun _ => rfl, rfl⟩
  data := ⟨fun ch => by cases ch <;> exact .none, .none⟩
  validate := .none

/-- A response of five bytes, then one of two. -/
def overflowing (n : Nat) : Int × List Bytes :=
  (200, plainStream (if n = 0 then "hello" else "hi"))

/-- A refusal, then a response of two bytes. -/
def recovering (n : Nat) : Int × List Bytes :=
  if n = 0 then (503, []) else (200, plainStream "hi")

/-- Behind a response over the cap, a good one is refused that a new call accepts. -/
theorem attempt_after_overflow :
    let k := twoBackends overflowing
    k.SameTerms k Eq ∧ ¬ ∀ t ∈ k.attempts 0 ⟨0, []⟩, ∀ t', k.first 0 ⟨1, []⟩ = some t' →
      t.1 = t'.1 → t.2.world.env = t'.2.world.env →
        k.SameEnd k (k.roundTrip t.1 t.2) (k.roundTrip t'.1 t'.2) := by
  intro k
  refine ⟨twoBackends_terms overflowing, fun hall => ?_⟩
  have hattempts : (k.attempts 0 ⟨0, []⟩).map (fun t =>
      (some t.1 == (k.first 0 ⟨1, []⟩).map Prod.fst, t.2.world.env,
        (k.judge (k.roundTrip t.1 t.2)).cls)) = [(true, 0, .advance), (true, 1, .advance)] := by
    decide +kernel
  have hfirst : (k.first 0 ⟨1, []⟩).map (fun t =>
      (t.2.world.env, (k.judge (k.roundTrip t.1 t.2)).cls)) = some (1, .none) := by
    decide +kernel
  obtain ⟨t', ht', hnew⟩ := Option.map_eq_some_iff.mp hfirst
  obtain ⟨t, ht, hold⟩ := List.mem_map.mp
    (hattempts ▸ List.mem_cons_of_mem _ (List.mem_singleton_self _))
  simp only [Prod.mk.injEq] at hold hnew
  rw [ht', Option.map_some, beq_iff_eq, Option.some.injEq] at hold
  have hsame := (hall t ht t' ht' hold.1 (hold.2.1.trans hnew.1.symm)).cls
  rw [hold.2.2, hnew.2] at hsame
  cases hsame

/-- Behind a refusal, a good response is accepted as in a new call. -/
theorem attempt_after_refusal :
    let k := twoBackends recovering
    ∃ t ∈ k.attempts 0 ⟨0, []⟩, ∃ t', k.first 0 ⟨1, []⟩ = some t' ∧
      k.SameEnd k (k.roundTrip t.1 t.2) (k.roundTrip t'.1 t'.2) := by
  intro k
  have hattempts : (k.attempts 0 ⟨0, []⟩).map (fun t =>
      (some t.1 == (k.first 0 ⟨1, []⟩).map Prod.fst, t.2.world.env, t.2.r.text.err,
        t.2.r.reasoning.err)) = [(true, 0, .ok, .ok), (true, 1, .ok, .ok)] := by
    decide +kernel
  have hfirst : (k.first 0 ⟨1, []⟩).map (fun t => t.2.world.env) = some 1 := by
    decide +kernel
  obtain ⟨t', ht', hnew⟩ := Option.map_eq_some_iff.mp hfirst
  obtain ⟨t, ht, hold⟩ := List.mem_map.mp
    (hattempts ▸ List.mem_cons_of_mem _ (List.mem_singleton_self _))
  simp only [Prod.mk.injEq] at hold
  rw [ht', Option.map_some, beq_iff_eq, Option.some.injEq] at hold
  refine ⟨t, ht, t', ht', chat_attempt_anew k k Eq (twoBackends_terms recovering) 0 0 0 1 t ht
    ⟨hold.2.2.1, hold.2.2.2⟩ t' ht' (hold.2.1.trans hnew.symm) ?_⟩
  rintro u _ rfl
  rw [hold.1]
  exact Dialogue.twin_refl _

end Plain

end Sicha
