import Sicha.Client.Run

/-!
# What the caller holds

The caller of a streaming call keeps copies of its own: it appends what it is handed, and
starts over when an attempt is reported that did not succeed.  When the call succeeds,
its copies are the text and the reasoning of the result.

Main results:

- Theorem {lit}`turn_caller`: before every attempt the caller holds nothing.
- Theorem {lit}`chatStream_caller`: the copies of a successful call.
-/

namespace Sicha

/-! ## The caller's side -/

/-- The caller's copies: content and reasoning. -/
structure Copies where
  content : Bytes
  reasoning : Bytes
deriving DecidableEq

/-- The caller's reaction to one callback. -/
def Copies.hear (held : Copies) : Act → Copies
  | .onDelta bytes _ => { held with content := held.content ++ bytes }
  | .onReasoning bytes _ => { held with reasoning := held.reasoning ++ bytes }
  | .onAttempt a => if a.errorClass ≠ .none then ⟨[], []⟩ else held
  | _ => held

/-- The caller's copies after a stretch of the log. -/
def Copies.after (held : Copies) (acts : List Act) : Copies :=
  acts.foldl Copies.hear held

/-- The copies behind two parts in a row. -/
theorem Copies.after_append (held : Copies) (as bs : List Act) :
    held.after (as ++ bs) = (held.after as).after bs :=
  List.foldl_append

/-- Polls and debug lines are not heard. -/
theorem Copies.after_visible (held : Copies) (acts : List Act) :
    held.after (acts.filter Act.visible) = held.after acts := by
  induction acts generalizing held with
  | nil => rfl
  | cons a acts ih =>
      rw [List.filter_cons]
      split_ifs with hvisible
      · exact ih _
      · have hdeaf : held.hear a = held := by
          cases a <;> first | rfl | exact absurd rfl hvisible
        rw [ih]
        exact congrArg (fun h => Copies.after h acts) hdeaf.symm

/-- Data callbacks only add to the copies. -/
theorem Copies.after_data (held : Copies) {acts : List Act} (h : ∀ a ∈ acts, a.isData = true) :
    held.after acts =
      ⟨held.content ++ heardOn .content acts, held.reasoning ++ heardOn .reasoning acts⟩ := by
  induction acts generalizing held with
  | nil => simp [Copies.after]
  | cons a acts ih =>
      have hrest := ih (held.hear a) fun b hb => h b (List.mem_cons_of_mem a hb)
      change (held.hear a).after acts = _
      rw [hrest]
      have hdata := h a (List.mem_cons_self ..)
      cases a with
      | onDelta bytes rc => simp [Copies.hear, heardOn, Act.deltaOn]
      | onReasoning bytes rc => simp [Copies.hear, heardOn, Act.deltaOn]
      | onRawChunk bytes rc => simp [Copies.hear, heardOn, Act.deltaOn]
      | _ => cases hdata

section Runs

variable [SizeT] {σ : Type}

namespace Call

variable (k : Call σ)

/-- A validation leaves the copies alone. -/
theorem after_checked (held : Copies) (x : Ran σ) : held.after (k.checked x) = held := by
  unfold checked
  cases k.validator x <;> rfl

/-- What the caller makes of the record of an attempt. -/
theorem after_told (held : Copies) (a : Attempt)
    (hset : (k.cbs.bind Callbacks.onAttempt).isSome = true) :
    held.after (k.told a) = if a.errorClass ≠ .none then ⟨[], []⟩ else held := by
  rw [told, if_pos hset]
  rfl

/-- A streaming call whose caller keeps copies. -/
structure Mirrored : Prop where
  stream : k.stream = true
  accumulates : k.req.accumulates = true
  onDelta : (k.cbs.bind Callbacks.onDelta).isSome = true
  onReasoning : (k.cbs.bind Callbacks.onReasoning).isSome = true
  onAttempt : (k.cbs.bind Callbacks.onAttempt).isSome = true

variable {k}

/-- After an attempt the caller holds what the result does, or nothing if it was told of
a failure. -/
theorem Took.copies (hk : k.Mirrored) {s s1 s2 : LoopState k.c} {rq : HttpRequest}
    (h : k.Took s rq s1 s2) (hs : Copies.after ⟨[], []⟩ s.world.trace = ⟨[], []⟩) :
    Copies.after ⟨[], []⟩ s2.world.trace =
      if (k.judged s1 rq).cls ≠ .none then ⟨[], []⟩ else ⟨resultText s2.r, resultReasoning s2.r⟩ := by
  have hgiven := k.roundTrip_given rq s1
  have hcontent : heardOn .content (k.given rq s1) = resultText s2.r := by
    have hheld := hgiven.held hk.stream hk.accumulates .content hk.onDelta
    rw [← h.buf] at hheld
    exact hheld.symm
  have hreasoning : heardOn .reasoning (k.given rq s1) = resultReasoning s2.r := by
    have hheld := hgiven.held hk.stream hk.accumulates .reasoning hk.onReasoning
    rw [← h.buf] at hheld
    exact hheld.symm
  have hround : Copies.after ⟨[], []⟩ (k.handing rq :: k.given rq s1) =
      ⟨resultText s2.r, resultReasoning s2.r⟩ := by
    change Copies.after ⟨[], []⟩ (k.given rq s1) = _
    rw [Copies.after_data _ hgiven.data, hcontent, hreasoning, List.nil_append, List.nil_append]
  rw [h.trace, Copies.after_append, hs, ← List.cons_append, ← List.cons_append,
    Copies.after_append, Copies.after_append, hround, after_checked,
    k.after_told _ _ hk.onAttempt, h.entryClass]

variable (k)

/-! ## One turn -/

/-- Before an attempt the caller holds nothing. -/
structure Emptied (s : LoopState k.c) : Prop where
  copies : Copies.after ⟨[], []⟩ s.world.trace = ⟨[], []⟩
  final : s.final = .exhausted

/-- The copies of a call that succeeded. -/
def Matches (f : LoopState k.c) : Prop :=
  f.final = .ok →
    Copies.after ⟨[], []⟩ f.world.trace = ⟨resultText f.r, resultReasoning f.r⟩

/-- What a turn preserves, and how it may leave. -/
theorem turn_caller (hk : k.Mirrored) (s : LoopState k.c) (out : LoopState k.c ⊕ LoopState k.c)
    (hs : k.Emptied s) (hturn : k.Turn s out) : Sum.elim k.Emptied k.Matches out := by
  cases hturn with
  | cancelled _ => exact fun h => nomatch h
  | @unprepared st s1 _ hprep =>
      intro h
      have hrefusal := k.prepare_refusal hprep
      change st = .ok at h
      rw [h] at hrefusal
      cases hrefusal
  | unrecorded _ _ _ => exact fun h => nomatch h
  | terminal _ _ _ hfinal =>
      intro h
      rw [hfinal] at h
      cases h
  | @next rq s1 _ _ hprep hadd hfinal hnext =>
      have htook := took hprep hadd
      generalize k.announced s1 rq = s2 at htook hfinal hnext
      have hcopies := htook.copies hk hs.copies
      have hexhausted := (htook.final_eq hfinal).trans hs.final
      have hempty : (k.judged s1 rq).cls ≠ .none → k.Emptied s2 := by
        intro hcls
        rw [if_pos hcls] at hcopies
        exact ⟨hcopies, hexhausted⟩
      cases hnext with
      | success hcls =>
          intro _
          rw [if_neg (not_not.mpr hcls)] at hcopies
          exact hcopies
      | abort _ => exact fun h => nomatch h
      | cancelled _ => exact fun h => nomatch h
      | lost _ _ => exact fun h => nomatch h
      | reroll hcls _ _ =>
          have hsame := hempty (by rw [hcls]; decide)
          exact ⟨hsame.copies, hsame.final⟩
      | interrupted _ _ _ _ => exact fun h => nomatch h
      | retry hcls _ _ _ =>
          have hsame := hempty (by rw [hcls]; decide)
          refine ⟨?_, hsame.final⟩
          rw [waited_trace, Copies.after_append, hsame.copies]
          rfl
      | fallback hleaves _ _ =>
          have hsame := hempty (by rcases hleaves with h | ⟨h, -⟩ | ⟨h, -⟩ <;> rw [h] <;> decide)
          exact ⟨hsame.copies, hsame.final⟩
      | exhausted _ _ _ _ =>
          intro h
          change s2.final = .ok at h
          rw [hexhausted] at h
          cases h

end Call

/-! ## Whole calls -/

/-- After a successful streaming call the caller's copies are the text and the reasoning
of the result. -/
theorem chatStream_caller (Y : Yyjson) (H : Heap σ) (c : Option (Client σ)) (req : Request)
    (cbs : Callbacks σ) (cancel : Option (CancelToken σ)) (haveOut : Bool) (ordinal : UInt32)
    (env : σ) (haccumulates : req.flags &&& reqNoAccumulate = 0)
    (hdelta : cbs.onDelta.isSome = true) (hreasoning : cbs.onReasoning.isSome = true)
    (hattempt : cbs.onAttempt.isSome = true) (out : Option Result) (w : World σ)
    (hok : sichaChatStream Y H c (some req) (some cbs) cancel haveOut ordinal ⟨env, []⟩ =
      .returned .ok out w) :
    ∃ r, out = some r ∧
      Copies.after ⟨[], []⟩ w.acts = ⟨resultText r, resultReasoning r⟩ := by
  unfold sichaChatStream at hok
  rcases chatCommon_ends Y H c (some req) (some cbs) cancel haveOut true ordinal ⟨env, []⟩ with
    hearly | ⟨k, ⟨-, -, hreq, hcbs, -, hstream⟩, env', hrun⟩
  · rw [hok] at hearly
    rcases hearly with ⟨hrefusal, _⟩
    cases hrefusal
  · rw [hok] at hrun
    cases Option.some.inj hreq
    have hk : k.Mirrored := by
      refine ⟨hstream, ?_, ?_, ?_, ?_⟩
      · simp [Request.accumulates, haccumulates]
      all_goals rw [hcbs]; assumption
    have hstart : k.Emptied (k.start ordinal (resultInit k.c.maxResponseBytes) ⟨env', []⟩) :=
      ⟨rfl, rfl⟩
    have hmatch := k.run_turns (k.turn_caller hk) hstart
    simp only [Call.handOut, Call.ChatEnd.returned.injEq] at hrun
    obtain ⟨hstatus, rfl, rfl⟩ := hrun
    refine ⟨_, rfl, ?_⟩
    rw [← Copies.after_visible]
    exact hmatch hstatus.symm

end Runs

section Plain

attribute [local instance] lp64

/-- A stream of one piece, and what its caller has copied. -/
theorem chatStream_caller_plain :
    ∃ r w, plainChat "hi" = .returned .ok (some r) w ∧
      Copies.after ⟨[], []⟩ w.acts = ⟨resultText r, resultReasoning r⟩ := by
  have hstatus : (plainChat "hi").status = some .ok := by decide +kernel
  obtain ⟨out, w, hok⟩ := Call.ChatEnd.of_status hstatus
  obtain ⟨r, rfl, hcopies⟩ := chatStream_caller _ _ _ _ _ _ _ _ _ (by decide) rfl rfl rfl _ _ hok
  exact ⟨r, w, hok, hcopies⟩

end Plain

end Sicha
