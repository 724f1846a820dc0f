import Sicha.Client.Run

/-!
# The environment across a turn

How the log and the environment move during a turn: the log only grows, and the
environment moves within any relation that all foreign parties respect.

Main results:

- Theorem {lit}`roundTrip_within`: the round trip.
- Theorem {lit}`announced_within`: a turn up to the return of {lit}`on_attempt`.
-/

namespace Sicha

variable {σ : Type} {Rel : σ → σ → Prop}

namespace Call

/-! ## Growing logs -/

/-- The log has grown from {lit}`base` by what happens inside an attempt, and the
environment has moved within {lit}`Rel`. -/
structure Grown (Rel : σ → σ → Prop) (base : World σ) (w : World σ) : Prop where
  log : ∃ new, w.log = base.log ++ new ∧ ∀ x ∈ new, x.act.isAside = true
  env : Rel base.env w.env

/-- A log that is as it was has grown by nothing. -/
theorem Grown.quiet {base w : World σ} (hlog : w.log = base.log) (henv : Rel base.env w.env) :
    Grown Rel base w :=
  ⟨⟨[], by rw [hlog, List.append_nil], by simp⟩, henv⟩

/-- Growth in two parts. -/
theorem Grown.trans (htrans : ∀ s t u, Rel s t → Rel t u → Rel s u) {w w' w'' : World σ}
    (h : Grown Rel w w') (h' : Grown Rel w' w'') : Grown Rel w w'' := by
  obtain ⟨⟨new, hnew, haside⟩, henv⟩ := h
  obtain ⟨⟨more, hmore, haside'⟩, henv'⟩ := h'
  refine ⟨⟨new ++ more, by rw [hmore, hnew, List.append_assoc], ?_⟩, htrans _ _ _ henv henv'⟩
  intro x hx
  rcases List.mem_append.mp hx with hx | hx
  · exact haside x hx
  · exact haside' x hx

/-- An act inside an attempt is growth. -/
theorem Grown.act {α : Type} (w : World σ) (f : σ → α × σ) (mk : α → Act)
    (hmk : ∀ a, (mk a).isAside = true) (h : Rel w.env (f w.env).2) :
    Grown Rel w (w.act f mk).2 :=
  ⟨⟨_, World.act_log w f mk, by simpa using hmk _⟩, h⟩

/-- A log that has grown begins as it was. -/
theorem Grown.log_le {base w : World σ} (h : Grown Rel base w) : base.log <+: w.log := by
  obtain ⟨new, hnew, -⟩ := h.log
  exact ⟨new, hnew.symm⟩

variable [SizeT] {k : Call σ}

omit [SizeT] in
/-- The debug log is growth. -/
theorem debugLog_within (hrefl : ∀ s, Rel s s) (c : Client σ) (text : Bytes) (w : World σ) :
    Grown Rel w (c.debugLog text w) := by
  unfold Client.debugLog
  split_ifs
  · exact ⟨⟨_, World.note_log w _, by simp [Act.isAside]⟩, hrefl _⟩
  · exact .quiet rfl (hrefl _)

/-! ## The round trip -/

/-- A data callback is growth. -/
theorem callData_grown {cb : Option (DataCallback σ)} (hk : k.Within Rel)
    (hcb : ∀ f, cb = some f → ∀ bytes s, Rel s (f bytes s).2) {base : World σ}
    {mk : Bytes → Int → Act} (hmk : ∀ bytes rc, (mk bytes rc).isAside = true) (data : Bytes)
    {s : StreamW σ} (h : Grown Rel base s.world) :
    Grown Rel base (callData cb mk data s).2.world := by
  cases cb with
  | none => exact h
  | some f => exact h.trans hk.trans (.act _ _ _ (hmk data) (hcb f rfl data s.world.env))

/-- Every step of an event is growth. -/
theorem grown_event (hk : k.Within Rel) (base : World σ) :
    EventRule k.H k.cbs (fun s => Grown Rel base s.world) (fun _ s => Grown Rel base s.world) where
  alloc n s h := ⟨h.log, hk.trans _ _ _ h.env (hk.alloc n s.world.env)⟩
  books _ _ _ h := h
  lift _ _ h _ := h
  refuse _ _ _ h _ := h
  give s ch bytes r h _ _ := by
    unfold deliverCall
    split_ifs
    · exact .both (callData_grown hk (hk.data ch) (channel_act_isAside ch) bytes h)
    · exact .zero h
  raw s data h := .both (callData_grown hk hk.raw (fun _ _ => rfl) data h)
  fail _ _ h := h
  stop _ h := h

/-- The log of a round trip only grows, and its environment moves within {lit}`Rel`. -/
theorem roundTrip_within (hk : k.Within Rel) (rq : HttpRequest) (s : LoopState k.c) :
    Grown Rel (k.handed rq s.world) (k.roundTrip rq s).world := by
  have hrule : k.TripRule Rel fun t => Grown Rel (k.handed rq s.world) t.world :=
    { event := grown_event hk _
      move := fun t v hrel h => ⟨h.log, hk.trans _ _ _ h.env hrel⟩
      parse := fun _ _ _ h _ _ => h }
  obtain ⟨ctx, h, -⟩ := roundTrip_keeps hk hrule rq s (.quiet rfl (hk.refl _))
  exact h

/-! ## The other steps of a turn -/

/-- A request is prepared within the relation. -/
theorem prepare_within (hk : k.Within Rel) (s : LoopState k.c) :
    Rel s.world.env (k.prepare s).2.world.env :=
  (k.prepare_keeps (fun n t ht => hk.trans _ _ _ ht (hk.alloc n t)) s (hk.refl _)).1

/-- A request is handed over within the relation. -/
theorem handed_within (hk : k.Within Rel) (rq : HttpRequest) (w : World σ) :
    Rel w.env (k.handed rq w).env := by
  unfold handed Client.debugLog
  split_ifs <;> exact hk.now w.env

/-- A judgement is growth. -/
theorem judge_within (hk : k.Within Rel) (x : Ran σ) : Grown Rel x.world (k.judge x).world := by
  have hval := k.validator_eq x
  unfold judge
  cases hf : k.validator x with
  | none => exact .quiet rfl (hk.refl _)
  | some f =>
      rw [hf] at hval
      have hset : k.cbs.bind Callbacks.validate = some f := by
        split_ifs at hval
        exact hval.symm
      have hgrown := Grown.act x.world (f x.r) .validate (fun _ => rfl)
        (hk.validate f hset x.r x.world.env)
      dsimp only
      split_ifs <;> exact hgrown

/-- A round trip and its record are growth, behind the request. -/
theorem recorded_within (hk : k.Within Rel) (rq : HttpRequest) (s : LoopState k.c) :
    Grown Rel (k.handed rq s.world) (k.recorded s rq).2.world := by
  have hadd := resultAddAttempt_keeps (P := fun env => Rel (k.judged s rq).world.env env)
    (fun n t ht => hk.trans _ _ _ ht (hk.alloc n t)) (k.roundTrip rq s).r
    (k.record s (k.roundTrip rq s) (k.judged s rq)) (hk.refl _)
  have hstored : Grown Rel (k.judged s rq).world (k.recorded s rq).2.world :=
    .quiet rfl hadd
  exact ((roundTrip_within hk rq s).trans hk.trans (judge_within hk _)).trans hk.trans hstored

/-- An announcement is growth. -/
theorem announce_within (hk : k.Within Rel) (s : LoopState k.c) :
    Grown Rel s.world (k.announce s).world := by
  unfold announce
  split
  · exact .quiet rfl (hk.refl _)
  · rename_i a _
    refine (debugLog_within hk.refl k.c (attemptText a) s.world).trans hk.trans ?_
    dsimp only
    unfold callOnAttempt
    split
    · exact .quiet rfl (hk.refl _)
    · rename_i f hf
      exact .act _ _ _ (fun _ => rfl) (hk.onAttempt f hf a _)

/-- So is a whole attempt behind its request. -/
theorem announced_within (hk : k.Within Rel) (rq : HttpRequest) (s : LoopState k.c) :
    Grown Rel (k.handed rq s.world) (k.announced s rq).world :=
  (recorded_within hk rq s).trans hk.trans (announce_within hk _)

/-! ## The log of an attempt -/

/-- The log of an attempt: its request is handed over in the environment {lit}`h`, and
before and after there is only what happens inside an attempt. -/
structure AttemptLog (Rel : σ → σ → Prop) (before : World σ) (a : Act) (after : World σ)
    (pre : List (Entry σ)) (h : σ) (post : List (Entry σ)) : Prop where
  log : after.log = before.log ++ (pre ++ ⟨h, a, h⟩ :: post)
  pre_aside : ∀ x ∈ pre, x.act.isAside = true
  post_aside : ∀ x ∈ post, x.act.isAside = true
  start : Rel before.env h
  finish : Rel h after.env

/-- The log of an attempt: what is before its request, the request, and what is behind it. -/
theorem attempt_log (hk : k.Within Rel) {rq : HttpRequest} {before after : World σ}
    (h : Grown Rel (k.handed rq before) after) :
    ∃ pre env post, AttemptLog Rel before (k.handing rq) after pre env post := by
  obtain ⟨⟨post, hpost, hpostAside⟩, hafter⟩ := h
  obtain ⟨⟨pre, hpre, hpreAside⟩, -⟩ :=
    debugLog_within hk.refl k.c (requestText rq) before
  refine ⟨pre, (k.handed rq before).env, post, ?_, hpreAside, hpostAside,
    handed_within hk rq before, hafter⟩
  rw [hpost]
  change ((k.c.debugLog (requestText rq) before).log ++ [_]) ++ post = _
  rw [hpre, List.append_assoc, List.append_assoc]
  rfl

/-- The log of the abort assist. -/
theorem assist_log (hk : k.Within Rel) (b : Backend) (w : World σ) :
    (k.koboldAbortAssist b w).log = w.log ∨
      ∃ pre env url, (k.koboldAbortAssist b w).log =
          w.log ++ (pre ++ [⟨env, .perform (assistRequest b url) false false, env⟩]) ∧
        ∀ x ∈ pre, x.act.isAside = true := by
  cases hurl : b.urlAbort with
  | none => exact .inl (congrArg World.log (k.koboldAbortAssist_none hurl w))
  | some url =>
      obtain ⟨⟨pre, hpre, haside⟩, -⟩ :=
        debugLog_within hk.refl k.c (requestText (assistRequest b url)) w
      refine .inr ⟨pre, (k.c.debugLog (requestText (assistRequest b url)) w).env, url, ?_, haside⟩
      rw [k.koboldAbortAssist_drained hurl, World.note_log, hpre, List.append_assoc]

end Call

end Sicha
