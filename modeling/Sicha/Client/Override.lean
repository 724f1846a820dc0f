import Sicha.Client.Within

/-!
# Overrides are local

Two runs of the same call, under a policy and under the same policy with one more status
override at the end of its list.

Main results:

- Theorem {lit}`classify_withOverride`: the classes differ for one status only, and only where
  the transport is fine and no earlier override names the status.
- Theorem {lit}`step_moved`: the turns of the two runs agree until an attempt ends with that
  status.
- Theorem {lit}`chat_override_local`: so do the runs.
-/

namespace Sicha

/-! ## One more override -/

/-- The policy with an override at the end of its list. -/
def RetryPolicy.withOverride (p : RetryPolicy) (o : StatusOverride) : RetryPolicy :=
  { p with overrides := .list (p.overrides.items ++ [o]) }

/-- The override decides about this status: it is outside 2xx and no earlier override names
it. -/
def RetryPolicy.Decides (p : RetryPolicy) (o : StatusOverride) : Prop :=
  httpSuccess o.httpStatus = false ∧ lookupOverride p o.httpStatus = none

/-- One more override is looked at behind the others. -/
theorem lookupOverride_withOverride (p : RetryPolicy) (o : StatusOverride) (httpStatus : Int) :
    lookupOverride (p.withOverride o) httpStatus =
      (lookupOverride p httpStatus).or
        (if o.httpStatus = httpStatus then some o.cls else none) := by
  have hitems : (p.withOverride o).overrides.items = p.overrides.items ++ [o] := rfl
  unfold lookupOverride
  rw [hitems, List.find?_append, Option.map_or]
  by_cases heq : o.httpStatus = httpStatus
  · simp [heq]
  · simp [heq]

/-- The classes are the same, unless the transport is fine and the override decides about the
status. -/
theorem classify_withOverride (p : RetryPolicy) (o : StatusOverride) (ts : TransportStatus)
    (httpStatus : Int) (bodyState : BodyState) (finish : FinishReason)
    (h : ¬ (ts = .ok ∧ httpStatus = o.httpStatus ∧ p.Decides o)) :
    classify (p.withOverride o) ts httpStatus bodyState finish =
      classify p ts httpStatus bodyState finish := by
  cases ts with
  | ok =>
      unfold classify
      dsimp only
      split_ifs with hsuccess
      · rfl
      · rw [lookupOverride_withOverride]
        cases hfound : lookupOverride p httpStatus with
        | some cls => rfl
        | none =>
            have hother : o.httpStatus ≠ httpStatus := by
              rintro rfl
              refine h ⟨rfl, rfl, ?_, hfound⟩
              simpa [httpSuccess] using hsuccess
            rw [if_neg hother]
            rfl
  | _ => rfl

/-- No override changes the class of a transport failure or of a 2xx response. -/
theorem classify_withOverride_fixed (p : RetryPolicy) (o : StatusOverride) (ts : TransportStatus)
    (httpStatus : Int) (bodyState : BodyState) (finish : FinishReason)
    (h : ts ≠ .ok ∨ httpSuccess httpStatus = true) :
    classify (p.withOverride o) ts httpStatus bodyState finish =
      classify p ts httpStatus bodyState finish := by
  refine classify_withOverride p o ts httpStatus bodyState finish ?_
  rintro ⟨hts, rfl, hsuccess, -⟩
  rcases h with hne | htwo
  · exact hne hts
  · rw [hsuccess] at htwo
    cases htwo

section Runs

variable [SizeT] {σ : Type}

/-- The client under the longer list. -/
def Client.withOverride (c : Client σ) (o : StatusOverride)
    (h : policyValidate (c.policy.withOverride o) = .ok) : Client σ :=
  { c with
    policy := c.policy.withOverride o
    policy_valid := h
    policy_resolved := congrArg (fun p => RetryPolicy.withOverride p o) c.policy_resolved }

namespace Call

variable (k : Call σ) (o : StatusOverride)
  (h : policyValidate (k.c.policy.withOverride o) = .ok)

/-- The call under the longer list. -/
def withOverride : Call σ :=
  { k with c := k.c.withOverride o h }

variable {k o}

/-- A state of the engine, seen from the other call. -/
def moved (s : LoopState k.c) : LoopState (k.withOverride o h).c where
  i := s.i
  retrySameUsed := s.retrySameUsed
  validationUsed := s.validationUsed
  tryOfBackend := s.tryOfBackend
  bodies := s.bodies
  headers := s.headers
  rng := s.rng
  attemptOrdinal := s.attemptOrdinal
  anyDelivered := s.anyDelivered
  final := s.final
  r := s.r
  world := s.world

/-! ## The parts of a turn -/

/-- The body does not depend on the policy. -/
theorem prepareBody_moved (s : LoopState k.c) :
    (k.withOverride o h).prepareBody (moved h s) =
      ((k.prepareBody s).1, moved h (k.prepareBody s).2) := by
  have hsame : (moved h s).bodies[(moved h s).i.val]? = s.bodies[s.i.val]? := rfl
  unfold prepareBody
  rw [hsame]
  cases (s.bodies[s.i.val]?).join with
  | some body => rfl
  | none =>
      have hbuild : (buildChatBody (k.withOverride o h).Y (k.withOverride o h).H
          ((k.withOverride o h).backend (moved h s)) (k.withOverride o h).req
          (k.withOverride o h).stream).exec (moved h s).world.env =
          (buildChatBody k.Y k.H (k.backend s) k.req k.stream).exec s.world.env := rfl
      dsimp only
      rw [hbuild]
      generalize (buildChatBody k.Y k.H (k.backend s) k.req k.stream).exec s.world.env = out
      obtain ⟨out, env⟩ := out
      cases out with
      | ok body => rfl
      | error st => rfl

/-- Nor do the headers. -/
theorem prepareHeaders_moved (s : LoopState k.c) :
    (k.withOverride o h).prepareHeaders (moved h s) =
      ((k.prepareHeaders s).1, moved h (k.prepareHeaders s).2) := by
  have hsame : (moved h s).headers[(moved h s).i.val]? = s.headers[s.i.val]? := rfl
  unfold prepareHeaders
  rw [hsame]
  cases (s.headers[s.i.val]?).join with
  | some headers => rfl
  | none =>
      have hbuild : (buildHeaders (k.withOverride o h).H ((k.withOverride o h).backend (moved h s))
          (k.withOverride o h).stream (k.withOverride o h).c.userAgent).exec
            (moved h s).world.env =
          (buildHeaders k.H (k.backend s) k.stream k.c.userAgent).exec s.world.env := rfl
      dsimp only
      rw [hbuild]
      generalize (buildHeaders k.H (k.backend s) k.stream k.c.userAgent).exec s.world.env = out
      obtain ⟨out, env⟩ := out
      cases out with
      | ok headers => rfl
      | error st => rfl

/-- Nor does the request. -/
theorem prepare_moved (s : LoopState k.c) :
    (k.withOverride o h).prepare (moved h s) = ((k.prepare s).1, moved h (k.prepare s).2) := by
  unfold prepare
  rw [prepareBody_moved]
  generalize k.prepareBody s = body
  obtain ⟨out, s1⟩ := body
  cases out with
  | error st => rfl
  | ok body =>
      dsimp only
      rw [prepareHeaders_moved]
      generalize k.prepareHeaders s1 = headers
      obtain ⟨out, s2⟩ := headers
      cases out with
      | error st => rfl
      | ok headers => rfl

/-- Nor does the round trip. -/
theorem roundTrip_moved (rq : HttpRequest) (s : LoopState k.c) :
    (k.withOverride o h).roundTrip rq (moved h s) = k.roundTrip rq s :=
  rfl

/-- Nor does the announcement of a record. -/
theorem announce_moved (s : LoopState k.c) :
    (k.withOverride o h).announce (moved h s) = moved h (k.announce s) := by
  have hsame : resultAttempt (moved h s).r ((moved h s).r.attempts.length - 1) =
      resultAttempt s.r (s.r.attempts.length - 1) := rfl
  unfold announce
  rw [hsame]
  cases resultAttempt s.r (s.r.attempts.length - 1) with
  | none => rfl
  | some a => rfl

/-- The chain moves on the same. -/
theorem advance_moved (s : LoopState k.c) :
    (k.withOverride o h).advance (moved h s) = (k.advance s).map (moved h) (moved h) := by
  unfold advance
  split_ifs with hnext hnext' hnext'
  · rfl
  · exact absurd hnext hnext'
  · exact absurd hnext' hnext
  · rfl

/-- A class is followed the same. -/
theorem dispatch_moved (cls : ErrorClass) (retryAfter : UInt64) (s : LoopState k.c) :
    (k.withOverride o h).dispatch cls retryAfter (moved h s) =
      (k.dispatch cls retryAfter s).map (moved h) (moved h) := by
  have hcommitted : (k.withOverride o h).committed (moved h s) = k.committed s := rfl
  cases cls with
  | none => rfl
  | abort => rfl
  | cancelled => rfl
  | validation =>
      have hmax : ((moved h s).validationUsed <
          (k.withOverride o h).c.policy.validationRetries.toNat) =
          (s.validationUsed < k.c.policy.validationRetries.toNat) := rfl
      simp only [dispatch, onValidation, hcommitted, hmax]
      split_ifs
      · rfl
      · rfl
      · exact advance_moved h s
  | retrySame =>
      have hwait : (k.withOverride o h).waited retryAfter (moved h s) =
          ((k.waited retryAfter s).1, moved h (k.waited retryAfter s).2) := rfl
      have hstep : ∀ k : Call σ, ∀ s : LoopState k.c, k.onRetrySame retryAfter s =
          if k.committed s then k.exit s .streamLost
          else if s.retrySameUsed + 1 ≥ k.c.policy.maxTries.toNat then
            k.advance { s with retrySameUsed := s.retrySameUsed + 1 }
          else if (k.waited retryAfter s).1 ≠ 0 then k.exit (k.waited retryAfter s).2 .cancelled
          else .inl (k.waited retryAfter s).2 := fun _ _ => rfl
      have hmax : ((moved h s).retrySameUsed + 1 ≥ (k.withOverride o h).c.policy.maxTries.toNat) =
          (s.retrySameUsed + 1 ≥ k.c.policy.maxTries.toNat) := rfl
      simp only [dispatch, hstep, hcommitted, hwait, hmax]
      split_ifs
      · rfl
      · exact advance_moved h { s with retrySameUsed := s.retrySameUsed + 1 }
      · rfl
      · rfl
  | advance =>
      simp only [dispatch, onAdvance, hcommitted]
      split_ifs
      · rfl
      · exact advance_moved h s

/-! ## A turn -/

/-- The attempt ends with the status the override decides about. -/
def Hit (k : Call σ) (o : StatusOverride) (x : Ran σ) : Prop :=
  x.o.v.ts = .ok ∧ x.o.httpStatus = o.httpStatus ∧ k.c.policy.Decides o

/-- A round trip that the override does not hit is classified the same. -/
theorem firstClass_moved {x : Ran σ} (hx : ¬ k.Hit o x) :
    (k.withOverride o h).firstClass x = k.firstClass x := by
  unfold firstClass
  split_ifs
  · rfl
  · exact classify_withOverride k.c.policy o _ _ _ _ hx

/-- It is judged the same. -/
theorem judge_moved {x : Ran σ} (hx : ¬ k.Hit o x) :
    (k.withOverride o h).judge x = k.judge x := by
  have hfirst := firstClass_moved h hx
  have hvalidator : (k.withOverride o h).validator x = k.validator x := by
    unfold validator
    rw [hfirst]
    rfl
  unfold judge
  rw [hvalidator, hfirst]

/-- The rest of a turn, once its round trip is over. -/
theorem conclude_moved {x : Ran σ} (hx : ¬ k.Hit o x) (s : LoopState k.c) :
    (k.withOverride o h).conclude (moved h s) x = (k.conclude s x).map (moved h) (moved h) := by
  have hrecord : (k.withOverride o h).afterRecord (moved h s) x (k.judge x) =
      ((k.afterRecord s x (k.judge x)).1, moved h (k.afterRecord s x (k.judge x)).2) := rfl
  unfold conclude
  rw [judge_moved h hx]
  dsimp only
  rw [hrecord]
  generalize k.afterRecord s x (k.judge x) = out
  obtain ⟨st, s2⟩ := out
  cases st with
  | ok =>
      dsimp only
      rw [announce_moved]
      have hfinal : ((moved h (k.announce s2)).final = .nomem) =
          ((k.announce s2).final = .nomem) := rfl
      simp only [hfinal]
      split_ifs
      · rfl
      · exact dispatch_moved h _ _ _
  | _ => rfl

/-- The attempt of a turn is the same. -/
theorem attempt_moved (s : LoopState k.c) :
    (k.withOverride o h).attempt? (moved h s) =
      (k.attempt? s).map fun t => (t.1, moved h t.2) := by
  have hpoll : ((k.withOverride o h).poll (moved h s).world).1 = (k.poll s.world).1 := rfl
  have hpolled : (k.withOverride o h).polled (moved h s) = moved h (k.polled s) := rfl
  unfold attempt?
  rw [hpoll, hpolled, prepare_moved]
  split_ifs
  · rfl
  · generalize k.prepare (k.polled s) = out
    obtain ⟨out, s1⟩ := out
    cases out with
    | ok rq => rfl
    | error st => rfl

/-- A turn whose attempt is no hit is the same in both runs. -/
theorem step_moved {s : LoopState k.c}
    (hs : ∀ t, k.attempt? s = some t → ¬ k.Hit o (k.roundTrip t.1 t.2)) :
    (k.withOverride o h).step (moved h s) = (k.step s).map (moved h) (moved h) := by
  have hpoll : (k.withOverride o h).poll (moved h s).world = k.poll s.world := rfl
  have hpolled : ∀ w, ({ moved h s with world := w } : LoopState (k.withOverride o h).c) =
      moved h { s with world := w } := fun _ => rfl
  unfold step
  dsimp only
  rw [hpoll, hpolled, prepare_moved]
  split_ifs with hcancelled
  · rfl
  · rcases hprep : k.prepare (k.polled s) with ⟨out, s1⟩
    rw [show k.prepare { s with world := (k.poll s.world).2 } = (out, s1) from hprep]
    cases out with
    | error st => rfl
    | ok rq =>
        have hattempt : k.attempt? s = some (rq, s1) := by
          rw [attempt?, if_neg hcancelled, hprep]
        exact conclude_moved h (hs (rq, s1) hattempt) s1

/-! ## What a turn adds -/

/-- What was logged and recorded is still there. -/
structure Later (s s' : LoopState k.c) : Prop where
  log : s.world.log <+: s'.world.log
  attempts : s.r.attempts <+: s'.r.attempts

/-- Later than later is later. -/
theorem Later.trans {s s' s'' : LoopState k.c} (h : Later s s') (h' : Later s' s'') :
    Later s s'' :=
  ⟨h.log.trans h'.log, h.attempts.trans h'.attempts⟩

/-- To hand a request over adds to the log. -/
theorem handed_log (rq : HttpRequest) (w : World σ) : w.log <+: (k.handed rq w).log := by
  unfold handed Client.debugLog
  split_ifs
  · exact ⟨_, (List.append_assoc _ _ _).symm⟩
  · exact ⟨_, rfl⟩

/-- The abort assist adds to the log. -/
theorem koboldAbortAssist_log (b : Backend) (w : World σ) :
    w.log <+: (k.koboldAbortAssist b w).log := by
  cases hurl : b.urlAbort with
  | none => exact ⟨[], by rw [k.koboldAbortAssist_none hurl, List.append_nil]⟩
  | some url =>
      rw [k.koboldAbortAssist_drained hurl]
      exact (debugLog_within (fun _ => trivial) k.c _ w : Grown (fun _ _ => True) w _).log_le.trans
        ⟨_, rfl⟩

/-- What follows a recorded attempt only adds. -/
theorem Next.later {cls : ErrorClass} {retryAfter : UInt64} {s : LoopState k.c}
    {out : LoopState k.c ⊕ LoopState k.c} (h : k.Next cls retryAfter s out) :
    Later s (Sum.elim id id out) := by
  cases h with
  | cancelled _ => exact ⟨koboldAbortAssist_log _ _, List.prefix_refl _⟩
  | interrupted _ _ _ _ => exact ⟨⟨_, rfl⟩, List.prefix_refl _⟩
  | retry _ _ _ _ => exact ⟨⟨_, rfl⟩, List.prefix_refl _⟩
  | _ => exact ⟨List.prefix_refl _, List.prefix_refl _⟩

/-- A poll is a step forward. -/
theorem polled_later (s : LoopState k.c) : Later s (k.polled s) := by
  refine ⟨?_, List.prefix_refl _⟩
  unfold polled poll
  cases k.cancel with
  | none => exact List.prefix_refl _
  | some token => exact ⟨_, rfl⟩

/-- So is a request that is prepared. -/
theorem prepared_later {s s1 : LoopState k.c} {out : Except Status HttpRequest}
    (h : k.prepare (k.polled s) = (out, s1)) : Later s s1 := by
  obtain ⟨bodies, headers, env, hs1⟩ := (k.prepare_spec (k.polled s)).1
  rw [h] at hs1
  dsimp only at hs1
  subst hs1
  exact (polled_later s).trans ⟨List.prefix_refl _, List.prefix_refl _⟩

/-- A record adds to the log. -/
theorem recorded_log (rq : HttpRequest) (s : LoopState k.c) :
    (k.roundTrip rq s).world.log <+: (k.recorded s rq).2.world.log := by
  have hjudged : (k.recorded s rq).2.world = { (k.judge (k.roundTrip rq s)).world with
      env := (k.recorded s rq).2.world.env } := rfl
  rw [hjudged]
  exact (judge_within k.within_top (k.roundTrip rq s)).log_le

/-- A record stands behind those before it. -/
theorem recorded_attempts (rq : HttpRequest) (s : LoopState k.c) :
    s.r.attempts <+: (k.recorded s rq).2.r.attempts := by
  have hout := k.recorded_outcome rq s
  have hbefore : (k.roundTrip rq s).r.attempts = s.r.attempts :=
    (k.roundTrip_given rq s).records.attempts
  rw [← hbefore]
  generalize (k.recorded s rq).2.r = r at hout
  generalize (k.recorded s rq).1 = st at hout
  cases hout with
  | stored cap => exact List.prefix_append _ _
  | refused cap hH => exact List.prefix_refl _

/-- An announcement is a step forward. -/
theorem announce_later (s : LoopState k.c) : Later s (k.announce s) := by
  refine ⟨(announce_within k.within_top s).log_le, ?_⟩
  unfold announce
  split <;> exact List.prefix_refl _

/-- The log of a round trip, and the records before it, are still there when it is
announced. -/
theorem announced_later (rq : HttpRequest) (s : LoopState k.c) :
    (k.roundTrip rq s).world.log <+: (k.announced s rq).world.log ∧
      s.r.attempts <+: (k.announced s rq).r.attempts := by
  have hlater := announce_later (k.recorded s rq).2
  unfold announced
  exact ⟨(recorded_log rq s).trans hlater.log, (recorded_attempts rq s).trans hlater.attempts⟩

/-- The attempt of a turn is still there when the turn is over. -/
theorem Turn.attempt_later {s : LoopState k.c} {out : LoopState k.c ⊕ LoopState k.c}
    (h : k.Turn s out) {t : HttpRequest × LoopState k.c} (ht : k.attempt? s = some t) :
    (k.roundTrip t.1 t.2).world.log <+: (Sum.elim id id out).world.log ∧
      t.2.r.attempts <+: (Sum.elim id id out).r.attempts := by
  cases h with
  | cancelled hpoll =>
      rw [attempt?, if_pos hpoll] at ht
      cases ht
  | unprepared hpoll hprep =>
      rw [attempt?, if_neg (by simp [hpoll]), hprep] at ht
      cases ht
  | @unrecorded rq s1 hpoll hprep _ =>
      rw [attempt?, if_neg (by simp [hpoll]), hprep] at ht
      cases ht
      exact ⟨recorded_log rq s1, recorded_attempts rq s1⟩
  | @terminal rq s1 hpoll hprep _ _ =>
      rw [attempt?, if_neg (by simp [hpoll]), hprep] at ht
      cases ht
      rw [Sum.elim_inr, id]
      exact announced_later rq s1
  | @next rq s1 _ hpoll hprep _ _ hnext =>
      rw [attempt?, if_neg (by simp [hpoll]), hprep] at ht
      cases ht
      have hannounced := announced_later rq s1
      exact ⟨hannounced.1.trans hnext.later.log, hannounced.2.trans hnext.later.attempts⟩

/-- A turn only adds. -/
theorem Turn.later {s : LoopState k.c} {out : LoopState k.c ⊕ LoopState k.c}
    (h : k.Turn s out) : Later s (Sum.elim id id out) := by
  have hattempt : ∀ rq s1, (k.poll s.world).1 = false →
      k.prepare (k.polled s) = (.ok rq, s1) → Later s (Sum.elim id id out) := by
    intro rq s1 hpoll hprep
    have hdone := h.attempt_later (show k.attempt? s = some (rq, s1) by
      rw [attempt?, if_neg (by simp [hpoll]), hprep])
    have hbefore := prepared_later hprep
    have htrip := (handed_log rq s1.world).trans (roundTrip_within k.within_top rq s1).log_le
    exact ⟨(hbefore.log.trans htrip).trans hdone.1, hbefore.attempts.trans hdone.2⟩
  cases h with
  | cancelled _ => exact (polled_later s).trans ⟨List.prefix_refl _, List.prefix_refl _⟩
  | unprepared _ hprep =>
      exact (prepared_later hprep).trans ⟨List.prefix_refl _, List.prefix_refl _⟩
  | unrecorded hpoll hprep _ => exact hattempt _ _ hpoll hprep
  | terminal hpoll hprep _ _ => exact hattempt _ _ hpoll hprep
  | next hpoll hprep _ _ _ => exact hattempt _ _ hpoll hprep

/-! ## Runs -/

/-- Both calls enter their loops the same, or end the same before. -/
theorem enter_moved (ordinal : UInt32) (w : World σ) :
    (k.withOverride o h).enter ordinal w = (k.enter ordinal w).map id (moved h) := by
  have harrays : ∀ r w, (k.withOverride o h).arrays ordinal r w =
      (k.arrays ordinal r w).map id (moved h) := by
    intro r w
    have hlength : (k.withOverride o h).c.backends.length = k.c.backends.length := rfl
    have hheap : (k.withOverride o h).H = k.H := rfl
    unfold arrays
    dsimp only
    rw [hlength, hheap]
    split_ifs <;> rfl
  have hcbs : (k.withOverride o h).cbs = k.cbs := rfl
  have hvalidate : requestValidate (k.withOverride o h).Y (k.withOverride o h).H
      (k.withOverride o h).req = requestValidate k.Y k.H k.req := rfl
  have hcreate : resultCreate (k.withOverride o h).H (k.withOverride o h).c.maxResponseBytes =
      resultCreate k.H k.c.maxResponseBytes := rfl
  unfold enter
  rw [hcbs, hvalidate, hcreate]
  split_ifs
  · rfl
  · generalize (requestValidate k.Y k.H k.req).exec w.env = out
    obtain ⟨out, env⟩ := out
    cases out with
    | error st => rfl
    | ok valid =>
        dsimp only
        generalize resultCreate k.H k.c.maxResponseBytes env = created
        obtain ⟨created, env⟩ := created
        cases created with
        | none => rfl
        | some r =>
            dsimp only
            rw [harrays]
            rw [Sum.map_map, Sum.map_map]
            rfl

/-- The result is handed out the same. -/
theorem handOut_moved (s : LoopState k.c) :
    (k.withOverride o h).handOut (moved h s) = k.handOut s :=
  rfl

/-- A run without a hit is the same under the longer list. -/
theorem run_moved {ordinal : UInt32} {w : World σ}
    (hrun : ∀ t ∈ k.attempts ordinal w, ¬ k.Hit o (k.roundTrip t.1 t.2)) :
    (k.withOverride o h).run ordinal w = k.run ordinal w := by
  have henter := enter_moved h ordinal w
  rw [run_eq, run_eq]
  unfold attempts at hrun
  rw [henter]
  cases hstart : k.enter ordinal w with
  | inl e => rfl
  | inr s =>
      rw [hstart] at hrun
      have hagree := (Loop.run_lockstep (L := k.attemptLoop)
        (M := (k.withOverride o h).attemptLoop) (moved h) (moved h)
        fun s hs => step_moved h fun t ht => hrun t (List.mem_filterMap.mpr ⟨s, hs, ht⟩)).2
      exact (congrArg (k.withOverride o h).handOut hagree).trans (handOut_moved h _)

/-- What a run does behind an attempt is behind it in the log, and its record behind the
records before it. -/
theorem loop_later {s : LoopState k.c} {t : HttpRequest × LoopState k.c}
    (ht : k.attempt? s = some t) :
    (k.roundTrip t.1 t.2).world.log <+: (k.attemptLoop.run s).world.log ∧
      t.2.r.attempts <+: (k.attemptLoop.run s).r.attempts := by
  have hturn := k.step_turn s
  have hdone := hturn.attempt_later ht
  cases hstep : k.step s with
  | inr f =>
      rw [hstep] at hdone
      rw [Loop.run_of_leave (L := k.attemptLoop) hstep]
      exact hdone
  | inl s' =>
      rw [hstep] at hdone
      rw [Loop.run_of_round (L := k.attemptLoop) hstep]
      refine @run_turns _ _ k
        (fun s => (k.roundTrip t.1 t.2).world.log <+: s.world.log ∧
          t.2.r.attempts <+: s.r.attempts)
        (fun f => (k.roundTrip t.1 t.2).world.log <+: f.world.log ∧
          t.2.r.attempts <+: f.r.attempts) ?_ s' hdone
      intro s out hs hturn
      have hlater := hturn.later
      cases out with
      | inl s' => exact ⟨hs.1.trans hlater.log, hs.2.trans hlater.attempts⟩
      | inr f => exact ⟨hs.1.trans hlater.log, hs.2.trans hlater.attempts⟩

/-- The log of an attempt begins that of its run, and the records before it begin those of the
result. -/
structure Past (t : HttpRequest × LoopState k.c) (e : ChatEnd σ) : Prop where
  log : (k.roundTrip t.1 t.2).world.log <+: e.world.log
  records : t.2.r.attempts <+: e.records

/-- An attempt of a call lies in the past of its end. -/
theorem run_past {ordinal : UInt32} {w : World σ} {t : HttpRequest × LoopState k.c}
    (ht : t ∈ k.attempts ordinal w) : Past t (k.run ordinal w) := by
  obtain ⟨s, ⟨start, hstart, hreach⟩, hattempt⟩ := k.attempts_reaches ht
  have hlater := loop_later hattempt
  rw [← hreach.run_eq] at hlater
  rw [run_eq, hstart]
  exact ⟨hlater.1, hlater.2⟩

/-- The attempts of the two runs are the same up to the first hit, and so is that one. -/
theorem attempts_moved {ordinal : UInt32} {w : World σ}
    {pre post : List (HttpRequest × LoopState k.c)} {t : HttpRequest × LoopState k.c}
    (hrun : k.attempts ordinal w = pre ++ t :: post)
    (hpre : ∀ u ∈ pre, ¬ k.Hit o (k.roundTrip u.1 u.2)) :
    ∃ post', (k.withOverride o h).attempts ordinal w =
      (pre ++ [t]).map (fun u => (u.1, moved h u.2)) ++ post' := by
  have henter := enter_moved h ordinal w
  unfold attempts at hrun ⊢
  rw [henter]
  cases hstart : k.enter ordinal w with
  | inl e =>
      rw [hstart] at hrun
      cases pre <;> cases hrun
  | inr start =>
      rw [hstart] at hrun
      obtain ⟨before, rest, htrail, hbefore, hrest⟩ := List.filterMap_eq_append_iff.mp hrun
      obtain ⟨idle, s, after, rfl, hidle, hs, -⟩ := List.filterMap_eq_cons_iff.mp hrest
      have hsteps : ∀ x ∈ before ++ idle, (k.withOverride o h).attemptLoop.step (moved h x) =
          (k.attemptLoop.step x).map (moved h) (moved h) := by
        intro x hx
        refine step_moved h fun u hu => ?_
        rcases List.mem_append.mp hx with hx | hx
        · exact hpre u (hbefore ▸ List.mem_filterMap.mpr ⟨x, hx, hu⟩)
        · rw [hidle x hx] at hu
          cases hu
      rw [← List.append_assoc] at htrail
      obtain ⟨more, hmore⟩ := Loop.trail_lockstep_until (moved h) (moved h) htrail hsteps
      have hcommute : ∀ xs : List (LoopState k.c),
          (xs.map (moved h)).filterMap (k.withOverride o h).attempt? =
            (xs.filterMap k.attempt?).map fun u => (u.1, moved h u.2) := by
        intro xs
        rw [List.filterMap_map, List.map_filterMap]
        exact List.filterMap_congr fun x _ => attempt_moved h x
      refine ⟨more.filterMap (k.withOverride o h).attempt?, ?_⟩
      have hnone : idle.filterMap k.attempt? = [] := List.filterMap_eq_nil_iff.mpr hidle
      calc ((k.withOverride o h).attemptLoop.trail (moved h start)).filterMap
            (k.withOverride o h).attempt?
          = (((before ++ idle ++ [s]).map (moved h)) ++ more).filterMap
              (k.withOverride o h).attempt? := by
            rw [hmore]
            simp
        _ = _ := by
            rw [List.filterMap_append, hcommute, List.filterMap_append, List.filterMap_append,
              hbefore, hnone, List.append_nil]
            simp [hs]

end Call

/-! ## Calls -/

/-- One more override at the end of the list is local.  A run without an attempt that ends with
its status, outside 2xx and not named by an earlier override, is the same under the longer list.
Any other is the same up to the first such attempt, round trip included: up to there the two runs
hand over the same requests in the same states, and both go on from the same log and the same
records.  And no override changes the class of a transport failure or of a 2xx response. -/
theorem chat_override_local (k : Call σ) (o : StatusOverride)
    (h : policyValidate (k.c.policy.withOverride o) = .ok) (ordinal : UInt32) (env : σ) :
    let k' := k.withOverride o h
    let e := chatCommon k.Y k.H (some k.c) (some k.req) k.cbs k.cancel true k.stream ordinal
      ⟨env, []⟩
    let e' := chatCommon k.Y k.H (some (k.c.withOverride o h)) (some k.req) k.cbs k.cancel true
      k.stream ordinal ⟨env, []⟩
    ((∀ t ∈ k.attempts ordinal ⟨env, []⟩, ¬ k.Hit o (k.roundTrip t.1 t.2)) → e' = e) ∧
      (∀ pre t post, k.attempts ordinal ⟨env, []⟩ = pre ++ t :: post →
        (∀ u ∈ pre, ¬ k.Hit o (k.roundTrip u.1 u.2)) →
          (∃ post', k'.attempts ordinal ⟨env, []⟩ =
            (pre ++ [t]).map (fun u => (u.1, Call.moved h u.2)) ++ post') ∧
          k'.roundTrip t.1 (Call.moved h t.2) = k.roundTrip t.1 t.2 ∧
          Call.Past t e ∧ Call.Past t e') ∧
      ∀ ts httpStatus bodyState finish, ts ≠ .ok ∨ httpSuccess httpStatus = true →
        classify (k.c.policy.withOverride o) ts httpStatus bodyState finish =
          classify k.c.policy ts httpStatus bodyState finish := by
  refine ⟨Call.run_moved h, ?_, classify_withOverride_fixed k.c.policy o⟩
  intro pre t post hrun hpre
  obtain ⟨post', hrun'⟩ := Call.attempts_moved h hrun hpre
  have hpast : Call.Past t (k.run ordinal ⟨env, []⟩) := Call.run_past (by rw [hrun]; simp)
  have hpast' := @Call.run_past _ _ (k.withOverride o h) ordinal ⟨env, []⟩
    (t.1, Call.moved h t.2) (by rw [hrun']; simp)
  exact ⟨⟨post', hrun'⟩, Call.roundTrip_moved h t.1 t.2, hpast, hpast'.log, hpast'.records⟩

end Runs

section Plain

attribute [local instance] lp64
-- the runs below are matched by their arguments, and not evaluated
attribute [local irreducible] Call.run

/-- A call to a backend that is always busy. -/
def busyCall : Call Unit where
  Y := plainYyjson [] .null
  H := Heap.plentiful
  c := plainClient 0 1048576 plainCap_pos busyTransport
  req := plainRequest
  cbs := none
  cancel := none
  stream := false

/-- An override of another status leaves its run alone, and one of its own status leaves the
first attempt alone. -/
theorem chat_override_local_busy :
    let e := busyCall.run 0 ⟨(), []⟩
    (busyCall.withOverride ⟨404, .advance⟩ (by decide)).run 0 ⟨(), []⟩ = e ∧
      ∃ t post, busyCall.attempts 0 ⟨(), []⟩ = t :: post ∧
        (busyCall.roundTrip t.1 t.2).o.httpStatus = 503 ∧ Call.Past t e ∧
        Call.Past t ((busyCall.withOverride ⟨503, .advance⟩ (by decide)).run 0 ⟨(), []⟩) := by
  have hattempts : (busyCall.attempts 0 ⟨(), []⟩).map
      (fun t => (busyCall.roundTrip t.1 t.2).o.httpStatus) = [503, 503, 503] := by
    decide +kernel
  obtain ⟨hsame, -⟩ := chat_override_local busyCall ⟨404, .advance⟩ (by decide) 0 ()
  obtain ⟨-, huntil, -⟩ := chat_override_local busyCall ⟨503, .advance⟩ (by decide) 0 ()
  refine ⟨hsame fun t ht hhit => ?_, ?_⟩
  · have hmem := List.mem_map_of_mem (f := fun t => (busyCall.roundTrip t.1 t.2).o.httpStatus) ht
    rw [hattempts, hhit.2.1] at hmem
    simp at hmem
  · obtain ⟨t, post, hlist, hstatus, -⟩ := List.map_eq_cons_iff.mp hattempts
    obtain ⟨-, -, hpast, hpast'⟩ := huntil [] t post hlist (by simp)
    exact ⟨t, post, hlist, hstatus, hpast, hpast'⟩

end Plain

end Sicha
