import Sicha.Client.Besides
import Sicha.Client.BuiltIn
import Sicha.Transport.Budget

/-!
# How long a call may take

A call spends its time in the transport and in the waits between attempts.  If every backend has a
total budget, and a perform and a wait keep to what they are given, then the whole call keeps to
what the backends and the policy say.

Main results:

- Theorem {lit}`builtIn_punctual`: both built-in transports keep to the total budget.
- Definition {lit}`Client.span`: the time of a call, as the policy and the backends bound it.
- Theorem {lit}`turn_inTime`: a turn spends what it takes off the rest.
- Theorem {lit}`chat_inTime`: the bound.
-/

namespace Sicha

/-! ## Punctual transports -/

section Punctual

variable {σ : Type}

/-- Every perform with a total budget is over when the budget is, at most {lit}`lag` later. -/
def Transport.Punctual (t : Transport σ) (time : σ → UInt64) (lag : Nat) : Prop :=
  ∀ rq sink cancel s, rq.timeouts.totalMs ≠ disabled →
    let limit := (time s).toNat + rq.timeouts.totalMs.toNat + lag
    (t.perform rq sink cancel s).Assures (Untimed time) (NotAfter time limit)
      fun _ => NotAfter time limit

/-- A transport keeps to a budget as its definition on fuel does. -/
theorem Transport.Runs.punctual {t : Transport σ} {perform : FuelledPerform σ} (hruns : t.Runs perform)
    {time : σ → UInt64} {lag : Nat}
    (hbudget : ∀ fuel sink rq cancel s, rq.timeouts.totalMs ≠ disabled →
      let limit := (time s).toNat + rq.timeouts.totalMs.toNat + lag
      (perform fuel sink rq cancel s).Assures (Untimed time) (NotAfter time limit)
        fun _ => NotAfter time limit) : t.Punctual time lag := by
  intro rq sink cancel s htotal limit
  obtain ⟨fuel, hfuel⟩ := hruns rq sink cancel s
  refine Dialogue.Assures.of_bind_done (f := some) ?_
  rw [hfuel]
  exact hbudget fuel sink rq cancel s htotal

/-- The scripted transport keeps to the total budget, up to what a wait takes too long. -/
theorem scripted_punctual {time : σ → UInt64} {lag : Nat} {H : Heap σ}
    {ck : Clock (ScriptState × σ)} {t : Transport (ScriptState × σ)}
    (hH : ∀ n s, Untimed time s (H.alloc n s).2) (hck : ck.Prompt (fun s => time s.2) lag)
    (hruns : t.Runs (scriptFuelled H ck)) : t.Punctual (fun s => time s.2) lag :=
  hruns.punctual fun fuel sink rq cancel s htotal =>
    scriptPerform_budget hH hck cancel fuel sink rq s htotal

/-- The curl transport keeps to the total budget, up to a poll and what a poll and a round of
libcurl take too long. -/
theorem curl_punctual {α : Type} {time : σ → UInt64} {lag : Nat} {C : CurlInit α σ}
    {L : Libcurl α (CurlPool α × σ)} {H : Heap (CurlPool α × σ)} {ck : Clock (CurlPool α × σ)}
    {t : Transport (CurlPool α × σ)}
    (hC : ∀ s, Untimed time s (C.easy s).2 ∧ Untimed time s (C.multi s).2)
    (hL : L.Prompt (fun s => time s.2) lag)
    (hH : ∀ n s, Untimed (fun s => time s.2) s (H.alloc n s).2)
    (hck : ck.Prompt (fun s => time s.2) lag) (hruns : t.Runs (curlFuelled C L H ck)) :
    t.Punctual (fun s => time s.2) (curlPollMs + 2 * lag) := by
  refine hruns.punctual fun fuel sink rq cancel s htotal => ?_
  have hrun := curlPerform_budget hC hL hH hck cancel fuel sink rq s htotal
  rwa [Nat.add_assoc _ curlPollMs] at hrun

/-- Both built-in transports keep to the total budget of a request, whatever the peer does, however
the body is cut, and whether there is a sink and a token or not, if the sink, the allocator and the
creation of handles take no time: the scripted one up to what a wait takes too long, and the curl one
up to a poll and what a poll and a round of libcurl take too long. -/
theorem builtIn_punctual {α : Type} (time : σ → UInt64) (lag : Nat) :
    (∀ (H : Heap σ) (ck : Clock (ScriptState × σ)) (t : Transport (ScriptState × σ)),
        (∀ n s, Untimed time s (H.alloc n s).2) → ck.Prompt (fun s => time s.2) lag →
        t.Runs (scriptFuelled H ck) → t.Punctual (fun s => time s.2) lag) ∧
      ∀ (C : CurlInit α σ) (L : Libcurl α (CurlPool α × σ)) (H : Heap (CurlPool α × σ))
        (ck : Clock (CurlPool α × σ)) (t : Transport (CurlPool α × σ)),
        (∀ s, Untimed time s (C.easy s).2 ∧ Untimed time s (C.multi s).2) →
        L.Prompt (fun s => time s.2) lag →
        (∀ n s, Untimed (fun s => time s.2) s (H.alloc n s).2) →
        ck.Prompt (fun s => time s.2) lag →
        t.Runs (curlFuelled C L H ck) →
        t.Punctual (fun s => time s.2) (curlPollMs + 2 * lag) :=
  ⟨fun _ _ _ => scripted_punctual, fun _ _ _ _ _ => curl_punctual⟩

/-- The steady clock keeps to what it is given. -/
theorem steadyClock_prompt : steadyClock.Prompt (fun s => s.2) 0 :=
  ⟨fun _ => rfl, fun _ => rfl, fun _ ms s => (addSat_toNat s.2 ms).trans_le (min_le_left _ _)⟩

/-- The plain libcurl takes no time. -/
theorem plainLibcurl_prompt {α : Type} (time : σ → UInt64) (lag : Nat) :
    (plainLibcurl (α := α)).Prompt time lag := by
  have hover (calls : List CurlCall) {s s' : σ} (hs : Untimed time s s') (slot : CurlSlot α) :
      (handOver calls s').Assures (Untimed time) (Later time lag s) fun o s'' =>
        Later time lag s s'' ∧ (o = (.ok, false) → (plainLibcurl.infoRead slot s'').1 ≠ none) := by
    have hlater {s' : σ} (hs : Untimed time s s') : Later time lag s s' :=
      ⟨(congrArg UInt64.toNat hs).ge, (congrArg UInt64.toNat hs).trans_le (Nat.le_add_right _ _)⟩
    induction calls generalizing s' with
    | nil => exact ⟨hlater hs, fun _ => nofun⟩
    | cons q calls ih =>
        refine ⟨hlater hs, fun n s'' hmove => ?_⟩
        dsimp only
        split_ifs
        · exact ⟨hlater (hmove.trans hs), fun _ => nofun⟩
        · exact ih (hmove.trans hs)
  exact ⟨fun _ _ => rfl, fun _ _ _ => rfl, fun slot s => hover _ rfl slot, fun _ _ => rfl,
    fun _ s => ⟨Nat.le_refl _, Nat.le_add_right _ _⟩, fun _ _ => rfl, fun _ _ => rfl⟩

/-- Both transports with a clock that keeps to what it is given. -/
theorem builtIn_punctual_plain :
    (scriptTransport Heap.plentiful steadyClock).Punctual (fun s => s.2) 0 ∧
      plainCurlTransport.Punctual (fun _ => 0) curlPollMs := by
  refine ⟨(builtIn_punctual (α := Unit) id 0).1 Heap.plentiful _ _ (fun _ _ => rfl)
      steadyClock_prompt (scriptTransport_runs Heap.plentiful steadyClock_keepsTime),
    (builtIn_punctual (fun _ => 0) 0).2 plainHandles plainLibcurl Heap.plentiful stillClock _
      (fun _ => ⟨rfl, rfl⟩) (plainLibcurl_prompt _ 0) (fun _ _ => rfl)
      ⟨fun _ => rfl, fun _ => rfl, fun _ _ _ => Nat.zero_le _⟩ ?_⟩
  exact fun rq sink cancel s => ⟨1, (plainPerform_settled _ sink rq cancel s).bind_getD .other⟩

end Punctual

/-! ## The time of a call -/

section Span

variable [SizeT] {σ : Type} {time : σ → UInt64} {lag : Nat}

omit [SizeT] in
/-- The backoff keeps to its cap. -/
theorem backoffMs_le (p : RetryPolicy) (k : UInt32) (draw : UInt64) :
    (backoffMs p k draw).toNat ≤ p.backoffCapMs.toNat := by
  have hleast (wait cap : UInt64) : (if wait < cap then wait else cap).toNat ≤ cap.toNat := by
    split_ifs with hlt
    · exact UInt64.le_iff_toNat_le.mp (UInt64.le_of_lt hlt)
    · exact le_rfl
  exact (hleast _ _).trans_eq (UInt32.toNat_toUInt64 _)

/-- The longest wait between two attempts. -/
def Client.waitMost (c : Client σ) : Nat :=
  max c.policy.backoffCapMs.toNat
    (if c.policy.retryAfterCapMs = disabled then 0 else c.policy.retryAfterCapMs.toNat)

/-- The time of one attempt on a backend, at most. -/
def attemptSpan (lag : Nat) (b : Backend) : Nat :=
  b.timeouts.totalMs.toNat + lag

/-- The time of all attempts on a backend and of the waits between them. -/
def Client.backendSpan (c : Client σ) (lag : Nat) (b : Backend) : Nat :=
  (c.policy.maxTries.toNat + c.policy.validationRetries.toNat) * attemptSpan lag b +
    (c.policy.maxTries.toNat - 1) * (c.waitMost + lag)

/-- The time of the abort assist. -/
def assistSpan (lag : Nat) : Nat :=
  2000 + lag

/-- The time of a call. -/
def Client.span (c : Client σ) (lag : Nat) : Nat :=
  (c.backends.map (c.backendSpan lag)).sum + assistSpan lag

/-- Every perform and every wait of a client keeps to what it is given, and nothing else takes
time. -/
structure Client.Punctual (H : Heap σ) (c : Client σ) (cbs : Option (Callbacks σ))
    (time : σ → UInt64) (lag : Nat) : Prop where
  besides : Besides H c cbs (Untimed time)
  waits : ∀ token ms s,
    NotAfter time ((time s).toNat + ms.toNat + lag) (c.clock.waitMs token ms s).2
  performs : c.transport.Punctual time lag
  budgets : ∀ b ∈ c.backends, b.timeouts.totalMs ≠ disabled

namespace Call

variable {k : Call σ}

/-- A wait is no longer than the policy says. -/
theorem waitFor_le (k : Call σ) (retryAfter : UInt64) (used : Nat) (rng : UInt64) :
    (k.waitFor retryAfter used rng).1.toNat ≤ k.c.waitMost := by
  unfold waitFor Client.waitMost
  split_ifs with hasked hcap hoff hoff
  · exact absurd hoff hasked.2
  · rw [UInt32.toNat_toUInt64]
    exact le_max_right _ _
  · exact absurd hoff hasked.2
  · have hle := UInt64.le_iff_toNat_le.mp (UInt64.not_lt.mp hcap)
    rw [UInt32.toNat_toUInt64] at hle
    exact hle.trans (le_max_right _ _)
  all_goals exact (backoffMs_le _ _ _).trans (le_max_left _ _)

/-- The time that is left for a call at the head of its loop, on a backend of the chain and with so
many retries and re-rolls used up. -/
def left (k : Call σ) (lag : Nat) (i : Fin k.c.backends.length) (retries rerolls : Nat) : Nat :=
  ((k.c.policy.maxTries.toNat - retries) + (k.c.policy.validationRetries.toNat - rerolls)) *
      attemptSpan lag (k.c.backends.get i) +
    (k.c.policy.maxTries.toNat - 1 - retries) * (k.c.waitMost + lag) +
    ((k.c.backends.drop (i.val + 1)).map (k.c.backendSpan lag)).sum

section Left

variable {i : Fin k.c.backends.length} {retries rerolls : Nat}

/-- While there are tries left there is time for an attempt. -/
theorem left_attempt (h : retries < k.c.policy.maxTries.toNat) :
    attemptSpan lag (k.c.backends.get i) ≤ k.left lag i retries rerolls := by
  have hone := Nat.le_mul_of_pos_left (attemptSpan lag (k.c.backends.get i))
    (show 0 < (k.c.policy.maxTries.toNat - retries) +
      (k.c.policy.validationRetries.toNat - rerolls) by omega)
  unfold left
  omega

/-- A re-roll uses up the time of one attempt. -/
theorem left_reroll (h : rerolls < k.c.policy.validationRetries.toNat) :
    k.left lag i retries rerolls =
      attemptSpan lag (k.c.backends.get i) + k.left lag i retries (rerolls + 1) := by
  have hone : (k.c.policy.maxTries.toNat - retries) +
      (k.c.policy.validationRetries.toNat - rerolls) =
        ((k.c.policy.maxTries.toNat - retries) +
          (k.c.policy.validationRetries.toNat - (rerolls + 1))) + 1 := by omega
  unfold left
  rw [hone, Nat.succ_mul]
  omega

/-- A retry uses up the time of one attempt and one wait. -/
theorem left_retry (h : retries + 1 < k.c.policy.maxTries.toNat) :
    k.left lag i retries rerolls =
      attemptSpan lag (k.c.backends.get i) + (k.c.waitMost + lag) +
        k.left lag i (retries + 1) rerolls := by
  have hone : (k.c.policy.maxTries.toNat - retries) +
      (k.c.policy.validationRetries.toNat - rerolls) =
        ((k.c.policy.maxTries.toNat - (retries + 1)) +
          (k.c.policy.validationRetries.toNat - rerolls)) + 1 := by omega
  have hwait : k.c.policy.maxTries.toNat - 1 - retries =
      (k.c.policy.maxTries.toNat - 1 - (retries + 1)) + 1 := by omega
  unfold left
  rw [hone, hwait, Nat.succ_mul, Nat.succ_mul]
  omega

/-- On its first arrival a backend has all of its time. -/
theorem left_arrival (i : Fin k.c.backends.length) :
    k.left lag i 0 0 = ((k.c.backends.drop i.val).map (k.c.backendSpan lag)).sum := by
  rw [List.drop_eq_getElem_cons i.isLt, List.map_cons, List.sum_cons]
  rfl

/-- The chain moves on with the time of its next backend. -/
theorem left_fallback (h : retries < k.c.policy.maxTries.toNat)
    (hnext : i.val + 1 < k.c.backends.length) :
    attemptSpan lag (k.c.backends.get i) + k.left lag ⟨i.val + 1, hnext⟩ 0 0 ≤
      k.left lag i retries rerolls := by
  have hone := Nat.le_mul_of_pos_left (attemptSpan lag (k.c.backends.get i))
    (show 0 < (k.c.policy.maxTries.toNat - retries) +
      (k.c.policy.validationRetries.toNat - rerolls) by omega)
  rw [left_arrival]
  unfold left
  dsimp only
  omega

end Left

/-- At the head of the loop there is time for the rest. -/
structure InTime (lag : Nat) (time : σ → UInt64) (limit : Nat) (s : LoopState k.c) : Prop where
  tries : s.retrySameUsed < k.c.policy.maxTries.toNat
  rest : (time s.world.env).toNat + k.left lag s.i s.retrySameUsed s.validationUsed +
    assistSpan lag ≤ limit

/-- The budgets of a request are those of its backend. -/
theorem prepare_timeouts {s s1 : LoopState k.c} {rq : HttpRequest}
    (h : k.prepare s = (.ok rq, s1)) : rq.timeouts = (k.backend s).timeouts := by
  have hbackend : k.backend (k.prepareBody s).2 = k.backend s := by
    obtain ⟨bodies, env, hbody⟩ := k.prepareBody_spec s
    rw [hbody]
    rfl
  unfold prepare at h
  split at h
  · cases h
  · rename_i heq
    rw [heq] at hbackend
    split at h
    · cases h
    · rename_i hheaders
      have hsame := k.prepareHeaders_spec (k.prepareBody s).2
      rw [heq] at hsame
      obtain ⟨headers, env', hsame⟩ := hsame
      rw [hheaders] at hsame
      cases h
      dsimp only at hsame hbackend
      rw [hsame]
      exact congrArg Backend.timeouts hbackend

/-- One attempt takes the total budget of its backend, at most. -/
theorem recorded_span (hk : Client.Punctual k.H k.c k.cbs time lag) {s s1 : LoopState k.c}
    {rq : HttpRequest} (hprep : k.prepare (k.polled s) = (.ok rq, s1)) :
    NotAfter time ((time s.world.env).toNat + attemptSpan lag (k.c.backends.get s.i))
      (k.recorded s1 rq).2.world.env := by
  have hidle : k.idle.Within (Untimed time) := hk.besides
  have htimeouts : rq.timeouts = (k.c.backends.get s.i).timeouts := (prepare_timeouts hprep :)
  have htotal : rq.timeouts.totalMs ≠ disabled := by
    rw [htimeouts]
    exact hk.budgets _ (List.get_mem _ _)
  have hhanded : Untimed time s.world.env (k.handed rq s1.world).env :=
    hidle.trans _ _ _ (prepared_besides hidle hprep).2
      (hidle.trans _ _ _ (debugLog_within hidle.refl k.c _ _).env (hidle.now _))
  have hrun : NotAfter time ((time s.world.env).toNat + attemptSpan lag (k.c.backends.get s.i))
      (k.tripRun rq s1).2.2 := by
    have hperform := (hk.performs rq true k.cancel (k.handed rq s1.world).env htotal).run
      (sink_besides hidle)
      { io := attemptIoInit k.c (k.cleared s1) k.stream k.req.accumulates
        log := (k.handed rq s1.world).log }
    rwa [htimeouts, hhanded, Nat.add_assoc] at hperform
  have htrip : Untimed time (k.tripRun rq s1).2.2 (k.roundTrip rq s1).world.env :=
    (roundTrip_behind hidle rq s1 (.quiet rfl (hidle.refl _))).env
  exact (hidle.trans _ _ _ htrip (recorded_besides hidle rq s1).env).notAfter hrun

/-- The abort assist takes its own budget, at most. -/
theorem assist_span (hk : Client.Punctual k.H k.c k.cbs time lag) (b : Backend) (w : World σ) :
    (time (k.koboldAbortAssist b w).env).toNat ≤ (time w.env).toNat + assistSpan lag := by
  have hidle : k.idle.Within (Untimed time) := hk.besides
  unfold koboldAbortAssist
  split
  · exact Nat.le_add_right _ _
  · rename_i url _
    have hlogged : Untimed time w.env (k.c.debugLog (requestText (assistRequest b url)) w).env :=
      (debugLog_within hidle.refl k.c _ w).env
    have hperform := (hk.performs (assistRequest b url) false none
      (k.c.debugLog (requestText (assistRequest b url)) w).env
      (by decide : (2000 : UInt32) ≠ disabled)).run
      (h := drain) (fun _ _ _ => rfl)
      ((k.c.debugLog (requestText (assistRequest b url)) w).note
        (.perform (assistRequest b url) false false)).log
    rwa [hlogged, Nat.add_assoc] at hperform

/-- A turn takes what it costs off the rest, and the rest is enough for it. -/
theorem turn_inTime (hk : Client.Punctual k.H k.c k.cbs time lag) {limit : Nat} {s : LoopState k.c}
    {out : LoopState k.c ⊕ LoopState k.c} (h : k.InTime lag time limit s) (hturn : k.Turn s out) :
    Sum.elim (k.InTime lag time limit) (fun s => NotAfter time limit s.world.env) out := by
  have hidle : k.idle.Within (Untimed time) := hk.besides
  have htries := h.tries
  have hrest := h.rest
  have hstart : NotAfter time limit s.world.env := by
    unfold NotAfter
    omega
  have hattempt : attemptSpan lag (k.c.backends.get s.i) ≤
      k.left lag s.i s.retrySameUsed s.validationUsed := left_attempt htries
  have hend {s' : LoopState k.c}
      (hspan : NotAfter time ((time s.world.env).toNat + attemptSpan lag (k.c.backends.get s.i))
        s'.world.env) : NotAfter time limit s'.world.env := by
    unfold NotAfter at hspan ⊢
    omega
  cases hturn with
  | cancelled _ =>
      change NotAfter time limit (k.polled s).world.env
      rw [polled_env]
      exact hstart
  | @unprepared st s1 _ hprep => exact (prepared_besides hidle hprep).2.notAfter hstart
  | @unrecorded rq s1 _ hprep _ => exact hend (recorded_span hk hprep)
  | @terminal rq s1 _ hprep _ _ =>
      exact hend ((announce_besides hidle _).env.notAfter (recorded_span hk hprep))
  | @next rq s1 _ _ hprep _ _ hnext =>
      have hspan := (announce_besides hidle _).env.notAfter (recorded_span hk hprep)
      obtain ⟨hi, hretries, hrerolls⟩ := k.announced_place hprep
      change NotAfter time _ (k.announced s1 rq).world.env at hspan
      generalize k.announced s1 rq = s2 at hspan hi hretries hrerolls hnext
      have hdone := hend hspan
      rw [← hi, ← hretries, ← hrerolls] at hrest
      rw [← hi] at hspan
      rw [← hretries] at htries
      unfold NotAfter at hspan
      have hwaited (retryAfter : UInt64) (hlt : s2.retrySameUsed + 1 < k.c.policy.maxTries.toNat) :
          (time (k.waited retryAfter s2).2.world.env).toNat +
            k.left lag s2.i (s2.retrySameUsed + 1) s2.validationUsed + assistSpan lag ≤ limit := by
        have hwait := hk.waits k.cancel
          (k.waitFor retryAfter (s2.retrySameUsed + 1) s2.rng).1 s2.world.env
        have hmost := k.waitFor_le retryAfter (s2.retrySameUsed + 1) s2.rng
        rw [left_retry hlt] at hrest
        change NotAfter time _ (k.waited retryAfter s2).2.world.env at hwait
        unfold NotAfter at hwait
        omega
      cases hnext with
      | success _ => exact hdone
      | abort _ => exact hdone
      | lost _ _ => exact hdone
      | exhausted _ _ _ _ => exact hdone
      | cancelled _ =>
          have hassist := assist_span hk (k.backend s2) s2.world
          rw [hi, hretries, hrerolls] at hrest
          rw [hi] at hspan
          change (time (k.koboldAbortAssist (k.backend s2) s2.world).env).toNat ≤ limit
          omega
      | reroll _ _ hlt =>
          rw [left_reroll hlt] at hrest
          refine ⟨htries, ?_⟩
          dsimp only
          omega
      | fallback _ _ hlt =>
          have hfallback := @left_fallback _ _ lag k _ _ s2.validationUsed htries hlt
          refine ⟨k.c.maxTries_pos, ?_⟩
          dsimp only
          omega
      | interrupted _ _ hlt _ =>
          have hover := hwaited (k.roundTrip rq s1).o.retryAfterMs hlt
          change (time (k.waited (k.roundTrip rq s1).o.retryAfterMs s2).2.world.env).toNat ≤ limit
          omega
      | retry _ _ hlt _ => exact ⟨hlt, hwaited _ hlt⟩

end Call

/-- A call whose backends all have a total budget, and whose callbacks and allocator take no time,
ends in time, whatever the peers answer and whenever they do: every attempt that the policy allows
takes its total budget, every wait between them the longest that the policy allows, and the abort
assist its own. -/
theorem chat_inTime (Y : Yyjson) (H : Heap σ) (c : Client σ) (req : Option Request)
    (cbs : Option (Callbacks σ)) (cancel : Option (CancelToken σ)) (haveOut stream : Bool)
    (ordinal : UInt32) (s : σ) (hc : c.Punctual H cbs time lag) :
    let e := chatCommon Y H (some c) req cbs cancel haveOut stream ordinal ⟨s, []⟩
    (time e.world.env).toNat ≤ (time s).toNat + c.span lag := by
  intro e
  rcases chatCommon_passed Y H (some c) req cbs cancel haveOut stream ordinal ⟨s, []⟩ with
    ⟨-, hearly⟩ | ⟨k, hpassed, hcancel, hrun⟩
  · have he : e = .returned .invalidArg none ⟨s, []⟩ := hearly
    rw [he]
    exact Nat.le_add_right _ _
  · have he : e = k.run ordinal ⟨s, []⟩ := hrun
    obtain ⟨rfl, rfl, rfl⟩ := Call.passed_parts hpassed
    have hidle : k.idle.Within (Untimed time) := hc.besides
    have henter := k.enter_keeps (P := Untimed time s)
      (fun n t ht => hidle.trans _ _ _ ht (hidle.alloc n t)) ordinal ⟨s, []⟩ (hidle.refl s)
    rw [he, Call.run_eq]
    rcases k.enter_ends ordinal ⟨s, []⟩ with ⟨early, hout, -⟩ | ⟨env, hout⟩ <;> rw [hout] at henter ⊢
    · exact Untimed.notAfter henter.2 (Nat.le_add_right _ _)
    · refine k.run_turns (fun s out hs => Call.turn_inTime hc hs) ⟨k.c.maxTries_pos, ?_⟩
      have henv : time env = time s := henter.2
      have hleft : k.left lag (k.start ordinal (resultInit k.c.maxResponseBytes) ⟨env, []⟩).i 0 0 =
          (k.c.backends.map (k.c.backendSpan lag)).sum :=
        Call.left_arrival _
      change (time env).toNat + k.left lag (k.start ordinal _ ⟨env, []⟩).i 0 0 + assistSpan lag ≤ _
      rw [hleft, henv, Client.span, Nat.add_assoc]

end Span

section Plain

attribute [local instance] lp64

/-- A call over one slow response. -/
theorem chat_inTime_plain :
    let s : ScriptState × UInt64 := ({ scriptInit with queue := [slowResponse] }, 0)
    let e := chatCommon (plainYyjson [] .null) Heap.plentiful (some scriptedClient)
      (some plainRequest) (some plainCallbacks) none true true 0 ⟨s, []⟩
    e.world.env.2.toNat ≤ s.2.toNat + scriptedClient.span 0 := by
  refine @chat_inTime lp64 (ScriptState × UInt64) Prod.snd 0 _ _ _ _ _ _ _ _ _ _
    ⟨scriptedClient_besides (fun _ => rfl) fun _ _ _ h h' => h'.trans h, ?_, ?_, ?_⟩
  · exact steadyClock_prompt.waits
  · exact @scripted_punctual _ id 0 Heap.plentiful _ _ (fun _ _ => rfl) steadyClock_prompt
      (scriptTransport_runs Heap.plentiful steadyClock_keepsTime)
  · intro b hb
    rw [List.eq_of_mem_replicate hb]
    decide

end Plain

end Sicha
