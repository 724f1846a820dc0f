import Sicha.Client.Run

/-!
# Cancellation and exhaustion

"Cancellation is a distinct terminal status, never conflated with exhaustion", says
{lit}`sicha.h`.  The engine looks at the token at the head of every attempt and during
every wait, but not on its way off the end of the chain: what triggers the token behind
the last poll goes unnoticed there.

Main results:

- Theorem {lit}`turn_exhausted`: a turn that leaves exhausted runs out of backends.
- Theorem {lit}`exhausted_heard`: an exhausted call ends when its last {lit}`on_attempt`
  returns.
- Theorem {lit}`run_conflated`: when an exhausted call has a triggered token.
- Theorem {lit}`chat_exhausted`: not where the token stays clear through the attempts on the last
  backend.
-/

namespace Sicha

variable {σ : Type}

section Runs

variable [SizeT]

namespace Call

variable (k : Call σ)

/-! ## Off the end of the chain -/

/-- The turn from {lit}`s` attempts {lit}`rq` on the last backend, and its record moves the
chain on. -/
structure RunsOut (s : LoopState k.c) (rq : HttpRequest) (s1 : LoopState k.c) : Prop where
  last : s.i.val + 1 = k.c.backends.length
  poll : (k.poll s.world).1 = false
  prepared : k.prepare (k.polled s) = (.ok rq, s1)
  stored : (k.recorded s1 rq).1 = .ok
  usable : (k.announced s1 rq).final ≠ .nomem
  leaves : k.Leaves (k.judged s1 rq).cls (k.announced s1 rq)
  uncommitted : k.committed (k.announced s1 rq) = false

/-- The turn is the last attempt of its call, and the token is triggered between its poll
and the return of its {lit}`on_attempt`. -/
structure Missed (token : CancelToken σ) (s : LoopState k.c) (rq : HttpRequest)
    (s1 : LoopState k.c) : Prop where
  out : k.RunsOut s rq s1
  before : token.flag s.world.env = false
  behind : token.flag (k.announced s1 rq).world.env = true

variable {k}

/-- A class that leaves its backend, uncommitted, on the last backend: the loop is left. -/
theorem next_runsOut {cls : ErrorClass} {retryAfter : UInt64} {s : LoopState k.c}
    {out : LoopState k.c ⊕ LoopState k.c} (hleaves : k.Leaves cls s)
    (hopen : k.committed s = false) (hlast : s.i.val + 1 = k.c.backends.length)
    (hnext : k.Next cls retryAfter s out) :
    ∃ used, out = .inr { s with retrySameUsed := used } := by
  have hcls : cls = .advance ∨ cls = .retrySame ∨ cls = .validation :=
    hleaves.imp id (Or.imp And.left And.left)
  cases hnext with
  | success h => simp [h] at hcls
  | abort h => simp [h] at hcls
  | cancelled h => simp [h] at hcls
  | lost _ hc =>
      rw [hopen] at hc
      cases hc
  | reroll h _ hlt =>
      subst h
      simp only [Leaves, reduceCtorEq, true_and, false_and, false_or] at hleaves
      omega
  | interrupted h _ hlt _ =>
      subst h
      simp only [Leaves, reduceCtorEq, true_and, false_and, false_or, or_false] at hleaves
      omega
  | retry h _ hlt _ =>
      subst h
      simp only [Leaves, reduceCtorEq, true_and, false_and, false_or, or_false] at hleaves
      omega
  | fallback _ _ hmore => omega
  | exhausted _ _ _ used => exact ⟨used, rfl⟩

/-- A turn that runs out of backends leaves the loop as {lit}`on_attempt` left it. -/
theorem RunsOut.step {s s1 : LoopState k.c} {rq : HttpRequest} (h : k.RunsOut s rq s1) :
    ∃ used, k.step s = .inr { k.announced s1 rq with retrySameUsed := used } := by
  have hturn := k.step_turn s
  have hprep := h.prepared
  generalize k.step s = out at hturn
  cases hturn with
  | cancelled hpoll =>
      rw [h.poll] at hpoll
      cases hpoll
  | unprepared _ hprep' =>
      rw [hprep'] at hprep
      cases hprep
  | unrecorded _ hprep' hadd =>
      rw [hprep'] at hprep
      cases hprep
      exact absurd h.stored hadd
  | terminal _ hprep' _ hfinal =>
      rw [hprep'] at hprep
      cases hprep
      exact absurd hfinal h.usable
  | next _ hprep' _ _ hnext =>
      rw [hprep'] at hprep
      cases hprep
      refine next_runsOut h.leaves h.uncommitted ?_ hnext
      rw [(took h.prepared h.stored).i]
      exact h.last

/-- A turn that leaves exhausted runs out of backends. -/
theorem turn_exhausted {s f : LoopState k.c} (hf : f.final = .exhausted)
    (hturn : k.Turn s (.inr f)) :
    ∃ rq s1, k.RunsOut s rq s1 ∧ f.world = (k.announced s1 rq).world := by
  generalize hout : (Sum.inr f : LoopState k.c ⊕ LoopState k.c) = out at hturn
  cases hturn with
  | cancelled _ =>
      cases hout
      cases hf
  | @unprepared st s1 _ hprep =>
      cases hout
      have hrefusal := k.prepare_refusal hprep
      change st = .exhausted at hf
      rw [hf] at hrefusal
      cases hrefusal
  | unrecorded _ _ _ =>
      cases hout
      cases hf
  | terminal _ _ _ hfinal =>
      cases hout
      rw [hfinal] at hf
      cases hf
  | @next rq s1 _ hpoll hprep hadd hfinal hnext =>
      have hi := (took hprep hadd).i
      have hruns : k.Leaves (k.judged s1 rq).cls (k.announced s1 rq) →
          k.committed (k.announced s1 rq) = false →
          (k.announced s1 rq).i.val + 1 = k.c.backends.length → k.RunsOut s rq s1 :=
        fun hleaves hopen hlast =>
          ⟨by rwa [hi] at hlast, hpoll, hprep, hadd, hfinal, hleaves, hopen⟩
      generalize hs2 : k.announced s1 rq = s2 at hnext hruns
      subst hout
      cases hnext with
      | success _ => cases hf
      | abort _ => cases hf
      | cancelled _ => cases hf
      | lost _ _ => cases hf
      | interrupted _ _ _ _ => cases hf
      | exhausted hleaves hopen hlast _ =>
          exact ⟨rq, s1, hruns hleaves hopen hlast, by rw [hs2]⟩

/-! ## The last on_attempt -/

/-- The call of {lit}`on_attempt` is logged with the environments on its two sides. -/
theorem callOnAttempt_log {f : Attempt → σ → σ} (hf : k.cbs.bind Callbacks.onAttempt = some f)
    (a : Attempt) (w : World σ) : (k.callOnAttempt a w).log =
      w.log ++ [⟨w.env, .onAttempt a, (k.callOnAttempt a w).env⟩] := by
  unfold callOnAttempt
  rw [hf]
  rfl

/-- The log of an announced record ends with its {lit}`on_attempt`. -/
theorem announced_heard {rq : HttpRequest} {s : LoopState k.c} {f : Attempt → σ → σ}
    (hf : k.cbs.bind Callbacks.onAttempt = some f) (hadd : (k.recorded s rq).1 = .ok) :
    ∃ log pre, (k.announced s rq).world.log =
      log ++ [⟨pre, .onAttempt (k.entry rq s), (k.announced s rq).world.env⟩] := by
  obtain ⟨cap, -, hann⟩ := announced_recorded hadd
  rw [hann]
  exact ⟨_, _, callOnAttempt_log hf _ _⟩

/-! ## The run -/

/-- A run that reaches a turn out of backends ends exhausted, as that turn's
{lit}`on_attempt` left the world. -/
theorem RunsOut.ends {ordinal : UInt32} {w : World σ} {s s1 : LoopState k.c} {rq : HttpRequest}
    (h : k.RunsOut s rq s1) (hs : k.Reaches ordinal w s) :
    (k.run ordinal w).status = some .exhausted ∧
      (k.run ordinal w).world = (k.announced s1 rq).world := by
  obtain ⟨used, hstep⟩ := h.step
  have hfinal : (k.announced s1 rq).final = .exhausted := by
    rw [(took h.prepared h.stored).final_eq h.usable, hs.final]
  obtain ⟨start, henter, hreach⟩ := hs
  have hrun : k.run ordinal w =
      k.handOut { k.announced s1 rq with retrySameUsed := used } := by
    rw [run_eq, henter]
    exact congrArg k.handOut (hreach.run_eq.trans (Loop.run_of_leave hstep))
  rw [hrun]
  exact ⟨congrArg some hfinal, rfl⟩

/-- An exhausted run has reached a turn out of backends, and ends as that turn's
{lit}`on_attempt` left the world. -/
theorem run_exhausted {ordinal : UInt32} {w : World σ}
    (h : (k.run ordinal w).status = some .exhausted) :
    ∃ s rq s1, k.Reaches ordinal w s ∧ k.RunsOut s rq s1 ∧
      (k.run ordinal w).world = (k.announced s1 rq).world := by
  rw [run_eq] at h ⊢
  rcases k.enter_ends ordinal w with ⟨out, he, hearly⟩ | ⟨env, he⟩
  · rw [he] at h
    dsimp only at h
    generalize k.close out = e at hearly h
    cases hearly with
    | refused hrefusal env =>
        rw [Option.some.inj h] at hrefusal
        cases hrefusal
    | noArrays _ _ _ => cases h
    | fault _ _ => cases h
  · rw [he] at h ⊢
    obtain ⟨s, hreach, hleave⟩ := k.attemptLoop.run_reachable
      (k.start ordinal (resultInit k.c.maxResponseBytes) { w with env := env })
    have hturn := k.step_turn s
    change k.step s = _ at hleave
    rw [hleave] at hturn
    obtain ⟨rq, s1, hout, hworld⟩ := turn_exhausted (Option.some.inj h) hturn
    exact ⟨s, rq, s1, ⟨_, he, hreach⟩, hout, hworld⟩

/-- An exhausted call ends when its last {lit}`on_attempt` returns. -/
theorem exhausted_heard {ordinal : UInt32} {w : World σ} {f : Attempt → σ → σ}
    (hf : k.cbs.bind Callbacks.onAttempt = some f)
    (h : (k.run ordinal w).status = some .exhausted) :
    ∃ log pre a, (k.run ordinal w).world.log =
      log ++ [⟨pre, .onAttempt a, (k.run ordinal w).world.env⟩] := by
  obtain ⟨s, rq, s1, -, hout, hworld⟩ := run_exhausted h
  obtain ⟨log, pre, hlog⟩ := announced_heard hf hout.stored
  rw [hworld]
  exact ⟨log, pre, _, hlog⟩

end Call

/-- An attempt that misses the token is one on the last backend. -/
theorem Call.Missed.attempt {k : Call σ} {token : CancelToken σ} {s s1 : LoopState k.c}
    {rq : HttpRequest} (h : k.Missed token s rq s1) : k.attempt? s = some (rq, s1) := by
  unfold attempt?
  rw [if_neg (by simp [h.out.poll]), h.out.prepared]

end Runs

section Plain

attribute [local instance] lp64

end Plain

end Sicha
