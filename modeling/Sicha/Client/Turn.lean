import Sicha.Client.Step

/-!
# What one turn of the engine can do

The inversion of {lit}`Call.step`: every later invariant is a case analysis of
{lit}`Turn`, and none unfolds the step again.

Main results:

- Theorem {lit}`step_turn`: every turn is one of the cases of {lit}`Turn`.
- Theorem {lit}`prepare_spec`: preparing a request touches the caches and the
  environment.
-/

namespace Sicha

variable [SizeT] {σ : Type}

namespace Call

variable (k : Call σ)

/-! ## Preparing the request -/

/-- A state with other caches and another environment. -/
def recached (s : LoopState k.c) (bodies : List (Option Bytes))
    (headers : List (Option (List Header))) (env : σ) : LoopState k.c :=
  { s with bodies := bodies, headers := headers, world := { s.world with env := env } }

/-- To prepare a body changes its cache and the environment only. -/
theorem prepareBody_spec (s : LoopState k.c) :
    ∃ bodies env, (k.prepareBody s).2 = k.recached s bodies s.headers env := by
  unfold prepareBody
  split
  · exact ⟨s.bodies, s.world.env, rfl⟩
  · dsimp only
    split
    · exact ⟨_, _, rfl⟩
    · exact ⟨_, _, rfl⟩

/-- To prepare headers changes their cache and the environment only. -/
theorem prepareHeaders_spec (s : LoopState k.c) :
    ∃ headers env, (k.prepareHeaders s).2 = k.recached s s.bodies headers env := by
  unfold prepareHeaders
  split
  · exact ⟨s.headers, s.world.env, rfl⟩
  · dsimp only
    split
    · exact ⟨_, _, rfl⟩
    · exact ⟨_, _, rfl⟩

/-- Preparing a request touches the caches and the environment; the request is for the
chat URL of the backend. -/
theorem prepare_spec (s : LoopState k.c) :
    (∃ bodies headers env, (k.prepare s).2 = k.recached s bodies headers env) ∧
      ∀ rq, (k.prepare s).1 = .ok rq → rq.url = (k.backend s).urlChat := by
  obtain ⟨bodies, env, hbody⟩ := k.prepareBody_spec s
  unfold prepare
  rcases hb : k.prepareBody s with ⟨out, s1⟩
  rw [hb] at hbody
  dsimp only at hbody
  subst hbody
  cases out with
  | error st => exact ⟨⟨bodies, s.headers, env, rfl⟩, by simp⟩
  | ok body =>
      obtain ⟨headers, env', hheaders⟩ := k.prepareHeaders_spec (k.recached s bodies s.headers env)
      dsimp only
      rcases hh : k.prepareHeaders (k.recached s bodies s.headers env) with ⟨out', s2⟩
      rw [hh] at hheaders
      dsimp only at hheaders
      subst hheaders
      cases out' with
      | error st => exact ⟨⟨bodies, headers, env', rfl⟩, by simp⟩
      | ok hs =>
          refine ⟨⟨bodies, headers, env', rfl⟩, ?_⟩
          rintro rq hrq
          cases hrq
          rfl

/-- What every request keeps, preparing a request keeps; it fails only by a refusal. -/
theorem prepare_keeps {P : σ → Prop} (halloc : ∀ n s, P s → P (k.H.alloc n s).2)
    (s : LoopState k.c) (hs : P s.world.env) :
    P (k.prepare s).2.world.env ∧ ∀ st, (k.prepare s).1 = .error st → Refusal st := by
  have hbody : P (k.prepareBody s).2.world.env ∧
      ∀ st, (k.prepareBody s).1 = .error st → Refusal st := by
    have hbuild := @buildChatBody_keeps _ _ _ Refusal halloc .nomem .invalidArg k.Y
      (k.backend s) k.req k.stream s.world.env hs
    unfold prepareBody
    split
    · exact ⟨hs, by simp⟩
    · dsimp only
      split
      · exact ⟨hbuild.1, by simp⟩
      · rename_i st hst
        refine ⟨hbuild.1, ?_⟩
        rintro st' hst'
        cases hst'
        exact hbuild.2 st hst
  have hheaders : ∀ s1 : LoopState k.c, P s1.world.env →
      P (k.prepareHeaders s1).2.world.env ∧
        ∀ st, (k.prepareHeaders s1).1 = .error st → Refusal st := by
    intro s1 hs1
    have hbuild := @buildHeaders_keeps _ _ _ Refusal halloc .nomem (k.backend s1)
      k.stream k.c.userAgent s1.world.env hs1
    unfold prepareHeaders
    split
    · exact ⟨hs1, by simp⟩
    · dsimp only
      split
      · exact ⟨hbuild.1, by simp⟩
      · rename_i st hst
        refine ⟨hbuild.1, ?_⟩
        rintro st' hst'
        cases hst'
        exact hbuild.2 st hst
  unfold prepare
  split
  · rename_i h
    rw [h] at hbody
    refine ⟨hbody.1, ?_⟩
    rintro st hst
    cases hst
    exact hbody.2 _ rfl
  · rename_i s1 h
    rw [h] at hbody
    have hboth := hheaders s1 hbody.1
    split <;> rename_i h2 <;> rw [h2] at hboth
    · refine ⟨hboth.1, ?_⟩
      rintro st hst
      cases hst
      exact hboth.2 _ rfl
    · exact ⟨hboth.1, by simp⟩

/-! ## The cases of a turn -/

/-- The state behind the cancel poll. -/
def polled (s : LoopState k.c) : LoopState k.c :=
  { s with world := (k.poll s.world).2 }

/-- The judgement of the round trip of a request. -/
def judged (s : LoopState k.c) (rq : HttpRequest) : Judged σ :=
  k.judge (k.roundTrip rq s)

/-- The state in which a record was asked for, and whether it was stored. -/
def recorded (s : LoopState k.c) (rq : HttpRequest) : Status × LoopState k.c :=
  k.afterRecord s (k.roundTrip rq s) (k.judged s rq)

/-- The state behind {lit}`on_attempt`. -/
def announced (s : LoopState k.c) (rq : HttpRequest) : LoopState k.c :=
  k.announce (k.recorded s rq).2

/-- The state behind a backoff wait, and what the wait answered. -/
def waited (retryAfter : UInt64) (s : LoopState k.c) : Int × LoopState k.c :=
  let wait := k.waitFor retryAfter (s.retrySameUsed + 1) s.rng
  let out := s.world.act (k.c.clock.waitMs k.cancel wait.1) (.wait wait.1)
  (out.1, { s with retrySameUsed := s.retrySameUsed + 1, rng := wait.2, world := out.2 })

/-- The attempt moves the chain on: an advance, the last retry, or a rejection with no
re-roll left. -/
def Leaves (cls : ErrorClass) (s : LoopState k.c) : Prop :=
  cls = .advance ∨ (cls = .retrySame ∧ k.c.policy.maxTries.toNat ≤ s.retrySameUsed + 1) ∨
    (cls = .validation ∧ k.c.policy.validationRetries.toNat ≤ s.validationUsed)

/-- What follows a recorded attempt of a class. -/
inductive Next (cls : ErrorClass) (retryAfter : UInt64) (s : LoopState k.c) :
    LoopState k.c ⊕ LoopState k.c → Prop
  | success (h : cls = .none) : Next cls retryAfter s (k.exit s .ok)
  | abort (h : cls = .abort) : Next cls retryAfter s (k.exit s .aborted)
  | cancelled (h : cls = .cancelled) :
      Next cls retryAfter s
        (k.exit { s with world := k.koboldAbortAssist (k.backend s) s.world } .cancelled)
  | lost (h : cls = .validation ∨ cls = .retrySame ∨ cls = .advance)
      (hc : k.committed s = true) : Next cls retryAfter s (k.exit s .streamLost)
  | reroll (h : cls = .validation) (hc : k.committed s = false)
      (hlt : s.validationUsed < k.c.policy.validationRetries.toNat) :
      Next cls retryAfter s (.inl { s with validationUsed := s.validationUsed + 1 })
  | interrupted (h : cls = .retrySame) (hc : k.committed s = false)
      (hlt : s.retrySameUsed + 1 < k.c.policy.maxTries.toNat)
      (hrc : (k.waited retryAfter s).1 ≠ 0) :
      Next cls retryAfter s (k.exit (k.waited retryAfter s).2 .cancelled)
  | retry (h : cls = .retrySame) (hc : k.committed s = false)
      (hlt : s.retrySameUsed + 1 < k.c.policy.maxTries.toNat)
      (hrc : (k.waited retryAfter s).1 = 0) :
      Next cls retryAfter s (.inl (k.waited retryAfter s).2)
  | fallback (h : k.Leaves cls s) (hc : k.committed s = false)
      (hnext : s.i.val + 1 < k.c.backends.length) :
      Next cls retryAfter s
        (.inl { s with i := ⟨s.i.val + 1, hnext⟩, retrySameUsed := 0, validationUsed := 0,
                       tryOfBackend := 0 })
  | exhausted (h : k.Leaves cls s) (hc : k.committed s = false)
      (hlast : s.i.val + 1 = k.c.backends.length) (used : Nat) :
      Next cls retryAfter s (.inr { s with retrySameUsed := used })

/-- The cases of a turn. -/
inductive Turn (s : LoopState k.c) : LoopState k.c ⊕ LoopState k.c → Prop
  | cancelled (h : (k.poll s.world).1 = true) : Turn s (k.exit (k.polled s) .cancelled)
  | unprepared {st : Status} {s1 : LoopState k.c} (hpoll : (k.poll s.world).1 = false)
      (h : k.prepare (k.polled s) = (.error st, s1)) : Turn s (k.exit s1 st)
  | unrecorded {rq : HttpRequest} {s1 : LoopState k.c} (hpoll : (k.poll s.world).1 = false)
      (h : k.prepare (k.polled s) = (.ok rq, s1)) (hadd : (k.recorded s1 rq).1 ≠ .ok) :
      Turn s (k.exit (k.recorded s1 rq).2 .nomem)
  | terminal {rq : HttpRequest} {s1 : LoopState k.c} (hpoll : (k.poll s.world).1 = false)
      (h : k.prepare (k.polled s) = (.ok rq, s1)) (hadd : (k.recorded s1 rq).1 = .ok)
      (hfinal : (k.announced s1 rq).final = .nomem) : Turn s (.inr (k.announced s1 rq))
  | next {rq : HttpRequest} {s1 : LoopState k.c} {out : LoopState k.c ⊕ LoopState k.c}
      (hpoll : (k.poll s.world).1 = false) (h : k.prepare (k.polled s) = (.ok rq, s1))
      (hadd : (k.recorded s1 rq).1 = .ok) (hfinal : (k.announced s1 rq).final ≠ .nomem)
      (hnext : k.Next (k.judged s1 rq).cls (k.roundTrip rq s1).o.retryAfterMs
        (k.announced s1 rq) out) : Turn s out

/-- An attempt that is not committed may move the chain on. -/
theorem advance_next {cls : ErrorClass} {retryAfter : UInt64} {s : LoopState k.c}
    (h : k.Leaves cls s) (hc : k.committed s = false) (used : Nat) :
    k.Next cls retryAfter s (k.advance { s with retrySameUsed := used }) := by
  unfold advance
  split_ifs with hnext
  · exact .fallback h hc hnext
  · have hlt := s.i.isLt
    exact .exhausted h hc (Nat.le_antisymm hlt (Nat.not_lt.mp hnext)) used

/-- What follows a class is one of the ways on. -/
theorem dispatch_next (cls : ErrorClass) (retryAfter : UInt64) (s : LoopState k.c) :
    k.Next cls retryAfter s (k.dispatch cls retryAfter s) := by
  cases cls with
  | none => exact .success rfl
  | abort => exact .abort rfl
  | cancelled => exact .cancelled rfl
  | validation =>
      simp only [dispatch, onValidation]
      split_ifs with hc hlt
      · exact .lost (.inl rfl) hc
      · exact .reroll rfl (by simpa using hc) hlt
      · exact k.advance_next (.inr (.inr ⟨rfl, Nat.not_lt.mp hlt⟩)) (by simpa using hc)
          s.retrySameUsed
  | retrySame =>
      simp only [dispatch, onRetrySame]
      split_ifs with hc hge hrc
      · exact .lost (.inr (.inl rfl)) hc
      · exact k.advance_next (.inr (.inl ⟨rfl, hge⟩)) (by simpa using hc) _
      · exact .interrupted rfl (by simpa using hc) (Nat.not_le.mp hge) hrc
      · exact .retry rfl (by simpa using hc) (Nat.not_le.mp hge) (not_not.mp hrc)
  | advance =>
      simp only [dispatch, onAdvance]
      split_ifs with hc
      · exact .lost (.inr (.inr rfl)) hc
      · exact k.advance_next (.inl rfl) (by simpa using hc) s.retrySameUsed

/-- Every turn is one of the cases. -/
theorem step_turn (s : LoopState k.c) : k.Turn s (k.step s) := by
  unfold step
  dsimp only
  split_ifs with hpoll
  · exact .cancelled hpoll
  · have hpoll : (k.poll s.world).1 = false := by simpa using hpoll
    split
    · rename_i st s1 h
      exact .unprepared hpoll h
    · rename_i rq s1 h
      have hrec : k.recorded s1 rq =
          k.afterRecord s1 (k.roundTrip rq s1) (k.judge (k.roundTrip rq s1)) := rfl
      unfold conclude
      dsimp only
      split
      · rename_i s2 hok
        have hadd : (k.recorded s1 rq).1 = .ok := by rw [hrec, hok]
        have hann : k.announced s1 rq = k.announce s2 := by rw [announced, hrec, hok]
        split_ifs with hfinal
        · rw [← hann] at hfinal ⊢
          exact .terminal hpoll h hadd hfinal
        · rw [← hann] at hfinal ⊢
          exact .next hpoll h hadd hfinal (k.dispatch_next _ _ _)
      · rename_i st s2 hne hst
        have hadd : (k.recorded s1 rq).1 ≠ .ok := by
          rw [hrec, hst]
          exact hne
        have hs2 : s2 = (k.recorded s1 rq).2 := by rw [hrec, hst]
        rw [hs2]
        exact .unrecorded hpoll h hadd

end Call

end Sicha
