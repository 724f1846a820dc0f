import Sicha.Cancel.Token
import Sicha.Transport.Timeline

/-!
# The real clock

A translation of {lit}`real_wait_ms` as a call of the engine sees it: other threads run while it
takes the mutex and while it sleeps, and what they do is in the environment.

The loops end only if the system's clock goes on, so they run on fuel; {lit}`none` is the end of
the fuel.

Main results:

- Definition {lit}`realWaitMs`: the wait.
- Theorem {lit}`realWait_answers`: what it returns, and how long it has lasted then.
- Theorem {lit}`realWait_ends`: when it ends, and with how many sleeps.
-/

namespace Sicha

variable {σ : Type}

/-- What the real clock asks of the system. -/
structure Os (σ : Type) where
  /-- {lit}`real_now_ms` -/
  nowMs : σ → UInt64 × σ
  /-- {lit}`real_sleep_ms` -/
  sleepMs : UInt64 → σ → σ
  /-- {lit}`sicha_mutex_lock` -/
  lock : σ → σ
  /-- {lit}`sicha_cond_timedwait_ms` -/
  condTimedwaitMs : UInt64 → σ → σ

/-! ## The wait -/

/-- What a nap without a token sleeps. -/
def napChunk (deadline now : UInt64) : UInt64 :=
  if deadline - now > 100 then 100 else deadline - now

/-- The loop of {lit}`real_wait_ms` without a token. -/
def napLoop (os : Os σ) (deadline : UInt64) : Nat → UInt64 → σ → Option Int × σ
  | 0, _, s => (none, s)
  | fuel + 1, now, s =>
      if now < deadline then
        let s := os.sleepMs (napChunk deadline now) s
        if deadline = uint64Max then (some 0, s) -- "forever": until the caller re-decides
        else
          let now := os.nowMs s
          napLoop os deadline fuel now.1 now.2
      else (some 0, s)

/-- The answer behind the loop with a token. -/
def waitAnswer (token : CancelToken σ) (s : σ) : Option Int × σ :=
  (some (if token.flag s then 1 else 0), s)

/-- The loop of {lit}`real_wait_ms` with a token. -/
def waitLoop (os : Os σ) (token : CancelToken σ) (deadline : UInt64) : Nat → σ → Option Int × σ
  | 0, s => (none, s)
  | fuel + 1, s =>
      if token.flag s then waitAnswer token s
      else
        let now := os.nowMs s
        if now.1 ≥ deadline then waitAnswer token now.2
        else waitLoop os token deadline fuel
          (os.condTimedwaitMs (waitRemain deadline now.1) now.2)

/-- {lit}`real_wait_ms`. -/
def realWaitMs (os : Os σ) (fuel : Nat) (cancel : Option (CancelToken σ)) (ms : UInt64) (s : σ) :
    Option Int × σ :=
  let now := os.nowMs s
  match cancel with
  | none => napLoop os (waitDeadline now.1 ms) fuel now.1 now.2
  | some token => waitLoop os token (waitDeadline now.1 ms) fuel (os.lock now.2)

/-! ## What it returns -/

/-- The clock shows a time that never goes back. -/
structure Os.Forward (os : Os σ) (time : σ → UInt64) : Prop where
  reads : ∀ s, (os.nowMs s).1 = time (os.nowMs s).2
  now : ∀ s, time s ≤ time (os.nowMs s).2
  sleep : ∀ ms s, time s ≤ time (os.sleepMs ms s)
  lock : ∀ s, time s ≤ time (os.lock s)
  cond : ∀ ms s, time s ≤ time (os.condTimedwaitMs ms s)

variable {os : Os σ} {time : σ → UInt64} {token : CancelToken σ} {deadline : UInt64}

/-- The answer is the flag, and what the loop has come to holds behind it. -/
theorem waitAnswer_answers {s : σ} {rc : Int} (hlate : token.flag s = false → deadline ≤ time s)
    (h : (waitAnswer token s).1 = some rc) :
    rc = (if token.flag s then 1 else 0) ∧ (rc = 0 → deadline ≤ time s) := by
  cases h
  refine ⟨rfl, fun hzero => hlate ?_⟩
  by_contra hflag
  rw [Bool.not_eq_false] at hflag
  rw [if_pos hflag] at hzero
  cases hzero

/-- A wait with a token answers whether its flag is set, and 0 not before the deadline. -/
theorem waitLoop_answers (hos : os.Forward time) {fuel : Nat} {s : σ} {rc : Int}
    (h : (waitLoop os token deadline fuel s).1 = some rc) :
    let e := (waitLoop os token deadline fuel s).2
    rc = (if token.flag e then 1 else 0) ∧ (rc = 0 → deadline ≤ time e) := by
  induction fuel generalizing s with
  | zero => cases h
  | succ fuel ih =>
      unfold waitLoop at h ⊢
      by_cases hflag : token.flag s = true
      · rw [if_pos hflag] at h ⊢
        exact waitAnswer_answers (fun hunset => absurd hflag (Bool.eq_false_iff.mp hunset)) h
      · rw [if_neg hflag] at h ⊢
        dsimp only at h ⊢
        by_cases hlate : (os.nowMs s).1 ≥ deadline
        · rw [if_pos hlate] at h ⊢
          exact waitAnswer_answers (fun _ => (hos.reads s).subst hlate) h
        · rw [if_neg hlate] at h ⊢
          exact ih h

/-- A wait without a token answers 0, and not before the deadline. -/
theorem napLoop_answers (hos : os.Forward time) {fuel : Nat} {now : UInt64} {s : σ} {rc : Int}
    (hnow : now ≤ time s) (h : (napLoop os deadline fuel now s).1 = some rc) :
    rc = 0 ∧ (deadline ≠ uint64Max → deadline ≤ time (napLoop os deadline fuel now s).2) := by
  induction fuel generalizing now s with
  | zero => cases h
  | succ fuel ih =>
      unfold napLoop at h ⊢
      dsimp only at h ⊢
      split_ifs at h ⊢ with hearly hforever
      · cases h
        exact ⟨rfl, fun hne => absurd hforever hne⟩
      · exact ih (by rw [hos.reads]; exact UInt64.le_refl _) h
      · cases h
        exact ⟨rfl, fun _ => UInt64.le_trans (UInt64.not_lt.mp hearly) hnow⟩

/-- A wait returns 1 if it was given a token whose flag is set at that moment, and 0 otherwise.  If
it returns 0 the time has passed, unless it was to last forever and has no token. -/
theorem realWait_answers (hos : os.Forward time) (cancel : Option (CancelToken σ)) (fuel : Nat)
    (ms : UInt64) (s : σ) (rc : Int) (h : (realWaitMs os fuel cancel ms s).1 = some rc) :
    let e := (realWaitMs os fuel cancel ms s).2
    rc = (if cancel.any fun token => token.flag e then 1 else 0) ∧
      (rc = 0 → cancel ≠ none ∨ waitDeadline (os.nowMs s).1 ms ≠ uint64Max →
        waitDeadline (os.nowMs s).1 ms ≤ time e) := by
  cases cancel with
  | none =>
      obtain ⟨hzero, hlate⟩ := napLoop_answers hos (hos.reads s ▸ UInt64.le_refl _) h
      exact ⟨hzero, fun _ hne => hlate (hne.resolve_left fun hnone => hnone rfl)⟩
  | some token =>
      obtain ⟨hanswer, hlate⟩ := waitLoop_answers hos h
      exact ⟨hanswer, fun hzero _ => hlate hzero⟩

/-! ## When it ends -/

/-- A sleep lasts at least as long as it was asked to. -/
def Os.SleepsOut (os : Os σ) (time : σ → UInt64) : Prop :=
  ∀ ms s, min ((time s).toNat + ms.toNat) lastMs ≤ (time (os.sleepMs ms s)).toNat

/-- A sleep on the condition variable ends with the flag set, or some time later. -/
def Os.GoesOn (os : Os σ) (time : σ → UInt64) (token : CancelToken σ) : Prop :=
  ∀ ms s, token.flag (os.condTimedwaitMs ms s) = true ∨
    min ((time s).toNat + 1) lastMs ≤ (time (os.condTimedwaitMs ms s)).toNat

/-- With a round for each sleep that is left, a wait without a token ends. -/
theorem napLoop_ends (hos : os.Forward time) (hsleep : os.SleepsOut time) (fuel : Nat)
    {now : UInt64} {s : σ} (hnow : now ≤ time s)
    (hfuel : waitRounds (deadline.toNat - now.toNat) ≤ fuel) :
    (napLoop os deadline fuel now s).1 = some 0 := by
  induction fuel generalizing now s with
  | zero => exact absurd hfuel (by simp [waitRounds])
  | succ fuel ih =>
      unfold napLoop
      by_cases hearly : now < deadline
      case neg => rw [if_neg hearly]
      rw [if_pos hearly]
      by_cases hforever : deadline = uint64Max
      · rw [if_pos hforever]
      rw [if_neg hforever]
      dsimp only
      refine ih (by rw [hos.reads]; exact UInt64.le_refl _) ?_
      rw [UInt64.lt_iff_toNat_lt] at hearly
      rw [UInt64.le_iff_toNat_le] at hnow
      have hchunk : (napChunk deadline now).toNat = min 100 (deadline.toNat - now.toNat) :=
        chunk_toNat hearly.le
      obtain ⟨hle, hrounds⟩ := waitRounds_step hearly hchunk hfuel
      have hslept := hsleep (napChunk deadline now) s
      have hread := UInt64.le_iff_toNat_le.mp (hos.now (os.sleepMs (napChunk deadline now) s))
      rw [← hos.reads] at hread
      have hlast := deadline.toNat_lt
      have hlater : now.toNat + (napChunk deadline now).toNat ≤
          (os.nowMs (os.sleepMs (napChunk deadline now) s)).1.toNat := by
        rw [lastMs] at hslept
        omega
      refine le_trans ?_ hrounds
      unfold waitRounds
      omega

/-- A wait with a token ends once its rounds outnumber the milliseconds left, or the flag is set. -/
theorem waitLoop_ends (hos : os.Forward time) (hcond : os.GoesOn time token) (fuel : Nat) {s : σ}
    (hfuel : deadline.toNat - (time s).toNat + 1 < fuel ∨ token.flag s = true ∧ 0 < fuel) :
    (waitLoop os token deadline fuel s).1.isSome = true := by
  induction fuel generalizing s with
  | zero => omega
  | succ fuel ih =>
      unfold waitLoop
      by_cases hflag : token.flag s = true
      · rw [if_pos hflag]
        rfl
      rw [if_neg hflag]
      dsimp only
      by_cases hlate : (os.nowMs s).1 ≥ deadline
      · rw [if_pos hlate]
        rfl
      rw [if_neg hlate]
      rw [hos.reads, ge_iff_le, UInt64.not_le, UInt64.lt_iff_toNat_lt] at hlate
      have hread := UInt64.le_iff_toNat_le.mp (hos.now s)
      have hlast := deadline.toNat_lt
      have hfuel' := hfuel.resolve_right fun hset => hflag hset.1
      refine ih ?_
      rcases hcond (waitRemain deadline (os.nowMs s).1) (os.nowMs s).2 with hset | hlater
      · exact .inr ⟨hset, by omega⟩
      · rw [lastMs] at hlater
        exact .inl (by omega)

/-- What reading the clock and naps of at most 100 ms keep, a wait without a token keeps. -/
theorem napLoop_chunks {P : σ → Prop} (hnow : ∀ s, P s → P (os.nowMs s).2)
    (hsleep : ∀ ms s, ms ≤ 100 → P s → P (os.sleepMs ms s)) (fuel : Nat) (now : UInt64) {s : σ}
    (hs : P s) : P (napLoop os deadline fuel now s).2 := by
  induction fuel generalizing now s with
  | zero => exact hs
  | succ fuel ih =>
      have hchunk : napChunk deadline now ≤ 100 := by
        unfold napChunk
        split_ifs with hlong
        · exact UInt64.le_refl _
        · exact UInt64.not_lt.mp hlong
      have hslept := hsleep _ s hchunk hs
      unfold napLoop
      dsimp only
      split_ifs
      · exact hslept
      · exact ih _ (hnow _ hslept)
      · exact hs

/-- A wait without a token ends after one sleep for every 100 ms it is to last, or begun, if sleeps
last as long as they should, and asks for no longer sleep.  A wait with a token ends if every sleep
ends with the flag set or takes some time; if the flag is set at its beginning, it does not sleep. -/
theorem realWait_ends (hos : os.Forward time) (ms : UInt64) (s : σ) (fuel : Nat) :
    (os.SleepsOut time → waitRounds ms.toNat ≤ fuel →
        (realWaitMs os fuel none ms s).1 = some 0) ∧
      (∀ P : σ → Prop, (∀ s, P s → P (os.nowMs s).2) →
        (∀ ms s, ms ≤ 100 → P s → P (os.sleepMs ms s)) → P s →
          P (realWaitMs os fuel none ms s).2) ∧
      ∀ token : CancelToken σ,
        (os.GoesOn time token → (waitDeadline (os.nowMs s).1 ms).toNat - (time s).toNat + 1 < fuel →
            (realWaitMs os fuel (some token) ms s).1.isSome = true) ∧
          (token.flag (os.lock (os.nowMs s).2) = true → 0 < fuel →
            realWaitMs os fuel (some token) ms s = (some 1, os.lock (os.nowMs s).2)) := by
  refine ⟨fun hsleep hfuel => ?_, fun P hnow hsleep hs => ?_, fun token => ⟨fun hcond hfuel => ?_,
    fun hflag hfuel => ?_⟩⟩
  · by_cases hforever : waitDeadline (os.nowMs s).1 ms = uint64Max
    · obtain ⟨fuel, rfl⟩ := Nat.exists_eq_succ_of_ne_zero (n := fuel) (by
        unfold waitRounds at hfuel
        omega)
      simp only [realWaitMs, napLoop, hforever, if_true]
      split_ifs <;> rfl
    · refine napLoop_ends hos hsleep fuel (hos.reads s ▸ UInt64.le_refl _) (le_trans ?_ hfuel)
      have hlength : (waitDeadline (os.nowMs s).1 ms).toNat - (os.nowMs s).1.toNat ≤ ms.toNat := by
        unfold waitDeadline at hforever ⊢
        rw [if_neg fun hlong => hforever (if_pos hlong), addSat_toNat]
        omega
      unfold waitRounds
      omega
  · exact napLoop_chunks hnow hsleep fuel _ (hnow s hs)
  · have hread := UInt64.le_iff_toNat_le.mp (hos.now s)
    have hlock := UInt64.le_iff_toNat_le.mp (hos.lock (os.nowMs s).2)
    exact waitLoop_ends hos hcond fuel (.inl (by omega))
  · obtain ⟨fuel, rfl⟩ := Nat.exists_eq_succ_of_ne_zero hfuel.ne'
    simp only [realWaitMs, waitLoop, hflag, if_true, waitAnswer]

/-! ## A wait -/

/-- A system of one thread: its environment is the time, and whether the token is triggered. -/
def plainOs : Os (UInt64 × Bool) where
  nowMs s := (s.1, s)
  sleepMs ms s := (addSat s.1 ms, s.2)
  lock s := s
  condTimedwaitMs ms s := (addSat s.1 ms, s.2)

/-- The clock of the plain system does not go back. -/
theorem plainOs_forward : plainOs.Forward Prod.fst := by
  have hlater (a b : UInt64) : a ≤ addSat a b := by
    have hlast := a.toNat_lt
    rw [UInt64.le_iff_toNat_le, addSat_toNat]
    omega
  exact ⟨fun _ => rfl, fun _ => UInt64.le_refl _, fun _ _ => hlater _ _, fun _ => UInt64.le_refl _,
    fun _ _ => hlater _ _⟩

/-- A quarter of a second without a token. -/
theorem realWait_answers_plain :
    let e := (realWaitMs plainOs 4 none 250 (7, false)).2
    waitDeadline 7 250 ≤ e.1 :=
  (realWait_answers plainOs_forward none 4 250 (7, false) 0 (by decide +kernel)).2 rfl
    (.inr (by decide))

/-- It ends with 0 in three sleeps. -/
theorem realWait_ends_plain : (realWaitMs plainOs 4 none 250 (7, false)).1 = some 0 :=
  (realWait_ends plainOs_forward 250 (7, false) 4).1
    (fun ms s => (addSat_toNat s.1 ms).ge) (by decide)

end Sicha
