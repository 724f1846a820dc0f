import Sicha.Classify
import Sicha.Lib.Monitor

/-!
# The cancel token

A translation of {lit}`cancel.c` step by step: threads that trigger, reset and poll one token, and
threads that wait on it with the real clock, in any order.  Every access to the shared state is a
step of its own, and a wait may wake up at any moment.

Main results:

- Definition {lit}`TokenStep`: the steps.
- Theorem {lit}`tokenStep_move`: the token is a monitor whose condition is that the flag is set.
- Theorem {lit}`token_signals`: no wait misses a trigger.
- Theorem {lit}`token_answers`: what a wait returns, and when.
- Theorem {lit}`token_wakes`: behind a trigger a wait returns within a few steps of its own.
-/

namespace Sicha

/-! ## Waits -/

/-- {lit}`SICHA_WAIT_FOREVER_MS`. -/
def waitForeverMs : UInt64 := 0x1000000000000000

/-- The deadline of {lit}`real_wait_ms`. -/
def waitDeadline (now ms : UInt64) : UInt64 :=
  if ms ≥ waitForeverMs then uint64Max else addSat now ms

/-- How long {lit}`real_wait_ms` asks to sleep. -/
def waitRemain (deadline now : UInt64) : UInt64 :=
  if deadline = uint64Max then waitForeverMs else deadline - now

/-- Where a wait is. -/
inductive WaitPoint where
  /-- before the mutex is taken -/
  | arriving
  /-- at the head of the loop -/
  | looking
  /-- in the loop, before the clock is read -/
  | timing
  /-- before {lit}`sicha_cond_timedwait_ms` -/
  | parking (remain : UInt64)
  /-- in it, since there were so many broadcasts -/
  | sleeping (casts : Nat) (remain : UInt64)
  /-- in it and awake, without the mutex -/
  | roused
  /-- behind the loop -/
  | behind
  /-- with the answer -/
  | leaving (cancelled : Int)

/-- Why a sleeper wakes up. -/
inductive Rouse where
  | signalled
  | timedOut
  | spurious
deriving DecidableEq

/-! ## Steps -/

/-- {lit}`sicha_cancel`, and the monotonic clock. -/
structure TokenState where
  /-- {lit}`mu` is held -/
  locked : Bool
  /-- the broadcasts of {lit}`cv` so far -/
  casts : Nat
  flag : UInt32
  nowMs : UInt64

/-- Where a thread is. -/
inductive TokenThread where
  | idle
  /-- in {lit}`sicha_cancel_trigger`, with the mutex -/
  | triggering
  /-- in {lit}`sicha_cancel_trigger`, before the broadcast -/
  | casting
  /-- in {lit}`sicha_cancel_reset`, with the mutex -/
  | resetting
  /-- in either, before the mutex is given back -/
  | unlocking
  /-- in {lit}`real_wait_ms` -/
  | waiting (deadline : UInt64) (point : WaitPoint)

/-- What a thread does. -/
inductive TokenEvent where
  | locked
  | stored (v : UInt32)
  | cast
  | unlocked
  /-- {lit}`sicha_cancel_is_cancelled` -/
  | polled (cancelled : Int)
  | entered (ms : UInt64)
  | looked
  | timed
  | parked
  | roused (why : Rouse)
  | answered
  | returned (cancelled : Int)
  /-- the clock goes on -/
  | ticked
deriving DecidableEq

/-- {lit}`sicha_cancel_is_cancelled`: a load of the flag. -/
def TokenState.isCancelled (s : TokenState) : Int :=
  if s.flag ≠ 0 then 1 else 0

/-- A sleeper may wake up for this reason. -/
def Rouse.Allowed (s : TokenState) (casts : Nat) (remain : UInt64) : Rouse → Prop
  | .signalled => casts < s.casts
  | .timedOut => remain < waitForeverMs
  | .spurious => True

/-- The steps of a thread. -/
inductive TokenStep : TokenState → TokenThread → TokenEvent → TokenState → TokenThread → Prop
  -- sicha_cancel_trigger
  | trigger {s : TokenState} (h : s.locked = false) :
      TokenStep s .idle .locked { s with locked := true } .triggering
  | set (s : TokenState) : TokenStep s .triggering (.stored 1) { s with flag := 1 } .casting
  | cast (s : TokenState) : TokenStep s .casting .cast { s with casts := s.casts + 1 } .unlocking
  -- sicha_cancel_reset
  | reset {s : TokenState} (h : s.locked = false) :
      TokenStep s .idle .locked { s with locked := true } .resetting
  | clear (s : TokenState) : TokenStep s .resetting (.stored 0) { s with flag := 0 } .unlocking
  | unlock (s : TokenState) : TokenStep s .unlocking .unlocked { s with locked := false } .idle
  -- sicha_cancel_is_cancelled: without the mutex
  | poll (s : TokenState) : TokenStep s .idle (.polled s.isCancelled) s .idle
  -- real_wait_ms
  | enter (s : TokenState) (ms : UInt64) :
      TokenStep s .idle (.entered ms) s (.waiting (waitDeadline s.nowMs ms) .arriving)
  | lock {s : TokenState} (deadline : UInt64) (h : s.locked = false) :
      TokenStep s (.waiting deadline .arriving) .locked { s with locked := true }
        (.waiting deadline .looking)
  | look {s : TokenState} (deadline : UInt64) (h : s.flag = 0) :
      TokenStep s (.waiting deadline .looking) .looked s (.waiting deadline .timing)
  | seen {s : TokenState} (deadline : UInt64) (h : s.flag ≠ 0) :
      TokenStep s (.waiting deadline .looking) .looked s (.waiting deadline .behind)
  | time {s : TokenState} (deadline : UInt64) (h : s.nowMs < deadline) :
      TokenStep s (.waiting deadline .timing) .timed s
        (.waiting deadline (.parking (waitRemain deadline s.nowMs)))
  | expire {s : TokenState} (deadline : UInt64) (h : s.nowMs ≥ deadline) :
      TokenStep s (.waiting deadline .timing) .timed s (.waiting deadline .behind)
  | park (s : TokenState) (deadline remain : UInt64) :
      TokenStep s (.waiting deadline (.parking remain)) .parked { s with locked := false }
        (.waiting deadline (.sleeping s.casts remain))
  | rouse {s : TokenState} (deadline : UInt64) {casts : Nat} {remain : UInt64} (why : Rouse)
      (h : why.Allowed s casts remain) :
      TokenStep s (.waiting deadline (.sleeping casts remain)) (.roused why) s
        (.waiting deadline .roused)
  | relock {s : TokenState} (deadline : UInt64) (h : s.locked = false) :
      TokenStep s (.waiting deadline .roused) .locked { s with locked := true }
        (.waiting deadline .looking)
  | answer (s : TokenState) (deadline : UInt64) :
      TokenStep s (.waiting deadline .behind) .answered s
        (.waiting deadline (.leaving s.isCancelled))
  | leave (s : TokenState) (deadline : UInt64) (cancelled : Int) :
      TokenStep s (.waiting deadline (.leaving cancelled)) (.returned cancelled)
        { s with locked := false } .idle
  | tick {s : TokenState} (l : TokenThread) {t : UInt64} (h : s.nowMs ≤ t) :
      TokenStep s l .ticked { s with nowMs := t } l

/-- A fresh token among idle threads. -/
def tokenStart (ι : Type) (now : UInt64) : Threads ι TokenState TokenThread where
  shared := ⟨false, 0, 0, now⟩
  own _ := .idle

/-! ## The token as a monitor -/

/-- What is guarded. -/
def TokenState.monitor (s : TokenState) : Monitor UInt32 where
  locked := s.locked
  casts := s.casts
  value := s.flag

/-- The phase of a thread. -/
def TokenThread.phase : TokenThread → Monitor.Phase
  | .idle => .outside
  | .triggering | .resetting | .unlocking => .inside
  | .casting => .owing
  | .waiting _ point =>
      match point with
      | .arriving | .roused => .outside
      | .looking | .behind | .leaving _ => .inside
      | .timing | .parking _ => .calm
      | .sleeping casts _ => .asleep casts

/-- The thread has the mutex. -/
def TokenThread.holds (l : TokenThread) : Bool :=
  l.phase.holds

/-- Every step is a move of a thread at a monitor. -/
theorem tokenStep_move {s s' : TokenState} {l l' : TokenThread} {e : TokenEvent}
    (h : TokenStep s l e s' l') :
    Monitor.Move (· ≠ 0) s.monitor l.phase s'.monitor l'.phase := by
  cases h with
  | trigger hfree | reset hfree => exact .enter hfree
  | lock _ hfree | relock _ hfree => exact .enter hfree
  | set => exact .raise _ 1
  | cast => exact .cast _
  | clear => exact .hush _ (by simp)
  | unlock | leave => exact .leave _
  | look _ hflag => exact .look (by simpa [TokenState.monitor] using hflag)
  | expire => exact .forget _
  | park => exact .sleep _
  | rouse => exact .wake _ _
  | poll | enter | seen | time | answer | tick => exact .stay _ _

/-! ## The invariant -/

/-- Behind its loop a wait has seen the flag set, or its deadline has come; its answer is the
flag. -/
def TokenThread.Settled (s : TokenState) : TokenThread → Prop
  | .waiting deadline .behind => s.flag ≠ 0 ∨ deadline ≤ s.nowMs
  | .waiting deadline (.leaving cancelled) =>
      cancelled = s.isCancelled ∧ (s.flag ≠ 0 ∨ deadline ≤ s.nowMs)
  | _ => True

/-- The clock does not go back. -/
theorem tokenStep_now {s s' : TokenState} {l l' : TokenThread} {e : TokenEvent}
    (h : TokenStep s l e s' l') : s.nowMs ≤ s'.nowMs := by
  cases h <;> first | exact UInt64.le_refl _ | assumption

/-- A thread outside the mutex is settled. -/
theorem TokenThread.settled_of_outside {s : TokenState} {l : TokenThread}
    (h : l.holds = false) : l.Settled s := by
  cases l with
  | waiting deadline point => cases point <;> trivial
  | idle | triggering | casting | resetting | unlocking => trivial

/-- The flag stays, and the clock goes on. -/
theorem TokenThread.Settled.later {s s' : TokenState} {l : TokenThread} (h : l.Settled s)
    (hflag : s'.flag = s.flag) (hnow : s.nowMs ≤ s'.nowMs) : l.Settled s' := by
  have hor {deadline : UInt64} (hs : s.flag ≠ 0 ∨ deadline ≤ s.nowMs) :
      s'.flag ≠ 0 ∨ deadline ≤ s'.nowMs := by
    rw [hflag]
    exact hs.imp_right fun hle => UInt64.le_trans hle hnow
  cases l with
  | waiting deadline point =>
      cases point with
      | behind => exact hor h
      | leaving cancelled =>
          refine ⟨?_, hor h.2⟩
          rw [h.1, TokenState.isCancelled, TokenState.isCancelled, hflag]
      | _ => trivial
  | _ => trivial

/-- A step of the thread itself. -/
theorem TokenThread.Settled.step {s s' : TokenState} {l l' : TokenThread} {e : TokenEvent}
    (h : l.Settled s) (hstep : TokenStep s l e s' l') : l'.Settled s' := by
  cases hstep with
  | seen _ hflag => exact .inl hflag
  | expire _ hlate => exact .inr hlate
  | answer => exact ⟨rfl, h⟩
  | tick _ hnow => exact h.later rfl hnow
  | _ => trivial

section Runs

variable {ι : Type} [DecidableEq ι] {now : UInt64} {past more : List (ι × TokenEvent)}
  {c c' : Threads ι TokenState TokenThread}

/-- The invariant of the token. -/
structure TokenSound (c : Threads ι TokenState TokenThread) : Prop where
  monitor : Monitor.Sound (· ≠ 0) (c.map TokenState.monitor TokenThread.phase)
  settled : ∀ i, (c.own i).Settled c.shared

omit [DecidableEq ι] in
/-- Two threads that hold the mutex are one. -/
theorem TokenSound.exclusive (h : TokenSound c) {i j : ι} (hi : (c.own i).holds = true)
    (hj : (c.own j).holds = true) : i = j :=
  h.monitor.exclusive hi hj

omit [DecidableEq ι] in
/-- The mutex is marked exactly while a thread holds it. -/
theorem TokenSound.locked_iff (h : TokenSound c) :
    c.shared.locked = true ↔ ∃ i, (c.own i).holds = true :=
  h.monitor.locked_iff

omit [DecidableEq ι] in
/-- While a thread has the mutex the others leave the flag alone. -/
theorem TokenSound.flag_eq (h : TokenSound c) {i j : ι} (hj : (c.own j).holds = true)
    (hne : j ≠ i) {e : TokenEvent} {s : TokenState} {l : TokenThread}
    (hstep : TokenStep c.shared (c.own i) e s l) : s.flag = c.shared.flag := by
  have hout : (c.own i).holds = false := by
    by_contra hi
    exact hne (h.exclusive hj (by simpa using hi))
  exact ((tokenStep_move hstep).frame hout).1

/-- Every step keeps the invariant. -/
theorem TokenSound.step (h : TokenSound c) {i : ι} {e : TokenEvent} {s : TokenState}
    {l : TokenThread} (hstep : TokenStep c.shared (c.own i) e s l) :
    TokenSound (c.after i s l) := by
  refine ⟨?_, fun j => ?_⟩
  · rw [Threads.map_after]
    exact h.monitor.move (tokenStep_move hstep)
  · rw [c.after_shared]
    by_cases hne : j = i
    · subst hne
      rw [c.after_own_self]
      exact (h.settled j).step hstep
    · rw [c.after_own_of_ne hne]
      cases hj : (c.own j).holds with
      | false => exact TokenThread.settled_of_outside hj
      | true => exact (h.settled j).later (h.flag_eq hj hne hstep) (tokenStep_now hstep)

/-- The token is sound in every run. -/
theorem run_tokenSound (hrun : Threads.Run TokenStep (tokenStart ι now) past c) : TokenSound c :=
  hrun.invariant (P := fun _ c => TokenSound c)
    ⟨Monitor.sound_start, fun _ => TokenThread.settled_of_outside rfl⟩
    fun _ _ _ _ _ _ h hstep => h.step hstep

omit [DecidableEq ι] in
/-- Between its look at the flag and its sleep a wait has the flag unset. -/
theorem TokenSound.calm (h : TokenSound c) {i : ι} (hi : (c.own i).phase = .calm) :
    c.shared.flag = 0 :=
  not_not.mp (h.monitor.calm i hi)

omit [DecidableEq ι] in
/-- With the flag set and no broadcast due a sleeping wait has been signalled. -/
theorem TokenSound.signalled (h : TokenSound c) (hflag : c.shared.flag ≠ 0)
    (hcast : ∀ j, c.own j ≠ .casting) {i : ι} {deadline : UInt64} {casts : Nat} {remain : UInt64}
    (hi : c.own i = .waiting deadline (.sleeping casts remain)) : casts < c.shared.casts := by
  refine h.monitor.signalled (i := i) hflag (fun j hj => ?_) (congrArg TokenThread.phase hi)
  refine hcast j ?_
  change (c.own j).phase = .owing at hj
  generalize c.own j = l at hj ⊢
  cases l with
  | waiting deadline point => cases point <;> cases hj
  | casting => rfl
  | idle | triggering | resetting | unlocking => cases hj

/-- Threads trigger, reset, poll and wait in any order.  In every run at most one thread has the
mutex, which is marked exactly then; no thread stores to the flag while a wait is between its look
at the flag and its sleep; and if the flag is set and no broadcast is due, every sleeping wait has
been signalled. -/
theorem token_signals (now : UInt64) (past : List (ι × TokenEvent))
    (c : Threads ι TokenState TokenThread)
    (hrun : Threads.Run TokenStep (tokenStart ι now) past c) :
    (∀ i j, (c.own i).holds = true → (c.own j).holds = true → i = j) ∧
      (c.shared.locked = true ↔ ∃ i, (c.own i).holds = true) ∧
      (∀ i v s l, TokenStep c.shared (c.own i) (.stored v) s l →
        ∀ j deadline, c.own j ≠ .waiting deadline .timing ∧
          ∀ remain, c.own j ≠ .waiting deadline (.parking remain)) ∧
      (c.shared.flag ≠ 0 → (∀ j, c.own j ≠ .casting) →
        ∀ i deadline casts remain, c.own i = .waiting deadline (.sleeping casts remain) →
          TokenStep c.shared (c.own i) (.roused .signalled) c.shared
            (.waiting deadline .roused)) := by
  have hsound := run_tokenSound hrun
  refine ⟨fun i j => hsound.exclusive, hsound.locked_iff, ?_, ?_⟩
  · intro i v s l hstep j deadline
    have hi : (c.own i).holds = true ∧ (c.own i).phase ≠ .calm := by
      generalize c.own i = before at hstep
      cases hstep <;> exact ⟨rfl, nofun⟩
    have hnot : (c.own j).phase ≠ .calm := by
      intro hcalm
      have hij := hsound.exclusive hi.1 (by rw [TokenThread.holds, hcalm]; rfl)
      subst hij
      exact hi.2 hcalm
    exact ⟨fun hj => hnot (by rw [hj]; rfl), fun remain hj => hnot (by rw [hj]; rfl)⟩
  · intro hflag hcast i deadline casts remain hi
    rw [hi]
    exact .rouse deadline .signalled (hsound.signalled hflag hcast hi)

/-! ## What a wait returns -/

omit [DecidableEq ι] in
/-- A wait returns, or it goes on with its deadline. -/
theorem tokenStep_waiting {s s' : TokenState} {deadline : UInt64} {point : WaitPoint}
    {l : TokenThread} {e : TokenEvent} (h : TokenStep s (.waiting deadline point) e s' l)
    (hin : ∀ cancelled, e ≠ .returned cancelled) : ∃ point', l = .waiting deadline point' := by
  cases h with
  | leave _ cancelled => exact absurd rfl (hin cancelled)
  | _ => exact ⟨_, rfl⟩

/-- Until it returns a wait is in the loop with its deadline. -/
theorem run_waiting {i : ι} {deadline : UInt64} {point : WaitPoint}
    (hi : c.own i = .waiting deadline point) (hmore : Threads.Run TokenStep c more c')
    (hin : ∀ cancelled, (i, TokenEvent.returned cancelled) ∉ more) :
    ∃ point', c'.own i = .waiting deadline point' := by
  refine hmore.invariant (P := fun more c' =>
    (∀ cancelled, (i, TokenEvent.returned cancelled) ∉ more) →
      ∃ point', c'.own i = .waiting deadline point') (fun _ => ⟨point, hi⟩) ?_ hin
  intro more c' j e s l ih hstep hin
  obtain ⟨point', hpoint⟩ := ih fun cancelled hmem => hin cancelled (by simp [hmem])
  by_cases hne : i = j
  · subst hne
    rw [hpoint] at hstep
    obtain ⟨point'', rfl⟩ := tokenStep_waiting hstep fun cancelled he => hin cancelled (by simp [he])
    exact ⟨point'', c'.after_own_self i s _⟩
  · rw [c'.after_own_of_ne hne]
    exact ⟨point', hpoint⟩

omit [DecidableEq ι] in
/-- A step that does not clear the flag leaves it set. -/
theorem tokenStep_set {s s' : TokenState} {l l' : TokenThread} {e : TokenEvent}
    (h : TokenStep s l e s' l') (hset : e ≠ .stored 0) (hflag : s.flag ≠ 0) : s'.flag ≠ 0 := by
  cases h with
  | set => exact (by decide : (1 : UInt32) ≠ 0)
  | clear => exact absurd rfl hset
  | _ => exact hflag

/-- Without a reset the flag stays set. -/
theorem run_set (hflag : c.shared.flag ≠ 0) (hmore : Threads.Run TokenStep c more c')
    (hset : ∀ j, (j, TokenEvent.stored 0) ∉ more) : c'.shared.flag ≠ 0 := by
  refine hmore.invariant (P := fun more c' =>
    (∀ j, (j, TokenEvent.stored 0) ∉ more) → c'.shared.flag ≠ 0) (fun _ => hflag) ?_ hset
  intro more c' j e s l ih hstep hset
  exact tokenStep_set hstep (fun he => hset j (by simp [he]))
    (ih fun j' hmem => hset j' (by simp [hmem]))

/-- It stays so in whatever follows. -/
theorem TokenSound.run (h : TokenSound c) (hmore : Threads.Run TokenStep c more c') :
    TokenSound c' :=
  hmore.invariant (P := fun _ c' => TokenSound c') h fun _ _ _ _ _ _ h hstep => h.step hstep

/-- A poll answers 1 exactly if the flag is set. -/
theorem isCancelled_eq_one {s : TokenState} : s.isCancelled = 1 ↔ s.flag ≠ 0 := by
  unfold TokenState.isCancelled
  split_ifs with h <;> simp [h]

omit [DecidableEq ι] in
/-- A return of a wait, as the invariant has it. -/
theorem TokenSound.answer (h : TokenSound c) {i : ι} {deadline : UInt64} {point : WaitPoint}
    (hi : c.own i = .waiting deadline point) {cancelled : Int} {s : TokenState} {l : TokenThread}
    (hstep : TokenStep c.shared (c.own i) (.returned cancelled) s l) :
    cancelled = c.shared.isCancelled ∧ (c.shared.flag ≠ 0 ∨ deadline ≤ c.shared.nowMs) := by
  have hsettled := h.settled i
  rw [hi] at hstep hsettled
  cases hstep with
  | leave => exact hsettled

/-- The deadline of a wait is never, or it saturates. -/
theorem waitDeadline_toNat (now ms : UInt64) :
    (waitDeadline now ms).toNat =
      if ms ≥ waitForeverMs then 2 ^ 64 - 1 else min (now.toNat + ms.toNat) (2 ^ 64 - 1) := by
  unfold waitDeadline
  split_ifs
  · rfl
  · exact addSat_toNat now ms

/-- A thread waits for some time, among threads that trigger, reset, poll and wait in any order.
When its wait returns, the answer is 1 if the flag is set at that moment and 0 otherwise; it is 0
only if the time has passed; and it is 1 if the flag was set at any moment of the wait and has not
been reset since. -/
theorem token_answers (now : UInt64) (past : List (ι × TokenEvent))
    (c : Threads ι TokenState TokenThread)
    (hrun : Threads.Run TokenStep (tokenStart ι now) past c) (i : ι) (hidle : c.own i = .idle)
    (ms : UInt64) (more : List (ι × TokenEvent)) (c' : Threads ι TokenState TokenThread)
    (hwait : Threads.Run TokenStep
      (c.after i c.shared (.waiting (waitDeadline c.shared.nowMs ms) .arriving)) more c')
    (hin : ∀ cancelled, (i, TokenEvent.returned cancelled) ∉ more) (cancelled : Int)
    (s : TokenState) (l : TokenThread)
    (hstep : TokenStep c'.shared (c'.own i) (.returned cancelled) s l) :
    (cancelled = if c'.shared.flag ≠ 0 then 1 else 0) ∧
      (cancelled = 0 →
        (if ms ≥ waitForeverMs then 2 ^ 64 - 1
          else min (c.shared.nowMs.toNat + ms.toNat) (2 ^ 64 - 1)) ≤ c'.shared.nowMs.toNat) ∧
      ∀ front c1 back,
        Threads.Run TokenStep
          (c.after i c.shared (.waiting (waitDeadline c.shared.nowMs ms) .arriving)) front c1 →
        c1.shared.flag ≠ 0 → Threads.Run TokenStep c1 back c' →
        (∀ j, (j, TokenEvent.stored 0) ∉ back) → cancelled = 1 := by
  have hentered : TokenStep c.shared (c.own i) (.entered ms) c.shared
      (.waiting (waitDeadline c.shared.nowMs ms) .arriving) := by
    rw [hidle]
    exact .enter _ _
  have hsound := ((run_tokenSound hrun).step hentered).run hwait
  obtain ⟨point, hpoint⟩ := run_waiting (c.after_own_self i _ _) hwait hin
  obtain ⟨hanswer, hlate⟩ := hsound.answer hpoint hstep
  refine ⟨hanswer, fun hzero => ?_, fun front c1 back _ hflag hback hset => ?_⟩
  · rw [← waitDeadline_toNat, ← UInt64.le_iff_toNat_le]
    refine hlate.resolve_left fun hflag => ?_
    rw [hanswer, isCancelled_eq_one.mpr hflag] at hzero
    cases hzero
  · rw [hanswer, isCancelled_eq_one]
    exact run_set hflag hback hset

/-! ## How soon it returns -/

/-- The steps a wait takes before it returns, once the flag is set.  It does not come to sleep
again. -/
def WaitPoint.steps : WaitPoint → Nat
  | .sleeping _ _ => 5
  | .arriving | .roused => 4
  | .looking => 3
  | .behind => 2
  | .leaving _ => 1
  | .timing | .parking _ => 0

/-- A step of a thread's own. -/
def TokenEvent.Own (e : TokenEvent) : Prop :=
  e ≠ .ticked

instance (e : TokenEvent) : Decidable e.Own :=
  inferInstanceAs (Decidable (e ≠ .ticked))

omit [DecidableEq ι] in
/-- With the flag set every step of a wait brings it nearer to its return. -/
theorem tokenStep_nearer {s s' : TokenState} {deadline : UInt64} {point point' : WaitPoint}
    {e : TokenEvent} (h : TokenStep s (.waiting deadline point) e s' (.waiting deadline point'))
    (hflag : s.flag ≠ 0) (hcalm : (TokenThread.waiting deadline point).phase ≠ .calm) :
    point'.steps + (if e.Own then 1 else 0) = point.steps := by
  cases h with
  | look _ hunset => exact absurd hunset hflag
  | time | expire | park => exact absurd rfl hcalm
  | _ => rfl

omit [DecidableEq ι] in
/-- A thread in a call can go on without a spurious wakeup, unless it is to take a mutex that is
held, or sleeps without having been signalled. -/
theorem tokenStep_goes {s : TokenState} {l : TokenThread} (hl : l ≠ .idle)
    (hfree : s.locked = false ∨ l.holds = true)
    (hsignalled : ∀ deadline casts remain, l = .waiting deadline (.sleeping casts remain) →
      casts < s.casts) :
    ∃ e s' l', TokenStep s l e s' l' ∧ e.Own ∧ e ≠ .roused .spurious := by
  have hopen (hout : l.holds = false) : s.locked = false :=
    hfree.resolve_right (by simp [hout])
  cases l with
  | idle => exact absurd rfl hl
  | triggering => exact ⟨_, _, _, .set s, nofun, nofun⟩
  | casting => exact ⟨_, _, _, .cast s, nofun, nofun⟩
  | resetting => exact ⟨_, _, _, .clear s, nofun, nofun⟩
  | unlocking => exact ⟨_, _, _, .unlock s, nofun, nofun⟩
  | waiting deadline point =>
      cases point with
      | arriving => exact ⟨_, _, _, .lock deadline (hopen rfl), nofun, nofun⟩
      | roused => exact ⟨_, _, _, .relock deadline (hopen rfl), nofun, nofun⟩
      | looking =>
          by_cases hflag : s.flag = 0
          · exact ⟨_, _, _, .look deadline hflag, nofun, nofun⟩
          · exact ⟨_, _, _, .seen deadline hflag, nofun, nofun⟩
      | timing =>
          by_cases hlate : s.nowMs < deadline
          · exact ⟨_, _, _, .time deadline hlate, nofun, nofun⟩
          · exact ⟨_, _, _, .expire deadline (UInt64.not_lt.mp hlate), nofun, nofun⟩
      | parking remain => exact ⟨_, _, _, .park s deadline remain, nofun, nofun⟩
      | sleeping casts remain =>
          exact ⟨_, _, _, .rouse deadline .signalled (hsignalled deadline casts remain rfl), nofun,
            nofun⟩
      | behind => exact ⟨_, _, _, .answer s deadline, nofun, nofun⟩
      | leaving cancelled => exact ⟨_, _, _, .leave s deadline cancelled, nofun, nofun⟩

/-- While the flag is set every step of a wait counts. -/
theorem run_nearer (hsound : TokenSound c) (hflag : c.shared.flag ≠ 0) {i : ι} {deadline : UInt64}
    {point : WaitPoint} (hi : c.own i = .waiting deadline point)
    (hmore : Threads.Run TokenStep c more c') (hset : ∀ j, (j, TokenEvent.stored 0) ∉ more)
    (hin : ∀ cancelled, (i, TokenEvent.returned cancelled) ∉ more) :
    ∃ point', c'.own i = .waiting deadline point' ∧
      point'.steps + more.countP (fun x => x.1 = i ∧ x.2.Own) = point.steps := by
  refine (hmore.invariant (P := fun more c' => Threads.Run TokenStep c more c' ∧
    ((∀ j, (j, TokenEvent.stored 0) ∉ more) →
      (∀ cancelled, (i, TokenEvent.returned cancelled) ∉ more) →
        ∃ point', c'.own i = .waiting deadline point' ∧
          point'.steps + more.countP (fun x => x.1 = i ∧ x.2.Own) = point.steps))
    ⟨.nil, fun _ _ => ⟨point, hi, rfl⟩⟩ ?_).2 hset hin
  rintro more c' j e s l ⟨hrun, ih⟩ hstep
  refine ⟨.snoc hrun hstep, fun hset hin => ?_⟩
  have hset' : ∀ j, (j, TokenEvent.stored 0) ∉ more := fun j hmem => hset j (by simp [hmem])
  obtain ⟨point', hpoint, hcount⟩ := ih hset' fun cancelled hmem => hin cancelled (by simp [hmem])
  rw [List.countP_append, List.countP_singleton]
  by_cases hne : i = j
  · subst hne
    have hcalm : (TokenThread.waiting deadline point').phase ≠ .calm := by
      rw [← hpoint]
      exact fun hcalm => run_set hflag hrun hset' ((hsound.run hrun).calm hcalm)
    rw [hpoint] at hstep
    obtain ⟨point'', rfl⟩ := tokenStep_waiting hstep fun cancelled he => hin cancelled (by simp [he])
    have hnearer := tokenStep_nearer hstep (run_set hflag hrun hset') hcalm
    refine ⟨point'', c'.after_own_self i s _, ?_⟩
    simp only [true_and, decide_eq_true_eq]
    omega
  · refine ⟨point', (c'.after_own_of_ne hne s l).trans hpoint, ?_⟩
    rw [if_neg (by simp [Ne.symm hne])]
    exact hcount

/-- The token has been triggered, and nobody resets it.  Then a wait returns with its fifth step from
there at the latest, whatever the others do; it returns 1; and it can take its next step, and no
spurious wakeup is needed for it, unless some other thread has the mutex, which can take its own. -/
theorem token_wakes (now : UInt64) (past : List (ι × TokenEvent))
    (c : Threads ι TokenState TokenThread)
    (hrun : Threads.Run TokenStep (tokenStart ι now) past c) (hflag : c.shared.flag ≠ 0) (i : ι)
    (deadline : UInt64) (point : WaitPoint) (hi : c.own i = .waiting deadline point)
    (more : List (ι × TokenEvent)) (c' : Threads ι TokenState TokenThread)
    (hmore : Threads.Run TokenStep c more c') (hset : ∀ j, (j, TokenEvent.stored 0) ∉ more)
    (hin : ∀ cancelled, (i, TokenEvent.returned cancelled) ∉ more) :
    more.countP (fun x => x.1 = i ∧ x.2.Own) < 5 ∧
      (∀ cancelled s l, TokenStep c'.shared (c'.own i) (.returned cancelled) s l →
        cancelled = 1) ∧
      ((∃ e s l, TokenStep c'.shared (c'.own i) e s l ∧ e.Own ∧ e ≠ .roused .spurious) ∨
        ∃ j e s l, j ≠ i ∧ (c'.own j).holds = true ∧
          TokenStep c'.shared (c'.own j) e s l ∧ e.Own ∧ e ≠ .roused .spurious) := by
  have hsound := run_tokenSound hrun
  have hsound' := hsound.run hmore
  have hflag' := run_set hflag hmore hset
  obtain ⟨point', hpoint, hcount⟩ := run_nearer hsound hflag hi hmore hset hin
  have hbusy : c'.own i ≠ .idle := by
    rw [hpoint]
    nofun
  refine ⟨?_, fun cancelled s l hstep => ?_, ?_⟩
  · have hpos : 0 < point'.steps := by
      have hcalm : (c'.own i).phase ≠ .calm := fun hcalm => hflag' (hsound'.calm hcalm)
      rw [hpoint] at hcalm
      cases point' <;> first | exact Nat.zero_lt_succ _ | exact absurd rfl hcalm
    have hle : point.steps ≤ 5 := by
      cases point <;> simp [WaitPoint.steps]
    omega
  · rw [(hsound'.answer hpoint hstep).1, isCancelled_eq_one]
    exact hflag'
  · by_cases hheld : ∃ j, (c'.own j).holds = true
    · obtain ⟨j, hj⟩ := hheld
      have hne : c'.own j ≠ .idle := fun hidle => by
        rw [hidle] at hj
        cases hj
      obtain ⟨e, s, l, hgoes⟩ := tokenStep_goes hne (.inr hj) fun deadline casts remain hasleep => by
        rw [hasleep] at hj
        cases hj
      by_cases hij : j = i
      · subst hij
        exact .inl ⟨e, s, l, hgoes⟩
      · exact .inr ⟨j, e, s, l, hij, hj, hgoes⟩
    · have hfree : c'.shared.locked = false := by
        by_contra hlocked
        exact hheld (hsound'.locked_iff.mp (by simpa using hlocked))
      have hcast : ∀ j, c'.own j ≠ .casting := fun j hj => hheld ⟨j, by rw [hj]; rfl⟩
      exact .inl (tokenStep_goes hbusy (.inl hfree) fun _ _ _ => hsound'.signalled hflag' hcast)

end Runs

/-! ## A run -/

/-- A thread that begins to wait for a second. -/
def plainWait : Threads Bool TokenState TokenThread :=
  (tokenStart Bool 0).after false (tokenStart Bool 0).shared
    (.waiting (waitDeadline 0 1000) .arriving)

/-- A wait of a second begins. -/
theorem plain_entered :
    Threads.Run TokenStep (tokenStart Bool 0) [(false, .entered 1000)] plainWait :=
  Threads.Run.next .nil false rfl (.enter ⟨false, 0, 0, 0⟩ 1000)

/-- It falls asleep, and another thread triggers the token. -/
theorem plain_triggered :
    ∃ c, Threads.Run TokenStep plainWait
        [(false, .locked), (false, .looked), (false, .timed), (false, .parked), (true, .locked),
          (true, .stored 1), (true, .cast), (true, .unlocked)] c ∧
      c.shared = ⟨false, 1, 1, 0⟩ ∧ c.own true = .idle ∧
      c.own false = .waiting (waitDeadline 0 1000) (.sleeping 0 1000) :=
  have hlocked := Threads.Run.next .nil false rfl (.lock (waitDeadline 0 1000) rfl)
  have hlooked := hlocked.next false rfl (.look (waitDeadline 0 1000) rfl)
  have htimed := hlooked.next false rfl (.time (waitDeadline 0 1000) (by decide))
  have hparked := htimed.next false rfl (.park ⟨true, 0, 0, 0⟩ (waitDeadline 0 1000) 1000)
  have hheld := hparked.next true rfl (.trigger rfl)
  have hset := hheld.next true rfl (.set ⟨true, 0, 0, 0⟩)
  have hcast := hset.next true rfl (.cast ⟨true, 0, 1, 0⟩)
  ⟨_, hcast.next true rfl (.unlock ⟨true, 1, 1, 0⟩), rfl, rfl, rfl⟩

/-- The sleeper has been signalled. -/
theorem token_signals_plain :
    ∃ c : Threads Bool TokenState TokenThread,
      c.own false = .waiting (waitDeadline 0 1000) (.sleeping 0 1000) ∧
        TokenStep c.shared (c.own false) (.roused .signalled) c.shared
          (.waiting (waitDeadline 0 1000) .roused) := by
  obtain ⟨c, hrun, hshared, hidle, hasleep⟩ := plain_triggered
  obtain ⟨-, -, -, hsignalled⟩ := token_signals 0 _ c (plain_entered.append hrun)
  refine ⟨c, hasleep, hsignalled (by rw [hshared]; decide) ?_ false _ 0 1000 hasleep⟩
  rintro (_ | _) hcast
  · rw [hasleep] at hcast
    cases hcast
  · rw [hidle] at hcast
    cases hcast

/-- It wakes up, and comes to its answer. -/
theorem plain_woken :
    ∃ c, Threads.Run TokenStep plainWait
        [(false, .locked), (false, .looked), (false, .timed), (false, .parked), (true, .locked),
          (true, .stored 1), (true, .cast), (true, .unlocked), (false, .roused .signalled),
          (false, .locked), (false, .looked), (false, .answered)] c ∧
      c.shared = ⟨true, 1, 1, 0⟩ ∧ c.own false = .waiting (waitDeadline 0 1000) (.leaving 1) := by
  obtain ⟨c, hrun, hshared, -, hasleep⟩ := plain_triggered
  obtain ⟨s, own⟩ := c
  obtain rfl : s = ⟨false, 1, 1, 0⟩ := hshared
  have hroused := hrun.next false hasleep
    (.rouse (waitDeadline 0 1000) .signalled (show 0 < 1 by decide))
  have hlocked := hroused.next false (Threads.after_own_self ..)
    (.relock (waitDeadline 0 1000) rfl)
  have hlooked := hlocked.next false (Threads.after_own_self ..)
    (.seen (waitDeadline 0 1000) (show (1 : UInt32) ≠ 0 by decide))
  exact ⟨_, hlooked.next false (Threads.after_own_self ..)
    (.answer ⟨true, 1, 1, 0⟩ (waitDeadline 0 1000)), rfl, Threads.after_own_self ..⟩

/-- A wait that is woken returns 1. -/
theorem token_answers_plain :
    ∃ c : Threads Bool TokenState TokenThread, c.shared.flag = 1 ∧
      ∃ s l, TokenStep c.shared (c.own false) (.returned 1) s l ∧
        (1 : Int) = if c.shared.flag ≠ 0 then 1 else 0 := by
  obtain ⟨c, hrun, hshared, hleaving⟩ := plain_woken
  have hstep : TokenStep c.shared (c.own false) (.returned 1) { c.shared with locked := false }
      .idle := by
    rw [hleaving]
    exact .leave _ _ 1
  exact ⟨c, by rw [hshared], _, _, hstep,
    (token_answers 0 [] _ .nil false rfl 1000 _ c hrun (by simp) 1 _ _ hstep).1⟩

/-- A triggered wait takes its first step. -/
theorem token_wakes_plain :
    ∃ c c' : Threads Bool TokenState TokenThread, c.shared.flag = 1 ∧
      ∃ more, Threads.Run TokenStep c more c' ∧
        more.countP (fun x => x.1 = false ∧ x.2.Own) < 5 := by
  obtain ⟨c, hrun, hshared, -, hasleep⟩ := plain_triggered
  have hroused : TokenStep c.shared (c.own false) (.roused .signalled) c.shared
      (.waiting (waitDeadline 0 1000) .roused) := by
    rw [hasleep, hshared]
    exact .rouse _ .signalled (show 0 < 1 by decide)
  have hmore := Threads.Run.snoc .nil hroused
  exact ⟨c, _, by rw [hshared], _, hmore,
    (token_wakes 0 _ c (plain_entered.append hrun) (by rw [hshared]; decide) false _ _ hasleep _ _
      hmore (by simp) (by simp)).1⟩

end Sicha
