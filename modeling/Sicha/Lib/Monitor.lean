import Mathlib.Tactic.SplitIfs
import Sicha.Lib.Threads

/-!
# Monitors

A value that a mutex guards, and a condition variable on which threads sleep until a condition
holds of the value.  Falling asleep gives the mutex back in the same step.  A broadcast signals
those who are asleep; a sleeper may also wake up unsignalled, and has to look again.

Of the broadcasts the model keeps their number: a sleeper has been signalled if there were more
than when it fell asleep.

Main results:

- Definition {lit}`Move`: what a thread may do.
- Definition {lit}`Sound`: the mutex is held by at most one thread, and no sleeper misses that the
  condition has come to hold.
- Theorem {lit}`Sound.move`: every move keeps the monitor sound.
- Theorem {lit}`Move.frame`: only the holder of the mutex changes the value.
-/

/-- A mutex, a condition variable and a value. -/
structure Monitor (V : Type) where
  /-- the mutex is held -/
  locked : Bool
  /-- the broadcasts so far -/
  casts : Nat
  value : V

namespace Monitor

/-- Where a thread is. -/
inductive Phase where
  /-- without the mutex -/
  | outside
  /-- with the mutex -/
  | inside
  /-- with the mutex, and it has seen that the condition does not hold -/
  | calm
  /-- with the mutex, and it has changed the value and not yet broadcast -/
  | owing
  /-- asleep since there were so many broadcasts -/
  | asleep (casts : Nat)

/-- The thread has the mutex. -/
def Phase.holds : Phase → Bool
  | .inside | .calm | .owing => true
  | .outside | .asleep _ => false

variable {V : Type} {cond : V → Prop}

/-- The moves of a thread.  It may sleep only if it has seen that the condition does not hold, and
a change of the value that may bring the condition about is followed by a broadcast before the
mutex is given back. -/
inductive Move (cond : V → Prop) : Monitor V → Phase → Monitor V → Phase → Prop
  | stay (m : Monitor V) (p : Phase) : Move cond m p m p
  | enter {m : Monitor V} (h : m.locked = false) :
      Move cond m .outside { m with locked := true } .inside
  | look {m : Monitor V} (h : ¬ cond m.value) : Move cond m .inside m .calm
  | forget (m : Monitor V) : Move cond m .calm m .inside
  | hush (m : Monitor V) {v : V} (h : ¬ cond v) : Move cond m .inside { m with value := v } .inside
  | raise (m : Monitor V) (v : V) : Move cond m .inside { m with value := v } .owing
  | cast (m : Monitor V) : Move cond m .owing { m with casts := m.casts + 1 } .inside
  | leave (m : Monitor V) : Move cond m .inside { m with locked := false } .outside
  | sleep (m : Monitor V) : Move cond m .calm { m with locked := false } (.asleep m.casts)
  | wake (m : Monitor V) (n : Nat) : Move cond m (.asleep n) m .outside

/-- The mutex as a resource. -/
def mutex (m : Monitor V) (_ : Unit) : Bool :=
  m.locked

/-- What a thread holds of it. -/
def Phase.held (p : Phase) : Option Unit :=
  if p.holds then some () else none

/-- The mark of the mutex, as an update of whatever was marked before. -/
theorem mutex_eq_update {m : Monitor V} (flag : Unit → Bool) {b : Bool} (h : m.locked = b) :
    mutex m = Function.update flag () b := by
  funext
  rw [Function.update_self]
  exact h

/-- A phase holds the one mutex exactly if it is a holding phase. -/
theorem held_eq_some {p : Phase} : p.held = some () ↔ p.holds = true := by
  unfold Phase.held
  split_ifs with h <;> simp [h]

/-- Only a thread with the mutex changes the value and broadcasts. -/
theorem Move.frame {m m' : Monitor V} {p p' : Phase} (h : Move cond m p m' p')
    (hp : p.holds = false) : m'.value = m.value ∧ m'.casts = m.casts := by
  cases h <;> first | exact ⟨rfl, rfl⟩ | cases hp

section Runs

variable {ι : Type} [DecidableEq ι] {c : Threads ι (Monitor V) Phase}

/-- The mutex is held by one thread at most, who is calm is right, and a sleeper has been signalled
since the condition came to hold, or is about to be. -/
structure Sound (cond : V → Prop) (c : Threads ι (Monitor V) Phase) : Prop where
  owned : Threads.Owned mutex Phase.held c
  calm : ∀ i, c.own i = .calm → ¬ cond c.shared.value
  asleep : ∀ i n, c.own i = .asleep n → n ≤ c.shared.casts ∧
    (n = c.shared.casts → cond c.shared.value → ∃ j, c.own j = .owing)

omit [DecidableEq ι] in
/-- No two threads have the mutex. -/
theorem Sound.exclusive (h : Sound cond c) {i j : ι} (hi : (c.own i).holds = true)
    (hj : (c.own j).holds = true) : i = j :=
  h.owned.once i j () (held_eq_some.mpr hi) (held_eq_some.mpr hj)

omit [DecidableEq ι] in
/-- The mutex is held exactly if some thread has it. -/
theorem Sound.locked_iff (h : Sound cond c) :
    c.shared.locked = true ↔ ∃ i, (c.own i).holds = true := by
  refine (h.owned.marked ()).trans (exists_congr fun i => held_eq_some)

omit [DecidableEq ι] in
/-- If the condition holds and no broadcast is owed, every sleeper has been signalled. -/
theorem Sound.signalled (h : Sound cond c) (hcond : cond c.shared.value)
    (hpaid : ∀ j, c.own j ≠ .owing) {i : ι} {n : Nat} (hi : c.own i = .asleep n) :
    n < c.shared.casts := by
  obtain ⟨hle, howing⟩ := h.asleep i n hi
  refine Nat.lt_of_le_of_ne hle fun heq => ?_
  obtain ⟨j, hj⟩ := howing heq hcond
  exact hpaid j hj

/-- A move keeps the mutex in order. -/
theorem Sound.move_owned (h : Sound cond c) {i : ι} {m : Monitor V} {p : Phase}
    (hmove : Move cond c.shared (c.own i) m p) :
    Threads.Owned mutex Phase.held (c.after i m p) := by
  generalize hown : c.own i = before at hmove
  have hheld : (c.own i).held = before.held := by rw [hown]
  cases hmove with
  | enter hfree => exact h.owned.take hheld hfree rfl (mutex_eq_update _ rfl)
  | leave | sleep => exact h.owned.give hheld rfl (mutex_eq_update _ rfl)
  | stay | look | forget | hush | raise | cast | wake => exact h.owned.keep hheld.symm rfl

/-- Whoever owes a broadcast after a move of another thread owed it before. -/
theorem after_owing {i j : ι} {m : Monitor V} {p : Phase} (hj : c.own j = .owing)
    (hi : c.own i = .owing → p = .owing) : (c.after i m p).own j = .owing := by
  by_cases hne : j = i
  · subst hne
    rw [c.after_own_self, hi hj]
  · rw [c.after_own_of_ne hne, hj]

/-- A sleeper, after a move of any thread. -/
theorem move_asleep {i : ι} {m : Monitor V} {p : Phase}
    (hmove : Move cond c.shared (c.own i) m p) {n : Nat} (hle : n ≤ c.shared.casts)
    (howing : n = c.shared.casts → cond c.shared.value → ∃ j, c.own j = .owing) :
    n ≤ m.casts ∧ (n = m.casts → cond m.value → ∃ j, (c.after i m p).own j = .owing) := by
  generalize hown : c.own i = before at hmove
  cases hmove with
  | hush hnot => exact ⟨hle, fun _ hcond => absurd hcond hnot⟩
  | raise v => exact ⟨hle, fun _ _ => ⟨i, c.after_own_self i _ _⟩⟩
  | cast =>
      refine ⟨Nat.le_succ_of_le hle, fun heq => ?_⟩
      dsimp only at heq
      omega
  | stay | enter | look | forget | leave | sleep | wake =>
      refine ⟨hle, fun heq hcond => ?_⟩
      obtain ⟨j, hj⟩ := howing heq hcond
      refine ⟨j, after_owing hj fun hi => ?_⟩
      rw [hown] at hi
      first | exact hi | cases hi

/-- Every move keeps the monitor sound. -/
theorem Sound.move (h : Sound cond c) {i : ι} {m : Monitor V} {p : Phase}
    (hmove : Move cond c.shared (c.own i) m p) : Sound cond (c.after i m p) := by
  refine ⟨h.move_owned hmove, fun j hcalm => ?_, fun j n hasleep => ?_⟩
  · rw [c.after_shared]
    by_cases hne : j = i
    · subst hne
      rw [c.after_own_self] at hcalm
      subst hcalm
      generalize hown : c.own j = before at hmove
      cases hmove with
      | stay => exact h.calm j hown
      | look hnot => exact hnot
    · rw [c.after_own_of_ne hne] at hcalm
      have hout : (c.own i).holds = false := by
        by_contra hholds
        exact hne (h.exclusive (by rw [hcalm]; rfl) (by simpa using hholds))
      rw [(hmove.frame hout).1]
      exact h.calm j hcalm
  · rw [c.after_shared]
    by_cases hne : j = i
    · subst hne
      rw [c.after_own_self] at hasleep
      subst hasleep
      generalize hown : c.own j = before at hmove
      cases hmove with
      | stay =>
          obtain ⟨hle, howing⟩ := h.asleep j n hown
          exact move_asleep (hown ▸ Move.stay _ _) hle howing
      | sleep => exact ⟨Nat.le_refl _, fun _ hcond => absurd hcond (h.calm j hown)⟩
    · rw [c.after_own_of_ne hne] at hasleep
      obtain ⟨hle, howing⟩ := h.asleep j n hasleep
      exact move_asleep hmove hle howing

omit [DecidableEq ι] in
/-- Threads without the mutex around a free one. -/
theorem sound_start {v : V} {n : Nat} :
    Sound cond (⟨⟨false, n, v⟩, fun _ => .outside⟩ : Threads ι (Monitor V) Phase) where
  owned := ⟨fun _ => ⟨nofun, fun ⟨_, h⟩ => nomatch h⟩, fun _ _ _ h => nomatch h⟩
  calm _ h := nomatch h
  asleep _ _ h := nomatch h

end Runs

end Monitor
