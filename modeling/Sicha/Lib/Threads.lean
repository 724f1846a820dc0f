import Mathlib.Logic.Function.Basic

/-!
# Threads over a shared state

A number of threads share a state.  What a thread does to it happens in sections that exclude
each other; between its sections a thread works on a state of its own.  A run is a list of
sections in the order in which they were entered, so every interleaving is one.

Main results:

- Definition {lit}`Run`: the runs, each section known by its thread and an event.
- Theorem {lit}`Run.invariant`: the invariant rule, with the history.
- Theorem {lit}`Run.append`: a run goes on.
- Theorem {lit}`Run.map`: a run seen through a view of both states is a run of what is seen.
- Theorems {lit}`Owned.take`, {lit}`Owned.give` and {lit}`Owned.keep`: flags that mark which
  resources are held, each by one thread.
-/

/-- The shared state and the state of every thread. -/
structure Threads (ι S L : Type) where
  shared : S
  own : ι → L

namespace Threads

variable {ι S L E : Type} [DecidableEq ι]

/-- The threads after a section of one of them. -/
def after (c : Threads ι S L) (i : ι) (s : S) (l : L) : Threads ι S L where
  shared := s
  own := Function.update c.own i l

/-- Behind a step the shared state is what the step made. -/
@[simp]
theorem after_shared (c : Threads ι S L) (i : ι) (s : S) (l : L) : (c.after i s l).shared = s :=
  rfl

/-- Behind its step a thread is in the state that the step made. -/
@[simp]
theorem after_own_self (c : Threads ι S L) (i : ι) (s : S) (l : L) : (c.after i s l).own i = l := by
  simp [after]

/-- A step leaves the other threads as they are. -/
theorem after_own_of_ne (c : Threads ι S L) {i j : ι} (h : j ≠ i) (s : S) (l : L) :
    (c.after i s l).own j = c.own j := by
  simp [after, h]

/-- The runs from a start.  {lit}`enter` says which sections there are: from a shared state and
the state of a thread, with an event, to a shared state and a state of the thread. -/
inductive Run (enter : S → L → E → S → L → Prop) (start : Threads ι S L) :
    List (ι × E) → Threads ι S L → Prop
  | nil : Run enter start [] start
  | snoc {past : List (ι × E)} {c : Threads ι S L} {i : ι} {e : E} {s : S} {l : L} :
      Run enter start past c → enter c.shared (c.own i) e s l →
        Run enter start (past ++ [(i, e)]) (c.after i s l)

variable {enter : S → L → E → S → L → Prop} {start c c' : Threads ι S L}
  {past more : List (ι × E)}

/-- What holds at the start and is kept by every section holds after every run. -/
theorem Run.invariant {P : List (ι × E) → Threads ι S L → Prop} (hstart : P [] start)
    (hsection : ∀ past c i e s l, P past c → enter c.shared (c.own i) e s l →
      P (past ++ [(i, e)]) (c.after i s l)) (h : Run enter start past c) : P past c := by
  induction h with
  | nil => exact hstart
  | snoc _ henter ih => exact hsection _ _ _ _ _ _ ih henter

/-- A run goes on from where another ended. -/
theorem Run.append (h : Run enter start past c) (hmore : Run enter c more c') :
    Run enter start (past ++ more) c' := by
  induction hmore with
  | nil =>
      rw [List.append_nil]
      exact h
  | snoc _ henter ih =>
      rw [← List.append_assoc]
      exact .snoc ih henter

/-- A thread in a known state enters a section. -/
theorem Run.next (h : Run enter start past c) (i : ι) {l l' : L} {e : E} {s : S}
    (hown : c.own i = l) (henter : enter c.shared l e s l') :
    Run enter start (past ++ [(i, e)]) (c.after i s l') := by
  subst hown
  exact .snoc h henter

/-! ## Views -/

/-- Threads, of which only a part is seen. -/
def map {S' L' : Type} (f : S → S') (g : L → L') (c : Threads ι S L) : Threads ι S' L' where
  shared := f c.shared
  own i := g (c.own i)

/-- A step can be seen through maps of both states. -/
theorem map_after {S' L' : Type} (f : S → S') (g : L → L') (c : Threads ι S L) (i : ι) (s : S)
    (l : L) : (c.after i s l).map f g = (c.map f g).after i (f s) (g l) := by
  unfold map after
  congr 1
  funext j
  by_cases hj : j = i
  · subst hj
    simp
  · simp [hj]

/-- If every section is seen as a section, a run is seen as a run. -/
theorem Run.map {S' L' : Type} {enter' : S' → L' → E → S' → L' → Prop} (f : S → S') (g : L → L')
    (hsection : ∀ s l e s' l', enter s l e s' l' → enter' (f s) (g l) e (f s') (g l'))
    (h : Run enter start past c) : Run enter' (start.map f g) past (c.map f g) := by
  induction h with
  | nil => exact .nil
  | snoc _ henter ih =>
      rw [map_after]
      exact .snoc ih (hsection _ _ _ _ _ henter)

/-! ## Resources -/

/-- Every thread holds at most one resource, no two hold the same one, and a flag marks the
resources that are held. -/
structure Owned {R : Type} (flag : S → R → Bool) (held : L → Option R) (c : Threads ι S L) :
    Prop where
  marked : ∀ r, flag c.shared r = true ↔ ∃ i, held (c.own i) = some r
  once : ∀ i j r, held (c.own i) = some r → held (c.own j) = some r → i = j

variable {R : Type} [DecidableEq R] {flag : S → R → Bool} {held : L → Option R} {i : ι} {r : R}
  {s : S} {l : L}

omit [DecidableEq R] in
/-- A section that leaves the flags and what its thread holds. -/
theorem Owned.keep (h : Owned flag held c) (hl : held l = held (c.own i))
    (hs : flag s = flag c.shared) : Owned flag held (c.after i s l) := by
  have hown : ∀ j, held ((c.after i s l).own j) = held (c.own j) := by
    intro j
    by_cases hj : j = i
    · subst hj
      rw [after_own_self, hl]
    · rw [after_own_of_ne c hj]
  refine ⟨fun r => ?_, fun j k r hj hk => ?_⟩
  · simp only [after_shared, hs, hown]
    exact h.marked r
  · rw [hown] at hj hk
    exact h.once j k r hj hk

/-- A thread takes a free resource. -/
theorem Owned.take (h : Owned flag held c) (hnone : held (c.own i) = none)
    (hfree : flag c.shared r = false) (hl : held l = some r)
    (hs : flag s = Function.update (flag c.shared) r true) : Owned flag held (c.after i s l) := by
  have hother : ∀ j, held (c.own j) ≠ some r := by
    intro j hj
    have hmarked := (h.marked r).mpr ⟨j, hj⟩
    rw [hfree] at hmarked
    cases hmarked
  have hown : ∀ j r', held ((c.after i s l).own j) = some r' ↔
      (j = i ∧ r' = r) ∨ held (c.own j) = some r' := by
    intro j r'
    by_cases hj : j = i
    · subst hj
      rw [after_own_self, hl, hnone]
      simp [eq_comm]
    · simp [after_own_of_ne c hj, hj]
  refine ⟨fun r' => ?_, fun j k r' hj hk => ?_⟩
  · rw [after_shared, hs]
    by_cases hr : r' = r
    · subst hr
      simp only [Function.update_self, true_iff]
      exact ⟨i, (hown i r').mpr (.inl ⟨rfl, rfl⟩)⟩
    · simp only [Function.update_of_ne hr, hown, hr, and_false, false_or]
      exact h.marked r'
  · rcases (hown j r').mp hj with ⟨rfl, rfl⟩ | hjold
    · rcases (hown k r').mp hk with ⟨rfl, -⟩ | hkold
      · rfl
      · exact absurd hkold (hother k)
    · rcases (hown k r').mp hk with ⟨rfl, rfl⟩ | hkold
      · exact absurd hjold (hother j)
      · exact h.once j k r' hjold hkold

/-- A thread gives back what it holds. -/
theorem Owned.give (h : Owned flag held c) (hsome : held (c.own i) = some r)
    (hl : held l = none) (hs : flag s = Function.update (flag c.shared) r false) :
    Owned flag held (c.after i s l) := by
  have hown : ∀ j r', held ((c.after i s l).own j) = some r' ↔
      j ≠ i ∧ held (c.own j) = some r' := by
    intro j r'
    by_cases hj : j = i
    · subst hj
      rw [after_own_self, hl]
      simp
    · simp [after_own_of_ne c hj, hj]
  refine ⟨fun r' => ?_, fun j k r' hj hk => ?_⟩
  · simp only [after_shared, hs, hown]
    by_cases hr : r' = r
    · subst hr
      simp only [Function.update_self, Bool.false_eq_true, false_iff]
      rintro ⟨j, hne, hj⟩
      exact hne (h.once j i r' hj hsome)
    · rw [Function.update_of_ne hr, h.marked r']
      refine exists_congr fun j => ⟨fun hj => ⟨?_, hj⟩, And.right⟩
      rintro rfl
      rw [hsome] at hj
      exact hr (Option.some.inj hj).symm
  · exact h.once j k r' ((hown j r').mp hj).2 ((hown k r').mp hk).2

end Threads
