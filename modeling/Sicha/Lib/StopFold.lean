import Mathlib.Algebra.Ring.Int.Defs
import Mathlib.Data.List.Basic

/-!
# Folds that stop

A consumer takes elements one at a time and may refuse to go on: it answers a
code, and any code other than zero ends the fold.  Incremental parsers, sinks
and visitors have this shape.

Main results:

- Theorem {lit}`run_append`: cutting the input into pieces changes nothing.
- Theorem {lit}`run_spec`: the invariant rule, with one postcondition for a
  completed fold and one for a stopped fold.
- Theorem {lit}`run_sim`: the simulation rule for two consumers.
-/

namespace StopFold

variable {S T A R : Type} [Zero R] [DecidableEq R]

/-- Feed a list to a consumer until it answers a nonzero code. -/
def run (step : A → S → R × S) : List A → S → R × S
  | [], s => (0, s)
  | a :: as, s =>
      if (step a s).1 = 0 then run step as (step a s).2 else step a s

/-- Nothing is done with an empty list. -/
@[simp]
theorem run_nil (step : A → S → R × S) (s : S) : run step [] s = (0, s) :=
  rfl

/-- The rest is done only if the first one went well. -/
theorem run_cons (step : A → S → R × S) (a : A) (as : List A) (s : S) :
    run step (a :: as) s =
      if (step a s).1 = 0 then run step as (step a s).2 else step a s :=
  rfl

/-- The run over one element is its step. -/
@[simp]
theorem run_singleton (step : A → S → R × S) (a : A) (s : S) :
    run step [a] s = step a s := by
  rw [run_cons]
  split_ifs with hcode
  · exact Prod.ext hcode.symm rfl
  · rfl

/-- A fold over a concatenation is the fold over its first part, continued with the
second part when the first did not stop. -/
theorem run_append (step : A → S → R × S) (as bs : List A) (s : S) :
    run step (as ++ bs) s =
      if (run step as s).1 = 0 then run step bs (run step as s).2 else run step as s := by
  induction as generalizing s with
  | nil => simp
  | cons a as ih =>
      simp only [List.cons_append, run_cons]
      split_ifs with hcode hrest
      · rw [ih, if_pos hrest]
      · rw [ih, if_neg hrest]
      · rfl

/-- Invariant rule.  {lit}`P` holds between elements; {lit}`Q` holds where the
consumer stops. -/
theorem run_spec {step : A → S → R × S} {P : S → Prop} {Q : R → S → Prop}
    (hstep : ∀ a s, P s → ((step a s).1 = 0 → P (step a s).2) ∧
      ((step a s).1 ≠ 0 → Q (step a s).1 (step a s).2))
    (as : List A) {s : S} (hs : P s) :
    ((run step as s).1 = 0 → P (run step as s).2) ∧
      ((run step as s).1 ≠ 0 → Q (run step as s).1 (run step as s).2) := by
  induction as generalizing s with
  | nil => simpa using hs
  | cons a as ih =>
      rw [run_cons]
      split_ifs with hcode
      · exact ih ((hstep a s hs).1 hcode)
      · exact hstep a s hs

/-- Simulation rule: consumers that answer alike from related states answer alike. -/
theorem run_sim {step : A → S → R × S} {step' : A → T → R × T} {Rel : S → T → Prop}
    (hstep : ∀ a s t, Rel s t → (step a s).1 = (step' a t).1 ∧
      Rel (step a s).2 (step' a t).2)
    (as : List A) {s : S} {t : T} (hst : Rel s t) :
    (run step as s).1 = (run step' as t).1 ∧ Rel (run step as s).2 (run step' as t).2 := by
  induction as generalizing s t with
  | nil => exact ⟨rfl, hst⟩
  | cons a as ih =>
      have hone := hstep a s t hst
      rw [run_cons, run_cons, ← hone.1]
      split_ifs with hcode
      · exact ih hone.2
      · exact hone

end StopFold
