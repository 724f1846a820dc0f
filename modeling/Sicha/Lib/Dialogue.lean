import Mathlib.Logic.Basic

/-!
# Dialogues with a foreign party

A party that the program calls, and that calls the program back: it asks
questions one after the other, may look at each answer and at the shared state
before it goes on, and ends with a result.  The program's side is a handler for
the questions with a state of its own.

A {lit}`Dialogue` is a well-founded tree, so a party always ends; it is otherwise
unrestricted.

Main results:

- Theorems {lit}`run_invariant` and {lit}`run_moves`: what every answer, and every
  move of the party, preserves holds at the end.
- Theorems {lit}`run_stopping` and {lit}`run_stopping_turns`: the rule for a party that ends
  as soon as an answer tells it to.
- Theorem {lit}`run_sim`: two handlers that answer alike lead to the same end.
- Theorem {lit}`run_twin`: the same for two parties that ask alike.
-/

/-- A party's side of a conversation, over a shared state {lit}`σ`. -/
inductive Dialogue (σ Q A R : Type) where
  /-- The party ends with a result. -/
  | done (r : R) (s : σ)
  /-- The party has moved the shared state and asks; then it goes on. -/
  | ask (q : Q) (s : σ) (k : A → σ → Dialogue σ Q A R)

namespace Dialogue

variable {σ Q A R I J : Type}

/-- Hold the conversation: {lit}`h` answers, with the program's own state {lit}`I`. -/
def run (h : Q → I → σ → A × I × σ) : Dialogue σ Q A R → I → R × I × σ
  | .done r s, i => (r, i, s)
  | .ask q s k, i => run h (k (h q i s).1 (h q i s).2.2) (h q i s).2.1

/-- The questions the party asks, each with the two states it is asked in. -/
def turns (h : Q → I → σ → A × I × σ) : Dialogue σ Q A R → I → List (Q × I × σ)
  | .done _ _, _ => []
  | .ask q s k, i => (q, i, s) :: turns h (k (h q i s).1 (h q i s).2.2) (h q i s).2.1

/-- Every move the party makes on its own is in {lit}`Rel`, whatever it is answered. -/
def Moves (Rel : σ → σ → Prop) : Dialogue σ Q A R → σ → Prop
  | .done _ s', s => Rel s s'
  | .ask _ s' k, s => Rel s s' ∧ ∀ a s'', Moves Rel (k a s'') s''

/-- After an answer in {lit}`stop` the party asks nothing more and ends with
{lit}`r`. -/
def StopsWith (stop : A → Prop) (r : R) : Dialogue σ Q A R → Prop
  | .done _ _ => True
  | .ask _ _ k => ∀ a s, (stop a → ∃ s', k a s = .done r s') ∧ StopsWith stop r (k a s)

/-- Invariant rule.  {lit}`P` does not see the shared state, so only the answers
have to keep it. -/
theorem run_invariant {h : Q → I → σ → A × I × σ} {P : I → Prop}
    (hh : ∀ q i s, P i → P (h q i s).2.1) (d : Dialogue σ Q A R) {i : I} (hi : P i) :
    P (d.run h i).2.1 := by
  induction d generalizing i with
  | done r s => exact hi
  | ask q s k ih => exact ih _ _ (hh q i s hi)

/-- Invariant rule over both states: the party's moves and the answers keep
{lit}`P`. -/
theorem run_moves {h : Q → I → σ → A × I × σ} {Rel : σ → σ → Prop} {P : I → σ → Prop}
    (hmove : ∀ i s s', P i s → Rel s s' → P i s')
    (hh : ∀ q i s, P i s → P (h q i s).2.1 (h q i s).2.2) (d : Dialogue σ Q A R)
    {i : I} {s : σ} (hd : d.Moves Rel s) (hs : P i s) :
    P (d.run h i).2.1 (d.run h i).2.2 := by
  induction d generalizing i s with
  | done r s' => exact hmove _ _ _ hs hd
  | ask q s' k ih => exact ih _ _ (hd.2 _ _) (hh q i s' (hmove _ _ _ hs hd.1))

/-- The same at every question. -/
theorem turns_invariant {h : Q → I → σ → A × I × σ} {P : I → Prop}
    (hh : ∀ q i s, P i → P (h q i s).2.1) (d : Dialogue σ Q A R) {i : I} (hi : P i) :
    ∀ t ∈ d.turns h i, P t.2.1 := by
  induction d generalizing i with
  | done r s => simp [turns]
  | ask q s k ih =>
      intro t ht
      rcases List.mem_cons.mp ht with rfl | ht
      · exact hi
      · exact ih _ _ (hh q i s hi) t ht

/-- Invariant rule with the questions so far. -/
theorem run_turns {h : Q → I → σ → A × I × σ} {P : List (Q × I × σ) → I → Prop}
    (hh : ∀ past q i s, P past i → P (past ++ [(q, i, s)]) (h q i s).2.1)
    (d : Dialogue σ Q A R) {past : List (Q × I × σ)} {i : I} (hi : P past i) :
    P (past ++ d.turns h i) (d.run h i).2.1 := by
  induction d generalizing past i with
  | done r s =>
      rw [turns, List.append_nil]
      exact hi
  | ask q s k ih =>
      have hlater := ih (h q i s).1 (h q i s).2.2 (hh past q i s hi)
      rw [List.append_assoc, List.singleton_append] at hlater
      exact hlater

/-- Rule for a party that ends when told to, with the questions so far: {lit}`P` holds as
long as no answer stopped it, and {lit}`E` holds once one did. -/
theorem run_stopping_turns {h : Q → I → σ → A × I × σ} {stop : A → Prop} {r : R}
    {P E : List (Q × I × σ) → I → Prop}
    (hgo : ∀ past q i s, P past i → ¬ stop (h q i s).1 → P (past ++ [(q, i, s)]) (h q i s).2.1)
    (hstop : ∀ past q i s, P past i → stop (h q i s).1 → E (past ++ [(q, i, s)]) (h q i s).2.1)
    (d : Dialogue σ Q A R) (hd : d.StopsWith stop r) {past : List (Q × I × σ)} {i : I}
    (hi : P past i) :
    P (past ++ d.turns h i) (d.run h i).2.1 ∨
      ((d.run h i).1 = r ∧ E (past ++ d.turns h i) (d.run h i).2.1) := by
  induction d generalizing past i with
  | done r' s =>
      left
      simpa [turns, run] using hi
  | ask q s k ih =>
      rcases hd (h q i s).1 (h q i s).2.2 with ⟨hend, hrest⟩
      by_cases hs : stop (h q i s).1
      · obtain ⟨s', hk⟩ := hend hs
        right
        simp only [run, turns, hk]
        exact ⟨trivial, hstop past q i s hi hs⟩
      · have hlater := ih _ _ hrest (hgo past q i s hi hs)
        rw [List.append_assoc, List.singleton_append] at hlater
        exact hlater

/-- Rule for a party that ends when told to: {lit}`P` holds as long as no answer
stopped it, and {lit}`E` holds of the program's state once one did. -/
theorem run_stopping {h : Q → I → σ → A × I × σ} {stop : A → Prop} {r : R}
    {P E : I → Prop}
    (hgo : ∀ q i s, P i → ¬ stop (h q i s).1 → P (h q i s).2.1)
    (hstop : ∀ q i s, P i → stop (h q i s).1 → E (h q i s).2.1)
    (d : Dialogue σ Q A R) (hd : d.StopsWith stop r) {i : I} (hi : P i) :
    P (d.run h i).2.1 ∨ ((d.run h i).1 = r ∧ E (d.run h i).2.1) :=
  @run_stopping_turns _ _ _ _ _ h stop r (fun _ => P) (fun _ => E) (fun _ => hgo)
    (fun _ => hstop) d hd [] i hi

/-- Simulation rule: handlers that give the same answer and leave the same shared
state bring the party to the same end. -/
theorem run_sim {h : Q → I → σ → A × I × σ} {h' : Q → J → σ → A × J × σ}
    {Rel : I → J → Prop}
    (hh : ∀ q i j s, Rel i j → (h q i s).1 = (h' q j s).1 ∧
      (h q i s).2.2 = (h' q j s).2.2 ∧ Rel (h q i s).2.1 (h' q j s).2.1)
    (d : Dialogue σ Q A R) {i : I} {j : J} (hij : Rel i j) :
    (d.run h i).1 = (d.run h' j).1 ∧ (d.run h i).2.2 = (d.run h' j).2.2 ∧
      Rel (d.run h i).2.1 (d.run h' j).2.1 := by
  induction d generalizing i j with
  | done r s => exact ⟨rfl, rfl, hij⟩
  | ask q s k ih =>
      rcases hh q i j s hij with ⟨hans, hstate, hrel⟩
      simp only [run]
      rw [← hans, ← hstate]
      exact ih _ _ hrel

/-! ## Two parties -/

variable {τ : Type}

/-- Two parties that ask the same, and end alike, as long as they are answered alike and the
states they share with the program stay related. -/
def Twin (Rel : σ → τ → Prop) : Dialogue σ Q A R → Dialogue τ Q A R → Prop
  | .done r s, .done r' t => r = r' ∧ Rel s t
  | .ask q s k, .ask q' t k' =>
      q = q' ∧ Rel s t ∧ ∀ a s' t', Rel s' t' → Twin Rel (k a s') (k' a t')
  | _, _ => False

/-- A party asks as it does itself. -/
theorem twin_refl (d : Dialogue σ Q A R) : d.Twin Eq d := by
  induction d with
  | done r s => exact ⟨rfl, rfl⟩
  | ask q s k ih =>
      refine ⟨rfl, rfl, ?_⟩
      rintro a s' _ rfl
      exact ih a s'

/-- Rule for two parties in lockstep: handlers that answer alike bring them to the same end. -/
theorem run_twin {Rel : σ → τ → Prop} {h : Q → I → σ → A × I × σ} {h' : Q → J → τ → A × J × τ}
    {P : I → σ → J → τ → Prop} (hrel : ∀ {i s j t}, P i s j t → Rel s t)
    (hmove : ∀ {i s j t s' t'}, P i s j t → Rel s' t' → P i s' j t')
    (hans : ∀ q {i s j t}, P i s j t → (h q i s).1 = (h' q j t).1 ∧
      P (h q i s).2.1 (h q i s).2.2 (h' q j t).2.1 (h' q j t).2.2)
    (d : Dialogue σ Q A R) {d' : Dialogue τ Q A R} (hd : d.Twin Rel d') {i : I} {s : σ} {j : J}
    {t : τ} (hP : P i s j t) :
    (d.run h i).1 = (d'.run h' j).1 ∧
      P (d.run h i).2.1 (d.run h i).2.2 (d'.run h' j).2.1 (d'.run h' j).2.2 := by
  induction d generalizing d' i s j t with
  | done r s1 =>
      cases d' with
      | done r' t1 => exact ⟨hd.1, hmove hP hd.2⟩
      | ask q' t1 k' => exact hd.elim
  | ask q s1 k ih =>
      cases d' with
      | done r' t1 => exact hd.elim
      | ask q' t1 k' =>
          obtain ⟨rfl, hst, hrest⟩ := hd
          obtain ⟨hanswer, hnext⟩ := hans q (hmove hP hst)
          simp only [run]
          rw [← hanswer]
          exact ih _ _ (hrest _ _ _ (hrel hnext)) hnext

end Dialogue
