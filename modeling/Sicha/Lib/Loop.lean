import Mathlib.Data.List.Forall2

/-!
# Loops with a measure

A loop whose body either goes round again from a new state or leaves with a
result, and whose measure drops with every round.  Such a loop always leaves, so
its run is a total function.

Main results:

- Theorems {lit}`run_of_invariant` and {lit}`run_of_step`: the invariant rule.
- Theorem {lit}`trail_of_step`: the invariant rule with the states passed so far.
- Theorem {lit}`run_reachable`: a run leaves from a reachable state.
- Theorems {lit}`trail_lockstep_until` and {lit}`run_lockstep`: two loops whose steps agree, up
  to some state or throughout.
- Theorem {lit}`trail_twin`: two loops whose steps keep their states related.
-/

/-- A loop body with a measure that every further round lowers. -/
structure Loop (S F : Type) where
  step : S → S ⊕ F
  measure : S → Nat
  lowers : ∀ {s s'}, step s = .inl s' → measure s' < measure s

namespace Loop

variable {S F : Type}

/-- At most {lit}`n` rounds, {lit}`n` being more than the measure. -/
def runFor (L : Loop S F) (n : Nat) (s : S) (h : L.measure s < n) : F :=
  match n, h with
  | 0, h => absurd h (Nat.not_lt_zero _)
  | n + 1, h =>
      match hs : L.step s with
      | .inl s' =>
          L.runFor n s' (Nat.lt_of_lt_of_le (L.lowers hs) (Nat.le_of_lt_succ h))
      | .inr f => f

/-- Run the loop until it leaves. -/
def run (L : Loop S F) (s : S) : F :=
  L.runFor (L.measure s + 1) s (Nat.lt_succ_self _)

/-- The states at the heads of the rounds, at most {lit}`n` of them. -/
def trailFor (L : Loop S F) (n : Nat) (s : S) (h : L.measure s < n) : List S :=
  match n, h with
  | 0, h => absurd h (Nat.not_lt_zero _)
  | n + 1, h =>
      match hs : L.step s with
      | .inl s' =>
          s :: L.trailFor n s' (Nat.lt_of_lt_of_le (L.lowers hs) (Nat.le_of_lt_succ h))
      | .inr _ => [s]

/-- The states a run passes, in order. -/
def trail (L : Loop S F) (s : S) : List S :=
  L.trailFor (L.measure s + 1) s (Nat.lt_succ_self _)

/-- The states a loop passes through. -/
inductive Reachable (L : Loop S F) (start : S) : S → Prop
  | start : Reachable L start start
  | round {s s' : S} : Reachable L start s → L.step s = .inl s' → Reachable L start s'

/-- What every round keeps and every exit turns into the result holds of the result, whatever the
fuel. -/
theorem runFor_of_invariant {L : Loop S F} {Inv : S → Prop} {Post : F → Prop}
    (hround : ∀ s s', Inv s → L.step s = .inl s' → Inv s')
    (hleave : ∀ s f, Inv s → L.step s = .inr f → Post f) (n : Nat) (s : S)
    (hn : L.measure s < n) (hs : Inv s) : Post (L.runFor n s hn) := by
  induction n generalizing s with
  | zero => exact absurd hn (Nat.not_lt_zero _)
  | succ n ih =>
      unfold runFor
      split
      · rename_i s' hstep
        exact ih s' _ (hround s s' hs hstep)
      · rename_i f hstep
        exact hleave s f hs hstep

/-- Invariant rule: what every round preserves and every exit turns into
{lit}`Post` gives {lit}`Post` of the whole run. -/
theorem run_of_invariant {L : Loop S F} {Inv : S → Prop} {Post : F → Prop}
    (hround : ∀ s s', Inv s → L.step s = .inl s' → Inv s')
    (hleave : ∀ s f, Inv s → L.step s = .inr f → Post f) {s : S} (hs : Inv s) :
    Post (L.run s) :=
  runFor_of_invariant hround hleave _ s _ hs

/-- Invariant rule in one premise: a turn from a good state goes round to a good state or
leaves with {lit}`Post`. -/
theorem run_of_step {L : Loop S F} {Inv : S → Prop} {Post : F → Prop}
    (hstep : ∀ s, Inv s → Sum.elim Inv Post (L.step s)) {s : S} (hs : Inv s) :
    Post (L.run s) := by
  refine run_of_invariant ?_ ?_ hs
  · intro s s' hs hround
    have hgood := hstep s hs
    rw [hround] at hgood
    exact hgood
  · intro s f hs hleave
    have hgood := hstep s hs
    rw [hleave] at hgood
    exact hgood

/-- The same with the states that have been passed, whatever the fuel. -/
theorem trailFor_of_step {L : Loop S F} {Inv : List S → S → Prop} {Post : List S → F → Prop}
    (hstep : ∀ past s, Inv past s →
      Sum.elim (Inv (past ++ [s])) (Post (past ++ [s])) (L.step s)) (n : Nat) (past : List S)
    (s : S) (hn : L.measure s < n) (hs : Inv past s) :
    Post (past ++ L.trailFor n s hn) (L.runFor n s hn) := by
  induction n generalizing past s with
  | zero => exact absurd hn (Nat.not_lt_zero _)
  | succ n ih =>
      have hgood := hstep past s hs
      unfold trailFor runFor
      split
      · rename_i s' hround
        rw [hround] at hgood
        have hrest := ih (past ++ [s]) s' (Nat.lt_of_lt_of_le (L.lowers hround)
          (Nat.le_of_lt_succ hn)) hgood
        rwa [List.append_assoc, List.singleton_append] at hrest
      · rename_i f hround
        rw [hround] at hgood
        exact hgood

/-- Invariant rule with a history: the invariant may speak of the states the run has passed
so far, the postcondition of all of them. -/
theorem trail_of_step {L : Loop S F} {Inv : List S → S → Prop} {Post : List S → F → Prop}
    (hstep : ∀ past s, Inv past s →
      Sum.elim (Inv (past ++ [s])) (Post (past ++ [s])) (L.step s)) {s : S} (hs : Inv [] s) :
    Post (L.trail s) (L.run s) :=
  trailFor_of_step hstep (L.measure s + 1) [] s (Nat.lt_succ_self _) hs

/-- A run leaves from some reachable state. -/
theorem run_reachable (L : Loop S F) (start : S) :
    ∃ s, L.Reachable start s ∧ L.step s = .inr (L.run start) := by
  refine @run_of_invariant _ _ L (L.Reachable start)
    (fun f => ∃ s, L.Reachable start s ∧ L.step s = .inr f) ?_ ?_ _ .start
  · intro s s' hs hstep
    exact .round hs hstep
  · intro s f hs hstep
    exact ⟨s, hs, hstep⟩

/-- A round of the loop takes one unit of fuel. -/
theorem runFor_of_round {L : Loop S F} {s s' : S} (h : L.step s = .inl s') (n : Nat)
    (hn : L.measure s < n + 1) (hn' : L.measure s' < n) :
    L.runFor (n + 1) s hn = L.runFor n s' hn' := by
  generalize hout : L.runFor n s' hn' = out
  unfold runFor
  split
  · rename_i s'' hs
    rw [h] at hs
    cases hs
    exact hout
  · rename_i f hs
    rw [h] at hs
    cases hs

/-- How far the fuel goes beyond the measure does not matter. -/
theorem runFor_eq (L : Loop S F) {n m : Nat} {s : S} (hn : L.measure s < n)
    (hm : L.measure s < m) : L.runFor n s hn = L.runFor m s hm := by
  induction n generalizing m s with
  | zero => exact absurd hn (Nat.not_lt_zero _)
  | succ n ih =>
      cases m with
      | zero => exact absurd hm (Nat.not_lt_zero _)
      | succ m =>
          unfold runFor
          split
          · exact ih _ _
          · rfl

/-- A loop that goes round goes on from the next state. -/
theorem run_of_round {L : Loop S F} {s s' : S} (h : L.step s = .inl s') :
    L.run s = L.run s' := by
  unfold run
  rw [runFor_of_round h _ _ (L.lowers h)]
  exact L.runFor_eq _ _

/-- A loop that is left is over. -/
theorem run_of_leave {L : Loop S F} {s : S} {f : F} (h : L.step s = .inr f) : L.run s = f := by
  unfold run runFor
  split
  · rename_i s' hs
    rw [h] at hs
    cases hs
  · rename_i f' hs
    rw [h] at hs
    cases hs
    rfl

/-- A round of the loop puts its state in front of the trail. -/
theorem trailFor_of_round {L : Loop S F} {s s' : S} (h : L.step s = .inl s') (n : Nat)
    (hn : L.measure s < n + 1) (hn' : L.measure s' < n) :
    L.trailFor (n + 1) s hn = s :: L.trailFor n s' hn' := by
  generalize hout : L.trailFor n s' hn' = out
  unfold trailFor
  split
  · rename_i s'' hs
    rw [h] at hs
    cases hs
    rw [← hout]
  · rename_i f hs
    rw [h] at hs
    cases hs

/-- The trail does not depend on the fuel. -/
theorem trailFor_eq (L : Loop S F) {n m : Nat} {s : S} (hn : L.measure s < n)
    (hm : L.measure s < m) : L.trailFor n s hn = L.trailFor m s hm := by
  induction n generalizing m s with
  | zero => exact absurd hn (Nat.not_lt_zero _)
  | succ n ih =>
      cases m with
      | zero => exact absurd hm (Nat.not_lt_zero _)
      | succ m =>
          unfold trailFor
          split
          · rw [ih]
          · rfl

/-- A loop that goes round has its state in front of the rest of the trail. -/
theorem trail_of_round {L : Loop S F} {s s' : S} (h : L.step s = .inl s') :
    L.trail s = s :: L.trail s' := by
  unfold trail
  rw [trailFor_of_round h _ _ (L.lowers h)]
  exact congrArg _ (L.trailFor_eq _ _)

/-- A loop that is left has only its state on the trail. -/
theorem trail_of_leave {L : Loop S F} {s : S} {f : F} (h : L.step s = .inr f) :
    L.trail s = [s] := by
  unfold trail trailFor
  split
  · rename_i s' hs
    rw [h] at hs
    cases hs
  · rfl

/-- A trail holds reachable states only. -/
theorem reachable_of_mem_trail {L : Loop S F} {start s : S} (hs : s ∈ L.trail start) :
    L.Reachable start s := by
  have hall := @trail_of_step _ _ L
    (fun past s => (∀ x ∈ past, L.Reachable start x) ∧ L.Reachable start s)
    (fun past _ => ∀ x ∈ past, L.Reachable start x) ?_ start
    ⟨fun x hx => absurd hx List.not_mem_nil, .start⟩
  · exact hall s hs
  · intro past s' ⟨hpast, hs'⟩
    have hmore : ∀ x ∈ past ++ [s'], L.Reachable start x := by
      intro x hx
      rcases List.mem_append.mp hx with hx | hx
      · exact hpast x hx
      · exact List.mem_singleton.mp hx ▸ hs'
    cases hstep : L.step s' with
    | inl next => exact ⟨hmore, .round hs' hstep⟩
    | inr f => exact hmore

/-! ## Two loops in lockstep -/

variable {T G : Type}

/-- Two loops pass the same states up to the first one where their steps differ. -/
theorem trail_lockstep_until {L : Loop S F} {M : Loop T G} (f : S → T) (g : F → G)
    {pre post : List S} {start s : S} (htrail : L.trail start = pre ++ s :: post)
    (hstep : ∀ x ∈ pre, M.step (f x) = (L.step x).map f g) :
    ∃ post', M.trail (f start) = pre.map f ++ f s :: post' := by
  have hhead : ∀ (N : Loop T G) t, ∃ rest, N.trail t = t :: rest := by
    intro N t
    cases ht : N.step t with
    | inl t' => exact ⟨_, trail_of_round ht⟩
    | inr out => exact ⟨[], trail_of_leave ht⟩
  induction pre generalizing start with
  | nil =>
      have hs : start = s := by
        cases hstart : L.step start with
        | inl next =>
            rw [trail_of_round hstart] at htrail
            exact (List.cons.inj htrail).1
        | inr out =>
            rw [trail_of_leave hstart] at htrail
            exact (List.cons.inj htrail).1
      rw [hs]
      exact hhead M (f s)
  | cons x pre ih =>
      cases hstart : L.step start with
      | inl next =>
          rw [trail_of_round hstart] at htrail
          obtain ⟨rfl, hrest⟩ := List.cons.inj htrail
          have hround := hstep start List.mem_cons_self
          rw [hstart] at hround
          obtain ⟨post', hpost⟩ := ih hrest fun y hy => hstep y (List.mem_cons_of_mem _ hy)
          exact ⟨post', by rw [trail_of_round hround, hpost]; rfl⟩
      | inr out =>
          rw [trail_of_leave hstart] at htrail
          have hnone := (List.cons.inj htrail).2
          simp at hnone

/-- Two loops whose steps agree in every state the first one passes end alike. -/
theorem run_lockstep {L : Loop S F} {M : Loop T G} (f : S → T) (g : F → G) {start : S}
    (hstep : ∀ s ∈ L.trail start, M.step (f s) = (L.step s).map f g) :
    M.trail (f start) = (L.trail start).map f ∧ M.run (f start) = g (L.run start) := by
  generalize htrail : L.trail start = trail at hstep
  induction trail generalizing start with
  | nil =>
      cases hstart : L.step start with
      | inl next =>
          rw [trail_of_round hstart] at htrail
          cases htrail
      | inr out =>
          rw [trail_of_leave hstart] at htrail
          cases htrail
  | cons s trail ih =>
      cases hstart : L.step start with
      | inl next =>
          rw [trail_of_round hstart] at htrail
          obtain ⟨rfl, hrest⟩ := List.cons.inj htrail
          have hround := hstep start List.mem_cons_self
          rw [hstart] at hround
          obtain ⟨hlater, hend⟩ := ih hrest fun y hy => hstep y (List.mem_cons_of_mem _ hy)
          rw [trail_of_round hround, run_of_round hround, run_of_round hstart]
          exact ⟨congrArg _ hlater, hend⟩
      | inr out =>
          rw [trail_of_leave hstart] at htrail
          obtain ⟨rfl, rfl⟩ := List.cons.inj htrail
          have hleave := hstep start List.mem_cons_self
          rw [hstart] at hleave
          rw [trail_of_leave hleave, run_of_leave hleave, run_of_leave hstart]
          exact ⟨rfl, rfl⟩

/-- Two loops whose steps keep their states related pass related states and end alike. -/
theorem trail_twin {L : Loop S F} {M : Loop T G} {Rel : S → T → Prop} {Post : F → G → Prop}
    (hstep : ∀ s t, Rel s t → Sum.LiftRel Rel Post (L.step s) (M.step t)) {s : S} {t : T}
    (hst : Rel s t) :
    List.Forall₂ Rel (L.trail s) (M.trail t) ∧ Post (L.run s) (M.run t) := by
  induction hn : L.measure s using Nat.strongRecOn generalizing s t with
  | ind n ih =>
      subst hn
      have hround := hstep s t hst
      cases hs : L.step s with
      | inl s' =>
          rw [hs] at hround
          cases ht : M.step t with
          | inl t' =>
              rw [ht] at hround
              cases hround with
              | inl hnext =>
                  rw [run_of_round hs, run_of_round ht, trail_of_round hs, trail_of_round ht]
                  obtain ⟨htrail, hpost⟩ := ih _ (L.lowers hs) hnext rfl
                  exact ⟨.cons hst htrail, hpost⟩
          | inr g =>
              rw [ht] at hround
              cases hround
      | inr f =>
          rw [hs] at hround
          cases ht : M.step t with
          | inl t' =>
              rw [ht] at hround
              cases hround
          | inr g =>
              rw [ht] at hround
              cases hround with
              | inr hpost =>
                  rw [run_of_leave hs, run_of_leave ht, trail_of_leave hs, trail_of_leave ht]
                  exact ⟨.cons hst .nil, hpost⟩

/-- They end alike. -/
theorem run_twin {L : Loop S F} {M : Loop T G} {Rel : S → T → Prop} {Post : F → G → Prop}
    (hstep : ∀ s t, Rel s t → Sum.LiftRel Rel Post (L.step s) (M.step t)) {s : S} {t : T}
    (hst : Rel s t) : Post (L.run s) (M.run t) :=
  (trail_twin hstep hst).2

/-- A run passes through its reachable states: it ends as a run from any of them. -/
theorem Reachable.run_eq {L : Loop S F} {start s : S} (hs : L.Reachable start s) :
    L.run start = L.run s := by
  induction hs with
  | start => rfl
  | round _ hstep ih => rw [ih, run_of_round hstep]

/-- An invariant holds in every reachable state. -/
theorem Reachable.invariant {L : Loop S F} {Inv : S → Prop}
    (hround : ∀ s s', Inv s → L.step s = .inl s' → Inv s') {start s : S}
    (hs : L.Reachable start s) (hstart : Inv start) : Inv s := by
  induction hs with
  | start => exact hstart
  | round _ hstep ih => exact hround _ _ ih hstep

end Loop
