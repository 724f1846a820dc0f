import Sicha.Client.Override
import Sicha.Client.Wire

/-!
# The log of a call, turn by turn

The attempt loop logs what it does.  The log of a call is cut where its turns begin, so that
every action can be put down to the backend of its turn.

Main results:

- Definition {lit}`Call.turns`: the turns of a call, each with the place of its backend.
- Theorem {lit}`Call.acts_eq_turns`: together they are all that a call does.
- Theorem {lit}`Call.turn_request`: a request of a turn is for the backend of the turn.
-/

namespace Sicha

section Runs

variable [SizeT] {σ : Type}

namespace Call

variable (k : Call σ)

/-- The actions of the turn that starts here. -/
def turnActs (s : LoopState k.c) : List Act :=
  (reached (k.step s)).world.acts.drop s.world.acts.length

/-- The turns of a call: the place of the backend in the chain, and the actions. -/
def turns (ordinal : UInt32) (w : World σ) : List (Nat × List Act) :=
  match k.enter ordinal w with
  | .inl _ => []
  | .inr s => (k.attemptLoop.trail s).map fun s => (s.i.val, k.turnActs s)

/-- A turn adds its actions to the log. -/
theorem step_acts (s : LoopState k.c) :
    (reached (k.step s)).world.acts = s.world.acts ++ k.turnActs s := by
  have hlater := (k.step_turn s).later.log.map Entry.act
  exact (List.prefix_iff_eq_append.mp hlater).symm

/-- What a call does, it does in its turns. -/
theorem acts_eq_turns (ordinal : UInt32) (w : World σ) :
    (k.run ordinal w).world.acts = w.acts ++ (k.turns ordinal w).flatMap Prod.snd := by
  have hsame : ∀ w' : World σ, w'.log = w.log → w'.acts = w.acts := by
    intro w' hlog
    unfold World.acts
    rw [hlog]
  rw [run_eq]
  unfold turns
  rcases k.enter_ends ordinal w with ⟨out, he, hend⟩ | ⟨env, hstart⟩
  · rw [he, List.flatMap_nil, List.append_nil]
    exact hsame (k.close out).world hend.log
  · rw [hstart, List.flatMap_map]
    exact @Loop.trail_of_step _ _ k.attemptLoop
      (fun past s => s.world.acts = w.acts ++ past.flatMap k.turnActs)
      (fun past f => f.world.acts = w.acts ++ past.flatMap k.turnActs)
      (fun past s hs => by
        have hacts := k.step_acts s
        rw [hs, List.append_assoc, ← List.flatMap_singleton k.turnActs s,
          ← List.flatMap_append] at hacts
        change Sum.elim _ _ (k.step s)
        cases hout : k.step s with
        | inl s' => rw [hout] at hacts; exact hacts
        | inr f => rw [hout] at hacts; exact hacts)
      _ (by rw [List.flatMap_nil, List.append_nil]; rfl)

/-- A request of a turn is the attempt on its backend, or the abort assist of it. -/
theorem turn_request {s : LoopState k.c} {rq : HttpRequest} {sink cancel : Bool}
    (h : .perform rq sink cancel ∈ k.turnActs s) :
    (sink = true ∧ ∃ s1, k.prepare (k.polled s) = (.ok rq, s1)) ∨
      (sink = false ∧ ∃ url, (k.backend s).urlAbort = some url ∧
        rq = assistRequest (k.backend s) url) := by
  obtain ⟨new, htrace, hnew⟩ := k.turn_performs (k.step_turn s)
  have hvisible : new = (k.turnActs s).filter Act.visible := by
    unfold World.trace at htrace
    rw [k.step_acts s, List.filter_append] at htrace
    exact (List.append_cancel_left htrace).symm
  have hmem : .perform rq sink cancel ∈ new := by
    rw [hvisible]
    exact List.mem_filter.mpr ⟨h, rfl⟩
  rcases hnew _ hmem rfl with ⟨rq', s1, hprep, heq⟩ | hassist
  · unfold handing at heq
    cases heq
    exact .inl ⟨rfl, s1, hprep⟩
  · unfold assisted at hassist
    split at hassist
    · cases hassist
    · rename_i url hurl
      cases List.mem_singleton.mp hassist
      exact .inr ⟨rfl, url, hurl, rfl⟩

end Call

end Runs

end Sicha
