import Sicha.Lib.Relay

/-!
# Rely and guarantee

What a party assures as long as its partner keeps to what the party relies on: of the shared state
at each of its questions, and of the result and the state at its end.

Main results:

- Definition {lit}`Assures`.
- Theorem {lit}`Moves.assures`: what every move keeps is assured.
- Theorems {lit}`Assures.bind` and {lit}`Assures.relay`: parties put together.
- Theorems {lit}`Assures.run` and {lit}`Assures.turns`: a conversation with a partner that keeps to
  it.
-/

namespace Dialogue

variable {σ Q A R T I X Q' A' : Type} {rely : σ → σ → Prop} {ask : σ → Prop}
  {post : R → σ → Prop} {d : Dialogue σ Q A R}

/-- As long as every answer moves the shared state within {lit}`rely`, the party asks in states with
{lit}`ask` only, and ends as {lit}`post` says. -/
def Assures (rely : σ → σ → Prop) (ask : σ → Prop) (post : R → σ → Prop) :
    Dialogue σ Q A R → Prop
  | .done r s => post r s
  | .ask _ s k => ask s ∧ ∀ a s', rely s s' → Assures rely ask post (k a s')

/-- What is assured may be weakened. -/
theorem Assures.mono {ask' : σ → Prop} {post' : R → σ → Prop} (hd : d.Assures rely ask post)
    (hask : ∀ s, ask s → ask' s) (hpost : ∀ r s, post r s → post' r s) :
    d.Assures rely ask' post' := by
  induction d with
  | done r s => exact hpost r s hd
  | ask q s k ih => exact ⟨hask s hd.1, fun a s' hs => ih a s' (hd.2 a s' hs)⟩

/-- The rule for going on. -/
theorem Assures.bind {post' : T → σ → Prop} {f : R → σ → Dialogue σ Q A T}
    (hd : d.Assures rely ask post) (hf : ∀ r s, post r s → (f r s).Assures rely ask post') :
    (d.bind f).Assures rely ask post' := by
  induction d with
  | done r s => exact hf r s hd
  | ask q s k ih => exact ⟨hd.1, fun a s' hs => ih a s' (hd.2 a s' hs)⟩

/-- A party whose result is passed on assures of the state what it did. -/
theorem Assures.of_bind_done {f : R → T} {end_ : σ → Prop}
    (hd : (d.bind fun r s => .done (f r) s).Assures rely ask fun _ => end_) :
    d.Assures rely ask fun _ => end_ := by
  induction d with
  | done r s => exact hd
  | ask q s k ih => exact ⟨hd.1, fun a s' hs => ih a s' (hd.2 a s' hs)⟩

/-- A party whose own moves keep something assures it of a partner whose moves keep it too. -/
theorem Moves.assures {P : σ → Prop} (hmove : ∀ s s', P s → rely s s' → P s') {s : σ}
    (hd : d.Moves rely s) (hs : P s) : d.Assures rely P fun _ => P := by
  induction d generalizing s with
  | done r s' => exact hmove _ _ hs hd
  | ask q s' k ih =>
      have hasked := hmove _ _ hs hd.1
      exact ⟨hasked, fun a s'' hans => ih a s'' (hd.2 a s'') (hmove _ _ hasked hans)⟩

/-- The rule for a middleman: its dialogues assure what the party relies on. -/
theorem Assures.relay {g : Q → X → σ → Dialogue σ Q' A' (A × X)} {relied : σ → σ → Prop}
    {pre : σ → Prop} (hd : d.Assures relied pre post)
    (hg : ∀ q x s, pre s → (g q x s).Assures rely ask fun _ s' => relied s s') (x : X) :
    (d.relay g x).Assures rely ask fun o => post o.1 := by
  induction d generalizing x with
  | done r s => exact hd
  | ask q s k ih => exact (hg q x s hd.1).bind fun o s' hs => ih o.1 s' (hd.2 o.1 s' hs) o.2

/-- A conversation with a partner that keeps to what the party relies on. -/
theorem Assures.run {h : Q → I → σ → A × I × σ} (hd : d.Assures rely ask post)
    (hh : ∀ q i s, rely s (h q i s).2.2) (i : I) : post (d.run h i).1 (d.run h i).2.2 := by
  induction d generalizing i with
  | done r s => exact hd
  | ask q s k ih => exact ih _ _ (hd.2 _ _ (hh q i s)) _

/-- The same at every question. -/
theorem Assures.turns {h : Q → I → σ → A × I × σ} (hd : d.Assures rely ask post)
    (hh : ∀ q i s, rely s (h q i s).2.2) (i : I) : ∀ t ∈ d.turns h i, ask t.2.2 := by
  induction d generalizing i with
  | done r s => exact List.forall_mem_nil _
  | ask q s k ih =>
      exact List.forall_mem_cons.mpr ⟨hd.1, ih _ _ (hd.2 _ _ (hh q i s)) _⟩

end Dialogue
