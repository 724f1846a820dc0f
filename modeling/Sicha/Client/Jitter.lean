import Sicha.Client.Pace
import Sicha.Lib.Mixer

/-!
# The draws of two requests

Every request of a client draws its jitter from a stream of its own, seeded with the client's
seed xored with the number of the request.  {lit}`splitmix64` adds a constant to its state and
mixes the sum, and neither step loses anything.

Main results:

- Theorem {lit}`splitmix64_injective`: two states draw two words.
- Theorem {lit}`splitmixOutput_injective`: two seeds draw two words at every step.
- Theorem {lit}`requests_draw_apart`: so do two requests of one client.
-/

namespace Sicha

/-! ## The generator -/

/-- The rounds of {lit}`splitmix64`. -/
def splitmixRounds : List (Nat × BitVec 64) :=
  [(30, 0xBF58476D1CE4E5B9#64), (27, 0x94D049BB133111EB#64)]

/-- What is drawn is the next state, mixed. -/
theorem splitmix64_mix (s : UInt64) :
    (splitmix64 s).1.toBitVec = Mixer.mix 31 splitmixRounds (splitmix64 s).2.toBitVec :=
  rfl

/-- Every round shifts, and multiplies by an odd number. -/
theorem splitmixRounds_odd : ∀ r ∈ splitmixRounds, 0 < r.1 ∧ Odd r.2.toNat := by
  intro r hr
  simp only [splitmixRounds, List.mem_cons, List.not_mem_nil, or_false] at hr
  rcases hr with rfl | rfl
  · exact ⟨by decide, Nat.odd_iff.mpr (by decide)⟩
  · exact ⟨by decide, Nat.odd_iff.mpr (by decide)⟩

/-- Two states are followed by two states. -/
theorem splitmix64_state_injective : Function.Injective fun s => (splitmix64 s).2 := by
  intro s t h
  have hsum : s + 0x9E3779B97F4A7C15 = t + 0x9E3779B97F4A7C15 := h
  exact (UInt64.add_left_inj _).mp hsum

/-- Two states draw two words. -/
theorem splitmix64_injective : Function.Injective fun s => (splitmix64 s).1 := by
  intro s t h
  have hmixed : Mixer.mix 31 splitmixRounds (splitmix64 s).2.toBitVec =
      Mixer.mix 31 splitmixRounds (splitmix64 t).2.toBitVec := by
    rw [← splitmix64_mix, ← splitmix64_mix]
    exact congrArg UInt64.toBitVec h
  have hstate := Mixer.mix_injective (by decide) splitmixRounds_odd hmixed
  exact splitmix64_state_injective (UInt64.toBitVec_inj.mp hstate)

/-- Two streams never meet. -/
theorem splitmixState_injective (n : Nat) :
    Function.Injective fun seed => splitmixState seed n := by
  induction n with
  | zero => exact Function.injective_id
  | succ n ih => exact splitmix64_state_injective.comp ih

/-- Two seeds draw two words at every step. -/
theorem splitmixOutput_injective (n : Nat) :
    Function.Injective fun seed => splitmixOutput seed n :=
  splitmix64_injective.comp (splitmixState_injective n)

/-! ## Two requests -/

/-- The seeds of two requests of one client. -/
theorem ordinal_seed_ne (seed : UInt64) {i j : UInt32} (hij : i ≠ j) :
    seed ^^^ i.toUInt64 ≠ seed ^^^ j.toUInt64 := by
  intro h
  exact hij (UInt32.toUInt64_inj.mp ((UInt64.xor_right_inj seed).mp h))

/-- Two requests of one client start with two words, for every seed; two states of the generator
draw two words, and so do two streams at a step where their states differ. -/
theorem requests_draw_apart :
    (∀ (seed : UInt64) (i j : UInt32), i ≠ j →
      (splitmix64 (seed ^^^ i.toUInt64)).1 ≠ (splitmix64 (seed ^^^ j.toUInt64)).1) ∧
    (∀ [SizeT] {σ : Type} (k k' : Call σ), k.c = k'.c → ∀ (i j : UInt32), i ≠ j →
      ∀ (r r' : Result) (w w' : World σ),
        (splitmix64 (k.start i r w).rng).1 ≠ (splitmix64 (k'.start j r' w').rng).1) ∧
    Function.Injective (fun s => (splitmix64 s).1) ∧
    ∀ (seed seed' : UInt64) (n : Nat), splitmixState seed n ≠ splitmixState seed' n →
      splitmixOutput seed n ≠ splitmixOutput seed' n := by
  have hfirst : ∀ (seed : UInt64) (i j : UInt32), i ≠ j →
      (splitmix64 (seed ^^^ i.toUInt64)).1 ≠ (splitmix64 (seed ^^^ j.toUInt64)).1 :=
    fun seed i j hij => splitmix64_injective.ne (ordinal_seed_ne seed hij)
  refine ⟨hfirst, ?_, splitmix64_injective, fun seed seed' n => splitmix64_injective.ne⟩
  intro _ σ k k' hclient i j hij r r' w w'
  have hseed : k.c.prngSeed = k'.c.prngSeed := congrArg Client.prngSeed hclient
  have hne := hfirst k.c.prngSeed i j hij
  nth_rewrite 2 [hseed] at hne
  exact hne

/-- The first two requests of a client with the seed 1234, and two streams. -/
theorem requests_draw_apart_plain :
    (splitmix64 (1234 ^^^ 0)).1 ≠ (splitmix64 (1234 ^^^ 1)).1 ∧
      splitmixOutput 1234 2 ≠ splitmixOutput 5678 2 :=
  ⟨requests_draw_apart.1 1234 0 1 (by decide),
    requests_draw_apart.2.2.2 1234 5678 2 (by decide +kernel)⟩

end Sicha
