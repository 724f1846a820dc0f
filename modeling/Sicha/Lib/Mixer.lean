import Mathlib.Data.Int.GCD
import Mathlib.Data.Nat.ModEq
import Mathlib.Data.Nat.Prime.Basic

/-!
# Mixing words without collisions

The two steps that bit mixers are made of, an xor with the own shift and a multiplication by an
odd constant, for words of any width.  Neither loses anything.

Main results:

- Theorem {lit}`xorShift_injective`: a word can be told from its xor-shift.
- Theorem {lit}`mulOdd_injective`: a word can be told from its product with an odd constant.
- Theorem {lit}`mix_injective`: a word can be told from what a mixer makes of it.
-/

namespace Mixer

variable {w : Nat}

/-- A word xored with itself, shifted right. -/
def xorShift (k : Nat) (x : BitVec w) : BitVec w :=
  x ^^^ (x >>> k)

/-- One round: an xor-shift, then a multiplication. -/
def round (k : Nat) (c x : BitVec w) : BitVec w :=
  xorShift k x * c

/-- Rounds, given by their shifts and constants, and a last xor-shift. -/
def mix (last : Nat) (rounds : List (Nat × BitVec w)) (x : BitVec w) : BitVec w :=
  xorShift last (rounds.foldl (fun z r => round r.1 r.2 z) x)

/-- Only zero is left alone by a shift. -/
theorem eq_zero_of_ushiftRight {k : Nat} (hk : 0 < k) {x : BitVec w} (h : x >>> k = x) :
    x = 0#w := by
  have hdiv : x.toNat / 2 ^ k = x.toNat := by
    rw [← Nat.shiftRight_eq_div_pow, ← BitVec.toNat_ushiftRight, h]
  have hpow : 1 < 2 ^ k := Nat.one_lt_two_pow (Nat.pos_iff_ne_zero.mp hk)
  rcases Nat.eq_zero_or_pos x.toNat with hzero | hpos
  · exact BitVec.eq_of_toNat_eq (by simpa using hzero)
  · exact absurd hdiv (Nat.div_lt_self hpos hpow).ne

/-- The difference of two words with one xor-shift is its own shift. -/
theorem xorShift_injective {k : Nat} (hk : 0 < k) : Function.Injective (@xorShift w k) := by
  intro x y h
  have hshift : (x ^^^ y) >>> k = x ^^^ y := by
    rw [BitVec.ushiftRight_xor_distrib, ← BitVec.xor_eq_zero_iff]
    calc
      x >>> k ^^^ y >>> k ^^^ (x ^^^ y) = xorShift k x ^^^ xorShift k y := by
        unfold xorShift
        ac_rfl
      _ = 0#w := BitVec.xor_eq_zero_iff.mpr h
  exact BitVec.xor_eq_zero_iff.mp (eq_zero_of_ushiftRight hk hshift)

/-- An odd constant has no factor in common with the number of words. -/
theorem mulOdd_injective {c : BitVec w} (hc : Odd c.toNat) :
    Function.Injective fun x : BitVec w => x * c := by
  intro x y h
  have hproduct : x.toNat * c.toNat ≡ y.toNat * c.toNat [MOD 2 ^ w] := by
    have hnat : (x * c).toNat = (y * c).toNat := congrArg BitVec.toNat h
    rwa [BitVec.toNat_mul, BitVec.toNat_mul] at hnat
  have hcoprime : Nat.gcd (2 ^ w) c.toNat = 1 :=
    Nat.Coprime.pow_left w (Nat.coprime_two_left.mpr hc)
  have hfactor := Nat.ModEq.cancel_right_of_coprime hcoprime hproduct
  exact BitVec.eq_of_toNat_eq (Nat.ModEq.eq_of_lt_of_lt hfactor x.isLt y.isLt)

/-- A round of the mixer loses nothing. -/
theorem round_injective {k : Nat} (hk : 0 < k) {c : BitVec w} (hc : Odd c.toNat) :
    Function.Injective (round k c) :=
  (mulOdd_injective hc).comp (xorShift_injective hk)

/-- A mixer with shifts of at least one and odd constants has no collisions. -/
theorem mix_injective {last : Nat} (hlast : 0 < last) {rounds : List (Nat × BitVec w)}
    (hrounds : ∀ r ∈ rounds, 0 < r.1 ∧ Odd r.2.toNat) : Function.Injective (mix last rounds) := by
  have hfold : Function.Injective fun x => rounds.foldl (fun z r => round r.1 r.2 z) x := by
    induction rounds with
    | nil => exact Function.injective_id
    | cons r rounds ih =>
        obtain ⟨hshift, hodd⟩ := hrounds r List.mem_cons_self
        have hrest := ih fun r' hr' => hrounds r' (List.mem_cons_of_mem r hr')
        exact hrest.comp (round_injective hshift hodd)
  exact (xorShift_injective hlast).comp hfold

end Mixer
