import Mathlib.Data.List.TakeWhile
import Mathlib.Tactic.Linarith
import Sicha.Classify

/-!
# The numbers behind a delay

What the machine arithmetic of {lit}`sicha_retry_after_ms` and {lit}`sicha_backoff_ms` amounts
to over the integers.

Main results:

- Theorem {lit}`retryAfterMs_value`: a Retry-After value in seconds, saturated.
- Theorem {lit}`backoffMs_closed`: the closed form of a backoff.
-/

namespace Sicha

/-! ## Retry-After values -/

/-- What {lit}`skip_ows` skips: a space or a tab. -/
def isOws (b : UInt8) : Bool :=
  b == 32 || b == 9

/-- The number that decimal digits denote. -/
def decimalValue (digits : Bytes) : Nat :=
  digits.foldl (fun n b => n * 10 + (b.toNat - 48)) 0

/-- Blanks, decimal digits that denote {lit}`n`, and blanks. -/
def SpellsNumber (value : Bytes) (n : Nat) : Prop :=
  ∃ front digits back, value = front ++ digits ++ back ∧ (∀ b ∈ front, isOws b = true) ∧
    digits ≠ [] ∧ (∀ b ∈ digits, isDigit b = true) ∧ (∀ b ∈ back, isOws b = true) ∧
    n = decimalValue digits

/-- A digit is no blank. -/
theorem isOws_not_digit {b : UInt8} (h : isDigit b = true) : isOws b = false := by
  simp only [isDigit, Bool.and_eq_true, decide_eq_true_eq, UInt8.le_iff_toNat_le] at h
  have hle : 48 ≤ b.toNat := h.1
  simp only [isOws, Bool.or_eq_false_iff, beq_eq_false_iff_ne, ne_eq]
  constructor <;> rintro rfl <;> revert hle <;> decide

/-- Blanks in front are skipped, whatever is behind them. -/
theorem skipOws_append {front : Bytes} (hfront : ∀ b ∈ front, isOws b = true) (rest : Bytes) :
    skipOws (front ++ rest) = skipOws rest :=
  List.dropWhile_append_of_pos hfront

/-- Nothing is skipped before a digit. -/
theorem skipOws_digits {digits : Bytes} (hne : digits ≠ [])
    (hdigits : ∀ b ∈ digits, isDigit b = true) (rest : Bytes) :
    skipOws (digits ++ rest) = digits ++ rest := by
  cases digits with
  | nil => exact absurd rfl hne
  | cons d digits =>
      refine List.dropWhile_cons_of_neg ?_
      rw [Bool.not_eq_true]
      exact isOws_not_digit (hdigits d List.mem_cons_self)

/-- The three parts of a spelled number are what the parser splits a value into. -/
theorem spellsNumber_iff {value : Bytes} {n : Nat} :
    SpellsNumber value n ↔
      (skipOws value).takeWhile isDigit ≠ [] ∧
        skipOws ((skipOws value).dropWhile isDigit) = [] ∧
        n = decimalValue ((skipOws value).takeWhile isDigit) := by
  constructor
  · rintro ⟨front, digits, back, rfl, hfront, hne, hdigits, hback, rfl⟩
    have hstart : skipOws (front ++ digits ++ back) = digits ++ back := by
      rw [List.append_assoc, skipOws_append hfront]
      exact skipOws_digits hne hdigits back
    have hnodigit : ∀ b ∈ back, isDigit b = false := by
      intro b hb
      by_contra h
      have hblank := isOws_not_digit ((Bool.not_eq_false _).mp h)
      rw [hback b hb] at hblank
      cases hblank
    have htake : back.takeWhile isDigit = [] := by
      cases back with
      | nil => rfl
      | cons b back => simp [hnodigit b (by simp)]
    have hdrop : back.dropWhile isDigit = back := by
      cases back with
      | nil => rfl
      | cons b back => simp [hnodigit b (by simp)]
    rw [hstart, List.takeWhile_append_of_pos hdigits, List.dropWhile_append_of_pos hdigits, htake,
      hdrop, List.append_nil]
    exact ⟨hne, List.dropWhile_eq_nil_iff.mpr hback, rfl⟩
  · rintro ⟨hne, hrest, rfl⟩
    refine ⟨value.takeWhile isOws, (skipOws value).takeWhile isDigit,
      (skipOws value).dropWhile isDigit, ?_, ?_, hne, ?_, List.dropWhile_eq_nil_iff.mp hrest, rfl⟩
    · rw [List.append_assoc, List.takeWhile_append_dropWhile]
      exact (List.takeWhile_append_dropWhile).symm
    · exact fun b hb => List.mem_takeWhile_imp hb
    · exact fun b hb => List.mem_takeWhile_imp hb

/-- One round of the digit loop. -/
def retryDigit (seconds : UInt64) (b : UInt8) : UInt64 :=
  if seconds > retryAfterSatMs then retryAfterSatMs else seconds * 10 + (b - 48).toUInt64

/-- The digit loop takes the leading digits, and folds them. -/
theorem retryDigits_eq (s : Bytes) (digits : Nat) (seconds : UInt64) :
    retryDigits s digits seconds = (digits + (s.takeWhile isDigit).length,
      (s.takeWhile isDigit).foldl retryDigit seconds, s.dropWhile isDigit) := by
  induction s generalizing digits seconds with
  | nil => rfl
  | cons b rest ih =>
      unfold retryDigits
      by_cases hdigit : 48 ≤ b ∧ b ≤ 57
      · have hb : isDigit b = true := by simp [isDigit, hdigit]
        rw [if_pos hdigit, ih, List.takeWhile_cons_of_pos hb, List.dropWhile_cons_of_pos hb]
        simp only [List.length_cons, List.foldl_cons, retryDigit]
        congr 1
        omega
      · have hb : ¬ isDigit b = true := by simpa [isDigit] using hdigit
        rw [if_neg hdigit, List.takeWhile_cons_of_neg hb, List.dropWhile_cons_of_neg hb]
        rfl

/-- What the accumulator knows of the number so far: it is exact up to 10^12, beyond that at
least 10^12, and it never comes near 64 bits. -/
structure Accumulates (seconds : UInt64) (n : Nat) : Prop where
  exact : n ≤ 10 ^ 12 → seconds.toNat = n
  large : 10 ^ 12 < n → 10 ^ 12 < seconds.toNat
  bound : seconds.toNat < 10 ^ 17

/-- A digit is a byte from 48 to 57, and its value is what it is above 48. -/
theorem isDigit_value {b : UInt8} (h : isDigit b = true) :
    48 ≤ b.toNat ∧ b.toNat ≤ 57 ∧ (b - 48).toUInt64.toNat = b.toNat - 48 := by
  simp only [isDigit, Bool.and_eq_true, decide_eq_true_eq] at h
  have hle : (48 : UInt8).toNat ≤ b.toNat := UInt8.le_iff_toNat_le.mp h.1
  have hge : b.toNat ≤ (57 : UInt8).toNat := UInt8.le_iff_toNat_le.mp h.2
  refine ⟨hle, hge, ?_⟩
  rw [UInt8.toNat_toUInt64, UInt8.toNat_sub_of_le _ _ h.1]
  rfl

/-- The saturation of a delay, as a number. -/
theorem retryAfterSatMs_toNat : retryAfterSatMs.toNat = 10 ^ 15 := by
  decide

/-- A round of the loop does not overflow. -/
theorem retryDigit_toNat {seconds : UInt64} {b : UInt8} (hb : isDigit b = true)
    (h : ¬ seconds > retryAfterSatMs) :
    seconds.toNat * 10 + (b.toNat - 48) < 2 ^ 64 ∧
      (retryDigit seconds b).toNat = seconds.toNat * 10 + (b.toNat - 48) := by
  obtain ⟨hlo, hhi, hval⟩ := isDigit_value hb
  have hsat : seconds.toNat ≤ 10 ^ 15 := by
    rw [gt_iff_lt, UInt64.lt_iff_toNat_lt, retryAfterSatMs_toNat] at h
    exact Nat.not_lt.mp h
  have hten : (10 : UInt64).toNat = 10 := rfl
  refine ⟨by omega, ?_⟩
  rw [retryDigit, if_neg h, UInt64.toNat_add, UInt64.toNat_mul, hten, hval]
  omega

/-- One more digit: the accumulator goes on to stand for the number read so far. -/
theorem Accumulates.step {seconds : UInt64} {n : Nat} (h : Accumulates seconds n) {b : UInt8}
    (hb : isDigit b = true) : Accumulates (retryDigit seconds b) (n * 10 + (b.toNat - 48)) := by
  obtain ⟨hlo, hhi, -⟩ := isDigit_value hb
  obtain ⟨hexact, hlarge, hbound⟩ := h
  by_cases hsat : seconds > retryAfterSatMs
  · have hval : (retryDigit seconds b).toNat = 10 ^ 15 := by
      rw [retryDigit, if_pos hsat, retryAfterSatMs_toNat]
    rw [gt_iff_lt, UInt64.lt_iff_toNat_lt, retryAfterSatMs_toNat] at hsat
    constructor <;> rw [hval] <;> omega
  · have hval := (retryDigit_toNat hb hsat).2
    rw [gt_iff_lt, UInt64.lt_iff_toNat_lt, retryAfterSatMs_toNat] at hsat
    constructor <;> rw [hval] <;> omega

/-- A run of digits, from any accumulator. -/
theorem accumulates_foldl {digits : Bytes} (hdigits : ∀ b ∈ digits, isDigit b = true)
    {seconds : UInt64} {n : Nat} (h : Accumulates seconds n) :
    Accumulates (digits.foldl retryDigit seconds)
      (digits.foldl (fun n b => n * 10 + (b.toNat - 48)) n) := by
  induction digits generalizing seconds n with
  | nil => exact h
  | cons b digits ih =>
      exact ih (fun b' hb' => hdigits b' (by simp [hb'])) (h.step (hdigits b (by simp)))

/-- A run of digits from the start accumulates the number that they spell. -/
theorem accumulates_decimal {digits : Bytes} (hdigits : ∀ b ∈ digits, isDigit b = true) :
    Accumulates (digits.foldl retryDigit 0) (decimalValue digits) :=
  accumulates_foldl hdigits ⟨fun _ => rfl, fun h => by omega, by decide⟩

/-! ## No overflow -/

/-- The numbers the digit loop computes, as integers: a saturated round computes none. -/
def retrySums : Bytes → UInt64 → List Nat
  | b :: rest, seconds =>
      if 48 ≤ b ∧ b ≤ 57 then
        (if seconds > retryAfterSatMs then [] else [seconds.toNat * 10 + (b.toNat - 48)]) ++
          retrySums rest (retryDigit seconds b)
      else []
  | [], _ => []

/-- The numbers {lit}`sicha_retry_after_ms` computes, as integers: the sums of its digit loop,
and the product of its last line. -/
def retryNumbers (value : Bytes) : List Nat :=
  let seconds := (retryDigits (skipOws value) 0 0).2.1
  retrySums (skipOws value) 0 ++
    if seconds > retryAfterSatMs / 1000 then [] else [seconds.toNat * 1000]

/-- Every intermediate sum fits 64 bits. -/
theorem retrySums_lt (s : Bytes) (seconds : UInt64) : ∀ x ∈ retrySums s seconds, x < 2 ^ 64 := by
  induction s generalizing seconds with
  | nil => exact fun x hx => nomatch hx
  | cons b rest ih =>
      intro x hx
      unfold retrySums at hx
      by_cases hdigit : 48 ≤ b ∧ b ≤ 57
      · have hb : isDigit b = true := by simp [isDigit, hdigit]
        rw [if_pos hdigit] at hx
        rcases List.mem_append.mp hx with hx | hx
        · split_ifs at hx with hsat
          · cases hx
          · rw [List.mem_singleton.mp hx]
            exact (retryDigit_toNat hb hsat).1
        · exact ih _ x hx
      · rw [if_neg hdigit] at hx
        cases hx

/-- Every number that the parsing computes fits 64 bits. -/
theorem retryNumbers_lt (value : Bytes) : ∀ x ∈ retryNumbers value, x < 2 ^ 64 := by
  intro x hx
  unfold retryNumbers at hx
  dsimp only at hx
  rcases List.mem_append.mp hx with hx | hx
  · exact retrySums_lt _ _ x hx
  · split_ifs at hx with hsat
    · cases hx
    · rw [List.mem_singleton.mp hx]
      have hthousand : (retryAfterSatMs / 1000).toNat = 10 ^ 12 := by decide
      rw [gt_iff_lt, UInt64.lt_iff_toNat_lt, hthousand] at hsat
      omega

/-! ## Retry-After as a number of milliseconds -/

/-- The value of a header that spells a number. -/
theorem retryAfterMs_spelled {value : Bytes} {n : Nat} (h : SpellsNumber value n) :
    (retryAfterMs (some value)).toNat = min (1000 * n) (10 ^ 15) := by
  obtain ⟨hne, hrest, rfl⟩ := spellsNumber_iff.mp h
  have hdigits : ∀ b ∈ (skipOws value).takeWhile isDigit, isDigit b = true :=
    fun b hb => List.mem_takeWhile_imp hb
  obtain ⟨hexact, hlarge, hbound⟩ := accumulates_decimal hdigits
  have hthousand : (retryAfterSatMs / 1000).toNat = 10 ^ 12 := by decide
  have hcount : ¬ (0 + ((skipOws value).takeWhile isDigit).length = 0 ∨
      skipOws ((skipOws value).dropWhile isDigit) ≠ []) := by
    rw [not_or, not_not]
    exact ⟨by simpa using hne, hrest⟩
  unfold retryAfterMs
  simp only [retryDigits_eq]
  rw [if_neg hcount]
  split_ifs with hsat
  · rw [gt_iff_lt, UInt64.lt_iff_toNat_lt, hthousand] at hsat
    rw [retryAfterSatMs_toNat]
    omega
  · rw [gt_iff_lt, UInt64.lt_iff_toNat_lt, hthousand] at hsat
    rw [UInt64.toNat_mul, show (1000 : UInt64).toNat = 1000 from rfl]
    omega

/-- A header that spells none is ignored. -/
theorem retryAfterMs_unspelled {value : Bytes} (h : ¬ ∃ n, SpellsNumber value n) :
    retryAfterMs (some value) = uint64Max := by
  have hbad : 0 + ((skipOws value).takeWhile isDigit).length = 0 ∨
      skipOws ((skipOws value).dropWhile isDigit) ≠ [] := by
    by_contra hgood
    rw [not_or, not_not] at hgood
    exact h ⟨_, spellsNumber_iff.mpr ⟨by simpa using hgood.1, hgood.2, rfl⟩⟩
  unfold retryAfterMs
  simp only [retryDigits_eq]
  rw [if_pos hbad]

/-- Retry-After in seconds: of every value the parser answers the number it spells in
milliseconds, saturated, or none; it counts no more digits than the value is long, and nothing
it computes overflows 64 bits. -/
theorem retryAfterMs_value (value : Bytes) (hlen : value.length < 2 ^ 31) :
    (∀ n, SpellsNumber value n →
      (retryAfterMs (some value)).toNat = min (1000 * n) (10 ^ 15)) ∧
    ((¬ ∃ n, SpellsNumber value n) → (retryAfterMs (some value)).toNat = 2 ^ 64 - 1) ∧
    (∀ x ∈ retryNumbers value, x < 2 ^ 64) ∧
    (retryDigits (skipOws value) 0 0).1 < 2 ^ 31 := by
  refine ⟨fun n h => retryAfterMs_spelled h, fun h => ?_, retryNumbers_lt value, ?_⟩
  · rw [retryAfterMs_unspelled h]
    rfl
  · rw [retryDigits_eq]
    have htake := (List.takeWhile_prefix isDigit (l := skipOws value)).length_le
    have hskip : (skipOws value).length ≤ value.length := (List.dropWhile_suffix _).length_le
    dsimp only
    omega

/-- Blanks and leading zeros around a 7 make seven seconds. -/
theorem retryAfterMs_value_seven :
    (retryAfterMs (some (ascii " 007\t"))).toNat = min (1000 * 7) (10 ^ 15) ∧
      ∀ x ∈ retryNumbers (ascii " 007\t"), x < 2 ^ 64 := by
  have h := retryAfterMs_value (ascii " 007\t") (by decide)
  exact ⟨h.1 7 ⟨ascii " ", ascii "007", ascii "\t", by decide +kernel, by decide +kernel,
    by decide +kernel, by decide +kernel, by decide +kernel, by decide +kernel⟩, h.2.2.1⟩

/-! ## Backoff -/

/-- The jitter of a backoff. -/
def jitterOf (p : RetryPolicy) (jitterRand : UInt64) : Nat :=
  if p.backoffJitterMs = disabled then 0 else jitterRand.toNat % p.backoffJitterMs.toNat

/-- The exponential part of {lit}`sicha_backoff_ms`: exact, or at least the cap. -/
def backoffWait (base cap : UInt64) (k : UInt32) : UInt64 :=
  if k - 1 ≥ 63 ∨ base > uint64Max >>> (k - 1).toUInt64 then cap
  else base <<< (k - 1).toUInt64

/-- The wait has been doubled as often as there were retries, or it has met its cap. -/
theorem backoffWait_toNat {base cap : UInt64} (hbase : 0 < base.toNat) (hcap : cap.toNat < 2 ^ 32)
    {k : UInt32} (hk : 1 ≤ k) :
    (backoffWait base cap k).toNat = base.toNat * 2 ^ (k.toNat - 1) ∨
      (backoffWait base cap k).toNat = cap.toNat ∧ cap.toNat ≤ base.toNat * 2 ^ (k.toNat - 1) := by
  have hpred : (k - 1).toNat = k.toNat - 1 := UInt32.toNat_sub_of_le _ _ hk
  have hshift : (k - 1).toUInt64.toNat = k.toNat - 1 := by rw [UInt32.toNat_toUInt64, hpred]
  have hguard : k - 1 ≥ 63 ↔ 63 ≤ k.toNat - 1 := by
    rw [ge_iff_le, UInt32.le_iff_toNat_le, hpred]
    rfl
  generalize k.toNat - 1 = m at hshift hguard
  have hpow : 0 < 2 ^ m := Nat.two_pow_pos m
  have hquot : m < 63 → (uint64Max >>> (k - 1).toUInt64).toNat = (2 ^ 64 - 1) / 2 ^ m := by
    intro hm
    rw [UInt64.toNat_shiftRight, hshift, Nat.mod_eq_of_lt (by omega), Nat.shiftRight_eq_div_pow]
    rfl
  unfold backoffWait
  split_ifs with h
  · refine .inr ⟨rfl, ?_⟩
    by_cases hm : 63 ≤ m
    · have hbig : 2 ^ 63 ≤ 2 ^ m := Nat.pow_le_pow_right (by decide) hm
      calc cap.toNat ≤ 1 * 2 ^ m := by omega
        _ ≤ base.toNat * 2 ^ m := Nat.mul_le_mul_right _ hbase
    · have hover := h.resolve_left (mt hguard.mp hm)
      rw [gt_iff_lt, UInt64.lt_iff_toNat_lt, hquot (by omega), Nat.div_lt_iff_lt_mul hpow] at hover
      omega
  · rw [not_or] at h
    have hm : m < 63 := Nat.not_le.mp (mt hguard.mpr h.1)
    have hfits := h.2
    rw [gt_iff_lt, UInt64.lt_iff_toNat_lt, hquot hm, Nat.not_lt, Nat.le_div_iff_mul_le hpow] at hfits
    left
    rw [UInt64.toNat_shiftLeft, hshift, Nat.mod_eq_of_lt (show m < 64 by omega),
      Nat.shiftLeft_eq, Nat.mod_eq_of_lt (by omega)]

/-- A value with a default above zero is above zero. -/
theorem orDefault_pos (x : UInt32) {dflt : UInt32} (h : 0 < dflt.toNat) :
    0 < (orDefault x dflt).toNat := by
  unfold orDefault
  split_ifs with hzero
  · exact h
  · exact Nat.pos_of_ne_zero fun hnat => hzero (UInt32.toNat_inj.mp hnat)

/-- The closed form of a backoff: after resolution it is exact arithmetic, capped. -/
theorem backoffMs_exact (p : RetryPolicy) {k : UInt32} (hk : 1 ≤ k) (jitterRand : UInt64) :
    (backoffMs (policyResolve p) k jitterRand).toNat =
      min ((policyResolve p).backoffBaseMs.toNat * 2 ^ (k.toNat - 1) +
        jitterOf (policyResolve p) jitterRand) (policyResolve p).backoffCapMs.toNat := by
  have hbase : 0 < (policyResolve p).backoffBaseMs.toNat := orDefault_pos _ (by decide)
  have hjitter : 0 < (policyResolve p).backoffJitterMs.toNat := orDefault_pos _ (by decide)
  generalize policyResolve p = q at hbase hjitter
  have hcap32 := q.backoffCapMs.toNat_lt
  have hcap : q.backoffCapMs.toUInt64.toNat = q.backoffCapMs.toNat := UInt32.toNat_toUInt64 _
  have hwait := @backoffWait_toNat q.backoffBaseMs.toUInt64 q.backoffCapMs.toUInt64
    (by rwa [UInt32.toNat_toUInt64]) (by rw [hcap]; exact hcap32) k hk
  rw [UInt32.toNat_toUInt64, hcap] at hwait
  have hk0 : k ≠ 0 := by
    rintro rfl
    exact absurd hk (by decide)
  have hpos : q.backoffJitterMs > 0 := by
    rw [gt_iff_lt, UInt32.lt_iff_toNat_lt]
    exact hjitter
  -- the cap bounds what the jitter could push past 64 bits
  have hlast : ∀ wait : UInt64, (if wait < q.backoffCapMs.toUInt64 then wait
      else q.backoffCapMs.toUInt64).toNat = min wait.toNat q.backoffCapMs.toNat := by
    intro wait
    rw [← hcap]
    split_ifs with hlt
    · rw [UInt64.lt_iff_toNat_lt] at hlt
      omega
    · rw [UInt64.lt_iff_toNat_lt] at hlt
      omega
  unfold backoffMs
  dsimp only
  rw [if_neg hk0, hlast]
  change min (UInt64.toNat (if _ then addSat (backoffWait _ _ k) _ else backoffWait _ _ k)) _ = _
  unfold jitterOf
  by_cases hoff : q.backoffJitterMs = disabled
  · rw [if_neg (fun h => h.1 hoff), if_pos hoff]
    omega
  · rw [if_pos ⟨hoff, hpos⟩, if_neg hoff, addSat_toNat, UInt64.toNat_mod, UInt32.toNat_toUInt64]
    omega

/-- Backoff in closed form; hence for one random word it never falls as the retries go on, and
never passes the cap. -/
theorem backoffMs_closed (p : RetryPolicy) (k : UInt32) (hk : 1 ≤ k) (jitterRand : UInt64) :
    (backoffMs (policyResolve p) k jitterRand).toNat =
      min ((policyResolve p).backoffBaseMs.toNat * 2 ^ (k.toNat - 1) +
        jitterOf (policyResolve p) jitterRand) (policyResolve p).backoffCapMs.toNat ∧
    (∀ k', k ≤ k' → backoffMs (policyResolve p) k jitterRand ≤
      backoffMs (policyResolve p) k' jitterRand) ∧
    backoffMs (policyResolve p) k jitterRand ≤ (policyResolve p).backoffCapMs.toUInt64 := by
  refine ⟨backoffMs_exact p hk jitterRand, fun k' hle => ?_, ?_⟩
  · rw [UInt64.le_iff_toNat_le, backoffMs_exact p hk,
      backoffMs_exact p (UInt32.le_trans hk hle)]
    rw [UInt32.le_iff_toNat_le] at hle
    have hpow : 2 ^ (k.toNat - 1) ≤ 2 ^ (k'.toNat - 1) :=
      Nat.pow_le_pow_right (by decide) (by omega)
    exact min_le_min_right _ (Nat.add_le_add_right (Nat.mul_le_mul_left _ hpow) _)
  · rw [UInt64.le_iff_toNat_le, backoffMs_exact p hk, UInt32.toNat_toUInt64]
    exact min_le_right _ _

/-- The third wait of the default policy without jitter. -/
theorem backoffMs_closed_third :
    (backoffMs (policyResolve ⟨0, 0, 0, 0, disabled, 0, 0, .null 0⟩) 3 0).toNat =
      min (1000 * 2 ^ 2 + 0) 30000 :=
  (backoffMs_closed ⟨0, 0, 0, 0, disabled, 0, 0, .null 0⟩ 3 (by decide) 0).1

end Sicha
