import Mathlib.Tactic.Ring
import Sicha.Classify.Delay
import Sicha.Client.Excerpt

/-!
# Retry-After, as sent and as honoured

{lit}`attempt_on_status` keeps the last Retry-After of an attempt in an array of 64 bytes, and
{lit}`run_attempt` parses what it kept.

Main results:

- Theorem {lit}`retryAfterMs_cut_iff`: when a value that is cut still means the same.
- Theorem {lit}`exchange_captured`: what is kept is the last value, cut after 63 bytes.
- Theorem {lit}`chat_retryAfter_iff`: the engine honours the header as it was sent exactly when
  the cut leaves its meaning alone.
-/

namespace Sicha

/-! ## Numbers cut short -/

/-- A number goes on in front of the digits behind it. -/
theorem foldl_decimal (ys : Bytes) (n : Nat) :
    ys.foldl (fun n b => n * 10 + (b.toNat - 48)) n = n * 10 ^ ys.length + decimalValue ys := by
  unfold decimalValue
  induction ys generalizing n with
  | nil => simp
  | cons b ys ih =>
      rw [List.foldl_cons, List.foldl_cons, ih, ih (0 * 10 + _), List.length_cons]
      ring

/-- The value of two runs of digits in a row. -/
theorem decimalValue_append (xs ys : Bytes) :
    decimalValue (xs ++ ys) = decimalValue xs * 10 ^ ys.length + decimalValue ys := by
  rw [decimalValue, List.foldl_append]
  exact foldl_decimal ys _

/-- A value spells one number. -/
theorem SpellsNumber.unique {value : Bytes} {m n : Nat} (hm : SpellsNumber value m)
    (hn : SpellsNumber value n) : m = n := by
  rw [(spellsNumber_iff.mp hm).2.2, (spellsNumber_iff.mp hn).2.2]

/-- Blanks spell no number. -/
theorem SpellsNumber.not_blank {value : Bytes} {n : Nat} (h : SpellsNumber value n) :
    ¬ ∀ b ∈ value, isOws b = true := by
  intro hblank
  have hskip : skipOws value = [] := List.dropWhile_eq_nil_iff.mpr hblank
  have hne := (spellsNumber_iff.mp h).1
  rw [hskip] at hne
  exact hne rfl

/-- Blanks before a value do not matter. -/
theorem spellsNumber_blank_append {kept : Bytes} (hkept : ∀ b ∈ kept, isOws b = true)
    (rest : Bytes) (n : Nat) : SpellsNumber (kept ++ rest) n ↔ SpellsNumber rest n := by
  have hskip : skipOws (kept ++ rest) = skipOws rest := List.dropWhile_append_of_pos hkept
  rw [spellsNumber_iff, spellsNumber_iff, hskip]

/-- The first part of a spelled number is blank or spells one itself. -/
theorem SpellsNumber.of_append {kept rest : Bytes} {n : Nat} (h : SpellsNumber (kept ++ rest) n) :
    (∀ b ∈ kept, isOws b = true) ∨ ∃ m, SpellsNumber kept m := by
  obtain ⟨front, digits, back, hall, hfront, hne, hdigits, hback, -⟩ := h
  rw [List.append_assoc] at hall
  rcases List.append_eq_append_iff.mp hall with ⟨more, rfl, -⟩ | ⟨within, rfl, hwithin⟩
  · exact .inl fun b hb => hfront b (List.mem_append_left _ hb)
  · rcases within with _ | ⟨d, within⟩
    · exact .inl (by simpa using hfront)
    · right
      rcases List.append_eq_append_iff.mp hwithin with ⟨tail, htail, hend⟩ | ⟨tail, rfl, -⟩
      · exact ⟨_, front, digits, tail, by rw [htail, List.append_assoc], hfront, hne, hdigits,
          fun b hb => hback b (by rw [hend]; exact List.mem_append_left _ hb), rfl⟩
      · exact ⟨_, front, d :: within, [], (List.append_nil _).symm, hfront, List.cons_ne_nil _ _,
          fun b hb => hdigits b (List.mem_append_left _ hb), by simp, rfl⟩

/-- What may stand behind blanks, digits and blanks so that the whole spells a number: blanks,
or right behind the digits more digits and blanks. -/
theorem spellsNumber_append_cases {front digits back : Bytes} (hfront : ∀ b ∈ front, isOws b = true)
    (hne : digits ≠ []) (hdigits : ∀ b ∈ digits, isDigit b = true)
    (hback : ∀ b ∈ back, isOws b = true) {rest : Bytes} {n : Nat}
    (h : SpellsNumber (front ++ digits ++ back ++ rest) n) :
    (∀ b ∈ rest, isOws b = true) ∨
      ∃ more last, back = [] ∧ rest = more ++ last ∧ (∀ b ∈ more, isDigit b = true) ∧
        (∀ b ∈ last, isOws b = true) ∧ n = decimalValue (digits ++ more) := by
  obtain ⟨-, hend, hn⟩ := spellsNumber_iff.mp h
  have hskip : skipOws (front ++ digits ++ back ++ rest) = digits ++ (back ++ rest) := by
    rw [List.append_assoc, List.append_assoc, skipOws_append hfront]
    exact skipOws_digits hne hdigits _
  rw [hskip, List.takeWhile_append_of_pos hdigits] at hn
  rw [hskip, List.dropWhile_append_of_pos hdigits] at hend
  cases back with
  | nil =>
      refine .inr ⟨rest.takeWhile isDigit, rest.dropWhile isDigit, rfl,
        List.takeWhile_append_dropWhile.symm, fun b hb => List.mem_takeWhile_imp hb, ?_, hn⟩
      exact List.dropWhile_eq_nil_iff.mp hend
  | cons b back =>
      have hstop : (b :: back ++ rest).dropWhile isDigit = b :: back ++ rest := by
        rw [List.cons_append, List.dropWhile_cons_of_neg]
        intro hdigit
        have hblank := hback b List.mem_cons_self
        rw [isOws_not_digit hdigit] at hblank
        cases hblank
      rw [hstop] at hend
      exact .inl fun b hb => List.dropWhile_eq_nil_iff.mp hend b (List.mem_append_right _ hb)

/-- What is behind a cut leaves the meaning of a value alone: nothing is behind it, or the kept
part is garbage; or the kept part is blank and no number is behind it; or the kept part spells a
number, with only blanks behind it, or with the rest of its digits behind it that do not change
the saturated number. -/
inductive SurvivesCut (kept rest : Bytes) : Prop
  | whole (h : rest = [])
  | garbage (hkept : ∃ b ∈ kept, isOws b = false) (h : ∀ n, ¬ SpellsNumber kept n)
  | blank (hkept : ∀ b ∈ kept, isOws b = true) (h : ∀ n, ¬ SpellsNumber rest n)
  | padded {n : Nat} (hkept : SpellsNumber kept n) (h : ∀ b ∈ rest, isOws b = true)
  | digits {front digits more last : Bytes} (hkept : kept = front ++ digits)
      (hfront : ∀ b ∈ front, isOws b = true) (hne : digits ≠ [])
      (hdigits : ∀ b ∈ digits, isDigit b = true) (hrest : rest = more ++ last)
      (hmore : ∀ b ∈ more, isDigit b = true) (hlast : ∀ b ∈ last, isOws b = true)
      (h : 10 ^ 12 ≤ decimalValue digits ∨ decimalValue digits = 0 ∧ decimalValue more = 0)

/-- The largest number of 64 bits. -/
theorem uint64Max_toNat : uint64Max.toNat = 2 ^ 64 - 1 :=
  rfl

/-- A spelled number is told apart from a value that is ignored. -/
theorem retryAfterMs_spelled_ne {value : Bytes} {n : Nat} (h : SpellsNumber value n) :
    retryAfterMs (some value) ≠ uint64Max := by
  intro heq
  have hval := retryAfterMs_spelled h
  rw [heq, uint64Max_toNat] at hval
  omega

/-- Two spelled numbers are honoured alike if they saturate alike. -/
theorem retryAfterMs_spelled_iff {value value' : Bytes} {n n' : Nat} (h : SpellsNumber value n)
    (h' : SpellsNumber value' n') :
    retryAfterMs (some value) = retryAfterMs (some value') ↔
      n = n' ∨ 10 ^ 12 ≤ n ∧ 10 ^ 12 ≤ n' := by
  rw [← UInt64.toNat_inj, retryAfterMs_spelled h, retryAfterMs_spelled h']
  omega

/-- Digits behind a number change it, unless both are zero; beyond 10^12 that does not show. -/
theorem saturates_iff {digits more : Bytes} (hmore : more ≠ []) :
    (decimalValue digits = decimalValue (digits ++ more) ∨
        10 ^ 12 ≤ decimalValue digits ∧ 10 ^ 12 ≤ decimalValue (digits ++ more)) ↔
      10 ^ 12 ≤ decimalValue digits ∨ decimalValue digits = 0 ∧ decimalValue more = 0 := by
  have hpow : 10 ^ 1 ≤ 10 ^ more.length :=
    Nat.pow_le_pow_right (by decide) (List.length_pos_iff.mpr hmore)
  have hgrow : decimalValue digits * 10 ≤ decimalValue digits * 10 ^ more.length :=
    Nat.mul_le_mul_left _ hpow
  rw [decimalValue_append]
  constructor
  · rintro (heq | ⟨hlarge, -⟩)
    · right
      omega
    · exact .inl hlarge
  · rintro (hlarge | ⟨hzero, hnone⟩)
    · right
      omega
    · left
      rw [hzero, hnone, Nat.zero_mul]

/-- A cut value means what the whole value means exactly if it survives the cut. -/
theorem retryAfterMs_cut_iff (kept rest : Bytes) :
    retryAfterMs (some kept) = retryAfterMs (some (kept ++ rest)) ↔ SurvivesCut kept rest := by
  constructor
  · intro heq
    by_cases hblank : ∀ b ∈ kept, isOws b = true
    · refine .blank hblank fun n hn => ?_
      have hnone : retryAfterMs (some kept) = uint64Max :=
        retryAfterMs_unspelled fun ⟨m, hm⟩ => hm.not_blank hblank
      rw [hnone] at heq
      exact retryAfterMs_spelled_ne ((spellsNumber_blank_append hblank rest n).mpr hn) heq.symm
    by_cases hnumber : ∃ n, SpellsNumber kept n
    · obtain ⟨n, hn⟩ := hnumber
      have hall : ∃ m, SpellsNumber (kept ++ rest) m := by
        by_contra hnone
        rw [retryAfterMs_unspelled hnone] at heq
        exact retryAfterMs_spelled_ne hn heq
      obtain ⟨m, hm⟩ := hall
      have hsame := (retryAfterMs_spelled_iff hn hm).mp heq
      obtain ⟨front, digits, back, rfl, hfront, hne, hdigits, hback, rfl⟩ := hn
      rcases spellsNumber_append_cases hfront hne hdigits hback hm with
        hrest | ⟨more, last, rfl, rfl, hmore, hlast, rfl⟩
      · exact .padded ⟨front, digits, back, rfl, hfront, hne, hdigits, hback, rfl⟩ hrest
      · by_cases hnone : more = []
        · subst hnone
          exact .padded ⟨front, digits, [], rfl, hfront, hne, hdigits, hback, rfl⟩ hlast
        · exact .digits (List.append_nil _) hfront hne hdigits rfl hmore hlast
            ((saturates_iff hnone).mp hsame)
    · push Not at hblank hnumber
      obtain ⟨b, hb, hbad⟩ := hblank
      exact .garbage ⟨b, hb, by simpa using hbad⟩ hnumber
  · rintro (hnothing | ⟨⟨b, hb, hbad⟩, hnone⟩ | ⟨hblank, hnone⟩ | ⟨hn, hrest⟩ | _)
    · rw [hnothing, List.append_nil]
    · have hnot : ¬ ∃ n, SpellsNumber (kept ++ rest) n := by
        rintro ⟨n, hn⟩
        rcases hn.of_append with hblank | ⟨m, hm⟩
        · rw [hblank b hb] at hbad
          cases hbad
        · exact hnone m hm
      rw [retryAfterMs_unspelled hnot, retryAfterMs_unspelled fun ⟨n, hn⟩ => hnone n hn]
    · have hnot : ¬ ∃ n, SpellsNumber (kept ++ rest) n := fun ⟨n, hn⟩ =>
        hnone n ((spellsNumber_blank_append hblank rest n).mp hn)
      rw [retryAfterMs_unspelled hnot,
        retryAfterMs_unspelled fun ⟨n, hn⟩ => hn.not_blank hblank]
    · obtain ⟨front, digits, back, rfl, hfront, hne, hdigits, hback, rfl⟩ := hn
      have hall : SpellsNumber (front ++ digits ++ back ++ rest) (decimalValue digits) :=
        ⟨front, digits, back ++ rest, by rw [List.append_assoc _ back], hfront, hne, hdigits,
          fun b hb => (List.mem_append.mp hb).elim (hback b) (hrest b), rfl⟩
      exact (retryAfterMs_spelled_iff ⟨front, digits, back, rfl, hfront, hne, hdigits, hback, rfl⟩
        hall).mpr (.inl rfl)
    · rename_i front digits more last hkept hfront hne hdigits hrest hmore hlast h
      subst hkept hrest
      have hone : SpellsNumber (front ++ digits) (decimalValue digits) :=
        ⟨front, digits, [], (List.append_nil _).symm, hfront, hne, hdigits, by simp, rfl⟩
      have hall : SpellsNumber (front ++ digits ++ (more ++ last))
          (decimalValue (digits ++ more)) :=
        ⟨front, digits ++ more, last, by simp only [List.append_assoc], hfront,
          List.append_ne_nil_of_left_ne_nil hne _,
          fun b hb => (List.mem_append.mp hb).elim (hdigits b) (hmore b), hlast, rfl⟩
      refine (retryAfterMs_spelled_iff hone hall).mpr ?_
      by_cases hnone : more = []
      · left
        rw [hnone, List.append_nil]
      · exact (saturates_iff hnone).mpr h

/-! ## What an attempt keeps -/

/-- The value of a Retry-After header. -/
def HeaderRef.retryAfter? (h : HeaderRef) : Option Bytes :=
  match h.name, h.value with
  | some name, some value =>
      if headerNameEq name (ascii "Retry-After") then some value else none
  | _, _ => none

/-- The Retry-After values a question to the sink carries, in order. -/
def SinkCall.retryAfters : SinkCall → List Bytes
  | .status _ headers => headers.filterMap HeaderRef.retryAfter?
  | .body _ => []

section Runs

variable [SizeT] {σ : Type}

/-- The Retry-After values of a dialogue, in order. -/
def retryAfters (turns : Turns σ) : List Bytes :=
  turns.flatMap fun t => t.1.retryAfters

/-- A header is captured if it is a Retry-After. -/
theorem noteRetryAfter_captured (io : AttemptIo) (h : HeaderRef) :
    (noteRetryAfter io h).captured =
      (h.retryAfter?.map fun value => some (snprintf 64 value)).getD io.captured := by
  obtain ⟨name, value⟩ := h
  unfold noteRetryAfter HeaderRef.retryAfter?
  cases name with
  | none => rfl
  | some name =>
      cases value with
      | none => rfl
      | some value =>
          dsimp only
          split_ifs
          · rfl
          · rfl

/-- The last Retry-After of a status line's headers is kept. -/
theorem attemptOnStatus_captured (io : AttemptIo) (httpStatus : Int) (headers : List HeaderRef) :
    (attemptOnStatus io httpStatus headers).captured =
      (((headers.filterMap HeaderRef.retryAfter?).getLast?.map (snprintf 64)).or io.captured) := by
  rw [attemptOnStatus, LastWins.foldl_last noteRetryAfter_captured]
  have hvalues : headers.filterMap (fun h => h.retryAfter?.map fun v => some (snprintf 64 v)) =
      (headers.filterMap HeaderRef.retryAfter?).map fun v => some (snprintf 64 v) :=
    List.map_filterMap.symm
  rw [hvalues, List.getLast?_map]
  cases (headers.filterMap HeaderRef.retryAfter?).getLast? <;> rfl

namespace Call

variable (k : Call σ)

/-- What an attempt has kept when its transport returns: the last Retry-After it was given, cut
after 63 bytes. -/
theorem exchange_captured (rq : HttpRequest) (s : LoopState k.c) :
    (k.exchanged rq s).io.captured =
      (retryAfters (k.asked rq s)).getLast?.map (snprintf 64) := by
  have hrun := @Dialogue.run_turns _ _ _ _ _ (attemptSink k.Y k.H k.cbs k.stream)
    (fun past i => i.io.captured = (retryAfters past).getLast?.map (snprintf 64)) ?_
    (k.c.transport.perform rq true k.cancel (k.handed rq s.world).env) []
    { io := attemptIoInit k.c (k.cleared s) k.stream k.req.accumulates
      log := (k.handed rq s.world).log } rfl
  · exact hrun
  · intro past q i env h
    rw [retryAfters, List.flatMap_append, List.flatMap_singleton, List.getLast?_append]
    cases q with
    | status httpStatus headers =>
        refine (attemptOnStatus_captured i.io httpStatus headers).trans ?_
        rw [h, SinkCall.retryAfters]
        cases (headers.filterMap HeaderRef.retryAfter?).getLast? <;> rfl
    | body bytes =>
        have hsame : (attemptSink k.Y k.H k.cbs k.stream (.body bytes) i env).2.1.io.captured =
            i.io.captured := by
          unfold attemptSink attemptOnBodyStream
          dsimp only
          split_ifs <;> rfl
        exact hsame.trans h

/-! ## What the engine honours -/

/-- The engine honours this Retry-After value: its delay is that of the whole value, so a number
replaces the formula and anything else leaves it alone. -/
structure Honours (value : Bytes) (delay : UInt64) : Prop where
  whole : delay = retryAfterMs (some value)
  number : ∀ n, SpellsNumber value n → k.c.policy.retryAfterCapMs ≠ disabled → ∀ used rng,
    (k.waitFor delay used rng).1.toNat =
        min (min (1000 * n) (10 ^ 15)) k.c.policy.retryAfterCapMs.toNat ∧
      (k.waitFor delay used rng).2 = rng
  other : (¬ ∃ n, SpellsNumber value n) → ∀ used rng,
    k.waitFor delay used rng =
      (backoffMs k.c.policy (UInt32.ofNat used) (splitmix64 rng).1, (splitmix64 rng).2)

/-- To honour a value is to wait what it says. -/
theorem honours_iff (value : Bytes) (delay : UInt64) :
    k.Honours value delay ↔ delay = retryAfterMs (some value) := by
  refine ⟨Honours.whole, fun hdelay => ⟨hdelay, fun n hn hcap used rng => ?_, fun hnone used rng => ?_⟩⟩
  · have hval := retryAfterMs_spelled hn
    rw [← hdelay] at hval
    have hlisten : delay ≠ uint64Max ∧ k.c.policy.retryAfterCapMs ≠ disabled :=
      ⟨hdelay ▸ retryAfterMs_spelled_ne hn, hcap⟩
    rw [waitFor, if_pos hlisten]
    refine ⟨?_, rfl⟩
    rw [← hval]
    dsimp only
    split_ifs with hover
    · rw [gt_iff_lt, UInt64.lt_iff_toNat_lt, UInt32.toNat_toUInt64] at hover
      rw [UInt32.toNat_toUInt64]
      omega
    · rw [gt_iff_lt, UInt64.lt_iff_toNat_lt, UInt32.toNat_toUInt64] at hover
      omega
  · rw [waitFor, if_neg fun h => h.1 (hdelay.trans (retryAfterMs_unspelled hnone))]

/-- An attempt honours its last Retry-After exactly if that survives the cut. -/
theorem roundTrip_honours_iff (rq : HttpRequest) (s : LoopState k.c) {value : Bytes}
    (hvalue : (retryAfters (k.asked rq s)).getLast? = some value) :
    k.Honours value (k.roundTrip rq s).o.retryAfterMs ↔
      SurvivesCut (value.take 63) (value.drop 63) := by
  have hdelay : (k.roundTrip rq s).o.retryAfterMs = retryAfterMs (some (value.take 63)) := by
    rw [k.roundTrip_delay, k.exchange_captured, hvalue]
    rfl
  have hcut := retryAfterMs_cut_iff (value.take 63) (value.drop 63)
  rw [List.take_append_drop] at hcut
  rw [k.honours_iff, hdelay, hcut]

end Call

/-! ## Calls -/

/-- The records of a call are those of its attempts; and each attempt of class
{lit}`RETRY_SAME` whose response carries a Retry-After honours the last one as it was sent,
exactly if its meaning survives a cut after 63 bytes. -/
theorem chat_retryAfter_iff (k : Call σ) (ordinal : UInt32) (env : σ) :
    let e := chatCommon k.Y k.H (some k.c) (some k.req) k.cbs k.cancel true k.stream ordinal
      ⟨env, []⟩
    e.records = k.entries (k.trips ordinal ⟨env, []⟩) ∧
      ∀ t ∈ k.trips ordinal ⟨env, []⟩, (k.entry t.1 t.2).errorClass = .retrySame →
        ∀ value, (retryAfters (k.asked t.1 t.2)).getLast? = some value →
          (k.Honours value (k.roundTrip t.1 t.2).o.retryAfterMs ↔
            SurvivesCut (value.take 63) (value.drop 63)) :=
  ⟨k.run_entries ordinal ⟨env, []⟩,
    fun t _ _ _ hvalue => k.roundTrip_honours_iff t.1 t.2 hvalue⟩

end Runs

section Plain

attribute [local instance] lp64

/-- A backend that is overloaded and names a delay. -/
def delayTransport (value : Bytes) : Transport Unit where
  perform _ sink _ s :=
    if sink then
      .ask (.status 503 [⟨some (ascii "retry-after"), some value⟩]) s fun _ s' => .done .ok s'
    else .done .ok s

/-- A call to it. -/
def delayedCall (value : Bytes) : Call Unit where
  Y := plainYyjson [] .null
  H := Heap.plentiful
  c := plainClient 0 1048576 plainCap_pos (delayTransport value)
  req := plainRequest
  cbs := none
  cancel := none
  stream := false

/-- A short value is honoured. -/
theorem chat_retryAfter_seven : ∃ t ∈ (delayedCall (ascii "7")).trips 0 ⟨(), []⟩,
    (delayedCall (ascii "7")).Honours (ascii "7")
      ((delayedCall (ascii "7")).roundTrip t.1 t.2).o.retryAfterMs := by
  obtain ⟨-, hall⟩ := chat_retryAfter_iff (delayedCall (ascii "7")) 0 ()
  have htrips : ((delayedCall (ascii "7")).trips 0 ⟨(), []⟩).map (fun t =>
      (((delayedCall (ascii "7")).entry t.1 t.2).errorClass,
        (retryAfters ((delayedCall (ascii "7")).asked t.1 t.2)).getLast?)) =
      List.replicate 3 (.retrySame, some (ascii "7")) := by
    decide +kernel
  obtain ⟨t, ht, hfacts⟩ := List.mem_map.mp (htrips ▸ List.mem_replicate.mpr ⟨by decide, rfl⟩)
  simp only [Prod.mk.injEq] at hfacts
  exact ⟨t, ht, (hall t ht hfacts.1 (ascii "7") hfacts.2).mpr (.whole rfl)⟩

/-- The number 7 behind 63 zeros. -/
def paddedSeven : Bytes :=
  List.replicate 63 48 ++ ascii "7"

/-- It is honoured as 0. -/
theorem chat_retryAfter_cut : ∃ t ∈ (delayedCall paddedSeven).trips 0 ⟨(), []⟩,
    ((delayedCall paddedSeven).entry t.1 t.2).errorClass = .retrySame ∧
      (retryAfters ((delayedCall paddedSeven).asked t.1 t.2)).getLast? = some paddedSeven ∧
      SpellsNumber paddedSeven 7 ∧
      ¬ (delayedCall paddedSeven).Honours paddedSeven
        ((delayedCall paddedSeven).roundTrip t.1 t.2).o.retryAfterMs := by
  have htrips : ((delayedCall paddedSeven).trips 0 ⟨(), []⟩).map (fun t =>
      (((delayedCall paddedSeven).entry t.1 t.2).errorClass,
        (retryAfters ((delayedCall paddedSeven).asked t.1 t.2)).getLast?,
        ((delayedCall paddedSeven).roundTrip t.1 t.2).o.retryAfterMs)) =
      List.replicate 3 (.retrySame, some paddedSeven, 0) := by
    decide +kernel
  obtain ⟨t, ht, hfacts⟩ := List.mem_map.mp (htrips ▸ List.mem_replicate.mpr ⟨by decide, rfl⟩)
  simp only [Prod.mk.injEq] at hfacts
  obtain ⟨hclass, hlast, hdelay⟩ := hfacts
  refine ⟨t, ht, hclass, hlast, ?_, fun hhonours => ?_⟩
  · exact ⟨[], paddedSeven, [], by simp, by simp, by decide, by decide +kernel, by simp,
      by decide +kernel⟩
  · rw [hdelay] at hhonours
    exact absurd hhonours.whole (by decide +kernel)

end Plain

end Sicha
