import Sicha.Lib.Utf8
import Sicha.Request.Text

/-!
# Strict UTF-8

The scan of {lit}`sicha_utf8_valid` over memory, with the indices it reads, and what it
accepts.

Main results:

- Definition {lit}`utf8Scan`: the scan with its reads.
- Theorem {lit}`utf8Scan_eq`: the scan decides {lit}`utf8Valid` of the bytes it is given.
- Theorem {lit}`sichaUtf8Valid_iff`: it accepts the texts of UTF-8, and reads only the bytes
  it is given.
-/

namespace Sicha

/-! ## What is accepted -/

/-- A continuation byte is a tail of the grammar. -/
theorem isCont_iff (b : UInt8) : isCont b = true ↔ Utf8.Tail b := by
  have hall : ∀ n < 256, isCont (UInt8.ofNat n) = true ↔
      0x80 ≤ (UInt8.ofNat n).toNat ∧ (UInt8.ofNat n).toNat ≤ 0xBF := by
    decide +kernel
  have hb := hall b.toNat b.toNat_lt
  rwa [UInt8.ofNat_toNat] at hb

/-- Any other byte is none. -/
theorem isCont_false (b : UInt8) : isCont b = false ↔ ¬ Utf8.Tail b := by
  rw [← isCont_iff, Bool.not_eq_true]

/-- A bound that one lead byte moves. -/
theorem toNat_ite (a x y z : UInt8) :
    (if a = x then y else z).toNat = if a.toNat = x.toNat then y.toNat else z.toNat := by
  by_cases h : a = x
  · rw [if_pos h, if_pos (congrArg UInt8.toNat h)]
  · rw [if_neg h, if_neg fun hnat => h (UInt8.toNat_inj.mp hnat)]

/-- The test of the second byte. -/
theorem outside_iff (lo hi b : UInt8) (rest : Prop) :
    b < lo ∨ b > hi ∨ ¬ rest ↔ ¬ (lo.toNat ≤ b.toNat ∧ b.toNat ≤ hi.toNat ∧ rest) := by
  rw [gt_iff_lt, UInt8.lt_iff_toNat_lt, UInt8.lt_iff_toNat_lt]
  by_cases h : rest
  · simp only [h, not_true_eq_false, or_false, and_true]
    omega
  · simp [h]

/-- The test of a sequence of three bytes. -/
theorem three_iff (a b c : UInt8) :
    b < (if a = 0xE0 then 0xA0 else 0x80) ∨ b > (if a = 0xED then 0x9F else 0xBF) ∨
      isCont c = false ↔
    ¬ ((if a.toNat = 0xE0 then 0xA0 else 0x80) ≤ b.toNat ∧
      b.toNat ≤ (if a.toNat = 0xED then 0x9F else 0xBF) ∧ Utf8.Tail c) := by
  rw [isCont_false, outside_iff, toNat_ite, toNat_ite]
  rfl

/-- The test of a sequence of four bytes. -/
theorem four_iff (a b c d : UInt8) :
    b < (if a = 0xF0 then 0x90 else 0x80) ∨ b > (if a = 0xF4 then 0x8F else 0xBF) ∨
      isCont c = false ∨ isCont d = false ↔
    ¬ ((if a.toNat = 0xF0 then 0x90 else 0x80) ≤ b.toNat ∧
      b.toNat ≤ (if a.toNat = 0xF4 then 0x8F else 0xBF) ∧ Utf8.Tail c ∧ Utf8.Tail d) := by
  rw [isCont_false, isCont_false, ← not_and_or, outside_iff, toNat_ite, toNat_ite]
  rfl

/-- The order of bytes, from that of their numbers. -/
theorem not_lt_byte {a n : UInt8} (h : n.toNat ≤ a.toNat) : ¬ a < n := by
  rw [UInt8.lt_iff_toNat_lt]
  exact Nat.not_lt.mpr h

/-- The order of their numbers, from that of bytes. -/
theorem le_byte {a n : UInt8} (h : ¬ a < n) : n.toNat ≤ a.toNat := by
  rw [UInt8.lt_iff_toNat_lt] at h
  exact Nat.not_lt.mp h

/-- A character in front does not matter. -/
theorem utf8Valid_seq {first : Bytes} (h : Utf8.Seq first) (rest : Bytes) :
    utf8Valid (first ++ rest) = utf8Valid rest := by
  cases h with
  | @one a ha =>
      change utf8Valid (a :: rest) = _
      conv_lhs => unfold utf8Valid
      rw [if_pos (UInt8.lt_iff_toNat_lt.mpr ha)]
  | @two a b ha ha' hb =>
      change utf8Valid (a :: b :: rest) = _
      conv_lhs => unfold utf8Valid
      rw [if_neg (not_lt_byte (n := 0x80) (show 0x80 ≤ a.toNat by omega)),
        if_neg (not_lt_byte (n := 0xC2) ha),
        if_pos (UInt8.lt_iff_toNat_lt.mpr ha')]
      dsimp only
      rw [if_pos ((isCont_iff b).mpr hb)]
  | @three a b c ha ha' hlo hhi hc =>
      change utf8Valid (a :: b :: c :: rest) = _
      conv_lhs => unfold utf8Valid
      rw [if_neg (not_lt_byte (n := 0x80) (show 0x80 ≤ a.toNat by omega)),
        if_neg (not_lt_byte (n := 0xC2) (show 0xC2 ≤ a.toNat by omega)),
        if_neg (not_lt_byte (n := 0xE0) ha),
        if_pos (UInt8.lt_iff_toNat_lt.mpr ha')]
      exact if_neg fun hbad => (three_iff a b c).mp hbad ⟨hlo, hhi, hc⟩
  | @four a b c d ha ha' hlo hhi hc hd =>
      change utf8Valid (a :: b :: c :: d :: rest) = _
      conv_lhs => unfold utf8Valid
      rw [if_neg (not_lt_byte (n := 0x80) (show 0x80 ≤ a.toNat by omega)),
        if_neg (not_lt_byte (n := 0xC2) (show 0xC2 ≤ a.toNat by omega)),
        if_neg (not_lt_byte (n := 0xE0) (show 0xE0 ≤ a.toNat by omega)),
        if_neg (not_lt_byte (n := 0xF0) ha), if_pos (UInt8.lt_iff_toNat_lt.mpr ha')]
      exact if_neg fun hbad => (four_iff a b c d).mp hbad ⟨hlo, hhi, hc, hd⟩

/-- What is accepted starts with a character. -/
theorem utf8Valid_split {a : UInt8} {bytes : Bytes} (h : utf8Valid (a :: bytes) = true) :
    ∃ first rest, a :: bytes = first ++ rest ∧ Utf8.Seq first ∧ utf8Valid rest = true := by
  unfold utf8Valid at h
  by_cases h1 : a < 0x80
  · rw [if_pos h1] at h
    exact ⟨[a], bytes, rfl, .one (UInt8.lt_iff_toNat_lt.mp h1), h⟩
  rw [if_neg h1] at h
  by_cases h2 : a < 0xC2
  · rw [if_pos h2] at h
    cases h
  rw [if_neg h2] at h
  by_cases h3 : a < 0xE0
  · rw [if_pos h3] at h
    rcases bytes with _ | ⟨b, rest⟩
    · cases h
    · by_cases hcont : isCont b = true
      · exact ⟨[a, b], rest, rfl, .two (le_byte h2) (UInt8.lt_iff_toNat_lt.mp h3)
          ((isCont_iff b).mp hcont), by simpa [hcont] using h⟩
      · simp [hcont] at h
  rw [if_neg h3] at h
  by_cases h4 : a < 0xF0
  · rw [if_pos h4] at h
    rcases bytes with _ | ⟨b, _ | ⟨c, rest⟩⟩
    · cases h
    · cases h
    · by_cases hbad : b < (if a = 0xE0 then 0xA0 else 0x80) ∨
          b > (if a = 0xED then 0x9F else 0xBF) ∨ isCont c = false
      · cases (if_pos hbad).symm.trans h
      · obtain ⟨hlo, hhi, hc⟩ := not_not.mp (mt (three_iff a b c).mpr hbad)
        exact ⟨[a, b, c], rest, rfl, .three (le_byte h3)
          (UInt8.lt_iff_toNat_lt.mp h4) hlo hhi hc, (if_neg hbad).symm.trans h⟩
  rw [if_neg h4] at h
  by_cases h5 : a < 0xF5
  · rw [if_pos h5] at h
    rcases bytes with _ | ⟨b, _ | ⟨c, _ | ⟨d, rest⟩⟩⟩
    · cases h
    · cases h
    · cases h
    · by_cases hbad : b < (if a = 0xF0 then 0x90 else 0x80) ∨
          b > (if a = 0xF4 then 0x8F else 0xBF) ∨ isCont c = false ∨ isCont d = false
      · cases (if_pos hbad).symm.trans h
      · obtain ⟨hlo, hhi, hc, hd⟩ := not_not.mp (mt (four_iff a b c d).mpr hbad)
        exact ⟨[a, b, c, d], rest, rfl, .four (le_byte h4)
          (UInt8.lt_iff_toNat_lt.mp h5) hlo hhi hc hd, (if_neg hbad).symm.trans h⟩
  · rw [if_neg h5] at h
    cases h

/-- A sequence of the grammar has at least one byte. -/
theorem utf8Seq_ne_nil {first : Bytes} (h : Utf8.Seq first) : first ≠ [] := by
  cases h <;> exact List.cons_ne_nil _ _

/-- The accepted byte strings are the texts of UTF-8. -/
theorem utf8Valid_iff (bytes : Bytes) : utf8Valid bytes = true ↔ Utf8.Text bytes := by
  induction hlen : bytes.length using Nat.strong_induction_on generalizing bytes with
  | _ n ih =>
      rcases bytes with _ | ⟨a, bytes⟩
      · exact ⟨fun _ => Utf8.text_nil, fun _ => rfl⟩
      have hshort : ∀ first rest, a :: bytes = first ++ rest → Utf8.Seq first →
          rest.length < n := by
        intro first rest heq hfirst
        have hpos := List.length_pos_iff.mpr (utf8Seq_ne_nil hfirst)
        have hsum := congrArg List.length heq
        rw [hlen, List.length_append] at hsum
        omega
      rw [Utf8.text_cons (List.cons_ne_nil a bytes)]
      constructor
      · intro h
        obtain ⟨first, rest, heq, hfirst, hrest⟩ := utf8Valid_split h
        exact ⟨first, rest, heq, hfirst, (ih _ (hshort _ _ heq hfirst) rest rfl).mp hrest⟩
      · rintro ⟨first, rest, heq, hfirst, hrest⟩
        rw [heq, utf8Valid_seq hfirst]
        exact (ih _ (hshort _ _ heq hfirst) rest rfl).mpr hrest

/-! ## The scan over memory -/

/-- Some reads in front of others. -/
def reading (at' : List Nat) (out : Bool × List Nat) : Bool × List Nat :=
  (out.1, at' ++ out.2)

/-- The loop of {lit}`sicha_utf8_valid` at index {lit}`i` of the memory {lit}`p`, with the
indices it reads. -/
def utf8Scan (p : Nat → UInt8) (len i : Nat) : Bool × List Nat :=
  if i < len then
    let b := p i
    if b < 0x80 then reading [i] (utf8Scan p len (i + 1))
    else if b < 0xC2 then (false, [i])
    else if b < 0xE0 then
      if len - i < 2 then (false, [i])
      else if isCont (p (i + 1)) = false then (false, [i, i + 1])
      else reading [i, i + 1] (utf8Scan p len (i + 2))
    else if b < 0xF0 then
      let lo := if b = 0xE0 then 0xA0 else 0x80
      let hi := if b = 0xED then 0x9F else 0xBF
      if len - i < 3 then (false, [i])
      else if p (i + 1) < lo ∨ p (i + 1) > hi then (false, [i, i + 1])
      else if isCont (p (i + 2)) = false then (false, [i, i + 1, i + 2])
      else reading [i, i + 1, i + 2] (utf8Scan p len (i + 3))
    else if b < 0xF5 then
      let lo := if b = 0xF0 then 0x90 else 0x80
      let hi := if b = 0xF4 then 0x8F else 0xBF
      if len - i < 4 then (false, [i])
      else if p (i + 1) < lo ∨ p (i + 1) > hi then (false, [i, i + 1])
      else if isCont (p (i + 2)) = false then (false, [i, i + 1, i + 2])
      else if isCont (p (i + 3)) = false then (false, [i, i + 1, i + 2, i + 3])
      else reading [i, i + 1, i + 2, i + 3] (utf8Scan p len (i + 4))
    else (false, [i])
  else (true, [])
termination_by len - i

/-- {lit}`sicha_utf8_valid`, with the indices it reads. -/
def sichaUtf8Valid (bytes : Option (Nat → UInt8)) (len : Nat) : Bool × List Nat :=
  match bytes with
  | none => (len == 0, [])
  | some p => utf8Scan p len 0

/-- The bytes of a memory from an index up to another. -/
def bytesFrom (p : Nat → UInt8) (len i : Nat) : Bytes :=
  (List.range' i (len - i)).map p

/-- Behind the end nothing is read. -/
theorem bytesFrom_end {p : Nat → UInt8} {len i : Nat} (h : ¬ i < len) : bytesFrom p len i = [] := by
  unfold bytesFrom
  rw [Nat.sub_eq_zero_of_le (Nat.not_lt.mp h)]
  rfl

/-- Before the end one byte is read, and then the rest. -/
theorem bytesFrom_cons {p : Nat → UInt8} {len i : Nat} (h : i < len) :
    bytesFrom p len i = p i :: bytesFrom p len (i + 1) := by
  unfold bytesFrom
  rw [show len - i = len - (i + 1) + 1 by omega, List.range'_succ]
  rfl

/-- The scan reads only below its length. -/
theorem utf8Scan_reads (p : Nat → UInt8) (len i : Nat) : ∀ j ∈ (utf8Scan p len i).2, j < len := by
  fun_induction utf8Scan p len i <;> simp only [reading, List.mem_append, List.mem_cons,
    List.not_mem_nil, or_false] <;> grind

/-- The scan decides {lit}`utf8Valid` of the bytes it is given. -/
theorem utf8Scan_eq (p : Nat → UInt8) (len i : Nat) :
    (utf8Scan p len i).1 = utf8Valid (bytesFrom p len i) := by
  fun_induction utf8Scan p len i with
  | case1 i h b h1 ih =>
      rw [bytesFrom_cons h]
      conv_rhs => unfold utf8Valid
      rw [if_pos h1]
      exact ih
  | case2 i h b h1 h2 =>
      rw [bytesFrom_cons h]
      conv_rhs => unfold utf8Valid
      rw [if_neg h1, if_pos h2]
  | case3 i h b h1 h2 h3 hlen =>
      rw [bytesFrom_cons h, bytesFrom_end (by omega)]
      conv_rhs => unfold utf8Valid
      rw [if_neg h1, if_neg h2, if_pos h3]
  | case4 i h b h1 h2 h3 hlen hcont =>
      rw [bytesFrom_cons h, bytesFrom_cons (by omega)]
      conv_rhs => unfold utf8Valid
      rw [if_neg h1, if_neg h2, if_pos h3]
      exact (if_neg (by rw [hcont]; decide)).symm
  | case5 i h b h1 h2 h3 hlen hcont ih =>
      rw [bytesFrom_cons h, bytesFrom_cons (by omega)]
      conv_rhs => unfold utf8Valid
      rw [if_neg h1, if_neg h2, if_pos h3]
      exact ih.trans (if_pos (by simpa using hcont)).symm
  | case6 i h b h1 h2 h3 h4 hlen =>
      rw [bytesFrom_cons h]
      conv_rhs => unfold utf8Valid
      rw [if_neg h1, if_neg h2, if_neg h3, if_pos h4]
      by_cases hsecond : i + 1 < len
      · rw [bytesFrom_cons hsecond, bytesFrom_end (by omega)]
      · rw [bytesFrom_end hsecond]
  | case7 i h b h1 h2 h3 h4 lo hi hlen hout =>
      rw [bytesFrom_cons h, bytesFrom_cons (by omega), bytesFrom_cons (by omega)]
      conv_rhs => unfold utf8Valid
      rw [if_neg h1, if_neg h2, if_neg h3, if_pos h4]
      exact (if_pos (hout.elim .inl fun hhi => .inr (.inl hhi))).symm
  | case8 i h b h1 h2 h3 h4 lo hi hlen hout hcont =>
      rw [bytesFrom_cons h, bytesFrom_cons (by omega), bytesFrom_cons (by omega)]
      conv_rhs => unfold utf8Valid
      rw [if_neg h1, if_neg h2, if_neg h3, if_pos h4]
      exact (if_pos (.inr (.inr hcont))).symm
  | case9 i h b h1 h2 h3 h4 lo hi hlen hout hcont ih =>
      rw [bytesFrom_cons h, bytesFrom_cons (by omega), bytesFrom_cons (by omega)]
      conv_rhs => unfold utf8Valid
      rw [if_neg h1, if_neg h2, if_neg h3, if_pos h4]
      refine ih.trans (if_neg ?_).symm
      rintro (hlo | hhi | hc)
      · exact hout (.inl hlo)
      · exact hout (.inr hhi)
      · exact hcont hc
  | case10 i h b h1 h2 h3 h4 h5 hlen =>
      rw [bytesFrom_cons h]
      conv_rhs => unfold utf8Valid
      rw [if_neg h1, if_neg h2, if_neg h3, if_neg h4, if_pos h5]
      by_cases hsecond : i + 1 < len
      · rw [bytesFrom_cons hsecond]
        by_cases hthird : i + 1 + 1 < len
        · rw [bytesFrom_cons hthird, bytesFrom_end (by omega)]
        · rw [bytesFrom_end hthird]
      · rw [bytesFrom_end hsecond]
  | case11 i h b h1 h2 h3 h4 h5 lo hi hlen hout =>
      rw [bytesFrom_cons h, bytesFrom_cons (by omega), bytesFrom_cons (by omega),
        bytesFrom_cons (by omega)]
      conv_rhs => unfold utf8Valid
      rw [if_neg h1, if_neg h2, if_neg h3, if_neg h4, if_pos h5]
      exact (if_pos (hout.elim .inl fun hhi => .inr (.inl hhi))).symm
  | case12 i h b h1 h2 h3 h4 h5 lo hi hlen hout hcont =>
      rw [bytesFrom_cons h, bytesFrom_cons (by omega), bytesFrom_cons (by omega),
        bytesFrom_cons (by omega)]
      conv_rhs => unfold utf8Valid
      rw [if_neg h1, if_neg h2, if_neg h3, if_neg h4, if_pos h5]
      exact (if_pos (.inr (.inr (.inl hcont)))).symm
  | case13 i h b h1 h2 h3 h4 h5 lo hi hlen hout hcont hlast =>
      rw [bytesFrom_cons h, bytesFrom_cons (by omega), bytesFrom_cons (by omega),
        bytesFrom_cons (by omega)]
      conv_rhs => unfold utf8Valid
      rw [if_neg h1, if_neg h2, if_neg h3, if_neg h4, if_pos h5]
      exact (if_pos (.inr (.inr (.inr hlast)))).symm
  | case14 i h b h1 h2 h3 h4 h5 lo hi hlen hout hcont hlast ih =>
      rw [bytesFrom_cons h, bytesFrom_cons (by omega), bytesFrom_cons (by omega),
        bytesFrom_cons (by omega)]
      conv_rhs => unfold utf8Valid
      rw [if_neg h1, if_neg h2, if_neg h3, if_neg h4, if_pos h5]
      refine ih.trans (if_neg ?_).symm
      rintro (hlo | hhi | hc | hc)
      · exact hout (.inl hlo)
      · exact hout (.inr hhi)
      · exact hcont hc
      · exact hlast hc
  | case15 i h b h1 h2 h3 h4 h5 =>
      rw [bytesFrom_cons h]
      conv_rhs => unfold utf8Valid
      rw [if_neg h1, if_neg h2, if_neg h3, if_neg h4, if_neg h5]
  | case16 i h =>
      rw [bytesFrom_end h]
      rfl

/-- Strict UTF-8: of every memory and length, accepted are exactly the texts, and no byte at
or past the length is read. -/
theorem sichaUtf8Valid_iff (p : Nat → UInt8) (len : Nat) :
    ((sichaUtf8Valid (some p) len).1 = true ↔
      ∃ chars : List Char, (List.range len).map p = chars.flatMap String.utf8EncodeChar) ∧
    ∀ j ∈ (sichaUtf8Valid (some p) len).2, j < len := by
  refine ⟨?_, utf8Scan_reads p len 0⟩
  have hbytes : bytesFrom p len 0 = (List.range len).map p := by
    rw [bytesFrom, List.range_eq_range', Nat.sub_zero]
  change (utf8Scan p len 0).1 = true ↔ _
  rw [utf8Scan_eq, hbytes, utf8Valid_iff]
  rfl

end Sicha
