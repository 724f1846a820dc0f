import Mathlib.Data.List.Basic
import Mathlib.Tactic.SplitIfs

/-!
# The byte sequences of UTF-8

The well-formed byte sequences of one character, in the ranges a decoder tests, and their
agreement with the encoding of the scalar values.

Main results:

- Theorem {lit}`seq_iff`: the well-formed sequences are the encodings of the scalar values.
- Theorem {lit}`text_cons`: a text starts with a character or is empty.
-/

namespace Utf8

/-- A continuation byte. -/
def Tail (b : UInt8) : Prop :=
  0x80 ≤ b.toNat ∧ b.toNat ≤ 0xBF

/-- The well-formed sequences of one character.  The second byte excludes overlong forms,
surrogates, and what lies past the last scalar value. -/
inductive Seq : List UInt8 → Prop
  | one {a : UInt8} (ha : a.toNat < 0x80) : Seq [a]
  | two {a b : UInt8} (ha : 0xC2 ≤ a.toNat) (ha' : a.toNat < 0xE0) (hb : Tail b) : Seq [a, b]
  | three {a b c : UInt8} (ha : 0xE0 ≤ a.toNat) (ha' : a.toNat < 0xF0)
      (hlo : (if a.toNat = 0xE0 then 0xA0 else 0x80) ≤ b.toNat)
      (hhi : b.toNat ≤ if a.toNat = 0xED then 0x9F else 0xBF) (hc : Tail c) : Seq [a, b, c]
  | four {a b c d : UInt8} (ha : 0xF0 ≤ a.toNat) (ha' : a.toNat < 0xF5)
      (hlo : (if a.toNat = 0xF0 then 0x90 else 0x80) ≤ b.toNat)
      (hhi : b.toNat ≤ if a.toNat = 0xF4 then 0x8F else 0xBF) (hc : Tail c) (hd : Tail d) :
      Seq [a, b, c, d]

/-- A text: the encodings of some scalar values, one after the other. -/
def Text (bytes : List UInt8) : Prop :=
  ∃ chars : List Char, bytes = chars.flatMap String.utf8EncodeChar

/-! ## Encodings are well formed -/

/-- A number below 256 survives as a byte. -/
theorem toNat_ofNat {n : Nat} (h : n < 256) : (UInt8.ofNat n).toNat = n := by
  rw [UInt8.toNat_ofNat']
  exact Nat.mod_eq_of_lt h

/-- The scalar values. -/
theorem char_range (c : Char) :
    c.val.toNat < 0xD800 ∨ 0xDFFF < c.val.toNat ∧ c.val.toNat < 0x110000 :=
  c.valid

/-- The encoding of a scalar value is well formed. -/
theorem seq_encode (c : Char) : Seq (String.utf8EncodeChar c) := by
  have hrange := char_range c
  unfold String.utf8EncodeChar
  generalize c.val.toNat = v at hrange
  dsimp only
  split_ifs with h1 h2 h3
  · refine .one ?_
    rw [toNat_ofNat (by omega)]
    omega
  · refine .two ?_ ?_ ⟨?_, ?_⟩ <;> rw [toNat_ofNat (by omega)] <;> omega
  · have ha : (UInt8.ofNat (v / 4096 % 16 + 224)).toNat = v / 4096 % 16 + 224 :=
      toNat_ofNat (by omega)
    have hb : (UInt8.ofNat (v / 64 % 64 + 128)).toNat = v / 64 % 64 + 128 :=
      toNat_ofNat (by omega)
    refine .three ?_ ?_ ?_ ?_ ⟨?_, ?_⟩
    · omega
    · omega
    · rw [ha, hb]
      split_ifs <;> omega
    · rw [ha, hb]
      split_ifs <;> omega
    · rw [toNat_ofNat (by omega)]
      omega
    · rw [toNat_ofNat (by omega)]
      omega
  · have ha : (UInt8.ofNat (v / 262144 % 8 + 240)).toNat = v / 262144 % 8 + 240 :=
      toNat_ofNat (by omega)
    have hb : (UInt8.ofNat (v / 4096 % 64 + 128)).toNat = v / 4096 % 64 + 128 :=
      toNat_ofNat (by omega)
    refine .four ?_ ?_ ?_ ?_ ⟨?_, ?_⟩ ⟨?_, ?_⟩
    · omega
    · omega
    · rw [ha, hb]
      split_ifs <;> omega
    · rw [ha, hb]
      split_ifs <;> omega
    · rw [toNat_ofNat (by omega)]
      omega
    · rw [toNat_ofNat (by omega)]
      omega
    · rw [toNat_ofNat (by omega)]
      omega
    · rw [toNat_ofNat (by omega)]
      omega

/-! ## Well-formed sequences are encodings -/

/-- A scalar value of a given number. -/
theorem exists_char {v : Nat} (h : v < 0xD800 ∨ 0xDFFF < v ∧ v < 0x110000) :
    ∃ c : Char, c.val.toNat = v := by
  have hsmall : v < 2 ^ 32 := by omega
  have hval : (UInt32.ofNat v).toNat = v := by
    rw [UInt32.toNat_ofNat']
    exact Nat.mod_eq_of_lt hsmall
  exact ⟨⟨UInt32.ofNat v, by rw [UInt32.isValidChar, hval]; exact h⟩, hval⟩

/-- A byte is given by its number. -/
theorem ofNat_eq {n : Nat} {b : UInt8} (h : n = b.toNat) : UInt8.ofNat n = b := by
  rw [h, UInt8.ofNat_toNat]

/-- A well-formed sequence is the encoding of a scalar value. -/
theorem Seq.encodes {bytes : List UInt8} (h : Seq bytes) :
    ∃ c : Char, bytes = String.utf8EncodeChar c := by
  cases h with
  | @one a ha =>
      obtain ⟨c, hc⟩ := @exists_char a.toNat (by omega)
      refine ⟨c, ?_⟩
      unfold String.utf8EncodeChar
      rw [hc]
      dsimp only
      rw [if_pos (by omega), UInt8.ofNat_toNat]
  | @two a b ha ha' hb =>
      obtain ⟨hb, hb'⟩ := hb
      obtain ⟨c, hc⟩ := @exists_char ((a.toNat - 0xC0) * 64 + (b.toNat - 0x80)) (by omega)
      refine ⟨c, ?_⟩
      unfold String.utf8EncodeChar
      rw [hc]
      dsimp only
      rw [if_neg (by omega), if_pos (by omega), ofNat_eq (b := a) (by omega),
        ofNat_eq (b := b) (by omega)]
  | @three a b c ha ha' hlo hhi hc =>
      obtain ⟨hc, hc'⟩ := hc
      have hv : (a.toNat - 0xE0) * 4096 + (b.toNat - 0x80) * 64 + (c.toNat - 0x80) < 0xD800 ∨
          0xDFFF < (a.toNat - 0xE0) * 4096 + (b.toNat - 0x80) * 64 + (c.toNat - 0x80) ∧
          (a.toNat - 0xE0) * 4096 + (b.toNat - 0x80) * 64 + (c.toNat - 0x80) < 0x110000 := by
        split_ifs at hlo hhi <;> omega
      have hb : 0x80 ≤ b.toNat ∧ b.toNat ≤ 0xBF ∧ (a.toNat = 0xE0 → 0xA0 ≤ b.toNat) := by
        split_ifs at hlo hhi <;> omega
      obtain ⟨ch, hch⟩ := exists_char hv
      refine ⟨ch, ?_⟩
      unfold String.utf8EncodeChar
      rw [hch]
      dsimp only
      rw [if_neg (by omega), if_neg (by omega), if_pos (by omega), ofNat_eq (b := a) (by omega),
        ofNat_eq (b := b) (by omega), ofNat_eq (b := c) (by omega)]
  | @four a b c d ha ha' hlo hhi hc hd =>
      obtain ⟨hc, hc'⟩ := hc
      obtain ⟨hd, hd'⟩ := hd
      have hb : 0x80 ≤ b.toNat ∧ b.toNat ≤ 0xBF ∧ (a.toNat = 0xF0 → 0x90 ≤ b.toNat) ∧
          (a.toNat = 0xF4 → b.toNat ≤ 0x8F) := by
        split_ifs at hlo hhi <;> omega
      obtain ⟨ch, hch⟩ := @exists_char ((a.toNat - 0xF0) * 262144 + (b.toNat - 0x80) * 4096 +
        (c.toNat - 0x80) * 64 + (d.toNat - 0x80)) (by omega)
      refine ⟨ch, ?_⟩
      unfold String.utf8EncodeChar
      rw [hch]
      dsimp only
      rw [if_neg (by omega), if_neg (by omega), if_neg (by omega), ofNat_eq (b := a) (by omega),
        ofNat_eq (b := b) (by omega), ofNat_eq (b := c) (by omega), ofNat_eq (b := d) (by omega)]

/-- The well-formed sequences are the encodings of the scalar values. -/
theorem seq_iff {bytes : List UInt8} : Seq bytes ↔ ∃ c : Char, bytes = String.utf8EncodeChar c := by
  constructor
  · exact Seq.encodes
  · rintro ⟨c, rfl⟩
    exact seq_encode c

/-! ## Texts -/

/-- The empty text is one. -/
theorem text_nil : Text [] :=
  ⟨[], rfl⟩

/-- A text that is not empty starts with a character. -/
theorem text_cons {bytes : List UInt8} (hne : bytes ≠ []) :
    Text bytes ↔ ∃ first rest, bytes = first ++ rest ∧ Seq first ∧ Text rest := by
  constructor
  · rintro ⟨_ | ⟨c, chars⟩, rfl⟩
    · exact absurd rfl hne
    · exact ⟨_, _, rfl, seq_iff.mpr ⟨c, rfl⟩, chars, rfl⟩
  · rintro ⟨first, rest, rfl, hfirst, chars, rfl⟩
    obtain ⟨c, rfl⟩ := seq_iff.mp hfirst
    exact ⟨c :: chars, rfl⟩

end Utf8
