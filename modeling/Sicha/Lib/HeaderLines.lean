import Mathlib.Data.List.Basic
import Mathlib.Tactic.SplitIfs

/-!
# Header lines

The text of a list of fields, as line-based protocols write them: the name, a colon and a
space, the value, and CRLF.  A reader of the text cuts it at every CRLF and each line at
its first colon, and drops one space.

Main results:

- Theorem {lit}`parse_text`: the reader finds exactly the written fields, if no name holds a
  colon and neither names nor values hold a CR.
-/

namespace HeaderLines

/-- A name and a value. -/
abbrev Field := List UInt8 × List UInt8

/-- One line, without its end. -/
def line (f : Field) : List UInt8 :=
  f.1 ++ [58, 32] ++ f.2

/-- The fields as text, every line ended by CRLF. -/
def text (fields : List Field) : List UInt8 :=
  fields.flatMap fun f => line f ++ [13, 10]

/-- The lines of a text whose current line has begun with {lit}`cur`, cut at every CRLF. -/
def linesFrom : List UInt8 → List UInt8 → List (List UInt8)
  | cur, [] => if cur = [] then [] else [cur]
  | cur, 13 :: 10 :: rest => cur :: linesFrom [] rest
  | cur, b :: rest => linesFrom (cur ++ [b]) rest

/-- Drop one leading space. -/
def dropSpace : List UInt8 → List UInt8
  | 32 :: rest => rest
  | s => s

/-- The field of a line, cut at its first colon. -/
def parseLine (l : List UInt8) : Field :=
  (l.takeWhile (· != 58), dropSpace (l.dropWhile (· != 58)).tail)

/-- The fields of a text. -/
def parse (s : List UInt8) : List Field :=
  (linesFrom [] s).map parseLine

/-- A field that cannot be mistaken for another, or for more than one. -/
structure Clean (f : Field) : Prop where
  noColon : 58 ∉ f.1
  name : 13 ∉ f.1
  value : 13 ∉ f.2

/-- A byte that is no CR belongs to the line that has begun. -/
theorem linesFrom_other (cur rest : List UInt8) {b : UInt8} (hb : b ≠ 13) :
    linesFrom cur (b :: rest) = linesFrom (cur ++ [b]) rest := by
  rw [linesFrom]
  rintro _ rfl _
  exact hb rfl

/-- A line without CR is read up to the CRLF behind it. -/
theorem linesFrom_line {l : List UInt8} (hl : 13 ∉ l) (cur rest : List UInt8) :
    linesFrom cur (l ++ 13 :: 10 :: rest) = (cur ++ l) :: linesFrom [] rest := by
  induction l generalizing cur with
  | nil => simp [linesFrom]
  | cons b l ih =>
      rw [List.mem_cons, not_or] at hl
      rw [List.cons_append, linesFrom_other _ _ (Ne.symm hl.1), ih hl.2, List.append_assoc]
      rfl

/-- The line of a clean field has no CR. -/
theorem line_noCr {f : Field} (hf : Clean f) : 13 ∉ line f := by
  simp [line, hf.name, hf.value]

/-- The line of a clean field reads back as the field. -/
theorem parseLine_line {f : Field} (hf : Clean f) : parseLine (line f) = f := by
  have hname : ∀ b ∈ f.1, (b != 58) = true := by
    intro b hb
    simp only [bne_iff_ne]
    rintro rfl
    exact hf.noColon hb
  have hsplit : line f = f.1 ++ 58 :: 32 :: f.2 := by simp [line]
  have htake : (line f).takeWhile (· != 58) = f.1 := by
    rw [hsplit, List.takeWhile_append_of_pos hname]
    simp
  have hdrop : (line f).dropWhile (· != 58) = 58 :: 32 :: f.2 := by
    rw [hsplit, List.dropWhile_append_of_pos hname]
    simp
  unfold parseLine
  rw [htake, hdrop]
  rfl

/-- Clean fields survive the way over the text. -/
theorem parse_text {fields : List Field} (h : ∀ f ∈ fields, Clean f) :
    parse (text fields) = fields := by
  induction fields with
  | nil => rfl
  | cons f fields ih =>
      have hf := h f (by simp)
      have hrest := ih fun g hg => h g (by simp [hg])
      have htext : text (f :: fields) = line f ++ 13 :: 10 :: text fields := by
        simp [text]
      unfold parse at hrest ⊢
      rw [htext, linesFrom_line (line_noCr hf), List.map_cons, hrest, List.nil_append,
        parseLine_line hf]

end HeaderLines
