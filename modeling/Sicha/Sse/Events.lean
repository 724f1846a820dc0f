import Sicha.Sse

/-!
# The meaning of a whole event stream

The reference reads a stream at once: it drops one byte order mark, splits the
rest into lines, and collects the values of the {lit}`data` fields between blank
lines.

Main results:

- Definition {lit}`sseBatch`: the events of a byte string.
- Theorem {lit}`sseField_spec`: the parser splits a line where the reference does.
- Theorem {lit}`batchEvents_append`: the events of lines that come in two parts.
-/

namespace Sicha

/-! ## The reference -/

/-- Drop one leading byte order mark. -/
def dropBom : Bytes → Bytes
  | 0xEF :: 0xBB :: 0xBF :: rest => rest
  | s => s

/-- The lines of a stream whose current line has begun with {lit}`cur`: CRLF, CR and
LF end a line, and a non-empty unterminated rest counts as one. -/
def linesFrom : Bytes → Bytes → List Bytes
  | cur, [] => if cur = [] then [] else [cur]
  | cur, 13 :: 10 :: rest => cur :: linesFrom [] rest
  | cur, ch :: rest =>
      if ch = chCR ∨ ch = chLF then cur :: linesFrom [] rest else linesFrom (cur ++ [ch]) rest

/-- The bytes before the first colon; the whole line if it has none. -/
def fieldName (line : Bytes) : Bytes :=
  line.takeWhile (· != chColon)

/-- The bytes behind the first colon, without one leading space; empty if there is no
colon. -/
def fieldValue (line : Bytes) : Bytes :=
  match line.dropWhile (· != chColon) with
  | _ :: ch :: value => if ch = chSpace then value else ch :: value
  | _ => []

/-- The event of the values collected since the last one. -/
def emit (vals : List Bytes) : List Bytes :=
  if vals = [] then [] else [[chLF].intercalate vals]

/-- What one line does to the collected values, and what it emits. -/
def batchLine (vals : List Bytes) (line : Bytes) : List Bytes × List Bytes :=
  if line = [] then ([], emit vals)
  else if line.head? = some chColon then (vals, [])
  else if fieldName line = ascii "data" then (vals ++ [fieldValue line], [])
  else (vals, [])

/-- The events of a list of lines; the end of input emits like an empty line. -/
def batchEvents : List Bytes → List Bytes → List Bytes
  | vals, [] => emit vals
  | vals, line :: lines =>
      (batchLine vals line).2 ++ batchEvents (batchLine vals line).1 lines

/-- The events of a byte string. -/
def sseBatch (s : Bytes) : List Bytes :=
  batchEvents [] (linesFrom [] (dropBom s))

example : sseBatch (ascii "data: a\r\ndata: b\n\r\ndata\n") = [ascii "a\nb", []] := by decide

/-! ## Lines -/

/-- The rest of a CRLF pair whose CR has been read. -/
def dropLf : Bytes → Bytes
  | 10 :: rest => rest
  | s => s

/-- A CR ends the line, and an LF behind it belongs to it. -/
theorem linesFrom_cr (cur rest : Bytes) :
    linesFrom cur (chCR :: rest) = cur :: linesFrom [] (dropLf rest) := by
  unfold dropLf
  split
  · simp [linesFrom, chCR]
  · rename_i hrest
    rw [linesFrom]
    · simp
    · intro rest' _ hlf
      exact hrest rest' hlf

/-- An LF ends the line. -/
theorem linesFrom_lf (cur rest : Bytes) :
    linesFrom cur (chLF :: rest) = cur :: linesFrom [] rest := by
  rw [linesFrom]
  · simp
  · simp [chLF]

/-- Any other byte belongs to the line. -/
theorem linesFrom_other (cur rest : Bytes) {ch : UInt8} (hch : ¬ (ch = chCR ∨ ch = chLF)) :
    linesFrom cur (ch :: rest) = linesFrom (cur ++ [ch]) rest := by
  rw [linesFrom]
  · rw [if_neg hch]
  · intro rest' hcr
    exact absurd (.inl hcr) hch

/-- Bytes without a line end belong to the line. -/
theorem linesFrom_append {xs : Bytes} (hxs : ∀ ch ∈ xs, ¬ (ch = chCR ∨ ch = chLF))
    (cur rest : Bytes) : linesFrom cur (xs ++ rest) = linesFrom (cur ++ xs) rest := by
  induction xs generalizing cur with
  | nil => simp
  | cons ch xs ih =>
      rw [List.cons_append, linesFrom_other cur _ (hxs ch List.mem_cons_self),
        ih fun c hc => hxs c (List.mem_cons_of_mem _ hc), List.append_assoc]
      rfl

/-- The mark holds no line end. -/
theorem bom_take_plain (k : Nat) : ∀ ch ∈ bom.take k, ¬ (ch = chCR ∨ ch = chLF) := by
  have hbom : ∀ ch ∈ bom, ¬ (ch = chCR ∨ ch = chLF) := by simp [bom, chCR, chLF]
  intro ch hch
  exact hbom ch (List.mem_of_mem_take hch)

/-- An incomplete byte order mark is payload. -/
theorem dropBom_held {k : Nat} (hk : k < 3) {rest : Bytes} (hrest : rest.head? ≠ bom[k]?) :
    dropBom (bom.take k ++ rest) = bom.take k ++ rest := by
  unfold dropBom
  split
  · rename_i rest' hmark
    have hlen : (bom.take k).length = k := by
      simp [bom]
      omega
    have hmark' : bom.take k ++ rest = bom ++ rest' := hmark
    have hdrop := congrArg (List.drop k) hmark'
    rw [List.drop_append_of_le_length hlen.ge, List.drop_eq_nil_of_le hlen.le,
      List.drop_append_of_le_length (by simp [bom]; omega), List.nil_append] at hdrop
    have hhead : rest.head? = bom[k]? := by
      rw [hdrop]
      match k, hk with
      | 0, _ => rfl
      | 1, _ => rfl
      | 2, _ => rfl
    exact absurd hhead hrest
  · rfl

/-! ## Fields -/

/-- Where {lit}`memchr` finds the colon is where the reference splits. -/
theorem colon_split (line : Bytes) :
    match line.findIdx? (· == chColon) with
    | none => line.takeWhile (· != chColon) = line ∧ line.dropWhile (· != chColon) = []
    | some colon =>
        line.takeWhile (· != chColon) = line.take colon ∧ colon < line.length ∧
          line.dropWhile (· != chColon) = chColon :: line.drop (colon + 1) := by
  induction line with
  | nil => simp
  | cons ch rest ih =>
      rw [List.findIdx?_cons]
      by_cases hch : ch = chColon
      · simp [hch]
      · cases hrest : rest.findIdx? (· == chColon) with
        | none =>
            rw [hrest] at ih
            simp [hch, ih.1, ih.2]
        | some colon =>
            rw [hrest] at ih
            simp [hch, ih.1, ih.2.1, ih.2.2]

/-- {lit}`sseField` splits a line where the reference does. -/
theorem sseField_spec (line : Bytes) :
    fieldName line = line.take (sseField line).1 ∧ (sseField line).1 ≤ line.length ∧
      fieldValue line = (sseField line).2 := by
  have hsplit := colon_split line
  unfold fieldName fieldValue sseField
  cases hcolon : line.findIdx? (· == chColon) with
  | none =>
      rw [hcolon] at hsplit
      simp [hsplit.1, hsplit.2]
  | some colon =>
      rw [hcolon] at hsplit
      rcases hsplit with ⟨hname, hlt, hvalue⟩
      rw [hname, hvalue]
      dsimp only
      cases line.drop (colon + 1) with
      | nil => exact ⟨rfl, hlt.le, rfl⟩
      | cons ch value =>
          by_cases hspace : ch = chSpace
          · simp [hspace, hlt.le]
          · simp [hspace, hlt.le]

/-- The parser finds the name of the field. -/
theorem fieldName_length (line : Bytes) : (fieldName line).length = (sseField line).1 := by
  rcases sseField_spec line with ⟨hname, hle, -⟩
  rw [hname, List.length_take, min_eq_left hle]

/-- The parser collects the fields with the name {lit}`data`. -/
theorem isDataField_iff (line : Bytes) :
    isDataField line = true ↔ fieldName line = ascii "data" := by
  have hname := (sseField_spec line).1
  have hlen := fieldName_length line
  simp only [isDataField, Bool.and_eq_true, beq_iff_eq]
  constructor
  · rintro ⟨hfour, hdata⟩
    rw [hname, hfour, hdata]
  · intro hdata
    have hfour : (sseField line).1 = 4 := by
      rw [← hlen, hdata]
      rfl
    rw [hfour] at hname
    exact ⟨hfour, hname ▸ hdata⟩

/-- The value of a data field is shorter than its line, by the name at least. -/
theorem fieldValue_length {line : Bytes} (h : fieldName line = ascii "data") :
    (fieldValue line).length + 4 ≤ line.length := by
  have hfour : (line.takeWhile (· != chColon)).length = 4 := by
    rw [← fieldName, h]
    rfl
  have hsplit := congrArg List.length 
    (@List.takeWhile_append_dropWhile _ (· != chColon) line)
  rw [List.length_append, hfour] at hsplit
  unfold fieldValue
  split
  · rename_i ch value hdrop
    rw [hdrop] at hsplit
    simp only [List.length_cons] at hsplit
    split_ifs <;> simp <;> omega
  · simp
    omega

/-- What stands before the next value of an event. -/
def joiner (vals : List Bytes) : Bytes :=
  if vals = [] then [] else [chLF]

/-- Between two values there is one byte at most. -/
theorem joiner_length (vals : List Bytes) : (joiner vals).length ≤ 1 := by
  unfold joiner
  split_ifs <;> simp

/-- One more value is joined to those before. -/
theorem intercalate_append (vals : List Bytes) (value : Bytes) :
    [chLF].intercalate (vals ++ [value]) = [chLF].intercalate vals ++ joiner vals ++ value := by
  induction vals with
  | nil => simp [joiner]
  | cons v vals ih =>
      cases vals with
      | nil => simp [joiner]
      | cons v' vals =>
          rw [List.cons_append, List.intercalate_cons_of_ne_nil (by simp), ih,
            List.intercalate_cons_cons]
          simp [joiner]

/-- The bytes a state holds. -/
def held (cur : Bytes) (vals : List Bytes) : Nat :=
  cur.length + ([chLF].intercalate vals).length

/-- A line's value fits where the line was. -/
theorem held_batchLine (vals : List Bytes) (line : Bytes) :
    held [] (batchLine vals line).1 ≤ held [] vals + line.length := by
  unfold batchLine
  split_ifs with hempty hcomment hdata
  · simp [held]
  · simp
  · have hvalue := fieldValue_length hdata
    have hsep := joiner_length vals
    simp only [held, intercalate_append, List.length_append, List.length_nil]
    omega
  · simp

/-! ## The lines of a stream -/

/-- The lines of a stream.  A stream that ends within a byte order mark has none. -/
def streamLines (s : Bytes) : List Bytes :=
  if s <+: bom then [] else linesFrom [] (dropBom s)

/-- The events that lines end, the pending one apart. -/
def dispatched : List Bytes → List Bytes → List Bytes
  | _, [] => []
  | vals, line :: lines => (batchLine vals line).2 ++ dispatched (batchLine vals line).1 lines

/-- The values that lines leave behind for the pending event. -/
def pending (vals : List Bytes) (lines : List Bytes) : List Bytes :=
  lines.foldl (fun vals line => (batchLine vals line).1) vals

/-- The events of two parts in a row: the second begins with the values that the first leaves
open. -/
theorem dispatched_append (vals pre post : List Bytes) :
    dispatched vals (pre ++ post) = dispatched vals pre ++ dispatched (pending vals pre) post := by
  induction pre generalizing vals with
  | nil => rfl
  | cons line pre ih =>
      simp only [List.cons_append, dispatched, ih, List.append_assoc]
      rfl

/-- The values that two parts in a row leave open. -/
theorem pending_append (vals pre post : List Bytes) :
    pending vals (pre ++ post) = pending (pending vals pre) post :=
  List.foldl_append

/-- The events of lines are those of a first part, and those of the rest behind it. -/
theorem batchEvents_append (vals pre post : List Bytes) :
    batchEvents vals (pre ++ post) =
      dispatched vals pre ++ batchEvents (pending vals pre) post := by
  induction pre generalizing vals with
  | nil => rfl
  | cons line pre ih =>
      simp only [List.cons_append, batchEvents, dispatched, ih, List.append_assoc]
      rfl

/-- The events of a stream are those of its lines. -/
theorem sseBatch_streamLines (s : Bytes) : sseBatch s = batchEvents [] (streamLines s) := by
  unfold streamLines
  split_ifs with hmark
  · have hlen : s.length ≤ 3 := hmark.length_le
    rw [List.prefix_iff_eq_take.mp hmark]
    match s.length, hlen with
    | 0, _ => rfl
    | 1, _ => rfl
    | 2, _ => rfl
    | 3, _ => rfl
  · rfl

/-- A line that has been begun goes on. -/
theorem linesFrom_begun {cur : Bytes} (hcur : cur ≠ []) (rest : Bytes) :
    ∃ line lines, linesFrom cur rest = line :: lines ∧ cur.length ≤ line.length := by
  induction rest generalizing cur with
  | nil => exact ⟨cur, [], by simp [linesFrom, hcur], le_rfl⟩
  | cons ch rest ih =>
      by_cases hterm : ch = chCR ∨ ch = chLF
      · rcases hterm with rfl | rfl
        · exact ⟨cur, _, linesFrom_cr cur rest, le_rfl⟩
        · exact ⟨cur, _, linesFrom_lf cur rest, le_rfl⟩
      · have hne : cur ++ [ch] ≠ [] := by simp
        obtain ⟨line, lines, hlines, hle⟩ := ih hne
        rw [List.length_append] at hle
        exact ⟨line, lines, (linesFrom_other cur rest hterm).trans hlines, by omega⟩

/-- Bytes that do not go on with the byte order mark are a line. -/
theorem streamLines_held {k : Nat} (hk : k < 3) {ch : UInt8} (hch : bom[k]? ≠ some ch)
    (rest : Bytes) :
    streamLines (bom.take k ++ ch :: rest) = linesFrom (bom.take k) (ch :: rest) := by
  have hlen : (bom.take k).length = k := by
    simp [bom]
    omega
  have hmark : ¬ bom.take k ++ ch :: rest <+: bom := by
    intro hprefix
    obtain ⟨more, hmore⟩ := hprefix
    have hget := congrArg (fun bytes => bytes[k]?) hmore
    rw [List.append_assoc, List.getElem?_append_right hlen.le, hlen, Nat.sub_self] at hget
    exact hch hget.symm
  rw [streamLines, if_neg hmark, dropBom_held hk (by simpa using Ne.symm hch),
    linesFrom_append (bom_take_plain k), List.nil_append]

/-- Behind a byte order mark the lines are those of the rest. -/
theorem streamLines_bom (rest : Bytes) : streamLines (bom ++ rest) = linesFrom [] rest := by
  unfold streamLines
  split_ifs with hmark
  · have hnone := hmark.length_le
    rw [List.length_append] at hnone
    obtain rfl : rest = [] := List.length_eq_zero_iff.mp (by omega)
    rfl
  · rfl

/-- A stream's lines are no longer than the stream. -/
theorem linesFrom_size (cur rest : Bytes) :
    (linesFrom cur rest).flatten.length ≤ cur.length + rest.length := by
  fun_induction linesFrom cur rest with
  | case1 => simp
  | case2 cur hcur => simp
  | case3 cur rest ih =>
      simp only [List.flatten_cons, List.length_append, List.length_cons, List.length_nil] at ih ⊢
      omega
  | case4 cur ch rest hpair hterm ih =>
      simp only [List.flatten_cons, List.length_append, List.length_cons, List.length_nil] at ih ⊢
      omega
  | case5 cur ch rest hpair hterm ih =>
      simp only [List.length_append, List.length_cons, List.length_nil] at ih ⊢
      omega

/-- Without its mark a stream is no longer. -/
theorem dropBom_size (s : Bytes) : (dropBom s).length ≤ s.length := by
  unfold dropBom
  split
  · simp only [List.length_cons]
    omega
  · exact le_rfl

/-- All lines together are no longer than the stream. -/
theorem streamLines_size (s : Bytes) : (streamLines s).flatten.length ≤ s.length := by
  unfold streamLines
  split_ifs
  · exact Nat.zero_le _
  · have hlines := linesFrom_size [] (dropBom s)
    have hmark := dropBom_size s
    simp only [List.length_nil, Nat.zero_add] at hlines
    omega

/-- The pending event is no longer than its lines. -/
theorem held_pending (vals lines : List Bytes) :
    held [] (pending vals lines) ≤ held [] vals + lines.flatten.length := by
  induction lines generalizing vals with
  | nil => exact le_rfl
  | cons line lines ih =>
      have hrest : held [] (pending vals (line :: lines)) ≤
          held [] (batchLine vals line).1 + lines.flatten.length := ih _
      have hline := held_batchLine vals line
      rw [List.flatten_cons, List.length_append]
      omega

/-- What a stream is made of fits where the stream does: its lines, and the events they go on
with. -/
theorem Fits.parts [SizeT] {cap : Nat} {s line : Bytes} {pre post : List Bytes} (h : Fits cap s)
    (hlines : streamLines s = pre ++ line :: post) :
    Fits cap line ∧ Fits cap ([chLF].intercalate (batchLine (pending [] pre) line).1) := by
  have hsize := streamLines_size s
  have hheld := held_pending [] (pre ++ [line])
  have hpending : pending (pending [] pre) [line] = (batchLine (pending [] pre) line).1 := rfl
  rw [pending_append, hpending] at hheld
  rw [hlines] at hsize
  simp only [held, List.flatten_append, List.flatten_cons, List.flatten_nil, List.append_nil,
    List.length_append, List.length_nil, List.intercalate_nil, Nat.zero_add] at hsize hheld
  exact ⟨h.shorter (by omega), h.shorter (by omega)⟩

end Sicha
