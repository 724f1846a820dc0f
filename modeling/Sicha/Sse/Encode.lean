import Sicha.Sse.Batch

/-!
# Writing an event stream

Events as a server sends them: every piece of a payload between line feeds is one {lit}`data` line,
an empty line ends the event, comments and other fields may stand before any data line, each
event has a line terminator of its own, and a byte order mark may stand before everything.

Main results:

- Definition {lit}`encode`: the text of a list of events.
- Theorem {lit}`sseBatch_encode`: the reference reads the payloads back.
- Theorem {lit}`sseParse_encode`: so does the parser, however the text is cut.
-/

namespace Sicha

/-! ## The text of an event -/

/-- The three ways to end a line. -/
inductive Terminator where
  | lf
  | crlf
  | cr
deriving DecidableEq

/-- The bytes that end a line. -/
def Terminator.bytes : Terminator → Bytes
  | .lf => [chLF]
  | .crlf => [chCR, chLF]
  | .cr => [chCR]

/-- The line of a piece of a payload. -/
def dataLine (piece : Bytes) : Bytes :=
  ascii "data: " ++ piece

/-- The lines of some pieces, each behind the lines that stand before it. -/
def dataLines (before : Nat → List Bytes) : Nat → List Bytes → List Bytes
  | _, [] => []
  | i, piece :: pieces => before i ++ dataLine piece :: dataLines before (i + 1) pieces

/-- An event to send: its payload, its terminator, and the lines before each of its data lines. -/
structure Sent where
  payload : Bytes
  term : Terminator
  before : Nat → List Bytes

/-- The lines of an event, the empty line included. -/
def Sent.lines (e : Sent) : List Bytes :=
  dataLines e.before 0 (e.payload.splitOn chLF) ++ [[]]

/-- Lines as text, each with this end. -/
def linesText (term : Terminator) (lines : List Bytes) : Bytes :=
  lines.flatMap fun line => line ++ term.bytes

/-- Events as text. -/
def eventsText (events : List Sent) : Bytes :=
  events.flatMap fun e => linesText e.term e.lines

/-- Events as text, behind a byte order mark or not. -/
def encode (mark : Bool) (events : List Sent) : Bytes :=
  (if mark then bom else []) ++ eventsText events

/-- A line without an end inside. -/
structure OneLine (line : Bytes) : Prop where
  noCr : chCR ∉ line
  noLf : chLF ∉ line

/-- A line that carries no data: a comment, or a line with another field name that cannot be taken
for the start of a byte order mark. -/
structure Ignored (line : Bytes) : Prop extends OneLine line where
  kind : line.head? = some chColon ∨
    line ≠ [] ∧ line.head? ≠ some 0xEF ∧ fieldName line ≠ ascii "data"

/-- An event that can be sent: no CR in its payload, and lines without data before its data. -/
structure Sent.Clean (e : Sent) : Prop where
  payload : chCR ∉ e.payload
  before : ∀ i, ∀ line ∈ e.before i, Ignored line

/-! ## Its lines -/

/-- A line that is one holds no line end. -/
theorem OneLine.plain {line : Bytes} (h : OneLine line) :
    ∀ ch ∈ line, ¬ (ch = chCR ∨ ch = chLF) := by
  rintro ch hch (rfl | rfl)
  · exact h.noCr hch
  · exact h.noLf hch

/-- In front of what does not begin with LF, such a line does not bring one. -/
theorem OneLine.head {line : Bytes} (h : OneLine line) (rest : Bytes)
    (hrest : rest.head? ≠ some chLF) :
    (line ++ rest).head? ≠ some chLF := by
  cases line with
  | nil => exact hrest
  | cons ch line =>
      rintro hch
      cases hch
      exact h.noLf List.mem_cons_self

/-- A line is read up to its end.  Behind a bare CR no LF may follow. -/
theorem linesFrom_terminated (term : Terminator) {line : Bytes} (hline : OneLine line)
    {rest : Bytes} (hrest : term = .cr → rest.head? ≠ some chLF) :
    linesFrom [] (line ++ term.bytes ++ rest) = line :: linesFrom [] rest := by
  rw [List.append_assoc, linesFrom_append hline.plain, List.nil_append]
  cases term with
  | lf => exact linesFrom_lf line rest
  | crlf => exact linesFrom_cr line (chLF :: rest)
  | cr =>
      have hkeep : dropLf rest = rest := by
        unfold dropLf
        split
        · exact absurd rfl (hrest rfl)
        · rfl
      exact (linesFrom_cr line rest).trans (by rw [hkeep])

/-- The text of lines is read back line by line. -/
theorem linesFrom_text (term : Terminator) {lines : List Bytes}
    (hlines : ∀ line ∈ lines, OneLine line) {rest : Bytes} (hrest : rest.head? ≠ some chLF) :
    linesFrom [] (linesText term lines ++ rest) = lines ++ linesFrom [] rest := by
  induction lines with
  | nil => rfl
  | cons line lines ih =>
      have hlater := fun l hl => hlines l (List.mem_cons_of_mem line hl)
      have hhead : term = .cr → (linesText term lines ++ rest).head? ≠ some chLF := by
        rintro rfl
        cases lines with
        | nil => exact hrest
        | cons next lines =>
            rw [linesText, List.flatMap_cons, List.append_assoc, List.append_assoc]
            exact (hlater next List.mem_cons_self).head (chCR :: _) (by simp [chCR, chLF])
      rw [linesText, List.flatMap_cons, List.append_assoc]
      exact (linesFrom_terminated term (hlines line List.mem_cons_self) hhead).trans
        (by rw [ih hlater]; rfl)

/-- A byte of a piece is a byte of the whole that is no separator. -/
theorem mem_splitOn {ch sep : UInt8} {bytes piece : Bytes} (hpiece : piece ∈ bytes.splitOn sep)
    (hch : ch ∈ piece) : ch ∈ bytes ∧ ch ≠ sep := by
  induction bytes generalizing piece with
  | nil =>
      obtain rfl : piece = [] := by simpa using hpiece
      cases hch
  | cons b bytes ih =>
      rw [List.splitOn_cons_eq_if_modifyHead] at hpiece
      split_ifs at hpiece with hsep
      · rcases List.mem_cons.mp hpiece with rfl | hlater
        · cases hch
        · exact ⟨List.mem_cons_of_mem _ (ih hlater hch).1, (ih hlater hch).2⟩
      · cases hpieces : bytes.splitOn sep with
        | nil => exact absurd hpieces (List.splitOn_ne_nil sep bytes)
        | cons first pieces =>
            rw [hpieces] at hpiece ih
            rcases List.mem_cons.mp hpiece with rfl | hlater
            · rcases List.mem_cons.mp hch with rfl | hfirst
              · exact ⟨List.mem_cons_self, by simpa using hsep⟩
              · have h := ih List.mem_cons_self hfirst
                exact ⟨List.mem_cons_of_mem _ h.1, h.2⟩
            · have h := ih (List.mem_cons_of_mem _ hlater) hch
              exact ⟨List.mem_cons_of_mem _ h.1, h.2⟩

/-- A piece of a clean payload is one line. -/
theorem Sent.Clean.piece {e : Sent} (h : e.Clean) {piece : Bytes}
    (hpiece : piece ∈ e.payload.splitOn chLF) : OneLine piece where
  noCr hch := h.payload (mem_splitOn hpiece hch).1
  noLf hch := (mem_splitOn hpiece hch).2 rfl

/-- The data line of a piece is one line. -/
theorem dataLine_oneLine {piece : Bytes} (h : OneLine piece) : OneLine (dataLine piece) where
  noCr hch := (List.mem_append.mp hch).elim (by decide) h.noCr
  noLf hch := (List.mem_append.mp hch).elim (by decide) h.noLf

/-- So are all data lines, and what is ignored between them. -/
theorem dataLines_oneLine {before : Nat → List Bytes}
    (hbefore : ∀ i, ∀ line ∈ before i, Ignored line) {pieces : List Bytes}
    (hpieces : ∀ piece ∈ pieces, OneLine piece) (i : Nat) :
    ∀ line ∈ dataLines before i pieces, OneLine line := by
  induction pieces generalizing i with
  | nil => exact fun line hline => absurd hline List.not_mem_nil
  | cons piece pieces ih =>
      intro line hline
      rw [dataLines, List.mem_append, List.mem_cons] at hline
      rcases hline with hline | rfl | hline
      · exact (hbefore i line hline).toOneLine
      · exact dataLine_oneLine (hpieces piece List.mem_cons_self)
      · exact ih (fun p hp => hpieces p (List.mem_cons_of_mem _ hp)) (i + 1) line hline

/-- A clean event is sent in lines that are one each. -/
theorem Sent.Clean.oneLine {e : Sent} (h : e.Clean) : ∀ line ∈ e.lines, OneLine line := by
  intro line hline
  rcases List.mem_append.mp hline with hline | hline
  · exact dataLines_oneLine h.before (fun _ => h.piece) 0 line hline
  · obtain rfl := List.mem_singleton.mp hline
    exact ⟨List.not_mem_nil, List.not_mem_nil⟩

/-! ## Its events -/

/-- A line without data changes nothing. -/
theorem batchEvents_ignored (vals : List Bytes) {lines : List Bytes}
    (hlines : ∀ line ∈ lines, Ignored line) (more : List Bytes) :
    batchEvents vals (lines ++ more) = batchEvents vals more := by
  induction lines with
  | nil => rfl
  | cons line lines ih =>
      have hline : batchLine vals line = (vals, []) := by
        unfold batchLine
        rcases (hlines line List.mem_cons_self).kind with hcolon | ⟨hne, -, hname⟩
        · rw [if_neg (by rintro rfl; cases hcolon), if_pos hcolon]
        · rw [if_neg hne, if_neg hname, ite_self]
      rw [List.cons_append, batchEvents, hline]
      exact ih fun l hl => hlines l (List.mem_cons_of_mem _ hl)

/-- A data line adds its piece to the open values. -/
theorem batchLine_dataLine (vals : List Bytes) (piece : Bytes) :
    batchLine vals (dataLine piece) = (vals ++ [piece], []) := by
  have hname : fieldName (dataLine piece) = ascii "data" := rfl
  have hvalue : fieldValue (dataLine piece) = piece := rfl
  unfold batchLine
  rw [if_neg (by simp [dataLine, ascii]), if_neg (by simp [dataLine, ascii, chColon]),
    if_pos hname, hvalue]

/-- The data lines collect the pieces. -/
theorem batchEvents_dataLines {before : Nat → List Bytes}
    (hbefore : ∀ i, ∀ line ∈ before i, Ignored line) (pieces : List Bytes) (i : Nat)
    (vals more : List Bytes) :
    batchEvents vals (dataLines before i pieces ++ more) = batchEvents (vals ++ pieces) more := by
  induction pieces generalizing i vals with
  | nil => rw [dataLines, List.nil_append, List.append_nil]
  | cons piece pieces ih =>
      rw [dataLines, List.append_assoc, batchEvents_ignored _ (hbefore i), List.cons_append,
        batchEvents, batchLine_dataLine, ih, List.append_assoc]
      rfl

/-- The lines of an event emit its payload. -/
theorem batchEvents_lines {e : Sent} (h : e.Clean) (more : List Bytes) :
    batchEvents [] (e.lines ++ more) = e.payload :: batchEvents [] more := by
  rw [Sent.lines, List.append_assoc, batchEvents_dataLines h.before, List.nil_append,
    List.singleton_append, batchEvents]
  have hemit : batchLine (e.payload.splitOn chLF) [] = ([], [e.payload]) := by
    unfold batchLine emit
    rw [if_pos rfl, if_neg (List.splitOn_ne_nil _ _), List.intercalate_splitOn]
  rw [hemit]
  rfl

/-! ## Reading the text back -/

/-- An ignored line starts with a byte that is not special. -/
theorem Ignored.start {line : Bytes} (h : Ignored line) :
    ∃ ch rest, line = ch :: rest ∧ ch ≠ chLF ∧ ch ≠ 0xEF := by
  cases line with
  | nil =>
      rcases h.kind with hcolon | ⟨hne, -⟩
      · cases hcolon
      · exact absurd rfl hne
  | cons ch rest =>
      refine ⟨ch, rest, rfl, fun hlf => h.noLf (hlf ▸ List.mem_cons_self), ?_⟩
      rcases h.kind with hcolon | ⟨-, hmark, -⟩
      · rintro rfl
        rw [List.head?_cons] at hcolon
        exact absurd hcolon (by decide)
      · exact fun hch => hmark (congrArg some hch)

/-- The text of an event starts with such a byte. -/
theorem Sent.Clean.start {e : Sent} (h : e.Clean) :
    ∃ ch rest, linesText e.term e.lines = ch :: rest ∧ ch ≠ chLF ∧ ch ≠ 0xEF := by
  obtain ⟨line, lines, hlines, ch, rest, rfl, hlf, hmark⟩ :
      ∃ line lines, e.lines = line :: lines ∧
        ∃ ch rest, line = ch :: rest ∧ ch ≠ chLF ∧ ch ≠ 0xEF := by
    unfold Sent.lines
    cases hpieces : e.payload.splitOn chLF with
    | nil => exact absurd hpieces (List.splitOn_ne_nil _ _)
    | cons piece pieces =>
        rw [dataLines]
        cases hbefore : e.before 0 with
        | nil => exact ⟨dataLine piece, _, rfl, _, _, rfl, by decide, by decide⟩
        | cons line lines =>
            exact ⟨line, _, rfl, (h.before 0 line (hbefore ▸ List.mem_cons_self)).start⟩
  exact ⟨ch, _, by rw [hlines]; rfl, hlf, hmark⟩

/-- Text that starts with an event starts with none of the bytes that are special at the start. -/
theorem eventsText_head {events : List Sent} (h : ∀ e ∈ events, e.Clean) :
    (eventsText events).head? ≠ some chLF ∧ (eventsText events).head? ≠ some 0xEF := by
  cases events with
  | nil => exact ⟨by decide, by decide⟩
  | cons e events =>
      obtain ⟨ch, rest, htext, hlf, hmark⟩ := (h e List.mem_cons_self).start
      rw [eventsText, List.flatMap_cons, htext]
      exact ⟨fun h => hlf (Option.some.inj h), fun h => hmark (Option.some.inj h)⟩

/-- The text of clean events splits into the lines that were sent. -/
theorem linesFrom_eventsText {events : List Sent} (h : ∀ e ∈ events, e.Clean) :
    linesFrom [] (eventsText events) = events.flatMap Sent.lines := by
  induction events with
  | nil => rfl
  | cons e events ih =>
      have hlater := fun e' he' => h e' (List.mem_cons_of_mem e he')
      rw [eventsText, List.flatMap_cons, List.flatMap_cons]
      exact (linesFrom_text e.term (h e List.mem_cons_self).oneLine (eventsText_head hlater).1).trans
        (by rw [ih hlater])

/-- The lines of clean events bring their payloads. -/
theorem batchEvents_events {events : List Sent} (h : ∀ e ∈ events, e.Clean) :
    batchEvents [] (events.flatMap Sent.lines) = events.map Sent.payload := by
  induction events with
  | nil => rfl
  | cons e events ih =>
      rw [List.flatMap_cons, batchEvents_lines (h e List.mem_cons_self),
        ih fun e' he' => h e' (List.mem_cons_of_mem e he'), List.map_cons]

/-- The reference reads the payloads back. -/
theorem sseBatch_encode (mark : Bool) {events : List Sent} (h : ∀ e ∈ events, e.Clean) :
    sseBatch (encode mark events) = events.map Sent.payload := by
  have hdrop : dropBom (encode mark events) = eventsText events := by
    cases mark with
    | true => rfl
    | false => exact dropBom_held (k := 0) (by decide) (eventsText_head h).2
  rw [sseBatch, hdrop, linesFrom_eventsText h, batchEvents_events h]

section Parse

variable [SizeT]

/-- However the text of events is cut into feeds, without a cap the parser hands over exactly
their payloads, in order, and returns zero.  The length bound says that the text fits in
memory. -/
theorem sseParse_encode {σ : Type} (H : Heap σ) (hH : H.Reliable)
    (answer : List Bytes → σ → Int × σ) (hanswer : ∀ events h, (answer events h).1 = 0)
    (mark : Bool) (events : List Sent) (hclean : ∀ e ∈ events, e.Clean) (chunks : List Bytes)
    (hchunks : chunks.flatten = encode mark events) (hlen : (encode mark events).length < sizeMax)
    (h : σ) :
    (sseParse H.besideRecord (some (recording answer)) 0 chunks ([], h)).1 = 0 ∧
      payloads (sseParse H.besideRecord (some (recording answer)) 0 chunks ([], h)) =
        events.map Sent.payload := by
  rw [sseParse_flatten, hchunks, ← sseBatch_encode mark hclean]
  exact sseParse_batch H hH answer hanswer (encode mark events) hlen h

end Parse

/-- Two events: the second has other lines before its two data lines, and another terminator. -/
def plainEvents : List Sent :=
  [⟨ascii "a", .cr, fun _ => []⟩,
    ⟨ascii ": b\n", .crlf, fun i => if i = 0 then [ascii ":ping", ascii "id: 7"] else []⟩]

/-- The plain events are clean. -/
theorem plainEvents_clean : ∀ e ∈ plainEvents, e.Clean := by
  intro e he
  have hping : Ignored (ascii ":ping") := ⟨⟨by decide, by decide⟩, .inl (by decide)⟩
  have hid : Ignored (ascii "id: 7") := ⟨⟨by decide, by decide⟩, .inr (by decide)⟩
  rcases List.mem_cons.mp he with rfl | he
  · exact ⟨by decide, fun i line hline => absurd hline List.not_mem_nil⟩
  · obtain rfl := List.mem_singleton.mp he
    refine ⟨by decide, fun i line hline => ?_⟩
    dsimp only at hline
    split_ifs at hline
    · rcases List.mem_cons.mp hline with rfl | hline
      · exact hping
      · obtain rfl := List.mem_singleton.mp hline
        exact hid
    · cases hline

/-- Two plain events behind a mark, cut within the first. -/
theorem sseParse_encode_plain :
    @payloads lp64 Unit (@sseParse lp64 _ (@Heap.plentiful Unit).besideRecord
      (some (recording fun _ h => (0, h))) 0
      [(encode true plainEvents).take 11, (encode true plainEvents).drop 11] ([], ())) =
      [ascii "a", ascii ": b\n"] :=
  (@sseParse_encode lp64 Unit Heap.plentiful Heap.plentiful_reliable (fun _ h => (0, h))
    (fun _ _ => rfl) true plainEvents plainEvents_clean
    [(encode true plainEvents).take 11, (encode true plainEvents).drop 11] (by decide)
    (by decide +kernel) ()).2

end Sicha
