import Mathlib.Algebra.GroupWithZero.Nat
import Sicha.Transport.Curl

/-!
# Header blocks

The blocks of header lines that libcurl passes before the body: interim responses, a proxy's
answer to CONNECT, and the final response.  The callback reports the first block that is not an
interim one.

Main results:

- Theorem {lit}`run_blocks`: the one call of {lit}`on_status`.
- Theorem {lit}`headerBlocks_iff`: it reports the final block exactly if the first block that is
  not an interim one reports the same.
-/

namespace Sicha

/-! ## Blocks -/

/-- A block: a status line, field lines and an empty line. -/
structure HeaderBlock where
  statusLine : Bytes
  fields : List Bytes
  blank : Bytes

/-- The lines of a block. -/
def HeaderBlock.lines (b : HeaderBlock) : List Bytes :=
  b.statusLine :: (b.fields ++ [b.blank])

/-- The field lines that contain a colon. -/
def HeaderBlock.fieldLines (b : HeaderBlock) : List Bytes :=
  b.fields.filter fun line => chColon ∈ line

/-- A block as libcurl passes it, within the header caps. -/
structure HeaderBlock.Clean (b : HeaderBlock) : Prop where
  status : ascii "HTTP/" <+: b.statusLine
  digits : (statusDigits b.statusLine).length ≤ 3
  fields : ∀ line ∈ b.fields,
    ¬ ascii "HTTP/" <+: line ∧ line ≠ [chCR, chLF] ∧ line ≠ [chLF]
  blank : b.blank = [chCR, chLF] ∨ b.blank = [chLF]
  count : b.fieldLines.length ≤ maxHeaders
  each : ∀ line ∈ b.fieldLines, line.length ≤ maxHeaderBytes
  total : (b.fieldLines.map List.length).sum ≤ maxHeadersTotalBytes

/-- The status code of a block. -/
def HeaderBlock.code (b : HeaderBlock) : Int :=
  statusCode b.statusLine

/-- What a block reports: its status code and its fields. -/
def HeaderBlock.report (b : HeaderBlock) : Int × List Header :=
  (b.code, b.fields.filterMap headerField)

/-! ## Fields -/

/-- A field line without a colon is skipped; one with a colon is a field. -/
theorem headerField_isSome (line : Bytes) :
    (headerField line).isSome = decide (chColon ∈ line) := by
  unfold headerField
  split_ifs with h <;> simp [h]

/-! ## Lines one by one -/

section Lines

variable {σ : Type}

/-- The environment records the calls of {lit}`on_status`, whose callback accepts everything. -/
structure Recorder (H : Heap σ) (ck : Clock σ) (f : OnStatus σ)
    (calls : σ → List (Int × List Header)) : Prop where
  alloc : ∀ n s, calls (H.alloc n s).2 = calls s
  nowMs : ∀ s, calls (ck.nowMs s).2 = calls s
  accepts : ∀ httpStatus headers s, (f httpStatus headers s).1 = 0
  records : ∀ httpStatus headers s,
    calls (f httpStatus headers s).2 = calls s ++ [(httpStatus, headers)]

/-- libcurl passes a line, and goes on if the callback returns its length. -/
def headerStep (H : Heap σ) (ck : Clock σ) (f : OnStatus σ) (line : Bytes) (p : Xfer × σ) :
    Int × Xfer × σ :=
  let r := headerCb H ck (some f) line p.1 p.2
  (if r.1 = line.length then 0 else 1, r.2)

/-- What the context holds of a block: the status line and some of its fields. -/
structure Collected (x : Xfer) (code : Int) (fields : List Bytes) : Prop where
  waiting : x.statusDelivered = false
  httpStatus : x.httpStatus = code
  headers : x.headers = fields.filterMap headerField
  headerBytes : x.headerBytes = ((fields.filter fun line => chColon ∈ line).map List.length).sum

/-- The number of fields is the number of lines with a colon. -/
theorem length_filterMap_headerField (fields : List Bytes) :
    (fields.filterMap headerField).length = (fields.filter fun line => chColon ∈ line).length := by
  induction fields with
  | nil => rfl
  | cons line fields ih =>
      have hsome := headerField_isSome line
      by_cases hcolon : chColon ∈ line
      · obtain ⟨h, hfield⟩ := Option.isSome_iff_exists.mp (hsome.trans (decide_eq_true hcolon))
        rw [List.filterMap_cons_some hfield, List.filter_cons_of_pos (by simpa using hcolon),
          List.length_cons, List.length_cons, ih]
      · have hnone : headerField line = none := by simpa [hcolon] using hsome
        rw [List.filterMap_cons_none hnone, List.filter_cons_of_neg (by simpa using hcolon), ih]

variable {H : Heap σ} {ck : Clock σ} {f : OnStatus σ} {calls : σ → List (Int × List Header)}

/-- Behind some lines of a block libcurl goes on, and nothing has been reported. -/
structure BlockReading (calls : σ → List (Int × List Header)) (code : Int) (fields : List Bytes)
    (s : σ) (r : Int × Xfer × σ) : Prop where
  goesOn : r.1 = 0
  collected : Collected r.2.1 code fields
  silent : calls r.2.2 = calls s

/-- A status line begins a block. -/
theorem headerStep_statusLine (hrec : Recorder H ck f calls) {line : Bytes} {x : Xfer} (s : σ)
    (hwait : x.statusDelivered = false) (hline : ascii "HTTP/" <+: line) :
    BlockReading calls (statusCode line) [] s (headerStep H ck f line (x, s)) := by
  have hstep : headerStep H ck f line (x, s) =
      (0, { x with
            lastActivityMs := (ck.nowMs s).1, httpStatus := statusCode line }.freeHeaders,
        (ck.nowMs s).2) := by
    simp [headerStep, headerCb, hwait, hline]
  rw [hstep]
  exact ⟨rfl, ⟨hwait, rfl, rfl, rfl⟩, hrec.nowMs s⟩

/-- A field line within the caps is collected, or skipped when it has no colon. -/
theorem headerStep_field (hH : H.Reliable) (hrec : Recorder H ck f calls) {line : Bytes}
    {before : List Bytes} {x : Xfer} {code : Int} (s : σ) (hx : Collected x code before)
    (hline : ¬ ascii "HTTP/" <+: line ∧ line ≠ [chCR, chLF] ∧ line ≠ [chLF])
    (hcap : chColon ∈ line → headerOverCap x line.length = false) :
    BlockReading calls code (before ++ [line]) s (headerStep H ck f line (x, s)) := by
  have hcb : headerCb H ck (some f) line x s =
      headerCbField H line { x with lastActivityMs := (ck.nowMs s).1 } (ck.nowMs s).2 := by
    simp [headerCb, hx.waiting, hline.1, hline.2.1, hline.2.2]
  by_cases hcolon : chColon ∈ line
  · obtain ⟨h, hfield⟩ :=
      Option.isSome_iff_exists.mp ((headerField_isSome line).trans (decide_eq_true hcolon))
    have hover : headerOverCap { x with lastActivityMs := (ck.nowMs s).1 } line.length = false :=
      hcap hcolon
    have hstep : headerStep H ck f line (x, s) =
        (0, { x with
              lastActivityMs := (ck.nowMs s).1
              headers := x.headers ++ [h]
              headerBytes := x.headerBytes + line.length },
          (dupBytes H h.value (dupBytes H h.name (ck.nowMs s).2).2).2) := by
      have hname : (dupBytes H h.name (ck.nowMs s).2).1 = true := hH _ _
      have hvalue : (dupBytes H h.value (dupBytes H h.name (ck.nowMs s).2).2).1 = true := hH _ _
      simp [headerStep, hcb, headerCbField, hfield, hover, hname, hvalue]
    rw [hstep]
    refine ⟨rfl, ⟨hx.waiting, hx.httpStatus, ?_, ?_⟩, ?_⟩
    · simp [hx.headers, hfield]
    · simp [hx.headerBytes, hcolon]
    · exact (hrec.alloc _ _).trans ((hrec.alloc _ _).trans (hrec.nowMs s))
  · have hnone : headerField line = none := by
      simpa [hcolon] using headerField_isSome line
    have hstep : headerStep H ck f line (x, s) =
        (0, { x with lastActivityMs := (ck.nowMs s).1 }, (ck.nowMs s).2) := by
      simp [headerStep, hcb, headerCbField, hnone]
    rw [hstep]
    refine ⟨rfl, ⟨hx.waiting, hx.httpStatus, ?_, ?_⟩, hrec.nowMs s⟩
    · simp [hx.headers, hnone]
    · simp [hx.headerBytes, hcolon]

/-- The empty line behind an interim block reports nothing. -/
theorem headerStep_interim (hrec : Recorder H ck f calls) {line : Bytes} {fields : List Bytes}
    {x : Xfer} {code : Int} (s : σ) (hx : Collected x code fields)
    (hline : line = [chCR, chLF] ∨ line = [chLF]) (hcode : isInterim code = true) :
    BlockReading calls code [] s (headerStep H ck f line (x, s)) := by
  have hhttp : ¬ ascii "HTTP/" <+: line := by
    rcases hline with rfl | rfl <;> decide
  have hstep : headerStep H ck f line (x, s) =
      (0, { x with lastActivityMs := (ck.nowMs s).1 }.freeHeaders, (ck.nowMs s).2) := by
    simp [headerStep, headerCb, hx.waiting, hhttp, hline, xferFinishHeaders, hx.httpStatus, hcode]
  rw [hstep]
  exact ⟨rfl, ⟨hx.waiting, hx.httpStatus, rfl, rfl⟩, hrec.nowMs s⟩

/-- The empty line behind any other block reports it. -/
theorem headerStep_report (hrec : Recorder H ck f calls) {line : Bytes} {fields : List Bytes}
    {x : Xfer} {code : Int} (s : σ) (hx : Collected x code fields)
    (hline : line = [chCR, chLF] ∨ line = [chLF]) (hcode : isInterim code = false) :
    (headerStep H ck f line (x, s)).1 = 0 ∧
      (headerStep H ck f line (x, s)).2.1.statusDelivered = true ∧
      calls (headerStep H ck f line (x, s)).2.2 =
        calls s ++ [(code, fields.filterMap headerField)] := by
  have hhttp : ¬ ascii "HTTP/" <+: line := by
    rcases hline with rfl | rfl <;> decide
  have hstep : headerStep H ck f line (x, s) =
      (0, { x with lastActivityMs := (ck.nowMs s).1, statusDelivered := true },
        (f code (fields.filterMap headerField) (ck.nowMs s).2).2) := by
    have haccept := hrec.accepts code (fields.filterMap headerField) (ck.nowMs s).2
    simp [headerStep, headerCb, hx.waiting, hhttp, hline, xferFinishHeaders, hx.httpStatus, hcode,
      hx.headers, haccept]
  rw [hstep]
  exact ⟨rfl, rfl, by rw [hrec.records, hrec.nowMs]⟩

/-- Behind a report every line is ignored. -/
theorem headerStep_delivered (hrec : Recorder H ck f calls) (line : Bytes) {x : Xfer} (s : σ)
    (hx : x.statusDelivered = true) :
    (headerStep H ck f line (x, s)).1 = 0 ∧
      (headerStep H ck f line (x, s)).2.1.statusDelivered = true ∧
      calls (headerStep H ck f line (x, s)).2.2 = calls s := by
  have hstep : headerStep H ck f line (x, s) =
      (0, { x with lastActivityMs := (ck.nowMs s).1 }, (ck.nowMs s).2) := by
    simp [headerStep, headerCb, hx]
  rw [hstep]
  exact ⟨rfl, hx, hrec.nowMs s⟩

/-! ## Blocks one by one -/

/-- One more field line is within the caps if a whole that contains it is. -/
theorem headerOverCap_within {x : Xfer} {code : Int} {before after : List Bytes} {line : Bytes}
    (hx : Collected x code before) (hcolon : chColon ∈ line)
    (hcount : ((before ++ line :: after).filter fun line => chColon ∈ line).length ≤ maxHeaders)
    (heach : line.length ≤ maxHeaderBytes)
    (htotal : (((before ++ line :: after).filter fun line => chColon ∈ line).map
      List.length).sum ≤ maxHeadersTotalBytes) :
    headerOverCap x line.length = false := by
  have hsplit : (before ++ line :: after).filter (fun line => chColon ∈ line) =
      before.filter (fun line => chColon ∈ line) ++
        line :: after.filter (fun line => chColon ∈ line) := by
    rw [List.filter_append, List.filter_cons_of_pos (by simpa using hcolon)]
  rw [hsplit] at hcount htotal
  simp only [List.length_append, List.length_cons] at hcount
  simp only [List.map_append, List.map_cons, List.sum_append, List.sum_cons] at htotal
  have hlen := length_filterMap_headerField before
  rw [← hx.headers] at hlen
  have hbytes := hx.headerBytes
  simp only [headerOverCap, Bool.or_eq_false_iff, decide_eq_false_iff_not]
  omega

/-- Field lines within the caps are collected. -/
theorem run_fields (hH : H.Reliable) (hrec : Recorder H ck f calls) (fields : List Bytes)
    {before : List Bytes} {x : Xfer} {code : Int} (s : σ) (hx : Collected x code before)
    (hlines : ∀ line ∈ fields,
      ¬ ascii "HTTP/" <+: line ∧ line ≠ [chCR, chLF] ∧ line ≠ [chLF])
    (hcount : ((before ++ fields).filter fun line => chColon ∈ line).length ≤ maxHeaders)
    (heach : ∀ line ∈ fields, chColon ∈ line → line.length ≤ maxHeaderBytes)
    (htotal : (((before ++ fields).filter fun line => chColon ∈ line).map List.length).sum ≤
      maxHeadersTotalBytes) :
    BlockReading calls code (before ++ fields) s
      (StopFold.run (headerStep H ck f) fields (x, s)) := by
  induction fields generalizing before x s with
  | nil => exact ⟨rfl, by simpa using hx, rfl⟩
  | cons line fields ih =>
      have hone := headerStep_field hH hrec s hx (hlines line List.mem_cons_self) fun hcolon =>
        headerOverCap_within hx hcolon hcount (heach line List.mem_cons_self hcolon) htotal
      have hrest := ih (headerStep H ck f line (x, s)).2.2 hone.collected
        (fun l hl => hlines l (List.mem_cons_of_mem _ hl)) (by simpa using hcount)
        (fun l hl => heach l (List.mem_cons_of_mem _ hl)) (by simpa using htotal)
      rw [StopFold.run_cons, if_pos hone.goesOn]
      exact ⟨hrest.goesOn, by simpa using hrest.collected, hrest.silent.trans hone.silent⟩

/-- Behind the fields of a block, before its empty line. -/
theorem run_opened (hH : H.Reliable) (hrec : Recorder H ck f calls) {b : HeaderBlock}
    (hb : b.Clean) {x : Xfer} (s : σ) (hwait : x.statusDelivered = false) :
    BlockReading calls b.code b.fields s
      (StopFold.run (headerStep H ck f) (b.statusLine :: b.fields) (x, s)) := by
  have hone := headerStep_statusLine hrec s hwait hb.status
  have hrest := run_fields hH hrec b.fields (headerStep H ck f b.statusLine (x, s)).2.2
    hone.collected hb.fields hb.count
    (fun line hmem hcolon => hb.each line (List.mem_filter.mpr ⟨hmem, by simpa using hcolon⟩))
    hb.total
  rw [StopFold.run_cons, if_pos hone.goesOn]
  exact ⟨hrest.goesOn, hrest.collected, hrest.silent.trans hone.silent⟩

/-- A block is its status line and its fields, and a blank line. -/
theorem HeaderBlock.lines_eq (b : HeaderBlock) :
    b.lines = (b.statusLine :: b.fields) ++ [b.blank] := rfl

/-- An interim block is discarded. -/
theorem run_interim (hH : H.Reliable) (hrec : Recorder H ck f calls) {b : HeaderBlock}
    (hb : b.Clean) (hcode : isInterim b.code = true) {x : Xfer} (s : σ)
    (hwait : x.statusDelivered = false) :
    BlockReading calls b.code [] s (StopFold.run (headerStep H ck f) b.lines (x, s)) := by
  have hopen := run_opened hH hrec hb s hwait
  have hend := headerStep_interim hrec
    (StopFold.run (headerStep H ck f) (b.statusLine :: b.fields) (x, s)).2.2 hopen.collected
    hb.blank hcode
  rw [b.lines_eq, StopFold.run_append, if_pos hopen.goesOn, StopFold.run_singleton]
  exact ⟨hend.goesOn, hend.collected, hend.silent.trans hopen.silent⟩

/-- Any other block is reported. -/
theorem run_report (hH : H.Reliable) (hrec : Recorder H ck f calls) {b : HeaderBlock}
    (hb : b.Clean) (hcode : isInterim b.code = false) {x : Xfer} (s : σ)
    (hwait : x.statusDelivered = false) :
    (StopFold.run (headerStep H ck f) b.lines (x, s)).1 = 0 ∧
      (StopFold.run (headerStep H ck f) b.lines (x, s)).2.1.statusDelivered = true ∧
      calls (StopFold.run (headerStep H ck f) b.lines (x, s)).2.2 = calls s ++ [b.report] := by
  have hopen := run_opened hH hrec hb s hwait
  have hend := headerStep_report hrec
    (StopFold.run (headerStep H ck f) (b.statusLine :: b.fields) (x, s)).2.2 hopen.collected
    hb.blank hcode
  rw [b.lines_eq, StopFold.run_append, if_pos hopen.goesOn, StopFold.run_singleton]
  exact ⟨hend.1, hend.2.1, by rw [hend.2.2, hopen.silent]; rfl⟩

/-- Behind a report all lines are ignored. -/
theorem run_delivered (hrec : Recorder H ck f calls) (lines : List Bytes) {x : Xfer} (s : σ)
    (hx : x.statusDelivered = true) :
    (StopFold.run (headerStep H ck f) lines (x, s)).1 = 0 ∧
      calls (StopFold.run (headerStep H ck f) lines (x, s)).2.2 = calls s := by
  induction lines generalizing x s with
  | nil => exact ⟨rfl, rfl⟩
  | cons line lines ih =>
      obtain ⟨hzero, hstill, hsilent⟩ := headerStep_delivered hrec line s hx
      rw [StopFold.run_cons, if_pos hzero]
      exact ⟨(ih _ hstill).1, (ih _ hstill).2.trans hsilent⟩

/-- The lines of blocks are all taken, and {lit}`on_status` is called once: with the first block
that is not an interim one, if there is one. -/
theorem run_blocks (hH : H.Reliable) (hrec : Recorder H ck f calls) (blocks : List HeaderBlock)
    (hclean : ∀ b ∈ blocks, b.Clean) {x : Xfer} (s : σ) (hwait : x.statusDelivered = false) :
    (StopFold.run (headerStep H ck f) (blocks.flatMap HeaderBlock.lines) (x, s)).1 = 0 ∧
      calls (StopFold.run (headerStep H ck f) (blocks.flatMap HeaderBlock.lines) (x, s)).2.2 =
        calls s ++
          ((blocks.find? fun b => !isInterim b.code).map HeaderBlock.report).toList := by
  induction blocks generalizing x s with
  | nil => exact ⟨rfl, by simp⟩
  | cons b blocks ih =>
      have hb := hclean b List.mem_cons_self
      rw [List.flatMap_cons, StopFold.run_append]
      cases hcode : isInterim b.code with
      | true =>
          have hone := run_interim hH hrec hb hcode s hwait
          obtain ⟨hzero, hcalls⟩ := ih (fun b' hb' => hclean b' (List.mem_cons_of_mem _ hb'))
            (StopFold.run (headerStep H ck f) b.lines (x, s)).2.2 hone.collected.waiting
          rw [if_pos hone.goesOn, List.find?_cons_of_neg (by simp [hcode])]
          exact ⟨hzero, by rw [hcalls, hone.silent]⟩
      | false =>
          obtain ⟨hzero, hdone, hcalls⟩ := run_report hH hrec hb hcode s hwait
          obtain ⟨hrest, hsilent⟩ := run_delivered hrec (blocks.flatMap HeaderBlock.lines)
            (StopFold.run (headerStep H ck f) b.lines (x, s)).2.2 hdone
          rw [if_pos hzero, List.find?_cons_of_pos (by simp [hcode])]
          exact ⟨hrest, by rw [hsilent, hcalls]; rfl⟩

/-! ## The final block -/

/-- {lit}`on_status` is called exactly once, with the final block, exactly if the first block that
is not an interim one reports what the final one does. -/
theorem headerBlocks_iff (H : Heap σ) (hH : H.Reliable) (ck : Clock σ) (f : OnStatus σ)
    (calls : σ → List (Int × List Header)) (hrec : Recorder H ck f calls)
    (earlier : List HeaderBlock) (final : HeaderBlock) (hclean : ∀ b ∈ earlier, b.Clean)
    (hfinal : final.Clean) (hcode : isInterim final.code = false) (x : Xfer)
    (hwait : x.statusDelivered = false) (s : σ) :
    calls (StopFold.run (headerStep H ck f) ((earlier ++ [final]).flatMap HeaderBlock.lines)
        (x, s)).2.2 = calls s ++ [final.report] ↔
      ∀ b, earlier.find? (fun b => !isInterim b.code) = some b → b.report = final.report := by
  obtain ⟨-, hcalls⟩ := run_blocks hH hrec (earlier ++ [final])
    (by simpa [or_imp, forall_and] using ⟨hclean, hfinal⟩) s hwait
  rw [hcalls, List.append_cancel_left_eq, List.find?_append]
  cases hfirst : earlier.find? (fun b => !isInterim b.code) with
  | none => simp [hcode]
  | some b => simp

end Lines

/-! ## A proxy's answer -/

/-- A proxy answers CONNECT, then the backend answers 401. -/
def connectBlock : HeaderBlock where
  statusLine := ascii "HTTP/1.1 200 Connection established\r\n"
  fields := []
  blank := [chCR, chLF]

/-- A refusal of the key. -/
def deniedBlock : HeaderBlock where
  statusLine := ascii "HTTP/2 401\r\n"
  fields := [ascii "Content-Type: application/json\r\n"]
  blank := [chCR, chLF]

/-- An early hint. -/
def hintBlock : HeaderBlock where
  statusLine := ascii "HTTP/2 103\r\n"
  fields := [ascii "Link: </style.css>\r\n"]
  blank := [chCR, chLF]

/-- A callback that records its calls. -/
def recordStatus : OnStatus (List (Int × List Header)) :=
  fun httpStatus headers s => (0, s ++ [(httpStatus, headers)])

/-- The status callback of the examples records what it is given. -/
theorem recordStatus_recorder : Recorder Heap.plentiful stillClock recordStatus id :=
  ⟨fun _ _ => rfl, fun _ => rfl, fun _ _ _ => rfl, fun _ _ _ => rfl⟩

/-- The block of a denied request is clean. -/
theorem deniedBlock_clean : deniedBlock.Clean :=
  ⟨by decide +kernel, by decide +kernel, by decide +kernel, by decide +kernel, by decide +kernel,
    by decide +kernel, by decide +kernel⟩

/-- The interim block is clean. -/
theorem hintBlock_clean : hintBlock.Clean :=
  ⟨by decide +kernel, by decide +kernel, by decide +kernel, by decide +kernel, by decide +kernel,
    by decide +kernel, by decide +kernel⟩

/-- Behind an early hint the final block is reported. -/
theorem headerBlocks_iff_plain :
    (StopFold.run (headerStep Heap.plentiful stillClock recordStatus)
      (([hintBlock] ++ [deniedBlock]).flatMap HeaderBlock.lines) (xferInit, [])).2.2 =
      [deniedBlock.report] :=
  (headerBlocks_iff Heap.plentiful Heap.plentiful_reliable stillClock recordStatus id
    recordStatus_recorder [hintBlock] deniedBlock
    (by simpa using hintBlock_clean) deniedBlock_clean (by decide +kernel) xferInit rfl []).mpr
    (by decide +kernel)

/-- The answer of the proxy is reported in place of the final block. -/
theorem connect_reported :
    connectBlock.Clean ∧ deniedBlock.Clean ∧ isInterim deniedBlock.code = false ∧
      (StopFold.run (headerStep Heap.plentiful stillClock recordStatus)
        (([connectBlock] ++ [deniedBlock]).flatMap HeaderBlock.lines) (xferInit, [])).2.2 =
        [(200, [])] ∧
      ([(200, [])] : List (Int × List Header)) ≠ [deniedBlock.report] :=
  ⟨⟨by decide +kernel, by decide +kernel, by decide +kernel, by decide +kernel, by decide +kernel,
    by decide +kernel, by decide +kernel⟩, deniedBlock_clean, by decide +kernel,
    by decide +kernel, by decide +kernel⟩

end Sicha
