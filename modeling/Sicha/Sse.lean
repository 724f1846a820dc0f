import Sicha.Buf
import Sicha.Lib.StopFold

/-!
# The incremental event-stream parser

A translation of {lit}`sse.c`.  The parser knows nothing of the world it runs in:
{lit}`w` holds whatever the event callback and the allocator read and write.

Main results:

- Theorem {lit}`sseFeed_eq_run`: feeding a chunk is a fold that stops, one byte at
  a time, so the chunk boundaries carry no information.
- Theorems {lit}`sseFeed_spec` and {lit}`sseFinish_spec`: the rule for callbacks
  that keep an invariant.
-/

namespace Sicha

variable [SizeT] {w : Type}

/-- {lit}`'\r'`. -/
def chCR : UInt8 := 13

/-- {lit}`'\n'`. -/
def chLF : UInt8 := 10

/-- {lit}`':'`. -/
def chColon : UInt8 := 58

/-- {lit}`' '`. -/
def chSpace : UInt8 := 32

/-- The UTF-8 byte order mark. -/
def bom : Bytes := [0xEF, 0xBB, 0xBF]

/-- {lit}`sicha_sse`. -/
structure Sse where
  /-- partial line across feeds -/
  line : Buf
  /-- accumulated {lit}`data:` lines of the pending event -/
  data : Buf
  /-- a pending event exists (its data may be empty) -/
  haveData : Bool
  /-- swallow an LF that follows a boundary CR -/
  lastWasCr : Bool
  /-- bytes of a potential BOM matched so far -/
  bomSeen : Nat
  /-- BOM handling finished -/
  bomDecided : Bool
  maxEventBytes : Nat
  /-- sticky -/
  err : Status

/-- {lit}`sicha_sse_on_event`: a payload, and the answer that stops the parser when
it is not zero. -/
abbrev OnEvent (w : Type) := Bytes → w → Int × w

/-- {lit}`sicha_sse_init`. -/
def sseInit (maxEventBytes : Nat) : Sse where
  line := bufInit maxEventBytes
  data := bufInit maxEventBytes
  haveData := false
  lastWasCr := false
  bomSeen := 0
  bomDecided := false
  maxEventBytes := maxEventBytes
  err := .ok

/-- {lit}`sicha_sse_status`. -/
def sseStatus (p : Sse) : Status :=
  p.err

/-- {lit}`sse_check_bufs`: promote a buffer's error to the parser's sticky error. -/
def sseCheckBufs (p : Sse) : Bool × Sse :=
  if p.err ≠ .ok then (false, p)
  else if bufStatus p.line ≠ .ok then (false, { p with err := bufStatus p.line })
  else if bufStatus p.data ≠ .ok then (false, { p with err := bufStatus p.data })
  else (true, p)

/-- The field name's length and the value of a line, split at its first colon. -/
def sseField (line : Bytes) : Nat × Bytes :=
  match line.findIdx? (· == chColon) with
  | none => (line.length, [])
  | some colon =>
      match line.drop (colon + 1) with
      | ch :: value => if ch = chSpace then (colon, value) else (colon, ch :: value)
      | [] => (colon, [])

/-- The bytes {lit}`data:` lines are collected from carry this field name. -/
def isDataField (line : Bytes) : Bool :=
  (sseField line).1 == 4 && line.take 4 == ascii "data"

/-- A blank line in {lit}`sse_line`: dispatch the pending event, if any.  A NULL
callback is {lit}`none`. -/
def sseDispatch (onEvent : Option (OnEvent w)) (p : Sse) (s : w) : Int × Sse × w :=
  if p.haveData then
    let r := match onEvent with
      | some f => f p.data.bytes s
      | none => (0, s)
    (r.1, { p with data := bufReset p.data, haveData := false }, r.2)
  else (0, p, s)

/-- The {lit}`'\n'` between the values of one event. -/
def sseJoin (H : Heap w) (p : Sse) (s : w) : Buf × w :=
  if p.haveData then bufAppendCh H p.data chLF s else (p.data, s)

/-- A {lit}`data` field in {lit}`sse_line`: collect its value. -/
def sseCollect (H : Heap w) (p : Sse) (value : Bytes) (s : w) : Int × Sse × w :=
  let data := bufAppend H (sseJoin H p s).1 value (sseJoin H p s).2
  let check := sseCheckBufs { p with data := data.1, haveData := true }
  (if check.1 then 0 else -1, check.2, data.2)

/-- {lit}`sse_line`: a complete line (terminator stripped) arrived. -/
def sseLine (H : Heap w) (onEvent : Option (OnEvent w)) (p : Sse) (line : Bytes) (s : w) :
    Int × Sse × w :=
  if line.length = 0 then sseDispatch onEvent p s
  else if line.head? = some chColon then (0, p, s) -- comment / heartbeat
  else if isDataField line then sseCollect H p (sseField line).2 s
  else (0, p, s) -- event: / id: / retry: / anything else

/-- The first loop of {lit}`sicha_sse_feed`: hold back a BOM prefix.  Returns whether
the buffers are still sound, the bytes not yet consumed, and the parser. -/
def sseBom (H : Heap w) : Sse → Bytes → w → Bool × Bytes × Sse × w
  | p, [], s => (true, [], p, s)
  | p, ch :: rest, s =>
      if p.bomDecided then (true, ch :: rest, p, s)
      else if bom[p.bomSeen]? = some ch then
        sseBom H
          { p with bomSeen := p.bomSeen + 1, bomDecided := p.bomSeen + 1 == 3 } rest s
      else
        -- the matched bytes were real payload after all
        let line := bufAppend H p.line (bom.take p.bomSeen) s
        let check := sseCheckBufs { p with line := line.1, bomSeen := 0, bomDecided := true }
        (check.1, ch :: rest, check.2, line.2)

/-- One round of the second loop of {lit}`sicha_sse_feed`. -/
def sseChar (H : Heap w) (onEvent : Option (OnEvent w)) (ch : UInt8) (p : Sse) (s : w) :
    Int × Sse × w :=
  if p.lastWasCr ∧ ch = chLF then (0, { p with lastWasCr := false }, s) -- rest of a CRLF
  else if ch = chCR ∨ ch = chLF then
    let r := sseLine H onEvent { p with lastWasCr := false } p.line.bytes s
    let p' := { r.2.1 with line := bufReset r.2.1.line, lastWasCr := ch == chCR }
    if r.1 ≠ 0 then (r.1, p', r.2.2)
    else if p'.err ≠ .ok then (-1, p', r.2.2)
    else (0, p', r.2.2)
  else
    let line := bufAppendCh H p.line ch s
    let check := sseCheckBufs { p with line := line.1, lastWasCr := false }
    (if check.1 then 0 else -1, check.2, line.2)

/-- The second loop of {lit}`sicha_sse_feed`. -/
def sseChars (H : Heap w) (onEvent : Option (OnEvent w)) : Bytes → Sse → w → Int × Sse × w
  | [], p, s => (0, p, s)
  | ch :: rest, p, s =>
      let r := sseChar H onEvent ch p s
      if r.1 = 0 then sseChars H onEvent rest r.2.1 r.2.2 else r

/-- {lit}`sicha_sse_feed`. -/
def sseFeed (H : Heap w) (onEvent : Option (OnEvent w)) (p : Sse) (bytes : Bytes) (s : w) :
    Int × Sse × w :=
  if p.err ≠ .ok then (-1, p, s)
  else
    match sseBom H p bytes s with
    | (false, _, p, s) => (-1, p, s)
    | (true, rest, p, s) => sseChars H onEvent rest p s

/-- Start of {lit}`sicha_sse_finish`: a held-back BOM prefix that never completed is
payload. -/
def sseHeld (H : Heap w) (p : Sse) (s : w) : Sse × w :=
  if p.bomDecided = false ∧ p.bomSeen > 0 then
    let line := bufAppend H p.line (bom.take p.bomSeen) s
    ({ p with line := line.1, bomSeen := 0, bomDecided := true }, line.2)
  else ({ p with bomDecided := true }, s)

/-- Middle of {lit}`sicha_sse_finish`: an unterminated final line still counts as a
line. -/
def sseTail (H : Heap w) (onEvent : Option (OnEvent w)) (p : Sse) (s : w) : Int × Sse × w :=
  if p.line.len > 0 then
    let r := sseLine H onEvent p p.line.bytes s
    let p' : Sse := { r.2.1 with line := bufReset r.2.1.line }
    (if r.1 ≠ 0 then r.1 else if p'.err ≠ .ok then -1 else 0, p', r.2.2)
  else (0, p, s)

/-- {lit}`sicha_sse_finish`. -/
def sseFinish (H : Heap w) (onEvent : Option (OnEvent w)) (p : Sse) (s : w) :
    Int × Sse × w :=
  if p.err ≠ .ok then (-1, p, s)
  else
    let tail := sseTail H onEvent (sseHeld H p s).1 (sseHeld H p s).2
    if tail.1 ≠ 0 then tail
    else
      -- a complete pending event is dispatched even without the final blank line
      let r := sseLine H onEvent tail.2.1 [] tail.2.2
      if r.1 ≠ 0 then r
      else (if r.2.1.err = .ok then 0 else -1, r.2.1, r.2.2)

/-! ## Sticky errors -/

/-- A check that passes has found no error, and changes nothing. -/
theorem sseCheckBufs_true {p : Sse} (h : (sseCheckBufs p).1 = true) :
    (sseCheckBufs p).2 = p ∧ p.err = .ok ∧ p.line.err = .ok ∧ p.data.err = .ok := by
  unfold sseCheckBufs bufStatus at *
  split_ifs at * ; simp_all

/-- A check that fails leaves an error in the parser. -/
theorem sseCheckBufs_false {p : Sse} (h : (sseCheckBufs p).1 = false) :
    (sseCheckBufs p).2.err ≠ .ok := by
  unfold sseCheckBufs at *
  split_ifs at * with herr hline hdata <;> simp_all

/-- A buffer with an error fails the check. -/
theorem sseCheckBufs_failed {p : Sse} (h : p.line.err ≠ .ok ∨ p.data.err ≠ .ok) :
    (sseCheckBufs p).1 = false := by
  rw [← Bool.not_eq_true]
  intro htrue
  obtain ⟨-, -, hline, hdata⟩ := sseCheckBufs_true htrue
  exact h.elim (fun herr => herr hline) fun herr => herr hdata

/-- The check does not look at the byte order mark. -/
@[simp]
theorem sseCheckBufs_bomDecided (p : Sse) :
    (sseCheckBufs p).2.bomDecided = p.bomDecided := by
  unfold sseCheckBufs
  split_ifs <;> rfl

/-- Nor does a line. -/
@[simp]
theorem sseLine_bomDecided (H : Heap w) (f : Option (OnEvent w)) (p : Sse) (line : Bytes)
    (s : w) : (sseLine H f p line s).2.1.bomDecided = p.bomDecided := by
  unfold sseLine sseDispatch sseCollect
  split_ifs <;> simp

/-- Nor does a byte behind the mark. -/
@[simp]
theorem sseChar_bomDecided (H : Heap w) (f : Option (OnEvent w)) (ch : UInt8) (p : Sse)
    (s : w) : (sseChar H f ch p s).2.1.bomDecided = p.bomDecided := by
  unfold sseChar
  dsimp only
  split_ifs <;> simp

/-- A round that answers zero leaves no error behind. -/
theorem sseChar_err {H : Heap w} {f : Option (OnEvent w)} {ch : UInt8} {p : Sse} {s : w}
    (hp : p.err = .ok) (h : (sseChar H f ch p s).1 = 0) :
    (sseChar H f ch p s).2.1.err = .ok := by
  unfold sseChar at h ⊢
  dsimp only at h ⊢
  split_ifs at h ⊢ with hcrlf hterm hcode herr hcheck
  · exact hp
  · exact absurd h hcode
  · simp at h
  · exact not_not.mp herr
  · dsimp only
    rw [(sseCheckBufs_true hcheck).1]
    exact hp
  · simp at h

/-! ## Feeding is a fold over bytes -/

/-- What {lit}`sicha_sse_feed` does with one byte. -/
def sseByte (H : Heap w) (onEvent : Option (OnEvent w)) (ch : UInt8) (ps : Sse × w) :
    Int × Sse × w :=
  if ps.1.bomDecided then sseChar H onEvent ch ps.1 ps.2
  else if bom[ps.1.bomSeen]? = some ch then
    (0, { ps.1 with bomSeen := ps.1.bomSeen + 1, bomDecided := ps.1.bomSeen + 1 == 3 }, ps.2)
  else
    let line := bufAppend H ps.1.line (bom.take ps.1.bomSeen) ps.2
    let check := sseCheckBufs { ps.1 with line := line.1, bomSeen := 0, bomDecided := true }
    if check.1 then sseChar H onEvent ch check.2 line.2 else (-1, check.2, line.2)

/-- A byte that goes well leaves no error. -/
theorem sseByte_err {H : Heap w} {f : Option (OnEvent w)} {ch : UInt8} {ps : Sse × w}
    (hp : ps.1.err = .ok) (h : (sseByte H f ch ps).1 = 0) :
    (sseByte H f ch ps).2.1.err = .ok := by
  unfold sseByte at h ⊢
  dsimp only at h ⊢
  split_ifs at h ⊢ with hdecided hbom hcheck
  · exact sseChar_err hp h
  · exact hp
  · refine sseChar_err ?_ h
    rw [(sseCheckBufs_true hcheck).1]
    exact hp
  · simp at h

/-- Behind the mark, the bytes are taken one by one until one does not go well. -/
theorem sseChars_eq_run (H : Heap w) (f : Option (OnEvent w)) (bytes : Bytes) {p : Sse}
    (hp : p.bomDecided = true) (s : w) :
    sseChars H f bytes p s = StopFold.run (sseByte H f) bytes (p, s) := by
  induction bytes generalizing p s with
  | nil => rfl
  | cons ch rest ih =>
      have hbyte : sseByte H f ch (p, s) = sseChar H f ch p s := by
        simp [sseByte, hp]
      rw [StopFold.run_cons, hbyte]
      unfold sseChars
      dsimp only
      rw [ih (by simpa using hp)]

/-- Feeding a chunk to a sound parser is a fold over its bytes. -/
theorem sseFeed_eq_run (H : Heap w) (f : Option (OnEvent w)) (bytes : Bytes) {p : Sse}
    (hp : p.err = .ok) (s : w) :
    sseFeed H f p bytes s = StopFold.run (sseByte H f) bytes (p, s) := by
  induction bytes generalizing p s with
  | nil => simp [sseFeed, hp, sseBom, sseChars]
  | cons ch rest ih =>
      by_cases hdecided : p.bomDecided = true
      · rw [← sseChars_eq_run H f (ch :: rest) hdecided]
        simp [sseFeed, hp, sseBom, hdecided]
      · by_cases hbom : bom[p.bomSeen]? = some ch
        · have hbyte : (sseByte H f ch (p, s)).1 = 0 := by
            simp [sseByte, hdecided, hbom]
          rw [StopFold.run_cons, if_pos hbyte]
          simp only [sseByte, hdecided, hbom, if_true, Bool.false_eq_true, if_false]
          rw [← ih (by exact hp)]
          simp [sseFeed, hp, sseBom, hdecided, hbom]
        · have hfeed : sseFeed H f p (ch :: rest) s =
              (let line := bufAppend H p.line (bom.take p.bomSeen) s
               let check := sseCheckBufs
                 { p with line := line.1, bomSeen := 0, bomDecided := true }
               if check.1 then sseChars H f (ch :: rest) check.2 line.2
               else (-1, check.2, line.2)) := by
            simp only [sseFeed, hp, sseBom, hdecided, hbom, if_false, ne_eq,
              not_true_eq_false, Bool.false_eq_true]
            split <;> simp_all
          rw [hfeed, StopFold.run_cons]
          simp only [sseByte, hdecided, hbom, if_false, Bool.false_eq_true]
          split_ifs with hcheck hcode hcode
          · rw [sseChars, if_pos hcode, sseChars_eq_run H f rest (by simp)]
          · rw [sseChars, if_neg hcode]
          · simp at hcode
          · rfl

/-- A chunk that goes well leaves no error. -/
theorem sseFeed_err {H : Heap w} {f : Option (OnEvent w)} {bytes : Bytes} {p : Sse} {s : w}
    (h : (sseFeed H f p bytes s).1 = 0) : (sseFeed H f p bytes s).2.1.err = .ok := by
  by_cases hp : p.err = .ok
  · rw [sseFeed_eq_run H f bytes hp] at h ⊢
    have hstep : ∀ ch (ps : Sse × w), ps.1.err = .ok →
        ((sseByte H f ch ps).1 = 0 → (sseByte H f ch ps).2.1.err = .ok) ∧
        ((sseByte H f ch ps).1 ≠ 0 → True) :=
      fun _ _ hps => ⟨sseByte_err hps, fun _ => trivial⟩
    exact (@StopFold.run_spec _ _ _ _ _ _ (fun ps => ps.1.err = .ok) (fun _ _ => True)
      hstep bytes (p, s) hp).1 h
  · simp [sseFeed, hp] at h

/-! ## The rule for callbacks that keep an invariant -/

/-- A callback that keeps {lit}`P` when it answers zero and establishes {lit}`Q` when
it stops the parser. -/
def OnEvent.Keeps (f : OnEvent w) (P : w → Prop) (Q : Int → w → Prop) : Prop :=
  ∀ payload s, P s → ((f payload s).1 = 0 → P (f payload s).2) ∧
    ((f payload s).1 ≠ 0 → Q (f payload s).1 (f payload s).2)

/-- The three ways a call into the parser ends: it consumed everything, the callback
stopped it, or a buffer failed. -/
def SseOutcome (P : w → Prop) (Q : Int → w → Prop) (r : Int × Sse × w) : Prop :=
  (r.1 = 0 ∧ P r.2.2) ∨ (r.1 ≠ 0 ∧ Q r.1 r.2.2) ∨ (r.1 = -1 ∧ r.2.1.err ≠ .ok ∧ P r.2.2)

/-- What goes well keeps what holds of the environment. -/
theorem SseOutcome.of_zero {P : w → Prop} {Q : Int → w → Prop} {r : Int × Sse × w}
    (h : SseOutcome P Q r) (hzero : r.1 = 0) : P r.2.2 := by
  rcases h with ⟨-, hP⟩ | ⟨hne, -⟩ | ⟨-, -, hP⟩
  · exact hP
  · exact absurd hzero hne
  · exact hP

section Rule

variable {H : Heap w} {f : OnEvent w} {P : w → Prop} {Q : Int → w → Prop}
  (halloc : ∀ n s, P s → P (H.alloc n s).2) (hf : f.Keeps P Q)

include halloc hf

omit halloc in
/-- An event ends as the callback ends. -/
theorem sseDispatch_spec (p : Sse) {s : w} (hs : P s) :
    SseOutcome P Q (sseDispatch (some f) p s) := by
  unfold sseDispatch
  split_ifs
  · by_cases hcode : (f p.data.bytes s).1 = 0
    · exact .inl ⟨hcode, (hf _ s hs).1 hcode⟩
    · exact .inr (.inl ⟨hcode, (hf _ s hs).2 hcode⟩)
  · exact .inl ⟨rfl, hs⟩

omit hf in
/-- A value that is collected only asks the allocator. -/
theorem sseCollect_spec (p : Sse) (value : Bytes) {s : w} (hs : P s) :
    SseOutcome P Q (sseCollect H p value s) := by
  have hjoin : P (sseJoin H p s).2 := by
    unfold sseJoin
    split_ifs
    · exact bufAppend_keeps halloc _ _ hs
    · exact hs
  have hdata := bufAppend_keeps halloc (sseJoin H p s).1 value hjoin
  unfold sseCollect
  dsimp only
  split_ifs with hcheck
  · exact .inl ⟨rfl, hdata⟩
  · exact .inr (.inr ⟨rfl, sseCheckBufs_false (by simpa using hcheck), hdata⟩)

/-- A line is an event that ends, a value that is collected, or is ignored. -/
theorem sseLine_spec (p : Sse) (line : Bytes) {s : w} (hs : P s) :
    SseOutcome P Q (sseLine H (some f) p line s) := by
  unfold sseLine
  split_ifs
  · exact sseDispatch_spec hf p hs
  · exact .inl ⟨rfl, hs⟩
  · exact sseCollect_spec halloc p _ hs
  · exact .inl ⟨rfl, hs⟩

/-- A byte behind the mark ends a line or is held. -/
theorem sseChar_spec (ch : UInt8) (p : Sse) {s : w} (hs : P s) :
    SseOutcome P Q (sseChar H (some f) ch p s) := by
  have hline := sseLine_spec halloc hf { p with lastWasCr := false } p.line.bytes hs
  have hch := bufAppend_keeps halloc p.line [ch] hs
  unfold sseChar
  dsimp only
  split_ifs with hcrlf hterm hcode herr hcheck
  · exact .inl ⟨rfl, hs⟩
  · exact hline.imp id (.imp id id)
  · exact .inr (.inr ⟨rfl, herr, hline.of_zero (not_not.mp hcode)⟩)
  · exact .inl ⟨rfl, hline.of_zero (not_not.mp hcode)⟩
  · exact .inl ⟨rfl, hch⟩
  · exact .inr (.inr ⟨rfl, sseCheckBufs_false (by simpa using hcheck), hch⟩)

/-- A byte ends as the bytes and lines that it brings. -/
theorem sseByte_spec (ch : UInt8) (p : Sse) {s : w} (hs : P s) :
    SseOutcome P Q (sseByte H (some f) ch (p, s)) := by
  have hline := bufAppend_keeps halloc p.line (bom.take p.bomSeen) hs
  unfold sseByte
  dsimp only
  split_ifs with hdecided hbom hcheck
  · exact sseChar_spec halloc hf ch p hs
  · exact .inl ⟨rfl, hs⟩
  · exact sseChar_spec halloc hf ch _ hline
  · exact .inr (.inr ⟨rfl, sseCheckBufs_false (by simpa using hcheck), hline⟩)

/-- A call of {lit}`sicha_sse_feed` around a callback that keeps {lit}`P`. -/
theorem sseFeed_spec (p : Sse) (bytes : Bytes) {s : w} (hs : P s) :
    SseOutcome P Q (sseFeed H (some f) p bytes s) := by
  by_cases hp : p.err = .ok
  · rw [sseFeed_eq_run H (some f) bytes hp]
    have hstep : ∀ ch (ps : Sse × w), P ps.2 →
        ((sseByte H (some f) ch ps).1 = 0 → P (sseByte H (some f) ch ps).2.2) ∧
        ((sseByte H (some f) ch ps).1 ≠ 0 →
          SseOutcome P Q (sseByte H (some f) ch ps)) := by
      intro ch ps hps
      have hout := sseByte_spec halloc hf ch ps.1 hps
      exact ⟨hout.of_zero, fun _ => hout⟩
    have hrun := @StopFold.run_spec _ _ _ _ _ _ (fun ps : Sse × w => P ps.2)
      (fun rc ps => SseOutcome P Q (rc, ps)) hstep bytes (p, s) hs
    by_cases hcode : (StopFold.run (sseByte H (some f)) bytes (p, s)).1 = 0
    · exact .inl ⟨hcode, hrun.1 hcode⟩
    · exact hrun.2 hcode
  · unfold sseFeed
    rw [if_pos hp]
    exact .inr (.inr ⟨rfl, hp, hs⟩)

omit hf in
/-- To let go of a begun mark only asks the allocator. -/
theorem sseHeld_keeps (p : Sse) {s : w} (hs : P s) : P (sseHeld H p s).2 := by
  unfold sseHeld
  split_ifs
  · exact bufAppend_keeps halloc _ _ hs
  · exact hs

/-- The end of the input brings one more line at most. -/
theorem sseTail_spec (p : Sse) {s : w} (hs : P s) :
    SseOutcome P Q (sseTail H (some f) p s) := by
  have hline := sseLine_spec halloc hf p p.line.bytes hs
  unfold sseTail
  dsimp only
  split_ifs with hlen hcode herr
  · exact hline
  · exact .inr (.inr ⟨rfl, herr, hline.of_zero (not_not.mp hcode)⟩)
  · exact .inl ⟨rfl, hline.of_zero (not_not.mp hcode)⟩
  · exact .inl ⟨rfl, hs⟩

/-- A call of {lit}`sicha_sse_finish` around a callback that keeps {lit}`P`. -/
theorem sseFinish_spec (p : Sse) {s : w} (hs : P s) :
    SseOutcome P Q (sseFinish H (some f) p s) := by
  have htail := sseTail_spec halloc hf (sseHeld H p s).1 (sseHeld_keeps halloc p hs)
  unfold sseFinish
  dsimp only
  split_ifs with herr hcode hlast hok
  · exact .inr (.inr ⟨rfl, herr, hs⟩)
  · exact htail
  all_goals
    have hline := sseLine_spec halloc hf
      (sseTail H (some f) (sseHeld H p s).1 (sseHeld H p s).2).2.1 []
      (htail.of_zero (not_not.mp hcode))
  · exact hline
  · exact .inl ⟨rfl, hline.of_zero (not_not.mp hlast)⟩
  · exact .inr (.inr ⟨rfl, hok, hline.of_zero (not_not.mp hlast)⟩)

end Rule

end Sicha
