import Sicha.Sse.Events

/-!
# The parser follows the reference

The incremental parser against the reference, for any cap, any allocator and a callback
that may stop it: the payloads it hands over are those the reference emits, in order, for
as long as no buffer fails.  A buffer fails at a line or an event that does not fit under the
cap, or because an allocation did.

Main results:

- Definition {lit}`Overflows`: a line or a pending event does not fit.
- Theorem {lit}`sseByte_follows`: what one byte does.
- Theorems {lit}`sseFeed_follows` and {lit}`sseFinish_follows`: what a chunk and the end of
  input do.
-/

namespace Sicha

variable [SizeT] {w : Type}

/-! ## The parser's state in terms of the reference -/

/-- The parser between two bytes: {lit}`cur` is the line it has begun, {lit}`vals` the
values collected for the pending event, {lit}`cap` the limit of its buffers. -/
structure Tracks (cap : Nat) (p : Sse) (cur : Bytes) (vals : List Bytes) : Prop where
  err : p.err = .ok
  line : p.line.view = ⟨cur, cap, .ok⟩
  data : p.data.view = ⟨[chLF].intercalate vals, cap, .ok⟩
  pending : p.haveData = decide (vals ≠ [])

/-- The parser without an error, its own or one of its buffers. -/
structure Sse.Sound (p : Sse) : Prop where
  err : p.err = .ok
  line : p.line.err = .ok
  data : p.data.err = .ok

/-- A parser that keeps track has no error. -/
theorem Tracks.sound {cap : Nat} {p : Sse} {cur : Bytes} {vals : List Bytes}
    (h : Tracks cap p cur vals) : p.Sound :=
  ⟨h.err, congrArg CappedBytes.err h.line, congrArg CappedBytes.err h.data⟩

/-- The line is complete, and the next one begins. -/
theorem Tracks.lineReset {cap : Nat} {p : Sse} {cur : Bytes} {vals : List Bytes}
    (h : Tracks cap p cur vals) (cr : Bool) :
    Tracks cap { p with line := bufReset p.line, lastWasCr := cr } [] vals := by
  have hmax : p.line.maxLen = cap := congrArg CappedBytes.maxLen h.line
  exact ⟨h.err, by simp [hmax, h.sound.line], h.data, h.pending⟩

/-- Without an error the check passes. -/
theorem Sse.Sound.checkBufs {p : Sse} (h : p.Sound) : sseCheckBufs p = (true, p) := by
  simp [sseCheckBufs, bufStatus, h.err, h.line, h.data]

/-- What is left to read: the LF behind a CR belongs to the line before. -/
def unread (p : Sse) (rest : Bytes) : Bytes :=
  if p.lastWasCr then dropLf rest else rest

/-- Only an LF can belong to a line that has ended. -/
theorem unread_of_ne {p : Sse} {ch : UInt8} (h : ch ≠ chLF) (rest : Bytes) :
    unread p (ch :: rest) = ch :: rest := by
  unfold unread dropLf
  split_ifs
  · split
    · rename_i hlf
      simp only [List.cons.injEq] at hlf
      exact absurd hlf.1 h
    · rfl
  · rfl

/-- What the reference still emits when {lit}`rest` follows and ends the stream. -/
def ahead (p : Sse) (cur : Bytes) (vals : List Bytes) (rest : Bytes) : List Bytes :=
  batchEvents vals (linesFrom cur (unread p rest))

/-! ## Callbacks that are followed -/

/-- A callback along whose payloads an invariant holds: {lit}`P` of the payloads it has
taken, {lit}`Q` of the one at which it stops the parser. -/
structure OnEvent.Follows (f : OnEvent w) (H : Heap w) (P : List Bytes → w → Prop)
    (Q : List Bytes → Bytes → Int → w → Prop) : Prop where
  alloc : ∀ n evs s, P evs s → P evs (H.alloc n s).2
  take : ∀ payload evs s, P evs s → (f payload s).1 = 0 → P (evs ++ [payload]) (f payload s).2
  stop : ∀ payload evs s, P evs s → (f payload s).1 ≠ 0 →
    Q evs payload (f payload s).1 (f payload s).2

/-- A line that the parser has no room for, or that makes the pending event one. -/
def Overfull (cap : Nat) (vals : List Bytes) (line : Bytes) : Prop :=
  ¬ (Fits cap line ∧ Fits cap ([chLF].intercalate (batchLine vals line).1))

/-- Behind the lines that end the events {lit}`evs` comes one that the parser has no room for. -/
def Overflows (cap : Nat) (evs lines : List Bytes) : Prop :=
  ∃ pre line post, lines = pre ++ line :: post ∧ dispatched [] pre = evs ∧
    Overfull cap (pending [] pre) line

/-- How a call into the parser ends.  It goes on with the payloads {lit}`evs` taken, or the
callback stopped it at a further one, or a buffer failed; with an allocator that does not fail,
that takes something {lit}`Full`. -/
inductive Followed (H : Heap w) (P : List Bytes → w → Prop)
    (Q : List Bytes → Bytes → Int → w → Prop) (Next : List Bytes → Sse → Prop)
    (Stop : List Bytes → Bytes → Prop) (Full : List Bytes → Prop) : Int × Sse × w → Prop
  | going {p : Sse} {s : w} (evs : List Bytes) (hnext : Next evs p) (hP : P evs s) :
      Followed H P Q Next Stop Full (0, p, s)
  | stopped {rc : Int} {p : Sse} {s : w} (evs : List Bytes) (payload : Bytes) (hrc : rc ≠ 0)
      (hstop : Stop evs payload) (hsound : p.Sound) (hQ : Q evs payload rc s) :
      Followed H P Q Next Stop Full (rc, p, s)
  | failed {p : Sse} {s : w} (evs : List Bytes) (herr : p.err ≠ .ok) (hP : P evs s)
      (hfull : H.Reliable → Full evs) : Followed H P Q Next Stop Full (-1, p, s)

section Rule

variable {H : Heap w} {f : OnEvent w} {cap : Nat} {P : List Bytes → w → Prop}
  {Q : List Bytes → Bytes → Int → w → Prop} {evs : List Bytes}

/-- What is known of the three ends may be weakened. -/
theorem Followed.weaken {Next Next' : List Bytes → Sse → Prop}
    {Stop Stop' : List Bytes → Bytes → Prop} {Full Full' : List Bytes → Prop} {r : Int × Sse × w}
    (h : Followed H P Q Next Stop Full r) (hnext : ∀ evs p, Next evs p → Next' evs p)
    (hstop : ∀ evs payload, Stop evs payload → Stop' evs payload)
    (hfull : ∀ evs, Full evs → Full' evs) : Followed H P Q Next' Stop' Full' r := by
  cases h with
  | going evs hn hP => exact .going evs (hnext _ _ hn) hP
  | stopped evs payload hrc hs hsound hQ => exact .stopped evs payload hrc (hstop _ _ hs) hsound hQ
  | failed evs herr hP hf => exact .failed evs herr hP fun hH => hfull _ (hf hH)

/-- An append that fails leaves an error, and with an allocator that does not, the sum does not
fit. -/
theorem bufAppend_view_err {b : Buf} {xs : Bytes} (h : b.view = ⟨xs, cap, .ok⟩) (ys : Bytes)
    (s : w) : (bufAppend H b ys s).1.view = ⟨xs ++ ys, cap, .ok⟩ ∨
      ((bufAppend H b ys s).1.err ≠ .ok ∧ (H.Reliable → ¬ Fits cap (xs ++ ys))) := by
  rw [← Buf.view_err]
  rcases bufAppend_view_or H b ys s with hview | ⟨-, hheap, hview⟩
  · have hfits := CappedBytes.append_ok_iff ⟨xs, cap, .ok⟩ ys
    rw [hview, h]
    by_cases hroom : Fits cap (xs ++ ys)
    · exact .inl (CappedBytes.append_ok (hfits.mpr ⟨rfl, hroom⟩))
    · exact .inr ⟨fun herr => hroom (hfits.mp herr).2, fun _ => hroom⟩
  · exact .inr ⟨by rw [hview]; simp [CappedBytes.fail], fun hH => absurd hH hheap⟩

/-- A failed buffer stays failed. -/
theorem bufAppend_sticky {b : Buf} (h : b.err ≠ .ok) (ys : Bytes) (s : w) :
    (bufAppend H b ys s).1.err ≠ .ok := by
  rcases bufAppend_view_or H b ys s with hview | ⟨hok, -, -⟩
  · rw [← Buf.view_err, hview, CappedBytes.append, if_pos (by simpa using h)]
    exact h
  · exact absurd hok h

variable (hf : f.Follows H P Q)

include hf

/-- The joiner of two values is stored, or does not fit. -/
theorem sseJoin_follows {p : Sse} {cur : Bytes} {vals : List Bytes} (h : Tracks cap p cur vals)
    {s : w} (hs : P evs s) :
    P evs (sseJoin H p s).2 ∧
      ((sseJoin H p s).1.view = ⟨[chLF].intercalate vals ++ joiner vals, cap, .ok⟩ ∨
        ((sseJoin H p s).1.err ≠ .ok ∧
          (H.Reliable → ¬ Fits cap ([chLF].intercalate vals ++ joiner vals)))) := by
  unfold sseJoin
  by_cases hvals : vals = []
  · have hpending : p.haveData = false := by simp [h.pending, hvals]
    rw [if_neg (by simp [hpending])]
    exact ⟨hs, .inl (by simp [h.data, hvals, joiner])⟩
  · have hpending : p.haveData = true := by simp [h.pending, hvals]
    rw [if_pos hpending]
    refine ⟨bufAppend_keeps (fun n s hs => hf.alloc n evs s hs) _ _ hs, ?_⟩
    rw [joiner, if_neg hvals]
    exact bufAppend_view_err h.data [chLF] s

/-- A {lit}`data` field adds its value to the pending event. -/
theorem sseCollect_follows {p : Sse} {cur : Bytes} {vals : List Bytes} (h : Tracks cap p cur vals)
    (value : Bytes) {s : w} (hs : P evs s) :
    Followed H P Q (fun evs' p' => evs' = evs ∧ Tracks cap p' cur (vals ++ [value]))
      (fun _ _ => False)
      (fun evs' => evs' = evs ∧ ¬ Fits cap ([chLF].intercalate (vals ++ [value])))
      (sseCollect H p value s) := by
  obtain ⟨hjoined, hjoin⟩ := sseJoin_follows hf h hs
  have hworld := bufAppend_keeps (fun n s hs => hf.alloc n evs s hs) (sseJoin H p s).1 value hjoined
  have hdata : (bufAppend H (sseJoin H p s).1 value (sseJoin H p s).2).1.view =
        ⟨[chLF].intercalate (vals ++ [value]), cap, .ok⟩ ∨
      ((bufAppend H (sseJoin H p s).1 value (sseJoin H p s).2).1.err ≠ .ok ∧
        (H.Reliable → ¬ Fits cap ([chLF].intercalate (vals ++ [value])))) := by
    rw [intercalate_append]
    rcases hjoin with hview | ⟨herr, hfull⟩
    · exact bufAppend_view_err hview value (sseJoin H p s).2
    · refine .inr ⟨bufAppend_sticky herr _ _, fun hH hfits => hfull hH (hfits.shorter ?_)⟩
      exact (List.prefix_append _ value).length_le
  unfold sseCollect
  dsimp only
  generalize bufAppend H (sseJoin H p s).1 value (sseJoin H p s).2 = data at hworld hdata
  rcases hdata with hview | ⟨herr, hfull⟩
  · have hnext : Tracks cap { p with data := data.1, haveData := true } cur (vals ++ [value]) :=
      ⟨h.err, h.line, hview, by simp⟩
    rw [hnext.sound.checkBufs]
    exact .going evs ⟨rfl, hnext⟩ hworld
  · have hcheck : (sseCheckBufs { p with data := data.1, haveData := true }).1 = false :=
      sseCheckBufs_failed (.inr herr)
    rw [if_neg (by simp [hcheck])]
    exact .failed evs (sseCheckBufs_false hcheck) hworld fun hH => ⟨rfl, hfull hH⟩

/-- A blank line hands over what has been collected. -/
theorem sseDispatch_follows {p : Sse} {cur : Bytes} {vals : List Bytes} (h : Tracks cap p cur vals)
    {s : w} (hs : P evs s) :
    Followed H P Q (fun evs' p' => evs' = evs ++ emit vals ∧ Tracks cap p' cur [])
      (fun evs' payload => evs' = evs ∧ emit vals = [payload]) (fun _ => False)
      (sseDispatch (some f) p s) := by
  unfold sseDispatch
  by_cases hvals : vals = []
  · have hpending : p.haveData = false := by simp [h.pending, hvals]
    rw [if_neg (by simp [hpending])]
    exact .going evs ⟨by simp [emit, hvals], hvals ▸ h⟩ hs
  · have hpending : p.haveData = true := by simp [h.pending, hvals]
    have hbytes : p.data.bytes = [chLF].intercalate vals := congrArg CappedBytes.bytes h.data
    have hmax : p.data.maxLen = cap := congrArg CappedBytes.maxLen h.data
    have herr : p.data.err = .ok := congrArg CappedBytes.err h.data
    have hemit : emit vals = [p.data.bytes] := by simp [emit, hvals, hbytes]
    have hnext : Tracks cap { p with data := bufReset p.data, haveData := false } cur [] :=
      ⟨h.err, h.line, by simp [hmax, herr], by simp⟩
    rw [if_pos hpending]
    dsimp only
    by_cases hcode : (f p.data.bytes s).1 = 0
    · rw [hcode]
      exact .going _ ⟨by rw [hemit], hnext⟩ (hf.take _ _ _ hs hcode)
    · exact .stopped evs p.data.bytes hcode ⟨rfl, hemit⟩ hnext.sound (hf.stop _ _ _ hs hcode)

/-- One line does to the parser what it does to the reference. -/
theorem sseLine_follows {p : Sse} {cur : Bytes} {vals : List Bytes} (h : Tracks cap p cur vals)
    (line : Bytes) {s : w} (hs : P evs s) :
    Followed H P Q
      (fun evs' p' => evs' = evs ++ (batchLine vals line).2 ∧
        Tracks cap p' cur (batchLine vals line).1)
      (fun evs' payload => evs' = evs ∧ (batchLine vals line).2 = [payload])
      (fun evs' => evs' = evs ∧ ¬ Fits cap ([chLF].intercalate (batchLine vals line).1))
      (sseLine H (some f) p line s) := by
  unfold sseLine batchLine
  by_cases hempty : line = []
  · have hlen : line.length = 0 := by simp [hempty]
    rw [if_pos hlen, if_pos hempty]
    exact (sseDispatch_follows hf h hs).weaken (fun _ _ h => h) (fun _ _ h => h) fun _ h => h.elim
  have hlen : ¬ line.length = 0 := by simpa using hempty
  rw [if_neg hlen, if_neg hempty]
  by_cases hcomment : line.head? = some chColon
  · rw [if_pos hcomment, if_pos hcomment]
    exact .going evs ⟨(List.append_nil _).symm, h⟩ hs
  rw [if_neg hcomment, if_neg hcomment]
  by_cases hdata : fieldName line = ascii "data"
  · rw [if_pos ((isDataField_iff line).mpr hdata), if_pos hdata, ← (sseField_spec line).2.2]
    refine (sseCollect_follows hf h (fieldValue line) hs).weaken ?_ (fun _ _ h => h.elim)
      fun _ h => h
    rintro evs' p' ⟨rfl, hnext⟩
    exact ⟨(List.append_nil _).symm, hnext⟩
  · rw [if_neg fun hfield => hdata ((isDataField_iff line).mp hfield), if_neg hdata]
    exact .going evs ⟨(List.append_nil _).symm, h⟩ hs

/-- How one byte behind the byte order mark is taken, in terms of the lines that follow: those that
it ends are behind the parser, and the callback or a buffer may stop at one of them. -/
def CharFollowed (H : Heap w) (P : List Bytes → w → Prop) (Q : List Bytes → Bytes → Int → w → Prop)
    (cap : Nat) (evs : List Bytes) (p : Sse) (cur : Bytes) (vals : List Bytes) (ch : UInt8) :
    Int × Sse × w → Prop :=
  Followed H P Q
    (fun evs' p' => p'.bomDecided = p.bomDecided ∧ ∃ cur' more,
      Tracks cap p' cur' (pending vals more) ∧ evs' = evs ++ dispatched vals more ∧
      ∀ rest, linesFrom cur (unread p (ch :: rest)) = more ++ linesFrom cur' (unread p' rest))
    (fun evs' payload => ∀ rest, evs' ++ [payload] <+: evs ++ ahead p cur vals (ch :: rest))
    fun evs' => evs' = evs ∧ ∀ rest, ∃ line lines,
      linesFrom cur (unread p (ch :: rest)) = line :: lines ∧ Overfull cap vals line

/-- A byte that ends its line. -/
theorem sseChar_ends {p : Sse} {cur : Bytes} {vals : List Bytes} (h : Tracks cap p cur vals)
    {ch : UInt8} (hcrlf : ¬ (p.lastWasCr = true ∧ ch = chLF)) (hterm : ch = chCR ∨ ch = chLF)
    {s : w} (hs : P evs s) :
    CharFollowed H P Q cap evs p cur vals ch (sseChar H (some f) ch p s) := by
  have hbom := sseChar_bomDecided H (some f) ch p s
  have hbytes : p.line.bytes = cur := congrArg CappedBytes.bytes h.line
  have hclear : Tracks cap { p with lastWasCr := false } cur vals :=
    ⟨h.err, h.line, h.data, h.pending⟩
  have hlines : ∀ (p' : Sse) rest, p'.lastWasCr = (ch == chCR) →
      linesFrom cur (unread p (ch :: rest)) = cur :: linesFrom [] (unread p' rest) := by
    intro p' rest hcr
    rcases hterm with rfl | rfl
    · rw [unread_of_ne (by decide), linesFrom_cr]
      simp [unread, hcr]
    · have hcr' : p.lastWasCr = false := by simpa using hcrlf
      simp only [unread, hcr', hcr, Bool.false_eq_true, if_false, linesFrom_lf]
      simp [chCR, chLF]
  have hline := sseLine_follows hf hclear cur hs
  unfold sseChar at hbom ⊢
  rw [if_neg hcrlf, if_pos hterm, hbytes] at hbom ⊢
  dsimp only at hbom ⊢
  generalize sseLine H (some f) { p with lastWasCr := false } cur s = l at hline hbom
  cases hline with
  | @going q t evs' hnext hP =>
      obtain ⟨rfl, htracks⟩ := hnext
      rw [if_neg (by simp)] at hbom ⊢
      rw [if_neg (by simpa using htracks.err)] at hbom ⊢
      exact .going _ ⟨hbom, [], [cur], htracks.lineReset _, by simp [dispatched],
        fun rest => hlines _ rest rfl⟩ hP
  | @stopped rc q t evs' payload hrc hstop hsound hQ =>
      obtain ⟨rfl, hpayload⟩ := hstop
      rw [if_pos hrc]
      refine .stopped _ payload hrc ?_ ⟨hsound.err, by exact hsound.line, hsound.data⟩ hQ
      intro rest
      rw [ahead, hlines { q with line := bufReset q.line, lastWasCr := ch == chCR } rest rfl,
        batchEvents, hpayload, ← List.append_assoc]
      exact List.prefix_append _ _
  | @failed q t evs' herr hP hfull =>
      rw [if_pos (by simp)]
      refine .failed evs' herr hP fun hH => ⟨(hfull hH).1, fun rest => ?_⟩
      exact ⟨cur, _, hlines { p with lastWasCr := ch == chCR } rest rfl,
        fun hfits => (hfull hH).2 hfits.2⟩

/-- A byte that its line goes on with. -/
theorem sseChar_goes {p : Sse} {cur : Bytes} {vals : List Bytes} (h : Tracks cap p cur vals)
    {ch : UInt8} (hterm : ¬ (ch = chCR ∨ ch = chLF)) {s : w} (hs : P evs s) :
    CharFollowed H P Q cap evs p cur vals ch (sseChar H (some f) ch p s) := by
  have hcrlf : ¬ (p.lastWasCr = true ∧ ch = chLF) := fun hboth => hterm (.inr hboth.2)
  have hworld := bufAppend_keeps (fun n s hs => hf.alloc n evs s hs) p.line [ch] hs
  have hline := @bufAppend_view_err _ _ H _ _ _ h.line [ch] s
  have hlines : ∀ rest, linesFrom cur (unread p (ch :: rest)) = linesFrom (cur ++ [ch]) rest := by
    intro rest
    rw [unread_of_ne (fun hlf => hterm (.inr hlf)), linesFrom_other cur rest hterm]
  unfold sseChar bufAppendCh
  rw [if_neg hcrlf, if_neg hterm]
  dsimp only
  generalize bufAppend H p.line [ch] s = line at hworld hline
  rcases hline with hview | ⟨herr, hfull⟩
  · have hnext : Tracks cap { p with line := line.1, lastWasCr := false } (cur ++ [ch]) vals :=
      ⟨h.err, hview, h.data, h.pending⟩
    rw [hnext.sound.checkBufs]
    refine .going evs ⟨rfl, cur ++ [ch], [], hnext, (List.append_nil _).symm, ?_⟩ hworld
    intro rest
    rw [hlines]
    simp [unread]
  · have hcheck : (sseCheckBufs { p with line := line.1, lastWasCr := false }).1 = false :=
      sseCheckBufs_failed (.inl herr)
    rw [if_neg (by simp [hcheck])]
    -- the line goes on, and is at least as long as what has been begun of it
    refine .failed evs (sseCheckBufs_false hcheck) hworld fun hH => ⟨rfl, fun rest => ?_⟩
    have hbegun : cur ++ [ch] ≠ [] := by simp
    obtain ⟨long, lines, hlong, hle⟩ := linesFrom_begun hbegun rest
    exact ⟨long, lines, (hlines rest).trans hlong, fun hfits => hfull hH (hfits.1.shorter hle)⟩

/-- One byte behind the byte order mark. -/
theorem sseChar_follows {p : Sse} {cur : Bytes} {vals : List Bytes} (h : Tracks cap p cur vals)
    (ch : UInt8) {s : w} (hs : P evs s) :
    CharFollowed H P Q cap evs p cur vals ch (sseChar H (some f) ch p s) := by
  by_cases hcrlf : p.lastWasCr = true ∧ ch = chLF
  · -- the LF behind a CR ends no line
    unfold sseChar
    rw [if_pos hcrlf]
    refine .going evs ⟨rfl, cur, [], ⟨h.err, h.line, h.data, h.pending⟩,
      (List.append_nil _).symm, ?_⟩ hs
    intro rest
    simp [unread, hcrlf.1, hcrlf.2, dropLf, chLF]
  · by_cases hterm : ch = chCR ∨ ch = chLF
    · exact sseChar_ends hf h hcrlf hterm hs
    · exact sseChar_goes hf h hterm hs

end Rule

/-! ## Chunks and the end of input -/

/-- The parser at the start of a stream, with {lit}`k` bytes of a byte order mark held
back. -/
structure Fresh (cap : Nat) (p : Sse) (k : Nat) : Prop where
  tracks : Tracks cap p [] []
  undecided : p.bomDecided = false
  seen : p.bomSeen = k
  lastWasCr : p.lastWasCr = false

/-- A parser that has read {lit}`bytes` and handed over {lit}`evs`: it may still be within the
byte order mark, or it has read the lines {lit}`pre` and begun another. -/
inductive Reading (cap : Nat) (p : Sse) (bytes : Bytes) (evs : List Bytes) : Prop
  | start {k : Nat} (hk : k < 3) (hbytes : bytes = bom.take k) (hevs : evs = [])
      (h : Fresh cap p k)
  | behind {cur : Bytes} {pre : List Bytes} (h : Tracks cap p cur (pending [] pre))
      (hdecided : p.bomDecided = true) (hevs : dispatched [] pre = evs)
      (hlines : ∀ rest, streamLines (bytes ++ rest) = pre ++ linesFrom cur (unread p rest))

/-- A new parser has read nothing. -/
theorem Reading.init (cap : Nat) : Reading cap (sseInit cap) [] [] :=
  .start (k := 0) (by decide) rfl rfl
    ⟨⟨rfl, bufInit_view cap, bufInit_view cap, rfl⟩, rfl, rfl, rfl⟩

/-- A parser that reads has no error. -/
theorem Reading.sound {cap : Nat} {p : Sse} {bytes : Bytes} {evs : List Bytes}
    (h : Reading cap p bytes evs) : p.Sound := by
  cases h with
  | start _ _ _ h => exact h.tracks.sound
  | behind h _ _ _ => exact h.sound

/-- What the reference emits behind the lines that have been read is what is left to the
parser. -/
theorem sseBatch_behind {p : Sse} {bytes cur rest : Bytes} {pre : List Bytes}
    (hlines : streamLines (bytes ++ rest) = pre ++ linesFrom cur (unread p rest)) :
    sseBatch (bytes ++ rest) = dispatched [] pre ++ ahead p cur (pending [] pre) rest := by
  rw [sseBatch_streamLines, hlines, batchEvents_append, ahead]

section Chunks

variable {H : Heap w} {f : OnEvent w} {cap : Nat} {P : List Bytes → w → Prop}
  {Q : List Bytes → Bytes → Int → w → Prop} {evs : List Bytes} (hf : f.Follows H P Q)

include hf

/-- One byte behind the byte order mark, in terms of the lines of the stream. -/
theorem sseChar_reads {p : Sse} {bytes cur : Bytes} {pre : List Bytes} {ch : UInt8}
    (h : Tracks cap p cur (pending [] pre)) (hdecided : p.bomDecided = true)
    (hlines : ∀ rest, streamLines (bytes ++ ch :: rest) =
      pre ++ linesFrom cur (unread p (ch :: rest)))
    {s : w} (hs : P (dispatched [] pre) s) :
    Followed H P Q (fun evs p' => Reading cap p' (bytes ++ [ch]) evs)
      (fun evs payload => ∀ rest, evs ++ [payload] <+: sseBatch (bytes ++ ch :: rest))
      (fun evs => ∀ rest, Overflows cap evs (streamLines (bytes ++ ch :: rest)))
      (sseChar H (some f) ch p s) := by
  refine (sseChar_follows hf h ch hs).weaken ?_ ?_ ?_
  · rintro evs p' ⟨hbom, cur', more, hnext, rfl, hmore⟩
    rw [← pending_append] at hnext
    refine .behind hnext (hbom.trans hdecided) (dispatched_append [] pre more) fun rest => ?_
    rw [List.append_assoc, List.singleton_append, hlines, hmore, List.append_assoc]
  · intro evs payload hstop rest
    rw [sseBatch_behind (hlines rest)]
    exact hstop rest
  · rintro evs ⟨rfl, hfull⟩ rest
    obtain ⟨line, lines, hline, hover⟩ := hfull rest
    exact ⟨pre, line, lines, by rw [hlines, hline], rfl, hover⟩

/-- One byte. -/
theorem sseByte_follows {p : Sse} {bytes : Bytes} (h : Reading cap p bytes evs) (ch : UInt8)
    {s : w} (hs : P evs s) :
    Followed H P Q (fun evs' p' => Reading cap p' (bytes ++ [ch]) evs')
      (fun evs' payload => ∀ rest, evs' ++ [payload] <+: sseBatch (bytes ++ ch :: rest))
      (fun evs' => ∀ rest, Overflows cap evs' (streamLines (bytes ++ ch :: rest)))
      (sseByte H (some f) ch (p, s)) := by
  cases h with
  | @behind cur pre h hdecided hevs hlines =>
      subst hevs
      unfold sseByte
      rw [if_pos hdecided]
      exact sseChar_reads hf h hdecided (fun rest => hlines (ch :: rest)) hs
  | @start k hk hbytes hevs h =>
      subst hbytes hevs
      unfold sseByte
      rw [if_neg (by simp [h.undecided])]
      dsimp only
      rw [h.seen]
      by_cases hbom : bom[k]? = some ch
      · have htake : bom.take k ++ [ch] = bom.take (k + 1) := by
          simp [List.take_add_one, hbom]
        have htracks : Tracks cap { p with bomSeen := k + 1, bomDecided := k + 1 == 3 } []
            (pending [] []) :=
          ⟨h.tracks.err, h.tracks.line, h.tracks.data, h.tracks.pending⟩
        rw [if_pos hbom]
        refine .going [] ?_ hs
        rw [htake]
        by_cases hlast : k + 1 = 3
        · refine .behind htracks (by simp [hlast]) rfl fun rest => ?_
          rw [hlast, unread]
          simp only [h.lastWasCr, Bool.false_eq_true, if_false]
          exact streamLines_bom rest
        · exact .start (k := k + 1) (by omega) rfl rfl
            ⟨htracks, by simp; omega, rfl, h.lastWasCr⟩
      · rw [if_neg hbom]
        have hworld := bufAppend_keeps (fun n s hs => hf.alloc n [] s hs) p.line (bom.take k) hs
        have hline := @bufAppend_view_err _ _ H _ _ _ h.tracks.line (bom.take k) s
        generalize bufAppend H p.line (bom.take k) s = line at hworld hline
        rcases hline with hview | ⟨herr, hfull⟩
        · have hnext : Tracks cap { p with line := line.1, bomSeen := 0, bomDecided := true }
              (bom.take k) (pending [] []) := ⟨h.tracks.err, hview, h.tracks.data, h.tracks.pending⟩
          rw [hnext.sound.checkBufs]
          refine sseChar_reads hf hnext rfl (fun rest => ?_) hworld
          rw [streamLines_held hk hbom, unread]
          simp only [h.lastWasCr, Bool.false_eq_true, if_false, List.nil_append]
        · have hcheck : (sseCheckBufs { p with
              line := line.1, bomSeen := 0, bomDecided := true }).1 = false :=
            sseCheckBufs_failed (.inl herr)
          rw [if_neg (by simp [hcheck])]
          -- the first line begins with the bytes that were held back
          refine .failed [] (sseCheckBufs_false hcheck) hworld fun hH rest => ?_
          have hnone : ¬ Fits cap (bom.take k) := hfull hH
          have hbegun : bom.take k ≠ [] := by
            intro hnil
            have hmax := sizeMax_ge
            rw [hnil] at hnone
            exact hnone ⟨.inr (Nat.zero_le _), by simp only [List.length_nil]; omega⟩
          obtain ⟨long, lines, hlong, hle⟩ := linesFrom_begun hbegun (ch :: rest)
          exact ⟨[], long, lines, (streamLines_held hk hbom rest).trans hlong, rfl,
            fun hfits => hnone (hfits.1.shorter hle)⟩

/-- What the parser makes of some bytes is what the reference makes of them. -/
theorem sseBytes_follows (more : Bytes) {p : Sse} {bytes : Bytes} (h : Reading cap p bytes evs)
    {s : w} (hs : P evs s) :
    Followed H P Q (fun evs' p' => Reading cap p' (bytes ++ more) evs')
      (fun evs' payload => ∀ rest, evs' ++ [payload] <+: sseBatch (bytes ++ more ++ rest))
      (fun evs' => ∀ rest, Overflows cap evs' (streamLines (bytes ++ more ++ rest)))
      (StopFold.run (sseByte H (some f)) more (p, s)) := by
  induction more generalizing evs p bytes s with
  | nil => exact .going evs (by simpa using h) hs
  | cons ch more ih =>
      have hbyte := sseByte_follows hf h ch hs
      have hone : bytes ++ ch :: more = bytes ++ [ch] ++ more := by simp
      have hrest : ∀ rest, bytes ++ ch :: more ++ rest = bytes ++ ch :: (more ++ rest) := by simp
      rw [StopFold.run_cons]
      generalize sseByte H (some f) ch (p, s) = r at hbyte
      cases hbyte with
      | @going q t evs' hnext hP =>
          rw [if_pos rfl, hone]
          exact ih hnext hP
      | @stopped rc q t evs' payload hrc hstop hsound hQ =>
          rw [if_neg hrc]
          refine .stopped evs' payload hrc (fun rest => ?_) hsound hQ
          rw [hrest]
          exact hstop (more ++ rest)
      | @failed q t evs' herr hP hfull =>
          rw [if_neg (by simp)]
          refine .failed evs' herr hP fun hH rest => ?_
          rw [hrest]
          exact hfull hH (more ++ rest)

/-- A chunk. -/
theorem sseFeed_follows (more : Bytes) {p : Sse} {bytes : Bytes} (h : Reading cap p bytes evs)
    {s : w} (hs : P evs s) :
    Followed H P Q (fun evs' p' => Reading cap p' (bytes ++ more) evs')
      (fun evs' payload => ∀ rest, evs' ++ [payload] <+: sseBatch (bytes ++ more ++ rest))
      (fun evs' => ∀ rest, Overflows cap evs' (streamLines (bytes ++ more ++ rest)))
      (sseFeed H (some f) p more s) := by
  rw [sseFeed_eq_run H (some f) more h.sound.err]
  exact sseBytes_follows hf more h hs

/-- A stream that ends within a byte order mark has no events. -/
theorem sseFinish_start {k : Nat} (hk : k < 3) {p : Sse} (h : Fresh cap p k) {s : w}
    (hs : P evs s) :
    (sseFinish H (some f) p s).1 = 0 ∧ P evs (sseFinish H (some f) p s).2.2 := by
  have hquiet : ∀ q : Sse, q.haveData = false → ∀ t : w,
      sseLine H (some f) q [] t = (0, q, t) := by
    intro q hq t
    simp [sseLine, sseDispatch, hq]
  have hplain : ∀ line : Bytes, line = bom.take k → line.length > 0 → ∀ (q : Sse) (t : w),
      sseLine H (some f) q line t = (0, q, t) := by
    intro line hline hpos q t
    subst hline
    match k, hk with
    | 0, _ => simp at hpos
    | 1, _ => rfl
    | 2, _ => rfl
  have hpending : p.haveData = false := by simp [h.tracks.pending]
  have hworld := bufAppend_keeps (fun n s hs => hf.alloc n evs s hs) p.line (bom.take k) hs
  have hheld : ∃ q t, sseHeld H p s = (q, t) ∧ P evs t ∧ q.haveData = false ∧ q.err = .ok ∧
      (q.line.bytes = [] ∨ q.line.bytes = bom.take k) := by
    have hempty : p.line.bytes = [] := congrArg CappedBytes.bytes h.tracks.line
    unfold sseHeld
    rw [h.seen]
    split_ifs
    · refine ⟨_, _, rfl, hworld, hpending, h.tracks.err, ?_⟩
      rcases bufAppend_bytes H p.line (bom.take k) s with ⟨-, hbytes⟩ | ⟨-, hbytes⟩
      · exact .inr (by rw [hbytes, hempty, List.nil_append])
      · exact .inl (by rw [hbytes, hempty])
    · exact ⟨_, _, rfl, hs, hpending, h.tracks.err, .inl hempty⟩
  obtain ⟨q, t, hq, ht, hqpending, hqerr, hbytes⟩ := hheld
  have htail : ∃ q', sseTail H (some f) q t = (0, q', t) ∧ q'.haveData = false ∧ q'.err = .ok := by
    unfold sseTail
    split_ifs with hlen
    · have hline : q.line.bytes = bom.take k := by
        refine hbytes.resolve_left fun hnil => ?_
        rw [← Buf.bytes_length, hnil] at hlen
        cases hlen
      rw [hplain q.line.bytes hline (by simpa using hlen)]
      dsimp only
      rw [if_neg (by simp), if_neg (by simpa using hqerr)]
      exact ⟨_, rfl, hqpending, hqerr⟩
    · exact ⟨q, rfl, hqpending, hqerr⟩
  obtain ⟨q', htail, hpending', herr'⟩ := htail
  unfold sseFinish
  rw [if_neg (by simpa using h.tracks.err), hq]
  dsimp only
  rw [htail, hquiet q' hpending']
  simp [herr', ht]

omit hf in
/-- Behind the first bytes nothing is held back. -/
theorem sseHeld_decided {p : Sse} (h : p.bomDecided = true) (s : w) : sseHeld H p s = (p, s) := by
  have hsame : { p with bomDecided := true } = p := by rw [← h]
  simp [sseHeld, h, hsame]

omit hf in
/-- The end of input behind a complete line. -/
theorem Tracks.tail_nil {p : Sse} {vals : List Bytes} (h : Tracks cap p [] vals) (s : w) :
    sseTail H (some f) p s = (0, p, s) := by
  have hline : p.line.bytes = [] := congrArg CappedBytes.bytes h.line
  have hlen : p.line.len = 0 := by
    rw [← Buf.bytes_length, hline]
    rfl
  simp [sseTail, hlen]

omit hf in
/-- The end of input within a line completes it. -/
theorem Tracks.tail_line {p : Sse} {cur : Bytes} {vals : List Bytes} (h : Tracks cap p cur vals)
    (hcur : cur ≠ []) (s : w) : sseTail H (some f) p s =
      (let r := sseLine H (some f) p cur s
       (if r.1 ≠ 0 then r.1 else if r.2.1.err ≠ .ok then -1 else 0,
         { r.2.1 with line := bufReset r.2.1.line }, r.2.2)) := by
  have hline : p.line.bytes = cur := congrArg CappedBytes.bytes h.line
  have hlen : p.line.len = cur.length := by rw [← Buf.bytes_length, hline]
  rw [sseTail, hlen, hline, if_pos (List.length_pos_iff.mpr hcur)]

/-- The blank line that ends the input, behind a complete line. -/
theorem sseBlank_follows {q : Sse} {vals : List Bytes} (h : Tracks cap q [] vals) {t : w}
    (ht : P evs t) {all : List Bytes} (hall : evs ++ emit vals = all) (Full : List Bytes → Prop) :
    Followed H P Q (fun evs' p' => evs' = all ∧ (p'.Sound ∨ evs' = []))
      (fun evs' payload => evs' ++ [payload] <+: all) Full
      (let r := sseLine H (some f) q [] t
       if r.1 ≠ 0 then r else (if r.2.1.err = .ok then 0 else -1, r.2.1, r.2.2)) := by
  have hline := sseDispatch_follows hf h ht
  rw [show sseLine H (some f) q [] t = sseDispatch (some f) q t from rfl]
  dsimp only
  generalize sseDispatch (some f) q t = r at hline
  cases hline with
  | @going q' t' evs' hnext hP =>
      obtain ⟨rfl, hnext⟩ := hnext
      rw [if_neg (by simp), if_pos hnext.err]
      exact .going _ ⟨hall, .inl hnext.sound⟩ hP
  | @stopped rc q' t' evs' payload hrc hstop hsound hQ =>
      obtain ⟨rfl, hpayload⟩ := hstop
      rw [if_pos hrc]
      refine .stopped _ payload hrc ?_ hsound hQ
      exact ⟨[], by rw [List.append_nil, ← hall, hpayload]⟩
  | @failed q' t' evs' herr hP hfull =>
      rw [if_pos (by simp)]
      exact .failed evs' herr hP fun hH => (hfull hH).elim

/-- The end of input behind the byte order mark. -/
theorem sseFinish_behind {p : Sse} {cur : Bytes} {vals : List Bytes} (h : Tracks cap p cur vals)
    (hdecided : p.bomDecided = true) {s : w} (hs : P evs s) {all : List Bytes}
    (hall : evs ++ batchEvents vals (linesFrom cur []) = all) :
    Followed H P Q (fun evs' p' => evs' = all ∧ (p'.Sound ∨ evs' = []))
      (fun evs' payload => evs' ++ [payload] <+: all)
      (fun evs' => evs' = evs ∧ linesFrom cur [] = [cur] ∧ Overfull cap vals cur)
      (sseFinish H (some f) p s) := by
  unfold sseFinish
  rw [if_neg (by simpa using h.err), sseHeld_decided hdecided]
  dsimp only
  by_cases hcur : cur = []
  · subst hcur
    rw [h.tail_nil, if_neg (by simp)]
    exact sseBlank_follows hf h hs hall _
  · have hone : linesFrom cur [] = [cur] := by simp [linesFrom, hcur]
    have hevents : batchEvents vals (linesFrom cur []) =
        (batchLine vals cur).2 ++ emit (batchLine vals cur).1 := by
      simp [hone, batchEvents]
    have htail := h.tail_line (H := H) (f := f) hcur s
    have hline := sseLine_follows hf h cur hs
    rw [hevents, ← List.append_assoc] at hall
    generalize sseTail H (some f) p s = tail at htail
    dsimp only at htail
    generalize sseLine H (some f) p cur s = r at hline htail
    cases hline with
    | @going q t evs' hnext hP =>
        obtain ⟨rfl, hnext⟩ := hnext
        have hreset : Tracks cap { q with line := bufReset q.line } []
            (batchLine vals cur).1 := hnext.lineReset q.lastWasCr
        dsimp only at htail
        rw [if_neg (by simp), if_neg (by simpa using hnext.err)] at htail
        rw [htail, if_neg (by simp)]
        exact sseBlank_follows hf hreset hP hall _
    | @stopped rc q t evs' payload hrc hstop hsound hQ =>
        obtain ⟨rfl, hpayload⟩ := hstop
        dsimp only at htail
        rw [if_pos hrc] at htail
        rw [htail, if_pos hrc]
        refine .stopped _ payload hrc ?_ ⟨hsound.err, hsound.line, hsound.data⟩ hQ
        rw [← hall, hpayload]
        exact List.prefix_append _ _
    | @failed q t evs' herr hP hfull =>
        dsimp only at htail
        rw [if_pos (by simp)] at htail
        rw [htail, if_pos (by simp)]
        refine .failed evs' herr hP fun hH => ?_
        obtain ⟨rfl, hover⟩ := hfull hH
        exact ⟨rfl, hone, fun hfits => hover hfits.2⟩

/-- The end of input.  Only at the start of a stream may a failed buffer go unnoticed. -/
theorem sseFinish_follows {p : Sse} {bytes : Bytes} (h : Reading cap p bytes evs) {s : w}
    (hs : P evs s) :
    Followed H P Q (fun evs' p' => evs' = sseBatch bytes ∧ (p'.Sound ∨ evs' = []))
      (fun evs' payload => evs' ++ [payload] <+: sseBatch bytes)
      (fun evs' => Overflows cap evs' (streamLines bytes)) (sseFinish H (some f) p s) := by
  cases h with
  | @start k hk hbytes hevs h =>
      have hnone : sseBatch (bom.take k) = [] := by
        match k, hk with
        | 0, _ => rfl
        | 1, _ => rfl
        | 2, _ => rfl
      obtain ⟨hzero, hP⟩ := sseFinish_start hf hk h hs
      generalize sseFinish H (some f) p s = r at hzero hP
      obtain ⟨rc, q, t⟩ := r
      dsimp only at hzero hP
      subst hzero hbytes hevs
      exact .going [] ⟨hnone.symm, .inr rfl⟩ hP
  | @behind cur pre h hdecided hevs hlines =>
      subst hevs
      have hunread : unread p [] = [] := by simp [unread, dropLf]
      have hstream : streamLines bytes = pre ++ linesFrom cur [] := by
        have hend := hlines []
        rwa [List.append_nil, hunread] at hend
      have hall : dispatched [] pre ++ batchEvents (pending [] pre) (linesFrom cur []) =
          sseBatch bytes := by
        rw [sseBatch_streamLines, hstream, batchEvents_append]
      refine (sseFinish_behind hf h hdecided hs hall).weaken (fun _ _ h => h) (fun _ _ h => h) ?_
      rintro _ ⟨rfl, hone, hover⟩
      exact ⟨pre, cur, [], hstream.trans (by rw [hone]), rfl, hover⟩

end Chunks

end Sicha
