import Sicha.Sse

/-!
# Two parsers side by side

Two parsers that are fed the same bytes, over different allocators, callbacks and worlds,
answer alike as long as their callbacks do.  Their buffers need not be equal: it is enough
that nobody who reads them can tell them apart.

Main results:

- Definition {lit}`Twins`: a relation between buffers that every operation keeps.
- Theorems {lit}`sseFeed_twin` and {lit}`sseFinish_twin`: two parsers in lockstep.
- Theorem {lit}`sseFeed_watched`: a callback that keeps what it is handed drives the parser
  as the callback itself does.
-/

namespace Sicha

variable [SizeT] {v w : Type}

/-! ## Buffers that look alike -/

/-- {lit}`B` relates buffers that show the same bytes, cap and error, and appends and resets
keep it. -/
structure Twins (B : Buf → Buf → Prop) (H : Heap v) (K : Heap w) (Rel : v → w → Prop) :
    Prop where
  view : ∀ {b b'}, B b b' → b.view = b'.view
  append : ∀ {b b'} (xs : Bytes) {s t}, B b b' → Rel s t →
    B (bufAppend H b xs s).1 (bufAppend K b' xs t).1 ∧
      Rel (bufAppend H b xs s).2 (bufAppend K b' xs t).2
  reset : ∀ {b b'}, B b b' → B (bufReset b) (bufReset b')

/-- Two buffers that nobody can tell apart. -/
def SameView (b b' : Buf) : Prop :=
  b.view = b'.view

/-- Equal buffers stay equal over allocators that answer alike. -/
theorem Twins.of_sim {H : Heap v} {K : Heap w} {Rel : v → w → Prop} (hsim : H.Sim K Rel) :
    Twins Eq H K Rel where
  view := by
    rintro b _ rfl
    rfl
  append := by
    rintro b _ xs s t rfl hst
    exact bufAppend_sim hsim b xs hst
  reset := by
    rintro b _ rfl
    rfl

/-- The world after an append that every request of the allocator leaves related. -/
theorem bufAppend_left {H : Heap v} {Rel : v → w → Prop}
    (hleft : ∀ n s t, Rel s t → Rel (H.alloc n s).2 t) (b : Buf) (xs : Bytes) {s : v} {t : w}
    (hst : Rel s t) : Rel (bufAppend H b xs s).2 t :=
  bufAppend_keeps (P := fun s => Rel s t) (fun n s hs => hleft n s t hs) b xs hst

/-- Over allocators that never fail, and that the relation does not see, buffers that look
alike go on looking alike. -/
theorem Twins.of_reliable {H : Heap v} {K : Heap w} {Rel : v → w → Prop} (hH : H.Reliable)
    (hK : K.Reliable) (hleft : ∀ n s t, Rel s t → Rel (H.alloc n s).2 t)
    (hright : ∀ n s t, Rel s t → Rel s (K.alloc n t).2) : Twins SameView H K Rel where
  view := id
  append := by
    intro b b' xs s t hview hst
    constructor
    · unfold SameView at *
      rw [bufAppend_view hH, bufAppend_view hK, hview]
    · have hone := bufAppend_left hleft b xs hst
      exact bufAppend_keeps (P := fun t => Rel (bufAppend H b xs s).2 t)
        (fun n t ht => hright n _ t ht) b' xs hone
  reset := by
    intro b b' hview
    have hmax : b.maxLen = b'.maxLen := congrArg CappedBytes.maxLen hview
    have herr : b.err = b'.err := congrArg CappedBytes.err hview
    simp [SameView, hmax, herr]

section Lockstep

variable {B : Buf → Buf → Prop} {H : Heap v} {K : Heap w} {Rel : v → w → Prop}

/-- Buffers that are alike have the same content. -/
theorem Twins.bytes (hB : Twins B H K Rel) {b b' : Buf} (h : B b b') : b.bytes = b'.bytes :=
  congrArg CappedBytes.bytes (hB.view h)

/-- They have the same error. -/
theorem Twins.err (hB : Twins B H K Rel) {b b' : Buf} (h : B b b') : b.err = b'.err :=
  congrArg CappedBytes.err (hB.view h)

/-- They have the same length. -/
theorem Twins.len (hB : Twins B H K Rel) {b b' : Buf} (h : B b b') : b.len = b'.len := by
  rw [← b.bytes_length, ← b'.bytes_length, hB.bytes h]

/-! ## Parsers in lockstep -/

/-- Two parsers in the same place. -/
structure SseTwin (B : Buf → Buf → Prop) (p p' : Sse) : Prop where
  line : B p.line p'.line
  data : B p.data p'.data
  haveData : p.haveData = p'.haveData
  lastWasCr : p.lastWasCr = p'.lastWasCr
  bomSeen : p.bomSeen = p'.bomSeen
  bomDecided : p.bomDecided = p'.bomDecided
  maxEventBytes : p.maxEventBytes = p'.maxEventBytes
  err : p.err = p'.err

/-- Two callbacks that answer alike from related worlds. -/
def OnEvent.Twin (f : OnEvent v) (g : OnEvent w) (Rel : v → w → Prop) : Prop :=
  ∀ payload s t, Rel s t →
    (f payload s).1 = (g payload t).1 ∧ Rel (f payload s).2 (g payload t).2

/-- Two calls into the parser that answer alike. -/
structure TwinOut (B : Buf → Buf → Prop) (Rel : v → w → Prop) (r : Int × Sse × v)
    (r' : Int × Sse × w) : Prop where
  code : r.1 = r'.1
  parser : SseTwin B r.2.1 r'.2.1
  world : Rel r.2.2 r'.2.2

variable (hB : Twins B H K Rel)

include hB

/-- Parsers that are alike are checked alike. -/
theorem sseCheckBufs_twin {p q : Sse} (h : SseTwin B p q) :
    (sseCheckBufs p).1 = (sseCheckBufs q).1 ∧ SseTwin B (sseCheckBufs p).2 (sseCheckBufs q).2 := by
  unfold sseCheckBufs bufStatus
  rw [h.err, hB.err h.line, hB.err h.data]
  split_ifs
  · exact ⟨rfl, h⟩
  · exact ⟨rfl, h.line, h.data, h.haveData, h.lastWasCr, h.bomSeen, h.bomDecided, h.maxEventBytes, rfl⟩
  · exact ⟨rfl, h.line, h.data, h.haveData, h.lastWasCr, h.bomSeen, h.bomDecided, h.maxEventBytes, rfl⟩
  · exact ⟨rfl, h⟩

/-- A value is collected alike. -/
theorem sseCollect_twin {p p' : Sse} (h : SseTwin B p p') (value : Bytes) {s : v} {t : w}
    (hst : Rel s t) : TwinOut B Rel (sseCollect H p value s) (sseCollect K p' value t) := by
  have hjoin : B (sseJoin H p s).1 (sseJoin K p' t).1 ∧ Rel (sseJoin H p s).2 (sseJoin K p' t).2 := by
    unfold sseJoin
    rw [h.haveData]
    split_ifs
    · exact hB.append [chLF] h.data hst
    · exact ⟨h.data, hst⟩
  have hdata := hB.append value hjoin.1 hjoin.2
  have hcheck := sseCheckBufs_twin hB
    (p := { p with data := (bufAppend H (sseJoin H p s).1 value (sseJoin H p s).2).1,
                   haveData := true })
    (q := { p' with data := (bufAppend K (sseJoin K p' t).1 value (sseJoin K p' t).2).1,
                     haveData := true })
    ⟨h.line, hdata.1, rfl, h.lastWasCr, h.bomSeen, h.bomDecided, h.maxEventBytes, h.err⟩
  unfold sseCollect
  dsimp only
  refine ⟨?_, hcheck.2, hdata.2⟩
  rw [hcheck.1]

variable {f : OnEvent v} {g : OnEvent w} (hf : f.Twin g Rel)

include hf

/-- An event is dispatched alike. -/
theorem sseDispatch_twin {p p' : Sse} (h : SseTwin B p p') {s : v} {t : w} (hst : Rel s t) :
    TwinOut B Rel (sseDispatch (some f) p s) (sseDispatch (some g) p' t) := by
  unfold sseDispatch
  rw [h.haveData, hB.bytes h.data]
  split_ifs
  · have hevent := hf p'.data.bytes s t hst
    exact ⟨hevent.1, ⟨h.line, hB.reset h.data, rfl, h.lastWasCr, h.bomSeen, h.bomDecided, h.maxEventBytes, h.err⟩,
      hevent.2⟩
  · exact ⟨rfl, h, hst⟩

/-- A line is taken alike. -/
theorem sseLine_twin {p q : Sse} (h : SseTwin B p q) (line : Bytes) {s : v} {t : w}
    (hst : Rel s t) : TwinOut B Rel (sseLine H (some f) p line s) (sseLine K (some g) q line t) := by
  unfold sseLine
  split_ifs
  · exact sseDispatch_twin hB hf h hst
  · exact ⟨rfl, h, hst⟩
  · exact sseCollect_twin hB h _ hst
  · exact ⟨rfl, h, hst⟩

/-- A byte behind the mark is taken alike. -/
theorem sseChar_twin (ch : UInt8) {p p' : Sse} (h : SseTwin B p p') {s : v} {t : w}
    (hst : Rel s t) : TwinOut B Rel (sseChar H (some f) ch p s) (sseChar K (some g) ch p' t) := by
  have hline := sseLine_twin hB hf (p := { p with lastWasCr := false })
    (q := { p' with lastWasCr := false })
    ⟨h.line, h.data, h.haveData, rfl, h.bomSeen, h.bomDecided, h.maxEventBytes, h.err⟩ p.line.bytes hst
  have hch := hB.append [ch] h.line hst
  have hcheck := sseCheckBufs_twin hB
    (p := { p with line := (bufAppendCh H p.line ch s).1, lastWasCr := false })
    (q := { p' with line := (bufAppendCh K p'.line ch t).1, lastWasCr := false })
    ⟨hch.1, h.data, h.haveData, rfl, h.bomSeen, h.bomDecided, h.maxEventBytes, h.err⟩
  unfold sseChar
  rw [h.lastWasCr, ← hB.bytes h.line]
  dsimp only
  rw [hcheck.1]
  generalize sseLine H (some f) { p with lastWasCr := false } p.line.bytes s = r at hline
  generalize sseLine K (some g) { p' with lastWasCr := false } p.line.bytes t = r' at hline
  obtain ⟨rc, q, s'⟩ := r
  obtain ⟨rc', ⟨line, data, haveData, lastWasCr, bomSeen, bomDecided, maxEventBytes, err⟩, t'⟩ := r'
  obtain ⟨rfl, ⟨hl, hd, hhave, -, hseen, hdecided, hmax, rfl⟩, hworld⟩ := hline
  have hreset : SseTwin B { q with line := bufReset q.line, lastWasCr := ch == chCR }
      ⟨bufReset line, data, haveData, ch == chCR, bomSeen, bomDecided, maxEventBytes, q.err⟩ :=
    ⟨hB.reset hl, hd, hhave, rfl, hseen, hdecided, hmax, rfl⟩
  dsimp only
  split_ifs
  · exact ⟨rfl, ⟨h.line, h.data, h.haveData, rfl, h.bomSeen, h.bomDecided, h.maxEventBytes, h.err⟩, hst⟩
  · exact ⟨rfl, hreset, hworld⟩
  · exact ⟨rfl, hreset, hworld⟩
  · exact ⟨rfl, hreset, hworld⟩
  · exact ⟨rfl, hcheck.2, hch.2⟩
  · exact ⟨rfl, hcheck.2, hch.2⟩

/-- A byte is taken alike. -/
theorem sseByte_twin (ch : UInt8) {p p' : Sse} (h : SseTwin B p p') {s : v} {t : w}
    (hst : Rel s t) :
    TwinOut B Rel (sseByte H (some f) ch (p, s)) (sseByte K (some g) ch (p', t)) := by
  have hline := hB.append (bom.take p'.bomSeen) h.line hst
  have hcheck := sseCheckBufs_twin hB
    (p := { p with line := (bufAppend H p.line (bom.take p'.bomSeen) s).1, bomSeen := 0,
                   bomDecided := true })
    (q := { p' with line := (bufAppend K p'.line (bom.take p'.bomSeen) t).1, bomSeen := 0,
                     bomDecided := true })
    ⟨hline.1, h.data, h.haveData, h.lastWasCr, rfl, rfl, h.maxEventBytes, h.err⟩
  unfold sseByte
  dsimp only
  rw [h.bomDecided, h.bomSeen, hcheck.1]
  split_ifs
  · exact sseChar_twin hB hf ch h hst
  · exact ⟨rfl, ⟨h.line, h.data, h.haveData, h.lastWasCr, rfl, rfl, h.maxEventBytes, h.err⟩, hst⟩
  · exact sseChar_twin hB hf ch hcheck.2 hline.2
  · exact ⟨rfl, hcheck.2, hline.2⟩

/-- Two parsers that are fed the same chunk. -/
theorem sseFeed_twin (bytes : Bytes) {p p' : Sse} (h : SseTwin B p p') {s : v} {t : w}
    (hst : Rel s t) :
    TwinOut B Rel (sseFeed H (some f) p bytes s) (sseFeed K (some g) p' bytes t) := by
  by_cases hp : p.err = .ok
  · rw [sseFeed_eq_run H (some f) bytes hp, sseFeed_eq_run K (some g) bytes (h.err ▸ hp)]
    have hrun := @StopFold.run_sim _ _ _ _ _ _ (sseByte H (some f)) (sseByte K (some g))
      (fun ps pt => SseTwin B ps.1 pt.1 ∧ Rel ps.2 pt.2)
      (fun ch ps pt hpair => by
        have hbyte := sseByte_twin hB hf ch hpair.1 hpair.2
        exact ⟨hbyte.code, hbyte.parser, hbyte.world⟩)
      bytes (p, s) (p', t) ⟨h, hst⟩
    exact ⟨hrun.1, hrun.2.1, hrun.2.2⟩
  · unfold sseFeed
    rw [if_pos hp, if_pos (h.err ▸ hp)]
    exact ⟨rfl, h, hst⟩

/-- The end of the input is taken alike. -/
theorem sseTail_twin {p p' : Sse} (h : SseTwin B p p') {s : v} {t : w} (hst : Rel s t) :
    TwinOut B Rel (sseTail H (some f) p s) (sseTail K (some g) p' t) := by
  have hline := sseLine_twin hB hf h p.line.bytes hst
  unfold sseTail
  rw [hB.len h.line, ← hB.bytes h.line]
  split_ifs
  · refine ⟨?_, ?_, hline.world⟩
    · dsimp only
      rw [hline.code, hline.parser.err]
    · exact ⟨hB.reset hline.parser.line, hline.parser.data, hline.parser.haveData,
        hline.parser.lastWasCr, hline.parser.bomSeen, hline.parser.bomDecided,
        hline.parser.maxEventBytes, hline.parser.err⟩
  · exact ⟨rfl, h, hst⟩

omit hf in
/-- A begun mark is let go of alike. -/
theorem sseHeld_twin {p p' : Sse} (h : SseTwin B p p') {s : v} {t : w} (hst : Rel s t) :
    SseTwin B (sseHeld H p s).1 (sseHeld K p' t).1 ∧ Rel (sseHeld H p s).2 (sseHeld K p' t).2 := by
  have hline := hB.append (bom.take p'.bomSeen) h.line hst
  unfold sseHeld
  rw [h.bomDecided, h.bomSeen]
  split_ifs
  · exact ⟨⟨hline.1, h.data, h.haveData, h.lastWasCr, rfl, rfl, h.maxEventBytes, h.err⟩, hline.2⟩
  · exact ⟨⟨h.line, h.data, h.haveData, h.lastWasCr, rfl, rfl, h.maxEventBytes, h.err⟩, hst⟩

/-- Two parsers at the end of input. -/
theorem sseFinish_twin {p p' : Sse} (h : SseTwin B p p') {s : v} {t : w} (hst : Rel s t) :
    TwinOut B Rel (sseFinish H (some f) p s) (sseFinish K (some g) p' t) := by
  obtain ⟨hheld, hworld⟩ := sseHeld_twin hB h hst
  have htail := sseTail_twin hB hf hheld hworld
  have hlast := sseLine_twin hB hf htail.parser [] htail.world
  unfold sseFinish
  rw [h.err]
  dsimp only
  rw [htail.code, hlast.code, hlast.parser.err]
  split_ifs
  · exact ⟨rfl, h, hst⟩
  · exact ⟨htail.code, htail.parser, htail.world⟩
  · exact ⟨hlast.code, hlast.parser, hlast.world⟩
  · exact ⟨rfl, hlast.parser, hlast.world⟩
  · exact ⟨rfl, hlast.parser, hlast.world⟩

end Lockstep

/-! ## A callback that is watched -/

/-- A callback that keeps the payloads it is handed, with the worlds it finds. -/
def OnEvent.watched (f : OnEvent w) : OnEvent (w × List (Bytes × w)) :=
  fun payload s => ((f payload s.1).1, (f payload s.1).2, s.2 ++ [(payload, s.1)])

/-- An allocator next to the list of a watched callback. -/
def Heap.besideWatch (H : Heap w) : Heap (w × List (Bytes × w)) :=
  H.lift Prod.fst fun s t => (s, t.2)

/-- A watched allocator answers as it does unwatched. -/
theorem watched_twins (H : Heap w) : Twins Eq H.besideWatch H fun s t => s.1 = t :=
  .of_sim (by
    rintro n ⟨s, l⟩ _ rfl
    exact ⟨rfl, rfl⟩)

omit [SizeT] in
/-- A watched callback answers as it does unwatched. -/
theorem watched_twin (f : OnEvent w) : f.watched.Twin f fun s t => s.1 = t := by
  rintro payload ⟨s, l⟩ _ rfl
  exact ⟨rfl, rfl⟩

/-- With equal buffers, parsers that are alike are equal. -/
theorem SseTwin.eq {p p' : Sse} (h : SseTwin Eq p p') : p = p' := by
  cases p
  cases p'
  simp only [Sse.mk.injEq]
  exact ⟨h.line, h.data, h.haveData, h.lastWasCr, h.bomSeen, h.bomDecided, h.maxEventBytes, h.err⟩

/-- What is left of a call that was watched. -/
def unwatched (r : Int × Sse × (w × List (Bytes × w))) : Int × Sse × w :=
  (r.1, r.2.1, r.2.2.1)

/-- Without what was watched, the outcomes are equal. -/
theorem TwinOut.unwatched {r : Int × Sse × (w × List (Bytes × w))} {r' : Int × Sse × w}
    (h : TwinOut Eq (fun s t => s.1 = t) r r') : Sicha.unwatched r = r' :=
  Prod.ext h.code (Prod.ext h.parser.eq h.world)

/-- A parser is like itself. -/
theorem SseTwin.refl (p : Sse) : SseTwin Eq p p :=
  ⟨rfl, rfl, rfl, rfl, rfl, rfl, rfl, rfl⟩

/-- Watching a callback does not change what a chunk does. -/
theorem sseFeed_watched (H : Heap w) (f : OnEvent w) (p : Sse) (bytes : Bytes) (s : w)
    (l : List (Bytes × w)) :
    unwatched (sseFeed H.besideWatch (some f.watched) p bytes (s, l)) =
      sseFeed H (some f) p bytes s :=
  (sseFeed_twin (watched_twins H) (watched_twin f) bytes (.refl p) rfl).unwatched

/-- Watching a callback does not change what the end of input does. -/
theorem sseFinish_watched (H : Heap w) (f : OnEvent w) (p : Sse) (s : w)
    (l : List (Bytes × w)) :
    unwatched (sseFinish H.besideWatch (some f.watched) p (s, l)) = sseFinish H (some f) p s :=
  (sseFinish_twin (watched_twins H) (watched_twin f) (.refl p) rfl).unwatched

end Sicha
