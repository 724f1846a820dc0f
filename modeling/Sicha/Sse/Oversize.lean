import Sicha.Sse.Batch

/-!
# The cap on events

What {lit}`max_event_bytes` does to a stream.  The cap bounds two buffers: one holds the bytes
of a line as they arrive, its field name and colon included, the other the joined data of the
pending event.  So a line that is longer than the cap stops the parser, even where the event it
belongs to is not.

Main results:

- Theorem {lit}`sseParse_cappedLines`: the capped parser delivers the events before the first
  line or event that does not fit.
- Theorem {lit}`sseParse_eventCap_iff`: the cap is one on events exactly for the streams whose
  first line over the cap, if any, comes no earlier than an event over the cap.
-/

namespace Sicha

/-! ## Lines under a cap -/

/-- The length of the event these values make. -/
def eventLength (vals : List Bytes) : Nat :=
  ([chLF].intercalate vals).length

/-- What lines give under a cap on lines and events: whether all of them fit, and the events
before the first that does not. -/
def cappedLines (cap : Nat) : List Bytes → List Bytes → Bool × List Bytes
  | vals, [] => (true, emit vals)
  | vals, line :: lines =>
      if line.length ≤ cap ∧ eventLength (batchLine vals line).1 ≤ cap then
        ((cappedLines cap (batchLine vals line).1 lines).1,
          (batchLine vals line).2 ++ (cappedLines cap (batchLine vals line).1 lines).2)
      else (false, [])

/-- The cap as a cap on events: the stream is refused exactly when it has an event over the
cap, nothing over the cap is delivered, and everything before the first such event is. -/
structure EventCap (cap : Nat) (events : List Bytes) (refused : Prop) (delivered : List Bytes) :
    Prop where
  refused_iff : refused ↔ ∃ e ∈ events, cap < e.length
  within : ∀ e ∈ delivered, e.length ≤ cap
  before : events.takeWhile (fun e => decide (e.length ≤ cap)) <+: delivered

/-- The first line over the cap comes no earlier than an event over the cap: one of the events
ended before that line, or the next one, is over the cap too. -/
def LateOverflow (cap : Nat) (vals lines : List Bytes) : Prop :=
  ∀ pre line post, lines = pre ++ line :: post → (∀ l ∈ pre, l.length ≤ cap) → cap < line.length →
    ∃ e ∈ (batchEvents vals lines).take ((dispatched vals pre).length + 1), cap < e.length

/-- What is emitted is as long as its values and what joins them. -/
theorem emit_length {vals : List Bytes} {cap : Nat} (h : eventLength vals ≤ cap) :
    ∀ e ∈ emit vals, e.length ≤ cap := by
  intro e he
  unfold emit at he
  split_ifs at he
  · cases he
  · obtain rfl := List.mem_singleton.mp he
    exact h

/-- A line emits nothing longer than the open event. -/
theorem batchLine_emitted {vals : List Bytes} {cap : Nat} (h : eventLength vals ≤ cap)
    (line : Bytes) : ∀ e ∈ (batchLine vals line).2, e.length ≤ cap := by
  unfold batchLine
  split_ifs
  · exact emit_length h
  all_goals exact fun e he => absurd he List.not_mem_nil

/-- A line makes an event grow or leaves it, unless it ends it. -/
theorem batchLine_pending {vals : List Bytes} {cap : Nat} (h : eventLength vals ≤ cap)
    {line : Bytes} (hover : cap < eventLength (batchLine vals line).1) :
    (batchLine vals line).2 = [] ∧ (batchLine vals line).1 ≠ [] := by
  unfold batchLine at hover ⊢
  split_ifs at hover ⊢ with hempty hcomment hdata
  · exact absurd hover (by simp [eventLength])
  · exact absurd h (Nat.not_le.mpr hover)
  · exact ⟨rfl, by simp⟩
  · exact absurd h (Nat.not_le.mpr hover)

/-- A pending event only grows until it ends. -/
theorem batchEvents_head {vals : List Bytes} (hvals : vals ≠ []) (lines : List Bytes) :
    ∃ e events, batchEvents vals lines = e :: events ∧ eventLength vals ≤ e.length := by
  induction lines generalizing vals with
  | nil => exact ⟨_, [], by rw [batchEvents, emit, if_neg hvals], le_rfl⟩
  | cons line lines ih =>
      rw [batchEvents]
      unfold batchLine
      split_ifs with hempty hcomment hdata
      · refine ⟨[chLF].intercalate vals, batchEvents [] lines, ?_, le_rfl⟩
        rw [emit, if_neg hvals]
        rfl
      · exact ih hvals
      · have hne : vals ++ [fieldValue line] ≠ [] := by simp
        obtain ⟨e, events, hevents, hle⟩ := ih hne
        refine ⟨e, events, hevents, le_trans ?_ hle⟩
        unfold eventLength
        rw [intercalate_append, List.length_append, List.length_append, Nat.add_assoc]
        exact Nat.le_add_right _ _
      · exact ih hvals

/-! ## When the cap is one on events -/

section Property

variable {cap : Nat}

/-- Events within the cap that are delivered first do not matter. -/
theorem EventCap.append_iff {first : List Bytes} (hfirst : ∀ e ∈ first, e.length ≤ cap)
    (events : List Bytes) (refused : Prop) (delivered : List Bytes) :
    EventCap cap (first ++ events) refused (first ++ delivered) ↔
      EventCap cap events refused delivered := by
  have hover : (∃ e ∈ first ++ events, cap < e.length) ↔ ∃ e ∈ events, cap < e.length := by
    constructor
    · rintro ⟨e, he, hlong⟩
      rcases List.mem_append.mp he with he | he
      · exact absurd (hfirst e he) (Nat.not_le.mpr hlong)
      · exact ⟨e, he, hlong⟩
    · rintro ⟨e, he, hlong⟩
      exact ⟨e, List.mem_append_right _ he, hlong⟩
  have hbefore : (first ++ events).takeWhile (fun e => decide (e.length ≤ cap)) =
      first ++ events.takeWhile fun e => decide (e.length ≤ cap) :=
    List.takeWhile_append_of_pos fun e he => decide_eq_true (hfirst e he)
  constructor
  · rintro ⟨hiff, hwithin, hprefix⟩
    rw [hbefore, List.prefix_append_right_inj] at hprefix
    exact ⟨hiff.trans hover, fun e he => hwithin e (List.mem_append_right _ he), hprefix⟩
  · rintro ⟨hiff, hwithin, hprefix⟩
    refine ⟨hiff.trans hover.symm, fun e he => ?_, ?_⟩
    · exact (List.mem_append.mp he).elim (hfirst e) (hwithin e)
    · rw [hbefore, List.prefix_append_right_inj]
      exact hprefix

/-- A stream refused before any event was delivered: right if its first event is over the
cap. -/
theorem EventCap.refused_first_iff (events : List Bytes) :
    EventCap cap events True [] ↔ ∃ e ∈ events.take 1, cap < e.length := by
  constructor
  · rintro ⟨hiff, -, hbefore⟩
    obtain ⟨e, he, hlong⟩ := hiff.mp trivial
    cases events with
    | nil => cases he
    | cons first events =>
        refine ⟨first, by simp, Nat.lt_of_not_le fun hfits => ?_⟩
        rw [List.takeWhile_cons_of_pos (by simpa using hfits)] at hbefore
        exact absurd (List.prefix_nil.mp hbefore) (List.cons_ne_nil _ _)
  · rintro ⟨e, he, hlong⟩
    refine ⟨⟨fun _ => ⟨e, List.mem_of_mem_take he, hlong⟩, fun _ => trivial⟩,
      fun e he => absurd he List.not_mem_nil, ?_⟩
    cases events with
    | nil => cases he
    | cons first events =>
        obtain rfl : e = first := by simpa using he
        have hnone : (e :: events).takeWhile (fun e => decide (e.length ≤ cap)) = [] :=
          List.takeWhile_cons_of_neg (by simpa using hlong)
        exact hnone ▸ List.nil_prefix

/-- A line within the cap passes the question on to the lines behind it. -/
theorem lateOverflow_cons {vals : List Bytes} (hvals : eventLength vals ≤ cap) {line : Bytes}
    (hline : line.length ≤ cap) (lines : List Bytes) :
    LateOverflow cap vals (line :: lines) ↔ LateOverflow cap (batchLine vals line).1 lines := by
  have hfirst := batchLine_emitted hvals line
  have htake : ∀ n, (∃ e ∈ (batchEvents vals (line :: lines)).take
        ((batchLine vals line).2.length + n), cap < e.length) ↔
      ∃ e ∈ (batchEvents (batchLine vals line).1 lines).take n, cap < e.length := by
    intro n
    rw [batchEvents, List.take_length_add_append]
    constructor
    · rintro ⟨e, he, hlong⟩
      rcases List.mem_append.mp he with he | he
      · exact absurd (hfirst e he) (Nat.not_le.mpr hlong)
      · exact ⟨e, he, hlong⟩
    · rintro ⟨e, he, hlong⟩
      exact ⟨e, List.mem_append_right _ he, hlong⟩
  constructor
  · intro h pre long post hlines hpre hlong
    have hall : ∀ l ∈ line :: pre, l.length ≤ cap := by
      intro l hl
      rcases List.mem_cons.mp hl with rfl | hl
      · exact hline
      · exact hpre l hl
    have hfound := h (line :: pre) long post (by rw [hlines]; rfl) hall hlong
    rw [dispatched, List.length_append, Nat.add_assoc] at hfound
    exact (htake _).mp hfound
  · intro h pre long post hlines hpre hlong
    cases pre with
    | nil =>
        obtain rfl : line = long := (List.cons.inj hlines).1
        exact absurd hline (Nat.not_le.mpr hlong)
    | cons first pre =>
        obtain ⟨rfl, hrest⟩ : line = first ∧ lines = pre ++ long :: post := List.cons.inj hlines
        rw [dispatched, List.length_append, Nat.add_assoc]
        exact (htake _).mpr
          (h pre long post hrest (fun l hl => hpre l (List.mem_cons_of_mem _ hl)) hlong)

/-- The capped reading of lines treats the cap as one on events exactly when no line is over
it too early. -/
theorem cappedLines_eventCap_iff {vals : List Bytes} (hvals : eventLength vals ≤ cap)
    (lines : List Bytes) :
    EventCap cap (batchEvents vals lines) ((cappedLines cap vals lines).1 = false)
      (cappedLines cap vals lines).2 ↔ LateOverflow cap vals lines := by
  induction lines generalizing vals with
  | nil =>
      have hemit := emit_length hvals
      refine iff_of_true ⟨iff_of_false (by simp [cappedLines]) ?_, hemit, ?_⟩ ?_
      · rintro ⟨e, he, hlong⟩
        exact absurd (hemit e he) (Nat.not_le.mpr hlong)
      · exact List.takeWhile_prefix _
      · intro pre line post hlines
        simp at hlines
  | cons line lines ih =>
      rw [cappedLines]
      by_cases hline : line.length ≤ cap
      · by_cases hpending : eventLength (batchLine vals line).1 ≤ cap
        · -- the line fits: what it emits is within the cap
          rw [if_pos ⟨hline, hpending⟩, lateOverflow_cons hvals hline, ← ih hpending, batchEvents]
          exact EventCap.append_iff (batchLine_emitted hvals line) _ _ _
        · -- the pending event is over the cap
          have hover := Nat.lt_of_not_le hpending
          obtain ⟨hnone, hsome⟩ := batchLine_pending hvals hover
          obtain ⟨e, events, hevents, hlen⟩ := batchEvents_head hsome lines
          have hall : batchEvents vals (line :: lines) = e :: events := by
            rw [batchEvents, hnone, List.nil_append, hevents]
          have hfirst : ∀ n, ∃ e' ∈ (e :: events).take (n + 1), cap < e'.length :=
            fun n => ⟨e, by simp, by omega⟩
          rw [if_neg fun h => hpending h.2, hall]
          refine iff_of_true ?_ ?_
          · simpa using (EventCap.refused_first_iff (e :: events)).mpr (hfirst 0)
          · intro pre long post _ _ _
            rw [hall]
            exact hfirst _
      · -- the line is over the cap
        have hlong := Nat.lt_of_not_le hline
        rw [if_neg fun h => hline h.1]
        rw [show ((false, ([] : List Bytes)).1 = false) = True from eq_self _,
          EventCap.refused_first_iff]
        constructor
        · intro hfound pre long post hlines hpre _
          cases pre with
          | nil => exact hfound
          | cons first pre =>
              obtain rfl : line = first := (List.cons.inj hlines).1
              exact absurd (hpre line List.mem_cons_self) hline
        · intro h
          exact h [] line lines rfl (fun l hl => absurd hl List.not_mem_nil) hlong

end Property

/-! ## The capped parser -/

section Parser

variable [SizeT] {w : Type} {H : Heap w} {f : OnEvent w} {cap : Nat}
  {P : List Bytes → w → Prop} {evs : List Bytes}

/-- How a call into the capped parser ends: refused as too big, or within its cap. -/
def Refused (P : List Bytes → w → Prop) (evs : List Bytes) (r : Int × Sse × w) : Prop :=
  r.1 = -1 ∧ r.2.1.err = .tooBig ∧ P evs r.2.2

/-- The end of a stream: what was delivered behind {lit}`evs`, and whether it was refused. -/
def Ends (P : List Bytes → w → Prop) (evs : List Bytes) (c : Bool × List Bytes)
    (r : Int × Sse × w) : Prop :=
  if c.1 then r.1 = 0 ∧ P (evs ++ c.2) r.2.2 else Refused P (evs ++ c.2) r

/-- No sum of lengths leaves {lit}`size_t`: the stream is shorter than that, or two buffers of
the cap are. -/
def SumsFit (cap size : Nat) : Prop :=
  size < sizeMax ∨ 2 * cap < sizeMax

/-- The parser behind the byte order mark, with its line and its event within the cap. -/
structure Sse.Tight (cap : Nat) (p : Sse) (cur : Bytes) (vals : List Bytes) : Prop where
  tracks : Tracks cap p cur vals
  decided : p.bomDecided = true
  cur : cur.length ≤ cap
  pending : eventLength vals ≤ cap

/-- What the parser's state and the bytes still to come give under the cap. -/
def remaining (cap : Nat) (p : Sse) (cur : Bytes) (vals : List Bytes) (rest : Bytes) :
    Bool × List Bytes :=
  cappedLines cap vals (linesFrom cur (unread p rest))

/-- A stream from some state of the parser on: its bytes, then the end of input. -/
def parseFrom (H : Heap w) (f : OnEvent w) (bytes : Bytes) (p : Sse) (s : w) : Int × Sse × w :=
  let r := StopFold.run (sseByte H (some f)) bytes (p, s)
  if r.1 = 0 then sseFinish H (some f) r.2.1 r.2.2 else r

/-- The rest is parsed only if the first byte went well. -/
theorem parseFrom_cons (ch : UInt8) (bytes : Bytes) (p : Sse) (s : w) :
    parseFrom H f (ch :: bytes) p s =
      if (sseByte H (some f) ch (p, s)).1 = 0 then
        parseFrom H f bytes (sseByte H (some f) ch (p, s)).2.1 (sseByte H (some f) ch (p, s)).2.2
      else sseByte H (some f) ch (p, s) := by
  unfold parseFrom
  rw [StopFold.run_cons]
  split_ifs with hcode
  · rfl
  · exact if_neg hcode

/-- A refused parse does not end with 0. -/
theorem Refused.stops {P : List Bytes → w → Prop} {r : Int × Sse × w} (h : Refused P evs r) :
    r.1 ≠ 0 := by
  rw [h.1]
  decide

/-- A refused parse is one that ends with what came before. -/
theorem Refused.ends {P : List Bytes → w → Prop} {r : Int × Sse × w} (h : Refused P evs r) :
    Ends P evs (false, []) r := by
  rw [Ends, if_neg (by simp), List.append_nil]
  exact h

/-- What was delivered by a first part of the stream stands before what the rest delivers. -/
theorem Ends.cons {P : List Bytes → w → Prop} {first : List Bytes} {c : Bool × List Bytes}
    {r : Int × Sse × w} (h : Ends P (evs ++ first) c r) : Ends P evs (c.1, first ++ c.2) r := by
  unfold Ends at h ⊢
  rw [List.append_assoc] at h
  exact h

/-- An append to a buffer of the cap, where no sum of lengths leaves {lit}`size_t`. -/
theorem bufAppend_cap (hH : H.Reliable) (hcap : 0 < cap) {b : Buf} {xs : Bytes}
    (h : b.view = ⟨xs, cap, .ok⟩) (ys : Bytes) (s : w)
    (hsum : xs.length + ys.length < sizeMax) :
    ((bufAppend H b ys s).1.view = ⟨xs ++ ys, cap, .ok⟩ ∧ xs.length + ys.length ≤ cap) ∨
      ((bufAppend H b ys s).1.err = .tooBig ∧ cap < xs.length + ys.length) := by
  have hview := bufAppend_view hH b ys s
  rw [h, CappedBytes.append] at hview
  dsimp only at hview
  rw [if_neg (by simp), if_neg (by omega)] at hview
  by_cases hover : cap < xs.length + ys.length
  · rw [if_pos ⟨by omega, hover⟩] at hview
    exact .inr ⟨congrArg CappedBytes.err hview, hover⟩
  · rw [if_neg fun h => hover h.2, if_neg (by omega)] at hview
    exact .inl ⟨hview, Nat.not_lt.mp hover⟩

/-- A buffer over its cap stops the parser as too big. -/
theorem sseCheckBufs_tooBig {p : Sse} (hp : p.err = .ok)
    (h : p.line.err = .tooBig ∨ p.line.err = .ok ∧ p.data.err = .tooBig) :
    (sseCheckBufs p).1 = false ∧ (sseCheckBufs p).2.err = .tooBig := by
  unfold sseCheckBufs bufStatus
  rcases h with hline | ⟨hline, hdata⟩
  · simp [hp, hline]
  · simp [hp, hline, hdata]

omit [SizeT] in
/-- A line begun over the cap does not fit. -/
theorem cappedLines_begun {cur : Bytes} (hover : cap < cur.length) {vals : List Bytes}
    {rest : Bytes} : cappedLines cap vals (linesFrom cur rest) = (false, []) := by
  have hne : cur ≠ [] := by
    rintro rfl
    cases hover
  obtain ⟨line, lines, hlines, hle⟩ := linesFrom_begun hne rest
  rw [hlines, cappedLines, if_neg fun h => by omega]

/-- The {lit}`'\n'` between two values, in a buffer of the cap. -/
theorem sseJoin_cap (hH : H.Reliable) (hcap : 0 < cap) {p : Sse} {cur : Bytes}
    {vals : List Bytes} (h : Tracks cap p cur vals) (s : w)
    (hsum : eventLength vals + 1 < sizeMax) :
    (sseJoin H p s).1.view = ⟨[chLF].intercalate vals ++ joiner vals, cap, .ok⟩ ∨
      ((sseJoin H p s).1.err = .tooBig ∧ cap < eventLength vals + (joiner vals).length) := by
  unfold sseJoin joiner
  by_cases hvals : vals = []
  · have hpending : p.haveData = false := by simp [h.pending, hvals]
    rw [if_neg (by simp [hpending]), if_pos hvals, List.append_nil]
    exact .inl h.data
  · have hpending : p.haveData = true := by simp [h.pending, hvals]
    rw [if_pos hpending, if_neg hvals]
    rcases bufAppend_cap hH hcap h.data [chLF] s hsum with ⟨hview, -⟩ | hover
    · exact .inl hview
    · exact .inr hover

variable (hf : f.Follows H P fun _ _ _ _ => False) (hH : H.Reliable) (hcap : 0 < cap)

include hf hH hcap

/-- A {lit}`data` field is collected, unless the joined event is over the cap. -/
theorem sseCollect_cap {p : Sse} {cur : Bytes} {vals : List Bytes} (h : Tracks cap p cur vals)
    (value : Bytes) (hsum : eventLength vals + 1 + value.length < sizeMax) {s : w}
    (hs : P evs s) :
    if cap < eventLength (vals ++ [value]) then Refused P evs (sseCollect H p value s)
    else (sseCollect H p value s).1 = 0 ∧
      Tracks cap (sseCollect H p value s).2.1 cur (vals ++ [value]) ∧
      P evs (sseCollect H p value s).2.2 := by
  have hsep := joiner_length vals
  have hlen : eventLength (vals ++ [value]) =
      eventLength vals + (joiner vals).length + value.length := by
    rw [eventLength, intercalate_append, List.length_append, List.length_append, eventLength]
  obtain ⟨hjoined, -⟩ := sseJoin_follows hf h hs
  have hworld := bufAppend_keeps (fun n s hs => hf.alloc n evs s hs) (sseJoin H p s).1 value hjoined
  have hdata : ((bufAppend H (sseJoin H p s).1 value (sseJoin H p s).2).1.view =
        ⟨[chLF].intercalate (vals ++ [value]), cap, .ok⟩ ∧ eventLength (vals ++ [value]) ≤ cap) ∨
      ((bufAppend H (sseJoin H p s).1 value (sseJoin H p s).2).1.err = .tooBig ∧
        cap < eventLength (vals ++ [value])) := by
    rcases sseJoin_cap hH hcap h s (by omega) with hview | ⟨herr, hover⟩
    · have happend := bufAppend_cap hH hcap hview value (sseJoin H p s).2
        (by rw [List.length_append, ← eventLength]; omega)
      rw [List.length_append, ← eventLength, ← hlen, ← intercalate_append] at happend
      exact happend
    · refine .inr ⟨?_, by omega⟩
      rw [← Buf.view_err, bufAppend_view hH, CappedBytes.append, if_pos (by simp [herr])]
      exact herr
  unfold sseCollect
  dsimp only
  generalize bufAppend H (sseJoin H p s).1 value (sseJoin H p s).2 = data at hworld hdata
  rcases hdata with ⟨hview, hfits⟩ | ⟨herr, hover⟩
  · have hnext : Tracks cap { p with data := data.1, haveData := true } cur (vals ++ [value]) :=
      ⟨h.err, h.line, hview, by simp⟩
    rw [if_neg (Nat.not_lt.mpr hfits), hnext.sound.checkBufs]
    exact ⟨rfl, hnext, hworld⟩
  · obtain ⟨hfalse, hsticky⟩ := @sseCheckBufs_tooBig _ { p with data := data.1, haveData := true }
      h.err (.inr ⟨h.sound.line, herr⟩)
    rw [if_pos hover, if_neg (by simp [hfalse])]
    exact ⟨rfl, hsticky, hworld⟩

omit hH hcap in
/-- A blank line hands the pending event over. -/
theorem sseDispatch_cap {p : Sse} {cur : Bytes} {vals : List Bytes} (h : Tracks cap p cur vals)
    {s : w} (hs : P evs s) :
    (sseDispatch (some f) p s).1 = 0 ∧ Tracks cap (sseDispatch (some f) p s).2.1 cur [] ∧
      P (evs ++ emit vals) (sseDispatch (some f) p s).2.2 := by
  have hrule := sseDispatch_follows hf h hs
  have herr : (sseDispatch (some f) p s).2.1.err = .ok := by
    unfold sseDispatch
    split_ifs
    · exact h.err
    · exact h.err
  generalize sseDispatch (some f) p s = r at hrule herr
  cases hrule with
  | going evs' hnext hP =>
      obtain ⟨rfl, htracks⟩ := hnext
      exact ⟨rfl, htracks, hP⟩
  | stopped _ _ _ _ _ hQ => exact hQ.elim
  | failed _ hbad => exact absurd herr hbad

/-- One line under the cap on events. -/
theorem sseLine_cap {p : Sse} {cur : Bytes} {vals : List Bytes} (h : Tracks cap p cur vals)
    (hpending : eventLength vals ≤ cap) (line : Bytes)
    (hsum : eventLength vals + line.length < sizeMax) {s : w} (hs : P evs s) :
    if eventLength (batchLine vals line).1 ≤ cap then
      (sseLine H (some f) p line s).1 = 0 ∧
        Tracks cap (sseLine H (some f) p line s).2.1 cur (batchLine vals line).1 ∧
        P (evs ++ (batchLine vals line).2) (sseLine H (some f) p line s).2.2
    else Refused P evs (sseLine H (some f) p line s) := by
  unfold sseLine batchLine
  by_cases hempty : line = []
  · have hlen : line.length = 0 := by simp [hempty]
    rw [if_pos hlen, if_pos hempty, if_pos (by simp [eventLength])]
    exact sseDispatch_cap hf h hs
  have hlen : ¬ line.length = 0 := by simpa using hempty
  rw [if_neg hlen, if_neg hempty]
  by_cases hcomment : line.head? = some chColon
  · rw [if_pos hcomment, if_pos hcomment, if_pos hpending]
    exact ⟨rfl, h, (List.append_nil evs).symm ▸ hs⟩
  rw [if_neg hcomment, if_neg hcomment]
  by_cases hdata : fieldName line = ascii "data"
  · have hvalue := fieldValue_length hdata
    have hcollect := sseCollect_cap hf hH hcap h (fieldValue line) (by omega) hs
    rw [if_pos ((isDataField_iff line).mpr hdata), if_pos hdata, ← (sseField_spec line).2.2]
    dsimp only
    rw [List.append_nil]
    split_ifs with hfits
    · rw [if_neg (Nat.not_lt.mpr hfits)] at hcollect
      exact hcollect
    · rw [if_pos (Nat.lt_of_not_le hfits)] at hcollect
      exact hcollect
  · rw [if_neg fun hfield => hdata ((isDataField_iff line).mp hfield), if_neg hdata,
      if_pos hpending]
    exact ⟨rfl, h, (List.append_nil evs).symm ▸ hs⟩

/-- The end of input, behind what has been read of a line and of an event. -/
theorem sseFinish_cap {p : Sse} {cur : Bytes} {vals : List Bytes} (hp : Sse.Tight cap p cur vals)
    (hsum : SumsFit cap (held cur vals)) {s : w} (hs : P evs s) :
    Ends P evs (cappedLines cap vals (linesFrom cur [])) (sseFinish H (some f) p s) := by
  have h := hp.tracks
  have hcur := hp.cur
  have hpending := hp.pending
  -- what the last blank line does behind the lines that are complete
  have hlast : ∀ {q : Sse} {vals' : List Bytes} {t : w} {evs' : List Bytes},
      Tracks cap q [] vals' → P evs' t →
      Ends P evs' (true, emit vals') (let r := sseLine H (some f) q [] t
        if r.1 ≠ 0 then r else (if r.2.1.err = .ok then 0 else -1, r.2.1, r.2.2)) := by
    intro q vals' t evs' htracks ht
    have hline := sseDispatch_cap hf htracks ht
    rw [show sseLine H (some f) q [] t = sseDispatch (some f) q t from rfl]
    dsimp only
    rw [if_neg (not_not.mpr hline.1), if_pos hline.2.1.err]
    exact ⟨rfl, hline.2.2⟩
  unfold sseFinish
  rw [if_neg (by simpa using h.err), sseHeld_decided hp.decided]
  dsimp only
  by_cases hnone : cur = []
  · subst hnone
    rw [h.tail_nil, if_neg (by simp)]
    exact hlast h hs
  · have hall : held cur vals = cur.length + eventLength vals := rfl
    have hroom : eventLength vals + cur.length < sizeMax := by
      rcases hsum with hsum | hsum <;> omega
    have hline := sseLine_cap hf hH hcap h hpending cur hroom hs
    have htail := h.tail_line (H := H) (f := f) hnone s
    rw [show linesFrom cur [] = [cur] by simp [linesFrom, hnone], cappedLines]
    generalize sseTail H (some f) p s = tail at htail
    dsimp only at htail
    generalize sseLine H (some f) p cur s = r at hline htail
    split_ifs at hline with hfits
    · obtain ⟨hzero, htracks, hP⟩ := hline
      have hreset : Tracks cap { r.2.1 with line := bufReset r.2.1.line } []
          (batchLine vals cur).1 := htracks.lineReset r.2.1.lastWasCr
      rw [if_neg (not_not.mpr hzero), if_neg (not_not.mpr htracks.err)] at htail
      rw [htail, if_pos ⟨hcur, hfits⟩, if_neg (by simp)]
      exact (hlast hreset hP).cons
    · rw [if_pos hline.stops] at htail
      rw [htail, if_neg fun h => hfits h.2, if_pos hline.stops]
      exact Refused.ends ⟨hline.1, hline.2.1, hline.2.2⟩

/-- One byte behind the byte order mark. -/
theorem sseChar_cap {p : Sse} {cur : Bytes} {vals : List Bytes} (h : Sse.Tight cap p cur vals)
    (ch : UInt8) (hsum : SumsFit cap (held cur vals + 1)) {s : w} (hs : P evs s) :
    (∃ first cur' vals', (sseChar H (some f) ch p s).1 = 0 ∧
      Sse.Tight cap (sseChar H (some f) ch p s).2.1 cur' vals' ∧
      held cur' vals' ≤ held cur vals + 1 ∧ P (evs ++ first) (sseChar H (some f) ch p s).2.2 ∧
      ∀ rest, remaining cap p cur vals (ch :: rest) =
        ((remaining cap (sseChar H (some f) ch p s).2.1 cur' vals' rest).1,
          first ++ (remaining cap (sseChar H (some f) ch p s).2.1 cur' vals' rest).2)) ∨
    (Refused P evs (sseChar H (some f) ch p s) ∧
      ∀ rest, remaining cap p cur vals (ch :: rest) = (false, [])) := by
  have hbom := sseChar_bomDecided H (some f) ch p s
  have hall : held cur vals = cur.length + eventLength vals := rfl
  have htracks := h.tracks
  have hcur := h.cur
  have hpending := h.pending
  have hlong : cur.length + 1 < sizeMax := by
    rcases hsum with hsum | hsum <;> omega
  have hboth : eventLength vals + cur.length < sizeMax := by
    rcases hsum with hsum | hsum <;> omega
  unfold sseChar at hbom ⊢
  by_cases hcrlf : p.lastWasCr = true ∧ ch = chLF
  · -- the LF behind a CR
    rw [if_pos hcrlf]
    refine .inl ⟨[], cur, vals, rfl, ⟨⟨htracks.err, htracks.line, htracks.data, htracks.pending⟩,
      h.decided, hcur, hpending⟩, by omega, (List.append_nil evs).symm ▸ hs, fun rest => ?_⟩
    simp [remaining, unread, hcrlf.1, hcrlf.2, dropLf, chLF]
  rw [if_neg hcrlf] at hbom ⊢
  by_cases hterm : ch = chCR ∨ ch = chLF
  · -- the end of a line
    rw [if_pos hterm] at hbom ⊢
    have hbytes : p.line.bytes = cur := congrArg CappedBytes.bytes htracks.line
    have hclear : Tracks cap { p with lastWasCr := false } cur vals :=
      ⟨htracks.err, htracks.line, htracks.data, htracks.pending⟩
    have hfits := held_batchLine vals cur
    have hsplit : ∀ vals, held [] vals = eventLength vals := by simp [held, eventLength]
    have hlines : ∀ rest, ∃ lines, linesFrom cur (unread p (ch :: rest)) = cur :: lines ∧
        ∀ q : Sse, q.lastWasCr = (ch == chCR) → lines = linesFrom [] (unread q rest) := by
      intro rest
      rcases hterm with rfl | rfl
      · refine ⟨_, by rw [unread_of_ne (by decide), linesFrom_cr], fun q hq => ?_⟩
        simp [unread, hq]
      · have hcr : p.lastWasCr = false := by simpa using hcrlf
        refine ⟨_, by simp only [unread, hcr, Bool.false_eq_true, if_false]; rw [linesFrom_lf],
          fun q hq => ?_⟩
        simp [unread, hq, chCR, chLF]
    have hline := sseLine_cap hf hH hcap hclear hpending cur hboth hs
    rw [hbytes] at hbom ⊢
    dsimp only at hbom ⊢
    generalize sseLine H (some f) { p with lastWasCr := false } cur s = r at hline hbom ⊢
    split_ifs at hline with hevent
    · obtain ⟨hzero, hnext, hP⟩ := hline
      rw [if_neg (not_not.mpr hzero), if_neg (not_not.mpr hnext.err)] at hbom ⊢
      refine .inl ⟨(batchLine vals cur).2, [], (batchLine vals cur).1, rfl,
        ⟨hnext.lineReset _,
          hbom.trans h.decided, Nat.zero_le _, hevent⟩, ?_, hP, fun rest => ?_⟩
      · have hbefore := hsplit vals
        omega
      · obtain ⟨lines, hlines, hrest⟩ := hlines rest
        rw [remaining, hlines, cappedLines, if_pos ⟨hcur, hevent⟩,
          hrest { r.2.1 with line := bufReset r.2.1.line, lastWasCr := ch == chCR } rfl]
        rfl
    · rw [if_pos hline.stops]
      refine .inr ⟨⟨hline.1, hline.2.1, hline.2.2⟩, fun rest => ?_⟩
      obtain ⟨lines, hlines, -⟩ := hlines rest
      rw [remaining, hlines, cappedLines, if_neg fun h => hevent h.2]
  · -- a byte of the line
    rw [if_neg hterm] at hbom ⊢
    have hworld := bufAppend_keeps (fun n s hs => hf.alloc n evs s hs) p.line [ch] hs
    have hline := bufAppend_cap hH hcap htracks.line [ch] s hlong
    have hleft : ∀ rest, remaining cap p cur vals (ch :: rest) =
        cappedLines cap vals (linesFrom (cur ++ [ch]) rest) := by
      intro rest
      rw [remaining, unread_of_ne (fun hlf => hterm (.inr hlf)), linesFrom_other cur rest hterm]
    unfold bufAppendCh at hbom ⊢
    dsimp only at hbom ⊢
    generalize bufAppend H p.line [ch] s = line at hworld hline hbom ⊢
    rcases hline with ⟨hview, hfits⟩ | ⟨herr, hover⟩
    · have hnext : Tracks cap { p with line := line.1, lastWasCr := false } (cur ++ [ch]) vals :=
        ⟨htracks.err, hview, htracks.data, htracks.pending⟩
      rw [hnext.sound.checkBufs]
      refine .inl ⟨[], cur ++ [ch], vals, rfl, ⟨hnext, h.decided, by simpa using hfits, hpending⟩,
        by simp [held]; omega, (List.append_nil evs).symm ▸ hworld, fun rest => ?_⟩
      rw [hleft]
      simp [remaining, unread]
    · obtain ⟨hfalse, hsticky⟩ := @sseCheckBufs_tooBig _
        { p with line := line.1, lastWasCr := false } htracks.err (.inl herr)
      rw [if_neg (by simp [hfalse])]
      refine .inr ⟨⟨rfl, hsticky, hworld⟩, fun rest => ?_⟩
      rw [hleft, cappedLines_begun (by simpa using hover)]

/-- A stream under the cap, from behind the byte order mark on. -/
theorem parseFrom_cap (rest : Bytes) {p : Sse} {cur : Bytes} {vals : List Bytes}
    (h : Sse.Tight cap p cur vals) (hsum : SumsFit cap (held cur vals + rest.length)) {s : w}
    (hs : P evs s) : Ends P evs (remaining cap p cur vals rest) (parseFrom H f rest p s) := by
  induction rest generalizing p cur vals evs s with
  | nil =>
      have hunread : unread p [] = [] := by simp [unread, dropLf]
      rw [remaining, hunread]
      exact sseFinish_cap hf hH hcap h hsum hs
  | cons ch rest ih =>
      have hbyte : sseByte H (some f) ch (p, s) = sseChar H (some f) ch p s := by
        simp [sseByte, h.decided]
      rw [List.length_cons] at hsum
      rw [parseFrom_cons, hbyte]
      rcases sseChar_cap hf hH hcap h ch (hsum.imp (fun h => by omega) id) hs with
        ⟨first, cur', vals', hzero, hnext, hheld, hP, hleft⟩ | ⟨hrefused, hleft⟩
      · rw [if_pos hzero, hleft]
        exact (ih hnext (hsum.imp (fun h => by omega) id) hP).cons
      · rw [if_neg hrefused.stops, hleft]
        exact hrefused.ends

/-- A stream under the cap, from within the byte order mark on. -/
theorem parseFrom_start (rest : Bytes) {k : Nat} (hk : k < 3) {p : Sse} (h : Fresh cap p k)
    (hsum : SumsFit cap (k + rest.length)) {s : w} (hs : P evs s) :
    Ends P evs (cappedLines cap [] (streamLines (bom.take k ++ rest))) (parseFrom H f rest p s) := by
  induction rest generalizing k p with
  | nil =>
      obtain ⟨hzero, hP⟩ := sseFinish_start hf hk h hs
      rw [List.append_nil, streamLines, if_pos (List.take_prefix k bom)]
      exact ⟨hzero, (List.append_nil evs).symm ▸ hP⟩
  | cons ch rest ih =>
      have hseen := h.seen
      rw [List.length_cons] at hsum
      have hlen : (bom.take k).length ≤ k := List.length_take_le k bom
      by_cases hbom : bom[k]? = some ch
      · -- one more byte of the mark
        have hbyte : sseByte H (some f) ch (p, s) =
            (0, { p with bomSeen := k + 1, bomDecided := k + 1 == 3 }, s) := by
          simp [sseByte, h.undecided, hseen, hbom]
        have htracks : Tracks cap { p with bomSeen := k + 1, bomDecided := k + 1 == 3 } [] [] :=
          ⟨h.tracks.err, h.tracks.line, h.tracks.data, h.tracks.pending⟩
        have hone : bom.take k ++ ch :: rest = bom.take (k + 1) ++ rest := by
          rw [List.take_add_one, hbom, List.append_assoc]
          rfl
        rw [parseFrom_cons, hbyte, if_pos rfl, hone]
        by_cases hlast : k + 1 = 3
        · have hlines : streamLines (bom.take (k + 1) ++ rest) = linesFrom [] rest := by
            rw [hlast, streamLines]
            split_ifs with hmark
            · have hnone := hmark.length_le
              have hbom : bom.length = 3 := rfl
              rw [List.length_append, List.length_take_of_le (by decide), hbom] at hnone
              obtain rfl : rest = [] := List.length_eq_zero_iff.mp (by omega)
              rfl
            · rfl
          rw [hlines]
          have hrest := parseFrom_cap hf hH hcap rest
            (Sse.Tight.mk htracks (by simp [hlast]) (Nat.zero_le _) (Nat.zero_le _))
            (hsum.imp (fun h => by simp [held]; omega) id) hs
          have hplain : remaining cap { p with bomSeen := k + 1, bomDecided := k + 1 == 3 } [] []
              rest = cappedLines cap [] (linesFrom [] rest) := by
            simp [remaining, unread, h.lastWasCr]
          rw [hplain] at hrest
          exact hrest
        · exact ih (k := k + 1) (by omega) ⟨htracks, by simp; omega, rfl, h.lastWasCr⟩
            (hsum.imp (fun h => by omega) id)
      · -- the matched bytes were payload
        have hworld := bufAppend_keeps (fun n s hs => hf.alloc n evs s hs) p.line (bom.take k) hs
        have hline := bufAppend_cap hH hcap h.tracks.line (bom.take k) s (by
          simp only [List.length_nil, Nat.zero_add]
          rcases hsum with hsum | hsum
          · omega
          · have hmax := sizeMax_ge
            omega)
        rw [streamLines_held hk hbom]
        have hbyte : sseByte H (some f) ch (p, s) =
            (let line := bufAppend H p.line (bom.take k) s
             let check := sseCheckBufs { p with
               line := line.1, bomSeen := 0, bomDecided := true }
             if check.1 then sseChar H (some f) ch check.2 line.2 else (-1, check.2, line.2)) := by
          simp [sseByte, h.undecided, hseen, hbom]
        generalize bufAppend H p.line (bom.take k) s = line at hworld hline hbyte
        dsimp only at hbyte
        rcases hline with ⟨hview, hfits⟩ | ⟨herr, hover⟩
        · have hnext : Tracks cap { p with line := line.1, bomSeen := 0, bomDecided := true }
              (bom.take k) [] := ⟨h.tracks.err, hview, h.tracks.data, h.tracks.pending⟩
          have hsame : parseFrom H f (ch :: rest) p s = parseFrom H f (ch :: rest)
              { p with line := line.1, bomSeen := 0, bomDecided := true } line.2 := by
            rw [parseFrom_cons, parseFrom_cons, hbyte, hnext.sound.checkBufs]
            simp [sseByte]
          have hrest := parseFrom_cap hf hH hcap (ch :: rest)
            (Sse.Tight.mk hnext rfl (by simpa using hfits) (Nat.zero_le _))
            (hsum.imp (fun h => by simp [held]; omega) id) hworld
          rw [hsame]
          simpa [remaining, unread, h.lastWasCr] using hrest
        · obtain ⟨hfalse, hsticky⟩ := @sseCheckBufs_tooBig _
            { p with line := line.1, bomSeen := 0, bomDecided := true } h.tracks.err (.inl herr)
          rw [if_neg (by simp [hfalse])] at hbyte
          rw [cappedLines_begun (by simpa using hover), parseFrom_cons, hbyte, if_neg (by simp)]
          exact Refused.ends ⟨rfl, hsticky, hworld⟩

end Parser

section Result

variable [SizeT]

/-- The capped parser, however the stream is cut: it delivers the events before the first line
or event that does not fit, and is refused as too big if there is one. -/
theorem sseParse_cappedLines {σ : Type} {H : Heap σ} (hH : H.Reliable)
    {answer : List Bytes → σ → Int × σ} (hanswer : ∀ events h, (answer events h).1 = 0)
    {cap : Nat} (hcap : 0 < cap) (chunks : List Bytes)
    (hsum : SumsFit cap chunks.flatten.length) (h : σ) :
    Ends (fun evs s => s.1 = evs) [] (cappedLines cap [] (streamLines chunks.flatten))
      (sseParse H.besideRecord (some (recording answer)) cap chunks ([], h)) := by
  have hfresh : Fresh cap (sseInit cap) 0 :=
    ⟨⟨rfl, bufInit_view cap, bufInit_view cap, rfl⟩, rfl, rfl, rfl⟩
  have hstart := parseFrom_start (recording_follows H hanswer) (hH.lift _ _) hcap chunks.flatten
    (by decide) hfresh (by rwa [Nat.zero_add]) (show ([], h).1 = [] from rfl)
  rw [sseParse, sseFeedAll_eq_run _ _ chunks rfl]
  exact hstart

/-- For every cap and every stream in every partition, with a callback that answers zero and
allocations that succeed: the parser is refused as too big exactly when an event is over the
cap, delivers nothing over the cap, and delivers all events before the first one over the cap,
if and only if the first line over the cap comes no earlier than an event over the cap. -/
theorem sseParse_eventCap_iff {σ : Type} (H : Heap σ) (hH : H.Reliable)
    (answer : List Bytes → σ → Int × σ) (hanswer : ∀ events h, (answer events h).1 = 0)
    (cap : Nat) (hcap : 0 < cap) (chunks : List Bytes)
    (hsum : SumsFit cap chunks.flatten.length) (h : σ) :
    let r := sseParse H.besideRecord (some (recording answer)) cap chunks ([], h)
    EventCap cap (sseBatch chunks.flatten) (r.1 ≠ 0 ∧ sseStatus r.2.1 = .tooBig) (payloads r) ↔
      LateOverflow cap [] (streamLines chunks.flatten) := by
  intro r
  have hends : Ends (fun evs s => s.1 = evs) []
      (cappedLines cap [] (streamLines chunks.flatten)) r :=
    sseParse_cappedLines hH hanswer hcap chunks hsum h
  have hcode : (r.1 ≠ 0 ∧ sseStatus r.2.1 = .tooBig) =
      ((cappedLines cap [] (streamLines chunks.flatten)).1 = false) := by
    unfold Ends at hends
    split_ifs at hends with hfits
    · exact propext ⟨fun h => absurd hends.1 h.1, fun h => by simp [hfits] at h⟩
    · exact propext ⟨fun _ => by simpa using hfits, fun _ => ⟨hends.stops, hends.2.1⟩⟩
  have hall : payloads r = (cappedLines cap [] (streamLines chunks.flatten)).2 := by
    unfold Ends at hends
    split_ifs at hends
    · exact hends.2
    · exact hends.2.2
  rw [hcode, hall, sseBatch_streamLines]
  exact cappedLines_eventCap_iff (Nat.zero_le cap) _

end Result

/-- A cap of 4 refuses an event of 4 bytes: its line has 10. -/
theorem sseParse_eventCap_field :
    let r := @sseParse lp64 _ (@Heap.plentiful Unit).besideRecord
      (some (recording fun _ h => (0, h))) 4 [ascii "data: abcd\n\n"] ([], ())
    ¬ EventCap 4 (sseBatch (ascii "data: abcd\n\n"))
      (r.1 ≠ 0 ∧ @sseStatus lp64 r.2.1 = .tooBig) (@payloads lp64 Unit r) := by
  intro r hcap
  have hrefused : r.1 ≠ 0 ∧ @sseStatus lp64 r.2.1 = .tooBig := by decide +kernel
  obtain ⟨e, he, hlong⟩ := hcap.refused_iff.mp hrefused
  have hevents : sseBatch (ascii "data: abcd\n\n") = [ascii "abcd"] := by decide +kernel
  rw [hevents] at he
  obtain rfl := List.mem_singleton.mp he
  exact absurd hlong (by decide)

/-- A cap of 12 holds the line too. -/
theorem sseParse_eventCap_plain :
    let r := @sseParse lp64 _ (@Heap.plentiful Unit).besideRecord
      (some (recording fun _ h => (0, h))) 12 [ascii "data: ab", ascii "cd\n\n"] ([], ())
    EventCap 12 (sseBatch [ascii "data: ab", ascii "cd\n\n"].flatten)
      (r.1 ≠ 0 ∧ @sseStatus lp64 r.2.1 = .tooBig) (@payloads lp64 Unit r) := by
  refine (@sseParse_eventCap_iff lp64 Unit Heap.plentiful Heap.plentiful_reliable
    (fun _ h => (0, h)) (fun _ _ => rfl) 12 (by decide)
    [ascii "data: ab", ascii "cd\n\n"] (.inl (by decide)) ()).mpr ?_
  have hlines : ∀ line ∈ streamLines [ascii "data: ab", ascii "cd\n\n"].flatten,
      line.length ≤ 12 := by decide +kernel
  intro pre line post hsplit _ hlong
  rw [hsplit] at hlines
  exact absurd (hlines line (by simp)) (Nat.not_le.mpr hlong)

end Sicha
