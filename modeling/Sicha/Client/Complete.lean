import Sicha.Client.Reuse
import Sicha.Response.Assembly

/-!
# When a stream is complete

A streaming attempt that the transport carried through, or that the sink itself cut short, with
no size cap exceeded and no callback objecting: whether it is a success should be decided by the
events of the bytes received, and by nothing behind the first {lit}`[DONE]`.  It is, unless an
event has a piece for a buffer that an earlier attempt of the call has left with an error.

Main results:

- Definition {lit}`Complete`: a stream with {lit}`[DONE]` or a finish reason before it.
- Theorem {lit}`settled_assembled`: what is left of a stream, in terms of its events.
- Theorem {lit}`chatStream_complete`: when a streaming attempt is a success iff its stream is
  complete.
-/

namespace Sicha

/-! ## Complete streams -/

/-- The events before the first {lit}`[DONE]`. -/
def untilDone (events : List Bytes) : List Bytes :=
  events.takeWhile (· ≠ ascii "[DONE]")

/-- A payload that reads as an object without an {lit}`error` member, whose first choice is
an object with a string {lit}`finish_reason`. -/
def Finishes (Y : Yyjson) (payload : Bytes) : Prop :=
  ∃ root choice0 raw, Y.read payload = some root ∧ root.isObj = true ∧
    root.get? (ascii "error") = none ∧ firstChoice root = some choice0 ∧
    choice0.isObj = true ∧ choice0.getStr? (ascii "finish_reason") = some raw

/-- A stream with {lit}`[DONE]`, or with a finish reason before any. -/
def Complete (Y : Yyjson) (events : List Bytes) : Prop :=
  ascii "[DONE]" ∈ events ∨ ∃ payload ∈ untilDone events, Finishes Y payload

/-- A payload finishes the stream if it reads as an event with a finish reason. -/
theorem finishes_iff (Y : Yyjson) (payload : Bytes) :
    Finishes Y payload ↔ ∃ raw, (chatEvent Y payload).bind eventFinish = some raw := by
  constructor
  · rintro ⟨root, choice0, raw, hread, hobj, herror, hchoice, hchoiceObj, hraw⟩
    refine ⟨raw, Option.bind_eq_some_iff.mpr ⟨root, ?_, ?_⟩⟩
    · exact Option.filter_eq_some_iff.mpr ⟨hread, by simp [hobj, herror, hchoice, hchoiceObj]⟩
    · simp [eventFinish, hchoice, hraw]
  · rintro ⟨raw, hraw⟩
    obtain ⟨root, hchat, hfinish⟩ := Option.bind_eq_some_iff.mp hraw
    obtain ⟨hread, hshape⟩ := Option.filter_eq_some_iff.mp hchat
    obtain ⟨choice0, hchoice, hstr⟩ := Option.bind_eq_some_iff.mp hfinish
    simp only [hchoice, Bool.and_eq_true, Option.isNone_iff_eq_none, Option.all_some] at hshape
    exact ⟨root, choice0, raw, hread, hshape.1.1, hshape.1.2, hchoice, hshape.2, hstr⟩

/-- Without {lit}`[DONE]` all events are before it. -/
theorem untilDone_all {events : List Bytes} (h : ∀ e ∈ events, e ≠ ascii "[DONE]") :
    untilDone events = events := by
  rw [untilDone, List.takeWhile_eq_self_iff]
  simpa using h

/-- Where a stream begins with events and {lit}`[DONE]`, those are the events before it. -/
theorem untilDone_stops {evs events : List Bytes} (h : ∀ e ∈ evs, e ≠ ascii "[DONE]")
    (hbegins : evs ++ [ascii "[DONE]"] <+: events) : untilDone events = evs := by
  obtain ⟨rest, rfl⟩ := hbegins
  have hall : ∀ e ∈ evs, (decide (e ≠ ascii "[DONE]")) = true := by simpa using h
  rw [untilDone, List.append_assoc, List.takeWhile_append_of_pos hall]
  simp

/-- The lifted finish reason is set iff an event set one, or it was set before. -/
theorem foldl_finishRaw (Y : Yyjson) (payloads : List Bytes) (a : Lifted)
    (ha : a.finishRaw = none) :
    ((chatEvents Y payloads).foldl Lifted.add a).finishRaw ≠ none ↔
      ∃ payload ∈ payloads, Finishes Y payload := by
  rw [foldl_lifted]
  simp only [ha, Option.or_none, lastOf, ne_eq, List.getLast?_eq_none_iff,
    List.filterMap_eq_nil_iff, not_forall, chatEvents, List.mem_filterMap, finishes_iff,
    Option.bind_eq_some_iff]
  constructor
  · rintro ⟨root, ⟨payload, hmem, hchat⟩, hfinish⟩
    obtain ⟨raw, hraw⟩ := Option.ne_none_iff_exists'.mp hfinish
    exact ⟨payload, hmem, raw, root, hchat, hraw⟩
  · rintro ⟨payload, hmem, raw, root, hchat, hraw⟩
    exact ⟨root, ⟨payload, hmem, hchat⟩, by simp [hraw]⟩

/-- The piece of the last event stands behind the others. -/
theorem eventsPiece_snoc (ch : Channel) (roots : List Json) (root : Json) :
    eventsPiece ch (roots ++ [root]) = eventsPiece ch roots ++ (eventPiece ch root).getD [] := by
  unfold eventsPiece
  cases h : eventPiece ch root <;> simp [h]

/-- The events up to one that is not {lit}`[DONE]` are untilDone. -/
theorem untilDone_begins {evs events : List Bytes} {payload : Bytes}
    (h : ∀ e ∈ evs ++ [payload], e ≠ ascii "[DONE]") (hbegins : evs ++ [payload] <+: events) :
    ∃ rest, untilDone events = evs ++ payload :: rest := by
  obtain ⟨rest, rfl⟩ := hbegins
  have hall : ∀ e ∈ evs ++ [payload], (decide (e ≠ ascii "[DONE]")) = true := by simpa using h
  refine ⟨untilDone rest, ?_⟩
  rw [untilDone, List.takeWhile_append_of_pos hall, List.append_assoc]
  rfl

section Streams

variable [SizeT] {σ : Type}

/-- Every line up to {lit}`[DONE]` fits under the cap, and so does the event it goes on with. -/
def LinesFit (cap : Nat) (bytes : Bytes) : Prop :=
  ∀ pre line post, streamLines bytes = pre ++ line :: post → ascii "[DONE]" ∉ dispatched [] pre →
    Fits cap line ∧ Fits cap ([chLF].intercalate (batchLine (pending [] pre) line).1)

/-- The buffers that carried an error when the stream began still do, and are empty. -/
def Sealed (s0 s : StreamW σ) : Prop :=
  ∀ ch : Channel, (ch.buf s0.r).err ≠ .ok → (ch.buf s.r).err ≠ .ok ∧ (ch.buf s.r).bytes = []

/-- A buffer with an error stays as it is through every step of an event. -/
theorem sealed_event (H : Heap σ) (cbs : Option (Callbacks σ)) (s0 : StreamW σ) :
    EventSteps H cbs (Sealed s0) (fun _ => Sealed s0) where
  alloc _ _ hs := hs
  saw _ hs := hs
  keep := by
    rintro s data b hs rfl
    exact hs
  lift s r hs hframe ch hdead := by
    rw [hframe.buf]
    exact hs ch hdead
  store := by
    rintro s ch bytes b hs - - rfl
    have hstored : Sealed s0 { s.setEnv (bufAppend H (ch.buf s.r) bytes s.world.env).2 with
        r := ch.setBuf s.r (bufAppend H (ch.buf s.r) bytes s.world.env).1 } := by
      intro ch' hdead
      obtain ⟨herr, hbytes⟩ := hs ch' hdead
      have hsticky := @bufAppend_sticky _ _ H _ herr bytes s.world.env
      have hsame := (bufAppend_bytes H (ch'.buf s.r) bytes s.world.env).resolve_left
        fun h => hsticky h.1
      cases ch <;> cases ch' <;>
        first | exact ⟨hsticky, hsame.2.trans hbytes⟩ | exact ⟨herr, hbytes⟩
    refine ⟨fun _ => Answers.both ?_, fun _ => hstored⟩
    unfold Sealed
    rw [(deliverCall_same cbs ch bytes _).1]
    exact hstored
  give := by
    intro s ch bytes hs _ _
    refine Answers.both ?_
    unfold Sealed
    rw [(deliverCall_same cbs ch bytes s).1]
    exact hs
  raw := by
    intro s data hs
    refine Answers.both ?_
    unfold Sealed
    rw [(callData_same (cbs.bind Callbacks.onRawChunk) .onRawChunk data s).1]
    exact hs
  fail _ hs := hs
  stop _ hs := hs

/-- An event leaves a buffer with an error as it is. -/
theorem sealed_answer {H : Heap σ} {cbs : Option (Callbacks σ)} {s0 s : StreamW σ} (Y : Yyjson)
    (payload : Bytes) (hs : Sealed s0 s) : Sealed s0 (streamOnEvent Y H cbs payload s).2 := by
  have hanswer := streamOnEvent_answers (sealed_event H cbs s0) Y payload s hs
  by_cases hzero : (streamOnEvent Y H cbs payload s).1 = 0
  · exact hanswer.1 hzero
  · exact hanswer.2 hzero

namespace Call

variable {k : Call σ}

/-! ## What a stream assembles -/

/-- The stream that starts in {lit}`s0` has taken the payloads {lit}`evs`, none of them
{lit}`[DONE]`, and has assembled them. -/
structure Gathered (k : Call σ) (s0 : StreamW σ) (evs : List Bytes) (s : StreamW σ) : Prop where
  going : ∀ e ∈ evs, e ≠ ascii "[DONE]"
  content : Assembles s0 s
    (fun ch => if s0.ctx.accumulate then eventsPiece ch (chatEvents k.Y evs) else [])
    (fun a => (chatEvents k.Y evs).foldl Lifted.add a) (evs.flatMap (payloadCalls k.Y k.cbs))
  sealed : Sealed s0 s

/-- A payload with a piece that its buffer refuses: the stream fails, short of {lit}`[DONE]`. -/
structure Refuses (k : Call σ) (s0 : StreamW σ) (evs : List Bytes) (payload : Bytes)
    (s : StreamW σ) : Prop where
  going : ∀ e ∈ evs ++ [payload], e ≠ ascii "[DONE]"
  accumulate : s0.ctx.accumulate = true
  full : ∃ s1 root, Gathered k s0 evs s1 ∧ chatEvent k.Y payload = some root ∧ EventFull s1 root
  done : s.ctx.done = false
  sealed : Sealed s0 s

/-- Where a stream stops: at {lit}`[DONE]`, or at a piece that is refused. -/
def Ended (k : Call σ) (s0 : StreamW σ) (evs : List Bytes) (payload : Bytes) (rc : Int)
    (s : StreamW σ) : Prop :=
  (payload = ascii "[DONE]" ∧ rc = streamStop ∧
    ∃ s1, Gathered k s0 evs s1 ∧ s = { s1 with ctx := { s1.ctx with done := true } }) ∨
  (rc = -1 ∧ Refuses k s0 evs payload s)

/-- What is gathered does not depend on the environment. -/
theorem Gathered.setEnv {s0 s : StreamW σ} {evs : List Bytes} (h : Gathered k s0 evs s) (v : σ) :
    Gathered k s0 evs (s.setEnv v) where
  going := h.going
  content :=
    { accumulate := h.content.accumulate
      done := h.content.done
      err := h.content.err
      raw := ⟨h.content.raw.err, h.content.raw.cap⟩
      stored := h.content.stored
      lifted := h.content.lifted
      acts := h.content.acts }
  sealed := h.sealed

/-- What is refused does not depend on the environment. -/
theorem Refuses.setEnv {s0 s : StreamW σ} {evs : List Bytes} {payload : Bytes}
    (h : Refuses k s0 evs payload s) (v : σ) : Refuses k s0 evs payload (s.setEnv v) :=
  ⟨h.going, h.accumulate, h.full, h.done, h.sealed⟩

/-- One more payload. -/
theorem Gathered.take (hH : k.H.Reliable) (hcbs : Agreeable k.cbs) {s0 s : StreamW σ}
    (hs0 : s0.ctx.done = false) {evs : List Bytes} (h : Gathered k s0 evs s) {payload : Bytes}
    (hne : payload ≠ ascii "[DONE]") :
    ((streamOnEvent k.Y k.H k.cbs payload s).1 = 0 ∧
      Gathered k s0 (evs ++ [payload]) (streamOnEvent k.Y k.H k.cbs payload s).2) ∨
    ((streamOnEvent k.Y k.H k.cbs payload s).1 = -1 ∧
      Refuses k s0 evs payload (streamOnEvent k.Y k.H k.cbs payload s).2) := by
  have hgoing : ∀ e ∈ evs ++ [payload], e ≠ ascii "[DONE]" := by
    intro e he
    rcases List.mem_append.mp he with he | he
    · exact h.going e he
    · rw [List.mem_singleton.mp he]
      exact hne
  have hsealed := @sealed_answer _ _ k.H k.cbs s0 s k.Y payload h.sealed
  have hone := streamOnEvent_assembles (Y := k.Y) hH hcbs hne h.content.raw
  rcases hone with ⟨hzero, hass⟩ | ⟨hcode, -, hacc, root, hchat, hfull⟩
  · refine .inl ⟨hzero, hgoing, ?_, hsealed⟩
    have hall := h.content.trans hass
    rw [h.content.accumulate] at hall
    convert hall using 1
    · funext ch
      cases hchat : chatEvent k.Y payload with
      | none => simp [chatEvents, hchat]
      | some root =>
          have hroots : chatEvents k.Y (evs ++ [payload]) = chatEvents k.Y evs ++ [root] := by
            simp [chatEvents, hchat]
          rw [hroots, eventsPiece_snoc]
          by_cases hacc : s0.ctx.accumulate = true <;> simp [eventStored, hacc]
    · funext a
      cases hchat : chatEvent k.Y payload <;> simp [chatEvents, hchat]
    · simp
  · have hopen := (streamOnEvent_answers (@opened_event _ _ k).steps k.Y payload s
      (h.content.done.trans hs0)).2 (by rw [hcode]; decide) (by rw [hcode]; decide)
    exact .inr ⟨hcode, hgoing, h.content.accumulate.symm.trans hacc, ⟨s, root, h, hchat, hfull⟩,
      hopen, hsealed⟩

/-- Every event of a stream is gathered, or ends it. -/
theorem gathered_rule (hH : k.H.Reliable) (hcbs : Agreeable k.cbs) {s0 : StreamW σ}
    (hs0 : s0.ctx.done = false) :
    k.StreamRule (fun past => Gathered k s0 (past.map Prod.fst))
      (fun past e => Ended k s0 (past.map Prod.fst) e.1) where
  take := by
    intro payload past s hs hzero
    have hne : payload ≠ ascii "[DONE]" := by
      rintro rfl
      simp [streamOnEvent, streamStop] at hzero
    rcases hs.take hH hcbs hs0 hne with ⟨-, hnext⟩ | ⟨hcode, -⟩
    · rw [List.map_append]
      exact hnext
    · rw [hzero] at hcode
      cases hcode
  stop := by
    intro payload past s hs hne
    by_cases hdone : payload = ascii "[DONE]"
    · refine .inl ⟨hdone, ?_, s, hs, ?_⟩ <;> simp [streamOnEvent, hdone]
    · rcases hs.take hH hcbs hs0 hdone with ⟨hzero, -⟩ | hfail
      · exact absurd hzero hne
      · exact .inr hfail
  move _ _ v hs := hs.setEnv v
  moved := by
    rintro past e rc s v (⟨hpayload, hrc, s1, hs1, rfl⟩ | ⟨hrc, hfail⟩)
    · exact .inl ⟨hpayload, hrc, s1.setEnv v, hs1.setEnv v, rfl⟩
    · exact .inr ⟨hrc, hfail.setEnv v⟩

/-! ## The settled stream -/

/-- What is left of a stream with these events. -/
structure Whole (k : Call σ) (s0 : StreamW σ) (events : List Bytes) (s : StreamW σ) : Prop where
  done : s.ctx.done = true ↔ ascii "[DONE]" ∈ events
  content : ∃ s1, Gathered k s0 (untilDone events) s1 ∧ s1.r = s.r ∧ s1.world = s.world

/-- Something of a stream is refused: a line or the event it goes on with, or a piece. -/
inductive Bursts (k : Call σ) (s0 : StreamW σ) (bytes : Bytes) (r : Result) : Prop
  | line (evs : List Bytes) (hgoing : ∀ e ∈ evs, e ≠ ascii "[DONE]")
      (h : Overflows k.c.maxEventBytes evs (streamLines bytes))
  | piece (evs : List Bytes) (payload : Bytes) (hbegins : evs ++ [payload] <+: sseBatch bytes)
      (s : StreamW σ) (hr : s.r = r) (h : Refuses k s0 evs payload s)

/-- A stream that has taken all its events. -/
theorem Gathered.whole {s0 s : StreamW σ} (hs0 : s0.ctx.done = false) {events : List Bytes}
    (h : Gathered k s0 events s) : Whole k s0 events s where
  done := by
    rw [h.content.done, hs0]
    exact ⟨nofun, fun hmem => absurd rfl (h.going _ hmem)⟩
  content := ⟨s, by rw [untilDone_all h.going]; exact h, rfl, rfl⟩

/-- A stream that has ended at {lit}`[DONE]` has all its events. -/
theorem Gathered.stopped {s0 s1 : StreamW σ} {evs events : List Bytes} (h : Gathered k s0 evs s1)
    (hbegins : evs ++ [ascii "[DONE]"] <+: events) :
    Whole k s0 events { s1 with ctx := { s1.ctx with done := true } } where
  done := ⟨fun _ => hbegins.subset (by simp), fun _ => rfl⟩
  content := ⟨s1, by rw [untilDone_stops h.going hbegins]; exact h, rfl, rfl⟩

/-- The verdict on a stream: it is malformed or empty, unless it is done or has a finish
reason. -/
structure Decided (v : Verdict) (io : AttemptIo) : Prop where
  ts : v.ts = .ok
  terminal : v.terminal = .ok
  body : v.bodyState = .ok ↔ io.ctx.done = true ∨ io.r.finishRaw ≠ none

/-- A stream without an error is decided by what it brought. -/
theorem checkStream_decided {s : Settled σ} (hts : s.v.ts = .ok) (hterminal : s.v.terminal = .ok)
    (hbody : s.v.bodyState = .ok) : Decided (checkStream s).v s.io := by
  unfold checkStream
  by_cases h : s.v.terminal = .ok ∧ s.v.ts = .ok ∧ s.v.bodyState = .ok ∧
      s.io.ctx.done = false ∧ s.io.r.finishRaw = none
  · rw [if_pos h]
    refine ⟨hts, hterminal, ?_⟩
    rw [h.2.2.2.1, h.2.2.2.2]
    dsimp only
    split_ifs <;> simp
  · rw [if_neg h]
    refine ⟨hts, hterminal, fun _ => ?_, fun _ => hbody⟩
    by_contra hnone
    rw [not_or, not_not, Bool.not_eq_true] at hnone
    exact h ⟨hterminal, hts, hbody, hnone.1, hnone.2⟩

/-- How a stream with these bytes ends: whole and decided, or refused and no success. -/
def Settles (k : Call σ) (s0 : StreamW σ) (bytes : Bytes) (t : Settled σ) : Prop :=
  (Whole k s0 (sseBatch bytes) ⟨t.io.ctx, t.io.r, t.world⟩ ∧ Decided t.v t.io) ∨
    (Bursts k s0 bytes t.io.r ∧ t.v.complete t.io.httpStatus = false)

/-- The flush of a stream whose payloads have all been taken. -/
theorem flushStream_settles (hH : k.H.Reliable) (hcbs : Agreeable k.cbs) {s0 : StreamW σ}
    (hs0 : s0.ctx.done = false) {io : AttemptIo} {w : World σ} {bytes : Bytes}
    {past : List (Handled σ)} (hreading : Reading k.c.maxEventBytes io.sse bytes (past.map Prod.fst))
    (h : Gathered k s0 (past.map Prod.fst) ⟨io.ctx, io.r, w⟩) :
    Settles k s0 bytes (checkStream (flushStream k.Y k.H k.cbs ⟨⟨.ok, .ok, .ok⟩, io, w⟩)) := by
  have hopen : io.ctx.done = false := h.content.done.trans hs0
  have hfinish := finish_heeded (gathered_rule hH hcbs hs0) hreading h
  have hplain := sseFinish_watched (streamHeap k.H) (streamOnEvent k.Y k.H k.cbs) io.sse
    ⟨io.ctx, io.r, w⟩ []
  unfold Settles
  rw [(checkStream_same _).1, (checkStream_same _).2]
  simp only [flushStream, hopen, Bool.false_eq_true, if_false]
  rw [← hplain]
  unfold onEvent at hfinish
  generalize sseFinish (streamHeap k.H).besideWatch
    (some (streamOnEvent k.Y k.H k.cbs).watched) io.sse (⟨io.ctx, io.r, w⟩, []) = r at hfinish ⊢
  have hspoiled := flushed_incomplete ⟨.ok, .ok, .ok⟩ io (unwatched r)
  cases hfinish with
  | @going p u l hnext hP =>
      left
      rw [hnext.1] at hP
      exact ⟨hP.whole hs0, checkStream_decided rfl rfl rfl⟩
  | @stopped rc p u l e hrc hstop hsound hQ =>
      rw [← List.append_assoc, List.map_append] at hstop
      rcases hQ with ⟨hpayload, rfl, s1, hs1, rfl⟩ | ⟨rfl, hrefuses⟩
      · left
        rw [List.map_singleton, hpayload] at hstop
        exact ⟨hs1.stopped hstop, checkStream_decided rfl rfl rfl⟩
      · exact .inr ⟨.piece _ e.1 hstop u rfl hrefuses, hspoiled (.inl rfl)⟩
  | @failed p u l herr hP hfull =>
      exact .inr ⟨.line _ hP.going (hfull hH), hspoiled (.inl rfl)⟩

/-- The start of a stream, on a reset result. -/
def streamStart (k : Call σ) (rq : HttpRequest) (s : LoopState k.c) : StreamW σ :=
  ⟨k.freshCtx, k.cleared s, k.handed rq s.world⟩

/-- At its start a stream has gathered nothing. -/
theorem streamStart_gathered (hstream : k.stream = true) (rq : HttpRequest) (s : LoopState k.c) :
    Gathered k (k.streamStart rq s) [] (k.streamStart rq s) := by
  have hraw : RawOk (k.streamStart rq s) := by
    unfold streamStart
    rw [freshCtx, if_pos hstream]
    exact ⟨rfl, rfl⟩
  have hrefl : Assembles (k.streamStart rq s) (k.streamStart rq s) (fun _ => []) (fun a => a) [] :=
    .refl hraw
  refine ⟨by simp, by simpa [chatEvents, eventsPiece] using hrefl, fun ch hdead => ⟨hdead, ?_⟩⟩
  exact k.cleared_bytes s ch

/-- What is left of a stream that was carried through, or that the sink cut short. -/
theorem settled_assembled (hstream : k.stream = true) (hH : k.H.Reliable)
    (hc : Obedient k.c k.cancel) (hcbs : Agreeable k.cbs) (rq : HttpRequest)
    (s : LoopState k.c) (hhttp : httpSuccess (k.exchanged rq s).io.httpStatus = true)
    (hts : (k.exchanged rq s).ts = .ok ∨ ((k.exchanged rq s).ts = .abortedBySink ∧
      ∃ t ∈ k.asked rq s, k.answer t ≠ 0)) :
    Settles k (k.streamStart rq s) (received (k.asked rq s)) (k.settled rq s) := by
  have hopen : (k.streamStart rq s).ctx.done = false := by
    unfold streamStart
    rw [freshCtx, if_pos hstream]
    rfl
  have hends := exchange_follows hstream hc (gathered_rule hH hcbs hopen) rq s
    (streamStart_gathered hstream rq s)
  have ht : k.settled rq s = settle k.Y k.H k.cbs true ⟨untangle true (k.exchanged rq s).io
      (k.exchanged rq s).ts, (k.exchanged rq s).io, (k.exchanged rq s).world⟩ := by
    simp only [settled, hstream]
  rw [ht]
  dsimp only at hends
  generalize k.exchanged rq s = x at hends hhttp hts ⊢
  rcases hends with hgoing | ⟨haborted, hhalting⟩
  · have hdone : x.ts = .ok := by
      refine hts.resolve_right ?_
      rintro ⟨-, turn, hmem, hne⟩
      exact hne (hgoing.answers turn hmem)
    have hv : untangle true x.io x.ts = ⟨.ok, .ok, .ok⟩ := by simp [untangle, hdone]
    have hcomplete : (⟨.ok, .ok, .ok⟩ : Verdict).complete x.io.httpStatus = true := by
      simp [Verdict.complete, hhttp]
    simp only [hv, settle, hcomplete, if_true]
    exact flushStream_settles hH hcbs hopen hgoing.reading (hgoing.holds x.world.env)
  · rw [haborted]
    obtain ⟨hio, hworld, hv⟩ := @settle_aborted _ _ k x.io x.world
    have hburst : x.io.ctx.done = false →
        (settle k.Y k.H k.cbs true ⟨untangle true x.io .abortedBySink, x.io, x.world⟩).v.complete
          x.io.httpStatus = false := by
      intro hfalse
      have hno := untangle_open hfalse
      simp only [settle, hno, Bool.false_eq_true, if_false]
    unfold Settles
    rw [hio, hworld]
    cases hhalting with
    | stopped past e hhandled hrc hstop hsound hQ =>
        have hbegins := hstop []
        rw [List.append_nil, hhandled, List.map_append] at hbegins
        rcases hQ x.world.env with ⟨hpayload, -, s1, hs1, hnow⟩ | ⟨-, hrefuses⟩
        · rw [List.map_singleton, hpayload] at hbegins
          have hdone : x.io.ctx.done = true := congrArg (fun u => u.ctx.done) hnow
          have hwhole := hs1.stopped hbegins
          rw [← hnow] at hwhole
          rw [hv hdone]
          exact .inl ⟨hwhole, rfl, rfl, fun _ => .inl hdone, fun _ => rfl⟩
        · exact .inr ⟨.piece _ e.1 hbegins _ rfl hrefuses, hburst hrefuses.done⟩
    | failed hrc herr hP hfull =>
        have hgathered := hP x.world.env
        exact .inr ⟨.line _ hgathered.going (hfull hH),
          hburst (hgathered.content.done.trans hopen)⟩

/-! ## The class -/

/-- A validator that accepts leaves the class alone. -/
theorem judge_accepted (x : Ran σ)
    (hval : ∀ f, k.cbs.bind Callbacks.validate = some f → ∀ r s, (f r s).1 = 0) :
    (k.judge x).cls = k.firstClass x := by
  unfold judge
  split
  · rfl
  · rename_i f hf
    have hset : k.cbs.bind Callbacks.validate = some f := by
      unfold validator at hf
      split_ifs at hf
      exact hf
    have hzero : (x.world.act (f x.r) Act.validate).1 = 0 := hval f hset x.r x.world.env
    dsimp only
    rw [if_neg (not_not.mpr hzero)]

/-- Without a flag that moves on, a decided stream is a success or moves on. -/
theorem Decided.cls {x : Ran σ} {io : AttemptIo} (h : Decided x.o.v io)
    (hhttp : httpSuccess x.o.httpStatus = true)
    (hlength : k.c.policy.flags &&& policyLengthIsAdvance = 0)
    (hfilter : k.c.policy.flags &&& policyContentFilterIsAdvance = 0) :
    (k.firstClass x = .none ↔ io.ctx.done = true ∨ io.r.finishRaw ≠ none) ∧
      (k.firstClass x = .none ∨ k.firstClass x = .advance) := by
  have hrange : x.o.httpStatus ≥ 200 ∧ x.o.httpStatus ≤ 299 := by
    simpa [httpSuccess] using hhttp
  have hcls : k.firstClass x = classifySuccess k.c.policy x.o.v.bodyState x.r.finish := by
    rw [firstClass, if_neg (not_not.mpr h.terminal), h.ts]
    simp only [classify, if_pos hrange]
  have hbody := h.body
  rw [hcls]
  cases hstate : x.o.v.bodyState with
  | ok =>
      have hnone : classifySuccess k.c.policy .ok x.r.finish = .none := by
        simp [classifySuccess, hlength, hfilter]
      rw [hnone]
      exact ⟨⟨fun _ => hbody.mp hstate, fun _ => rfl⟩, .inl rfl⟩
  | empty | malformed | tooBig =>
      have hnot : ¬ (io.ctx.done = true ∨ io.r.finishRaw ≠ none) := by
        rw [← hbody, hstate]
        decide
      refine ⟨⟨fun hnone => ?_, fun hyes => absurd hyes hnot⟩, .inr rfl⟩
      cases hnone

/-! ## The decision -/

/-- The chat events of an attempt, those before {lit}`[DONE]`. -/
def roots (k : Call σ) (rq : HttpRequest) (s : LoopState k.c) : List Json :=
  chatEvents k.Y (untilDone (sseBatch (received (k.asked rq s))))

/-- No size cap is exceeded by what an attempt receives, neither by a line or an event before
{lit}`[DONE]` nor by the content that is stored. -/
structure SizesFit (k : Call σ) (rq : HttpRequest) (s : LoopState k.c) : Prop where
  lines : LinesFit k.c.maxEventBytes (received (k.asked rq s))
  pieces : k.req.accumulates = true → ∀ ch : Channel,
    Fits (ch.buf s.r).maxLen (eventsPiece ch (k.roots rq s))

/-- No buffer that an event brings something for carries an error when the attempt starts. -/
def Unspoilt (k : Call σ) (rq : HttpRequest) (s : LoopState k.c) : Prop :=
  k.req.accumulates = true → ∀ ch : Channel,
    (ch.buf s.r).err = .ok ∨ eventsPiece ch (k.roots rq s) = []

/-- The decision on a stream: it is a success iff it is complete, and else moves on, and its
callbacks and its content are those of the events before the first {lit}`[DONE]`. -/
structure RightlyDecided (k : Call σ) (rq : HttpRequest) (s : LoopState k.c) : Prop where
  success : (k.entry rq s).errorClass = .none ↔
    Complete k.Y (sseBatch (received (k.asked rq s)))
  cls : (k.entry rq s).errorClass = .none ∨ (k.entry rq s).errorClass = .advance
  given : k.given rq s =
    (untilDone (sseBatch (received (k.asked rq s)))).flatMap (payloadCalls k.Y k.cbs)
  lifted : (k.roundTrip rq s).r.lifted = (k.roots rq s).foldl Lifted.add (k.cleared s).lifted
  bytes : ∀ ch : Channel, (ch.buf (k.roundTrip rq s).r).bytes =
    if k.req.accumulates then eventsPiece ch (k.roots rq s) else []

/-- A result without an error is not spoilt. -/
theorem unspoilt_of_clean {s : LoopState k.c} (h : s.r.Clean) (rq : HttpRequest) :
    k.Unspoilt rq s := by
  intro _ ch
  cases ch
  · exact .inl h.text
  · exact .inl h.reasoning

/-- A cleared result has empty buffers, which keep their errors. -/
theorem cleared_err (s : LoopState k.c) (ch : Channel) :
    (ch.buf (k.cleared s)).view = ⟨[], (ch.buf s.r).maxLen, (ch.buf s.r).err⟩ := by
  cases ch <;> exact bufReset_view _

/-- A stream accumulates if its request does. -/
theorem streamStart_accumulate (hstream : k.stream = true) (rq : HttpRequest)
    (s : LoopState k.c) : (k.streamStart rq s).ctx.accumulate = k.req.accumulates := by
  unfold streamStart
  rw [freshCtx, if_pos hstream]
  rfl

/-- What a whole stream has stored. -/
theorem Gathered.bytes (hstream : k.stream = true) {rq : HttpRequest} {s : LoopState k.c}
    {evs : List Bytes} {s1 : StreamW σ} (h : Gathered k (k.streamStart rq s) evs s1)
    (ch : Channel) : (ch.buf s1.r).view = ⟨if k.req.accumulates then
      eventsPiece ch (chatEvents k.Y evs) else [], (ch.buf s.r).maxLen, (ch.buf s.r).err⟩ := by
  have hstored := h.content.stored ch
  rw [streamStart_accumulate hstream] at hstored
  change _ = (ch.buf (k.cleared s)).view.plus _ at hstored
  rw [hstored, cleared_err]
  rfl

/-- A stream can only be whole if no piece met an error. -/
theorem Gathered.unspoilt (hstream : k.stream = true) {rq : HttpRequest} {s : LoopState k.c}
    {s1 : StreamW σ} (h : Gathered k (k.streamStart rq s)
      (untilDone (sseBatch (received (k.asked rq s)))) s1) : k.Unspoilt rq s := by
  intro hacc ch
  by_cases herr : (ch.buf s.r).err = .ok
  · exact .inl herr
  · have hdead : (ch.buf (k.streamStart rq s).r).err ≠ .ok := by
      have hsame : (ch.buf (k.cleared s)).err = (ch.buf s.r).err :=
        congrArg CappedBytes.err (cleared_err s ch)
      exact hsame ▸ herr
    have hbytes := congrArg CappedBytes.bytes (h.bytes hstream ch)
    rw [Buf.view_bytes, (h.sealed ch hdead).2] at hbytes
    simp only [hacc, if_true] at hbytes
    exact .inr hbytes.symm

/-- Where the lines fit, only a piece is refused. -/
theorem Bursts.refused {s0 : StreamW σ} {bytes : Bytes} {r : Result} (h : Bursts k s0 bytes r)
    (hlines : LinesFit k.c.maxEventBytes bytes) : ∃ evs payload s,
      evs ++ [payload] <+: sseBatch bytes ∧ s.r = r ∧ Refuses k s0 evs payload s := by
  cases h with
  | line evs hgoing h =>
      obtain ⟨pre, line, post, hsplit, rfl, hover⟩ := h
      have hnot : ascii "[DONE]" ∉ dispatched [] pre := fun hmem => hgoing _ hmem rfl
      exact absurd (hlines pre line post hsplit hnot) hover
  | piece evs payload hbegins s hr h => exact ⟨evs, payload, s, hbegins, hr, h⟩

/-- A piece that fits is refused only by a buffer with an error. -/
theorem Refuses.spoilt (hstream : k.stream = true) {rq : HttpRequest} {s : LoopState k.c}
    (hfits : k.SizesFit rq s) {evs : List Bytes} {payload : Bytes} {u : StreamW σ}
    (h : Refuses k (k.streamStart rq s) evs payload u)
    (hbegins : evs ++ [payload] <+: sseBatch (received (k.asked rq s))) : ¬ k.Unspoilt rq s := by
  intro hclean
  have hacc : k.req.accumulates = true :=
    (streamStart_accumulate hstream rq s).symm.trans h.accumulate
  obtain ⟨s1, root, hgathered, hchat, ch, bytes, hpiece, hne, hfull⟩ := h.full
  obtain ⟨rest, huntil⟩ := untilDone_begins h.going hbegins
  -- the piece stands behind what has been stored
  have hall : eventsPiece ch (k.roots rq s) =
      eventsPiece ch (chatEvents k.Y evs) ++ bytes ++ eventsPiece ch (chatEvents k.Y rest) := by
    simp [roots, huntil, chatEvents, eventsPiece, hchat, hpiece]
  have hview := hgathered.bytes hstream ch
  simp only [hacc, if_true] at hview
  refine hfull ?_
  rw [hview, CappedBytes.append_ok_iff]
  refine ⟨(hclean hacc ch).resolve_right ?_, ?_⟩
  · rw [hall]
    simp [hne]
  · exact (hfits.pieces hacc ch).shorter (by simp [hall])

/-- A whole stream is decided as it should be. -/
theorem Whole.rightly (hstream : k.stream = true) {rq : HttpRequest} {s : LoopState k.c}
    (hval : ∀ f, k.cbs.bind Callbacks.validate = some f → ∀ r s, (f r s).1 = 0)
    (hlength : k.c.policy.flags &&& policyLengthIsAdvance = 0)
    (hfilter : k.c.policy.flags &&& policyContentFilterIsAdvance = 0)
    (hhttp : httpSuccess (k.exchanged rq s).io.httpStatus = true)
    (hwhole : Whole k (k.streamStart rq s) (sseBatch (received (k.asked rq s)))
      ⟨(k.settled rq s).io.ctx, (k.settled rq s).io.r, (k.settled rq s).world⟩)
    (hdecided : Decided (k.settled rq s).v (k.settled rq s).io) : k.RightlyDecided rq s := by
  obtain ⟨s1, hgathered, hr, hworld⟩ := hwhole.content
  have hcls : (k.entry rq s).errorClass = k.firstClass (k.roundTrip rq s) :=
    judge_accepted _ hval
  have hstatus : httpSuccess (k.roundTrip rq s).o.httpStatus = true := by
    have hsame : (k.roundTrip rq s).o.httpStatus = (k.exchanged rq s).io.httpStatus :=
      (settle_response k.Y k.H k.cbs k.stream _).1
    rw [hsame]
    exact hhttp
  obtain ⟨hnone, heither⟩ := @Decided.cls _ _ k (k.roundTrip rq s) _ hdecided hstatus
    hlength hfilter
  have hlifted : (k.roundTrip rq s).r.lifted =
      (k.roots rq s).foldl Lifted.add (k.cleared s).lifted := by
    have h := hgathered.content.lifted
    rw [hr] at h
    exact h
  have hfinish : (k.settled rq s).io.r.finishRaw ≠ none ↔
      ∃ payload ∈ untilDone (sseBatch (received (k.asked rq s))), Finishes k.Y payload := by
    rw [← foldl_finishRaw k.Y _ (k.cleared s).lifted rfl, ← roots, ← hlifted]
    rfl
  refine ⟨?_, ?_, ?_, hlifted, fun ch => ?_⟩
  · rw [hcls, hnone, hfinish]
    exact or_congr hwhole.done Iff.rfl
  · rw [hcls]
    exact heither
  · have hacts := hgathered.content.acts
    rw [hworld] at hacts
    change (k.roundTrip rq s).world.acts = (k.handed rq s.world).acts ++ _ at hacts
    rw [Call.given, hacts, List.drop_left]
  · have hview := congrArg CappedBytes.bytes (hgathered.bytes hstream ch)
    rw [hr] at hview
    exact hview

end Call

open Call

/-- A streaming attempt with a 2xx status that the transport carries through, or that it aborts
because the sink asked it to, with callbacks that answer zero, no cap exceeded and neither flag
that moves on.  It is a success iff its stream is complete, and else moves on, with the callbacks
and the content of the events before the first {lit}`[DONE]`, exactly if no event brings something
for a buffer that carries an error when the attempt starts; and if one does, it is no success. -/
theorem chatStream_complete (k : Call σ) (hstream : k.stream = true) (hH : k.H.Reliable)
    (hc : Obedient k.c k.cancel) (hcbs : Agreeable k.cbs)
    (hval : ∀ f, k.cbs.bind Callbacks.validate = some f → ∀ r s, (f r s).1 = 0)
    (hlength : k.c.policy.flags &&& policyLengthIsAdvance = 0)
    (hfilter : k.c.policy.flags &&& policyContentFilterIsAdvance = 0)
    (rq : HttpRequest) (s : LoopState k.c)
    (hhttp : httpSuccess (k.exchanged rq s).io.httpStatus = true)
    (hts : (k.exchanged rq s).ts = .ok ∨ ((k.exchanged rq s).ts = .abortedBySink ∧
      ∃ t ∈ k.asked rq s, k.answer t ≠ 0))
    (hfits : k.SizesFit rq s) :
    (k.RightlyDecided rq s ↔ k.Unspoilt rq s) ∧
      (¬ k.Unspoilt rq s → (k.entry rq s).errorClass ≠ .none) := by
  rcases settled_assembled hstream hH hc hcbs rq s hhttp hts with
    ⟨hwhole, hdecided⟩ | ⟨hbursts, hincomplete⟩
  · obtain ⟨s1, hgathered, -, -⟩ := hwhole.content
    have hclean := hgathered.unspoilt hstream
    exact ⟨iff_of_true (hwhole.rightly hstream hval hlength hfilter hhttp hdecided) hclean,
      fun hspoilt => absurd hclean hspoilt⟩
  · obtain ⟨evs, payload, u, hbegins, hr, hrefuses⟩ := hbursts.refused hfits.lines
    have hspoilt := hrefuses.spoilt hstream hfits hbegins
    refine ⟨iff_of_false (fun hright => ?_) hspoilt, fun _ hnone => ?_⟩
    · -- a buffer with an error is empty at the end, though an event brought something for it
      refine hspoilt fun hacc ch => ?_
      by_cases herr : (ch.buf s.r).err = .ok
      · exact .inl herr
      · have hdead : (ch.buf (k.streamStart rq s).r).err ≠ .ok := by
          have hsame : (ch.buf (k.cleared s)).err = (ch.buf s.r).err :=
            congrArg CappedBytes.err (cleared_err s ch)
          exact hsame ▸ herr
        have hempty := (hrefuses.sealed ch hdead).2
        have hbytes := hright.bytes ch
        rw [hr] at hempty
        rw [if_pos hacc] at hbytes
        exact .inr (hbytes.symm.trans hempty)
    · have hcomplete := entry_none hnone
      rw [hincomplete] at hcomplete
      cases hcomplete

end Streams

section Plain

attribute [local instance] lp64

/-- The plain stream has one event before its end. -/
theorem plainStream_untilDone :
    untilDone (sseBatch (plainStream "hi").flatten) = [plainEventText "hi"] := by
  decide +kernel

/-- The plain stream ends with {lit}`[DONE]`, and is a success. -/
theorem chatStream_complete_plain :
    let k : Call Unit := ⟨plainYyjson (plainEventText "hi") (plainEvent "hi"), Heap.plentiful,
      plainClient 0 1048576 (by decide) (replyTransport fun s => ((200, plainStream "hi"), s)),
      plainRequest, some plainCallbacks, none, true⟩
    let rq := chatRequest plainBackend plainBody []
    let s := k.start 0 (resultInit 1048576) ⟨(), []⟩
    k.RightlyDecided rq s ∧ (k.entry rq s).errorClass = .none ∧
      k.given rq s = [Act.onDelta (ascii "hi") 0] := by
  intro k rq s
  have hreceived : received (k.asked rq s) = (plainStream "hi").flatten := by decide +kernel
  have hroots : k.roots rq s = [plainEvent "hi"] := by
    rw [Call.roots, hreceived, plainStream_untilDone]
    rfl
  have hfits : k.SizesFit rq s := by
    refine ⟨fun pre line post hlines _ => ?_, fun _ ch => ?_⟩
    · rw [hreceived] at hlines
      exact Fits.parts ⟨.inr (by decide +kernel), by decide +kernel⟩ hlines
    · rw [hroots]
      cases ch <;> exact ⟨.inr (by decide +kernel), by decide +kernel⟩
  have hall := chatStream_complete k rfl Heap.plentiful_reliable
    (fun rq s => replyTransport_obedient _ rq none s) plainCallbacks_agreeable
    (fun f hf r s => by cases hf; rfl) (by decide) (by decide) rq s (by decide +kernel)
    (.inr (by decide +kernel)) hfits
  have hright : k.RightlyDecided rq s := hall.1.mpr (Call.unspoilt_of_clean ⟨rfl, rfl⟩ rq)
  refine ⟨hright, hright.success.mpr (.inl ?_), hright.given.trans ?_⟩
  · rw [hreceived]
    decide +kernel
  · rw [hreceived]
    decide +kernel

/-- Behind a response over the cap, a complete stream that fits is no success. -/
theorem chatStream_complete_spoilt :
    let k := twoBackends overflowing
    ¬ ∀ t ∈ k.attempts 0 ⟨0, []⟩, httpSuccess (k.exchanged t.1 t.2).io.httpStatus = true →
      ((k.exchanged t.1 t.2).ts = .ok ∨ ((k.exchanged t.1 t.2).ts = .abortedBySink ∧
        ∃ u ∈ k.asked t.1 t.2, k.answer u ≠ 0)) → k.SizesFit t.1 t.2 →
      ((k.entry t.1 t.2).errorClass = .none ↔
        Complete k.Y (sseBatch (received (k.asked t.1 t.2)))) := by
  intro k hall
  have hattempts : (k.attempts 0 ⟨0, []⟩).map (fun t => ((k.exchanged t.1 t.2).io.httpStatus,
      (k.exchanged t.1 t.2).ts, (k.asked t.1 t.2).map k.answer,
      decide (received (k.asked t.1 t.2) = (plainStream "hi").flatten),
      (k.entry t.1 t.2).errorClass)) =
      [(200, .abortedBySink, [0, 1], false, .advance),
        (200, .abortedBySink, [0, 1], true, .advance)] := by
    decide +kernel
  obtain ⟨t, ht, hend⟩ := List.mem_map.mp
    (hattempts ▸ List.mem_cons_of_mem _ (List.mem_singleton_self _))
  simp only [Prod.mk.injEq, decide_eq_true_eq] at hend
  obtain ⟨hstatus, hts, hanswers, hreceived, hcls⟩ := hend
  have hroots : k.roots t.1 t.2 = [plainEvent "hi"] := by
    rw [Call.roots, hreceived, plainStream_untilDone]
    rfl
  have hfits : k.SizesFit t.1 t.2 := by
    refine ⟨fun pre line post hlines _ => ?_, fun _ ch => ?_⟩
    · rw [hreceived] at hlines
      exact Fits.parts ⟨.inr (by decide +kernel), by decide +kernel⟩ hlines
    · have hcap : (ch.buf t.2.r).maxLen = 4 := ((Call.attempts_capped ht).buf ch).maxLen
      rw [hroots, hcap]
      cases ch <;> exact ⟨.inr (by decide +kernel), by decide +kernel⟩
  obtain ⟨u, hu, hanswer⟩ := List.mem_map.mp
    (show (1 : Int) ∈ (k.asked t.1 t.2).map k.answer by rw [hanswers]; decide)
  have hdecided := hall t ht (by rw [hstatus]; rfl)
    (.inr ⟨hts, u, hu, by rw [hanswer]; decide⟩) hfits
  have hcomplete : Complete k.Y (sseBatch (received (k.asked t.1 t.2))) := by
    rw [hreceived]
    exact .inl (by decide +kernel)
  have hnone := hdecided.mpr hcomplete
  rw [hcls] at hnone
  cases hnone

end Plain

end Sicha
