import Sicha.Client.Run

/-!
# Exactly-once telemetry

The visible trace of a call is one block for every record, and behind them at most the
abort assist of a cancelled attempt.

Main results:

- Definition {lit}`Block`: what a recorded attempt does, judged by its own round trip.
- Theorem {lit}`turn_telemetry`: every turn adds the block of its record.
- Theorem {lit}`chat_telemetry`: the trace of a call.
-/

namespace Sicha

section Runs

variable [SizeT] {σ : Type}

/-! ## Blocks -/

/-- What a recorded attempt looks like: its request goes to its backend, the data callbacks of its
round trip run, a validator that is set judges it exactly if the round trip was classified as a
success, the record is told, and the engine may wait. -/
inductive Block (k : Call σ) (t : HttpRequest × LoopState k.c) : List Act → Prop
  | intro {checks waits : List Act} (hurl : t.1.url = (k.backend t.2).urlChat)
      (hbackend : (k.entry t.1 t.2).backend = UInt32.ofNat t.2.i.val)
      (hdata : ∀ d ∈ k.given t.1 t.2, d.isData = true)
      (hchecks : Call.Judgement (k.cbs.bind Callbacks.validate).isSome
        (k.firstClass (k.roundTrip t.1 t.2)) (k.entry t.1 t.2).errorClass checks)
      (hwaits : waits = [] ∨ ∃ ms rc, waits = [.wait ms rc]) :
      Block k t
        (k.handing t.1 :: (k.given t.1 t.2 ++ checks ++ k.told (k.entry t.1 t.2) ++ waits))

/-- A trace that is one block for every recorded attempt, in order. -/
inductive Blocks (k : Call σ) : List (HttpRequest × LoopState k.c) → List Act → Prop
  | nil : Blocks k [] []
  | snoc {trips : List (HttpRequest × LoopState k.c)} {acts block : List Act}
      {t : HttpRequest × LoopState k.c} (h : Blocks k trips acts)
      (hordinal : (k.entry t.1 t.2).attempt = UInt32.ofNat trips.length)
      (hblock : Block k t block) : Blocks k (trips ++ [t]) (acts ++ block)

/-- What follows the blocks: the request to the abort URL of the last record's backend, if
that record is a cancelled one and the backend has the assist flag. -/
inductive Tail (c : Client σ) (records : List Attempt) : List Act → Prop
  | none (h : ∀ a, records.getLast? = some a → a.errorClass ≠ .cancelled) : Tail c records []
  | unassisted {a : Attempt} {i : Fin c.backends.length} (hlast : records.getLast? = some a)
      (hcls : a.errorClass = .cancelled) (hbackend : a.backend = UInt32.ofNat i.val)
      (hflag : (c.backends.get i).flags &&& backendKoboldCancelAssist = 0) : Tail c records []
  | assist {a : Attempt} {i : Fin c.backends.length} {url : Bytes}
      (hlast : records.getLast? = some a) (hcls : a.errorClass = .cancelled)
      (hbackend : a.backend = UInt32.ofNat i.val)
      (hflag : (c.backends.get i).flags &&& backendKoboldCancelAssist ≠ 0)
      (hurl : (c.backends.get i).urlAbort = some url) :
      Tail c records [.perform (Call.assistRequest (c.backends.get i) url) false false]

/-- The trace of a call, and how it goes with the records that the call hands out. -/
structure Telemetry (k : Call σ) (ordinal : UInt32) (w : World σ) (e : Call.ChatEnd σ)
    (front tail : List Act) : Prop where
  records : e.records = k.entries (k.trips ordinal w)
  trace : e.world.trace = front ++ tail
  blocks : Blocks k (k.trips ordinal w) front
  rest : Tail k.c e.records tail
  performs : e.world.trace.countP Act.isPerform = e.records.length + tail.length
  /-- what {lit}`on_attempt` was told is the record of that ordinal -/
  told : ∀ a, Act.onAttempt a ∈ e.world.trace →
    ∃ j : Nat, e.records[j]? = some a ∧ a.attempt = UInt32.ofNat j

/-- A block hands over one request. -/
theorem Block.performs {k : Call σ} {t : HttpRequest × LoopState k.c} {acts : List Act}
    (h : Block k t acts) : acts.countP Act.isPerform = 1 := by
  obtain ⟨-, -, hdata, hchecks, hwaits⟩ := h
  rename_i checks waits
  have hzero : (k.given t.1 t.2).countP Act.isPerform = 0 := by
    rw [List.countP_eq_zero]
    intro d hd
    have hisData := hdata d hd
    cases d with
    | perform => cases hisData
    | _ => simp [Act.isPerform]
  have hchecked : checks.countP Act.isPerform = 0 := by
    generalize (k.entry t.1 t.2).errorClass = cls at hchecks
    generalize k.firstClass (k.roundTrip t.1 t.2) = first at hchecks
    cases hchecks <;> rfl
  have htold : (k.told (k.entry t.1 t.2)).countP Act.isPerform = 0 := by
    unfold Call.told
    split_ifs <;> rfl
  have hwaited : waits.countP Act.isPerform = 0 := by
    rcases hwaits with rfl | ⟨ms, rc, rfl⟩ <;> rfl
  simp [List.countP_cons, List.countP_append, hzero, hchecked, htold, hwaited, Act.isPerform,
    Call.handing]

/-- A block tells its own record, and no other. -/
theorem Block.told {k : Call σ} {t : HttpRequest × LoopState k.c} {b : Attempt}
    {acts : List Act} (h : Block k t acts) (hb : Act.onAttempt b ∈ acts) :
    b = k.entry t.1 t.2 := by
  obtain ⟨-, -, hdata, hchecks, hwaits⟩ := h
  rename_i checks waits
  simp only [Call.handing, List.mem_cons, List.mem_append, reduceCtorEq, false_or, or_assoc] at hb
  rcases hb with hb | hb | hb | hb
  · cases hdata _ hb
  · generalize (k.entry t.1 t.2).errorClass = cls at hchecks
    generalize k.firstClass (k.roundTrip t.1 t.2) = first at hchecks
    cases hchecks <;> simp at hb
  · unfold Call.told at hb
    split_ifs at hb
    · simpa using hb
    · cases hb
  · rcases hwaits with rfl | ⟨ms, rc, rfl⟩ <;> simp at hb

/-- The blocks hand over one request for each recorded attempt. -/
theorem Blocks.performs {k : Call σ} {trips : List (HttpRequest × LoopState k.c)}
    {acts : List Act} (h : Blocks k trips acts) : acts.countP Act.isPerform = trips.length := by
  induction h with
  | nil => rfl
  | snoc _ _ hblock ih =>
      rw [List.countP_append, ih, hblock.performs, List.length_append, List.length_singleton]

/-- What the blocks tell is the record of that ordinal. -/
theorem Blocks.told {k : Call σ} {trips : List (HttpRequest × LoopState k.c)} {acts : List Act}
    (h : Blocks k trips acts) {b : Attempt} (hb : Act.onAttempt b ∈ acts) :
    ∃ j : Nat, (k.entries trips)[j]? = some b ∧ b.attempt = UInt32.ofNat j := by
  induction h with
  | nil => cases hb
  | @snoc trips acts block t _ hordinal hblock ih =>
      have hentries : k.entries (trips ++ [t]) = k.entries trips ++ [k.entry t.1 t.2] := by
        rw [Call.entries, List.map_append]
        rfl
      rw [hentries]
      rcases List.mem_append.mp hb with hb | hb
      · obtain ⟨j, hj, hattempt⟩ := ih hb
        refine ⟨j, ?_, hattempt⟩
        rw [List.getElem?_append_left (List.getElem?_eq_some_iff.mp hj).1]
        exact hj
      · rw [hblock.told hb]
        exact ⟨trips.length, by simp [Call.entries], hordinal⟩

omit [SizeT] in
/-- What is behind the last record is performs only. -/
theorem Tail.performs {c : Client σ} {records : List Attempt} {acts : List Act}
    (h : Tail c records acts) : acts.countP Act.isPerform = acts.length := by
  cases h <;> rfl

omit [SizeT] in
/-- Behind the last record nothing more is announced. -/
theorem Tail.not_told {c : Client σ} {records : List Attempt} {acts : List Act}
    (h : Tail c records acts) (a : Attempt) : Act.onAttempt a ∉ acts := by
  cases h <;> simp

/-- Blocks and a tail make the telemetry of a call. -/
theorem Blocks.telemetry {k : Call σ} {ordinal : UInt32} {w : World σ} {e : Call.ChatEnd σ}
    {blocks tail : List Act} (hrecords : e.records = k.entries (k.trips ordinal w))
    (hblocks : Blocks k (k.trips ordinal w) blocks) (htail : Tail k.c e.records tail)
    (htrace : e.world.trace = blocks ++ tail) : Telemetry k ordinal w e blocks tail where
  records := hrecords
  trace := htrace
  blocks := hblocks
  rest := htail
  performs := by
    rw [htrace, List.countP_append, hblocks.performs, htail.performs, hrecords, Call.entries,
      List.length_map]
  told := by
    intro a ha
    rw [htrace] at ha
    rcases List.mem_append.mp ha with ha | ha
    · rw [hrecords]
      exact hblocks.told ha
    · exact absurd ha (htail.not_told a)

omit [SizeT] in
/-- What the engine does after a cancelled record is the tail. -/
theorem assisted_tail {c : Client σ} {records : List Attempt} {a : Attempt}
    {i : Fin c.backends.length} (hlast : records.getLast? = some a)
    (hcls : a.errorClass = .cancelled) (hbackend : a.backend = UInt32.ofNat i.val) :
    Tail c records (Call.assisted (c.backends.get i)) := by
  have hiff := (c.backends.get i).abort_iff
  unfold Call.assisted
  cases hurl : (c.backends.get i).urlAbort with
  | none =>
      rw [hurl] at hiff
      exact .unassisted hlast hcls hbackend (not_not.mp fun h => by simpa using hiff.mpr h)
  | some url =>
      rw [hurl] at hiff
      exact .assist hlast hcls hbackend (hiff.mp rfl) hurl

namespace Call

variable (k : Call σ)

/-! ## One turn -/

/-- The state of the engine before an attempt, behind the turns of {lit}`past`: the trace is the
blocks of their recorded attempts, and none was cancelled. -/
structure Told (past : List (LoopState k.c)) (s : LoopState k.c) : Prop where
  records : s.r.attempts = k.entries (past.filterMap k.trip?)
  blocks : Blocks k (past.filterMap k.trip?) s.world.trace
  ordinal : s.attemptOrdinal = UInt32.ofNat (past.filterMap k.trip?).length
  last : ∀ a, s.r.attempts.getLast? = some a → a.errorClass ≠ .cancelled
  final : s.final = .exhausted

/-- The end of a run behind its recorded attempts: behind their blocks there is only the tail. -/
def ToldAll (trips : List (HttpRequest × LoopState k.c)) (f : LoopState k.c) : Prop :=
  ∃ blocks tail, f.world.trace = blocks ++ tail ∧ Blocks k trips blocks ∧ Tail k.c f.r.attempts tail

variable {k}

/-- A turn that leaves no record and no trace ends a run behind its blocks. -/
theorem Told.all {past : List (LoopState k.c)} {s f : LoopState k.c} (h : k.Told past s)
    (hnone : k.trip? s = none) (hr : f.r = s.r) (htrace : f.world.trace = s.world.trace) :
    k.ToldAll ((past ++ [s]).filterMap k.trip?) f := by
  refine ⟨s.world.trace, [], by rw [htrace, List.append_nil], ?_, ?_⟩
  · rw [trips_snoc past hnone, Option.toList_none, List.append_nil]
    exact h.blocks
  · rw [hr]
    exact .none h.last

/-- A recorded attempt adds its block, with the waits that follow it. -/
theorem Told.extend {past : List (LoopState k.c)} {s s1 s2 : LoopState k.c} {rq : HttpRequest}
    (h : k.Told past s) (hprep : k.prepare (k.polled s) = (.ok rq, s1))
    (htook : k.Took s rq s1 s2) {waits : List Act}
    (hwaits : waits = [] ∨ ∃ ms rc, waits = [.wait ms rc]) :
    Blocks k (past.filterMap k.trip? ++ [(rq, s1)]) (s2.world.trace ++ waits) := by
  have hi : s1.i = s.i := (k.prepared_unchanged hprep).i
  have hbackend : k.backend s1 = k.backend s := by rw [backend, hi, backend]
  have hurl : rq.url = (k.backend s1).urlChat := by
    rw [hbackend]
    exact (k.prepare_spec (k.polled s)).2 rq (by rw [hprep])
  have hjudged := k.judge_judgement (k.roundTrip rq s1)
  have hcls : (k.entry rq s1).errorClass = (k.judge (k.roundTrip rq s1)).cls := htook.entryClass
  rw [← hcls] at hjudged
  rw [htook.trace, List.append_assoc]
  refine .snoc h.blocks (htook.entryOrdinal.trans h.ordinal) ?_
  exact .intro hurl (by rw [htook.entryBackend, hi]) (k.roundTrip_given rq s1).data hjudged hwaits

/-- A record of another class is not a cancelled one. -/
theorem Took.not_cancelled {s s1 s2 : LoopState k.c} {rq : HttpRequest} (h : k.Took s rq s1 s2)
    (hcls : (k.judged s1 rq).cls ≠ .cancelled) :
    ∀ a, s2.r.attempts.getLast? = some a → a.errorClass ≠ .cancelled := by
  intro a ha
  rw [h.last k] at ha
  cases ha
  rw [h.entryClass]
  exact hcls

variable (k)

/-- Every turn adds the block of its record, if it makes one. -/
theorem turn_telemetry (hH : k.H.Reliable) (past : List (LoopState k.c)) (s : LoopState k.c)
    (out : LoopState k.c ⊕ LoopState k.c) (hs : k.Told past s) (hturn : k.Turn s out) :
    Sum.elim (k.Told (past ++ [s])) (k.ToldAll ((past ++ [s]).filterMap k.trip?)) out := by
  cases hturn with
  | cancelled hpoll => exact hs.all (trip_polled hpoll) rfl (k.polled_unchanged s).trace
  | unprepared hpoll hprep =>
      have hsame := k.prepared_unchanged hprep
      exact hs.all (trip_unprepared hpoll hprep) hsame.r hsame.trace
  | unrecorded _ hprep hadd => exact absurd hH (k.unrecorded_spec hprep hadd).heap
  | @terminal rq s1 hpoll hprep hadd hfinal =>
      have htook := took hprep hadd
      have htrips := trips_snoc past (trip_recorded hpoll hprep hadd)
      generalize k.announced s1 rq = s2 at htook hfinal
      have hcls := htook.terminal_cls k hs.final hfinal
      have hblocks := hs.extend hprep htook (.inl rfl)
      rw [List.append_nil] at hblocks
      refine ⟨_, [], (List.append_nil _).symm, ?_, .none (htook.not_cancelled (by rw [hcls]; decide))⟩
      rw [htrips]
      exact hblocks
  | @next rq s1 _ hpoll hprep hadd hfinal hnext =>
      have htook := took hprep hadd
      have htrips := trips_snoc past (trip_recorded hpoll hprep hadd)
      rw [Option.toList_some] at htrips
      generalize k.announced s1 rq = s2 at htook hfinal hnext
      have hblocks := hs.extend hprep htook (.inl rfl)
      rw [List.append_nil, ← htrips] at hblocks
      have hrecords : s2.r.attempts = k.entries ((past ++ [s]).filterMap k.trip?) := by
        rw [htook.attempts, hs.records, htrips, entries, entries, List.map_append]
        rfl
      have hordinal : s2.attemptOrdinal =
          UInt32.ofNat ((past ++ [s]).filterMap k.trip?).length := by
        rw [htook.attemptOrdinal, hs.ordinal, htrips, List.length_append]
        exact (UInt32.ofNat_add _ _).symm
      have hexhausted := (htook.final_eq hfinal).trans hs.final
      have hlast := htook.not_cancelled
      have hcancelled := htook.last k
      have hclass := htook.entryClass
      have hplace := htook.entryBackend
      rw [← htook.i] at hplace
      generalize (k.judged s1 rq).cls = cls at hnext hlast hclass
      cases hnext with
      | success hcls =>
          exact ⟨_, [], (List.append_nil _).symm, hblocks, .none (hlast (by rw [hcls]; decide))⟩
      | abort hcls =>
          exact ⟨_, [], (List.append_nil _).symm, hblocks, .none (hlast (by rw [hcls]; decide))⟩
      | cancelled hcls =>
          refine ⟨_, _, k.koboldAbortAssist_trace (k.backend s2) s2.world, hblocks, ?_⟩
          exact assisted_tail hcancelled (hclass.trans hcls) hplace
      | lost hcls _ =>
          refine ⟨_, [], (List.append_nil _).symm, hblocks, .none (hlast ?_)⟩
          rcases hcls with hcls | hcls | hcls <;> rw [hcls] <;> decide
      | reroll hcls _ _ =>
          exact ⟨hrecords, hblocks, hordinal, hlast (by rw [hcls]; decide), hexhausted⟩
      | interrupted hcls _ _ _ =>
          have hwait := k.waited_trace (k.roundTrip rq s1).o.retryAfterMs s2
          refine ⟨_, [], hwait.trans (List.append_nil _).symm, ?_, .none ?_⟩
          · rw [htrips]
            exact hs.extend hprep htook (.inr ⟨_, _, rfl⟩)
          · exact hlast (by rw [hcls]; decide)
      | retry hcls _ _ _ =>
          have hwait := k.waited_trace (k.roundTrip rq s1).o.retryAfterMs s2
          refine ⟨hrecords, ?_, hordinal, hlast (by rw [hcls]; decide), hexhausted⟩
          rw [hwait, htrips]
          exact hs.extend hprep htook (.inr ⟨_, _, rfl⟩)
      | fallback hleaves _ _ =>
          refine ⟨hrecords, hblocks, hordinal, hlast ?_, hexhausted⟩
          rcases hleaves with hcls | ⟨hcls, -⟩ | ⟨hcls, -⟩ <;> rw [hcls] <;> decide
      | exhausted hleaves _ _ _ =>
          refine ⟨_, [], (List.append_nil _).symm, hblocks, .none (hlast ?_)⟩
          rcases hleaves with hcls | ⟨hcls, -⟩ | ⟨hcls, -⟩ <;> rw [hcls] <;> decide

/-- The trace of a run is the blocks of its recorded attempts, and a tail. -/
theorem run_telemetry (hH : k.H.Reliable) (ordinal : UInt32) (env : σ) :
    ∃ blocks tail, Telemetry k ordinal ⟨env, []⟩ (k.run ordinal ⟨env, []⟩) blocks tail := by
  have hrecords := k.run_entries ordinal ⟨env, []⟩
  rcases k.enter_ends ordinal ⟨env, []⟩ with ⟨out, he, hearly⟩ | ⟨env', henter⟩
  · have htrips : k.trips ordinal ⟨env, []⟩ = [] := by rw [trips, he]
    have hrun : k.run ordinal ⟨env, []⟩ = k.close out := by rw [run_eq, he]
    rw [hrun] at hrecords ⊢
    generalize k.close out = e at hrecords hearly
    have hnil : Blocks k (k.trips ordinal ⟨env, []⟩) [] := by
      rw [htrips]
      exact .nil
    have htail : Tail k.c e.records [] := by
      rw [hrecords, htrips]
      exact .none (by simp [entries])
    have htrace : e.world.trace = [] ++ [] := by
      rw [World.trace, World.acts, hearly.log]
      rfl
    exact ⟨[], [], hnil.telemetry hrecords htail htrace⟩
  · have htrips : k.trips ordinal ⟨env, []⟩ = (k.attemptLoop.trail
        (k.start ordinal (resultInit k.c.maxResponseBytes) ⟨env', []⟩)).filterMap k.trip? := by
      rw [trips, henter]
    have hrun : k.run ordinal ⟨env, []⟩ = k.handOut (k.attemptLoop.run
        (k.start ordinal (resultInit k.c.maxResponseBytes) ⟨env', []⟩)) := by rw [run_eq, henter]
    have hstart : k.Told [] (k.start ordinal (resultInit k.c.maxResponseBytes) ⟨env', []⟩) :=
      ⟨rfl, .nil, rfl, by simp [start, resultInit], rfl⟩
    have hend := @trail_turns _ _ k k.Told (fun past => k.ToldAll (past.filterMap k.trip?))
      (k.turn_telemetry hH) _ hstart
    rw [hrun] at hrecords ⊢
    rw [← htrips] at hend
    generalize k.attemptLoop.run _ = f at hrecords hend ⊢
    obtain ⟨blocks, tail, htrace, hblocks, htail⟩ := hend
    have hworld : (k.handOut f).world.trace = blocks ++ tail := htrace
    exact ⟨blocks, tail, hblocks.telemetry hrecords htail hworld⟩

end Call

/-! ## Whole calls -/

/-- The trace of every call of a client with a working allocator: a call refused for its pointers
does nothing and has no records, and any other has the telemetry of its recorded attempts. -/
theorem chat_telemetry (Y : Yyjson) (H : Heap σ) (c : Client σ) (req : Option Request)
    (cbs : Option (Callbacks σ)) (cancel : Option (CancelToken σ)) (haveOut stream : Bool)
    (ordinal : UInt32) (env : σ) (hH : H.Reliable) :
    let e := chatCommon Y H (some c) req cbs cancel haveOut stream ordinal ⟨env, []⟩
    let passed := Call.passed Y H (some c) req cbs cancel haveOut stream
    (passed = none → e.records = [] ∧ e.world.trace = []) ∧
      ∀ k, passed = some k →
        ∃ blocks tail, Telemetry k ordinal ⟨env, []⟩ e blocks tail := by
  intro e passed
  rcases chatCommon_passed Y H (some c) req cbs cancel haveOut stream ordinal ⟨env, []⟩ with
    ⟨hpassed, hend⟩ | ⟨k, hpassed, -, hend⟩
  · have he : e = .returned .invalidArg none ⟨env, []⟩ := hend
    have hnone : passed = none := hpassed
    rw [he, hnone]
    refine ⟨fun _ => ⟨rfl, rfl⟩, ?_⟩
    rintro _ ⟨⟩
  · have he : e = k.run ordinal ⟨env, []⟩ := hend
    have hsome : passed = some k := hpassed
    have hk : k.H = H := (Call.passed_parts hpassed).1
    rw [he, hsome]
    refine ⟨?_, ?_⟩
    · rintro ⟨⟩
    rintro _ ⟨⟩
    exact k.run_telemetry (hk ▸ hH) ordinal env

end Runs

section Plain

attribute [local instance] lp64

/-- A validator that rejects the first answer it is shown; the environment counts them. -/
def pickyCallbacks : Callbacks Nat :=
  { plainCallbacks with
    onDelta := none
    validate := some fun _ n => (if n = 0 then 1 else 0, n + 1) }

/-- A streaming call to two backends that answer alike. -/
def pickyCall : Call Nat where
  Y := plainYyjson (plainEventText "hi") (plainEvent "hi")
  H := Heap.plentiful
  c := plainClient 1 1048576 plainCap_pos (replyTransport fun s => ((200, plainStream "hi"), s))
  req := plainRequest
  cbs := some pickyCallbacks
  cancel := none
  stream := true

/-- The rejected answer and the accepted one, each with its one call of the validator. -/
theorem chat_telemetry_plain :
    ∃ blocks tail, Telemetry pickyCall 0 ⟨0, []⟩
      (chatCommon pickyCall.Y pickyCall.H (some pickyCall.c) (some pickyCall.req) pickyCall.cbs none
        true true 0 ⟨0, []⟩) blocks tail ∧
      (blocks ++ tail).filter Act.isValidate = [.validate 1, .validate 0] := by
  obtain ⟨blocks, tail, htelemetry⟩ := (chat_telemetry pickyCall.Y pickyCall.H pickyCall.c
    (some pickyCall.req) pickyCall.cbs none true true 0 0 Heap.plentiful_reliable).2 pickyCall rfl
  refine ⟨blocks, tail, htelemetry, ?_⟩
  rw [← htelemetry.trace]
  decide +kernel

end Plain

end Sicha
