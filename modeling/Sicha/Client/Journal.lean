import Sicha.Client.Besides
import Sicha.Client.BuiltIn
import Sicha.Transport.Calls

/-!
# A call over the scripted transport

The scripted transport is what the engine is tested with: it is to record every request that a call
hands over, in order, and to answer each with the next response.

Main results:

- Theorem {lit}`turn_journal`: what a turn records.
- Theorem {lit}`chat_journal`: what a call records, and which responses it takes.
-/

namespace Sicha

/-! ## Moves of the scripted transport -/

section Moves

variable {σ : Type} {Rel : σ → σ → Prop} {ck : Clock σ} {cancel : Option (CancelToken σ)}
  {rq : HttpRequest} {resp : ScriptResponse} {fuel : Nat}

/-- The clock moves the environment within {lit}`Rel`. -/
structure Clock.Within (ck : Clock σ) (Rel : σ → σ → Prop) : Prop where
  refl : ∀ s, Rel s s
  trans : ∀ s t u, Rel s t → Rel t u → Rel s u
  now : ∀ s, Rel s (ck.nowMs s).2
  wait : ∀ token ms s, Rel s (ck.waitMs token ms s).2

/-- A delay moves the environment as the clock does. -/
theorem delayLoop_moves (hck : ck.Within Rel) (target : UInt64) (a b : Deadline) (fuel : Nat)
    (s : σ) : Rel s (delayLoop ck cancel target a b fuel s).2 := by
  induction fuel generalizing s with
  | zero => exact hck.refl s
  | succ fuel ih =>
      have hnow := hck.now s
      unfold delayLoop
      dsimp only
      split_ifs
      · exact hnow
      · split
        · exact hnow
        · rename_i ms _
          have hwaited := hck.trans _ _ _ hnow (hck.wait cancel ms (ck.nowMs s).2)
          split_ifs
          · exact hwaited
          · exact hck.trans _ _ _ hwaited (ih _)

/-- A phase moves the environment as what follows does. -/
theorem phase_moves (hck : ck.Within Rel) (delayMs : UInt64) (a b : Deadline) {s0 s : σ}
    (hs : Rel s0 s) {next : σ → Dialogue σ SinkCall Int (Option TransportStatus)}
    (hnext : ∀ s', (next s').Moves Rel s') :
    Dialogue.Moves Rel
      (match delayWithin ck cancel fuel delayMs a b s with
      | (some .ok, s) => next s
      | (st, s) => .done st s) s0 := by
  have hdelay : Rel s0 (delayWithin ck cancel fuel delayMs a b s).2 :=
    hck.trans _ _ _ (hck.trans _ _ _ hs (hck.now s)) (delayLoop_moves hck _ a b fuel _)
  split
  · rename_i s' heq
    rw [heq] at hdelay
    exact (hnext s').before hck.trans hdelay
  · rename_i heq
    rw [heq] at hdelay
    exact hdelay

/-- A question to the sink moves the environment as the rest does. -/
theorem asks_moves {q : SinkCall} {sink : Bool} (hck : ck.Within Rel) {s : σ}
    {next : σ → Dialogue σ SinkCall Int (Option TransportStatus)}
    (hnext : ∀ s', (next s').Moves Rel s') :
    Dialogue.Moves Rel
      (if sink then
        .ask q s fun rc s => if rc ≠ 0 then .done (some .abortedBySink) s else next s
      else next s) s := by
  cases sink with
  | false => exact hnext s
  | true =>
      refine ⟨hck.refl s, fun rc s' => ?_⟩
      dsimp only
      split_ifs
      · exact hck.refl s'
      · exact hnext s'

/-- A response moves the environment as the clock does. -/
theorem scriptRun_moves (hck : ck.Within Rel) (sink : Bool) (s : σ) :
    (scriptRun ck cancel fuel sink rq resp s).Moves Rel s := by
  have hbody (total : Deadline) (pieces : List Bytes) (s : σ) :
      (scriptBody ck cancel fuel sink rq resp total pieces s).Moves Rel s := by
    induction pieces generalizing s with
    | nil => exact hck.refl s
    | cons piece pieces ih =>
        exact phase_moves hck _ _ total (hck.now s) fun s' => asks_moves hck ih
  refine phase_moves hck _ _ _ (hck.now s) fun s' => ?_
  split_ifs
  · exact hck.refl s'
  · exact phase_moves hck _ _ _ (hck.refl s') fun s'' => asks_moves hck (hbody _ _)

end Moves

/-- Behind its section a perform moves the environment as its clock does. -/
theorem scriptPerform_moves {σ : Type} {Rel : ScriptState × σ → ScriptState × σ → Prop}
    {ck : Clock (ScriptState × σ)} (hck : ck.Within Rel) (H : Heap σ)
    (cancel : Option (CancelToken (ScriptState × σ))) (fuel : Nat) (sink : Bool)
    (rq : HttpRequest) (s : ScriptState × σ) :
    (scriptPerform H ck cancel fuel sink rq s).Moves Rel (scriptEnter H rq s.1 s.2).2 := by
  unfold scriptPerform
  split <;> rename_i heq <;> rw [heq]
  · exact hck.refl _
  · exact hck.refl _
  · exact scriptRun_moves hck sink _

/-! ## The journal -/

/-- The request of a perform. -/
def Act.request? : Act → Option HttpRequest
  | .perform rq _ _ => some rq
  | _ => none

/-- The requests handed over in a log, chat attempts and abort assists, in order. -/
def World.requests {σ : Type} (w : World σ) : List HttpRequest :=
  w.acts.filterMap Act.request?

/-- What the scripted transport has done for some requests since it was in a state: those it kept
are recorded in their order, and each has taken the next response.  It keeps every request unless an
allocation fails. -/
def Journal {σ : Type} (H : Heap σ) (base st : ScriptState) (made : List HttpRequest) : Prop :=
  ∃ kept, kept.Sublist made ∧ (H.Reliable → kept = made) ∧
    st.calls = base.calls ++ kept.map scriptCallOf ∧ st.queue = base.queue.drop kept.length

section Journal

variable {σ : Type} {H : Heap σ} {base st : ScriptState} {made : List HttpRequest}

/-- At its start the journal is empty. -/
theorem journal_start (H : Heap σ) (base : ScriptState) : Journal H base base [] :=
  ⟨[], .slnil, fun _ => rfl, (List.append_nil _).symm, rfl⟩

/-- A reliable allocator copies bytes. -/
theorem dupBytes_reliable (hH : H.Reliable) (bytes : Bytes) (s : σ) :
    (dupBytes H bytes s).1 = true :=
  hH _ _

/-- It copies headers. -/
theorem headersCopy_reliable (hH : H.Reliable) (hs : List HeaderRef) (s : σ) :
    (headersCopy H hs s).1.isSome = true := by
  induction hs generalizing s with
  | nil => rfl
  | cons h hs ih =>
      unfold headersCopy
      simp only [dupBytes_reliable hH, Bool.and_self, if_true, Option.isSome_map]
      exact ih _

/-- With a reliable heap every perform is recorded. -/
theorem scriptEnter_reliable (hH : H.Reliable) (rq : HttpRequest) (st : ScriptState) (s : σ) :
    (scriptEnter H rq st s).1 ≠ .nomem := by
  have hroom (len cap : Nat) (s : σ) : (scriptRoom H len cap s).1.isSome = true := by
    unfold scriptRoom
    split_ifs
    · dsimp only
      rw [if_pos (hH _ _)]
      rfl
    · rfl
  have hcopy (s : σ) : (scriptCopyCall H rq s).1.isSome = true := by
    unfold scriptCopyCall headersDeepCopy
    simp only [dupBytes_reliable hH, Bool.and_self, if_true, Option.isSome_map, hH _ _]
    exact headersCopy_reliable hH _ _
  unfold scriptEnter
  split
  · rename_i s' hnone
    have hsome := hroom st.calls.length st.cCap s
    rw [hnone] at hsome
    cases hsome
  · rename_i cap s' _
    split
    · rename_i s'' hnone
      have hsome := hcopy s'
      rw [hnone] at hsome
      cases hsome
    · dsimp only
      split <;> nofun

/-- The section of a perform makes the next entry. -/
theorem Journal.perform (h : Journal H base st made) (rq : HttpRequest) (s : σ) :
    Journal H base (scriptEnter H rq st s).2.1 (made ++ [rq]) := by
  obtain ⟨kept, hsub, hall, hcalls, hqueue⟩ := h
  have heffect := scriptEnter_cases H rq st s
  have hnomem := fun hH : H.Reliable => scriptEnter_reliable hH rq st s
  generalize (scriptEnter H rq st s).1 = out at heffect hnomem
  have hkept (hcalls' : (scriptEnter H rq st s).2.1.calls = st.calls ++ [scriptCallOf rq])
      (hqueue' : (scriptEnter H rq st s).2.1.queue = st.queue.drop 1) :
      Journal H base (scriptEnter H rq st s).2.1 (made ++ [rq]) := by
    refine ⟨kept ++ [rq], hsub.append (.refl _), fun hH => by rw [hall hH], ?_, ?_⟩
    · rw [hcalls', hcalls, List.map_append, List.append_assoc]
      rfl
    · rw [hqueue', hqueue, List.drop_drop, List.length_append]
      rfl
  cases out with
  | nomem =>
      obtain ⟨hqueue', hcalls'⟩ := heffect
      refine ⟨kept, hsub.trans (List.sublist_append_left _ _), fun hH => absurd rfl (hnomem hH), ?_,
        ?_⟩
      · rw [hcalls', hcalls]
      · rw [hqueue', hqueue]
  | empty =>
      obtain ⟨hempty, hqueue', hcalls'⟩ := heffect
      exact hkept hcalls' (by rw [hqueue', hempty]; rfl)
  | took resp =>
      obtain ⟨hqueue', hcalls'⟩ := heffect
      exact hkept hcalls' (by rw [hqueue']; rfl)

end Journal

/-! ## Turns -/

/-- The transport's queue and its calls are left alone. -/
def SameScript {σ : Type} (s s' : ScriptState × σ) : Prop :=
  s'.1 = s.1

section Turns

variable [SizeT] {σ : Type} {H : Heap σ} {base : ScriptState} {w w' : World (ScriptState × σ)}

/-- The transport has kept what a log says. -/
def Journaled (H : Heap σ) (base : ScriptState) (w : World (ScriptState × σ)) : Prop :=
  Journal H base w.env.1 w.requests

omit [SizeT] in
/-- The requests of a log that has grown. -/
theorem requests_eq {more : List (Entry (ScriptState × σ))} (hlog : w'.log = w.log ++ more) :
    w'.requests = w.requests ++ more.filterMap fun x => x.act.request? := by
  unfold World.requests World.acts
  rw [hlog, List.map_append, List.filterMap_append]
  exact congrArg _ (List.filterMap_map ..)

omit [SizeT] in
/-- What happens inside an attempt is no request. -/
theorem aside_request {a : Act} (h : a.isAside = true) : a.request? = none := by
  cases a <;> first | rfl | cases h

omit [SizeT] in
/-- A log that has grown by no request is still in the journal. -/
theorem Journaled.quiet (h : Journaled H base w) {more : List (Entry (ScriptState × σ))}
    (hlog : w'.log = w.log ++ more) (hmore : ∀ x ∈ more, x.act.request? = none)
    (henv : SameScript w.env w'.env) : Journaled H base w' := by
  have hnone : (more.filterMap fun x => x.act.request?) = [] :=
    List.filterMap_eq_nil_iff.mpr hmore
  unfold Journaled
  rw [requests_eq hlog, hnone, List.append_nil, henv]
  exact h

omit [SizeT] in
/-- So is one that has not grown. -/
theorem Journaled.still (h : Journaled H base w) (hlog : w'.log = w.log)
    (henv : SameScript w.env w'.env) : Journaled H base w' :=
  h.quiet (hlog.trans (List.append_nil _).symm) (List.forall_mem_nil _) henv

omit [SizeT] in
/-- So is one that has grown by what happens inside an attempt. -/
theorem Journaled.grown (h : Journaled H base w) (hgrown : Call.Grown SameScript w w') :
    Journaled H base w' := by
  obtain ⟨⟨more, hlog, haside⟩, henv⟩ := hgrown
  exact h.quiet hlog (fun x hx => aside_request (haside x hx)) henv

omit [SizeT] in
/-- A request is handed over, and the section of its perform runs. -/
theorem Journaled.perform (h : Journaled H base w) (rq : HttpRequest) (sink cancel : Bool)
    (hw' : w' = { w.note (.perform rq sink cancel) with
      env := (scriptEnter H rq w.env.1 w.env.2).2 }) : Journaled H base w' := by
  subst hw'
  have hlog := @requests_eq _ w { w.note (.perform rq sink cancel) with
    env := (scriptEnter H rq w.env.1 w.env.2).2 } _ (World.note_log w (.perform rq sink cancel))
  unfold Journaled
  rw [hlog]
  exact Journal.perform h rq w.env.2

namespace Call

variable {k : Call (ScriptState × σ)}

/-- A call over the scripted transport whose other parties leave the transport alone. -/
structure Scripted (H : Heap σ) (k : Call (ScriptState × σ)) : Prop where
  runs : k.c.transport.Runs (scriptFuelled H k.c.clock)
  besides : k.idle.Within SameScript
  waits : ∀ token ms s, SameScript s (k.c.clock.waitMs token ms s).2

/-- The clock leaves the transport alone. -/
theorem Scripted.clock (hk : k.Scripted H) : k.c.clock.Within SameScript :=
  ⟨hk.besides.refl, hk.besides.trans, hk.besides.now, hk.waits⟩

/-- Behind its section a perform leaves the transport alone. -/
theorem Scripted.moves (hk : k.Scripted H) (rq : HttpRequest) (sink : Bool)
    (cancel : Option (CancelToken (ScriptState × σ))) (s : ScriptState × σ) :
    (k.c.transport.perform rq sink cancel s).Moves SameScript (scriptEnter H rq s.1 s.2).2 := by
  obtain ⟨fuel, hfuel⟩ := hk.runs rq sink cancel s
  refine Dialogue.Moves.of_bind_done (f := some) ?_
  rw [hfuel]
  exact scriptPerform_moves hk.clock H cancel fuel sink rq s

/-- A poll keeps the journal. -/
theorem Scripted.polled (hk : k.Scripted H) {s : LoopState k.c} (h : Journaled H base s.world) :
    Journaled H base (k.polled s).world := by
  unfold Call.polled Call.poll
  dsimp only
  split
  · exact h
  · exact h.quiet (World.act_log _ _ _) (by simp [Act.request?]) (hk.besides.refl _)

/-- So does a request that is prepared. -/
theorem Scripted.prepared (hk : k.Scripted H) {s s1 : LoopState k.c}
    {out : Except Status HttpRequest} (hprep : k.prepare (k.polled s) = (out, s1))
    (h : Journaled H base s.world) : Journaled H base s1.world := by
  obtain ⟨hlog, henv⟩ := prepared_besides hk.besides hprep
  exact (hk.polled h).still hlog (by rwa [polled_env])

/-- A round trip and its record keep the journal. -/
theorem Scripted.recorded (hk : k.Scripted H) (rq : HttpRequest) {s : LoopState k.c}
    (h : Journaled H base s.world) : Journaled H base (k.recorded s rq).2.world := by
  have hbefore : Journaled H base
      ((k.c.debugLog (requestText rq) s.world).quiet k.c.clock.nowMs).2 :=
    (h.grown (debugLog_within hk.besides.refl k.c _ _)).still rfl (hk.besides.now _)
  have hperform := hbefore.perform rq true k.cancel.isSome rfl
  exact (hperform.grown (roundTrip_besides hk.besides rq s (hk.moves rq true k.cancel _))).grown
    (recorded_besides hk.besides rq s)

/-- So does its announcement. -/
theorem Scripted.announced (hk : k.Scripted H) (rq : HttpRequest) {s : LoopState k.c}
    (h : Journaled H base s.world) : Journaled H base (k.announced s rq).world :=
  (hk.recorded rq h).grown (announce_besides hk.besides _)

/-- So does the abort assist. -/
theorem Scripted.assisted (hk : k.Scripted H) (b : Backend) {w : World (ScriptState × σ)}
    (h : Journaled H base w) : Journaled H base (k.koboldAbortAssist b w) := by
  cases hurl : b.urlAbort with
  | none =>
      rw [k.koboldAbortAssist_none hurl]
      exact h
  | some url =>
      have hperform := (h.grown (debugLog_within hk.besides.refl k.c
        (requestText (assistRequest b url)) w)).perform (assistRequest b url) false
        false rfl
      have hrun := @Dialogue.run_moves _ _ _ _ _ drain SameScript
        (fun _ env => SameScript (scriptEnter H (assistRequest b url)
          (k.c.debugLog (requestText (assistRequest b url)) w).env.1
          (k.c.debugLog (requestText (assistRequest b url)) w).env.2).2 env)
        (fun _ s s' hs hrel => hk.besides.trans _ _ _ hs hrel) (fun _ _ _ hs => hs) _
        ((k.c.debugLog (requestText (assistRequest b url)) w).note
          (.perform (assistRequest b url) false false)).log _
        (hk.moves (assistRequest b url) false none _) (hk.besides.refl _)
      refine hperform.still (k.koboldAbortAssist_drained hurl w) ?_
      unfold koboldAbortAssist
      rw [hurl]
      exact hrun

/-- So does a wait. -/
theorem Scripted.waited (hk : k.Scripted H) (retryAfter : UInt64) {s : LoopState k.c}
    (h : Journaled H base s.world) : Journaled H base (k.waited retryAfter s).2.world :=
  h.quiet (World.act_log _ _ _) (by simp [Act.request?]) (hk.waits _ _ _)

/-- What a turn hands over, the transport keeps. -/
theorem turn_journal (hk : k.Scripted H) {s : LoopState k.c}
    {out : LoopState k.c ⊕ LoopState k.c} (h : Journaled H base s.world) (hturn : k.Turn s out) :
    Sum.elim (fun s => Journaled H base s.world) (fun s => Journaled H base s.world) out := by
  cases hturn with
  | cancelled _ => exact hk.polled h
  | @unprepared st s1 _ hprep =>
      have hprepared := hk.prepared hprep h
      exact hprepared
  | @unrecorded rq s1 _ hprep _ => exact hk.recorded rq (hk.prepared hprep h)
  | @terminal rq s1 _ hprep _ _ => exact hk.announced rq (hk.prepared hprep h)
  | @next rq s1 _ _ hprep _ _ hnext =>
      have hannounced := hk.announced rq (hk.prepared hprep h)
      generalize k.announced s1 rq = s2 at hannounced hnext
      cases hnext with
      | success _ => exact hannounced
      | abort _ => exact hannounced
      | lost _ _ => exact hannounced
      | exhausted _ _ _ _ => exact hannounced
      | cancelled _ => exact hk.assisted _ hannounced
      | reroll _ _ _ => exact hannounced
      | fallback _ _ _ => exact hannounced
      | interrupted _ _ _ _ => exact hk.waited _ hannounced
      | retry _ _ _ _ => exact hk.waited _ hannounced

end Call

end Turns

/-! ## Calls -/

section Calls

variable [SizeT] {σ : Type}

/-- A call over the scripted transport, whose other parties leave the transport alone.  The
transport's records have grown by the requests the call has handed over, chat attempts and abort
assists, in the order of its log, and each of them has taken the next response of the queue.  If the
transport lacks memory some requests are neither recorded nor answered; the others still are. -/
theorem chat_journal (Y : Yyjson) (A : Heap (ScriptState × σ)) (H : Heap σ)
    (c : Client (ScriptState × σ)) (req : Option Request)
    (cbs : Option (Callbacks (ScriptState × σ))) (cancel : Option (CancelToken (ScriptState × σ)))
    (haveOut stream : Bool) (ordinal : UInt32) (s : ScriptState × σ)
    (hruns : c.transport.Runs (scriptFuelled H c.clock)) (hbesides : Besides A c cbs SameScript)
    (hwaits : ∀ token ms s, SameScript s (c.clock.waitMs token ms s).2) :
    let e := chatCommon Y A (some c) req cbs cancel haveOut stream ordinal ⟨s, []⟩
    ∃ kept, kept.Sublist e.world.requests ∧ (H.Reliable → kept = e.world.requests) ∧
      e.world.env.1.calls = s.1.calls ++ kept.map scriptCallOf ∧
      e.world.env.1.queue = s.1.queue.drop kept.length := by
  intro e
  change Journaled H s.1 e.world
  have hstart : Journaled H s.1 ⟨s, []⟩ := journal_start H s.1
  rcases chatCommon_passed Y A (some c) req cbs cancel haveOut stream ordinal ⟨s, []⟩ with
    ⟨-, hearly⟩ | ⟨k, hpassed, hcancel, hrun⟩
  · have he : e = .returned .invalidArg none ⟨s, []⟩ := hearly
    rw [he]
    exact hstart
  · have he : e = k.run ordinal ⟨s, []⟩ := hrun
    obtain ⟨rfl, rfl, rfl⟩ := Call.passed_parts hpassed
    have hk : k.Scripted H := ⟨hruns, hbesides, hwaits⟩
    have henter := k.enter_keeps (P := SameScript s)
      (fun n t ht => hk.besides.trans _ _ _ ht (hk.besides.alloc n t)) ordinal ⟨s, []⟩
      (hk.besides.refl s)
    rw [he, Call.run_eq]
    cases hout : k.enter ordinal ⟨s, []⟩ with
    | inl early =>
        rw [hout] at henter
        exact hstart.still henter.1 henter.2
    | inr s1 =>
        rw [hout] at henter
        exact k.run_turns (fun s out hs => Call.turn_journal hk hs)
          (hstart.still henter.1 henter.2)

end Calls

section Plain

attribute [local instance] lp64

/-- A call over one slow response. -/
theorem chat_journal_plain :
    let s : ScriptState × UInt64 := ({ scriptInit with queue := [slowResponse] }, 0)
    let heap : Heap UInt64 := Heap.plentiful
    let e := chatCommon (plainYyjson [] .null) Heap.plentiful (some scriptedClient)
      (some plainRequest) (some plainCallbacks) none true true 0 ⟨s, []⟩
    ∃ kept, kept.Sublist e.world.requests ∧ (heap.Reliable → kept = e.world.requests) ∧
      e.world.env.1.calls = s.1.calls ++ kept.map scriptCallOf ∧
      e.world.env.1.queue = s.1.queue.drop kept.length :=
  chat_journal _ _ Heap.plentiful _ _ _ _ _ _ _ _
    (scriptTransport_runs Heap.plentiful steadyClock_keepsTime)
    (scriptedClient_besides (fun _ => rfl) fun _ _ _ h h' => h'.trans h) fun _ _ ⟨_, _⟩ => rfl

end Plain

end Sicha
