import Sicha.Lib.Threads
import Sicha.Transport.Script

/-!
# The queue of the scripted transport

Threads that push responses and perform requests in any order, while any allocation may fail.

Main results:

- Theorems {lit}`scriptPush_cases` and {lit}`scriptEnter_cases`: what the two sections do.
- Theorem {lit}`script_fifo`: in every run the responses are taken in the order in which they were
  pushed, none is lost, and the records are those of the performs that were recorded.
-/

namespace Sicha

/-! ## Threads -/

/-- Where a thread is. -/
inductive ScriptThread where
  | idle
  /-- in a push, with its deep copy -/
  | copied (copy : ScriptResponse)
  /-- in a perform, with the response it took -/
  | running (resp : ScriptResponse)

/-- What a thread does. -/
inductive ScriptEvent where
  /-- a push that returns before its section -/
  | refused (st : Status)
  | copied (copy : ScriptResponse)
  | pushed (copy : ScriptResponse) (st : Status)
  | performed (rq : HttpRequest) (out : Entered)
  /-- the end of a perform that took a response -/
  | returned
  /-- anyone moves the environment -/
  | moved

/-- The thread behind the section of a perform. -/
def Entered.thread : Entered → ScriptThread
  | .took resp => .running resp
  | _ => .idle

/-- What {lit}`script_perform` returns if it took no response. -/
def Entered.answer : Entered → Option TransportStatus
  | .nomem => some .nomem
  | .empty => some .connect
  | .took _ => none

variable {w : Type}

/-- The steps of a thread.  The copy of a push is made before its section; behind the section of a
perform the shared state is not touched. -/
inductive ScriptStep (H : Heap w) :
    ScriptState × w → ScriptThread → ScriptEvent → ScriptState × w → ScriptThread → Prop
  | refused {s : ScriptState × w} (r : ScriptDesc) {st : Status} {v : w}
      (h : scriptCopy H r s.2 = (.error st, v)) : ScriptStep H s .idle (.refused st) (s.1, v) .idle
  | copied {s : ScriptState × w} (r : ScriptDesc) {copy : ScriptResponse} {v : w}
      (h : scriptCopy H r s.2 = (.ok copy, v)) :
      ScriptStep H s .idle (.copied copy) (s.1, v) (.copied copy)
  | pushed {s : ScriptState × w} (copy : ScriptResponse) :
      ScriptStep H s (.copied copy) (.pushed copy (scriptPush H copy s.1 s.2).1)
        (scriptPush H copy s.1 s.2).2 .idle
  | performed {s : ScriptState × w} (rq : HttpRequest) :
      ScriptStep H s .idle (.performed rq (scriptEnter H rq s.1 s.2).1)
        (scriptEnter H rq s.1 s.2).2 (scriptEnter H rq s.1 s.2).1.thread
  | returned {s : ScriptState × w} (resp : ScriptResponse) :
      ScriptStep H s (.running resp) .returned s .idle
  | moved {s : ScriptState × w} {l : ScriptThread} (v : w) : ScriptStep H s l .moved (s.1, v) l

/-- A fresh transport among idle threads. -/
def scriptStart (ι : Type) (env : w) : Threads ι (ScriptState × w) ScriptThread where
  shared := (scriptInit, env)
  own _ := .idle

/-! ## Histories -/

/-- The response a step pushes. -/
def ScriptEvent.push? : ScriptEvent → Option ScriptResponse
  | .pushed copy .ok => some copy
  | _ => none

/-- The response a step takes. -/
def ScriptEvent.take? : ScriptEvent → Option ScriptResponse
  | .performed _ (.took resp) => some resp
  | _ => none

/-- The request a step records. -/
def ScriptEvent.record? : ScriptEvent → Option HttpRequest
  | .performed _ .nomem => none
  | .performed rq _ => some rq
  | _ => none

section History

variable {ι : Type}

/-- The responses that were pushed, in order. -/
def pushes (past : List (ι × ScriptEvent)) : List ScriptResponse :=
  past.filterMap fun e => e.2.push?

/-- The responses that performs took, in order. -/
def takes (past : List (ι × ScriptEvent)) : List ScriptResponse :=
  past.filterMap fun e => e.2.take?

/-- The requests of the performs that were recorded, in order. -/
def recorded (past : List (ι × ScriptEvent)) : List HttpRequest :=
  past.filterMap fun e => e.2.record?

/-- One more element brings its value, if it has one. -/
theorem filterMap_snoc {α β : Type} (f : α → Option β) (xs : List α) (x : α) :
    (xs ++ [x]).filterMap f = xs.filterMap f ++ (f x).toList := by
  rw [List.filterMap_append]
  cases h : f x <;> simp [h]

end History

/-! ## The sections -/

/-- Copied headers are those that were copied, without their missing parts. -/
theorem headersCopy_eq {H : Heap w} {hs : List HeaderRef} {s : w} {copy : List Header}
    (h : (headersCopy H hs s).1 = some copy) :
    copy = hs.map fun h => ⟨h.name.getD [], h.value.getD []⟩ := by
  induction hs generalizing s copy with
  | nil =>
      cases h
      rfl
  | cons hd tl ih =>
      unfold headersCopy at h
      dsimp only at h
      split_ifs at h
      · obtain ⟨rest, hrest, rfl⟩ := Option.map_eq_some_iff.mp h
        rw [List.map_cons, ← ih hrest]

/-- A record holds the URL, the body and the headers of its request. -/
theorem scriptCopyCall_eq {H : Heap w} {rq : HttpRequest} {s : w} {call : ScriptCall}
    (h : (scriptCopyCall H rq s).1 = some call) : call = scriptCallOf rq := by
  unfold scriptCopyCall headersDeepCopy at h
  dsimp only at h
  split_ifs at h
  · obtain ⟨hs, hcopy, rfl⟩ := Option.map_eq_some_iff.mp h
    have heq := headersCopy_eq hcopy
    rw [List.map_map] at heq
    have hsame : hs = rq.headers := heq.trans (List.map_id'' (fun _ => rfl) _)
    rw [hsame]
    rfl
  · cases h

/-- A push appends to the queue, or changes nothing that is read. -/
theorem scriptPush_cases (H : Heap w) (copy : ScriptResponse) (st : ScriptState) (s : w) :
    let out := scriptPush H copy st s
    out.2.1.calls = st.calls ∧
      ((out.1 = .ok ∧ out.2.1.queue = st.queue ++ [copy]) ∨
        (out.1 = .nomem ∧ out.2.1.queue = st.queue)) := by
  unfold scriptPush
  dsimp only
  split
  · exact ⟨rfl, .inr ⟨rfl, rfl⟩⟩
  · exact ⟨rfl, .inl ⟨rfl, rfl⟩⟩

/-- What the section of a perform does to the queue and to the records. -/
def Entered.Effect (rq : HttpRequest) (st st' : ScriptState) : Entered → Prop
  | .nomem => st'.queue = st.queue ∧ st'.calls = st.calls
  | .empty => st.queue = [] ∧ st'.queue = [] ∧ st'.calls = st.calls ++ [scriptCallOf rq]
  | .took resp => st.queue = resp :: st'.queue ∧ st'.calls = st.calls ++ [scriptCallOf rq]

/-- A perform records its request and takes the first response, if there is one, or changes
nothing that is read. -/
theorem scriptEnter_cases (H : Heap w) (rq : HttpRequest) (st : ScriptState) (s : w) :
    (scriptEnter H rq st s).1.Effect rq st (scriptEnter H rq st s).2.1 := by
  unfold scriptEnter
  split
  · exact ⟨rfl, rfl⟩
  · rename_i cap s' _
    split
    · exact ⟨rfl, rfl⟩
    · rename_i call s'' hcopy
      obtain rfl := scriptCopyCall_eq (congrArg Prod.fst hcopy)
      dsimp only
      cases hqueue : st.queue with
      | nil => exact ⟨hqueue, rfl, rfl⟩
      | cons resp queue => exact ⟨hqueue, rfl⟩

/-! ## Runs -/

/-- What a step does to the queue and to the records. -/
def ScriptEvent.Effect (st st' : ScriptState) : ScriptEvent → Prop
  | .pushed copy rc =>
      st'.calls = st.calls ∧
        ((rc = .ok ∧ st'.queue = st.queue ++ [copy]) ∨ (rc ≠ .ok ∧ st'.queue = st.queue))
  | .performed rq out => out.Effect rq st st'
  | _ => st' = st

/-- A step has the effect that its event says. -/
theorem ScriptStep.effect {H : Heap w} {s s' : ScriptState × w} {l l' : ScriptThread}
    {e : ScriptEvent} (h : ScriptStep H s l e s' l') : e.Effect s.1 s'.1 := by
  cases h with
  | pushed copy =>
      obtain ⟨hcalls, hqueue⟩ := scriptPush_cases H copy s.1 s.2
      refine ⟨hcalls, hqueue.imp_right fun ⟨hrc, hsame⟩ => ⟨?_, hsame⟩⟩
      rw [hrc]
      decide
  | performed rq => exact scriptEnter_cases H rq s.1 s.2
  | _ => rfl

/-- The balance of a step: what the queue holds after it and what was taken is what it held before
and what was pushed, and the records have grown by what was recorded. -/
theorem ScriptEvent.Effect.balance {st st' : ScriptState} {e : ScriptEvent}
    (h : e.Effect st st') :
    st.queue ++ e.push?.toList = e.take?.toList ++ st'.queue ∧
      st'.calls = st.calls ++ e.record?.toList.map scriptCallOf := by
  cases e with
  | pushed copy rc =>
      obtain ⟨hcalls, ⟨rfl, hqueue⟩ | ⟨hrc, hqueue⟩⟩ := h
      · exact ⟨hqueue.symm, hcalls.trans (List.append_nil _).symm⟩
      · have hnone : (ScriptEvent.pushed copy rc).push? = none := by
          cases rc <;> first | rfl | exact absurd rfl hrc
        rw [hnone, hqueue]
        exact ⟨List.append_nil _, hcalls.trans (List.append_nil _).symm⟩
  | performed rq out =>
      cases out with
      | nomem =>
          obtain ⟨hqueue, hcalls⟩ := h
          exact ⟨(List.append_nil _).trans hqueue.symm, hcalls.trans (List.append_nil _).symm⟩
      | empty =>
          obtain ⟨hempty, hqueue, hcalls⟩ := h
          refine ⟨?_, hcalls⟩
          rw [hempty, hqueue]
          rfl
      | took resp =>
          obtain ⟨hqueue, hcalls⟩ := h
          exact ⟨(List.append_nil _).trans hqueue, hcalls⟩
  | refused | copied | returned | moved =>
      obtain rfl : st' = st := h
      exact ⟨List.append_nil _, (List.append_nil _).symm⟩

/-- The queue and the records of a state account for a history. -/
structure Accounts {ι : Type} (past : List (ι × ScriptEvent)) (st : ScriptState) : Prop where
  queue : pushes past = takes past ++ st.queue
  calls : st.calls = (recorded past).map scriptCallOf

/-- One more event is accounted for. -/
theorem Accounts.snoc {ι : Type} {past : List (ι × ScriptEvent)} {st st' : ScriptState}
    (h : Accounts past st) (i : ι) {e : ScriptEvent} (he : e.Effect st st') :
    Accounts (past ++ [(i, e)]) st' := by
  obtain ⟨hqueue, hcalls⟩ := he.balance
  refine ⟨?_, ?_⟩
  · calc
      pushes (past ++ [(i, e)]) = pushes past ++ e.push?.toList := filterMap_snoc _ _ _
      _ = takes past ++ (st.queue ++ e.push?.toList) := by rw [h.queue, List.append_assoc]
      _ = takes past ++ e.take?.toList ++ st'.queue := by rw [hqueue, List.append_assoc]
      _ = takes (past ++ [(i, e)]) ++ st'.queue := by rw [takes, takes, filterMap_snoc]
  · calc
      st'.calls = st.calls ++ e.record?.toList.map scriptCallOf := hcalls
      _ = (recorded past ++ e.record?.toList).map scriptCallOf := by rw [h.calls, List.map_append]
      _ = (recorded (past ++ [(i, e)])).map scriptCallOf := by
        rw [recorded, recorded, filterMap_snoc]

section Runs

variable {ι : Type} [DecidableEq ι] {H : Heap w}
  {past more : List (ι × ScriptEvent)} {c c' : Threads ι (ScriptState × w) ScriptThread}

/-- In every run, the queue and the records are what the events account for. -/
theorem run_accounts {env : w} (h : Threads.Run (ScriptStep H) (scriptStart ι env) past c) :
    Accounts past c.shared.1 :=
  h.invariant (P := fun past c => Accounts past c.shared.1) ⟨rfl, rfl⟩
    fun _ _ i _ _ _ hacc hstep => hacc.snoc i hstep.effect

/-- A record, once made, never changes. -/
theorem run_calls (h : Threads.Run (ScriptStep H) c more c') :
    c.shared.1.calls <+: c'.shared.1.calls :=
  h.invariant (P := fun _ c' => c.shared.1.calls <+: c'.shared.1.calls) (List.prefix_refl _)
    fun _ _ _ _ _ _ hbegins hstep =>
      hbegins.trans ⟨_, hstep.effect.balance.2.symm⟩

/-- A perform that takes no response returns at once. -/
theorem scriptPerform_answer {σ : Type} {H : Heap σ} {rq : HttpRequest} {s : ScriptState × σ}
    {st : TransportStatus} (h : (scriptEnter H rq s.1 s.2).1.answer = some st)
    (ck : Clock (ScriptState × σ)) (cancel : Option (CancelToken (ScriptState × σ)))
    (fuel : Nat) (sink : Bool) :
    scriptPerform H ck cancel fuel sink rq s = .done (some st) (scriptEnter H rq s.1 s.2).2 := by
  unfold scriptPerform
  split <;> rename_i hout <;> rw [hout] at h ⊢ <;> cases h <;> rfl

/-- Threads push and perform in any order, and any allocation may fail.  In every run the
responses that were pushed are those that were taken, in the same order, and then those in the
queue; the records are those of the performs that were recorded, in order.  Every step does to
both what {lit}`ScriptEvent.Effect` says, a perform that takes no response returns the status of its
section, and no later run changes a record. -/
theorem script_fifo (H : Heap w) (env : w) (past : List (ι × ScriptEvent))
    (c : Threads ι (ScriptState × w) ScriptThread)
    (hrun : Threads.Run (ScriptStep H) (scriptStart ι env) past c) :
    pushes past = takes past ++ c.shared.1.queue ∧
      c.shared.1.calls = (recorded past).map scriptCallOf ∧
      (∀ i e s l, ScriptStep H c.shared (c.own i) e s l → e.Effect c.shared.1 s.1) ∧
      (∀ rq st, (scriptEnter H rq c.shared.1 c.shared.2).1.answer = some st →
        ∀ ck cancel fuel sink, scriptPerform H ck cancel fuel sink rq c.shared =
          .done (some st) (scriptEnter H rq c.shared.1 c.shared.2).2) ∧
      ∀ more c', Threads.Run (ScriptStep H) c more c' →
        c.shared.1.calls <+: c'.shared.1.calls :=
  ⟨(run_accounts hrun).queue, (run_accounts hrun).calls, fun _ _ _ _ hstep => hstep.effect,
    fun _ _ hanswer ck cancel fuel sink => scriptPerform_answer hanswer ck cancel fuel sink,
    fun _ _ hmore => run_calls hmore⟩

end Runs

/-! ## A run -/

/-- A description of a plain response. -/
def plainDesc : ScriptDesc where
  structSizeOk := true
  status := .ok
  httpStatus := 200
  headers := .list []
  body := some (ascii "hi")
  bodyIsCstr := true
  chunkSize := 0
  connectDelayMs := 0
  firstByteDelayMs := 0
  perChunkDelayMs := 0
  failAfterBytes := 0

/-- The copy of the plain response. -/
def plainResponse : ScriptResponse where
  status := .ok
  httpStatus := 200
  headers := []
  body := ascii "hi"
  chunkSize := 0
  connectDelayMs := 0
  firstByteDelayMs := 0
  perChunkDelayMs := 0
  failAfterBytes := 0

/-- A request without headers and body. -/
def plainCall : HttpRequest where
  method := ascii "POST"
  url := ascii "u"
  headers := []
  body := []
  timeouts := ⟨disabled, disabled, disabled, disabled⟩
  flags := 0

/-- A response that declines. -/
def decliningResponse : ScriptResponse :=
  { plainResponse with httpStatus := 503 }

/-- One thread copies its response before another one does, and pushes it behind that one's;
then it performs. -/
theorem plain_run :
    ∃ c, Threads.Run (ScriptStep (@Heap.plentiful Unit)) (scriptStart Bool ())
      [(false, .copied plainResponse), (true, .copied decliningResponse),
        (true, .pushed decliningResponse .ok), (false, .pushed plainResponse .ok),
        (false, .performed plainCall (.took decliningResponse))] c :=
  have hfirst : Threads.Run (ScriptStep (@Heap.plentiful Unit)) (scriptStart Bool ())
      [(false, .copied plainResponse)]
      ((scriptStart Bool ()).after false (scriptInit, ()) (.copied plainResponse)) :=
    .next .nil false rfl (.copied plainDesc rfl)
  have hsecond : Threads.Run (ScriptStep (@Heap.plentiful Unit)) (scriptStart Bool ())
      [(false, .copied plainResponse), (true, .copied decliningResponse)]
      (((scriptStart Bool ()).after false (scriptInit, ()) (.copied plainResponse)).after true
        (scriptInit, ()) (.copied decliningResponse)) :=
    .next hfirst true rfl (.copied { plainDesc with httpStatus := 503 } rfl)
  have hpushed := hsecond.next true rfl (ScriptStep.pushed decliningResponse)
  have hbehind := hpushed.next false rfl (ScriptStep.pushed plainResponse)
  ⟨_, hbehind.next false rfl (ScriptStep.performed plainCall)⟩

/-- The responses are taken in the order in which they were pushed. -/
theorem script_fifo_plain :
    ∃ c : Threads Bool (ScriptState × Unit) ScriptThread,
      c.shared.1.queue = [plainResponse] ∧ c.shared.1.calls = [scriptCallOf plainCall] := by
  obtain ⟨c, hrun⟩ := plain_run
  obtain ⟨hqueue, hcalls, -⟩ := script_fifo Heap.plentiful () _ c hrun
  have hall : [decliningResponse, plainResponse] = [decliningResponse] ++ c.shared.1.queue := hqueue
  exact ⟨c, List.append_cancel_left hall.symm, hcalls⟩

end Sicha
