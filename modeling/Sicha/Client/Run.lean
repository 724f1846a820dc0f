import Sicha.Client.Record

/-!
# How a call runs

The rule for statements about whole calls: a call is refused before its loop, or it is
a run of the loop, and what every turn preserves a run preserves.

Main results:

- Theorem {lit}`run_eq`: the common exit of a call that has left its loop hands its result out.
- Theorem {lit}`chatCommon_ends`: the two kinds of call.
- Theorem {lit}`run_turns`: the invariant rule over turns.
- Definitions {lit}`attempts` and {lit}`trips`: the attempts of a call, and those it records.
- Theorem {lit}`run_entries`: the records of a call are those of its recorded attempts.
-/

namespace Sicha

variable [SizeT] {σ : Type}

namespace Call

/-! ## Calls that never reach the loop -/

/-- The ends of a call that is refused before its loop. -/
inductive Unstarted (H : Heap σ) (w : World σ) : ChatEnd σ → Prop
  | refused {st : Status} (h : Refusal st) (env : σ) :
      Unstarted H w (.returned st none { w with env := env })
  | noArrays (hH : ¬ H.Reliable) (cap : Nat) (env : σ) :
      Unstarted H w (.returned .nomem (some { resultInit cap with status := .nomem })
        { w with env := env })
  | fault (hH : ¬ H.Reliable) (env : σ) : Unstarted H w (.fault { w with env := env })

/-- A call that has not started has logged nothing. -/
theorem Unstarted.log {H : Heap σ} {w : World σ} {e : ChatEnd σ} (h : Unstarted H w e) :
    e.world.log = w.log := by
  cases h <;> rfl

variable (k : Call σ)

/-! ## The common exit -/

/-- The caches have a place for every backend. -/
structure CacheSized (s : LoopState k.c) : Prop where
  bodies : s.bodies.length = k.c.backends.length
  headers : s.headers.length = k.c.backends.length

/-- The state behind the loop, its result handed out. -/
def handOut (s : LoopState k.c) : ChatEnd σ :=
  .returned s.final (some { s.r with status := s.final }) s.world

variable {k}

/-- The caches keep their sizes when a body is built. -/
theorem prepareBody_sized {s : LoopState k.c} (h : k.CacheSized s) :
    k.CacheSized (k.prepareBody s).2 := by
  unfold prepareBody
  split
  · exact h
  · dsimp only
    split
    · exact ⟨(List.length_set ..).trans h.bodies, h.headers⟩
    · exact ⟨h.bodies, h.headers⟩

/-- They keep them when headers are built. -/
theorem prepareHeaders_sized {s : LoopState k.c} (h : k.CacheSized s) :
    k.CacheSized (k.prepareHeaders s).2 := by
  unfold prepareHeaders
  split
  · exact h
  · dsimp only
    split
    · exact ⟨h.bodies, (List.length_set ..).trans h.headers⟩
    · exact ⟨h.bodies, h.headers⟩

/-- They keep them when a request is prepared. -/
theorem prepare_sized {s s1 : LoopState k.c} {out : Except Status HttpRequest}
    (hprep : k.prepare s = (out, s1)) (h : k.CacheSized s) : k.CacheSized s1 := by
  have hbody := prepareBody_sized h
  have hs1 : (k.prepare s).2 = s1 := by rw [hprep]
  rw [← hs1]
  unfold prepare
  rcases hb : k.prepareBody s with ⟨_ | body, s2⟩ <;> rw [hb] at hbody
  · exact hbody
  · have hheaders := prepareHeaders_sized hbody
    dsimp only at hheaders ⊢
    rcases hh : k.prepareHeaders s2 with ⟨_ | headers, s3⟩ <;> rw [hh] at hheaders <;>
      exact hheaders

/-- They keep them through an attempt. -/
theorem announced_sized {s : LoopState k.c} (h : k.CacheSized s) (rq : HttpRequest) :
    k.CacheSized (k.announced s rq) := by
  unfold announced announce
  split <;> exact ⟨h.bodies, h.headers⟩

/-- Every turn leaves the caches a place for every backend. -/
theorem turn_sized (s : LoopState k.c) (out : LoopState k.c ⊕ LoopState k.c)
    (h : k.CacheSized s) (hturn : k.Turn s out) : Sum.elim k.CacheSized k.CacheSized out := by
  have hpolled : k.CacheSized (k.polled s) := ⟨h.bodies, h.headers⟩
  cases hturn with
  | cancelled _ => exact ⟨h.bodies, h.headers⟩
  | unprepared _ hprep =>
      have hprepared := prepare_sized hprep hpolled
      exact ⟨hprepared.bodies, hprepared.headers⟩
  | unrecorded _ hprep _ =>
      have hprepared := prepare_sized hprep hpolled
      exact ⟨hprepared.bodies, hprepared.headers⟩
  | terminal _ hprep _ _ => exact announced_sized (prepare_sized hprep hpolled) _
  | @next rq s1 _ _ hprep _ _ hnext =>
      have htold := announced_sized (prepare_sized hprep hpolled) rq
      generalize k.announced s1 rq = s2 at htold hnext
      cases hnext <;> exact ⟨htold.bodies, htold.headers⟩

/-- The arrays of a call behind its loop have a place for every backend. -/
theorem atDone_sized {s : LoopState k.c} (h : k.CacheSized s) :
    (k.atDone s).arrays.Sized k.c.backends.length := by
  refine ⟨?_, ?_, ?_, ?_⟩
  · rintro xs ⟨⟩
    exact h.bodies
  · rintro xs ⟨⟩
    exact h.headers
  · rintro ns ⟨⟩
    exact (List.length_map _).trans h.headers
  · rintro xs ns i hs count ⟨⟩ ⟨⟩ hx hn
    rw [List.getElem?_map, hx] at hn
    cases hn
    exact Nat.le_refl _

/-- With the counts beside the headers the common exit hands the result out, and reads only what is
allocated. -/
theorem done_safe {x : AtDone σ} (hsized : x.arrays.Sized k.c.backends.length)
    (hcounts : x.arrays.headers.isSome = true → x.arrays.nHeaders.isSome = true) :
    k.done x = .returned x.final (some { x.r with status := x.final }) x.world ∧
      x.arrays.ReadsAllocated (k.exitActs x) := by
  obtain ⟨acts, hrun, hreads⟩ := cleanup_safe hsized hcounts
  unfold done exitActs
  rw [hrun]
  exact ⟨rfl, hreads⟩

/-- Out of the loop, the common exit finds all four arrays, and hands the result out. -/
theorem done_handOut {s : LoopState k.c} (h : k.CacheSized s) :
    k.done (k.atDone s) = k.handOut s :=
  (done_safe (atDone_sized h) fun _ => rfl).1

/-- In the loop, and behind it, the caches have a place for every backend. -/
theorem loop_sized (ordinal : UInt32) (r : Result) (w : World σ) :
    k.CacheSized (k.attemptLoop.run (k.start ordinal r w)) := by
  have hstep : ∀ s, k.CacheSized s → Sum.elim k.CacheSized k.CacheSized (k.attemptLoop.step s) :=
    fun s hs => turn_sized s _ hs (k.step_turn s)
  exact Loop.run_of_step hstep ⟨List.length_replicate, List.length_replicate⟩

variable (k)

/-- A call is refused before its loop, or it enters the loop. -/
theorem enter_ends (ordinal : UInt32) (w : World σ) :
    (∃ out, k.enter ordinal w = .inl out ∧ Unstarted k.H w (k.close out)) ∨
      ∃ env, k.enter ordinal w = .inr (k.start ordinal (resultInit k.c.maxResponseBytes)
        { w with env := env }) := by
  have hvalidate := @requestValidate_keeps _ k.H (fun _ => True) Refusal (fun _ _ _ => trivial)
    .invalidArg k.Y k.req w.env trivial
  unfold enter
  split_ifs
  · exact .inl ⟨_, rfl, .refused .invalidArg w.env⟩
  · split
    · rename_i hst
      rw [hst] at hvalidate
      exact .inl ⟨_, rfl, .refused (hvalidate.2 _ rfl) _⟩
    · split
      · exact .inl ⟨_, rfl, .refused .nomem _⟩
      · rename_i hcreate
        unfold resultCreate at hcreate
        split_ifs at hcreate
        · cases hcreate
          unfold arrays
          dsimp only
          split_ifs with hall
          · exact .inr ⟨_, rfl⟩
          · have hH : ¬ k.H.Reliable := fun hH => hall (by simp [World.quiet, hH _ _])
            refine .inl ⟨_, rfl, ?_⟩
            dsimp only [close, done]
            split
            · exact .noArrays hH _ _
            · exact .fault hH _
        · cases hcreate

/-- A call is what it was refused with, or the end of its loop, handed out. -/
theorem run_eq (ordinal : UInt32) (w : World σ) :
    k.run ordinal w = match k.enter ordinal w with
      | .inl out => k.close out
      | .inr s => k.handOut (k.attemptLoop.run s) := by
  unfold run body
  rcases k.enter_ends ordinal w with ⟨out, he, -⟩ | ⟨env, henter⟩
  · rw [he]
  · rw [henter]
    exact done_handOut (loop_sized ordinal _ _)

/-- A call ends before its loop, or hands out what the loop leaves. -/
theorem run_ends (ordinal : UInt32) (w : World σ) :
    Unstarted k.H w (k.run ordinal w) ∨ ∃ env, k.run ordinal w =
      k.handOut (k.attemptLoop.run (k.start ordinal (resultInit k.c.maxResponseBytes)
        { w with env := env })) := by
  rw [run_eq]
  rcases k.enter_ends ordinal w with ⟨out, he, hearly⟩ | ⟨env, henter⟩
  · rw [he]
    exact .inl hearly
  · rw [henter]
    exact .inr ⟨env, rfl⟩

end Call

/-- The call that gets past the check of its pointers. -/
def Call.passed (Y : Yyjson) (H : Heap σ) (c : Option (Client σ)) (req : Option Request)
    (cbs : Option (Callbacks σ)) (cancel : Option (CancelToken σ)) (haveOut stream : Bool) :
    Option (Call σ) :=
  if haveOut then
    match c, req with
    | some c, some req => some ⟨Y, H, c, req, cbs, cancel, stream⟩
    | _, _ => none
  else none

/-- A call is one whose pointers are refused, or a run. -/
theorem chatCommon_passed (Y : Yyjson) (H : Heap σ) (c : Option (Client σ))
    (req : Option Request) (cbs : Option (Callbacks σ)) (cancel : Option (CancelToken σ))
    (haveOut stream : Bool) (ordinal : UInt32) (w : World σ) :
    (Call.passed Y H c req cbs cancel haveOut stream = none ∧
      chatCommon Y H c req cbs cancel haveOut stream ordinal w = .returned .invalidArg none w) ∨
    ∃ k, Call.passed Y H c req cbs cancel haveOut stream = some k ∧ k.cancel = cancel ∧
      chatCommon Y H c req cbs cancel haveOut stream ordinal w = k.run ordinal w := by
  unfold chatCommon Call.passed
  cases haveOut with
  | false => exact .inl ⟨rfl, rfl⟩
  | true =>
      cases c with
      | none => exact .inl ⟨rfl, rfl⟩
      | some c =>
          cases req with
          | none => exact .inl ⟨rfl, rfl⟩
          | some req => exact .inr ⟨_, rfl, rfl, rfl⟩

/-- The parts of a call whose pointers are checked. -/
theorem Call.passed_parts {Y : Yyjson} {H : Heap σ} {c : Client σ} {req : Option Request}
    {cbs : Option (Callbacks σ)} {cancel : Option (CancelToken σ)} {haveOut stream : Bool}
    {k : Call σ} (h : Call.passed Y H (some c) req cbs cancel haveOut stream = some k) :
    k.H = H ∧ k.c = c ∧ k.cbs = cbs := by
  unfold Call.passed at h
  split_ifs at h
  split at h
  · rename_i hc
    cases hc
    cases h
    exact ⟨rfl, rfl, rfl⟩
  · cases h

/-- A call is refused before its loop, or it is a run of the loop. -/
theorem chatCommon_ends (Y : Yyjson) (H : Heap σ) (c : Option (Client σ)) (req : Option Request)
    (cbs : Option (Callbacks σ)) (cancel : Option (CancelToken σ)) (haveOut stream : Bool)
    (ordinal : UInt32) (w : World σ) :
    Call.Unstarted H w (chatCommon Y H c req cbs cancel haveOut stream ordinal w) ∨
      ∃ k : Call σ, (k.H = H ∧ some k.c = c ∧ some k.req = req ∧ k.cbs = cbs ∧
        k.cancel = cancel ∧ k.stream = stream) ∧
        ∃ env, chatCommon Y H c req cbs cancel haveOut stream ordinal w =
          k.handOut (k.attemptLoop.run (k.start ordinal (resultInit k.c.maxResponseBytes)
            { w with env := env })) := by
  unfold chatCommon
  split_ifs
  · split
    · rename_i c req
      rcases Call.run_ends ⟨Y, H, c, req, cbs, cancel, stream⟩ ordinal w with h | h
      · exact .inl h
      · exact .inr ⟨_, ⟨rfl, rfl, rfl, rfl, rfl, rfl⟩, h⟩
    · exact .inl (.refused .invalidArg w.env)
  · exact .inl (.refused .invalidArg w.env)

namespace Call

variable (k : Call σ)

/-! ## Turns that record nothing -/

/-- What a turn keeps that prepares no request. -/
structure Unchanged (s s1 : LoopState k.c) : Prop where
  trace : s1.world.trace = s.world.trace
  r : s1.r = s.r
  i : s1.i = s.i
  anyDelivered : s1.anyDelivered = s.anyDelivered

/-- A poll changes nothing but the log. -/
theorem polled_unchanged (s : LoopState k.c) : k.Unchanged s (k.polled s) :=
  ⟨k.poll_trace s.world, rfl, rfl, rfl⟩

/-- A request that is prepared changes only caches and environment. -/
theorem prepared_unchanged {s s1 : LoopState k.c} {out : Except Status HttpRequest}
    (h : k.prepare (k.polled s) = (out, s1)) : k.Unchanged s s1 := by
  obtain ⟨bodies, headers, env, hs1⟩ := (k.prepare_spec (k.polled s)).1
  rw [h] at hs1
  dsimp only at hs1
  subst hs1
  exact ⟨k.poll_trace s.world, rfl, rfl, rfl⟩

/-- A request cannot be prepared for lack of memory, or as invalid. -/
theorem prepare_refusal {s s1 : LoopState k.c} {st : Status}
    (h : k.prepare s = (.error st, s1)) : Refusal st := by
  have hkeeps := @prepare_keeps _ _ k (fun _ => True) (fun _ _ _ => trivial) s trivial
  rw [h] at hkeeps
  exact hkeeps.2 st rfl

/-- What a turn leaves behind whose record was refused. -/
structure Unrecorded (s : LoopState k.c) (rq : HttpRequest) (s1 : LoopState k.c) : Prop where
  heap : ¬ k.H.Reliable
  attempts : (k.recorded s1 rq).2.r.attempts = s.r.attempts
  trace : (k.recorded s1 rq).2.world.trace =
    s.world.trace ++ k.handing rq :: (k.given rq s1 ++ k.checked (k.roundTrip rq s1))

/-- What a turn is that cannot store its record. -/
theorem unrecorded_spec {s s1 : LoopState k.c} {rq : HttpRequest}
    (hprep : k.prepare (k.polled s) = (.ok rq, s1)) (hadd : (k.recorded s1 rq).1 ≠ .ok) :
    k.Unrecorded s rq s1 := by
  have hsame := k.prepared_unchanged hprep
  have hattempts : (k.roundTrip rq s1).r.attempts = s.r.attempts := by
    rw [(k.roundTrip_given rq s1).records.attempts, ← hsame.r]
    rfl
  have hout := k.recorded_outcome rq s1
  have htrace := k.recorded_trace rq s1
  rw [hsame.trace] at htrace
  generalize hr : (k.recorded s1 rq).2.r = r at hout
  generalize hst : (k.recorded s1 rq).1 = st at hout hadd
  cases hout with
  | stored cap => exact absurd rfl hadd
  | refused cap hH => exact ⟨hH, by rw [hr]; exact hattempts, htrace⟩

variable {k}

/-- A turn that goes round again leaves the final status alone. -/
theorem turn_final {s s' : LoopState k.c} (hturn : k.Turn s (.inl s')) : s'.final = s.final := by
  generalize hout : (Sum.inl s' : LoopState k.c ⊕ LoopState k.c) = out at hturn
  cases hturn with
  | cancelled _ => cases hout
  | unprepared _ _ => cases hout
  | unrecorded _ _ _ => cases hout
  | terminal _ _ _ _ => cases hout
  | @next rq s1 _ _ hprep hadd hfinal hnext =>
      have hkept := (took hprep hadd).final_eq hfinal
      generalize k.announced s1 rq = s2 at hkept hnext
      subst hout
      cases hnext with
      | reroll _ _ _ => exact hkept
      | retry _ _ _ _ => exact hkept
      | fallback _ _ _ => exact hkept

variable (k)

/-- The states at the head of the attempt loop in a call. -/
def Reaches (ordinal : UInt32) (w : World σ) (s : LoopState k.c) : Prop :=
  ∃ start, k.enter ordinal w = .inr start ∧ k.attemptLoop.Reachable start s

variable {k}

/-- What holds when the loop is entered and is preserved by every turn that goes round again holds
at every head of the loop. -/
theorem Reaches.invariant {ordinal : UInt32} {w : World σ} {Inv : LoopState k.c → Prop}
    (hstart : ∀ env, Inv (k.start ordinal (resultInit k.c.maxResponseBytes) { w with env := env }))
    (hturn : ∀ s s', Inv s → k.Turn s (.inl s') → Inv s') {s : LoopState k.c}
    (h : k.Reaches ordinal w s) : Inv s := by
  obtain ⟨start, henter, hreach⟩ := h
  refine Loop.Reachable.invariant (fun s s' hs hround => hturn s s' hs ?_) hreach ?_
  · have hfirst := k.step_turn s
    change k.step s = .inl s' at hround
    rwa [hround] at hfirst
  · rcases k.enter_ends ordinal w with ⟨e, he, -⟩ | ⟨env, he⟩
    · rw [he] at henter
      cases henter
    · rw [he] at henter
      cases henter
      exact hstart env

/-- At the head of the attempt loop a call is on its way to {lit}`EXHAUSTED`. -/
theorem Reaches.final {ordinal : UInt32} {w : World σ} {s : LoopState k.c}
    (h : k.Reaches ordinal w s) : s.final = .exhausted :=
  Reaches.invariant (fun _ => rfl) (fun _ _ hs hturn => (turn_final hturn).trans hs) h

variable (k)

/-! ## The invariant rule -/

/-- What every turn preserves, or turns into {lit}`Post` when it leaves, a run turns into
{lit}`Post`. -/
theorem run_turns {Inv Post : LoopState k.c → Prop}
    (hturn : ∀ s out, Inv s → k.Turn s out → Sum.elim Inv Post out) {s : LoopState k.c}
    (hs : Inv s) : Post (k.attemptLoop.run s) :=
  Loop.run_of_step (fun s hs => hturn s _ hs (k.step_turn s)) hs

/-- The same, where the invariant speaks of the heads of the turns before. -/
theorem trail_turns {Inv Post : List (LoopState k.c) → LoopState k.c → Prop}
    (hturn : ∀ past s out, Inv past s → k.Turn s out →
      Sum.elim (Inv (past ++ [s])) (Post (past ++ [s])) out) {s : LoopState k.c}
    (hs : Inv [] s) : Post (k.attemptLoop.trail s) (k.attemptLoop.run s) :=
  Loop.trail_of_step (fun past s hs => hturn past s _ hs (k.step_turn s)) hs

/-! ## Attempts -/

/-- The attempt of the turn that starts here, if the turn gets that far. -/
def attempt? (s : LoopState k.c) : Option (HttpRequest × LoopState k.c) :=
  if (k.poll s.world).1 then none
  else
    match k.prepare (k.polled s) with
    | (.error _, _) => none
    | (.ok rq, s1) => some (rq, s1)

/-- The attempts of a call, in order. -/
def attempts (ordinal : UInt32) (w : World σ) : List (HttpRequest × LoopState k.c) :=
  match k.enter ordinal w with
  | .inl _ => []
  | .inr s => (k.attemptLoop.trail s).filterMap k.attempt?

/-- The attempt of a turn has a request that was prepared. -/
theorem attempt_prepared {s : LoopState k.c} {t : HttpRequest × LoopState k.c}
    (h : k.attempt? s = some t) : k.prepare (k.polled s) = (.ok t.1, t.2) := by
  unfold attempt? at h
  split_ifs at h
  split at h
  · cases h
  · rename_i hprep
    cases h
    exact hprep

/-- An attempt starts from a state that is reached. -/
theorem attempts_reaches {ordinal : UInt32} {w : World σ} {t : HttpRequest × LoopState k.c}
    (ht : t ∈ k.attempts ordinal w) : ∃ s, k.Reaches ordinal w s ∧ k.attempt? s = some t := by
  unfold attempts at ht
  cases hstart : k.enter ordinal w with
  | inl e =>
      rw [hstart] at ht
      exact absurd ht List.not_mem_nil
  | inr start =>
      rw [hstart] at ht
      obtain ⟨s, hs, hattempt⟩ := List.mem_filterMap.mp ht
      exact ⟨s, ⟨start, hstart, Loop.reachable_of_mem_trail hs⟩, hattempt⟩

/-- The attempt of the turn that starts here, if it leaves a record. -/
def trip? (s : LoopState k.c) : Option (HttpRequest × LoopState k.c) :=
  if (k.poll s.world).1 then none
  else
    match k.prepare (k.polled s) with
    | (.error _, _) => none
    | (.ok rq, s1) => if (k.recorded s1 rq).1 = .ok then some (rq, s1) else none

/-- The attempts that a call records, in order. -/
def trips (ordinal : UInt32) (w : World σ) : List (HttpRequest × LoopState k.c) :=
  match k.enter ordinal w with
  | .inl _ => []
  | .inr s => (k.attemptLoop.trail s).filterMap k.trip?

/-- The records of attempts. -/
def entries (trips : List (HttpRequest × LoopState k.c)) : List Attempt :=
  trips.map fun t => k.entry t.1 t.2

variable {k}

/-- A turn that begins with a triggered token leaves no record. -/
theorem trip_polled {s : LoopState k.c} (hpoll : (k.poll s.world).1 = true) : k.trip? s = none := by
  simp [trip?, hpoll]

/-- A turn that cannot prepare its request leaves no record. -/
theorem trip_unprepared {s s1 : LoopState k.c} {st : Status} (hpoll : (k.poll s.world).1 = false)
    (hprep : k.prepare (k.polled s) = (.error st, s1)) : k.trip? s = none := by
  simp [trip?, hpoll, hprep]

/-- A turn whose record was refused leaves none. -/
theorem trip_unrecorded {s s1 : LoopState k.c} {rq : HttpRequest}
    (hpoll : (k.poll s.world).1 = false) (hprep : k.prepare (k.polled s) = (.ok rq, s1))
    (hadd : (k.recorded s1 rq).1 ≠ .ok) : k.trip? s = none := by
  simp [trip?, hpoll, hprep, hadd]

/-- A turn whose record was stored leaves that of its attempt. -/
theorem trip_recorded {s s1 : LoopState k.c} {rq : HttpRequest}
    (hpoll : (k.poll s.world).1 = false) (hprep : k.prepare (k.polled s) = (.ok rq, s1))
    (hadd : (k.recorded s1 rq).1 = .ok) : k.trip? s = some (rq, s1) := by
  simp [trip?, hpoll, hprep, hadd]

/-- The recorded attempts of one more turn. -/
theorem trips_snoc (past : List (LoopState k.c)) {s : LoopState k.c}
    {t : Option (HttpRequest × LoopState k.c)} (h : k.trip? s = t) :
    (past ++ [s]).filterMap k.trip? = past.filterMap k.trip? ++ t.toList := by
  rw [List.filterMap_append, List.filterMap_cons, List.filterMap_nil, h]
  cases t <;> rfl

variable (k)

/-- What follows a record leaves the records alone. -/
theorem next_attempts {cls : ErrorClass} {retryAfter : UInt64} {s : LoopState k.c}
    {out : LoopState k.c ⊕ LoopState k.c} (h : k.Next cls retryAfter s out) :
    (Sum.elim id id out).r.attempts = s.r.attempts := by
  cases h <;> rfl

/-- A turn appends the record of its attempt, if it leaves one. -/
theorem turn_entries (past : List (LoopState k.c)) (s : LoopState k.c)
    (out : LoopState k.c ⊕ LoopState k.c)
    (h : s.r.attempts = k.entries (past.filterMap k.trip?)) (hturn : k.Turn s out) :
    (Sum.elim id id out).r.attempts = k.entries ((past ++ [s]).filterMap k.trip?) := by
  have hpast : ∀ t, k.trip? s = t →
      k.entries ((past ++ [s]).filterMap k.trip?) = s.r.attempts ++ k.entries t.toList := by
    intro t ht
    rw [trips_snoc past ht, entries, List.map_append, h]
    rfl
  cases hturn with
  | cancelled hpoll =>
      rw [hpast none (trip_polled hpoll)]
      exact (List.append_nil _).symm
  | @unprepared st s1 hpoll hprep =>
      rw [hpast none (trip_unprepared hpoll hprep)]
      exact (congrArg Result.attempts (k.prepared_unchanged hprep).r).trans
        (List.append_nil _).symm
  | @unrecorded rq s1 hpoll hprep hadd =>
      rw [hpast none (trip_unrecorded hpoll hprep hadd)]
      exact (k.unrecorded_spec hprep hadd).attempts.trans (List.append_nil _).symm
  | @terminal rq s1 hpoll hprep hadd _ =>
      rw [hpast (some (rq, s1)) (trip_recorded hpoll hprep hadd)]
      have htook := (took hprep hadd).attempts
      generalize k.announced s1 rq = s2 at htook ⊢
      exact htook
  | @next rq s1 _ hpoll hprep hadd _ hnext =>
      rw [hpast (some (rq, s1)) (trip_recorded hpoll hprep hadd)]
      have htook := (took hprep hadd).attempts
      generalize k.announced s1 rq = s2 at htook hnext
      exact (k.next_attempts hnext).trans htook

/-- The records of a call are those of its attempts. -/
theorem run_entries (ordinal : UInt32) (w : World σ) :
    (k.run ordinal w).records = k.entries (k.trips ordinal w) := by
  rw [run_eq]
  unfold trips
  rcases k.enter_ends ordinal w with ⟨out, he, hearly⟩ | ⟨env, henter⟩
  · rw [he]
    dsimp only
    generalize k.close out = e at hearly
    cases hearly <;> rfl
  · rw [henter]
    refine @trail_turns _ _ k (fun past s => s.r.attempts = k.entries (past.filterMap k.trip?))
      (fun past f => f.r.attempts = k.entries (past.filterMap k.trip?)) ?_
      (k.start ordinal (resultInit k.c.maxResponseBytes) { w with env := env }) rfl
    intro past s out h hturn
    have hout := k.turn_entries past s out h hturn
    cases out <;> exact hout

end Call

end Sicha
