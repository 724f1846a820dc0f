import Sicha.Client.Run
import Sicha.Request.Reads

/-!
# Invalid arguments

"After this passes, body building can only fail on OOM", says {lit}`request.c` of the
validation, and the engine relies on it: it validates a request before it creates a result,
and builds the bodies later.  But a refused read of passthrough JSON is taken for malformed
text, and then an invalid argument is reported in the middle of a call.

Main results:

- Theorem {lit}`turn_invalid`: the one exit of the loop with an invalid argument.
- Theorem {lit}`chat_invalid`: when an invalid argument means that nothing happened.
-/

namespace Sicha

variable {σ : Type}

section Runs

variable [SizeT]

namespace Call

variable {k : Call σ}

/-- The turn from {lit}`s` builds a body, and the allocator refuses a read of passthrough
JSON. -/
structure BuildRefused (k : Call σ) (s : LoopState k.c) : Prop where
  poll : (k.poll s.world).1 = false
  first : (s.bodies[s.i.val]?).join = none
  read : ReadRefused k.Y k.H (k.backend s) k.req k.stream (k.polled s).world.env

/-- A call that enters its loop has validated its request. -/
theorem enter_accepted {ordinal : UInt32} {w : World σ} {s : LoopState k.c}
    (h : k.enter ordinal w = .inr s) : Accepted k.Y k.req := by
  unfold enter at h
  split_ifs at h
  rcases hvalid : (requestValidate k.Y k.H k.req).exec w.env with ⟨v, env⟩
  rw [hvalid] at h
  cases v with
  | error st => cases h
  | ok _ => exact requestValidate_accepted hvalid

/-- In its loop a call has a request that was validated. -/
theorem Reaches.accepted {ordinal : UInt32} {w : World σ} {s : LoopState k.c}
    (h : k.Reaches ordinal w s) : Accepted k.Y k.req := by
  obtain ⟨start, henter, -⟩ := h
  exact enter_accepted henter

/-- A request cannot be prepared for an invalid argument exactly when a body is built and
the building fails so. -/
theorem prepare_invalid (s : LoopState k.c) :
    (k.prepare s).1 = .error .invalidArg ↔ (s.bodies[s.i.val]?).join = none ∧
      Fallible.Fails .invalidArg (buildChatBody k.Y k.H (k.backend s) k.req k.stream)
        s.world.env := by
  have hheaders : ∀ s1 : LoopState k.c, (k.prepareHeaders s1).1 ≠ .error .invalidArg := by
    intro s1
    have honly : OnlyNomem (buildHeaders k.H (k.backend s1) k.stream k.c.userAgent) :=
      buildHeaders_keeps (onlyNomem_alloc k.H) .nomem _ _ _
    have hnot := honly.not_invalid s1.world.env
    unfold Fallible.Fails at hnot
    unfold prepareHeaders
    split
    · nofun
    · dsimp only
      split
      · nofun
      · rename_i st hst
        rw [hst] at hnot
        exact fun h => hnot (by cases h; rfl)
  have hbody : (k.prepareBody s).1 = .error .invalidArg ↔ (s.bodies[s.i.val]?).join = none ∧
      Fallible.Fails .invalidArg (buildChatBody k.Y k.H (k.backend s) k.req k.stream)
        s.world.env := by
    unfold prepareBody Fallible.Fails
    split
    · rename_i hset
      simp [hset]
    · rename_i hnone
      dsimp only
      split
      · rename_i hok
        simp [hok]
      · rename_i hst
        simp [hnone, hst]
  rw [← hbody]
  unfold prepare
  rcases hb : k.prepareBody s with ⟨out, s1⟩
  cases out with
  | error st => simp
  | ok body =>
      dsimp only
      have hno := hheaders s1
      rcases hh : k.prepareHeaders s1 with ⟨out', s2⟩
      rw [hh] at hno
      cases out' with
      | error st => simpa using hno
      | ok hs => simp

/-- The loop is left with an invalid argument only when a request cannot be prepared. -/
theorem turn_invalid {s f : LoopState k.c} (hs : s.final = .exhausted)
    (hf : f.final = .invalidArg) (hturn : k.Turn s (.inr f)) :
    (k.poll s.world).1 = false ∧ (k.prepare (k.polled s)).1 = .error .invalidArg := by
  generalize hout : (Sum.inr f : LoopState k.c ⊕ LoopState k.c) = out at hturn
  cases hturn with
  | cancelled _ =>
      cases hout
      cases hf
  | @unprepared st s1 hpoll hprep =>
      cases hout
      change st = .invalidArg at hf
      rw [hprep, hf]
      exact ⟨hpoll, rfl⟩
  | unrecorded _ _ _ =>
      cases hout
      cases hf
  | terminal _ _ _ hfinal =>
      cases hout
      rw [hfinal] at hf
      cases hf
  | @next rq s1 _ _ hprep hadd hfinal hnext =>
      have hkept := ((took hprep hadd).final_eq hfinal).trans hs
      generalize k.announced s1 rq = s2 at hkept hnext
      subst hout
      cases hnext with
      | success _ => cases hf
      | abort _ => cases hf
      | cancelled _ => cases hf
      | lost _ _ => cases hf
      | interrupted _ _ _ _ => cases hf
      | exhausted _ _ _ _ =>
          change s2.final = .invalidArg at hf
          rw [hkept] at hf
          cases hf

/-- A refused read in a turn is an exit with an invalid argument. -/
theorem BuildRefused.step {s : LoopState k.c} (h : k.BuildRefused s) (hreq : Accepted k.Y k.req) :
    ∃ s1, k.step s = .inr s1 ∧ s1.final = .invalidArg := by
  have hprep : (k.prepare (k.polled s)).1 = .error .invalidArg :=
    (prepare_invalid (k.polled s)).mpr ⟨h.first, (buildChatBody_invalid hreq _ _ _).mpr h.read⟩
  have hturn := k.step_turn s
  generalize k.step s = out at hturn
  cases hturn with
  | cancelled hpoll =>
      rw [h.poll] at hpoll
      cases hpoll
  | unprepared _ hprep' =>
      rw [hprep'] at hprep
      cases hprep
      exact ⟨_, rfl, rfl⟩
  | unrecorded _ hprep' _ =>
      rw [hprep'] at hprep
      cases hprep
  | terminal _ hprep' _ _ =>
      rw [hprep'] at hprep
      cases hprep
  | next _ hprep' _ _ _ =>
      rw [hprep'] at hprep
      cases hprep

end Call

/-- An invalid argument means that nothing happened: there is no result, no request went
out, and no callback was invoked. -/
def NothingHappened (e : Call.ChatEnd σ) : Prop :=
  e.status = some .invalidArg → e.result = none ∧ e.world.trace = []

/-- An invalid argument means that nothing happened exactly if no read is refused behind the
validation. -/
theorem Call.run_invalid (k : Call σ) (ordinal : UInt32) (env : σ) :
    NothingHappened (k.run ordinal ⟨env, []⟩) ↔
      ∀ s, k.Reaches ordinal ⟨env, []⟩ s → ¬ k.BuildRefused s := by
  rcases k.enter_ends ordinal ⟨env, []⟩ with ⟨out, he, hearly⟩ | ⟨env', he⟩
  · have hrun : k.run ordinal ⟨env, []⟩ = k.close out := by rw [run_eq, he]
    rw [hrun]
    generalize k.close out = e at hearly
    constructor
    · rintro - s ⟨start, henter, -⟩
      rw [he] at henter
      cases henter
    · intro _ hstatus
      have hlog := hearly.log
      refine ⟨?_, by rw [World.trace, World.acts, hlog]; rfl⟩
      cases hearly with
      | refused _ _ => rfl
      | noArrays _ _ _ => cases hstatus
      | fault _ _ => cases hstatus
  · have hrun : k.run ordinal ⟨env, []⟩ = k.handOut (k.attemptLoop.run
        (k.start ordinal (resultInit k.c.maxResponseBytes) ⟨env', []⟩)) := by
      rw [run_eq, he]
    constructor
    · intro hgood s hs hrefused
      obtain ⟨s1, hstep, hfinal⟩ := hrefused.step hs.accepted
      obtain ⟨start, henter, hreach⟩ := hs
      rw [he] at henter
      cases henter
      have hleave : k.attemptLoop.run (k.start ordinal (resultInit k.c.maxResponseBytes)
          ⟨env', []⟩) = s1 := hreach.run_eq.trans (Loop.run_of_leave hstep)
      rw [hrun, hleave] at hgood
      have hnone := (hgood (congrArg some hfinal)).1
      cases hnone
    · intro hnone hstatus
      obtain ⟨s, hreach, hleave⟩ := k.attemptLoop.run_reachable
        (k.start ordinal (resultInit k.c.maxResponseBytes) ⟨env', []⟩)
      have hs : k.Reaches ordinal ⟨env, []⟩ s := ⟨_, he, hreach⟩
      have hturn := k.step_turn s
      change k.step s = _ at hleave
      rw [hleave] at hturn
      rw [hrun] at hstatus
      obtain ⟨hpoll, hprep⟩ := turn_invalid hs.final (Option.some.inj hstatus) hturn
      obtain ⟨hfirst, hfails⟩ := (prepare_invalid (k.polled s)).mp hprep
      exact absurd ⟨hpoll, hfirst, (buildChatBody_invalid hs.accepted _ _ _).mp hfails⟩
        (hnone s hs)

/-- An invalid argument means that nothing happened if and only if no body is built for which
the allocator refuses a read of passthrough JSON; and building a body for a validated
request fails out of memory only, if and only if no such read is refused. -/
theorem chat_invalid (Y : Yyjson) (H : Heap σ) (c : Option (Client σ)) (req : Option Request)
    (cbs : Option (Callbacks σ)) (cancel : Option (CancelToken σ)) (haveOut stream : Bool)
    (ordinal : UInt32) (env : σ) :
    (NothingHappened (chatCommon Y H c req cbs cancel haveOut stream ordinal ⟨env, []⟩) ↔
      ∀ k, Call.passed Y H c req cbs cancel haveOut stream = some k →
        ∀ s, k.Reaches ordinal ⟨env, []⟩ s → ¬ k.BuildRefused s) ∧
    ∀ (b : Backend) (valid : Request) (s0 s1 : σ),
      (requestValidate Y H valid).exec s0 = (.ok (), s1) → ∀ s,
        ((∀ st, ((buildChatBody Y H b valid stream).exec s).1 = .error st → st = .nomem) ↔
          ¬ ReadRefused Y H b valid stream s) := by
  constructor
  · rcases chatCommon_passed Y H c req cbs cancel haveOut stream ordinal ⟨env, []⟩ with
      ⟨hpassed, hend⟩ | ⟨k, hpassed, -, hend⟩
    · rw [hpassed, hend]
      exact ⟨fun _ _ hk => (by cases hk), fun _ _ => ⟨rfl, rfl⟩⟩
    · rw [hpassed, hend, k.run_invalid]
      constructor
      · rintro hnone _ ⟨⟩
        exact hnone
      · intro hnone
        exact hnone k rfl
  · intro b valid s0 s1 hvalid s
    rw [← buildChatBody_invalid (requestValidate_accepted hvalid)]
    have hkeeps := @buildChatBody_keeps _ H (fun _ => True) Refusal (fun _ _ _ => trivial)
      .nomem .invalidArg Y b valid stream s trivial
    constructor
    · intro honly hfails
      cases honly _ hfails
    · intro hnot st hst
      cases hkeeps.2 st hst with
      | invalidArg => exact absurd hst hnot
      | nomem => rfl

end Runs

section Plain

attribute [local instance] lp64

/-- A request that brings its messages as JSON. -/
def jsonRequest : Request :=
  { plainRequest with messages := .null 0, messagesJson := some (ascii "[]") }

/-- The call with that request, and an allocator that grants everything. -/
def jsonChat : Call.ChatEnd Unit :=
  chatCommon (plainYyjson (ascii "[]") (.arr [])) Heap.plentiful
    (some (plainClient 0 1048576 plainCap_pos busyTransport)) (some jsonRequest) none none true
    false 0 ⟨(), []⟩

/-- A call with its messages as JSON, whose reads are all granted. -/
theorem chat_invalid_plain :
    NothingHappened jsonChat ∧
      ((∀ st, ((buildChatBody (plainYyjson (ascii "[]") (.arr [])) Heap.plentiful plainBackend
          jsonRequest false).exec ()).1 = .error st → st = .nomem) ↔
        ¬ ReadRefused (plainYyjson (ascii "[]") (.arr [])) Heap.plentiful plainBackend
          jsonRequest false ()) := by
  have hboth := chat_invalid (plainYyjson (ascii "[]") (.arr [])) Heap.plentiful
    (some (plainClient 0 1048576 (by decide) busyTransport)) (some jsonRequest) none none true
    false 0 ()
  refine ⟨hboth.1.mpr fun k hk s _ hrefused => ?_, hboth.2 plainBackend jsonRequest () () rfl ()⟩
  have hreliable : k.H.Reliable := by
    rw [(Call.passed_parts hk).1]
    exact Heap.plentiful_reliable
  exact hreliable.no_refusal _ _ _ _ hrefused.read

/-- The text is read three times before the messages are in the body; the third read, behind
the requests for the result, the four arrays, the document, its root and the model, is
refused. -/
theorem chat_invalid_late :
    ¬ NothingHappened (chatCommon (plainYyjson (ascii "[]") (.arr [])) (refusingAt 10)
      (some (plainClient 0 1048576 (by decide) busyTransport)) (some jsonRequest) none none true
      false 0 ⟨0, []⟩) := by
  intro hgood
  have hstatus : (chatCommon (plainYyjson (ascii "[]") (.arr [])) (refusingAt 10)
      (some (plainClient 0 1048576 (by decide) busyTransport)) (some jsonRequest) none none true
      false 0 ⟨0, []⟩).status = some .invalidArg := by decide +kernel
  have hresult : (chatCommon (plainYyjson (ascii "[]") (.arr [])) (refusingAt 10)
      (some (plainClient 0 1048576 (by decide) busyTransport)) (some jsonRequest) none none true
      false 0 ⟨0, []⟩).result.isSome = true := by decide +kernel
  rw [(hgood hstatus).1] at hresult
  cases hresult

end Plain

end Sicha
