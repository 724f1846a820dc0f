import Sicha.Client.Run
import Sicha.Lib.Split

/-!
# The streaming commit rule

Without {lit}`SICHA_POLICY_RETRY_AFTER_DELTAS`, the attempt that delivers the first
delta is the last.

Main results:

- Theorem {lit}`turn_commit`: what a turn preserves, and how it may leave.
- Theorem {lit}`chatStream_commit`: the rule for whole calls.
-/

namespace Sicha

/-! ## Traces with one delivery -/

/-- No delta is delivered. -/
def NoDelta (acts : List Act) : Prop :=
  ∀ a ∈ acts, a.isDelta = false

/-- No chat attempt is performed. -/
def NoAttempt (acts : List Act) : Prop :=
  ∀ a ∈ acts, a.isAttempt = false

/-- All deltas belong to one attempt, and it is the last. -/
structure OneDelivery (acts : List Act) (before : List Act) (rq : HttpRequest) (token : Bool)
    (data after : List Act) : Prop where
  split : acts = before ++ .perform rq true token :: (data ++ after)
  before_quiet : NoDelta before
  data_only : ∀ a ∈ data, a.isData = true
  delivers : ∃ a ∈ data, a.isDelta = true
  after_quiet : NoDelta after
  last : NoAttempt after

/-- Two parts without a delta. -/
theorem NoDelta.append {as bs : List Act} (ha : NoDelta as) (hb : NoDelta bs) :
    NoDelta (as ++ bs) := by
  intro a h
  rcases List.mem_append.mp h with h | h
  · exact ha a h
  · exact hb a h

/-- Two parts without an attempt. -/
theorem NoAttempt.append {as bs : List Act} (ha : NoAttempt as) (hb : NoAttempt bs) :
    NoAttempt (as ++ bs) := by
  intro a h
  rcases List.mem_append.mp h with h | h
  · exact ha a h
  · exact hb a h

/-- An attempt without a delta. -/
theorem quiet_attempt {a : Act} {as bs : List Act} (ha : a.isDelta = false) (has : NoDelta as)
    (hbs : NoDelta bs) : NoDelta (a :: (as ++ bs)) := by
  intro b hb
  rcases List.mem_cons.mp hb with rfl | hb
  · exact ha
  · exact has.append hbs b hb

/-- Data is no attempt. -/
theorem data_noAttempt {acts : List Act} (h : ∀ a ∈ acts, a.isData = true) : NoAttempt acts := by
  intro a ha
  have hdata := h a ha
  cases a <;> first | rfl | cases hdata

/-- Behind a delta of a trace with one delivery there is no attempt. -/
theorem OneDelivery.after_delta {acts before : List Act} {rq : HttpRequest} {token : Bool}
    {data after : List Act} (h : OneDelivery acts before rq token data after)
    {front : List Act} {d : Act} {back : List Act} (hsplit : acts = front ++ d :: back)
    (hd : d.isDelta = true) : NoAttempt back := by
  have htail : NoAttempt (data ++ after) := (data_noAttempt h.data_only).append h.last
  rcases split_append (h.split.symm.trans hsplit) with ⟨rest, hbefore, -⟩ | ⟨rest, -, hrest⟩
  · have hquiet := h.before_quiet d (by rw [hbefore]; simp)
    rw [hd] at hquiet
    cases hquiet
  · cases rest with
    | nil =>
        rw [List.nil_append, List.cons_eq_cons] at hrest
        rw [← hrest.1] at hd
        cases hd
    | cons a rest =>
        rw [List.cons_append, List.cons_eq_cons] at hrest
        intro b hb
        refine htail b ?_
        rw [hrest.2]
        exact List.mem_append_right _ (List.mem_cons_of_mem _ hb)

/-- The statuses that may follow a delivery. -/
inductive AfterDelivery : Status → Prop
  | ok : AfterDelivery .ok
  | aborted : AfterDelivery .aborted
  | cancelled : AfterDelivery .cancelled
  | nomem : AfterDelivery .nomem
  | streamLost : AfterDelivery .streamLost

/-- The commit rule for a trace and a final status. -/
def Committed (acts : List Act) (st : Status) : Prop :=
  (NoDelta acts ∧ st ≠ .streamLost) ∨
    ((∃ before rq token data after, OneDelivery acts before rq token data after) ∧
      AfterDelivery st)

namespace Call

/-- What an engine does besides attempts and deliveries. -/
structure Aside (acts : List Act) : Prop where
  quiet : NoDelta acts
  idle : NoAttempt acts

/-- Two parts that are aside. -/
theorem Aside.append {as bs : List Act} (ha : Aside as) (hb : Aside bs) : Aside (as ++ bs) :=
  ⟨ha.quiet.append hb.quiet, ha.idle.append hb.idle⟩

/-- The abort assist is aside. -/
theorem assisted_aside (b : Backend) : Aside (assisted b) := by
  unfold assisted
  cases b.urlAbort <;> constructor <;> simp [NoDelta, NoAttempt, Act.isDelta, Act.isAttempt]

/-- A wait is aside. -/
theorem wait_aside (ms : UInt64) (rc : Int) : Aside [.wait ms rc] := by
  constructor <;> simp [NoDelta, NoAttempt, Act.isDelta, Act.isAttempt]

variable [SizeT] {σ : Type}

variable (k : Call σ)

/-! ## One turn -/

/-- A validation is aside. -/
theorem checked_aside (x : Ran σ) : Aside (k.checked x) := by
  unfold checked
  cases k.validator x <;> constructor <;> simp [NoDelta, NoAttempt, Act.isDelta, Act.isAttempt]

/-- An announcement is aside. -/
theorem told_aside (a : Attempt) : Aside (k.told a) := by
  unfold told
  split_ifs <;> constructor <;> simp [NoDelta, NoAttempt, Act.isDelta, Act.isAttempt]

/-- The state of the engine before an attempt of a call that obeys the rule. -/
structure Uncommitted (s : LoopState k.c) : Prop where
  anyDelivered : s.anyDelivered = false
  trace : NoDelta s.world.trace
  final : s.final = .exhausted

/-- An attempt on a trace without deltas either delivers none or becomes the one that
delivers. -/
theorem attempt_commits {acts rest : List Act} (hacts : NoDelta acts) (rq : HttpRequest)
    (s1 : LoopState k.c) (hrest : Aside rest) {st : Status} (hst : AfterDelivery st)
    (hlost : st ≠ .streamLost) :
    Committed (acts ++ k.handing rq :: (k.given rq s1 ++ rest)) st := by
  by_cases hdelta : ∃ a ∈ k.given rq s1, a.isDelta = true
  · exact .inr ⟨⟨acts, rq, k.cancel.isSome, k.given rq s1, rest, rfl, hacts,
      (k.roundTrip_given rq s1).data, hdelta, hrest.quiet, hrest.idle⟩, hst⟩
  · refine .inl ⟨hacts.append (quiet_attempt rfl ?_ hrest.quiet), hlost⟩
    intro a ha
    by_contra htrue
    exact hdelta ⟨a, ha, by simpa using htrue⟩

/-- What a turn preserves without the flag, and how it may leave. -/
theorem turn_commit (hstream : k.stream = true)
    (hflag : k.c.policy.flags &&& policyRetryAfterDeltas = 0) (s : LoopState k.c)
    (out : LoopState k.c ⊕ LoopState k.c) (hs : k.Uncommitted s) (hturn : k.Turn s out) :
    Sum.elim k.Uncommitted (fun f => Committed f.world.trace f.final) out := by
  cases hturn with
  | cancelled _ =>
      refine .inl ⟨?_, by simp⟩
      exact (k.polled_unchanged s).trace ▸ hs.trace
  | unprepared _ hprep =>
      refine .inl ⟨?_, ?_⟩
      · exact (k.prepared_unchanged hprep).trace ▸ hs.trace
      · rcases k.prepare_refusal hprep with _ | _ <;> simp
  | @unrecorded rq s1 _ hprep hadd =>
      have hunrec := k.unrecorded_spec hprep hadd
      simp only [exit, Sum.elim_inr, hunrec.trace]
      exact k.attempt_commits hs.trace rq s1 (k.checked_aside _) .nomem (by simp)
  | @terminal rq s1 _ hprep hadd hfinal =>
      have htook := took hprep hadd
      simp only [Sum.elim_inr, htook.trace, hfinal, List.append_assoc]
      exact k.attempt_commits hs.trace rq s1 ((k.checked_aside _).append (k.told_aside _)) .nomem
        (by simp)
  | @next rq s1 _ _ hprep hadd hfinal hnext =>
      have htook := took hprep hadd
      generalize k.announced s1 rq = s2 at htook hfinal hnext
      have hexhausted := (htook.final_eq hfinal).trans hs.final
      have htrace := htook.trace
      rw [List.append_assoc] at htrace
      have haside := (k.checked_aside (k.roundTrip rq s1)).append (k.told_aside (k.entry rq s1))
      have hgiven := k.roundTrip_given rq s1
      have hdelivered := htook.anyDelivered
      rw [hs.anyDelivered, Bool.false_or] at hdelivered
      have hcommitted : k.committed s2 = s2.anyDelivered := by simp [committed, hflag]
      have hquiet : k.committed s2 = false → s2.anyDelivered = false ∧ NoDelta s2.world.trace := by
        intro hc
        rw [hcommitted] at hc
        refine ⟨hc, ?_⟩
        rw [htrace]
        refine hs.trace.append (quiet_attempt rfl ?_ haside.quiet)
        intro a ha
        by_contra htrue
        have hsome := hgiven.delivered.mpr ⟨hstream, a, ha, by simpa using htrue⟩
        rw [← hdelivered, hc] at hsome
        cases hsome
      cases hnext with
      | success _ =>
          simp only [exit, Sum.elim_inr, htrace]
          exact k.attempt_commits hs.trace rq s1 haside .ok (by simp)
      | abort _ =>
          simp only [exit, Sum.elim_inr, htrace]
          exact k.attempt_commits hs.trace rq s1 haside .aborted (by simp)
      | cancelled _ =>
          simp only [exit, Sum.elim_inr, koboldAbortAssist_trace, htrace]
          rw [List.append_assoc, List.cons_append, List.append_assoc]
          exact k.attempt_commits hs.trace rq s1 (haside.append (assisted_aside _)) .cancelled
            (by simp)
      | lost _ hc =>
          rw [hcommitted, hdelivered] at hc
          simp only [exit, Sum.elim_inr, htrace]
          exact .inr ⟨⟨_, rq, _, _, _, rfl, hs.trace, hgiven.data, (hgiven.delivered.mp hc).2,
            haside.quiet, haside.idle⟩, .streamLost⟩
      | reroll _ hc _ => exact ⟨(hquiet hc).1, (hquiet hc).2, hexhausted⟩
      | interrupted _ hc _ _ =>
          refine .inl ⟨?_, by simp⟩
          change NoDelta (k.waited _ s2).2.world.trace
          rw [waited_trace]
          exact (hquiet hc).2.append (wait_aside _ _).quiet
      | retry _ hc _ _ =>
          refine ⟨(hquiet hc).1, ?_, hexhausted⟩
          rw [waited_trace]
          exact (hquiet hc).2.append (wait_aside _ _).quiet
      | fallback _ hc _ => exact ⟨(hquiet hc).1, (hquiet hc).2, hexhausted⟩
      | exhausted _ hc _ _ =>
          refine .inl ⟨(hquiet hc).2, ?_⟩
          simp [hexhausted]

end Call

/-! ## Whole calls -/

section Runs

variable [SizeT] {σ : Type}

/-- The streaming commit rule for the end of a call. -/
structure CommitRule (e : Call.ChatEnd σ) : Prop where
  /-- behind a delta there is no further attempt -/
  last : ∀ front d back, e.world.trace = front ++ d :: back → d.isDelta = true → NoAttempt back
  /-- all deltas belong to one attempt, and that attempt is the last one -/
  single : (∃ d ∈ e.world.trace, d.isDelta = true) →
    ∃ before rq token data after, OneDelivery e.world.trace before rq token data after
  /-- a call that delivered a delta ends in one of five ways -/
  status : (∃ d ∈ e.world.trace, d.isDelta = true) →
    ∃ st out w, e = .returned st out w ∧ AfterDelivery st
  /-- a stream is reported lost only if there was a delta -/
  lost : ∀ out w, e = .returned .streamLost out w → ∃ d ∈ e.world.trace, d.isDelta = true

/-- Without a delta the rule holds, unless the stream is called lost. -/
theorem NoDelta.commitRule {e : Call.ChatEnd σ} (h : NoDelta e.world.trace)
    (hlost : ∀ out w, e ≠ .returned .streamLost out w) : CommitRule e := by
  have hnone : ¬ ∃ d ∈ e.world.trace, d.isDelta = true := by
    rintro ⟨d, hd, hdelta⟩
    rw [h d hd] at hdelta
    cases hdelta
  refine ⟨?_, fun hsome => absurd hsome hnone, fun hsome => absurd hsome hnone,
    fun out w he => absurd he (hlost out w)⟩
  intro front d back hsplit hdelta
  exact absurd ⟨d, by rw [hsplit]; simp, hdelta⟩ hnone

/-- A committed call keeps the rule. -/
theorem Committed.commitRule {st : Status} {out : Option Result} {w : World σ}
    (h : Committed w.trace st) : CommitRule (.returned st out w) := by
  rcases h with ⟨hquiet, hlost⟩ | ⟨⟨before, rq, token, data, after, hone⟩, hst⟩
  · refine NoDelta.commitRule hquiet ?_
    rintro out' w' he
    cases he
    exact hlost rfl
  · obtain ⟨d, hd, hdelta⟩ := hone.delivers
    refine ⟨fun front d back hsplit hd => hone.after_delta hsplit hd,
      fun _ => ⟨before, rq, token, data, after, hone⟩, fun _ => ⟨st, out, w, rfl, hst⟩, ?_⟩
    intro out' w' _
    refine ⟨d, ?_, hdelta⟩
    change d ∈ w.trace
    rw [hone.split]
    simp [hd]

/-- Every streaming call of a client without the flag obeys the commit rule. -/
theorem chatStream_commit (Y : Yyjson) (H : Heap σ) (c : Client σ) (req : Option Request)
    (cbs : Option (Callbacks σ)) (cancel : Option (CancelToken σ)) (haveOut : Bool)
    (ordinal : UInt32) (env : σ) (hflag : c.policy.flags &&& policyRetryAfterDeltas = 0) :
    CommitRule (sichaChatStream Y H (some c) req cbs cancel haveOut ordinal ⟨env, []⟩) := by
  rcases chatCommon_ends Y H (some c) req cbs cancel haveOut true ordinal ⟨env, []⟩ with
    hearly | ⟨k, ⟨-, hc, -, -, -, hstream⟩, env', hrun⟩
  · refine NoDelta.commitRule ?_ ?_
    · have hlog := hearly.log
      unfold sichaChatStream
      simp [World.trace, World.acts, hlog, NoDelta]
    · rintro out w he
      unfold sichaChatStream at he
      rw [he] at hearly
      rcases hearly with ⟨hrefusal, _⟩
      cases hrefusal
  · unfold sichaChatStream
    rw [hrun]
    cases Option.some.inj hc
    have hstart : k.Uncommitted (k.start ordinal (resultInit k.c.maxResponseBytes) ⟨env', []⟩) :=
      ⟨rfl, by simp [Call.start, World.trace, World.acts, NoDelta], rfl⟩
    exact Committed.commitRule (k.run_turns (k.turn_commit hstream hflag) hstart)

end Runs

section Plain

attribute [local instance] lp64

/-- A stream of one piece keeps the rule. -/
theorem chatStream_commit_plain : CommitRule (plainChat "hi") :=
  chatStream_commit _ _ _ _ _ _ _ _ _ (by decide)

end Plain

end Sicha
