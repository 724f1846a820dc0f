import Sicha.Client.Within
import Sicha.Lib.Split

/-!
# No new work after a cancel trigger

The token is triggered by anyone, at any moment, and is never reset.  Every chat attempt
has a poll of its own before it, and a poll behind the trigger ends the call.

Main results:

- Theorem {lit}`turn_cancel`: what a turn preserves, and how it may leave.
- Theorem {lit}`chat_cancel`: what a call still does behind the trigger.
-/

namespace Sicha

/-! ## Logs before a poll -/

variable {σ : Type}

/-- The action is a poll or a wait: there the engine looks at the token. -/
def Act.looks : Act → Bool
  | .poll _ | .wait _ _ => true
  | _ => false

/-- A chat attempt handed over behind the trigger. -/
def Entry.late (token : CancelToken σ) (x : Entry σ) : Bool :=
  x.act.isAttempt && token.flag x.pre

/-- A request that is not a chat attempt. -/
def Entry.isAssist (x : Entry σ) : Bool :=
  x.act.isPerform && !x.act.isAttempt

/-- Every chat attempt of the log has a poll of its own before it, one that did not see
the trigger. -/
def OwnPoll (token : CancelToken σ) (log : List (Entry σ)) : Prop :=
  ∀ front x back, log = front ++ x :: back → x.act.isAttempt = true →
    ∃ before p mid, front = before ++ p :: mid ∧ p.act = .poll false ∧
      token.flag p.pre = false ∧ ∀ y ∈ mid, y.act.isAside = true

/-- The log of a call that goes on: every look at the token came before the trigger, and at
most the last attempt was handed over behind it. -/
structure Clear (token : CancelToken σ) (log : List (Entry σ)) (env : σ) : Prop where
  looks : ∀ x ∈ log, x.act.looks = true → token.flag x.pre = false
  polls : OwnPoll token log
  assists : log.countP Entry.isAssist = 0
  once : log.countP (Entry.late token) ≤ 1
  armed : token.flag env = false → log.countP (Entry.late token) = 0
  first : ∀ x back, log = x :: back → x.act = .poll false

/-- A log on which nothing stands is clear. -/
theorem Clear.empty (token : CancelToken σ) (env : σ) : Clear token [] env :=
  ⟨by simp, by simp [OwnPoll], rfl, by simp, fun _ => rfl, by simp⟩

/-- What happens inside an attempt does not look at the token. -/
theorem aside_looks {a : Act} (h : a.isAside = true) : a.looks = false := by
  cases a <;> first | rfl | cases h

/-- What happens inside an attempt is no perform. -/
theorem aside_isPerform {a : Act} (h : a.isAside = true) : a.isPerform = false := by
  cases a <;> first | rfl | cases h

/-- What is no perform is no attempt. -/
theorem isAttempt_isPerform {a : Act} (h : a.isPerform = false) : a.isAttempt = false := by
  cases a <;> first | rfl | cases h

/-- Entries without requests add no attempts and no assists. -/
theorem count_idle (token : CancelToken σ) {log : List (Entry σ)}
    (h : ∀ x ∈ log, x.act.isPerform = false) :
    log.countP (Entry.late token) = 0 ∧ log.countP Entry.isAssist = 0 := by
  constructor <;> rw [List.countP_eq_zero] <;> intro x hx
  · simp [Entry.late, isAttempt_isPerform (h x hx)]
  · simp [Entry.isAssist, h x hx]

/-- A log goes on with entries that are no requests and whose looks came before the
trigger. -/
theorem Clear.extend {token : CancelToken σ} {log more : List (Entry σ)} {v env : σ}
    (h : Clear token log v) (hidle : ∀ x ∈ more, x.act.isPerform = false)
    (hlooks : ∀ x ∈ more, x.act.looks = true → token.flag x.pre = false)
    (hsticky : token.flag v = true → token.flag env = true)
    (hfirst : log = [] → ∀ x back, more = x :: back → x.act = .poll false) :
    Clear token (log ++ more) env := by
  obtain ⟨hlate, hassist⟩ := count_idle token hidle
  refine ⟨?_, ?_, ?_, ?_, ?_, ?_⟩
  · intro x hx
    rcases List.mem_append.mp hx with hx | hx
    · exact h.looks x hx
    · exact hlooks x hx
  · intro front x back hsplit hattempt
    rcases split_append hsplit with ⟨rest, hlog, -⟩ | ⟨rest, -, hmore⟩
    · exact h.polls front x rest hlog hattempt
    · have hno := isAttempt_isPerform (hidle x (by rw [hmore]; simp))
      rw [hattempt] at hno
      cases hno
  · rw [List.countP_append, h.assists, hassist]
  · rw [List.countP_append, hlate]
    exact h.once
  · intro henv
    have hv : token.flag v = false := by
      by_contra htrue
      rw [hsticky (by simpa using htrue)] at henv
      cases henv
    rw [List.countP_append, hlate, h.armed hv]
  · intro x back hsplit
    cases hlog : log with
    | nil =>
        rw [hlog, List.nil_append] at hsplit
        exact hfirst hlog x back hsplit
    | cons y ys =>
        rw [hlog, List.cons_append, List.cons_eq_cons] at hsplit
        rw [← hsplit.1]
        exact h.first y ys hlog

/-- The next chat attempt of a log, right behind its own poll. -/
theorem Clear.attempt {token : CancelToken σ} {log before mid : List (Entry σ)} {p x : Entry σ}
    {v env : σ} (h : Clear token log v) (hlate : log.countP (Entry.late token) = 0)
    (hx : x.act.isAttempt = true) (hown : log = before ++ p :: mid) (hp : p.act = .poll false)
    (hflag : token.flag p.pre = false) (hmid : ∀ y ∈ mid, y.act.isAside = true)
    (hsticky : token.flag x.pre = true → token.flag env = true) :
    Clear token (log ++ [x]) env := by
  have hassist : Entry.isAssist x = false := by simp [Entry.isAssist, hx]
  have hlooks : x.act.looks = false := by
    cases hact : x.act <;> rw [hact] at hx <;> first | rfl | cases hx
  refine ⟨?_, ?_, ?_, ?_, ?_, ?_⟩
  · intro y hy hlook
    rcases List.mem_append.mp hy with hy | hy
    · exact h.looks y hy hlook
    · rw [List.mem_singleton.mp hy, hlooks] at hlook
      cases hlook
  · intro front y back hsplit hattempt
    rcases split_snoc hsplit with ⟨-, -, hfront⟩ | ⟨rest, -, hlog⟩
    · exact ⟨before, p, mid, hfront.trans hown, hp, hflag, hmid⟩
    · exact h.polls front y rest hlog hattempt
  · rw [List.countP_append, h.assists, List.countP_singleton, hassist]
    rfl
  · rw [List.countP_append, hlate, List.countP_singleton]
    split_ifs <;> omega
  · intro henv
    have hpre : token.flag x.pre = false := by
      by_contra htrue
      rw [hsticky (by simpa using htrue)] at henv
      cases henv
    rw [List.countP_append, hlate, List.countP_singleton]
    simp [Entry.late, hpre]
  · intro y back hsplit
    cases hlog : log with
    | nil => rw [hlog] at hown; simp at hown
    | cons z zs =>
        rw [hlog, List.cons_append, List.cons_eq_cons] at hsplit
        rw [← hsplit.1]
        exact h.first z zs hlog

/-- The relation of a token that is never reset. -/
def Sticky (token : CancelToken σ) (s s' : σ) : Prop :=
  token.flag s = true → token.flag s' = true

/-- A poll that came before the trigger. -/
theorem Clear.polled {token : CancelToken σ} {log : List (Entry σ)} {v env : σ}
    (h : Clear token log v) (hv : token.flag v = false) (hsticky : Sticky token v env) :
    Clear token (log ++ [⟨v, .poll false, v⟩]) env := by
  refine h.extend (by simp [Act.isPerform]) (by simpa using fun _ => hv) hsticky ?_
  rintro - x back hcons
  rw [List.cons_eq_cons] at hcons
  rw [← hcons.1]

/-- What a turn adds to the log up to the end of its attempt. -/
theorem Clear.turn {token : CancelToken σ} {v : σ} {log : List (Entry σ)} {before after : World σ}
    {a : Act} {pre post : List (Entry σ)} {h : σ} (hclear : Clear token log v)
    (hv : token.flag v = false) (hbefore : before.log = log ++ [⟨v, .poll false, v⟩])
    (hprep : Sticky token v before.env)
    (hattempt : Call.AttemptLog (Sticky token) before a after pre h post) (ha : a.isAttempt = true) :
    Clear token after.log after.env := by
  have hpolled : Clear token (log ++ ⟨v, .poll false, v⟩ :: pre) h := by
    refine hclear.extend ?_ ?_ (fun hflag => hattempt.start (hprep hflag)) ?_
    · intro x hx
      rcases List.mem_cons.mp hx with rfl | hx
      · rfl
      · exact aside_isPerform (hattempt.pre_aside x hx)
    · intro x hx hlook
      rcases List.mem_cons.mp hx with rfl | hx
      · exact hv
      · rw [aside_looks (hattempt.pre_aside x hx)] at hlook
        cases hlook
    · rintro - x back hcons
      rw [List.cons_eq_cons] at hcons
      rw [← hcons.1]
  have hlate : (log ++ ⟨v, .poll false, v⟩ :: pre).countP (Entry.late token) = 0 := by
    rw [List.countP_append, hclear.armed hv, List.countP_cons, (count_idle token fun x hx =>
      aside_isPerform (hattempt.pre_aside x hx)).1]
    rfl
  have hhanded : Clear token ((log ++ ⟨v, .poll false, v⟩ :: pre) ++ [⟨h, a, h⟩]) h :=
    hpolled.attempt hlate ha rfl rfl hv hattempt.pre_aside id
  have hend := hhanded.extend (fun x hx => aside_isPerform (hattempt.post_aside x hx))
    (fun x hx hlook => by rw [aside_looks (hattempt.post_aside x hx)] at hlook; cases hlook)
    hattempt.finish (fun hnil => by simp at hnil)
  rw [hattempt.log, hbefore]
  simpa only [List.append_assoc, List.cons_append, List.nil_append] using hend

/-! ## What a call does behind the trigger -/

/-- What holds of a call whose token may be triggered at any moment. -/
structure NoNewWork (token : CancelToken σ) (log : List (Entry σ)) (status : Option Status)
    (records : List Attempt) (backend : Int32) : Prop where
  /-- every chat attempt has a poll of its own, and that poll came before the trigger -/
  polls : OwnPoll token log
  /-- a poll behind the trigger, or a wait entered behind it, ends the call -/
  looks : ∀ front x back, log = front ++ x :: back → x.act.looks = true →
    token.flag x.pre = true → back = [] ∧ status = some .cancelled
  /-- at most one chat attempt, already past its poll, is handed over behind the trigger -/
  once : log.countP (Entry.late token) ≤ 1
  /-- besides chat attempts there is at most one request -/
  assists : log.countP Entry.isAssist ≤ 1
  /-- the trigger before the first poll -/
  precancelled : ∀ x back, log = x :: back → token.flag x.pre = true →
    back = [] ∧ x.act = .poll true ∧ status = some .cancelled ∧ records = [] ∧ backend = -1

/-- A call that goes on can end with a tail that makes no chat attempt, whose only look at
the token, if it came behind the trigger, is its last entry. -/
theorem Clear.ends {token : CancelToken σ} {log tail : List (Entry σ)} {env : σ}
    {status : Option Status} {records : List Attempt} {backend : Int32} (h : Clear token log env)
    (hidle : ∀ x ∈ tail, x.act.isAttempt = false) (hassist : tail.countP Entry.isAssist ≤ 1)
    (hlooks : ∀ front x back, tail = front ++ x :: back → x.act.looks = true →
      token.flag x.pre = true → back = [] ∧ status = some .cancelled)
    (hfirst : log = [] → ∀ x back, tail = x :: back → token.flag x.pre = true →
      back = [] ∧ x.act = .poll true ∧ status = some .cancelled ∧ records = [] ∧ backend = -1) :
    NoNewWork token (log ++ tail) status records backend := by
  have hlate : tail.countP (Entry.late token) = 0 := by
    rw [List.countP_eq_zero]
    intro x hx
    simp [Entry.late, hidle x hx]
  refine ⟨?_, ?_, ?_, ?_, ?_⟩
  · intro front x back hsplit hattempt
    rcases split_append hsplit with ⟨rest, hlog, -⟩ | ⟨rest, -, htail⟩
    · exact h.polls front x rest hlog hattempt
    · have hno := hidle x (by rw [htail]; simp)
      rw [hattempt] at hno
      cases hno
  · intro front x back hsplit hlook hflag
    rcases split_append hsplit with ⟨rest, hlog, -⟩ | ⟨rest, -, htail⟩
    · rw [h.looks x (by rw [hlog]; simp) hlook] at hflag
      cases hflag
    · exact hlooks rest x back htail hlook hflag
  · rw [List.countP_append, hlate]
    exact h.once
  · rw [List.countP_append, h.assists, Nat.zero_add]
    exact hassist
  · intro x back hsplit hflag
    cases hlog : log with
    | nil =>
        rw [hlog, List.nil_append] at hsplit
        exact hfirst hlog x back hsplit hflag
    | cons y ys =>
        rw [hlog, List.cons_append, List.cons_eq_cons] at hsplit
        have hpoll := h.first y ys hlog
        have hclear := h.looks y (by rw [hlog]; simp) (by rw [hpoll]; rfl)
        rw [hsplit.1, hflag] at hclear
        cases hclear

/-- A call may end where it stands. -/
theorem Clear.stops {token : CancelToken σ} {log : List (Entry σ)} {env : σ}
    {status : Option Status} {records : List Attempt} {backend : Int32} (h : Clear token log env) :
    NoNewWork token log status records backend := by
  have hend := @Clear.ends _ token log [] env status records backend h (by simp) (by simp) (by simp)
    (by simp)
  rwa [List.append_nil] at hend

section Runs

variable [SizeT]

namespace Call

/-! ## One turn -/

variable (k : Call σ)

/-- A call with a token that is never reset, and with waits that report a trigger. -/
structure Cancellable (token : CancelToken σ) : Prop where
  cancel : k.cancel = some token
  within : k.Within (Sticky token)
  waits : ∀ ms s, token.flag (k.c.clock.waitMs (some token) ms s).2 = true →
    (k.c.clock.waitMs (some token) ms s).1 ≠ 0

/-- The state of the engine before a poll. -/
structure Untriggered (token : CancelToken σ) (s : LoopState k.c) : Prop where
  clear : Clear token s.world.log s.world.env
  fresh : s.world.log = [] → s.r.attempts = [] ∧ s.r.backend = -1

variable {k}

/-- A poll logs the flag that it finds. -/
theorem poll_log {token : CancelToken σ} (hk : k.Cancellable token) (s : LoopState k.c) :
    (k.poll s.world).1 = token.flag s.world.env ∧ (k.polled s).world.env = s.world.env ∧
      (k.polled s).world.log = s.world.log ++
        [⟨s.world.env, .poll (token.flag s.world.env), s.world.env⟩] := by
  unfold polled poll
  rw [hk.cancel]
  exact ⟨rfl, rfl, rfl⟩

/-- The log of a turn that prepared its request. -/
theorem prepared_log {token : CancelToken σ} (hk : k.Cancellable token) {s s1 : LoopState k.c}
    {out : Except Status HttpRequest} (hpoll : (k.poll s.world).1 = false)
    (hprep : k.prepare (k.polled s) = (out, s1)) :
    token.flag s.world.env = false ∧
      s1.world.log = s.world.log ++ [⟨s.world.env, .poll false, s.world.env⟩] ∧
      Sticky token s.world.env s1.world.env := by
  obtain ⟨hanswer, henv, hlog⟩ := poll_log hk s
  obtain ⟨bodies, headers, env, hs1⟩ := (k.prepare_spec (k.polled s)).1
  have hsticky := prepare_within hk.within (k.polled s)
  rw [hprep] at hs1 hsticky
  rw [hanswer] at hpoll
  rw [henv] at hsticky
  rw [hpoll] at hlog
  refine ⟨hpoll, ?_, hsticky⟩
  dsimp only at hs1
  rw [hs1]
  exact hlog

/-- The log of a wait. -/
theorem wait_log {token : CancelToken σ} (hk : k.Cancellable token) (retryAfter : UInt64)
    (s : LoopState k.c) :
    ∃ ms, (k.waited retryAfter s).2.world.log = s.world.log ++
        [⟨s.world.env, .wait ms (k.waited retryAfter s).1,
          (k.waited retryAfter s).2.world.env⟩] ∧
      Sticky token s.world.env (k.waited retryAfter s).2.world.env ∧
      (token.flag (k.waited retryAfter s).2.world.env = true →
        (k.waited retryAfter s).1 ≠ 0) := by
  refine ⟨_, World.act_log _ _ _, hk.within.wait _ _ _, ?_⟩
  unfold waited
  rw [hk.cancel]
  exact hk.waits _ _

variable (k)

/-- What a turn preserves, and how it may leave. -/
theorem turn_cancel {token : CancelToken σ} (hk : k.Cancellable token) (s : LoopState k.c)
    (out : LoopState k.c ⊕ LoopState k.c) (hs : k.Untriggered token s) (hturn : k.Turn s out) :
    Sum.elim (k.Untriggered token)
      (fun f => NoNewWork token f.world.log (some f.final) f.r.attempts f.r.backend) out := by
  cases hturn with
  | cancelled hpoll =>
      obtain ⟨hanswer, henv, hlog⟩ := poll_log hk s
      rw [hanswer] at hpoll
      rw [hpoll] at hlog
      change NoNewWork token (k.polled s).world.log (some .cancelled) s.r.attempts s.r.backend
      rw [hlog]
      refine hs.clear.ends (by simp [Act.isAttempt]) (by simp [Entry.isAssist, Act.isPerform])
        ?_ ?_
      · intro front x back hsplit _ _
        exact ⟨(split_singleton hsplit).2.2, rfl⟩
      · intro hnil x back hcons _
        rw [List.cons_eq_cons] at hcons
        obtain ⟨hrecords, hbackend⟩ := hs.fresh hnil
        exact ⟨hcons.2.symm, by rw [← hcons.1], rfl, hrecords, hbackend⟩
  | @unprepared st s1 hpoll hprep =>
      obtain ⟨hv, hlog, hsticky⟩ := prepared_log hk hpoll hprep
      change NoNewWork token s1.world.log (some st) s1.r.attempts s1.r.backend
      rw [hlog]
      exact (hs.clear.polled hv hsticky).stops
  | @unrecorded rq s1 hpoll hprep hadd =>
      obtain ⟨hv, hlog, hsticky⟩ := prepared_log hk hpoll hprep
      obtain ⟨pre, h, post, hattempt⟩ := attempt_log hk.within (recorded_within hk.within rq s1)
      exact (hs.clear.turn hv hlog hsticky hattempt rfl).stops
  | @terminal rq s1 hpoll hprep hadd hfinal =>
      obtain ⟨hv, hlog, hsticky⟩ := prepared_log hk hpoll hprep
      obtain ⟨pre, h, post, hattempt⟩ := attempt_log hk.within (announced_within hk.within rq s1)
      exact (hs.clear.turn hv hlog hsticky hattempt rfl).stops
  | @next rq s1 _ hpoll hprep hadd hfinal hnext =>
      obtain ⟨hv, hlog, hsticky⟩ := prepared_log hk hpoll hprep
      obtain ⟨pre, h, post, hattempt⟩ := attempt_log hk.within (announced_within hk.within rq s1)
      have hclear := hs.clear.turn hv hlog hsticky hattempt rfl
      have hne : (k.announced s1 rq).world.log ≠ [] := by
        rw [hattempt.log]
        simp
      generalize k.announced s1 rq = s2 at hclear hne hnext
      cases hnext with
      | success _ => exact hclear.stops
      | abort _ => exact hclear.stops
      | lost _ _ => exact hclear.stops
      | exhausted _ _ _ _ => exact hclear.stops
      | cancelled _ =>
          change NoNewWork token (k.koboldAbortAssist (k.backend s2) s2.world).log _ _ _
          rcases assist_log hk.within (k.backend s2) s2.world with
            hsame | ⟨pre, env, url, hlog, haside⟩
          · rw [hsame]
            exact hclear.stops
          · have hidle := fun x hx => aside_isPerform (haside x hx)
            rw [hlog]
            refine hclear.ends ?_ ?_ ?_ fun hnil => absurd hnil hne
            · intro x hx
              rcases List.mem_append.mp hx with hx | hx
              · exact isAttempt_isPerform (hidle x hx)
              · rw [List.mem_singleton.mp hx]
                rfl
            · rw [List.countP_append, (count_idle token hidle).2]
              simp [Entry.isAssist, Act.isPerform, Act.isAttempt]
            · intro front x back hsplit hlook _
              have hmem : x ∈ pre ++ [⟨env, .perform (assistRequest (k.backend s2) url) false false,
                  env⟩] := by
                rw [hsplit]
                simp
              rcases List.mem_append.mp hmem with hx | hx
              · rw [aside_looks (haside x hx)] at hlook
                cases hlook
              · rw [List.mem_singleton.mp hx] at hlook
                cases hlook
      | reroll _ _ _ => exact ⟨hclear, fun hnil => absurd hnil hne⟩
      | fallback _ _ _ => exact ⟨hclear, fun hnil => absurd hnil hne⟩
      | interrupted _ _ _ _ =>
          obtain ⟨ms, hwait, -, -⟩ := wait_log hk (k.roundTrip rq s1).o.retryAfterMs s2
          change NoNewWork token (k.waited _ s2).2.world.log _ _ _
          rw [hwait]
          refine hclear.ends (by simp [Act.isAttempt]) (by simp [Entry.isAssist, Act.isPerform])
            ?_ fun hnil => absurd hnil hne
          intro front x back hsplit _ _
          exact ⟨(split_singleton hsplit).2.2, rfl⟩
      | retry _ _ _ hrc =>
          obtain ⟨ms, hwait, hsticky, hreport⟩ :=
            wait_log hk (k.roundTrip rq s1).o.retryAfterMs s2
          have hflag : token.flag s2.world.env = false := by
            by_contra htrue
            exact hreport (hsticky (by simpa using htrue)) hrc
          refine ⟨?_, ?_⟩
          · rw [hwait]
            exact hclear.extend (by simp [Act.isPerform]) (by simpa using fun _ => hflag) hsticky
              fun hnil => absurd hnil hne
          · intro hnil
            rw [hwait] at hnil
            simp at hnil

end Call

/-- What a call does behind the trigger, whenever it comes.  The token is never reset, and
a wait during which it is triggered, or before which it was, reports it. -/
theorem chat_cancel (Y : Yyjson) (H : Heap σ) (c : Client σ) (req : Option Request)
    (cbs : Option (Callbacks σ)) (token : CancelToken σ) (haveOut stream : Bool)
    (ordinal : UInt32) (env : σ) (hparties : Parties H c cbs (Sticky token))
    (hwaits : ∀ ms s, token.flag (c.clock.waitMs (some token) ms s).2 = true →
      (c.clock.waitMs (some token) ms s).1 ≠ 0) :
    let e := chatCommon Y H (some c) req cbs (some token) haveOut stream ordinal ⟨env, []⟩
    NoNewWork token e.world.log e.status e.records e.backend := by
  intro e
  rcases chatCommon_ends Y H (some c) req cbs (some token) haveOut stream ordinal ⟨env, []⟩ with
    hearly | ⟨k, ⟨rfl, hc, -, rfl, hcancel, -⟩, env', hrun⟩
  · have hlog : e.world.log = [] := hearly.log
    rw [hlog]
    exact (Clear.empty token env).stops
  · cases Option.some.inj hc
    have hk : k.Cancellable token := ⟨hcancel, hparties, hwaits⟩
    have hstart : k.Untriggered token
        (k.start ordinal (resultInit k.c.maxResponseBytes) ⟨env', []⟩) :=
      ⟨Clear.empty token env', fun _ => ⟨rfl, rfl⟩⟩
    have hend := k.run_turns (k.turn_cancel hk) hstart
    have he : e = k.handOut (k.attemptLoop.run (k.start ordinal (resultInit k.c.maxResponseBytes)
        ⟨env', []⟩)) := hrun
    rw [he]
    exact hend

end Runs

section Plain

attribute [local instance] lp64

/-- A call whose token is triggered with the first record. -/
theorem chat_cancel_plain :
    let e := chatCommon (plainYyjson [] .null) Heap.plentiful
      (some (plainClient 1 1048576 (by decide) busyTransport)) (some plainRequest)
      (some triggering) (some ⟨id⟩) true true 0 ⟨false, []⟩
    NoNewWork ⟨id⟩ e.world.log e.status e.records e.backend := by
  refine chat_cancel _ _ _ _ _ _ _ _ _ _ ?_ ?_
  · refine ⟨fun _ h => h, fun _ _ _ h h' h'' => h' (h h''), fun _ _ h => h, fun _ h => h,
      fun _ _ _ h => h, ?_, ?_, ?_, ?_, ?_⟩
    · rintro rq (_ | _) token s
      · exact fun h => h
      · refine ⟨fun h => h, fun rc s' => ?_⟩
        change Dialogue.Moves _ (if rc = 0 then feedChunks [] s' else _) s'
        split_ifs <;> exact fun h => h
    · rintro (_ | _) f hf bytes s <;> cases hf <;> exact fun h => h
    · rintro f hf bytes s
      cases hf
      exact fun h => h
    · rintro f hf r s
      cases hf
      exact fun h => h
    · rintro f hf a s
      cases hf
      exact fun _ => rfl
  · rintro ms (_ | _) h
    · cases h
    · change (1 : Int) ≠ 0
      decide

end Plain

end Sicha
