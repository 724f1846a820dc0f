import Sicha.Transport.Script

/-!
# The timeline of the scripted transport

A perform of the scripted transport on a virtual clock: when each phase ends, how the call ends,
and what the sink is given at which instant.

Main results:

- Definition {lit}`timeline`: the instants of a perform, with natural numbers for time.
- Theorem {lit}`delayWithin_phase`: a wait ends as its phase does.
- Theorem {lit}`script_timeline`: a perform follows its timeline, and terminates.
-/

namespace Sicha

/-! ## Phases -/

/-- The last instant; it stands for a deadline that never comes. -/
def lastMs : Nat := 2 ^ 64 - 1

/-- The instant of a deadline; {lit}`none` without a budget. -/
def deadlineAt (start : Nat) (budgetMs : UInt32) : Option Nat :=
  if budgetMs = disabled then none else some (start + budgetMs.toNat)

/-- A deadline is at or before an instant. -/
def reachedBy (deadline : Option Nat) (t : Nat) : Bool :=
  deadline.any fun d => d ≤ t

/-- The earlier of a deadline and an instant. -/
def cutBy (deadline : Option Nat) (t : Nat) : Nat :=
  deadline.elim t fun d => min d t

/-- A phase ends at the earliest of its completion, its own deadline and the total one, or at once
if one of these has passed. -/
def phaseStop (now delay : Nat) (own total : Option Nat) : Nat :=
  max now (cutBy total (cutBy own (now + delay)))

/-- The timeout with which a phase ends the call.  Its own deadline wins over the total one, and
either wins over completion. -/
def phaseTimeout (own : Option Nat) (timeout : TransportStatus) (total : Option Nat) (stop : Nat) :
    Option TransportStatus :=
  if reachedBy own stop then some timeout
  else if reachedBy total stop then some .timeoutTotal
  else none

/-! ## Timelines -/

/-- What a perform does: its calls of the sink with their instants, its status, and when it
returns. -/
structure Timeline where
  calls : List (Nat × SinkCall)
  status : TransportStatus
  stop : Nat

/-- A phase, and what follows if no deadline ends the call. -/
def Timeline.phase (now delay : Nat) (own : Option Nat) (timeout : TransportStatus)
    (total : Option Nat) (next : Nat → Timeline) : Timeline :=
  let stop := phaseStop now delay own total
  match phaseTimeout own timeout total stop with
  | some st => ⟨[], st, stop⟩
  | none => next stop

/-- A call of the sink at an instant, and what follows. -/
def Timeline.call (q : SinkCall) (t : Nat) (next : Timeline) : Timeline :=
  { next with calls := (t, q) :: next.calls }

/-- The timeline of the body.  {lit}`lags` says how long the calls of the sink take. -/
def bodyTimeline (rq : HttpRequest) (resp : ScriptResponse) (total : Option Nat) :
    List Bytes → List Nat → Nat → Timeline
  | [], _, now => ⟨[], resp.status, now⟩
  | piece :: pieces, lags, now =>
      .phase now resp.perChunkDelayMs.toNat (deadlineAt now rq.timeouts.idleMs) .timeoutIdle total
        fun t => .call (.body piece) t
          (bodyTimeline rq resp total pieces lags.tail (t + lags.headD 0))

/-- The timeline behind the connect phase. -/
def respondTimeline (rq : HttpRequest) (resp : ScriptResponse) (total : Option Nat) (start : Nat)
    (lags : List Nat) (now : Nat) : Timeline :=
  .phase now resp.firstByteDelayMs.toNat (deadlineAt start rq.timeouts.firstByteMs)
    .timeoutFirstByte total fun t =>
      .call (.status resp.httpStatus (resp.headers.map Header.ref)) t
        (bodyTimeline rq resp total resp.pieces lags.tail (t + lags.headD 0))

/-- The timeline of a perform. -/
def timeline (rq : HttpRequest) (resp : ScriptResponse) (lags : List Nat) (start : Nat) :
    Timeline :=
  let total := deadlineAt start rq.timeouts.totalMs
  .phase start resp.connectDelayMs.toNat (deadlineAt start rq.timeouts.connectMs) .timeoutConnect
    total fun t =>
      if resp.status ≠ .ok ∧ resp.failAfterBytes = 0 then ⟨[], resp.status, t⟩
      else respondTimeline rq resp total start lags t

/-! ## Calls -/

/-- A phase calls nothing of its own. -/
theorem phase_calls {now delay : Nat} {own total : Option Nat} {timeout : TransportStatus}
    {next : Nat → Timeline} {calls : List SinkCall}
    (hnext : ∀ t, (next t).calls.map Prod.snd <+: calls) :
    (Timeline.phase now delay own timeout total next).calls.map Prod.snd <+: calls := by
  unfold Timeline.phase
  dsimp only
  split
  · exact List.nil_prefix
  · exact hnext _

/-- The body calls a prefix of its pieces. -/
theorem bodyTimeline_calls (rq : HttpRequest) (resp : ScriptResponse) (total : Option Nat)
    (pieces : List Bytes) (lags : List Nat) (now : Nat) :
    (bodyTimeline rq resp total pieces lags now).calls.map Prod.snd <+:
      pieces.map SinkCall.body := by
  induction pieces generalizing lags now with
  | nil => exact List.nil_prefix
  | cons piece pieces ih =>
      exact phase_calls fun t => (List.prefix_cons_inj _).mpr (ih _ _)

/-- {lit}`on_status` comes first and once, and then the pieces of the body in order. -/
theorem timeline_calls (rq : HttpRequest) (resp : ScriptResponse) (lags : List Nat) (start : Nat) :
    (timeline rq resp lags start).calls.map Prod.snd <+:
      .status resp.httpStatus (resp.headers.map Header.ref) :: resp.pieces.map SinkCall.body := by
  refine phase_calls fun t => ?_
  split_ifs
  · exact List.nil_prefix
  · exact phase_calls fun t => (List.prefix_cons_inj _).mpr (bodyTimeline_calls _ _ _ _ _ _)

/-- Pieces of a size; the last one may be shorter, and size 0 is one piece. -/
structure CutInto (size : Nat) (bytes : Bytes) (pieces : List Bytes) : Prop where
  whole : pieces.flatten = bytes
  each : ∀ piece ∈ pieces, piece ≠ [] ∧ (size ≠ 0 → piece.length ≤ size)
  inner : ∀ piece ∈ pieces.dropLast, piece.length = size
  one : size = 0 → pieces.length ≤ 1

/-- Pieces behind a first one of the right size, or none behind a shorter one. -/
theorem CutInto.cons {size n : Nat} {bytes : Bytes} {pieces : List Bytes} (hpos : 0 < n)
    (hle : n ≤ bytes.length) (hsize : size ≠ 0 → n ≤ size) (hfull : n < bytes.length → n = size)
    (hall : size = 0 → n = bytes.length) (h : CutInto size (bytes.drop n) pieces) :
    CutInto size bytes (bytes.take n :: pieces) := by
  have htake : (bytes.take n).length = n := List.length_take_of_le hle
  have hmore : pieces ≠ [] → n < bytes.length := by
    intro hne
    obtain ⟨piece, hmem⟩ := List.exists_mem_of_ne_nil pieces hne
    obtain ⟨hpiece, -⟩ := h.each piece hmem
    by_contra hnot
    rw [List.drop_eq_nil_of_le (by omega)] at h
    exact hpiece (List.flatten_eq_nil_iff.mp h.whole piece hmem)
  refine ⟨?_, ?_, ?_, fun hzero => ?_⟩
  · rw [List.flatten_cons, h.whole, List.take_append_drop]
  · intro piece hmem
    rcases List.mem_cons.mp hmem with rfl | hmem
    · refine ⟨?_, fun hne => htake.trans_le (hsize hne)⟩
      rw [← List.length_pos_iff, htake]
      exact hpos
    · exact h.each piece hmem
  · intro piece hmem
    by_cases hne : pieces = []
    · subst hne
      cases hmem
    · rw [List.dropLast_cons_of_ne_nil hne] at hmem
      rcases List.mem_cons.mp hmem with rfl | hmem
      · rw [htake, hfull (hmore hne)]
      · exact h.inner piece hmem
  · have hnone : pieces = [] := by
      by_contra hne
      exact absurd (hmore hne) (by rw [hall hzero]; exact lt_irrefl _)
    rw [hnone]
    rfl

/-- With rounds enough, the pieces are the body cut at the size. -/
theorem bodyPieces_cut (size rounds : Nat) (bytes : Bytes) (h : bytes.length ≤ rounds) :
    CutInto size bytes (bodyPieces size rounds bytes) := by
  induction rounds generalizing bytes with
  | zero =>
      obtain rfl := List.eq_nil_of_length_eq_zero (Nat.le_zero.mp h)
      exact ⟨rfl, nofun, nofun, fun _ => Nat.zero_le 1⟩
  | succ rounds ih =>
      cases bytes with
      | nil => exact ⟨rfl, nofun, nofun, fun _ => Nat.zero_le 1⟩
      | cons b bytes =>
          have hlen : 0 < (b :: bytes).length := Nat.succ_pos _
          refine CutInto.cons ?_ ?_ ?_ ?_ ?_ (ih _ ?_)
          · split_ifs <;> omega
          · split_ifs <;> omega
          · intro hne
            rw [if_neg hne]
            exact min_le_left _ _
          · split_ifs <;> omega
          · intro hzero
            rw [if_pos hzero]
          · rw [List.length_drop]
            split_ifs <;> omega

/-- The pieces of a response. -/
theorem pieces_cut (resp : ScriptResponse) : CutInto resp.chunkSize resp.delivered resp.pieces :=
  bodyPieces_cut _ _ _ le_rfl

/-- What is delivered is a prefix of the body. -/
theorem delivered_prefix (resp : ScriptResponse) : resp.delivered <+: resp.body := by
  unfold ScriptResponse.delivered
  split_ifs
  · exact List.take_prefix _ _
  · exact List.prefix_refl _

/-! ## The clock -/

section Perform

variable {σ : Type}

/-- A virtual clock without cancellation: a wait advances it by exactly the time given.
{lit}`calm` may say more of the environment. -/
structure Clock.Exact (ck : Clock σ) (cancel : Option (CancelToken σ)) (time : σ → UInt64)
    (calm : σ → Prop) : Prop where
  reads : ∀ s, calm s →
    (ck.nowMs s).1 = time s ∧ time (ck.nowMs s).2 = time s ∧ calm (ck.nowMs s).2
  waits : ∀ ms s, calm s →
    (ck.waitMs cancel ms s).1 = 0 ∧ time (ck.waitMs cancel ms s).2 = time s + ms ∧
      calm (ck.waitMs cancel ms s).2
  quiet : ∀ s, calm s → cancelledNow cancel s = false

/-- The rounds that a wait of this length needs at most. -/
def waitRounds (ms : Nat) : Nat :=
  (ms + 99) / 100 + 1

/-- The earlier of two times. -/
theorem earlier_toNat (a b : UInt64) : (if a < b then a else b).toNat = min a.toNat b.toNat := by
  split_ifs with h <;> rw [UInt64.lt_iff_toNat_lt] at h <;> omega

/-- The next round of a wait, of 100 ms at most. -/
theorem chunk_toNat {until_ now : UInt64} (h : now.toNat ≤ until_.toNat) :
    (if until_ - now > 100 then 100 else until_ - now).toNat =
      min 100 (until_.toNat - now.toNat) := by
  have hsub : (until_ - now).toNat = until_.toNat - now.toNat :=
    UInt64.toNat_sub_of_le _ _ (UInt64.le_iff_toNat_le.mpr h)
  have hchunk : (100 : UInt64).toNat = 100 := rfl
  split_ifs with hlong <;> rw [gt_iff_lt, UInt64.lt_iff_toNat_lt, hsub, hchunk] at hlong
  · omega
  · omega

/-- Fuel for every wait of a response. -/
def scriptFuel (resp : ScriptResponse) : Nat :=
  max (waitRounds resp.connectDelayMs.toNat)
    (max (waitRounds resp.firstByteDelayMs.toNat) (waitRounds resp.perChunkDelayMs.toNat))

/-- A round ends the wait at a deadline or at its target, and otherwise waits for the rest, but
for 100 ms at most. -/
theorem delayRound_cases (now target : UInt64) (a b : Deadline) :
    (a.at_.toNat ≤ now.toNat ∧ delayRound now target a b = .inl a.status) ∨
      (now.toNat < a.at_.toNat ∧ b.at_.toNat ≤ now.toNat ∧
        delayRound now target a b = .inl b.status) ∨
      (now.toNat < a.at_.toNat ∧ now.toNat < b.at_.toNat ∧ target.toNat ≤ now.toNat ∧
        delayRound now target a b = .inl .ok) ∨
      (now.toNat < a.at_.toNat ∧ now.toNat < b.at_.toNat ∧ now.toNat < target.toNat ∧
        ∃ ms, delayRound now target a b = .inr ms ∧
          ms.toNat = min 100 (min target.toNat (min a.at_.toNat b.at_.toNat) - now.toNat)) := by
  unfold delayRound
  simp only [ge_iff_le, UInt64.le_iff_toNat_le]
  rcases Nat.lt_or_ge now.toNat a.at_.toNat with ha | ha
  case inr => exact .inl ⟨ha, if_pos ha⟩
  rcases Nat.lt_or_ge now.toNat b.at_.toNat with hb | hb
  case inr => exact .inr (.inl ⟨ha, hb, by rw [if_neg (by omega), if_pos hb]⟩)
  rcases Nat.lt_or_ge now.toNat target.toNat with htarget | htarget
  case inr =>
    exact .inr (.inr (.inl ⟨ha, hb, htarget, by
      rw [if_neg (by omega), if_neg (by omega), if_pos htarget]⟩))
  refine .inr (.inr (.inr ⟨ha, hb, htarget, _, by
    rw [if_neg (by omega), if_neg (by omega), if_neg (by omega)], ?_⟩))
  rw [chunk_toNat (by rw [earlier_toNat, earlier_toNat]; omega), earlier_toNat, earlier_toNat]
  omega

variable {ck : Clock σ} {cancel : Option (CancelToken σ)} {time : σ → UInt64} {calm : σ → Prop}

/-- One wait of a round: it brings the clock nearer to the stop, and uses up a round. -/
theorem waitRounds_step {stop now ms fuel : Nat} (hlt : now < stop)
    (hms : ms = min 100 (stop - now)) (hfuel : waitRounds (stop - now) ≤ fuel + 1) :
    now + ms ≤ stop ∧ waitRounds (stop - (now + ms)) ≤ fuel := by
  unfold waitRounds at hfuel ⊢
  omega

/-- The earliest of a target and two deadlines. -/
def earliestOf (target : UInt64) (a b : Deadline) : Nat :=
  min target.toNat (min a.at_.toNat b.at_.toNat)

/-- The earliest of three times is none later than another. -/
theorem earliestOf_le (target : UInt64) (a b : Deadline) :
    earliestOf target a b ≤ target.toNat ∧ earliestOf target a b ≤ a.at_.toNat ∧
      earliestOf target a b ≤ b.at_.toNat :=
  ⟨min_le_left _ _, (min_le_right _ _).trans (min_le_left _ _),
    (min_le_right _ _).trans (min_le_right _ _)⟩

/-- The loop of {lit}`delay_within` stops at the earliest of its target and the deadlines, or at
once if one of them has passed. -/
theorem delayLoop_exact (hck : ck.Exact cancel time calm) (target : UInt64) (a b : Deadline)
    (fuel : Nat) {s : σ} (hs : calm s) (htarget : (time s).toNat ≤ target.toNat)
    (hfuel : waitRounds (earliestOf target a b - (time s).toNat) ≤ fuel) :
    let stop := max (time s).toNat (earliestOf target a b)
    ∃ s', delayLoop ck cancel target a b fuel s =
        (some (if a.at_.toNat ≤ stop then a.status
          else if b.at_.toNat ≤ stop then b.status else .ok), s') ∧
      (time s').toNat = stop ∧ calm s' := by
  obtain ⟨hleTarget, hleA, hleB⟩ := earliestOf_le target a b
  induction fuel generalizing s with
  | zero => exact absurd hfuel (by simp [waitRounds])
  | succ fuel ih =>
      obtain ⟨hnow, htime, hcalm⟩ := hck.reads s hs
      have hquiet := hck.quiet _ hcalm
      simp only [delayLoop, hquiet, hnow, Bool.false_eq_true, if_false]
      rcases delayRound_cases (time s) target a b with
        ⟨ha, hround⟩ | ⟨ha, hb, hround⟩ | ⟨ha, hb, hdone, hround⟩ | ⟨ha, hb, hmore, ms, hround, hms⟩
      · rw [hround, max_eq_left (hleA.trans ha), if_pos ha]
        exact ⟨_, rfl, by rw [htime], hcalm⟩
      · rw [hround, max_eq_left (hleB.trans hb), if_neg ha.not_ge, if_pos hb]
        exact ⟨_, rfl, by rw [htime], hcalm⟩
      · rw [hround, max_eq_left (hleTarget.trans hdone), if_neg ha.not_ge, if_neg hb.not_ge]
        exact ⟨_, rfl, by rw [htime], hcalm⟩
      · rw [hround]
        obtain ⟨hrc, hlater, hcalm'⟩ := hck.waits ms _ hcalm
        have hlt : (time s).toNat < earliestOf target a b := lt_min hmore (lt_min ha hb)
        obtain ⟨hle, hrounds⟩ := waitRounds_step hlt hms hfuel
        have hsum : (time (ck.waitMs cancel ms (ck.nowMs s).2).2).toNat =
            (time s).toNat + ms.toNat := by
          have hbound := target.toNat_lt
          rw [hlater, htime, UInt64.toNat_add, Nat.mod_eq_of_lt (by omega)]
        obtain ⟨s', hloop, hstop, hend⟩ := ih hcalm' (by rw [hsum]; exact hle.trans hleTarget)
          (by rw [hsum]; exact hrounds)
        rw [max_eq_right (by rw [hsum]; exact hle)] at hloop hstop
        simp only [hrc, ne_eq, not_true_eq_false, if_false, max_eq_right hlt.le]
        exact ⟨s', hloop, hstop, hend⟩

/-- A deadline of the code is at an instant, or at the last one. -/
structure Deadline.Shows (d : Deadline) (deadline : Option Nat) (timeout : TransportStatus) :
    Prop where
  at_ : d.at_.toNat = min (deadline.getD lastMs) lastMs
  status : d.status = timeout

/-- An absolute deadline shows the plain one. -/
theorem absDeadline_shows (start : UInt64) (budgetMs : UInt32) (timeout : TransportStatus) :
    (Deadline.mk (absDeadline start budgetMs) timeout).Shows (deadlineAt start.toNat budgetMs)
      timeout := by
  refine ⟨?_, rfl⟩
  unfold absDeadline deadlineAt
  split_ifs
  · rfl
  · rw [addSat_toNat, UInt32.toNat_toUInt64]
    rfl

/-- A deadline has been reached before the last instant. -/
theorem Deadline.Shows.reached {d : Deadline} {deadline : Option Nat} {timeout : TransportStatus}
    (h : d.Shows deadline timeout) {t : Nat} (ht : t < lastMs) :
    d.at_.toNat ≤ t ↔ reachedBy deadline t = true := by
  rw [h.at_]
  cases deadline with
  | none => simpa [reachedBy] using ht
  | some d' =>
      simp only [Option.getD_some, reachedBy, Option.any_some, decide_eq_true_eq]
      omega

/-- The earliest of three instants. -/
theorem phaseStop_eq {a b : Deadline} {own total : Option Nat} {timeout : TransportStatus}
    (ha : a.Shows own timeout) (hb : b.Shows total .timeoutTotal) {now delay : Nat}
    (hsum : now + delay < lastMs) :
    max now (min (now + delay) (min a.at_.toNat b.at_.toNat)) = phaseStop now delay own total := by
  rw [ha.at_, hb.at_, phaseStop]
  cases own <;> cases total <;> simp only [cutBy, Option.elim, Option.getD] <;> omega

/-- A phase stops no later than its delay. -/
theorem phaseStop_le (now delay : Nat) (own total : Option Nat) :
    phaseStop now delay own total ≤ now + delay := by
  unfold phaseStop
  cases own <;> cases total <;> simp only [cutBy, Option.elim] <;> omega

/-- A wait ends as its phase does. -/
theorem delayWithin_phase (hck : ck.Exact cancel time calm) {a b : Deadline}
    {own total : Option Nat} {timeout : TransportStatus} (ha : a.Shows own timeout)
    (hb : b.Shows total .timeoutTotal) (delayMs : UInt64) (fuel : Nat) {s : σ} (hs : calm s)
    (hsum : (time s).toNat + delayMs.toNat < lastMs) (hfuel : waitRounds delayMs.toNat ≤ fuel) :
    ∃ s', delayWithin ck cancel fuel delayMs a b s =
        (some ((phaseTimeout own timeout total
          (phaseStop (time s).toNat delayMs.toNat own total)).getD .ok), s') ∧
      (time s').toNat = phaseStop (time s).toNat delayMs.toNat own total ∧ calm s' := by
  obtain ⟨hnow, htime, hcalm⟩ := hck.reads s hs
  have htarget : (addSat (ck.nowMs s).1 delayMs).toNat = (time s).toNat + delayMs.toNat := by
    rw [hnow, addSat_toNat]
    exact min_eq_left hsum.le
  obtain ⟨s', hloop, hstop, hend⟩ := delayLoop_exact hck (addSat (ck.nowMs s).1 delayMs) a b
    fuel hcalm (by rw [htime, htarget]; omega) (by
      have hle := (earliestOf_le (addSat (ck.nowMs s).1 delayMs) a b).1
      rw [htarget] at hle
      rw [htime]
      unfold waitRounds at hfuel ⊢
      omega)
  rw [earliestOf, htime, htarget, phaseStop_eq ha hb hsum] at hloop hstop
  have hlast : phaseStop (time s).toNat delayMs.toNat own total < lastMs :=
    (phaseStop_le _ _ _ _).trans_lt hsum
  refine ⟨s', hloop.trans (Prod.ext (congrArg some ?_) rfl), hstop, hend⟩
  simp only [ha.reached hlast, hb.reached hlast, ha.status, hb.status, phaseTimeout]
  split_ifs <;> rfl

/-- A deadline ends the call with its timeout, or none has been reached. -/
theorem phaseTimeout_cases (own : Option Nat) (timeout : TransportStatus) (total : Option Nat)
    (stop : Nat) :
    phaseTimeout own timeout total stop = none ∨
      phaseTimeout own timeout total stop = some timeout ∨
      phaseTimeout own timeout total stop = some .timeoutTotal := by
  unfold phaseTimeout
  split_ifs <;> simp

/-! ## Runs -/

section Runs

variable {I : Type} {h : SinkCall → I → σ → Int × I × σ}

/-- A sink that accepts everything.  It may take its time. -/
structure Accepting (h : SinkCall → I → σ → Int × I × σ) (time : σ → UInt64) (calm : σ → Prop) :
    Prop where
  accepts : ∀ q i s, (h q i s).1 = 0
  later : ∀ q i s, calm s → time s ≤ time (h q i s).2.2
  calm : ∀ q i s, calm s → calm (h q i s).2.2

/-- How long the calls of the sink take. -/
def sinkLags (h : SinkCall → I → σ → Int × I × σ) (time : σ → UInt64)
    (d : Dialogue σ SinkCall Int (Option TransportStatus)) (i : I) : List Nat :=
  (d.turns h i).map fun q => (time (h q.1 q.2.1 q.2.2).2.2).toNat - (time q.2.2).toNat

/-- A dialogue follows a timeline. -/
structure Plays (h : SinkCall → I → σ → Int × I × σ) (time : σ → UInt64)
    (d : Dialogue σ SinkCall Int (Option TransportStatus)) (i : I) (tl : Timeline) : Prop where
  status : (d.run h i).1 = some tl.status
  stop : (time (d.run h i).2.2).toNat = tl.stop
  calls : (d.turns h i).map (fun q => ((time q.2.2).toNat, q.1)) = tl.calls

/-- A dialogue that is over plays the empty timeline. -/
theorem plays_done (h : SinkCall → I → σ → Int × I × σ) {st : TransportStatus} {s : σ} {t : Nat}
    (ht : (time s).toNat = t) (i : I) : Plays h time (.done (some st) s) i ⟨[], st, t⟩ :=
  ⟨rfl, ht, rfl⟩

/-- A call stands in front of what the rest plays. -/
theorem Plays.call {q : SinkCall} {s : σ}
    {k : Int → σ → Dialogue σ SinkCall Int (Option TransportStatus)} {i : I} {tl : Timeline}
    {t : Nat} (ht : (time s).toNat = t)
    (hrest : Plays h time (k (h q i s).1 (h q i s).2.2) (h q i s).2.1 tl) :
    Plays h time (.ask q s k) i (.call q t tl) :=
  ⟨hrest.status, hrest.stop, congrArg₂ List.cons (congrArg (·, q) ht) hrest.calls⟩

/-- A call takes its time, and then the rest follows. -/
theorem sinkLags_ask (hh : Accepting h time calm) (q : SinkCall) (s : σ)
    (next : σ → Dialogue σ SinkCall Int (Option TransportStatus)) (i : I) :
    sinkLags h time (.ask q s fun rc s => if rc ≠ 0 then .done (some .abortedBySink) s else next s)
        i =
      ((time (h q i s).2.2).toNat - (time s).toNat) ::
        sinkLags h time (next (h q i s).2.2) (h q i s).2.1 := by
  have hgoes : ¬ (h q i s).1 ≠ 0 := by simp [hh.accepts]
  rw [sinkLags, Dialogue.turns, if_neg hgoes]
  rfl

variable {fuel : Nat} (rq : HttpRequest) {resp : ScriptResponse} {b : Deadline} {total : Option Nat}

/-- The body follows its timeline. -/
theorem scriptBody_plays (hck : ck.Exact cancel time calm) (hh : Accepting h time calm)
    (hb : b.Shows total .timeoutTotal) (hfuel : waitRounds resp.perChunkDelayMs.toNat ≤ fuel)
    (pieces : List Bytes) {s : σ} (hs : calm s) (i : I)
    (hsum : (time s).toNat + pieces.length * resp.perChunkDelayMs.toNat +
      (sinkLags h time (scriptBody ck cancel fuel true rq resp b pieces s) i).sum < lastMs) :
    Plays h time (scriptBody ck cancel fuel true rq resp b pieces s) i
      (bodyTimeline rq resp total pieces
        (sinkLags h time (scriptBody ck cancel fuel true rq resp b pieces s) i)
        (time s).toNat) := by
  induction pieces generalizing s i with
  | nil => exact plays_done h rfl i
  | cons piece pieces ih =>
      obtain ⟨hnow, htime, hcalm⟩ := hck.reads s hs
      rw [List.length_cons, Nat.succ_mul] at hsum
      obtain ⟨s', hdelay, hstop, hcalm'⟩ := delayWithin_phase hck
        (absDeadline_shows (time s) rq.timeouts.idleMs .timeoutIdle) hb
        resp.perChunkDelayMs fuel hcalm (by rw [htime]; omega) hfuel
      rw [htime] at hdelay hstop
      rcases phaseTimeout_cases (deadlineAt (time s).toNat rq.timeouts.idleMs) .timeoutIdle total
        (phaseStop (time s).toNat resp.perChunkDelayMs.toNat
          (deadlineAt (time s).toNat rq.timeouts.idleMs) total) with hend | hend | hend
      case inr.inl | inr.inr =>
        simp only [scriptBody, hnow, hdelay, hend, Option.getD_some, bodyTimeline, Timeline.phase]
        exact plays_done h hstop i
      have hask : scriptBody ck cancel fuel true rq resp b (piece :: pieces) s =
          .ask (.body piece) s' fun rc s =>
            if rc ≠ 0 then .done (some .abortedBySink) s
            else scriptBody ck cancel fuel true rq resp b pieces s := by
        simp only [scriptBody, hnow, hdelay, hend, Option.getD_none, if_true]
      have hlags := sinkLags_ask hh (.body piece) s'
        (fun s => scriptBody ck cancel fuel true rq resp b pieces s) i
      rw [← hask] at hlags
      rw [hlags, List.sum_cons] at hsum
      have hlater := UInt64.le_iff_toNat_le.mp (hh.later (.body piece) i s' hcalm')
      have hle := phaseStop_le (time s).toNat resp.perChunkDelayMs.toNat
        (deadlineAt (time s).toNat rq.timeouts.idleMs) total
      have hrest := ih (hh.calm (.body piece) i s' hcalm') (h (.body piece) i s').2.1 (by omega)
      rw [hlags, bodyTimeline, Timeline.phase]
      simp only [hend, List.tail_cons, List.headD_cons]
      rw [hask]
      refine Plays.call hstop ?_
      rw [if_neg (by simp [hh.accepts])]
      rwa [← hstop, Nat.add_sub_cancel' hlater]

/-- What follows the connect phase follows its timeline. -/
theorem scriptRespond_plays (hck : ck.Exact cancel time calm) (hh : Accepting h time calm)
    (hb : b.Shows total .timeoutTotal) (hfirst : waitRounds resp.firstByteDelayMs.toNat ≤ fuel)
    (hfuel : waitRounds resp.perChunkDelayMs.toNat ≤ fuel) (start : UInt64) {s : σ} (hs : calm s)
    (i : I)
    (hsum : (time s).toNat + resp.firstByteDelayMs.toNat +
      resp.pieces.length * resp.perChunkDelayMs.toNat +
      (sinkLags h time (scriptRespond ck cancel fuel true rq resp b start s) i).sum < lastMs) :
    Plays h time (scriptRespond ck cancel fuel true rq resp b start s) i
      (respondTimeline rq resp total start.toNat
        (sinkLags h time (scriptRespond ck cancel fuel true rq resp b start s) i)
        (time s).toNat) := by
  obtain ⟨s', hdelay, hstop, hcalm'⟩ := delayWithin_phase hck
    (absDeadline_shows start rq.timeouts.firstByteMs .timeoutFirstByte) hb
    resp.firstByteDelayMs fuel hs (by omega) hfirst
  rcases phaseTimeout_cases (deadlineAt start.toNat rq.timeouts.firstByteMs) .timeoutFirstByte total
    (phaseStop (time s).toNat resp.firstByteDelayMs.toNat
      (deadlineAt start.toNat rq.timeouts.firstByteMs) total) with hend | hend | hend
  case inr.inl | inr.inr =>
    simp only [scriptRespond, hdelay, hend, Option.getD_some, respondTimeline, Timeline.phase]
    exact plays_done h hstop i
  have hask : scriptRespond ck cancel fuel true rq resp b start s =
      .ask (.status resp.httpStatus (resp.headers.map Header.ref)) s' fun rc s =>
        if rc ≠ 0 then .done (some .abortedBySink) s
        else scriptBody ck cancel fuel true rq resp b resp.pieces s := by
    simp only [scriptRespond, hdelay, hend, Option.getD_none, if_true]
  have hlags := sinkLags_ask hh (.status resp.httpStatus (resp.headers.map Header.ref)) s'
    (fun s => scriptBody ck cancel fuel true rq resp b resp.pieces s) i
  rw [← hask] at hlags
  rw [hlags, List.sum_cons] at hsum
  have hlater := UInt64.le_iff_toNat_le.mp
    (hh.later (.status resp.httpStatus (resp.headers.map Header.ref)) i s' hcalm')
  have hle := phaseStop_le (time s).toNat resp.firstByteDelayMs.toNat
    (deadlineAt start.toNat rq.timeouts.firstByteMs) total
  have hrest := scriptBody_plays rq hck hh hb hfuel resp.pieces
    (hh.calm (.status resp.httpStatus (resp.headers.map Header.ref)) i s' hcalm')
    (h (.status resp.httpStatus (resp.headers.map Header.ref)) i s').2.1 (by omega)
  rw [hlags, respondTimeline, Timeline.phase]
  simp only [hend, List.tail_cons, List.headD_cons]
  rw [hask]
  refine Plays.call hstop ?_
  rw [if_neg (by simp [hh.accepts])]
  rwa [← hstop, Nat.add_sub_cancel' hlater]

/-- A perform that took a response follows its timeline. -/
theorem scriptRun_plays (hck : ck.Exact cancel time calm) (hh : Accepting h time calm)
    (hfuel : scriptFuel resp ≤ fuel) {s : σ} (hs : calm s) (i : I)
    (hsum : (time s).toNat + resp.connectDelayMs.toNat + resp.firstByteDelayMs.toNat +
      resp.pieces.length * resp.perChunkDelayMs.toNat +
      (sinkLags h time (scriptRun ck cancel fuel true rq resp s) i).sum < lastMs) :
    Plays h time (scriptRun ck cancel fuel true rq resp s) i
      (timeline rq resp (sinkLags h time (scriptRun ck cancel fuel true rq resp s) i)
        (time s).toNat) := by
  obtain ⟨hnow, htime, hcalm⟩ := hck.reads s hs
  obtain ⟨hconnect, hfirst, hchunk⟩ : waitRounds resp.connectDelayMs.toNat ≤ fuel ∧
      waitRounds resp.firstByteDelayMs.toNat ≤ fuel ∧
      waitRounds resp.perChunkDelayMs.toNat ≤ fuel := by
    simpa only [scriptFuel, Nat.max_le] using hfuel
  have htotal := absDeadline_shows (time s) rq.timeouts.totalMs .timeoutTotal
  obtain ⟨s', hdelay, hstop, hcalm'⟩ := delayWithin_phase hck
    (absDeadline_shows (time s) rq.timeouts.connectMs .timeoutConnect) htotal
    resp.connectDelayMs fuel hcalm (by rw [htime]; omega) hconnect
  rw [htime] at hdelay hstop
  rcases phaseTimeout_cases (deadlineAt (time s).toNat rq.timeouts.connectMs) .timeoutConnect
    (deadlineAt (time s).toNat rq.timeouts.totalMs)
    (phaseStop (time s).toNat resp.connectDelayMs.toNat
      (deadlineAt (time s).toNat rq.timeouts.connectMs)
      (deadlineAt (time s).toNat rq.timeouts.totalMs)) with hend | hend | hend
  case inr.inl | inr.inr =>
    simp only [scriptRun, hnow, hdelay, hend, Option.getD_some, timeline, Timeline.phase]
    exact plays_done h hstop i
  by_cases hpure : resp.status ≠ .ok ∧ resp.failAfterBytes = 0
  · have hdone : scriptRun ck cancel fuel true rq resp s = .done (some resp.status) s' := by
      simp only [scriptRun, hnow, hdelay, hend, Option.getD_none, if_pos hpure]
    rw [hdone, timeline, Timeline.phase]
    simp only [hend, if_pos hpure]
    exact plays_done h hstop i
  · have hgoes : scriptRun ck cancel fuel true rq resp s =
        scriptRespond ck cancel fuel true rq resp
          ⟨absDeadline (time s) rq.timeouts.totalMs, .timeoutTotal⟩ (time s) s' := by
      simp only [scriptRun, hnow, hdelay, hend, Option.getD_none, if_neg hpure]
    have hle := phaseStop_le (time s).toNat resp.connectDelayMs.toNat
      (deadlineAt (time s).toNat rq.timeouts.connectMs)
      (deadlineAt (time s).toNat rq.timeouts.totalMs)
    rw [hgoes] at hsum ⊢
    have hrest := scriptRespond_plays rq hck hh htotal hfirst hchunk (time s) hcalm' i
      (by omega)
    rw [timeline, Timeline.phase]
    simp only [hend, if_neg hpure]
    rwa [← hstop]

end Runs

end Perform

/-! ## Performs -/

/-- On a virtual clock, without cancellation, and with a sink that accepts everything, a perform
that took a response terminates and follows its timeline: {lit}`on_status` is called at most once
and before the body, of which the sink is given the first pieces; and the call ends when and as the
phases say. -/
theorem script_timeline {σ I : Type} (H : Heap σ) {ck : Clock (ScriptState × σ)}
    {cancel : Option (CancelToken (ScriptState × σ))} {time : ScriptState × σ → UInt64}
    {calm : ScriptState × σ → Prop} (hck : ck.Exact cancel time calm)
    {h : SinkCall → I → ScriptState × σ → Int × I × (ScriptState × σ)}
    (hh : Accepting h time calm) (rq : HttpRequest) (resp : ScriptResponse)
    {s s' : ScriptState × σ} (htook : scriptEnter H rq s.1 s.2 = (.took resp, s'))
    (hs : calm s') (fuel : Nat) (hfuel : scriptFuel resp ≤ fuel) (i : I)
    (hsum : (time s').toNat + resp.connectDelayMs.toNat + resp.firstByteDelayMs.toNat +
      resp.pieces.length * resp.perChunkDelayMs.toNat +
      (sinkLags h time (scriptPerform H ck cancel fuel true rq s) i).sum < lastMs) :
    let lags := sinkLags h time (scriptPerform H ck cancel fuel true rq s) i
    let tl := timeline rq resp lags (time s').toNat
    Plays h time (scriptPerform H ck cancel fuel true rq s) i tl ∧
      tl.calls.map Prod.snd <+:
        .status resp.httpStatus (resp.headers.map Header.ref) :: resp.pieces.map SinkCall.body ∧
      resp.delivered <+: resp.body ∧ CutInto resp.chunkSize resp.delivered resp.pieces := by
  have hrun : scriptPerform H ck cancel fuel true rq s =
      scriptRun ck cancel fuel true rq resp s' := by
    rw [scriptPerform, htook]
  rw [hrun] at hsum ⊢
  exact ⟨scriptRun_plays rq hck hh hfuel hs i hsum, timeline_calls _ _ _ _, delivered_prefix resp,
    pieces_cut resp⟩

/-! ## A run -/

/-- A virtual clock. -/
def tickingClock : Clock (ScriptState × UInt64) where
  nowMs s := (s.2, s)
  waitMs _ ms s := (0, s.1, s.2 + ms)

/-- The ticking clock waits exactly as long as it is asked to. -/
theorem tickingClock_exact : tickingClock.Exact none Prod.snd fun _ => True :=
  ⟨fun _ _ => ⟨rfl, rfl, trivial⟩, fun _ _ _ => ⟨rfl, rfl, trivial⟩, fun _ _ => rfl⟩

/-- A response that comes slowly, in pieces of two bytes. -/
def slowResponse : ScriptResponse where
  status := .ok
  httpStatus := 200
  headers := []
  body := ascii "slow"
  chunkSize := 2
  connectDelayMs := 150
  firstByteDelayMs := 30
  perChunkDelayMs := 250
  failAfterBytes := 0

/-- A request that waits for 300 ms between pieces, and for 600 ms in all. -/
def hastyCall : HttpRequest where
  method := ascii "POST"
  url := ascii "u"
  headers := []
  body := []
  timeouts := ⟨disabled, disabled, 300, 600⟩
  flags := 0

/-- A sink that accepts everything. -/
def acceptAll (_ : SinkCall) (_ : Unit) (s : ScriptState × UInt64) :
    Int × Unit × (ScriptState × UInt64) :=
  (0, (), s)

/-- The sink that accepts everything takes no time. -/
theorem acceptAll_accepting : Accepting acceptAll Prod.snd fun _ => True :=
  ⟨fun _ _ _ => rfl, fun _ _ _ _ => UInt64.le_refl _, fun _ _ _ _ => trivial⟩

/-- The total deadline ends the call while it waits for the second piece. -/
theorem script_timeline_plain :
    let d := scriptPerform Heap.plentiful tickingClock none 4 true hastyCall
      (({ scriptInit with queue := [slowResponse] } : ScriptState), (0 : UInt64))
    (d.run acceptAll ()).1 = some .timeoutTotal ∧ (d.run acceptAll ()).2.2.2.toNat = 600 := by
  have htook : scriptEnter Heap.plentiful hastyCall { scriptInit with queue := [slowResponse] }
      (0 : UInt64) = (.took slowResponse,
        { scriptInit with cCap := 8, calls := [scriptCallOf hastyCall] }, 0) := rfl
  have hplays := (script_timeline Heap.plentiful tickingClock_exact acceptAll_accepting hastyCall
    slowResponse (s := (_, 0)) htook trivial 4 (by decide +kernel) () (by decide +kernel)).1
  exact ⟨hplays.status.trans (by decide +kernel), hplays.stop.trans (by decide +kernel)⟩

end Sicha
