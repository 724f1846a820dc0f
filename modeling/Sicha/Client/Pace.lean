import Sicha.Client.Run

/-!
# The waits of a call

Between two attempts the engine waits or does not, and how long is decided by the
records so far, the Retry-After of the last one, and a stream of random numbers of which
only the formula draws.

Main results:

- Theorem {lit}`backoffMs_formula`: the arithmetic of a formula wait does not overflow.
- Theorem {lit}`turn_timed`: a turn adds the beats of its record.
- Theorem {lit}`chat_waits`: the waits of a call are those of its schedule.
-/

namespace Sicha

/-! ## The formula -/

/-- {lit}`base * 2^(k-1)` with the jitter a draw gives, capped. -/
def formulaMs (p : RetryPolicy) (k : Nat) (draw : UInt64) : Nat :=
  min (p.backoffBaseMs.toNat * 2 ^ (k - 1) +
    (if p.backoffJitterMs = disabled then 0 else draw.toNat % p.backoffJitterMs.toNat))
    p.backoffCapMs.toNat

/-- A value with a default that is not zero is not zero. -/
theorem orDefault_ne_zero {x dflt : UInt32} (h : dflt ≠ 0) : orDefault x dflt ≠ 0 := by
  unfold orDefault
  split_ifs with hzero
  · exact h
  · exact hzero

/-- The state of the generator after some draws. -/
def splitmixState (seed : UInt64) : Nat → UInt64
  | 0 => seed
  | n + 1 => (splitmix64 (splitmixState seed n)).2

/-- The draws of the generator, from 0. -/
def splitmixOutput (seed : UInt64) (n : Nat) : UInt64 :=
  (splitmix64 (splitmixState seed n)).1

/-- What of the jitter is added to a formula wait. -/
def jitterMs (p : RetryPolicy) (draw : UInt64) : UInt64 :=
  if p.backoffJitterMs ≠ disabled ∧ p.backoffJitterMs > 0 then draw % p.backoffJitterMs.toUInt64
  else 0

/-- The doubled base, or the cap where the doubling would overflow. -/
def doubledMs (p : RetryPolicy) (k : UInt32) : UInt64 :=
  if k - 1 ≥ 63 ∨ p.backoffBaseMs.toUInt64 > uint64Max >>> (k - 1).toUInt64 then
    p.backoffCapMs.toUInt64
  else p.backoffBaseMs.toUInt64 <<< (k - 1).toUInt64

/-- The doubling is exact, or both it and its replacement are past the cap. -/
theorem doubledMs_toNat {p : RetryPolicy} (hbase : p.backoffBaseMs ≠ 0) {k : UInt32} (hk : k ≠ 0) :
    (doubledMs p k).toNat = p.backoffBaseMs.toNat * 2 ^ (k.toNat - 1) ∨
      ((doubledMs p k).toNat = p.backoffCapMs.toNat ∧
        p.backoffCapMs.toNat ≤ p.backoffBaseMs.toNat * 2 ^ (k.toNat - 1)) := by
  have hcap := p.backoffCapMs.toNat_lt
  have hpos : 0 < p.backoffBaseMs.toNat :=
    Nat.pos_of_ne_zero fun h => hbase (UInt32.toNat_inj.mp h)
  have hone : (1 : UInt32) ≤ k := by
    rw [UInt32.le_iff_toNat_le]
    exact Nat.pos_of_ne_zero fun h => hk (UInt32.toNat_inj.mp h)
  have hpred : (k - 1).toNat = k.toNat - 1 := UInt32.toNat_sub_of_le _ _ hone
  unfold doubledMs
  by_cases hbig : k - 1 ≥ 63
  · rw [if_pos (.inl hbig)]
    refine .inr ⟨rfl, ?_⟩
    rw [ge_iff_le, UInt32.le_iff_toNat_le, hpred] at hbig
    have hpow : 2 ^ 63 ≤ 2 ^ (k.toNat - 1) := Nat.pow_le_pow_right (by decide) hbig
    have hmul := Nat.le_mul_of_pos_left (2 ^ (k.toNat - 1)) hpos
    omega
  · have hlt : k.toNat - 1 < 63 := by
      rw [ge_iff_le, UInt32.le_iff_toNat_le, hpred] at hbig
      exact Nat.not_le.mp hbig
    have hmod : (k - 1).toUInt64.toNat % 64 = k.toNat - 1 := by
      rw [UInt32.toNat_toUInt64, hpred]
      omega
    have hroom : (uint64Max >>> (k - 1).toUInt64).toNat = (2 ^ 64 - 1) / 2 ^ (k.toNat - 1) := by
      rw [UInt64.toNat_shiftRight, hmod, Nat.shiftRight_eq_div_pow]
      rfl
    have hpow : 0 < 2 ^ (k.toNat - 1) := Nat.two_pow_pos _
    split_ifs with hover
    · have hover := hover.resolve_left hbig
      rw [gt_iff_lt, UInt64.lt_iff_toNat_lt, hroom, Nat.div_lt_iff_lt_mul hpow] at hover
      refine .inr ⟨rfl, ?_⟩
      change _ < p.backoffBaseMs.toNat * _ at hover
      omega
    · have hfit : ¬ p.backoffBaseMs.toUInt64 > uint64Max >>> (k - 1).toUInt64 :=
        fun h => hover (.inr h)
      rw [gt_iff_lt, UInt64.lt_iff_toNat_lt, hroom, Nat.div_lt_iff_lt_mul hpow] at hfit
      change ¬ _ < p.backoffBaseMs.toNat * _ at hfit
      refine .inl ?_
      rw [UInt64.toNat_shiftLeft, hmod, Nat.shiftLeft_eq]
      exact Nat.mod_eq_of_lt (by rw [UInt32.toNat_toUInt64]; omega)

/-- The backoff is the doubled wait with its jitter, or the cap. -/
theorem backoffMs_eq (p : RetryPolicy) {k : UInt32} (hk : k ≠ 0) (draw : UInt64) :
    backoffMs p k draw =
      if addSat (doubledMs p k) (jitterMs p draw) < p.backoffCapMs.toUInt64 then
        addSat (doubledMs p k) (jitterMs p draw)
      else p.backoffCapMs.toUInt64 := by
  have hzero : ∀ a : UInt64, addSat a 0 = a := by
    intro a
    have ha := a.toNat_lt
    rw [← UInt64.toNat_inj, addSat_toNat]
    change min (a.toNat + 0) _ = _
    omega
  unfold backoffMs jitterMs
  dsimp only
  rw [if_neg hk]
  by_cases hjitter : p.backoffJitterMs ≠ disabled ∧ p.backoffJitterMs > 0
  · rw [if_pos hjitter, if_pos hjitter]
    rfl
  · rw [if_neg hjitter, if_neg hjitter, hzero]
    rfl

/-- The arithmetic of {lit}`sicha_backoff_ms` does not overflow: for a resolved policy it is
the formula over the integers. -/
theorem backoffMs_formula {p : RetryPolicy} (hp : policyResolve p = p) {k : UInt32} (hk : k ≠ 0)
    (draw : UInt64) : (backoffMs p k draw).toNat = formulaMs p k.toNat draw := by
  have hbase : p.backoffBaseMs ≠ 0 := by
    rw [← hp]
    exact orDefault_ne_zero (by decide)
  have hjit : p.backoffJitterMs ≠ 0 := by
    rw [← hp]
    exact orDefault_ne_zero (by decide)
  have hjitter : (jitterMs p draw).toNat =
      if p.backoffJitterMs = disabled then 0 else draw.toNat % p.backoffJitterMs.toNat := by
    have hpos : p.backoffJitterMs > 0 := by
      rw [gt_iff_lt, UInt32.lt_iff_toNat_lt]
      exact Nat.pos_of_ne_zero fun h => hjit (UInt32.toNat_inj.mp h)
    unfold jitterMs
    by_cases hoff : p.backoffJitterMs = disabled
    · rw [if_neg (fun h => h.1 hoff), if_pos hoff]
      rfl
    · rw [if_pos ⟨hoff, hpos⟩, if_neg hoff, UInt64.toNat_mod]
      rfl
  have hcap := p.backoffCapMs.toNat_lt
  have hsum := addSat_toNat (doubledMs p k) (jitterMs p draw)
  have htoNat : p.backoffCapMs.toUInt64.toNat = p.backoffCapMs.toNat := rfl
  rw [hjitter] at hsum
  rw [backoffMs_eq p hk]
  unfold formulaMs
  generalize (if p.backoffJitterMs = disabled then 0
    else draw.toNat % p.backoffJitterMs.toNat) = jitter at hsum ⊢
  have hdoubled := doubledMs_toNat hbase hk
  generalize p.backoffBaseMs.toNat * 2 ^ (k.toNat - 1) = doubled at hdoubled ⊢
  split_ifs with hlt <;> rw [UInt64.lt_iff_toNat_lt, htoNat] at hlt <;> try rw [htoNat]
  · rcases hdoubled with h | ⟨h, hle⟩ <;> omega
  · rcases hdoubled with h | ⟨h, hle⟩ <;> omega
section Runs

variable [SizeT] {σ : Type}

/-! ## The schedule -/

/-- A beat of a call: an attempt handed to the transport, or a wait of the engine's own
clock. -/
inductive Beat where
  | attempt
  | wait (ms : Nat)
deriving DecidableEq

/-- The beat an action makes. -/
def Act.beat : Act → Option Beat
  | .perform _ true _ => some .attempt
  | .wait ms _ => some (.wait ms.toNat)
  | _ => none

/-- A record with what the schedule needs besides it. -/
structure Report where
  /-- the place of its backend in the chain -/
  place : Nat
  record : Attempt
  /-- the Retry-After text that {lit}`attempt_on_status` captured in the attempt -/
  captured : Option Bytes

/-- The {lit}`RETRY_SAME` records of one backend. -/
def retriesAt (place : Nat) (reports : List Report) : Nat :=
  reports.countP fun r => r.place == place && r.record.errorClass == .retrySame

/-- A wait follows a record that asks for a retry and is not the last such record its
backend is allowed. -/
def due (p : RetryPolicy) (past : List Report) (r : Report) : Bool :=
  r.record.errorClass == .retrySame && retriesAt r.place (past ++ [r]) != p.maxTries.toNat

/-- The wait the server asked for, if it did and is listened to. -/
def Report.asked (p : RetryPolicy) (r : Report) : Option Nat :=
  if p.retryAfterCapMs = disabled ∨ retryAfterMs r.captured = uint64Max then none
  else some (min (retryAfterMs r.captured).toNat p.retryAfterCapMs.toNat)

/-- The schedule so far: the records, the draws taken, the beats. -/
structure Tally where
  past : List Report
  drawn : Nat
  beats : List Beat

/-- The tally after one more record that does not end the call as a lost stream. -/
def Tally.next (p : RetryPolicy) (seed : UInt64) (t : Tally) (r : Report) : Tally :=
  let past := t.past ++ [r]
  if due p t.past r then
    match r.asked p with
    | some ms => ⟨past, t.drawn, t.beats ++ [.attempt, .wait ms]⟩
    | none =>
        ⟨past, t.drawn + 1, t.beats ++ [.attempt,
          .wait (formulaMs p (retriesAt r.place past) (splitmixOutput seed t.drawn))]⟩
  else ⟨past, t.drawn, t.beats ++ [.attempt]⟩

/-- The tally of some records. -/
def tally (p : RetryPolicy) (seed : UInt64) (reports : List Report) : Tally :=
  reports.foldl (Tally.next p seed) ⟨[], 0, []⟩

/-- The beats of a call with these records.  Nothing follows a record that ends the call as
a lost stream. -/
def schedule (p : RetryPolicy) (seed : UInt64) (status : Option Status)
    (reports : List Report) : List Beat :=
  if status = some .streamLost then (tally p seed reports.dropLast).beats ++ [.attempt]
  else (tally p seed reports).beats

omit [SizeT] in
/-- One more report is tallied behind the others. -/
theorem tally_snoc (p : RetryPolicy) (seed : UInt64) (reports : List Report) (r : Report) :
    tally p seed (reports ++ [r]) = (tally p seed reports).next p seed r := by
  simp [tally]

omit [SizeT] in
/-- The tally remembers the reports. -/
theorem tally_past (p : RetryPolicy) (seed : UInt64) (reports : List Report) :
    (tally p seed reports).past = reports := by
  induction reports using List.reverseRecOn with
  | nil => rfl
  | append_singleton reports r ih =>
      rw [tally_snoc, Tally.next, ih]
      split
      · split <;> rfl
      · rfl

/-! ## The reports of a call -/

/-- The Retry-After text of an attempt, if {lit}`attempt_on_status` captured one. -/
def AttemptIo.captured (io : AttemptIo) : Option Bytes :=
  if io.haveRetryAfter then some io.retryAfter else none

namespace Call

variable (k : Call σ)

/-- The exchange of an attempt. -/
def exchanged (rq : HttpRequest) (s : LoopState k.c) : Exchange σ :=
  exchange k.Y k.H k.c k.cbs k.cancel rq k.stream
    (attemptIoInit k.c (k.cleared s) k.stream k.req.accumulates) s.world

/-- The report of the turn that starts here, if it leaves a record. -/
def report (s : LoopState k.c) : Option Report :=
  if (k.poll s.world).1 then none
  else
    match k.prepare (k.polled s) with
    | (.error _, _) => none
    | (.ok rq, s1) =>
        if (k.recorded s1 rq).1 = .ok then
          some ⟨s.i.val, k.entry rq s1, (k.exchanged rq s1).io.captured⟩
        else none

/-- The reports of a call. -/
def reports (ordinal : UInt32) (w : World σ) : List Report :=
  match k.enter ordinal w with
  | .inl _ => []
  | .inr s => (k.attemptLoop.trail s).filterMap k.report

/-! ## What an attempt leaves to the schedule -/

/-- What the headers of a response said stays as it was. -/
theorem settle_response (Y : Yyjson) (H : Heap σ) (cbs : Option (Callbacks σ)) (stream : Bool)
    (s : Settled σ) : (settle Y H cbs stream s).io.httpStatus = s.io.httpStatus ∧
      (settle Y H cbs stream s).io.captured = s.io.captured := by
  unfold settle
  split_ifs
  · unfold checkStream flushStream
    split_ifs <;> exact ⟨rfl, rfl⟩
  · unfold parseBody
    split
    · split <;> exact ⟨rfl, rfl⟩
    · exact ⟨rfl, rfl⟩
  · exact ⟨rfl, rfl⟩

/-- The delay of an attempt is read from the captured text. -/
theorem roundTrip_delay (rq : HttpRequest) (s : LoopState k.c) :
    (k.roundTrip rq s).o.retryAfterMs = retryAfterMs (k.exchanged rq s).io.captured := by
  have hcaptured := (settle_response k.Y k.H k.cbs k.stream
    ⟨untangle k.stream (k.exchanged rq s).io (k.exchanged rq s).ts, (k.exchanged rq s).io,
      (k.exchanged rq s).world⟩).2
  calc (k.roundTrip rq s).o.retryAfterMs
      = retryAfterMs (settle k.Y k.H k.cbs k.stream
          ⟨untangle k.stream (k.exchanged rq s).io (k.exchanged rq s).ts, (k.exchanged rq s).io,
            (k.exchanged rq s).world⟩).io.captured := by
        unfold AttemptIo.captured
        rw [apply_ite retryAfterMs]
        rfl
    _ = retryAfterMs (k.exchanged rq s).io.captured := by rw [hcaptured]

/-- An attempt draws no number. -/
theorem announced_rng (s : LoopState k.c) (rq : HttpRequest) : (k.announced s rq).rng = s.rng := by
  unfold announced announce
  split <;> rfl

/-- A request that is prepared draws no number. -/
theorem prepared_rng {s s1 : LoopState k.c} {out : Except Status HttpRequest}
    (h : k.prepare (k.polled s) = (out, s1)) : s1.rng = s.rng := by
  obtain ⟨bodies, headers, env, hs1⟩ := (k.prepare_spec (k.polled s)).1
  rw [h] at hs1
  dsimp only at hs1
  subst hs1
  rfl

omit [SizeT] in
/-- Every beat is visible. -/
theorem beats_trace (w : World σ) : w.trace.filterMap Act.beat = w.acts.filterMap Act.beat := by
  unfold World.trace
  induction w.acts with
  | nil => rfl
  | cons a acts ih =>
      cases a <;> simp [List.filter_cons, List.filterMap_cons, Act.visible, Act.beat, ih]

omit [SizeT] in
/-- A data callback is no beat. -/
theorem data_beats {acts : List Act} (h : ∀ a ∈ acts, a.isData = true) :
    acts.filterMap Act.beat = [] := by
  rw [List.filterMap_eq_nil_iff]
  intro a ha
  have hdata := h a ha
  cases a <;> first | rfl | cases hdata

/-- Nor is a validation. -/
theorem checked_beats (x : Ran σ) : (k.checked x).filterMap Act.beat = [] := by
  unfold checked
  split <;> rfl

/-- Nor is an announcement. -/
theorem told_beats (a : Attempt) : (k.told a).filterMap Act.beat = [] := by
  unfold told
  split_ifs <;> rfl

/-- A recorded attempt is one beat. -/
theorem Took.beats {s s1 s2 : LoopState k.c} {rq : HttpRequest} (h : k.Took s rq s1 s2) :
    s2.world.trace.filterMap Act.beat = s.world.trace.filterMap Act.beat ++ [.attempt] := by
  rw [h.trace, List.filterMap_append, List.filterMap_cons, List.filterMap_append,
    List.filterMap_append, data_beats (k.roundTrip_given rq s1).data, checked_beats, told_beats]
  rfl

omit [SizeT] in
/-- Nor is an abort assist. -/
theorem assisted_beats (b : Backend) : (assisted b).filterMap Act.beat = [] := by
  unfold assisted
  split <;> rfl

/-! ## One turn -/

/-- The tally of the records before a state. -/
def tallyOf (seed : UInt64) (past : List (LoopState k.c)) : Tally :=
  tally k.c.policy seed (past.filterMap k.report)

/-- The engine keeps to its schedule. -/
structure Timed (seed : UInt64) (past : List (LoopState k.c)) (s : LoopState k.c) : Prop where
  records : s.r.attempts = (past.filterMap k.report).map Report.record
  beats : s.world.trace.filterMap Act.beat = (k.tallyOf seed past).beats
  rng : s.rng = splitmixState seed (k.tallyOf seed past).drawn
  used : s.retrySameUsed = retriesAt s.i.val (past.filterMap k.report)
  room : s.retrySameUsed < k.c.policy.maxTries.toNat
  places : ∀ r ∈ past.filterMap k.report, r.place ≤ s.i.val
  final : s.final = .exhausted

/-- The engine has kept to its schedule. -/
structure TimedAll (seed : UInt64) (past : List (LoopState k.c)) (f : LoopState k.c) : Prop where
  records : f.r.attempts = (past.filterMap k.report).map Report.record
  beats : f.world.trace.filterMap Act.beat =
    schedule k.c.policy seed (some f.final) (past.filterMap k.report)

/-- The report of a turn that stored a record. -/
def reported (s : LoopState k.c) (rq : HttpRequest) (s1 : LoopState k.c) : Report :=
  ⟨s.i.val, k.entry rq s1, (k.exchanged rq s1).io.captured⟩

/-- A turn that stores its record reports it. -/
theorem report_recorded {s s1 : LoopState k.c} {rq : HttpRequest}
    (hpoll : (k.poll s.world).1 = false) (hprep : k.prepare (k.polled s) = (.ok rq, s1))
    (hadd : (k.recorded s1 rq).1 = .ok) : k.report s = some (k.reported s rq s1) := by
  unfold report
  rw [hpoll, hprep]
  dsimp only
  rw [if_pos hadd]
  rfl

variable {k} {seed : UInt64} {past : List (LoopState k.c)}

/-- A turn without a record, and without a wait. -/
theorem Timed.leave {s f : LoopState k.c} (h : k.Timed seed past s) (hreport : k.report s = none)
    (hattempts : f.r.attempts = s.r.attempts) (htrace : f.world.trace = s.world.trace)
    (hlost : f.final ≠ .streamLost) : k.TimedAll seed (past ++ [s]) f := by
  have hpast : (past ++ [s]).filterMap k.report = past.filterMap k.report := by
    simp [hreport]
  refine ⟨?_, ?_⟩
  · rw [hpast, hattempts, h.records]
  · rw [hpast, htrace, h.beats, schedule, if_neg (by simpa using hlost)]
    rfl

variable (k)

/-- The engine behind {lit}`on_attempt`, the last record still to be acted on. -/
structure Noted (seed : UInt64) (reports : List Report) (r : Report) (s : LoopState k.c) :
    Prop where
  records : s.r.attempts = (reports ++ [r]).map Report.record
  beats : s.world.trace.filterMap Act.beat =
    (tally k.c.policy seed reports).beats ++ [.attempt]
  rng : s.rng = splitmixState seed (tally k.c.policy seed reports).drawn
  used : s.retrySameUsed = retriesAt s.i.val reports
  room : s.retrySameUsed < k.c.policy.maxTries.toNat
  places : ∀ r ∈ reports, r.place ≤ s.i.val
  place : r.place = s.i.val

variable {k}

/-- With the next record stored, its report is noted. -/
theorem Timed.noted {s s1 s2 : LoopState k.c} {rq : HttpRequest} (h : k.Timed seed past s)
    (htook : k.Took s rq s1 s2) (hrng : s2.rng = s.rng) :
    k.Noted seed (past.filterMap k.report) (k.reported s rq s1) s2 where
  records := by
    rw [htook.attempts, h.records, List.map_append]
    rfl
  beats := by
    rw [htook.beats, h.beats]
    rfl
  rng := by
    rw [hrng, h.rng]
    rfl
  used := by rw [htook.retrySameUsed, htook.i, h.used]
  room := by
    rw [htook.retrySameUsed]
    exact h.room
  places := by
    rw [htook.i]
    exact h.places
  place := by
    rw [htook.i]
    rfl

variable {reports : List Report} {r : Report} {s : LoopState k.c}

/-- The retries counted with the last record. -/
theorem Noted.retries (h : k.Noted seed reports r s) :
    retriesAt s.i.val (reports ++ [r]) =
      s.retrySameUsed + if r.record.errorClass = .retrySame then 1 else 0 := by
  rw [h.used, retriesAt, List.countP_append]
  congr 1
  simp [h.place, List.countP_cons]

/-- A wait is due exactly behind a retry on the same backend with tries left. -/
theorem Noted.due_iff (h : k.Noted seed reports r s) :
    due k.c.policy reports r = true ↔
      r.record.errorClass = .retrySame ∧ s.retrySameUsed + 1 < k.c.policy.maxTries.toNat := by
  have hroom := h.room
  unfold due
  rw [h.place, h.retries, Bool.and_eq_true, beq_iff_eq, bne_iff_ne]
  constructor
  · rintro ⟨hcls, hne⟩
    rw [if_pos hcls] at hne
    exact ⟨hcls, by omega⟩
  · rintro ⟨hcls, hlt⟩
    rw [if_pos hcls]
    exact ⟨hcls, by omega⟩

omit [SizeT] in
/-- The tally when no wait is due. -/
theorem tally_undue (p : RetryPolicy) (hdue : due p reports r = false) :
    tally p seed (reports ++ [r]) = ⟨reports ++ [r], (tally p seed reports).drawn,
      (tally p seed reports).beats ++ [.attempt]⟩ := by
  rw [tally_snoc, Tally.next, tally_past, hdue]
  rfl

/-- The wait of the engine is the one the schedule has. -/
theorem Noted.waited (h : k.Noted seed reports r s)
    (hdue : due k.c.policy reports r = true) (delay : UInt64)
    (hdelay : delay = retryAfterMs r.captured) :
    (k.waited delay s).2.world.trace.filterMap Act.beat =
        (tally k.c.policy seed (reports ++ [r])).beats ∧
      (k.waited delay s).2.rng =
        splitmixState seed (tally k.c.policy seed (reports ++ [r])).drawn := by
  obtain ⟨hcls, hlt⟩ := h.due_iff.mp hdue
  have hretries := h.retries
  rw [if_pos hcls] at hretries
  have hbeats : (k.waited delay s).2.world.trace.filterMap Act.beat =
      (tally k.c.policy seed reports).beats ++
        [.attempt, .wait (k.waitFor delay (s.retrySameUsed + 1) s.rng).1.toNat] := by
    rw [k.waited_trace, List.filterMap_append, h.beats, List.append_assoc]
    rfl
  have hrng : (k.waited delay s).2.rng = (k.waitFor delay (s.retrySameUsed + 1) s.rng).2 := rfl
  rw [hbeats, hrng, tally_snoc, Tally.next, tally_past, if_pos hdue]
  unfold Report.asked waitFor
  subst hdelay
  by_cases hasked : k.c.policy.retryAfterCapMs = disabled ∨ retryAfterMs r.captured = uint64Max
  · have hformula : ¬ (retryAfterMs r.captured ≠ uint64Max ∧
        k.c.policy.retryAfterCapMs ≠ disabled) := by tauto
    have hmax := k.c.policy.maxTries.toNat_lt
    have hk : (UInt32.ofNat (s.retrySameUsed + 1)).toNat = s.retrySameUsed + 1 :=
      UInt32.toNat_ofNat_of_lt' (show s.retrySameUsed + 1 < 2 ^ 32 by omega)
    have hne : UInt32.ofNat (s.retrySameUsed + 1) ≠ 0 := by
      intro h0
      rw [h0] at hk
      cases hk
    rw [if_pos hasked, if_neg hformula]
    dsimp only
    rw [backoffMs_formula k.c.policy_resolved hne, hk, h.place, hretries, h.rng]
    exact ⟨rfl, rfl⟩
  · have hserver : retryAfterMs r.captured ≠ uint64Max ∧
        k.c.policy.retryAfterCapMs ≠ disabled := by tauto
    rw [if_neg hasked, if_pos hserver]
    refine ⟨?_, h.rng⟩
    dsimp only
    congr 4
    have hcap : k.c.policy.retryAfterCapMs.toUInt64.toNat = k.c.policy.retryAfterCapMs.toNat := rfl
    split_ifs with hgt <;> rw [gt_iff_lt, UInt64.lt_iff_toNat_lt, hcap] at hgt
    · rw [hcap]
      omega
    · omega

/-- The engine leaves without a wait. -/
theorem Noted.leave {f : LoopState k.c} (h : k.Noted seed reports r s)
    (hundue : due k.c.policy reports r = false) (hattempts : f.r.attempts = s.r.attempts)
    (hbeats : f.world.trace.filterMap Act.beat = s.world.trace.filterMap Act.beat)
    (hlost : f.final ≠ .streamLost) :
    f.r.attempts = (reports ++ [r]).map Report.record ∧
      f.world.trace.filterMap Act.beat =
        schedule k.c.policy seed (some f.final) (reports ++ [r]) := by
  refine ⟨hattempts.trans h.records, ?_⟩
  rw [hbeats, h.beats, schedule, if_neg (by simpa using hlost), tally_undue _ hundue]

/-- The engine leaves because the stream is lost. -/
theorem Noted.lost {f : LoopState k.c} (h : k.Noted seed reports r s)
    (hattempts : f.r.attempts = s.r.attempts)
    (hbeats : f.world.trace.filterMap Act.beat = s.world.trace.filterMap Act.beat)
    (hlost : f.final = .streamLost) :
    f.r.attempts = (reports ++ [r]).map Report.record ∧
      f.world.trace.filterMap Act.beat =
        schedule k.c.policy seed (some f.final) (reports ++ [r]) := by
  refine ⟨hattempts.trans h.records, ?_⟩
  rw [hbeats, h.beats, schedule, if_pos (by rw [hlost]), List.dropLast_concat]

/-- The places of the records, the last one included. -/
theorem Noted.allPlaces (h : k.Noted seed reports r s) :
    ∀ r' ∈ reports ++ [r], r'.place ≤ s.i.val := by
  intro r' hr'
  rcases List.mem_append.mp hr' with hr' | hr'
  · exact h.places r' hr'
  · rw [List.mem_singleton.mp hr']
    exact h.place.le

omit [SizeT] in
/-- No record is of a backend further down the chain. -/
theorem retriesAt_next {i : Nat} (h : ∀ r ∈ reports, r.place ≤ i) :
    retriesAt (i + 1) reports = 0 := by
  rw [retriesAt, List.countP_eq_zero]
  intro r hr
  have hle := h r hr
  simp only [Bool.and_eq_true, beq_iff_eq, not_and]
  omega

/-- What follows a record keeps to the schedule. -/
theorem Noted.next {cls : ErrorClass} {delay : UInt64} {out : LoopState k.c ⊕ LoopState k.c}
    (h : k.Noted seed reports r s) (hcls : r.record.errorClass = cls)
    (hdelay : delay = retryAfterMs r.captured) (hfinal : s.final = .exhausted)
    (hpast : past.filterMap k.report = reports ++ [r]) (hnext : k.Next cls delay s out) :
    Sum.elim (k.Timed seed past) (k.TimedAll seed past) out := by
  have hother : cls ≠ .retrySame → due k.c.policy reports r = false := by
    intro hne
    rw [← Bool.not_eq_true, h.due_iff, hcls]
    exact fun hdue => hne hdue.1
  have hleaves : k.Leaves cls s → due k.c.policy reports r = false := by
    intro hleave
    rw [← Bool.not_eq_true, h.due_iff, hcls]
    rintro ⟨hretry, hlt⟩
    rcases hleave with rfl | ⟨-, hmax⟩ | ⟨rfl, -⟩
    · cases hretry
    · omega
    · cases hretry
  have hover : ∀ f : LoopState k.c, f.r.attempts = (reports ++ [r]).map Report.record ∧
      f.world.trace.filterMap Act.beat =
        schedule k.c.policy seed (some f.final) (reports ++ [r]) → k.TimedAll seed past f := by
    rintro f ⟨hrecords, hbeats⟩
    exact ⟨by rw [hpast, hrecords], by rw [hpast, hbeats]⟩
  have hundue : ∀ s' : LoopState k.c, due k.c.policy reports r = false →
      s'.world = s.world → s'.r = s.r → s'.rng = s.rng →
      s'.world.trace.filterMap Act.beat = (k.tallyOf seed past).beats ∧
        s'.rng = splitmixState seed (k.tallyOf seed past).drawn := by
    intro s' hdue hworld hr hrng
    rw [tallyOf, hpast, tally_undue _ hdue, hworld, hrng]
    exact ⟨h.beats, h.rng⟩
  have hretries := h.retries
  rw [← hpast] at hretries
  have hplaces := h.allPlaces
  rw [← hpast] at hplaces
  have hrecords := h.records
  rw [← hpast] at hrecords
  cases hnext with
  | success hc => exact hover _ (h.leave (hother (by rw [hc]; decide)) rfl rfl (by simp))
  | abort hc => exact hover _ (h.leave (hother (by rw [hc]; decide)) rfl rfl (by simp))
  | cancelled hc =>
      refine hover _ (h.leave (hother (by rw [hc]; decide)) rfl ?_ (by simp))
      dsimp only
      rw [k.koboldAbortAssist_trace, List.filterMap_append, assisted_beats, List.append_nil]
  | lost _ _ => exact hover _ (h.lost rfl rfl rfl)
  | reroll hc _ _ =>
      have hdue := hother (by rw [hc]; decide)
      rw [hcls, hc, if_neg (by decide), Nat.add_zero] at hretries
      obtain ⟨hbeats, hrng⟩ := hundue { s with validationUsed := s.validationUsed + 1 } hdue rfl
        rfl rfl
      exact ⟨hrecords, hbeats, hrng, hretries.symm, h.room, hplaces, hfinal⟩
  | interrupted hc _ hlt _ =>
      have hdue := h.due_iff.mpr ⟨hcls.trans hc, hlt⟩
      have hwait := h.waited hdue delay hdelay
      refine hover _ ⟨h.records, ?_⟩
      rw [schedule, if_neg (by simp)]
      exact hwait.1
  | retry hc _ hlt _ =>
      have hdue := h.due_iff.mpr ⟨hcls.trans hc, hlt⟩
      have hwait := h.waited hdue delay hdelay
      rw [← hpast] at hwait
      rw [hcls, if_pos hc] at hretries
      exact ⟨hrecords, hwait.1, hwait.2, hretries.symm, hlt, hplaces, hfinal⟩
  | fallback hleave _ hlt =>
      obtain ⟨hbeats, hrng⟩ := hundue { s with
        i := ⟨s.i.val + 1, hlt⟩, retrySameUsed := 0, validationUsed := 0, tryOfBackend := 0 }
        (hleaves hleave) rfl rfl rfl
      exact ⟨hrecords, hbeats, hrng, (retriesAt_next hplaces).symm, k.c.maxTries_pos,
        fun r' hr' => Nat.le_succ_of_le (hplaces r' hr'), hfinal⟩
  | exhausted hleave _ _ used =>
      exact hover _ (h.leave (hleaves hleave) rfl rfl (by simp [hfinal]))

/-- Every turn keeps to the schedule. -/
theorem turn_timed (hH : k.H.Reliable) (past : List (LoopState k.c)) (s : LoopState k.c)
    (out : LoopState k.c ⊕ LoopState k.c) (h : k.Timed seed past s) (hturn : k.Turn s out) :
    Sum.elim (k.Timed seed (past ++ [s])) (k.TimedAll seed (past ++ [s])) out := by
  cases hturn with
  | cancelled hpoll =>
      exact h.leave (by simp [report, hpoll]) rfl (k.polled_unchanged s).trace (by simp)
  | @unprepared st s1 hpoll hprep =>
      have hsame := k.prepared_unchanged hprep
      refine h.leave (by simp [report, hpoll, hprep]) (congrArg _ hsame.r) hsame.trace ?_
      intro hlost
      have hrefused := k.prepare_refusal hprep
      rw [show st = .streamLost from hlost] at hrefused
      cases hrefused
  | unrecorded _ hprep hadd => exact absurd hH (k.unrecorded_spec hprep hadd).heap
  | @terminal rq s1 hpoll hprep hadd hfinal =>
      have htook := took hprep hadd
      have hnoted := h.noted htook ((k.announced_rng s1 rq).trans (k.prepared_rng hprep))
      have hreport := k.report_recorded hpoll hprep hadd
      have hcls := htook.terminal_cls k h.final hfinal
      generalize k.announced s1 rq = s2 at htook hnoted hfinal ⊢
      have hundue : due k.c.policy (past.filterMap k.report) (k.reported s rq s1) = false := by
        rw [← Bool.not_eq_true, hnoted.due_iff]
        rintro ⟨hretry, -⟩
        rw [show (k.reported s rq s1).record.errorClass = _ from htook.entryClass, hcls] at hretry
        cases hretry
      obtain ⟨hrecords, hbeats⟩ := hnoted.leave hundue rfl rfl (by rw [hfinal]; decide)
      have hpast : (past ++ [s]).filterMap k.report =
          past.filterMap k.report ++ [k.reported s rq s1] := by simp [hreport]
      exact ⟨by rw [hpast, hrecords], by rw [hpast, hbeats]⟩
  | @next rq s1 _ hpoll hprep hadd hfinal hnext =>
      have htook := took hprep hadd
      have hnoted := h.noted htook ((k.announced_rng s1 rq).trans (k.prepared_rng hprep))
      have hreport := k.report_recorded hpoll hprep hadd
      generalize k.announced s1 rq = s2 at htook hnoted hfinal hnext
      exact hnoted.next htook.entryClass (k.roundTrip_delay rq s1)
        ((htook.final_eq hfinal).trans h.final) (by simp [hreport]) hnext

variable (k)

/-- The records of a run are its reports, and its waits are their schedule. -/
theorem run_waits (hH : k.H.Reliable) (ordinal : UInt32) (env : σ) :
    (k.run ordinal ⟨env, []⟩).records = (k.reports ordinal ⟨env, []⟩).map Report.record ∧
      (k.run ordinal ⟨env, []⟩).world.acts.filterMap Act.beat =
        schedule k.c.policy (k.c.prngSeed ^^^ ordinal.toUInt64) (k.run ordinal ⟨env, []⟩).status
          (k.reports ordinal ⟨env, []⟩) := by
  rw [run_eq]
  unfold reports
  rcases k.enter_ends ordinal ⟨env, []⟩ with ⟨out, he, hearly⟩ | ⟨env', henter⟩
  · rw [he]
    dsimp only
    generalize k.close out = e at hearly
    cases hearly with
    | refused hrefused env' =>
        refine ⟨rfl, ?_⟩
        cases hrefused <;> rfl
    | noArrays hbad => exact absurd hH hbad
    | fault hbad => exact absurd hH hbad
  · rw [henter]
    have hstart : k.Timed (k.c.prngSeed ^^^ ordinal.toUInt64) []
        (k.start ordinal (resultInit k.c.maxResponseBytes) ⟨env', []⟩) :=
      ⟨rfl, rfl, rfl, rfl, k.c.maxTries_pos, by simp, rfl⟩
    have hend := k.trail_turns (turn_timed hH) hstart
    refine ⟨hend.records, ?_⟩
    dsimp only
    rw [← beats_trace]
    exact hend.beats

end Call

/-! ## Calls -/

/-- The reports of a call, none if its pointers are refused. -/
def reportsOf (k : Option (Call σ)) (ordinal : UInt32) (w : World σ) : List Report :=
  match k with
  | none => []
  | some k => k.reports ordinal w

/-- The waits of a call are those of its schedule: the records of its reports are the records
it leaves, and the seed is that of the client and of this request. -/
theorem chat_waits (Y : Yyjson) (H : Heap σ) (c : Client σ) (req : Option Request)
    (cbs : Option (Callbacks σ)) (cancel : Option (CancelToken σ)) (haveOut stream : Bool)
    (ordinal : UInt32) (env : σ) (hH : H.Reliable) :
    let e := chatCommon Y H (some c) req cbs cancel haveOut stream ordinal ⟨env, []⟩
    let reports := reportsOf (Call.passed Y H (some c) req cbs cancel haveOut stream) ordinal
      ⟨env, []⟩
    e.records = reports.map Report.record ∧
      e.world.acts.filterMap Act.beat =
        schedule c.policy (c.prngSeed ^^^ ordinal.toUInt64) e.status reports := by
  intro e reports
  rcases chatCommon_passed Y H (some c) req cbs cancel haveOut stream ordinal ⟨env, []⟩ with
    ⟨hpassed, hend⟩ | ⟨k, hpassed, -, hend⟩
  · have hreports : reports = [] := by simp only [reports, reportsOf, hpassed]
    rw [hreports]
    simp only [e, hend]
    exact ⟨rfl, rfl⟩
  · have hreports : reports = k.reports ordinal ⟨env, []⟩ := by
      simp only [reports, reportsOf, hpassed]
    obtain ⟨hkH, hkc, -⟩ := Call.passed_parts hpassed
    subst hkH hkc
    rw [hreports]
    simp only [e, hend]
    exact k.run_waits hH ordinal env

end Runs
section Plain

attribute [local instance] lp64

/-- A busy backend is asked three times, with two formula waits in between. -/
theorem chat_waits_plain :
    let client : Client Unit := plainClient 0 1048576 (by decide) busyTransport
    let e := chatCommon (plainYyjson [] .null) Heap.plentiful (some client) (some plainRequest)
      (some plainCallbacks) none true true 7 ⟨(), []⟩
    let reports := reportsOf (Call.passed (plainYyjson [] .null) Heap.plentiful (some client)
      (some plainRequest) (some plainCallbacks) none true true) 7 ⟨(), []⟩
    e.world.acts.filterMap Act.beat = [.attempt, .wait 1487, .attempt, .wait 2304, .attempt] ∧
      e.records = reports.map Report.record ∧
      e.world.acts.filterMap Act.beat =
        schedule client.policy (client.prngSeed ^^^ (7 : UInt32).toUInt64) e.status reports := by
  refine ⟨by decide +kernel, ?_⟩
  exact chat_waits _ _ _ _ _ _ _ _ _ _ Heap.plentiful_reliable

end Plain

end Sicha
