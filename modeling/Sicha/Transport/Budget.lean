import Sicha.Lib.Assures
import Sicha.Transport.Deadlines
import Sicha.Transport.Obeys
import Sicha.Transport.Timeline

/-!
# The total budget of a perform

Both built-in transports own their deadlines: whatever the peer does, and whenever the sink is
called, a perform is over when its total budget is, give or take what one wait or one round of
libcurl takes too long.

Time stands still while the sink runs, and while anything but a wait or libcurl does.

Main results:

- Theorem {lit}`scriptPerform_budget`: the scripted transport.
- Theorem {lit}`curlPerform_budget`: the curl transport.
-/

namespace Sicha

variable {σ : Type} {time : σ → UInt64}

/-- No time passes. -/
def Untimed (time : σ → UInt64) (s s' : σ) : Prop :=
  time s' = time s

/-- It is not later than that. -/
def NotAfter (time : σ → UInt64) (limit : Nat) (s : σ) : Prop :=
  (time s).toNat ≤ limit

/-- Where no time passes, the limit still holds. -/
theorem Untimed.notAfter {limit : Nat} {s s' : σ} (h : Untimed time s s')
    (hs : NotAfter time limit s) : NotAfter time limit s' := by
  unfold NotAfter
  rw [h]
  exact hs

/-! ## The scripted transport -/

/-- Reading the clock takes no time, and a wait at most {lit}`lag` more than it was asked for. -/
structure Clock.Prompt (ck : Clock σ) (time : σ → UInt64) (lag : Nat) : Prop where
  reads : ∀ s, (ck.nowMs s).1 = time s
  now : ∀ s, Untimed time s (ck.nowMs s).2
  waits : ∀ cancel ms s,
    NotAfter time ((time s).toNat + ms.toNat + lag) (ck.waitMs cancel ms s).2

section Script

variable {ck : Clock σ} {lag : Nat} {cancel : Option (CancelToken σ)} {rq : HttpRequest}
  {resp : ScriptResponse} {fuel : Nat}

/-- The loop of {lit}`delay_within` is over when its second deadline is. -/
theorem delayLoop_budget (hck : ck.Prompt time lag) (target : UInt64) (a b : Deadline)
    (fuel : Nat) {limit : Nat} (hb : b.at_.toNat + lag ≤ limit) {s : σ}
    (hs : NotAfter time limit s) :
    NotAfter time limit (delayLoop ck cancel target a b fuel s).2 := by
  induction fuel generalizing s with
  | zero => exact hs
  | succ fuel ih =>
      have hnow := (hck.now s).notAfter hs
      have hreads : (ck.nowMs s).1 = time (ck.nowMs s).2 := (hck.reads s).trans (hck.now s).symm
      unfold delayLoop
      dsimp only
      by_cases hcancel : cancelledNow cancel (ck.nowMs s).2 = true
      · rw [if_pos hcancel]
        exact hnow
      rw [if_neg hcancel, hreads]
      rcases delayRound_cases (time (ck.nowMs s).2) target a b with
        ⟨-, hround⟩ | ⟨-, -, hround⟩ | ⟨-, -, -, hround⟩ | ⟨-, hlt, -, ms, hround, hms⟩
      · rw [hround]
        exact hnow
      · rw [hround]
        exact hnow
      · rw [hround]
        exact hnow
      · rw [hround]
        have hwaited := hck.waits cancel ms (ck.nowMs s).2
        have hend : NotAfter time limit (ck.waitMs cancel ms (ck.nowMs s).2).2 := by
          unfold NotAfter at hwaited ⊢
          omega
        dsimp only
        split_ifs
        · exact hend
        · exact ih hend

/-- A phase: a wait, and what follows if nothing ends the call. -/
theorem phase_budget (hck : ck.Prompt time lag) (delayMs : UInt64) (a : Deadline) {b : Deadline}
    {limit : Nat} (hb : b.at_.toNat + lag ≤ limit) {s : σ} (hs : NotAfter time limit s)
    {next : σ → Dialogue σ SinkCall Int (Option TransportStatus)}
    (hnext : ∀ s', NotAfter time limit s' →
      (next s').Assures (Untimed time) (NotAfter time limit) fun _ => NotAfter time limit) :
    Dialogue.Assures (Untimed time) (NotAfter time limit) (fun _ => NotAfter time limit)
      (match delayWithin ck cancel fuel delayMs a b s with
      | (some .ok, s) => next s
      | (st, s) => .done st s) := by
  have hdelay : NotAfter time limit (delayWithin ck cancel fuel delayMs a b s).2 :=
    delayLoop_budget hck _ a b fuel hb ((hck.now s).notAfter hs)
  split
  · rename_i s' heq
    rw [heq] at hdelay
    exact hnext s' hdelay
  · rename_i heq
    rw [heq] at hdelay
    exact hdelay

/-- A question to the sink takes no time, and its refusal ends the perform. -/
theorem asks_budget {q : SinkCall} {sink : Bool} {limit : Nat} {s : σ} (hs : NotAfter time limit s)
    {next : σ → Dialogue σ SinkCall Int (Option TransportStatus)}
    (hnext : ∀ s', NotAfter time limit s' →
      (next s').Assures (Untimed time) (NotAfter time limit) fun _ => NotAfter time limit) :
    Dialogue.Assures (Untimed time) (NotAfter time limit) (fun _ => NotAfter time limit)
      (if sink then
        .ask q s fun rc s => if rc ≠ 0 then .done (some .abortedBySink) s else next s
      else next s) := by
  cases sink with
  | false => exact hnext s hs
  | true =>
      refine ⟨hs, fun rc s' hmove => ?_⟩
      dsimp only
      split_ifs
      · exact hmove.notAfter hs
      · exact hnext s' (hmove.notAfter hs)

/-- A response is over by its total deadline, and what a wait takes too long. -/
theorem scriptRun_budget (hck : ck.Prompt time lag) (sink : Bool) (s : σ) :
    let limit := (absDeadline (time s) rq.timeouts.totalMs).toNat + lag
    (scriptRun ck cancel fuel sink rq resp s).Assures (Untimed time) (NotAfter time limit)
      fun _ => NotAfter time limit := by
  intro limit
  have hb : (absDeadline (ck.nowMs s).1 rq.timeouts.totalMs).toNat + lag ≤ limit := by
    rw [hck.reads]
  have hbody (pieces : List Bytes) {s' : σ} (hs : NotAfter time limit s') :
      (scriptBody ck cancel fuel sink rq resp
        ⟨absDeadline (ck.nowMs s).1 rq.timeouts.totalMs, .timeoutTotal⟩ pieces s').Assures
          (Untimed time) (NotAfter time limit) fun _ => NotAfter time limit := by
    induction pieces generalizing s' with
    | nil => exact hs
    | cons piece pieces ih =>
        exact phase_budget hck _ _ hb ((hck.now s').notAfter hs) fun s'' hs' =>
          asks_budget hs' fun s3 hs3 => ih hs3
  have hnow : NotAfter time limit (ck.nowMs s).2 := by
    have hle : (time s).toNat ≤ (absDeadline (time s) rq.timeouts.totalMs).toNat := by
      unfold absDeadline
      split_ifs
      · exact Nat.le_of_lt_succ (time s).toNat_lt
      · rw [addSat_toNat]
        have hlast := (time s).toNat_lt
        omega
    exact (hck.now s).notAfter (hle.trans (Nat.le_add_right _ _))
  refine phase_budget hck _ _ hb hnow fun s' hs => ?_
  split_ifs
  · exact hs
  · exact phase_budget hck _ _ hb hs fun s'' hs' => asks_budget hs' fun s3 hs3 => hbody _ hs3

end Script

section Enter

variable {H : Heap σ} {P : σ → Prop}

/-- Copied headers change the environment only through the allocator. -/
theorem headersCopy_keeps (halloc : ∀ n s, P s → P (H.alloc n s).2) (hs : List HeaderRef) {s : σ}
    (h : P s) : P (headersCopy H hs s).2 := by
  induction hs generalizing s with
  | nil => exact h
  | cons r hs ih =>
      have hcopied := halloc ((r.value.getD []).length + 1) _ (halloc ((r.name.getD []).length + 1) _ h)
      unfold headersCopy
      dsimp only
      split_ifs
      · exact ih hcopied
      · exact hcopied

/-- The section of a perform only allocates. -/
theorem scriptEnter_keeps (halloc : ∀ n s, P s → P (H.alloc n s).2) (rq : HttpRequest)
    (st : ScriptState) {s : σ} (h : P s) : P (scriptEnter H rq st s).2.2 := by
  have hroom : P (scriptRoom H st.calls.length st.cCap s).2 := by
    unfold scriptRoom
    split_ifs
    · exact halloc _ _ h
    · exact h
  have hcopy {s : σ} (h : P s) : P (scriptCopyCall H rq s).2 := by
    have harray := halloc (max (rq.headers.map Header.ref).length 1) _
      (halloc (rq.body.length + 1) _ (halloc (rq.url.length + 1) _ h))
    unfold scriptCopyCall headersDeepCopy
    dsimp only
    split_ifs
    all_goals first
      | exact headersCopy_keeps halloc _ harray
      | exact harray
  unfold scriptEnter
  split
  · rename_i heq
    rwa [heq] at hroom
  · rename_i heq
    rw [heq] at hroom
    have hcopied := hcopy hroom
    split
    · rename_i heq'
      rwa [heq'] at hcopied
    · rename_i heq'
      rw [heq'] at hcopied
      dsimp only
      split <;> exact hcopied

end Enter

/-- A perform of the scripted transport is over when its total budget is. -/
theorem scriptPerform_budget {H : Heap σ} {ck : Clock (ScriptState × σ)} {lag : Nat}
    (hH : ∀ n s, Untimed time s (H.alloc n s).2)
    (hck : ck.Prompt (fun s => time s.2) lag) (cancel : Option (CancelToken (ScriptState × σ)))
    (fuel : Nat) (sink : Bool) (rq : HttpRequest) (s : ScriptState × σ)
    (htotal : rq.timeouts.totalMs ≠ disabled) :
    let limit := (time s.2).toNat + rq.timeouts.totalMs.toNat + lag
    (scriptPerform H ck cancel fuel sink rq s).Assures (Untimed fun s => time s.2)
      (NotAfter (fun s => time s.2) limit) fun _ => NotAfter (fun s => time s.2) limit := by
  intro limit
  have hsection : Untimed time s.2 (scriptEnter H rq s.1 s.2).2.2 :=
    @scriptEnter_keeps _ H (Untimed time s.2) (fun n t ht => (hH n t).trans ht) rq s.1 _ rfl
  have hlimit : (absDeadline (time s.2) rq.timeouts.totalMs).toNat + lag ≤ limit := by
    rw [absDeadline, if_neg htotal, addSat_toNat, UInt32.toNat_toUInt64]
    omega
  have hstart : (time s.2).toNat ≤ limit := by omega
  unfold scriptPerform
  split <;> rename_i heq <;> rw [heq] at hsection
  · exact hsection.notAfter hstart
  · exact hsection.notAfter hstart
  · rename_i resp s'
    have hrun := @scriptRun_budget _ (fun s => time s.2) ck lag cancel rq resp fuel hck sink s'
    have htime : time s'.2 = time s.2 := hsection
    rw [htime] at hrun
    exact hrun.mono (fun t ht => le_trans ht hlimit) fun _ t ht => le_trans ht hlimit

/-! ## The curl transport -/

/-- The timeout of {lit}`curl_multi_poll`. -/
def curlPollMs : Nat := 100

/-- Later, but not by more than that. -/
structure Later (time : σ → UInt64) (span : Nat) (s s' : σ) : Prop where
  le : (time s).toNat ≤ (time s').toNat
  soon : NotAfter time ((time s).toNat + span) s'

/-- Where no time passes, it is no later. -/
theorem Later.untimed {span : Nat} {s s' s'' : σ} (h : Later time span s s')
    (hmove : Untimed time s' s'') : Later time span s s'' := by
  refine ⟨?_, hmove.notAfter h.soon⟩
  rw [hmove]
  exact h.le

/-- libcurl takes its time only in {lit}`curl_multi_poll`, and at most {lit}`lag` more than the
timeout there, and at most {lit}`lag` for a round.  If nothing is running there is a message. -/
structure Libcurl.Prompt {α : Type} (L : Libcurl α σ) (time : σ → UInt64) (lag : Nat) : Prop where
  slistAppend : ∀ line s, Untimed time s (L.slistAppend line s).2
  addHandle : ∀ slot setup s, Untimed time s (L.addHandle slot setup s).2
  perform : ∀ slot s, (L.perform slot s).Assures (Untimed time) (Later time lag s) fun o s' =>
    Later time lag s s' ∧ (o = (.ok, false) → (L.infoRead slot s').1 ≠ none)
  infoRead : ∀ slot s, Untimed time s (L.infoRead slot s).2
  poll : ∀ slot s, Later time (curlPollMs + lag) s (L.poll slot s)
  removeHandle : ∀ slot s, Untimed time s (L.removeHandle slot s)
  cleanup : ∀ slot s, Untimed time s (L.cleanup slot s)

section Curl

variable {α : Type} {L : Libcurl α σ} {H : Heap σ} {ck : Clock σ} {lag : Nat}
  {cancel : Option (CancelToken σ)} {sink : Bool} {rq : HttpRequest} {slot : CurlSlot α}

/-- The callbacks take no time of their own. -/
theorem curlCallback_budget (hH : ∀ n s, Untimed time s (H.alloc n s).2) (hck : ck.Prompt time lag)
    {ask : σ → Prop} (hask : ∀ s s', ask s → Untimed time s s' → ask s') (q : CurlCall) (x : Xfer)
    (s : σ) (hs : ask s) :
    (curlCallback H ck sink q x s).Assures (Untimed time) ask fun _ => Untimed time s := by
  have hnow := hck.now s
  have hfinish (len : Nat) (x : Xfer) :
      (finishHeaders sink len x (ck.nowMs s).2).Assures (Untimed time) ask
        fun _ => Untimed time s := by
    unfold finishHeaders
    split_ifs
    · exact hnow
    · refine ⟨hask _ _ hs hnow, fun rc s' hmove => ?_⟩
      dsimp only
      split_ifs <;> exact hmove.trans hnow
    · exact hnow
  cases q with
  | header line =>
      change (headerDialogue H ck sink line x s).Assures _ _ _
      unfold headerDialogue
      dsimp only
      split_ifs
      · exact hnow
      · exact hnow
      · exact hfinish _ _
      · unfold headerCbField
        split
        · exact hnow
        · split_ifs
          · exact hnow
          · dsimp only [dupBytes]
            split_ifs <;> exact (hH _ _).trans ((hH _ _).trans hnow)
  | body bytes =>
      change (writeCb ck sink bytes x s).Assures _ _ _
      unfold writeCb
      dsimp only
      split_ifs
      · refine ⟨hask _ _ hs hnow, fun rc s' hmove => ?_⟩
        dsimp only
        split_ifs <;> exact hmove.trans hnow
      · exact hnow

/-- One round of libcurl, with the callbacks. -/
theorem curlPump_budget (hL : L.Prompt time lag) (hH : ∀ n s, Untimed time s (H.alloc n s).2)
    (hck : ck.Prompt time lag) (x : Xfer) (s : σ) :
    (curlPump L H ck sink slot x s).Assures (Untimed time) (Later time lag s) fun o s' =>
      Later time lag s s' ∧ (o.1 = (.ok, false) → (L.infoRead slot s').1 ≠ none) :=
  (hL.perform slot s).relay (curlCallback_budget hH hck fun _ _ h hmove => h.untimed hmove) x

/-- The loop goes round again with a poll before the total budget is over; or nothing is running, and
there is no message. -/
theorem curlDecide_budget (hL : L.Prompt time lag) (hck : ck.Prompt time lag) {start : UInt64}
    (htotal : rq.timeouts.totalMs ≠ disabled) (code : CurlMCode) (running : Bool) (x : Xfer)
    {s : σ} (hstart : start.toNat ≤ (time s).toNat) :
    let r := curlDecide L ck cancel rq slot start code running x s
    Untimed time s r.2 ∧ ∀ poll, r.1 = .inr poll →
      (poll = true ∧ (time s).toNat < start.toNat + rq.timeouts.totalMs.toNat) ∨
        ((code, running) = (.ok, false) ∧ (L.infoRead slot s).1 = none) := by
  intro r
  have hinfo := hL.infoRead slot s
  simp only [r]
  unfold curlDecide
  cases code with
  | outOfMemory => exact ⟨rfl, nofun⟩
  | other => exact ⟨rfl, nofun⟩
  | ok =>
      dsimp only
      split
      · rename_i heq
        rw [heq] at hinfo
        exact ⟨(hck.now _).trans hinfo, nofun⟩
      · rename_i s' heq
        rw [heq] at hinfo
        have hnow := (hck.now s').trans hinfo
        cases running with
        | false => exact ⟨hinfo, fun poll _ => .inr ⟨rfl, congrArg Prod.fst heq⟩⟩
        | true =>
            simp only [if_true]
            split
            · exact ⟨hnow, nofun⟩
            · rename_i hcheck
              refine ⟨hnow, fun poll hpoll => .inl ⟨(Sum.inr.inj hpoll).symm, ?_⟩⟩
              by_contra hlate
              have hreached : rq.timeouts.totalMs ≠ disabled ∧
                  (ck.nowMs s').1 - start ≥ rq.timeouts.totalMs.toUInt64 := by
                refine ⟨htotal, ?_⟩
                have hread : (ck.nowMs s').1 = time s := (hck.reads s').trans hinfo
                rw [ge_iff_le, UInt64.le_iff_toNat_le, UInt32.toNat_toUInt64, hread,
                  UInt64.toNat_sub_of_le _ _ (UInt64.le_iff_toNat_le.mpr hstart)]
                omega
              unfold curlCheck at hcheck
              split_ifs at hcheck
              unfold curlTimeout at hcheck
              rw [if_pos hreached] at hcheck
              cases hcheck

/-- The loop is over when the total budget is. -/
theorem curlLoop_budget (hL : L.Prompt time lag) (hH : ∀ n s, Untimed time s (H.alloc n s).2)
    (hck : ck.Prompt time lag) {start : UInt64} (htotal : rq.timeouts.totalMs ≠ disabled)
    (fuel : Nat) (x : Xfer) {s : σ} (hstart : start.toNat ≤ (time s).toNat)
    (hs : NotAfter time (start.toNat + rq.timeouts.totalMs.toNat + curlPollMs + lag) s) :
    let limit := start.toNat + rq.timeouts.totalMs.toNat + curlPollMs + 2 * lag
    (curlLoop L H ck cancel sink rq slot start fuel x s).Assures (Untimed time)
      (NotAfter time limit) fun _ => NotAfter time limit := by
  intro limit
  induction fuel generalizing x s with
  | zero =>
      change NotAfter time limit s
      unfold NotAfter at hs ⊢
      omega
  | succ fuel ih =>
      have hlimit : ∀ s', Later time lag s s' → NotAfter time limit s' := by
        intro s' hlater
        have hsoon := hlater.soon
        unfold NotAfter at hs hsoon ⊢
        omega
      unfold curlLoop
      refine ((curlPump_budget hL hH hck x s).mono hlimit fun _ _ h => h).bind fun o s' hpump => ?_
      obtain ⟨hlater, hmessage⟩ := hpump
      have hstart' := hstart.trans hlater.le
      obtain ⟨hdecided, hagain⟩ :=
        @curlDecide_budget _ _ _ L ck lag cancel rq slot hL hck start htotal o.1.1 o.1.2 o.2 s' hstart'
      split
      · rename_i heq
        rw [heq] at hdecided
        exact hdecided.notAfter (hlimit s' hlater)
      · rename_i poll s'' heq
        rw [heq] at hdecided hagain
        rcases hagain poll rfl with ⟨rfl, hlt⟩ | ⟨hidle, hnone⟩
        · have hpolled := hL.poll slot s''
          have hle := hpolled.le
          have hsoon := hpolled.soon
          unfold NotAfter at hsoon
          rw [hdecided] at hle hsoon
          have hin : NotAfter time
              (start.toNat + rq.timeouts.totalMs.toNat + curlPollMs + lag) (L.poll slot s'') := by
            unfold NotAfter
            omega
          exact ih o.2 (hstart'.trans hle) hin
        · exact absurd hnone (hmessage hidle)

/-- A transfer is over by its total budget, a poll, and what a poll and a round take too long. -/
theorem curlTransfer_budget (hL : L.Prompt time lag) (hH : ∀ n s, Untimed time s (H.alloc n s).2)
    (hck : ck.Prompt time lag) (htotal : rq.timeouts.totalMs ≠ disabled) (fuel : Nat) (s : σ) :
    let limit := (time s).toNat + rq.timeouts.totalMs.toNat + curlPollMs + 2 * lag
    (curlTransfer L H ck cancel sink rq slot fuel s).Assures (Untimed time) (NotAfter time limit)
      fun _ => NotAfter time limit := by
  intro limit
  have hheaders (hs : List Header) (lines : List Bytes) {s' : σ} (h : Untimed time s s') :
      Untimed time s (curlHeaders L H hs lines s').2 := by
    induction hs generalizing lines s' with
    | nil => exact (hL.slistAppend _ _).trans h
    | cons f hs ih =>
        unfold curlHeaders
        dsimp only
        split_ifs
        · exact ih _ ((hL.slistAppend _ _).trans ((hH _ _).trans h))
        · exact (hL.slistAppend _ _).trans ((hH _ _).trans h)
        · exact (hH _ _).trans h
  have hlimit : NotAfter time limit s := by
    unfold NotAfter
    omega
  have hlines := hheaders rq.headers [] rfl
  unfold curlTransfer
  split <;> rename_i heq <;> rw [heq] at hlines
  · exact hlines.notAfter hlimit
  · rename_i lines s'
    have hadded := (hL.addHandle slot (curlSetup rq lines) s').trans hlines
    dsimp only
    split_ifs
    · have hnow := (hck.now (L.addHandle slot (curlSetup rq lines) s').2).trans hadded
      have hread := (hck.reads (L.addHandle slot (curlSetup rq lines) s').2).trans hadded
      rw [hread]
      refine curlLoop_budget hL hH hck htotal fuel _ (by rw [hnow]) ?_
      unfold NotAfter
      rw [hnow]
      omega
    · exact Untimed.notAfter hadded hlimit

end Curl

/-- A perform of the curl transport is over when its total budget is, one poll and two lags later. -/
theorem curlPerform_budget {α : Type} {C : CurlInit α σ} {L : Libcurl α (CurlPool α × σ)}
    {H : Heap (CurlPool α × σ)} {ck : Clock (CurlPool α × σ)} {lag : Nat}
    (hC : ∀ s, Untimed time s (C.easy s).2 ∧ Untimed time s (C.multi s).2)
    (hL : L.Prompt (fun s => time s.2) lag)
    (hH : ∀ n s, Untimed (fun s => time s.2) s (H.alloc n s).2)
    (hck : ck.Prompt (fun s => time s.2) lag) (cancel : Option (CancelToken (CurlPool α × σ)))
    (fuel : Nat) (sink : Bool) (rq : HttpRequest) (s : CurlPool α × σ)
    (htotal : rq.timeouts.totalMs ≠ disabled) :
    let limit := (time s.2).toNat + rq.timeouts.totalMs.toNat + curlPollMs + 2 * lag
    (curlPerform C L H ck cancel fuel sink rq s).Assures (Untimed fun s => time s.2)
      (NotAfter (fun s => time s.2) limit) fun _ => NotAfter (fun s => time s.2) limit := by
  intro limit
  have hhandles {v : σ} : Untimed time v (newHandles C v).2 := by
    unfold newHandles
    dsimp only
    split <;> exact ((hC _).2).trans (hC v).1
  have hscan : Untimed time s.2 (slotScan C s.1 s.2).2.2 := by
    unfold slotScan
    split
    · rfl
    · split
      · have hnew := @hhandles s.2
        split <;> rename_i heq <;> rwa [heq] at hnew
      · rfl
  have hlimit : NotAfter time limit s.2 := by
    unfold NotAfter
    omega
  have htransfer (slot : CurlSlot α) {s' : CurlPool α × σ} (hs : Untimed time s.2 s'.2) :
      (curlTransfer L H ck cancel sink rq slot fuel s').Assures (Untimed fun s => time s.2)
        (NotAfter (fun s => time s.2) limit) fun _ => NotAfter (fun s => time s.2) limit := by
    have hrun := @curlTransfer_budget _ (fun s => time s.2) α L H ck lag cancel sink rq slot hL hH hck
      htotal fuel s'
    have htime : time s'.2 = time s.2 := hs
    rwa [htime] at hrun
  unfold curlPerform
  split <;> rename_i heq <;> rw [heq] at hscan
  · exact hscan.notAfter hlimit
  · exact (htransfer _ hscan).bind fun r s' hs => (hL.removeHandle _ s').notAfter hs
  · rename_i s'
    have hfresh : Untimed time s.2 (slotTransient C s'.2).2 := (@hhandles s'.2).trans hscan
    split <;> rename_i heq' <;> rw [heq'] at hfresh
    · exact hfresh.notAfter hlimit
    · exact (htransfer _ hfresh).bind fun r s'' hs =>
        Untimed.notAfter ((hL.cleanup _ _).trans (hL.removeHandle _ s'')) hs

end Sicha
