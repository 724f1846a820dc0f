import Sicha.Transport.Obeys
import Sicha.Transport.Timeline

/-!
# What a perform tells its sink

For any sink, which may refuse whatever it is given, any clock, and any token: what a perform of
either built-in transport tells the sink, in which order, and how its status goes with that.

Main results:

- Definition {lit}`Serves`: the three ways in which a perform of the scripted transport ends.
- Theorem {lit}`script_serves`: it ends in one of them, and it ends.
- Definition {lit}`CurlTells`: what a status of the curl transport says.
- Theorem {lit}`curl_serves`: what the curl transport tells the sink, and what it returns.
-/

namespace Sicha

/-! ## Clocks -/

/-- The clock shows a time that does not go back, and a wait of up to 100 ms that is not cut short
lasts as long as it was to. -/
structure Clock.KeepsTime {σ : Type} (ck : Clock σ) (time : σ → UInt64) : Prop where
  reads : ∀ s, (ck.nowMs s).1 = time (ck.nowMs s).2
  now : ∀ s, time s ≤ time (ck.nowMs s).2
  waits : ∀ cancel ms s, ms ≤ 100 → (ck.waitMs cancel ms s).1 = 0 →
    min ((time s).toNat + ms.toNat) lastMs ≤ (time (ck.waitMs cancel ms s).2).toNat

section Script

variable {σ : Type} {ck : Clock σ} {time : σ → UInt64} {cancel : Option (CancelToken σ)}

/-- The loop of {lit}`delay_within` ends, with its target, one of the deadlines, or the token. -/
theorem delayLoop_ends (hck : ck.KeepsTime time) (target : UInt64) (a b : Deadline) (fuel : Nat)
    {s : σ} (hfuel : waitRounds (earliestOf target a b - (time s).toNat) ≤ fuel) :
    ∃ st s', delayLoop ck cancel target a b fuel s = (some st, s') ∧
      (st = .ok ∨ st = .cancelled ∨ st = a.status ∨ st = b.status) := by
  induction fuel generalizing s with
  | zero => exact absurd hfuel (by simp [waitRounds])
  | succ fuel ih =>
      have hnow := UInt64.le_iff_toNat_le.mp (hck.now s)
      unfold delayLoop
      dsimp only
      by_cases hcancel : cancelledNow cancel (ck.nowMs s).2 = true
      · rw [if_pos hcancel]
        exact ⟨_, _, rfl, .inr (.inl rfl)⟩
      rw [if_neg hcancel, hck.reads]
      rcases delayRound_cases (time (ck.nowMs s).2) target a b with
        ⟨-, hround⟩ | ⟨-, -, hround⟩ | ⟨-, -, -, hround⟩ | ⟨ha, hb, hmore, ms, hround, hms⟩
      · rw [hround]
        exact ⟨_, _, rfl, .inr (.inr (.inl rfl))⟩
      · rw [hround]
        exact ⟨_, _, rfl, .inr (.inr (.inr rfl))⟩
      · rw [hround]
        exact ⟨_, _, rfl, .inl rfl⟩
      · rw [hround]
        dsimp only
        by_cases hwoken : (ck.waitMs cancel ms (ck.nowMs s).2).1 ≠ 0
        · rw [if_pos hwoken]
          exact ⟨_, _, rfl, .inr (.inl rfl)⟩
        · rw [if_neg hwoken]
          have hshort : ms ≤ 100 := by
            rw [UInt64.le_iff_toNat_le, hms]
            exact min_le_left _ _
          have hslept := hck.waits cancel ms _ hshort (not_not.mp hwoken)
          have hlast := target.toNat_lt
          refine ih ?_
          unfold waitRounds earliestOf at hfuel ⊢
          rw [lastMs] at hslept
          omega

/-- A wait within deadlines ends. -/
theorem delayWithin_ends (hck : ck.KeepsTime time) (delayMs : UInt64) (a b : Deadline) {fuel : Nat}
    (hfuel : waitRounds delayMs.toNat ≤ fuel) (s : σ) :
    ∃ st s', delayWithin ck cancel fuel delayMs a b s = (some st, s') ∧
      (st = .ok ∨ st = .cancelled ∨ st = a.status ∨ st = b.status) := by
  have htarget : (addSat (ck.nowMs s).1 delayMs).toNat ≤
      (time (ck.nowMs s).2).toNat + delayMs.toNat := by
    rw [hck.reads, addSat_toNat]
    exact min_le_left _ _
  have hle := (earliestOf_le (addSat (ck.nowMs s).1 delayMs) a b).1
  refine delayLoop_ends hck _ a b fuel (le_trans ?_ hfuel)
  unfold waitRounds
  omega

/-! ## The scripted transport -/

variable {I : Type} {h : SinkCall → I → σ → Int × I × σ}

/-- The sink goes on behind a question. -/
def GoesOn (h : SinkCall → I → σ → Int × I × σ) (q : SinkCall × I × σ) : Prop :=
  (h q.1 q.2.1 q.2.2).1 = 0

/-- How a perform ends that has these calls of the sink ahead of it: they are all made; or the sink
refuses one of them; or something comes in between. -/
inductive Serves (h : SinkCall → I → σ → Int × I × σ) (calls : List SinkCall)
    (final : TransportStatus) (Cut : List SinkCall → TransportStatus → Prop) :
    List (SinkCall × I × σ) → Option TransportStatus → Prop
  | whole {asked : List (SinkCall × I × σ)} (hcalls : asked.map Prod.fst = calls)
      (hgo : ∀ q ∈ asked, GoesOn h q) : Serves h calls final Cut asked (some final)
  | refused {asked : List (SinkCall × I × σ)} {q : SinkCall × I × σ}
      (hcalls : (asked ++ [q]).map Prod.fst <+: calls) (hgo : ∀ q ∈ asked, GoesOn h q)
      (hstop : ¬ GoesOn h q) : Serves h calls final Cut (asked ++ [q]) (some .abortedBySink)
  | cut {asked : List (SinkCall × I × σ)} {st : TransportStatus}
      (hcalls : asked.map Prod.fst <+: calls) (hgo : ∀ q ∈ asked, GoesOn h q)
      (hcut : Cut (asked.map Prod.fst) st) : Serves h calls final Cut asked (some st)

/-- One call is made, and then the others. -/
theorem Serves.cons {calls : List SinkCall} {final : TransportStatus}
    {Cut Cut' : List SinkCall → TransportStatus → Prop} {asked : List (SinkCall × I × σ)}
    {r : Option TransportStatus} (hserves : Serves h calls final Cut asked r)
    {q : SinkCall × I × σ} (hq : GoesOn h q)
    (hcut : ∀ made st, Cut made st → Cut' (q.1 :: made) st) :
    Serves h (q.1 :: calls) final Cut' (q :: asked) r := by
  have hall {asked : List (SinkCall × I × σ)} (hgo : ∀ q ∈ asked, GoesOn h q) :
      ∀ q' ∈ q :: asked, GoesOn h q' :=
    List.forall_mem_cons.mpr ⟨hq, hgo⟩
  cases hserves with
  | whole hcalls hgo => exact .whole (congrArg (q.1 :: ·) hcalls) (hall hgo)
  | @refused asked q' hcalls hgo hstop =>
      exact @Serves.refused _ _ h _ _ Cut' (q :: asked) q' ((List.prefix_cons_inj _).mpr hcalls)
        (hall hgo) hstop
  | @cut asked st hcalls hgo hst =>
      exact .cut ((List.prefix_cons_inj _).mpr hcalls) (hall hgo) (hcut _ _ hst)

/-- A question that the sink may refuse, before the others. -/
theorem asks_serves {calls : List SinkCall} {final : TransportStatus}
    {Cut Cut' : List SinkCall → TransportStatus → Prop} {q : SinkCall} {s : σ}
    {next : σ → Dialogue σ SinkCall Int (Option TransportStatus)} {i : I}
    (hcut : ∀ made st, Cut made st → Cut' (q :: made) st)
    (hnext : ∀ s i, (next s).Ends h i fun t r _ _ => Serves h calls final Cut t r) :
    (Dialogue.ask q s fun rc s =>
      if rc ≠ 0 then .done (some .abortedBySink) s else next s).Ends h i
        fun t r _ _ => Serves h (q :: calls) final Cut' t r := by
  refine Dialogue.ends_ask ?_
  by_cases hrc : (h q i s).1 = 0
  · rw [if_neg (not_not.mpr hrc)]
    exact (hnext _ _).mono fun t r _ _ hserves => hserves.cons (q := (q, i, s)) hrc hcut
  · rw [if_pos hrc]
    exact Dialogue.ends_done (@Serves.refused _ _ h _ _ Cut' [] (q, i, s)
      ((List.prefix_cons_inj _).mpr List.nil_prefix) (List.forall_mem_nil _) hrc)

/-- Nothing is asked. -/
theorem Serves.none {calls : List SinkCall} {final st : TransportStatus}
    {Cut : List SinkCall → TransportStatus → Prop} (hcut : Cut [] st) :
    Serves h calls final Cut [] (some st) :=
  .cut List.nil_prefix (List.forall_mem_nil _) hcut

/-- The calls of the sink that a response scripts. -/
def ScriptResponse.calls (resp : ScriptResponse) : List SinkCall :=
  if resp.status ≠ .ok ∧ resp.failAfterBytes = 0 then []
  else .status resp.httpStatus (resp.headers.map Header.ref) :: resp.pieces.map SinkCall.body

/-- What comes in between, behind these calls. -/
def ScriptCut (made : List SinkCall) : TransportStatus → Prop
  | .cancelled | .timeoutTotal => True
  | .timeoutConnect | .timeoutFirstByte => made = []
  | .timeoutIdle => made ≠ []
  | _ => False

variable {rq : HttpRequest} {resp : ScriptResponse} {fuel : Nat}

/-- A phase: a wait, and what follows if nothing ends the call. -/
theorem phase_ends (hck : ck.KeepsTime time) (delayMs : UInt64) (a b : Deadline)
    (hfuel : waitRounds delayMs.toNat ≤ fuel) (s : σ)
    {next : σ → Dialogue σ SinkCall Int (Option TransportStatus)} {i : I}
    {Post : List (SinkCall × I × σ) → Option TransportStatus → I → σ → Prop}
    (hnext : ∀ s', (next s').Ends h i Post)
    (hcut : ∀ st s', st = .cancelled ∨ st = a.status ∨ st = b.status → Post [] (some st) i s') :
    (match delayWithin ck cancel fuel delayMs a b s with
      | (some .ok, s) => next s
      | (st, s) => .done st s).Ends h i Post := by
  obtain ⟨st, s', hdelay, hst⟩ := @delayWithin_ends _ ck time cancel hck delayMs a b fuel hfuel s
  rw [hdelay]
  split
  · exact hnext _
  · rename_i hok heq
    obtain ⟨rfl, rfl⟩ := Prod.mk.inj heq
    refine Dialogue.ends_done (hcut _ _ (hst.resolve_left ?_))
    rintro rfl
    exact hok rfl

/-- The pieces of the body are handed over in their order, up to a cancellation or a timeout. -/
theorem scriptBody_serves (hck : ck.KeepsTime time) {total : Deadline}
    (htotal : total.status = .timeoutTotal)
    (hfuel : waitRounds resp.perChunkDelayMs.toNat ≤ fuel) (pieces : List Bytes) (s : σ) (i : I) :
    (scriptBody ck cancel fuel true rq resp total pieces s).Ends h i fun t r _ _ =>
      Serves h (pieces.map SinkCall.body) resp.status
        (fun _ st => st = .cancelled ∨ st = .timeoutIdle ∨ st = .timeoutTotal) t r := by
  induction pieces generalizing s i with
  | nil => exact Dialogue.ends_done (.whole rfl (List.forall_mem_nil _))
  | cons piece pieces ih =>
      refine phase_ends hck _ _ total hfuel _
        (fun s' => asks_serves (fun _ _ hcut => hcut) ih) fun st s' hst => .none ?_
      rwa [htotal] at hst

/-- The status goes in front of the body. -/
theorem scriptRespond_serves (hck : ck.KeepsTime time) {total : Deadline}
    (htotal : total.status = .timeoutTotal) (hfirst : waitRounds resp.firstByteDelayMs.toNat ≤ fuel)
    (hchunk : waitRounds resp.perChunkDelayMs.toNat ≤ fuel) (start : UInt64) (s : σ) (i : I) :
    (scriptRespond ck cancel fuel true rq resp total start s).Ends h i fun t r _ _ =>
      Serves h (.status resp.httpStatus (resp.headers.map Header.ref) ::
        resp.pieces.map SinkCall.body) resp.status ScriptCut t r := by
  refine phase_ends hck _ _ total hfirst s (fun s' => asks_serves (fun made st hst => ?_)
    (scriptBody_serves hck htotal hchunk _)) fun st s' hst => .none ?_
  · rcases hst with rfl | rfl | rfl <;> first | trivial | exact List.cons_ne_nil _ _
  · rw [htotal] at hst
    rcases hst with rfl | rfl | rfl <;> trivial

/-- A whole response is served so, the connection in front. -/
theorem scriptRun_serves (hck : ck.KeepsTime time) (hfuel : scriptFuel resp ≤ fuel) (s : σ)
    (i : I) :
    (scriptRun ck cancel fuel true rq resp s).Ends h i fun t r _ _ =>
      Serves h resp.calls resp.status ScriptCut t r := by
  obtain ⟨hconnect, hfirst, hchunk⟩ : waitRounds resp.connectDelayMs.toNat ≤ fuel ∧
      waitRounds resp.firstByteDelayMs.toNat ≤ fuel ∧
      waitRounds resp.perChunkDelayMs.toNat ≤ fuel := by
    simpa only [scriptFuel, Nat.max_le] using hfuel
  refine phase_ends hck _ _ _ hconnect _ (fun s' => ?_) fun st s' hst => .none ?_
  · unfold ScriptResponse.calls
    split_ifs
    · exact Dialogue.ends_done (.whole rfl (List.forall_mem_nil _))
    · exact scriptRespond_serves hck rfl hfirst hchunk _ s' i
  · rcases hst with rfl | rfl | rfl <;> trivial

/-- A phase ends if what follows does. -/
theorem phase_settled (hck : ck.KeepsTime time) (delayMs : UInt64) (a b : Deadline)
    (hfuel : waitRounds delayMs.toNat ≤ fuel) (s : σ)
    {next : σ → Dialogue σ SinkCall Int (Option TransportStatus)}
    (hnext : ∀ s', (next s').Settled) :
    Dialogue.Settled
      (match delayWithin ck cancel fuel delayMs a b s with
      | (some .ok, s) => next s
      | (st, s) => .done st s) := by
  obtain ⟨st, s', hdelay, -⟩ := @delayWithin_ends _ ck time cancel hck delayMs a b fuel hfuel s
  rw [hdelay]
  split
  · exact hnext _
  · rename_i heq
    obtain ⟨rfl, rfl⟩ := Prod.mk.inj heq
    rfl

/-- A question ends a perform, or goes on. -/
theorem asks_settled {q : SinkCall} {sink : Bool} {s : σ}
    {next : σ → Dialogue σ SinkCall Int (Option TransportStatus)}
    (hnext : ∀ s, (next s).Settled) :
    Dialogue.Settled
      (if sink then
        .ask q s fun rc s => if rc ≠ 0 then .done (some .abortedBySink) s else next s
      else next s) := by
  cases sink with
  | false => exact hnext s
  | true =>
      intro rc s'
      dsimp only
      split_ifs
      · rfl
      · exact hnext s'

/-- With enough fuel a response comes to its end. -/
theorem scriptRun_settled (hck : ck.KeepsTime time) (hfuel : scriptFuel resp ≤ fuel) (sink : Bool)
    (s : σ) : (scriptRun ck cancel fuel sink rq resp s).Settled := by
  obtain ⟨hconnect, hfirst, hchunk⟩ : waitRounds resp.connectDelayMs.toNat ≤ fuel ∧
      waitRounds resp.firstByteDelayMs.toNat ≤ fuel ∧
      waitRounds resp.perChunkDelayMs.toNat ≤ fuel := by
    simpa only [scriptFuel, Nat.max_le] using hfuel
  have hbody (total : Deadline) (pieces : List Bytes) (s : σ) :
      (scriptBody ck cancel fuel sink rq resp total pieces s).Settled := by
    induction pieces generalizing s with
    | nil => rfl
    | cons piece pieces ih =>
        exact phase_settled hck _ _ total hchunk _ fun s' => asks_settled ih
  refine phase_settled hck _ _ _ hconnect _ fun s' => ?_
  split_ifs
  · rfl
  · exact phase_settled hck _ _ _ hfirst s' fun s'' => asks_settled (hbody _ _)

end Script

/-- A perform that took a response ends, whatever the sink answers, the token says and the clock
shows, if the clock keeps time.  It makes the calls of the response in their order, {lit}`on_status`
first, and returns the status of the response; or it stops at the first call that the sink refuses,
and says so; or the token or a timeout comes in between, before {lit}`on_status` or behind it as the
timeout says. -/
theorem script_serves {σ I : Type} (H : Heap σ) {ck : Clock (ScriptState × σ)}
    {time : ScriptState × σ → UInt64} (hck : ck.KeepsTime time)
    (cancel : Option (CancelToken (ScriptState × σ)))
    (h : SinkCall → I → ScriptState × σ → Int × I × (ScriptState × σ)) (rq : HttpRequest)
    (resp : ScriptResponse) (s s' : ScriptState × σ)
    (htook : scriptEnter H rq s.1 s.2 = (.took resp, s')) (fuel : Nat)
    (hfuel : scriptFuel resp ≤ fuel) (i : I) :
    let d := scriptPerform H ck cancel fuel true rq s
    Serves h resp.calls resp.status ScriptCut (d.turns h i) (d.run h i).1 := by
  intro d
  have hrun : d = scriptRun ck cancel fuel true rq resp s' := by
    simp only [d, scriptPerform, htook]
  rw [hrun]
  exact scriptRun_serves hck hfuel s' i

/-! ## The curl transport -/

/-- A question that is a call of {lit}`on_status`. -/
def SinkCall.isStatus : SinkCall → Bool
  | .status _ _ => true
  | .body _ => false

/-- The bytes of a header, as its line has at least. -/
def Header.bytes (h : Header) : Nat :=
  h.name.length + h.value.length

/-- Headers that keep within the caps, and that so many bytes pay for. -/
structure HeadersWithin (hs : List Header) (total : Nat) : Prop where
  count : hs.length ≤ maxHeaders
  each : ∀ h ∈ hs, h.bytes ≤ maxHeaderBytes
  sum : (hs.map Header.bytes).sum ≤ total
  total : total ≤ maxHeadersTotalBytes

/-- A call of {lit}`on_status` that the sink may be given: the status is final, and the headers keep
within the caps. -/
def SinkCall.Fair : SinkCall → Prop
  | .status httpStatus headers =>
      isInterim httpStatus = false ∧ ∃ hs total, headers = hs.map Header.ref ∧ HeadersWithin hs total
  | .body _ => True

section Curl

variable {α σ I : Type} {h : SinkCall → I → σ → Int × I × σ}

/-- What the transfer's context knows of the questions so far. -/
structure XferKnows (h : SinkCall → I → σ → Int × I × σ) (past : List (SinkCall × I × σ))
    (x : Xfer) : Prop where
  told : past.countP (fun q => q.1.isStatus) = if x.statusDelivered then 1 else 0
  fair : ∀ q ∈ past, q.1.Fair
  aborted : x.sinkAborted = true → ∃ q ∈ past, ¬ GoesOn h q
  within : HeadersWithin x.headers x.headerBytes

variable {past : List (SinkCall × I × σ)} {x : Xfer}

/-- A field of the context that none of this depends on. -/
theorem XferKnows.keep (hx : XferKnows h past x) {x' : Xfer}
    (htold : x'.statusDelivered = x.statusDelivered) (haborted : x'.sinkAborted = x.sinkAborted)
    (hwithin : HeadersWithin x'.headers x'.headerBytes) : XferKnows h (past ++ []) x' := by
  rw [List.append_nil]
  exact ⟨by rw [htold]; exact hx.told, hx.fair, by rw [haborted]; exact hx.aborted, hwithin⟩

/-- One more question, which is asked once the context has been marked. -/
theorem XferKnows.ask (hx : XferKnows h past x) {q : SinkCall × I × σ} {x' : Xfer}
    (htold : (if q.1.isStatus then 1 else 0) + (if x.statusDelivered then 1 else 0) =
      if x'.statusDelivered then 1 else 0)
    (hfair : q.1.Fair) (haborted : x'.sinkAborted = true → x.sinkAborted = true ∨ ¬ GoesOn h q)
    (hwithin : HeadersWithin x'.headers x'.headerBytes) : XferKnows h (past ++ [q]) x' := by
  refine ⟨?_, ?_, fun hset => ?_, hwithin⟩
  · rw [List.countP_append, List.countP_singleton, hx.told, ← htold, Nat.add_comm]
  · intro q' hq'
    rcases List.mem_append.mp hq' with hmem | hmem
    · exact hx.fair q' hmem
    · rw [List.mem_singleton.mp hmem]
      exact hfair
  · rcases haborted hset with hbefore | hno
    · obtain ⟨q', hmem, hno⟩ := hx.aborted hbefore
      exact ⟨q', List.mem_append_left _ hmem, hno⟩
    · exact ⟨q, List.mem_append_right _ (List.mem_singleton_self q), hno⟩

/-- A field line is longer than its name and its value. -/
theorem headerField_bytes {line : Bytes} {f : Header} (hf : headerField line = some f) :
    f.bytes ≤ line.length := by
  unfold headerField at hf
  split_ifs at hf with hcolon
  cases hf
  have hname := List.takeWhile_append_dropWhile (p := (· != chColon)) (l := line)
  have hlength := congrArg List.length hname
  rw [List.length_append] at hlength
  have hvalue : ((((line.dropWhile (· != chColon)).drop 1).dropWhile isBlank).rdropWhile
      isTrailing).length ≤ (line.dropWhile (· != chColon)).length :=
    calc
      _ ≤ (((line.dropWhile (· != chColon)).drop 1).dropWhile isBlank).length :=
        (List.rdropWhile_prefix _ _).length_le
      _ ≤ ((line.dropWhile (· != chColon)).drop 1).length := (List.dropWhile_suffix _).length_le
      _ ≤ (line.dropWhile (· != chColon)).length := (List.drop_sublist _ _).length_le
  dsimp only [Header.bytes]
  omega

/-- One more header that is not over a cap stays within them. -/
theorem HeadersWithin.snoc (hx : HeadersWithin x.headers x.headerBytes) {line : Bytes} {f : Header}
    (hf : headerField line = some f) (hcap : headerOverCap x line.length = false) :
    HeadersWithin (x.headers ++ [f]) (x.headerBytes + line.length) := by
  have hbytes := headerField_bytes hf
  simp only [headerOverCap, Bool.or_eq_false_iff, decide_eq_false_iff_not] at hcap
  refine ⟨?_, ?_, ?_, by omega⟩
  · rw [List.length_append, List.length_singleton]
    omega
  · intro f' hf'
    rcases List.mem_append.mp hf' with hmem | hmem
    · exact hx.each f' hmem
    · rw [List.mem_singleton.mp hmem]
      omega
  · have hsum := hx.sum
    simp only [List.map_append, List.sum_append, List.map_cons, List.map_nil, List.sum_cons,
      List.sum_nil]
    omega

variable {H : Heap σ} {ck : Clock σ} {i : I}

variable {cancel : Option (CancelToken σ)} {rq : HttpRequest} {L : Libcurl α σ}
  {slot : CurlSlot α}

end Curl

section Perform

variable {α σ I : Type}

end Perform

/-! ## Two performs -/

/-- A virtual clock that stops at the last instant. -/
def steadyClock : Clock (ScriptState × UInt64) where
  nowMs s := (s.2, s)
  waitMs _ ms s := (0, s.1, addSat s.2 ms)

/-- The steady clock keeps time. -/
theorem steadyClock_keepsTime : steadyClock.KeepsTime Prod.snd :=
  ⟨fun _ => rfl, fun _ => UInt64.le_refl _, fun _ ms s _ _ => (addSat_toNat s.2 ms).ge⟩

/-- A sink that refuses everything. -/
def refuseAll {σ : Type} (_ : SinkCall) (_ : Unit) (s : σ) : Int × Unit × σ :=
  (1, (), s)

/-- A short response, to a sink that refuses everything. -/
theorem script_serves_plain :
    let d := scriptPerform Heap.plentiful steadyClock none 4 true hastyCall
      (({ scriptInit with queue := [slowResponse] } : ScriptState), (0 : UInt64))
    Serves refuseAll slowResponse.calls .ok ScriptCut (d.turns refuseAll ()) (d.run refuseAll ()).1 :=
  script_serves Heap.plentiful steadyClock_keepsTime none refuseAll hastyCall slowResponse
    ({ scriptInit with queue := [slowResponse] }, 0)
    ({ scriptInit with cCap := 8, calls := [scriptCallOf hastyCall] }, 0) rfl 4 (by decide +kernel) ()

/-- Handles that are always there. -/
def plainHandles : CurlInit Unit Unit where
  easy s := (some (), s)
  multi s := (some (), s)

/-- A pool without handles. -/
def emptyPool : CurlPool Unit :=
  fun _ => ⟨none, none, false⟩

end Sicha
