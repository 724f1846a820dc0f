import Sicha.Transport.Perform

/-!
# The built-in transports obey the sink

A transport is to stop as soon as a callback of its sink returns nonzero, and to say so.  The
scripted transport does, and the curl transport does if libcurl does what it documents: a callback
that takes less than it was given aborts the transfer.

Main results:

- Definition {lit}`Libcurl.Aborts`: what libcurl documents.
- Theorem {lit}`scriptPerform_stops`: the scripted transport.
- Theorem {lit}`curlPerform_stops`: the curl transport.
-/

namespace Sicha

variable {α σ : Type}

/-! ## The scripted transport -/

section Script

variable (ck : Clock σ) (cancel : Option (CancelToken σ)) (fuel : Nat) (sink : Bool)
  (rq : HttpRequest) (resp : ScriptResponse)

omit ck cancel fuel sink rq resp in
/-- A question whose refusal ends the perform. -/
theorem asks_stops {q : SinkCall} {s : σ}
    {next : σ → Dialogue σ SinkCall Int (Option TransportStatus)}
    (hnext : ∀ s, (next s).StopsWith (· ≠ 0) (some .abortedBySink)) :
    (Dialogue.ask q s fun rc s =>
      if rc ≠ 0 then .done (some .abortedBySink) s else next s).StopsWith (· ≠ 0)
        (some .abortedBySink) := by
  intro rc s'
  refine ⟨fun hrc => ⟨s', if_pos hrc⟩, ?_⟩
  dsimp only
  by_cases hrc : rc ≠ 0
  · rw [if_pos hrc]
    trivial
  · rw [if_neg hrc]
    exact hnext s'

/-- The body stops at the first piece that is refused. -/
theorem scriptBody_stops (total : Deadline) (pieces : List Bytes) (s : σ) :
    (scriptBody ck cancel fuel sink rq resp total pieces s).StopsWith (· ≠ 0)
      (some .abortedBySink) := by
  induction pieces generalizing s with
  | nil => trivial
  | cons piece pieces ih =>
      unfold scriptBody
      dsimp only
      split
      · split_ifs
        · exact asks_stops ih
        · exact ih _
      · trivial

/-- A response stops at the first call that is refused. -/
theorem scriptRespond_stops (total : Deadline) (start : UInt64) (s : σ) :
    (scriptRespond ck cancel fuel sink rq resp total start s).StopsWith (· ≠ 0)
      (some .abortedBySink) := by
  unfold scriptRespond
  dsimp only
  split
  · split_ifs
    · exact asks_stops (scriptBody_stops ck cancel fuel sink rq resp total _)
    · exact scriptBody_stops ck cancel fuel sink rq resp total _ _
  · trivial

/-- So does a response with its connection. -/
theorem scriptRun_stops (s : σ) :
    (scriptRun ck cancel fuel sink rq resp s).StopsWith (· ≠ 0) (some .abortedBySink) := by
  unfold scriptRun
  dsimp only
  split
  · split_ifs
    · trivial
    · exact scriptRespond_stops ck cancel fuel sink rq resp _ _ _
  · trivial

end Script

/-- The scripted transport asks nothing more behind a refusal, and says so. -/
theorem scriptPerform_stops (H : Heap σ) (ck : Clock (ScriptState × σ))
    (cancel : Option (CancelToken (ScriptState × σ))) (fuel : Nat) (sink : Bool)
    (rq : HttpRequest) (s : ScriptState × σ) :
    (scriptPerform H ck cancel fuel sink rq s).StopsWith (· ≠ 0) (some .abortedBySink) := by
  unfold scriptPerform
  split
  · trivial
  · trivial
  · exact scriptRun_stops ck cancel fuel sink rq _ _

/-! ## What libcurl documents -/

/-- The transfer of a slot is over, and its result is waiting. -/
def Libcurl.Over (L : Libcurl α σ) (slot : CurlSlot α) (s : σ) : Prop :=
  ∃ rc s', L.infoRead slot s = (some rc, s')

/-- A callback that takes less than it was given aborts the transfer, and a call with no bytes is
the last one. -/
def Libcurl.AbortsIn (L : Libcurl α σ) (slot : CurlSlot α) :
    Dialogue σ CurlCall Nat (CurlMCode × Bool) → Prop
  | .done _ _ => True
  | .ask q _ k => ∀ n s,
      (n ≠ q.bytes.length ∨ q.bytes = [] → ∃ running s',
        k n s = .done (.ok, running) s' ∧ L.Over slot s') ∧
      L.AbortsIn slot (k n s)

/-- It does so in every {lit}`curl_multi_perform`. -/
def Libcurl.Aborts (L : Libcurl α σ) : Prop :=
  ∀ slot s, L.AbortsIn slot (L.perform slot s)

/-! ## The curl transport -/

/-- Nothing has gone wrong in the callbacks. -/
structure Xfer.Clean (x : Xfer) : Prop where
  sinkAborted : x.sinkAborted = false
  capsExceeded : x.capsExceeded = false
  oom : x.oom = false

/-- The sink has told the callbacks to stop, and nothing else has gone wrong. -/
structure Xfer.Refused (x : Xfer) : Prop where
  sinkAborted : x.sinkAborted = true
  capsExceeded : x.capsExceeded = false
  oom : x.oom = false

/-- What a callback does: it takes everything, or too little without asking the sink, or it asks the
sink once. -/
inductive CallbackCases (q : CurlCall) : Dialogue σ SinkCall Int (Nat × Xfer) → Prop
  | takes {x : Xfer} (h : x.Clean) (s : σ) : CallbackCases q (.done (q.bytes.length, x) s)
  | fails (x : Xfer) (s : σ) (h : q.bytes ≠ []) : CallbackCases q (.done (0, x) s)
  | asks {x x' : Xfer} (h : x.Clean) (h' : x'.Refused) (ask : SinkCall) (s : σ) :
      CallbackCases q (.ask ask s fun rc s =>
        if rc ≠ 0 then .done (0, x') s else .done (q.bytes.length, x) s)

section Curl

variable {L : Libcurl α σ} {H : Heap σ} {ck : Clock σ}

/-- The end of the headers takes its line, fails, or asks the sink about the status. -/
theorem finishHeaders_cases (line : Bytes) {x : Xfer} (hx : x.Clean) (s : σ) :
    CallbackCases (.header line) (finishHeaders true line.length x s) := by
  unfold finishHeaders
  dsimp only
  split_ifs
  · refine .takes ?_ s
    exact ⟨hx.sinkAborted, hx.capsExceeded, hx.oom⟩
  · refine .asks ?_ ?_ _ s
    · exact ⟨hx.sinkAborted, hx.capsExceeded, hx.oom⟩
    · exact ⟨rfl, hx.capsExceeded, hx.oom⟩
  · contradiction

/-- A header field is taken, or the callback fails. -/
theorem headerCbField_cases (line : Bytes) {x : Xfer} (hx : x.Clean) (s : σ) :
    CallbackCases (.header line)
      (.done ((headerCbField H line x s).1, (headerCbField H line x s).2.1)
        (headerCbField H line x s).2.2) := by
  unfold headerCbField
  split
  · exact .takes hx s
  · rename_i h hfield
    have hne : line ≠ [] := by
      rintro rfl
      cases hfield
    dsimp only
    split_ifs
    · exact .fails _ _ hne
    · refine .takes ?_ _
      exact ⟨hx.sinkAborted, hx.capsExceeded, hx.oom⟩
    · exact .fails _ _ hne

/-- A callback takes its bytes, fails, or asks the sink. -/
theorem curlCallback_cases (q : CurlCall) {x : Xfer} (hx : x.Clean) (s : σ) :
    CallbackCases q (curlCallback H ck true q x s) := by
  have hread (now : UInt64) : Xfer.Clean { x with lastActivityMs := now } :=
    ⟨hx.sinkAborted, hx.capsExceeded, hx.oom⟩
  cases q with
  | header line =>
      simp only [curlCallback, headerDialogue]
      split_ifs
      · exact .takes (hread _) _
      · refine .takes ?_ _
        exact ⟨hx.sinkAborted, hx.capsExceeded, hx.oom⟩
      · exact finishHeaders_cases line (hread _) _
      · exact headerCbField_cases line (hread _) _
  | body bytes =>
      simp only [curlCallback, writeCb, if_true]
      refine .asks (hread _) ?_ _ _
      exact ⟨rfl, hx.capsExceeded, hx.oom⟩

/-- How {lit}`curl_multi_perform` ends once the sink has refused: the transfer is over. -/
def PumpRefused (L : Libcurl α σ) (slot : CurlSlot α) (o : (CurlMCode × Bool) × Xfer) (s : σ) :
    Prop :=
  o.1.1 = .ok ∧ o.2.Refused ∧ L.Over slot s

/-- How it ends otherwise: all is well, or the transfer is over. -/
def PumpEnd (L : Libcurl α σ) (slot : CurlSlot α) (o : (CurlMCode × Bool) × Xfer) (s : σ) :
    Prop :=
  o.2.Clean ∨ L.Over slot s

/-- A round of libcurl stops at the first call that is refused. -/
theorem relay_stops {slot : CurlSlot α} {d : Dialogue σ CurlCall Nat (CurlMCode × Bool)}
    (hd : L.AbortsIn slot d) {x : Xfer} (hx : x.Clean) :
    (d.relay (curlCallback H ck true) x).StopsAt (· ≠ 0) (PumpRefused L slot)
      (PumpEnd L slot) := by
  induction d generalizing x with
  | done r s => exact .inl hx
  | ask q s k ih =>
      have hcases : CallbackCases q (curlCallback H ck true q x s) := curlCallback_cases q hx s
      unfold Dialogue.relay
      generalize curlCallback H ck true q x s = g at hcases
      cases hcases with
      | takes hx' s' => exact ih _ _ (hd _ _).2 hx'
      | fails x' s' hne =>
          obtain ⟨running, s'', hk, hover⟩ := (hd 0 s').1
            (.inl fun hlen => hne (List.eq_nil_of_length_eq_zero hlen.symm))
          simp only [Dialogue.bind, hk, Dialogue.relay]
          exact .inr hover
      | asks hclean hrefused ask s' =>
          refine fun rc s3 => ?_
          by_cases hrc : rc = 0
          · simp only [hrc, ne_eq, not_true_eq_false, if_false, false_imp_iff, true_and,
              Dialogue.bind]
            exact ih _ _ (hd _ _).2 hclean
          · obtain ⟨running, s'', hk, hover⟩ := (hd 0 s3).1
              (or_iff_not_imp_right.mpr fun hne hlen =>
                hne (List.eq_nil_of_length_eq_zero hlen.symm))
            simp only [ne_eq, hrc, not_false_eq_true, if_true, true_imp_iff, Dialogue.bind, hk,
              Dialogue.relay]
            exact ⟨⟨_, _, rfl, rfl, hrefused, hover⟩, .inr hover⟩

/-- A result that no check of the loop comes before. -/
theorem mapCurlCode_refused {x : Xfer} (hx : x.Refused) (rc : CurlCode) (elapsedMs : UInt64)
    (budgetMs : UInt32) : mapCurlCode rc x elapsedMs budgetMs = .abortedBySink := by
  simp [mapCurlCode, hx.oom, hx.capsExceeded, hx.sinkAborted]

variable {cancel : Option (CancelToken σ)} {rq : HttpRequest} {slot : CurlSlot α}

/-- Once the sink has refused and the transfer is over, the loop is left. -/
theorem curlDecide_pumpRefused (ck : Clock σ) (cancel : Option (CancelToken σ)) (rq : HttpRequest)
    (start : UInt64) {o : (CurlMCode × Bool) × Xfer} {s : σ}
    (h : PumpRefused L slot o s) : ∃ s',
      curlDecide L ck cancel rq slot start o.1.1 o.1.2 o.2 s = (.inl .abortedBySink, s') := by
  obtain ⟨hok, hrefused, rc, s', hinfo⟩ := h
  exact ⟨(ck.nowMs s').2, by simp only [curlDecide, hok, hinfo, mapCurlCode_refused hrefused]⟩

/-- The loop goes round again only while all is well. -/
theorem curlDecide_goes {start : UInt64} {o : (CurlMCode × Bool) × Xfer} {s s' : σ} {poll : Bool}
    (h : PumpEnd L slot o s)
    (hgoes : curlDecide L ck cancel rq slot start o.1.1 o.1.2 o.2 s = (.inr poll, s')) :
    o.2.Clean := by
  refine h.resolve_right ?_
  rintro ⟨rc, s3, hinfo⟩
  unfold curlDecide at hgoes
  split at hgoes
  · cases hgoes
  · cases hgoes
  · rw [hinfo] at hgoes
    cases hgoes

/-- The loop stops at the first call that is refused. -/
theorem curlLoop_stops (hL : L.Aborts) (start : UInt64) (fuel : Nat) {x : Xfer} (hx : x.Clean)
    (s : σ) :
    (curlLoop L H ck cancel true rq slot start fuel x s).StopsAt (· ≠ 0)
      (fun st _ => st = some .abortedBySink) fun _ _ => True := by
  induction fuel generalizing x s with
  | zero => trivial
  | succ fuel ih =>
      unfold curlLoop
      refine Dialogue.StopsAt.bind (relay_stops (hL slot s) hx) (fun o s' hend => ?_)
        fun o s' hend => ?_
      · obtain ⟨s'', hdecide⟩ := curlDecide_pumpRefused ck cancel rq start hend
        exact ⟨_, s'', by rw [hdecide], rfl⟩
      · split
        · trivial
        · rename_i hgoes
          exact ih (curlDecide_goes hend hgoes) _

/-- In a new transfer nothing has gone wrong. -/
theorem xferInit_clean (now : UInt64) : Xfer.Clean { xferInit with lastActivityMs := now } :=
  ⟨rfl, rfl, rfl⟩

/-- A transfer stops at the first call that is refused. -/
theorem curlTransfer_stops (hL : L.Aborts) (fuel : Nat) (s : σ) :
    (curlTransfer L H ck cancel true rq slot fuel s).StopsAt (· ≠ 0)
      (fun st _ => st = some .abortedBySink) fun _ _ => True := by
  unfold curlTransfer
  split
  · trivial
  · dsimp only
    split_ifs
    · exact curlLoop_stops hL _ fuel (xferInit_clean _) _
    · trivial

end Curl

/-- The curl transport asks nothing more behind a refusal, and says so. -/
theorem curlPerform_stops (C : CurlInit α σ) {L : Libcurl α (CurlPool α × σ)} (hL : L.Aborts)
    (H : Heap (CurlPool α × σ)) (ck : Clock (CurlPool α × σ))
    (cancel : Option (CancelToken (CurlPool α × σ))) (fuel : Nat) (rq : HttpRequest)
    (s : CurlPool α × σ) :
    (curlPerform C L H ck cancel fuel true rq s).StopsWith (· ≠ 0) (some .abortedBySink) := by
  unfold curlPerform
  split
  · trivial
  · exact (curlTransfer_stops hL fuel _).pass
  · split
    · trivial
    · exact (curlTransfer_stops hL fuel _).pass

/-! ## A plain libcurl -/

section Plain

variable {α σ : Type}

/-- Hand over some calls, one after the other, as long as they are taken. -/
def handOver : List CurlCall → σ → Dialogue σ CurlCall Nat (CurlMCode × Bool)
  | [], s => .done (.ok, false) s
  | q :: rest, s =>
      .ask q s fun n s => if n ≠ q.bytes.length then .done (.ok, false) s else handOver rest s

/-- A libcurl that has a whole response at once. -/
def plainLibcurl : Libcurl α σ where
  slistAppend _ s := (true, s)
  addHandle _ _ s := (true, s)
  perform _ :=
    handOver [.header (ascii "HTTP/1.1 200 OK\r\n"), .header (ascii "\r\n"), .body (ascii "hi")]
  infoRead _ s := (some .ok, s)
  poll _ s := s
  removeHandle _ s := s
  cleanup _ s := s

/-- Calls that are handed over stop at a callback that takes less. -/
theorem handOver_aborts (slot : CurlSlot α) {calls : List CurlCall}
    (hcalls : ∀ q ∈ calls, q.bytes ≠ []) (s : σ) :
    (plainLibcurl (α := α)).AbortsIn slot (handOver calls s) := by
  induction calls generalizing s with
  | nil => trivial
  | cons q calls ih =>
      refine fun n s' => ⟨fun hless => ?_, ?_⟩
      · have hne : n ≠ q.bytes.length :=
          hless.resolve_right (hcalls q List.mem_cons_self)
        exact ⟨false, s', if_pos hne, .ok, s', rfl⟩
      · dsimp only
        split_ifs
        · trivial
        · exact ih (fun q' hq' => hcalls q' (List.mem_cons_of_mem _ hq')) s'

/-- The plain libcurl aborts as the documented one does. -/
theorem plainLibcurl_aborts : (plainLibcurl (α := α) (σ := σ)).Aborts :=
  fun slot s => handOver_aborts slot (by decide) s

end Plain

end Sicha
