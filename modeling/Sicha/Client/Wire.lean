import Sicha.Client.Create
import Sicha.Client.Run
import Sicha.Request.Headers

/-!
# What goes over the wire

Every request a call hands to the transport is an attempt on a backend, with the headers of
that backend, or the abort assist of a backend.  The headers of a created client cannot
inject anything.

Main results:

- Theorem {lit}`turn_performs`: the requests of one turn.
- Theorem {lit}`turn_cached`: the cached headers of a backend are its own.
- Theorem {lit}`chat_headers`: no header injection, for every perform of every call of a
  created client.
-/

namespace Sicha

section Runs

variable [SizeT] {σ : Type}

namespace Call

variable (k : Call σ)

/-! ## The requests of a turn -/

/-- The state of a turn that goes on or leaves. -/
def reached {c : Client σ} (out : LoopState c ⊕ LoopState c) : LoopState c :=
  Sum.elim id id out

/-- The new actions of a turn, and which of them are requests: an attempt that was prepared,
or the abort assist of the backend. -/
def Performs (s : LoopState k.c) (w : World σ) : Prop :=
  ∃ new, w.trace = s.world.trace ++ new ∧ ∀ a ∈ new, a.isPerform = true →
    (∃ rq s1, k.prepare (k.polled s) = (.ok rq, s1) ∧ a = k.handing rq) ∨
      a ∈ assisted (k.backend s)

omit [SizeT] in
/-- Data is no perform. -/
theorem data_notPerform {acts : List Act} (h : ∀ a ∈ acts, a.isData = true) {a : Act}
    (ha : a ∈ acts) : a.isPerform = false := by
  have hdata := h a ha
  cases a <;> first | rfl | cases hdata

/-- A validation is no perform. -/
theorem checked_notPerform (x : Ran σ) {a : Act} (ha : a ∈ k.checked x) :
    a.isPerform = false := by
  unfold checked at ha
  split at ha
  · cases ha
  · rw [List.mem_singleton.mp ha]
    rfl

/-- An announcement is no perform. -/
theorem told_notPerform (e : Attempt) {a : Act} (ha : a ∈ k.told e) : a.isPerform = false := by
  unfold told at ha
  split_ifs at ha
  · rw [List.mem_singleton.mp ha]
    rfl
  · cases ha

/-- The actions of an attempt, followed by others. -/
theorem attempt_performs {s s1 : LoopState k.c} {rq : HttpRequest} {w : World σ}
    (hprep : k.prepare (k.polled s) = (.ok rq, s1)) {rest : List Act}
    (htrace : w.trace = s.world.trace ++ k.handing rq :: (k.given rq s1 ++ rest))
    (hrest : ∀ a ∈ rest, a.isPerform = true → a ∈ assisted (k.backend s)) :
    k.Performs s w := by
  refine ⟨_, htrace, fun a ha hperform => ?_⟩
  rcases List.mem_cons.mp ha with rfl | ha
  · exact .inl ⟨rq, s1, hprep, rfl⟩
  rcases List.mem_append.mp ha with ha | ha
  · rw [data_notPerform (k.roundTrip_given rq s1).data ha] at hperform
    cases hperform
  · exact .inr (hrest a ha hperform)

/-- Where the trace is as it was there is no perform. -/
theorem Performs.unchanged {s : LoopState k.c} {w : World σ} (h : w.trace = s.world.trace) :
    k.Performs s w :=
  ⟨[], by rw [h, List.append_nil], fun _ ha => nomatch ha⟩

/-- The requests of a turn. -/
theorem turn_performs {s : LoopState k.c} {out : LoopState k.c ⊕ LoopState k.c}
    (hturn : k.Turn s out) : k.Performs s (reached out).world := by
  cases hturn with
  | cancelled _ => exact .unchanged k (k.polled_unchanged s).trace
  | unprepared _ hprep => exact .unchanged k (k.prepared_unchanged hprep).trace
  | @unrecorded rq s1 _ hprep hadd =>
      change k.Performs s (k.recorded s1 rq).2.world
      refine k.attempt_performs hprep (k.unrecorded_spec hprep hadd).trace fun a ha hperform => ?_
      rw [k.checked_notPerform _ ha] at hperform
      cases hperform
  | @terminal rq s1 _ hprep hadd hfinal =>
      have htrace := (took hprep hadd).trace
      rw [List.append_assoc] at htrace
      generalize k.announced s1 rq = s2 at htrace
      change k.Performs s s2.world
      refine k.attempt_performs hprep htrace fun a ha hperform => ?_
      rcases List.mem_append.mp ha with ha | ha
      · rw [k.checked_notPerform _ ha] at hperform
        cases hperform
      · rw [k.told_notPerform _ ha] at hperform
        cases hperform
  | @next rq s1 _ _ hprep hadd hfinal hnext =>
      have htook := took hprep hadd
      have hbackend : k.backend (k.announced s1 rq) = k.backend s := by
        unfold backend
        rw [htook.i]
      have htrace := htook.trace
      generalize k.announced s1 rq = s2 at hbackend htrace hnext
      rw [List.append_assoc] at htrace
      have haside : ∀ a ∈ k.checked (k.roundTrip rq s1) ++ k.told (k.entry rq s1),
          a.isPerform = true → a ∈ assisted (k.backend s) := by
        intro a ha hperform
        rcases List.mem_append.mp ha with ha | ha
        · rw [k.checked_notPerform _ ha] at hperform
          cases hperform
        · rw [k.told_notPerform _ ha] at hperform
          cases hperform
      have hplain := k.attempt_performs hprep htrace haside
      have hwaited : k.Performs s (k.waited (k.roundTrip rq s1).o.retryAfterMs s2).2.world := by
        have hwait := k.waited_trace (k.roundTrip rq s1).o.retryAfterMs s2
        rw [htrace, List.append_assoc, List.cons_append, List.append_assoc] at hwait
        refine k.attempt_performs hprep hwait fun a ha hperform => ?_
        rcases List.mem_append.mp ha with ha | ha
        · exact haside a ha hperform
        · rw [List.mem_singleton.mp ha] at hperform
          cases hperform
      cases hnext with
      | success _ => exact hplain
      | abort _ => exact hplain
      | cancelled _ =>
          have hassist := k.koboldAbortAssist_trace (k.backend s2) s2.world
          rw [htrace, hbackend, List.append_assoc, List.cons_append, List.append_assoc] at hassist
          change k.Performs s (k.koboldAbortAssist (k.backend s2) s2.world)
          rw [hbackend]
          refine k.attempt_performs hprep hassist fun a ha hperform => ?_
          rcases List.mem_append.mp ha with ha | ha
          · exact haside a ha hperform
          · exact ha
      | lost _ _ => exact hplain
      | reroll _ _ _ => exact hplain
      | interrupted _ _ _ _ => exact hwaited
      | retry _ _ _ _ => exact hwaited
      | fallback _ _ _ => exact hplain
      | exhausted _ _ _ _ => exact hplain

/-! ## The cached headers -/

/-- The headers a call keeps for a backend are its own. -/
def HeadersCached (s : LoopState k.c) : Prop :=
  ∀ (i : Fin k.c.backends.length) headers, (s.headers[i.val]?).join = some headers →
    headers = attemptHeaders (k.c.backends.get i) k.stream k.c.userAgent

/-- The headers of a backend are built once, and are the attempt's. -/
theorem prepareHeaders_cached {s s1 : LoopState k.c} {out : Except Status (List Header)}
    (hs : k.HeadersCached s) (h : k.prepareHeaders s = (out, s1)) :
    k.HeadersCached s1 ∧ ∀ headers, out = .ok headers →
      headers = attemptHeaders (k.backend s) k.stream k.c.userAgent := by
  unfold prepareHeaders at h
  split at h
  · rename_i headers hcached
    cases h
    refine ⟨hs, ?_⟩
    rintro headers' ⟨⟩
    exact hs s.i headers hcached
  · have hvalue := @Fallible.Yields.value _ _ _ True _ _
      (@buildHeaders_yields _ k.H True (.inr trivial) (k.backend s) k.stream k.c.userAgent)
      s.world.env
    rcases hrun : (buildHeaders k.H (k.backend s) k.stream k.c.userAgent).exec s.world.env
      with ⟨r, env⟩
    rw [hrun] at h
    cases r with
    | error st =>
        cases h
        exact ⟨hs, by rintro headers ⟨⟩⟩
    | ok headers =>
        cases h
        have hheaders := hvalue hrun
        refine ⟨?_, ?_⟩
        · intro i headers' hget
          dsimp only at hget
          rw [List.getElem?_set] at hget
          split_ifs at hget with hsame hlt
          · have hi : s.i = i := Fin.ext hsame
            rw [← hi]
            cases hget
            exact hheaders
          · cases hget
          · exact hs i headers' hget
        · rintro headers' ⟨⟩
          exact hheaders

/-- The request carries the attempt's headers. -/
theorem prepare_cached {s s1 : LoopState k.c} {out : Except Status HttpRequest}
    (hs : k.HeadersCached s) (h : k.prepare s = (out, s1)) :
    k.HeadersCached s1 ∧ ∀ rq, out = .ok rq →
      ∃ body, rq = chatRequest (k.backend s) body
        (attemptHeaders (k.backend s) k.stream k.c.userAgent) := by
  obtain ⟨bodies, env, hbody⟩ := k.prepareBody_spec s
  unfold prepare at h
  rcases hb : k.prepareBody s with ⟨r, s0⟩
  rw [hb] at hbody h
  dsimp only at hbody
  subst hbody
  cases r with
  | error st =>
      cases h
      exact ⟨hs, by rintro rq ⟨⟩⟩
  | ok body =>
      dsimp only at h
      have hsame : k.HeadersCached (k.recached s bodies s.headers env) := hs
      rcases hh : k.prepareHeaders (k.recached s bodies s.headers env) with ⟨r', s2⟩
      have hcached := k.prepareHeaders_cached hsame hh
      rw [hh] at h
      cases r' with
      | error st =>
          cases h
          exact ⟨hcached.1, by rintro rq ⟨⟩⟩
      | ok headers =>
          have hheaders : headers = attemptHeaders (k.backend s) k.stream k.c.userAgent :=
            hcached.2 headers rfl
          obtain ⟨headers', env', hs2⟩ := k.prepareHeaders_spec (k.recached s bodies s.headers env)
          rw [hh] at hs2
          cases h
          refine ⟨hcached.1, ?_⟩
          rintro rq ⟨⟩
          dsimp only at hs2
          subst hs2
          exact ⟨body, by rw [hheaders]; rfl⟩

/-- An attempt leaves the cached headers alone. -/
theorem announced_headers (s : LoopState k.c) (rq : HttpRequest) :
    (k.announced s rq).headers = s.headers := by
  unfold announced announce
  split <;> rfl

/-- The cached headers of a backend are its own, after every turn. -/
theorem turn_cached {s : LoopState k.c} (hs : k.HeadersCached s)
    {out : LoopState k.c ⊕ LoopState k.c} (hturn : k.Turn s out) :
    k.HeadersCached (reached out) := by
  have hpolled : k.HeadersCached (k.polled s) := hs
  cases hturn with
  | cancelled _ => exact hs
  | unprepared _ hprep => exact (k.prepare_cached hpolled hprep).1
  | unrecorded _ hprep _ => exact (k.prepare_cached hpolled hprep).1
  | @terminal rq s1 _ hprep _ _ =>
      have hkept := (k.prepare_cached hpolled hprep).1
      unfold HeadersCached at hkept
      rw [← k.announced_headers s1 rq] at hkept
      generalize k.announced s1 rq = s2 at hkept
      exact hkept
  | @next rq s1 _ _ hprep _ _ hnext =>
      have hkept := (k.prepare_cached hpolled hprep).1
      unfold HeadersCached at hkept
      rw [← k.announced_headers s1 rq] at hkept
      generalize k.announced s1 rq = s2 at hkept hnext
      cases hnext <;> exact hkept

end Call

/-! ## No header injection -/

/-- Headers that survive the way over the wire, and inject nothing. -/
structure WireSafe (headers : List Header) : Prop where
  roundTrip : HeaderLines.parse (HeaderLines.text (headers.map Header.field)) =
    headers.map Header.field
  safe : ∀ h ∈ headers, SafeHeader h

omit [SizeT] in
/-- Safe headers are safe on the wire. -/
theorem WireSafe.of_safe {headers : List Header} (h : ∀ x ∈ headers, SafeHeader x) :
    WireSafe headers :=
  ⟨SafeHeader.roundTrip h, h⟩

/-- The headers the client generates itself occur once in an attempt. -/
structure OncePerAttempt (b : Backend) (headers : List Header) : Prop where
  contentType : occurrences "Content-Type" headers = 1
  accept : occurrences "Accept" headers = 1
  userAgent : occurrences "User-Agent" headers = 1
  authorization : b.apiKey.isSome = true → occurrences "Authorization" headers = 1

/-- A request of a call: an attempt on a backend, or the abort assist of one. -/
structure RequestSafe (c : Client σ) (stream : Bool) (rq : HttpRequest) (sink : Bool) : Prop where
  wire : WireSafe rq.headers
  attempt : sink = true → ∃ b ∈ c.backends, rq.url = b.urlChat ∧
    rq.headers = attemptHeaders b stream c.userAgent ∧ OncePerAttempt b rq.headers

omit [SizeT] in
/-- A request with the attempt's headers is safe. -/
theorem chatRequest_safe {c : Client σ} (hagent : valueBytesOk c.userAgent = true) {b : Backend}
    (hmem : b ∈ c.backends) (hb : SafeBackend b) (stream : Bool) (body : Bytes) :
    RequestSafe c stream (chatRequest b body (attemptHeaders b stream c.userAgent)) true where
  wire := .of_safe (attemptHeaders_safe hb hagent stream)
  attempt _ := ⟨b, hmem, rfl, rfl,
    { contentType := attemptHeaders_count hb stream (.inl rfl)
      accept := attemptHeaders_count hb stream (.inr (.inl rfl))
      userAgent := attemptHeaders_count hb stream (.inr (.inr rfl))
      authorization := attemptHeaders_authorization hb stream }⟩

omit [SizeT] in
/-- The headers of the abort assist are safe. -/
theorem assistHeaders_safe {b : Backend} (hb : SafeBackend b) :
    ∀ h ∈ Call.assistHeaders b, SafeHeader h := by
  unfold Call.assistHeaders
  cases hkey : b.apiKey with
  | none =>
      intro h hh
      rw [List.mem_singleton.mp hh]
      exact json_safe
  | some key =>
      dsimp only
      split_ifs with hlen
      · intro h hh
        rcases List.mem_cons.mp hh with rfl | hh
        · exact json_safe
        · rw [List.mem_singleton.mp hh]
          have hbearer := bearer_safe (hb.apiKey key hkey)
          refine ⟨hbearer.nonempty, hbearer.token, fun x hx => ?_⟩
          exact hbearer.value x (List.mem_of_mem_take hx)
      · intro h hh
        rw [List.mem_singleton.mp hh]
        exact json_safe

namespace Call

variable (k : Call σ)

/-- All requests so far are safe. -/
def RequestsSafe (s : LoopState k.c) : Prop :=
  ∀ rq sink token, Act.perform rq sink token ∈ s.world.trace → RequestSafe k.c k.stream rq sink

/-- Every turn sends safe requests only. -/
theorem turn_requestsSafe (hagent : valueBytesOk k.c.userAgent = true)
    (hsafe : ∀ b ∈ k.c.backends, SafeBackend b) {s : LoopState k.c}
    (hcached : k.HeadersCached s) (hs : k.RequestsSafe s)
    {out : LoopState k.c ⊕ LoopState k.c} (hturn : k.Turn s out) :
    k.RequestsSafe (reached out) := by
  have hmem : k.backend s ∈ k.c.backends := List.get_mem _ _
  have hbackend := hsafe _ hmem
  obtain ⟨new, htrace, hnew⟩ := k.turn_performs hturn
  intro rq sink token hperform
  rw [htrace] at hperform
  rcases List.mem_append.mp hperform with hold | hin
  · exact hs rq sink token hold
  rcases hnew _ hin rfl with ⟨rq', s1, hprep, hrq⟩ | hassist
  · have hpolled : k.HeadersCached (k.polled s) := hcached
    obtain ⟨body, rfl⟩ := (k.prepare_cached hpolled hprep).2 rq' rfl
    cases hrq
    exact chatRequest_safe hagent hmem hbackend k.stream body
  · unfold assisted at hassist
    split at hassist
    · cases hassist
    · cases List.mem_singleton.mp hassist
      exact ⟨.of_safe (assistHeaders_safe hbackend), nofun⟩

end Call

/-- No header injection: the requests of every call of a created client, attempts and abort
assists, carry headers that survive the way over the wire unchanged; in an attempt the
generated names occur once. -/
theorem chat_headers (Y Y' : Yyjson) (P : Platform σ) (H H' : Heap σ) (given : Bool)
    (opts : Option (ClientOpts σ)) {s s' : σ} {c : Client σ}
    (hc : (clientCreate Y P H given opts).exec s = (.ok c, s')) (req : Option Request)
    (cbs : Option (Callbacks σ)) (cancel : Option (CancelToken σ)) (haveOut stream : Bool)
    (ordinal : UInt32) (env : σ) (rq : HttpRequest) (sink token : Bool)
    (hperform : Act.perform rq sink token ∈
      (chatCommon Y' H' (some c) req cbs cancel haveOut stream ordinal ⟨env, []⟩).world.acts) :
    RequestSafe c stream rq sink := by
  obtain ⟨o, -, hcreated⟩ := (clientCreate_created Y P H given opts).value hc
  have hsafe := hcreated.safe
  rcases chatCommon_ends Y' H' (some c) req cbs cancel haveOut stream ordinal ⟨env, []⟩ with
    hearly | ⟨k, ⟨-, hkc, -, -, -, hkstream⟩, env', hrun⟩
  · have hlog := hearly.log
    unfold World.acts at hperform
    rw [hlog] at hperform
    cases hperform
  · obtain rfl := Option.some.inj hkc
    subst hkstream
    have hstart : k.HeadersCached (k.start ordinal (resultInit k.c.maxResponseBytes)
        ⟨env', []⟩) ∧ k.RequestsSafe (k.start ordinal (resultInit k.c.maxResponseBytes)
        ⟨env', []⟩) := by
      refine ⟨fun i headers hget => ?_, fun _ _ _ hin => nomatch hin⟩
      simp [Call.start] at hget
    have hrun' := @Call.run_turns _ _ k (fun s => k.HeadersCached s ∧ k.RequestsSafe s)
      k.RequestsSafe (fun s out hs hturn => by
        have hcached := k.turn_cached hs.1 hturn
        have hrequests := k.turn_requestsSafe hcreated.agentOk hsafe hs.1 hs.2 hturn
        cases out with
        | inl s' => exact ⟨hcached, hrequests⟩
        | inr s' => exact hrequests) _ hstart
    rw [hrun] at hperform
    refine hrun' rq sink token ?_
    exact List.mem_filter.mpr ⟨hperform, rfl⟩

end Runs

section Plain

attribute [local instance] lp64

/-- A description with a key, an extra header and an abort URL. -/
def keyDesc : BackendDesc where
  structSizeOk := true
  baseUrl := some (ascii "http://localhost")
  apiKey := some (ascii "k")
  model := some (ascii "m")
  extraHeaders := .list [⟨some (ascii "X-Title"), some (ascii "t")⟩]
  extraBodyJson := none
  timeouts := ⟨0, 0, 0, 0⟩
  flags := backendKoboldCancelAssist

/-- A library without libcurl, and no debug log. -/
def plainPlatform : Platform Unit where
  curl := none
  clock := stillClock
  address _ := 0
  getenv _ := none
  fopen _ s := (false, s)

/-- Options with one backend and a transport of the caller. -/
def keyOpts : ClientOpts Unit where
  structSizeOk := true
  backends := .list [keyDesc]
  retry := ⟨0, 0, 0, 0, 0, 0, 0, .null 0⟩
  transport := some ⟨true, some (replyTransport fun s => ((200, []), s))⟩
  clock := none
  prngSeed := 1
  maxResponseBytes := 0
  maxEventBytes := 0
  userAgent := none

/-- The backend of that description. -/
def keyBackend : Backend :=
  resolvedBackend keyDesc (ascii "http://localhost") (ascii "m") [⟨ascii "X-Title", ascii "t"⟩]

/-- The client of those options. -/
def keyClient : Client Unit where
  backends := [keyBackend]
  policy := policyResolve keyOpts.retry
  transport := replyTransport fun s => ((200, []), s)
  clock := stillClock
  prngSeed := 1
  maxResponseBytes := 67108864
  maxEventBytes := 1048576
  userAgent := ascii "sicha/0.1.0"
  debug := false
  backends_ne := List.cons_ne_nil _ _
  policy_valid := by decide
  policy_resolved := rfl
  maxResponse_pos := by decide
  maxEvent_pos := plainCap_pos

/-- A created client with a key and a title. -/
theorem chat_headers_plain :
    (clientCreate (plainYyjson [] .null) plainPlatform Heap.plentiful true (some keyOpts)).exec ()
      = (.ok keyClient, ()) ∧
    RequestSafe keyClient true
      (chatRequest keyBackend plainBody
        [⟨ascii "Content-Type", ascii "application/json"⟩,
          ⟨ascii "Accept", ascii "text/event-stream"⟩, ⟨ascii "User-Agent", ascii "sicha/0.1.0"⟩,
          ⟨ascii "Authorization", ascii "Bearer k"⟩, ⟨ascii "X-Title", ascii "t"⟩]) true := by
  have hcreate : (clientCreate (plainYyjson [] .null) plainPlatform Heap.plentiful true
      (some keyOpts)).exec () = (.ok keyClient, ()) := rfl
  exact ⟨hcreate, chat_headers _ (plainYyjson [] .null) _ _ Heap.plentiful _ _
    hcreate (some plainRequest) none none
    true true 0 () _ true false (by decide +kernel)⟩

end Plain

end Sicha
