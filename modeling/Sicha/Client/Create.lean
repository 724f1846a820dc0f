import Sicha.Request.Headers
import Sicha.World

/-!
# Creating a client

A translation of {lit}`sicha_client_create`.  What the library is built with and what it
finds on its platform are parameters: the libcurl transport, the real clock, the address
of the new client, and the environment variable and file of the debug log.

Main results:

- Definition {lit}`clientCreate`.
- Theorem {lit}`clientCreate_created`: what a created client is, in terms of its options.
-/

namespace Sicha

/-- {lit}`sicha_transport` as the caller passes it. -/
structure TransportRef (σ : Type) where
  structSizeOk : Bool
  perform : Option (Transport σ)

/-- {lit}`sicha_clock` as the caller passes it. -/
structure ClockRef (σ : Type) where
  nowMs : Option (σ → UInt64 × σ)
  waitMs : Option (Option (CancelToken σ) → UInt64 → σ → Int × σ)

/-- {lit}`sicha_client_opts`. -/
structure ClientOpts (σ : Type) where
  structSizeOk : Bool
  backends : Span BackendDesc
  retry : RetryPolicy
  transport : Option (TransportRef σ)
  clock : Option (ClockRef σ)
  prngSeed : UInt64
  maxResponseBytes : Nat
  maxEventBytes : Nat
  userAgent : Option Bytes

/-- The build and the platform of the library. -/
structure Platform (σ : Type) where
  /-- {lit}`none` = built without libcurl -/
  curl : Option (Transport σ)
  /-- {lit}`sicha_clock_real` -/
  clock : Clock σ
  /-- the address of the new client -/
  address : σ → UInt64
  /-- {lit}`getenv("SICHA_DEBUG")` -/
  getenv : σ → Option Bytes
  /-- whether the file could be opened for appending -/
  fopen : Bytes → σ → Bool × σ

variable {σ : Type}

/-! ## The checks -/

/-- The transport of the options: {lit}`none` stands for an invalid one, and
{lit}`some none` for the built-in one that is still to be created. -/
def optsTransport (P : Platform σ) (o : ClientOpts σ) : Option (Option (Transport σ)) :=
  match o.transport with
  | some t => if t.structSizeOk then t.perform.map some else none
  | none => if P.curl.isSome then some none else none

/-- The clock of the options. -/
def optsClock (P : Platform σ) (o : ClientOpts σ) : Option (Clock σ) :=
  match o.clock with
  | some ⟨some nowMs, some waitMs⟩ => some ⟨nowMs, waitMs⟩
  | some _ => none
  | none => some P.clock

/-- The user agent is absent or a header value. -/
def optsAgentOk (o : ClientOpts σ) : Bool :=
  o.userAgent.all fun agent => headerValidate (some (ascii "User-Agent")) (some agent) == .ok

/-- The checks of {lit}`sicha_client_create` in front of its first allocation. -/
def clientOptsOk (o : ClientOpts σ) : Bool :=
  o.structSizeOk && !o.backends.items.isEmpty && policyValidate o.retry == .ok

/-! ## The parts of a client -/

/-- The loop over the backends. -/
def initBackends (Y : Yyjson) (H : Heap σ) :
    (ds : List BackendDesc) → Fallible Status σ {bs : List Backend // bs.length = ds.length}
  | [] => pure ⟨[], rfl⟩
  | d :: ds => do
      let b ← backendInit Y H d
      let bs ← initBackends Y H ds
      pure ⟨b :: bs.val, by simp [bs.property]⟩

/-- The copy of the overrides, when there are some. -/
def copyOverrides (H : Heap σ) (p : RetryPolicy) : Fallible Status σ Unit :=
  if p.overrides.items.length > 0 then
    Fallible.guarded (H.alloc p.overrides.items.length) .nomem
  else pure ()

/-- The transport: the built-in one has to be created. -/
def createTransport (P : Platform σ) (H : Heap σ) :
    Option (Transport σ) → Fallible Status σ (Transport σ)
  | some t => pure t
  | none =>
      match P.curl with
      | some t => do
          Fallible.guarded (H.alloc 1) .nomem
          pure t
      | none => throw .nomem

/-- A seed of zero is replaced by one from the clock and the address; it is never zero. -/
def resolveSeed (P : Platform σ) (seed : UInt64) : Fallible Status σ UInt64 :=
  if seed ≠ 0 then pure seed
  else Fallible.total fun s =>
    let now := P.clock.nowMs s
    let mixed := (splitmix64 (now.1 ^^^ P.address s * 0x9E3779B97F4A7C15)).1
    (if mixed = 0 then 1 else mixed, now.2)

/-- {lit}`sicha_version_str`. -/
def versionStr : Bytes :=
  ascii "0.1.0"

/-- The user agent of a client. -/
def agentOf (o : ClientOpts σ) : Bytes :=
  o.userAgent.getD (snprintf 64 (ascii "sicha/" ++ versionStr))

/-- Whether a debug log is open. -/
def openDebug (P : Platform σ) : Fallible Status σ Bool :=
  Fallible.total fun s =>
    match P.getenv s with
    | none | some [] => (false, s)
    | some path =>
        if path = ascii "-" ∨ path = ascii "stderr" then (true, s) else P.fopen path s

/-- A zero size takes its default. -/
def sizeOrDefault (x dflt : Nat) : Nat :=
  if x ≠ 0 then x else dflt

/-- A size with a default above zero is above zero. -/
theorem sizeOrDefault_pos {x dflt : Nat} (h : 0 < dflt) : 0 < sizeOrDefault x dflt := by
  unfold sizeOrDefault
  split_ifs with hx
  · exact Nat.pos_of_ne_zero hx
  · exact h

/-- To resolve a value twice is to resolve it once. -/
theorem orDefault_idem (x dflt : UInt32) :
    orDefault (orDefault x dflt) dflt = orDefault x dflt := by
  by_cases hx : x = 0
  · simp [orDefault, hx]
  · simp [orDefault, hx]

/-- To resolve a policy twice is to resolve it once. -/
theorem policyResolve_idem (p : RetryPolicy) : policyResolve (policyResolve p) = policyResolve p := by
  simp only [policyResolve]
  rw [orDefault_idem, orDefault_idem, orDefault_idem, orDefault_idem, orDefault_idem]

/-- {lit}`sicha_client_create`.  {lit}`haveOut` says that {lit}`out` is not NULL. -/
def clientCreate (Y : Yyjson) (P : Platform σ) (H : Heap σ) (haveOut : Bool)
    (opts : Option (ClientOpts σ)) : Fallible Status σ (Client σ) :=
  match opts with
  | none => throw .invalidArg
  | some o =>
      if hok : haveOut && clientOptsOk o then
        match optsTransport P o, optsClock P o, optsAgentOk o with
        | some transport, some clock, true => do
            Fallible.guarded (H.alloc 1) .nomem
            Fallible.guarded (H.alloc o.backends.items.length) .nomem
            let backends ← initBackends Y H o.backends.items
            copyOverrides H o.retry
            let transport ← createTransport P H transport
            let prngSeed ← resolveSeed P o.prngSeed
            Fallible.guarded (H.alloc ((agentOf o).length + 1)) .nomem
            let debug ← openDebug P
            pure
              { backends := backends.val
                policy := policyResolve o.retry
                transport := transport
                clock := clock
                prngSeed := prngSeed
                maxResponseBytes := sizeOrDefault o.maxResponseBytes 67108864
                maxEventBytes := sizeOrDefault o.maxEventBytes 1048576
                userAgent := agentOf o
                debug := debug
                backends_ne := by
                  have hne : o.backends.items ≠ [] := by
                    simp only [clientOptsOk, Bool.and_eq_true, Bool.not_eq_true',
                      List.isEmpty_eq_false_iff] at hok
                    exact hok.2.1.2
                  intro hnil
                  have hlen := backends.property
                  rw [hnil] at hlen
                  exact hne (List.length_eq_zero_iff.mp hlen.symm)
                policy_valid := by
                  simp only [clientOptsOk, Bool.and_eq_true, beq_iff_eq] at hok
                  exact hok.2.2
                policy_resolved := policyResolve_idem o.retry
                maxResponse_pos := sizeOrDefault_pos (by decide)
                maxEvent_pos := sizeOrDefault_pos (by decide) }
        | _, _, _ => throw .invalidArg
      else throw .invalidArg

/-! ## What a created client is -/

/-- A created client in terms of its options. -/
structure Created (P : Platform σ) (o : ClientOpts σ) (c : Client σ) : Prop where
  backends : List.Forall₂ Describes o.backends.items c.backends
  policy : c.policy = policyResolve o.retry
  transport : some c.transport = (o.transport.elim P.curl fun t => t.perform)
  clock : optsClock P o = some c.clock
  prngSeed : o.prngSeed ≠ 0 → c.prngSeed = o.prngSeed
  maxResponseBytes : c.maxResponseBytes = sizeOrDefault o.maxResponseBytes 67108864
  maxEventBytes : c.maxEventBytes = sizeOrDefault o.maxEventBytes 1048576
  userAgent : c.userAgent = agentOf o
  agentOk : valueBytesOk c.userAgent = true

open Fallible

/-- The backends are those that the descriptions describe. -/
theorem initBackends_described (Y : Yyjson) (H : Heap σ) (ds : List BackendDesc) :
    Yields True (initBackends Y H ds) fun bs => List.Forall₂ Describes ds bs.val := by
  induction ds with
  | nil => exact yields_pure .nil
  | cons d ds ih =>
      refine yields_bind (backendInit_described Y H d) fun b hb => ?_
      exact yields_bind ih fun bs hbs => yields_pure (.cons hb hbs)

/-- The user agent of checked options is a safe value. -/
theorem agentOf_ok {o : ClientOpts σ} (h : optsAgentOk o = true) :
    valueBytesOk (agentOf o) = true := by
  unfold optsAgentOk at h
  unfold agentOf
  cases hagent : o.userAgent with
  | none => decide
  | some agent =>
      rw [hagent] at h
      have hvalid : headerValidate (some (ascii "User-Agent")) (some agent) = .ok := by
        simpa using h
      exact valueBytesOk_iff.mpr (headerValidate_safe hvalid).value

/-- A created client is what its options say. -/
theorem clientCreate_created (Y : Yyjson) (P : Platform σ) (H : Heap σ) (haveOut : Bool)
    (opts : Option (ClientOpts σ)) :
    Yields True (clientCreate Y P H haveOut opts) fun c =>
      ∃ o, opts = some o ∧ Created P o c := by
  unfold clientCreate
  cases opts with
  | none => exact yields_throw trivial
  | some o =>
      dsimp only
      split_ifs with hok
      · split
        · rename_i transport clock htransport hclock hagent
          refine yields_bind (yields_any _) fun _ _ => ?_
          refine yields_bind (yields_any _) fun _ _ => ?_
          refine yields_bind (initBackends_described Y H _) fun backends hbackends => ?_
          refine yields_bind (yields_any _) fun _ _ => ?_
          have hchosen : Yields True (createTransport P H transport) fun t =>
              some t = o.transport.elim P.curl fun t => t.perform := by
            unfold optsTransport at htransport
            cases ht : o.transport with
            | some t =>
                rw [ht] at htransport
                dsimp only at htransport
                split_ifs at htransport
                obtain ⟨t', hperform, rfl⟩ := Option.map_eq_some_iff.mp htransport
                exact yields_pure hperform.symm
            | none =>
                rw [ht] at htransport
                dsimp only at htransport
                split_ifs at htransport with hcurl
                cases htransport
                obtain ⟨t, hcurl⟩ := Option.isSome_iff_exists.mp hcurl
                unfold createTransport
                rw [hcurl]
                exact yields_bind (yields_any _) fun _ _ => yields_pure rfl
          refine yields_bind hchosen fun t ht => ?_
          have hseed : Yields True (resolveSeed P o.prngSeed) fun seed =>
              o.prngSeed ≠ 0 → seed = o.prngSeed := by
            unfold resolveSeed
            split_ifs with hne
            · exact yields_pure fun _ => rfl
            · exact yields_total fun _ h => absurd h hne
          refine yields_bind hseed fun seed hseed => ?_
          refine yields_bind (yields_any _) fun _ _ => ?_
          refine yields_bind (yields_any _) fun debug _ => ?_
          refine yields_pure ⟨o, rfl, ?_⟩
          exact
            { backends := hbackends
              policy := rfl
              transport := ht
              clock := hclock
              prngSeed := hseed
              maxResponseBytes := rfl
              maxEventBytes := rfl
              userAgent := rfl
              agentOk := agentOf_ok hagent }
        · exact yields_throw trivial
      · exact yields_throw trivial

/-- Every backend of a created client is safe. -/
theorem Created.safe {P : Platform σ} {o : ClientOpts σ} {c : Client σ} (h : Created P o c) :
    ∀ b ∈ c.backends, SafeBackend b := by
  intro b hb
  have hall := h.backends
  generalize o.backends.items = ds at hall
  generalize c.backends = bs at hall hb
  induction hall with
  | nil => cases hb
  | cons hd _ ih =>
      rcases List.mem_cons.mp hb with rfl | hb
      · exact hd.safe
      · exact ih hb

end Sicha
