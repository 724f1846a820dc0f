import Sicha.Client.BuiltIn
import Sicha.Client.Within

/-!
# Everything but the transport and the waits

Two parties of a client may take their time, and keep something of their own: the transport, and the
clock while it waits.  How the others move the environment, and a round trip and a turn around them.

Main results:

- Definition {lit}`Besides`: the foreign parties of a client other than these two.
- Theorems {lit}`roundTrip_besides` and {lit}`roundTrip_behind`: a round trip moves the environment
  as its transport does.
-/

namespace Sicha

variable [SizeT] {σ : Type} {Rel : σ → σ → Prop}

/-- A transport that does nothing. -/
def idleTransport : Transport σ where
  perform _ _ _ s := .done .other s

/-- A clock that does not wait. -/
def Clock.idle (ck : Clock σ) : Clock σ :=
  { ck with waitMs := fun _ _ s => (0, s) }

/-- A client whose transport does nothing, and whose clock does not wait. -/
def Client.idle (c : Client σ) : Client σ :=
  { c with transport := idleTransport, clock := c.clock.idle }

/-- The foreign parties of a client other than its transport and the waits of its clock change the
environment within {lit}`Rel`. -/
abbrev Besides (H : Heap σ) (c : Client σ) (cbs : Option (Callbacks σ))
    (Rel : σ → σ → Prop) : Prop :=
  Parties H c.idle cbs Rel

namespace Call

variable {k : Call σ}

/-- A call of that client. -/
def idle (k : Call σ) : Call σ :=
  { k with c := k.c.idle }

/-- What has grown from a world keeps growing. -/
theorem grown_rule (hk : k.idle.Within Rel) (base : World σ) :
    k.TripRule Rel fun t => Grown Rel base t.world where
  event := grown_event hk base
  move _ _ hrel h := ⟨h.log, hk.trans _ _ _ h.env hrel⟩
  parse _ _ _ h _ _ := h

/-- The sink of an attempt moves the environment as the callbacks and the allocator do. -/
theorem sink_besides (hk : k.idle.Within Rel) (q : SinkCall) (i : SinkW σ) (s : σ) :
    Rel s (attemptSink k.Y k.H k.cbs k.stream q i s).2.2 :=
  (sink_keeps (grown_rule hk (i.streamW s).world) q i s (.quiet rfl (hk.refl _))).env

/-- The run of the transport in a round trip. -/
def tripRun (k : Call σ) (rq : HttpRequest) (s : LoopState k.c) : TransportStatus × SinkW σ × σ :=
  (k.c.transport.perform rq true k.cancel (k.handed rq s.world).env).run
    (attemptSink k.Y k.H k.cbs k.stream)
    { io := attemptIoInit k.c (k.cleared s) k.stream k.req.accumulates
      log := (k.handed rq s.world).log }

/-- Behind the run of the transport a round trip does not wait. -/
theorem roundTrip_behind (hk : k.idle.Within Rel) (rq : HttpRequest) (s : LoopState k.c)
    {base : World σ} (hrun : Grown Rel base ⟨(k.tripRun rq s).2.2, (k.tripRun rq s).2.1.log⟩) :
    Grown Rel base (k.roundTrip rq s).world := by
  have hrule := grown_rule hk base
  have hend : Grown Rel base ((k.tripRun rq s).2.1.streamW (k.tripRun rq s).2.2).world := hrun
  exact settle_keeps hrule _ (hrule.move _ _ (hk.now _) hend)

/-- A round trip whose transport moves the environment from {lit}`v` on. -/
theorem roundTrip_besides (hk : k.idle.Within Rel) (rq : HttpRequest) (s : LoopState k.c) {v : σ}
    (hmoves : (k.c.transport.perform rq true k.cancel (k.handed rq s.world).env).Moves Rel v) :
    Grown Rel { k.handed rq s.world with env := v } (k.roundTrip rq s).world := by
  have hrule := grown_rule hk { k.handed rq s.world with env := v }
  refine roundTrip_behind hk rq s ?_
  exact @Dialogue.run_moves _ _ _ _ _ (attemptSink k.Y k.H k.cbs k.stream) Rel
    (fun i env => Grown Rel { k.handed rq s.world with env := v } (i.streamW env).world)
    (fun i s s' hs hrel => hrule.move (i.streamW s) s' hrel hs) (sink_keeps hrule) _ _ _ hmoves
    (.quiet rfl (hk.refl v))

/-- Behind a round trip its record is growth. -/
theorem recorded_besides (hk : k.idle.Within Rel) (rq : HttpRequest) (s : LoopState k.c) :
    Grown Rel (k.roundTrip rq s).world (k.recorded s rq).2.world := by
  have hadd := resultAddAttempt_keeps (P := fun env => Rel (k.judged s rq).world.env env)
    (fun n t ht => hk.trans _ _ _ ht (hk.alloc n t)) (k.roundTrip rq s).r
    (k.record s (k.roundTrip rq s) (k.judged s rq)) (hk.refl _)
  have hstored : Grown Rel (k.judged s rq).world (k.recorded s rq).2.world :=
    .quiet rfl hadd
  have hjudged : Grown Rel (k.roundTrip rq s).world (k.judged s rq).world :=
    judge_within hk (k.roundTrip rq s)
  exact hjudged.trans hk.trans hstored

/-- So is its announcement. -/
theorem announce_besides (hk : k.idle.Within Rel) (s : LoopState k.c) :
    Grown Rel s.world (k.announce s).world := by
  unfold announce
  split
  · exact .quiet rfl (hk.refl _)
  · rename_i a _
    refine (debugLog_within hk.refl k.c (attemptText a) s.world).trans hk.trans ?_
    dsimp only
    unfold callOnAttempt
    split
    · exact .quiet rfl (hk.refl _)
    · rename_i f hf
      exact .act _ _ _ (fun _ => rfl) (hk.onAttempt f hf a _)

/-- A poll of the token does not touch the environment. -/
theorem polled_env (s : LoopState k.c) : (k.polled s).world.env = s.world.env := by
  unfold polled poll
  dsimp only
  split <;> rfl

/-- Preparing a request only allocates. -/
theorem prepared_besides (hk : k.idle.Within Rel) {s s1 : LoopState k.c}
    {out : Except Status HttpRequest} (hprep : k.prepare (k.polled s) = (out, s1)) :
    s1.world.log = (k.polled s).world.log ∧ Rel s.world.env s1.world.env := by
  obtain ⟨bodies, headers, env, hs1⟩ := (k.prepare_spec (k.polled s)).1
  have henv := (k.prepare_keeps (P := Rel s.world.env)
    (fun n t ht => hk.trans _ _ _ ht (hk.alloc n t)) (k.polled s)
    (by rw [polled_env]; exact hk.refl _)).1
  rw [hprep] at hs1 henv
  dsimp only at hs1
  subst hs1
  exact ⟨rfl, henv⟩

/-- Up to its loop a call only allocates. -/
theorem enter_keeps {P : σ → Prop} (k : Call σ) (halloc : ∀ n s, P s → P (k.H.alloc n s).2)
    (ordinal : UInt32) (w : World σ) (hw : P w.env) :
    Sum.elim (fun out => (k.close out).world.log = w.log ∧ P (k.close out).world.env)
      (fun s => s.world.log = w.log ∧ P s.world.env) (k.enter ordinal w) := by
  have hvalidate := (@requestValidate_keeps _ k.H P Refusal halloc .invalidArg k.Y k.req
    w.env hw).1
  unfold enter
  split_ifs
  · exact ⟨rfl, hw⟩
  · split
    · rename_i hst
      rw [hst] at hvalidate
      exact ⟨rfl, hvalidate⟩
    · rename_i env hok
      rw [hok] at hvalidate
      have hcreate : P (resultCreate k.H k.c.maxResponseBytes env).2 := by
        unfold resultCreate
        split_ifs <;> exact halloc _ _ hvalidate
      split
      · rename_i hnone
        rw [hnone] at hcreate
        exact ⟨rfl, hcreate⟩
      · rename_i hsome
        rw [hsome] at hcreate
        have harrays := halloc k.c.backends.length _ (halloc k.c.backends.length _
          (halloc k.c.backends.length _ (halloc k.c.backends.length _ hcreate)))
        unfold arrays
        dsimp only
        split_ifs
        · exact ⟨rfl, harrays⟩
        · dsimp only [Sum.map_inl, Sum.elim_inl, close, done]
          split <;> exact ⟨rfl, harrays⟩

end Call

/-! ## A plain client -/

/-- A client over the scripted transport, on the steady clock. -/
def scriptedClient : Client (ScriptState × UInt64) :=
  { plainClient 0 1048576 plainCap_pos (scriptTransport Heap.plentiful steadyClock) with
    clock := steadyClock }

/-- Its other parties leave the environment alone. -/
theorem scriptedClient_besides {Rel : ScriptState × UInt64 → ScriptState × UInt64 → Prop}
    (hrefl : ∀ s, Rel s s) (htrans : ∀ s t u, Rel s t → Rel t u → Rel s u) :
    Besides Heap.plentiful scriptedClient (some plainCallbacks) Rel := by
  refine ⟨hrefl, htrans, fun _ => hrefl, hrefl, fun _ _ => hrefl, fun _ _ _ => hrefl, ?_, ?_, ?_,
    ?_⟩
  · rintro (_ | _) f hf bytes s <;> cases hf <;> exact hrefl s
  · rintro f hf bytes s
    cases hf
    exact hrefl s
  · rintro f hf r s
    cases hf
    exact hrefl s
  · rintro f hf a s
    cases hf
    exact hrefl s

end Sicha
