import Sicha.Client.Chat
import Sicha.Client.Trip
import Sicha.Transport.Delivers
import Sicha.Transport.Queue

/-!
# The built-in transports under the engine

The engine calls a transport that always ends, and the definitions of the built-in ones run on fuel.

Main results:

- Definition {lit}`Transport.Runs`: a transport whose performs are those of a definition on fuel.
- Theorem {lit}`scriptTransport_runs`: the scripted transport is one, if its clock keeps time.
- Theorem {lit}`builtIn_obedient`: both built-in transports obey the sink, as the engine expects.
-/

namespace Sicha

variable {σ : Type}

/-- A perform on fuel. -/
abbrev FuelledPerform (σ : Type) :=
  Nat → Bool → HttpRequest → Option (CancelToken σ) → σ →
    Dialogue σ SinkCall Int (Option TransportStatus)

/-- Every perform of a transport is one of a definition on fuel, with as much of it as it takes. -/
def Transport.Runs (t : Transport σ) (perform : FuelledPerform σ) : Prop :=
  ∀ rq sink cancel s, ∃ fuel,
    ((t.perform rq sink cancel s).bind fun st s => .done (some st) s) =
      perform fuel sink rq cancel s

/-- The scripted transport on a clock. -/
abbrev scriptFuelled (H : Heap σ) (ck : Clock (ScriptState × σ)) :
    FuelledPerform (ScriptState × σ) :=
  fun fuel sink rq cancel s => scriptPerform H ck cancel fuel sink rq s

/-- The curl transport over a libcurl and on a clock. -/
abbrev curlFuelled {α : Type} (C : CurlInit α σ) (L : Libcurl α (CurlPool α × σ))
    (H : Heap (CurlPool α × σ)) (ck : Clock (CurlPool α × σ)) :
    FuelledPerform (CurlPool α × σ) :=
  fun fuel sink rq cancel s => curlPerform C L H ck cancel fuel sink rq s

/-! ## The scripted transport -/

/-- The fuel of the next perform: that of the response it will take. -/
def scriptFuelNext (st : ScriptState) : Nat :=
  (st.queue.head?.map scriptFuel).getD 0

/-- The scripted transport. -/
def scriptTransport (H : Heap σ) (ck : Clock (ScriptState × σ)) : Transport (ScriptState × σ) where
  perform rq sink cancel s :=
    (scriptPerform H ck cancel (scriptFuelNext s.1) sink rq s).bind fun st s =>
      .done (st.getD .other) s

/-- With fuel for its next response a scripted perform comes to its end. -/
theorem scriptPerform_settled {H : Heap σ} {ck : Clock (ScriptState × σ)}
    {time : ScriptState × σ → UInt64} (hck : ck.KeepsTime time)
    (cancel : Option (CancelToken (ScriptState × σ))) (sink : Bool) (rq : HttpRequest)
    (s : ScriptState × σ) :
    (scriptPerform H ck cancel (scriptFuelNext s.1) sink rq s).Settled := by
  unfold scriptPerform
  split
  · rfl
  · rfl
  · rename_i resp s' htook
    have heffect := scriptEnter_cases H rq s.1 s.2
    rw [htook] at heffect
    refine scriptRun_settled hck ?_ sink s'
    rw [scriptFuelNext, heffect.1]
    exact le_refl _

/-- It is the one whose definition runs on fuel. -/
theorem scriptTransport_runs (H : Heap σ) {ck : Clock (ScriptState × σ)}
    {time : ScriptState × σ → UInt64} (hck : ck.KeepsTime time) :
    (scriptTransport H ck).Runs (scriptFuelled H ck) :=
  fun rq sink cancel s =>
    ⟨scriptFuelNext s.1, (scriptPerform_settled hck cancel sink rq s).bind_getD .other⟩

/-! ## Obedience -/

/-- A transport obeys its sink as its definition on fuel does. -/
theorem Transport.Runs.obedient {c : Client σ} {perform : FuelledPerform σ}
    (hruns : c.transport.Runs perform) {cancel : Option (CancelToken σ)}
    (hstops : ∀ fuel rq s,
      (perform fuel true rq cancel s).StopsWith (· ≠ 0) (some .abortedBySink)) :
    Obedient c cancel := by
  intro rq s
  obtain ⟨fuel, hfuel⟩ := hruns rq true cancel s
  refine Dialogue.StopsWith.of_bind_done (f := some) (fun _ _ => Option.some.inj) ?_
  rw [hfuel]
  exact hstops fuel rq s

/-- A client over one of the built-in transports, whatever its clock, its token and its allocator do:
as soon as the sink refuses something, the transport asks it nothing more and says so.  The curl
transport does if libcurl aborts a transfer whose callback takes less than it was given. -/
theorem builtIn_obedient {α : Type} :
    (∀ (H : Heap σ) (c : Client (ScriptState × σ)) (cancel : Option (CancelToken (ScriptState × σ))),
        c.transport.Runs (scriptFuelled H c.clock) → Obedient c cancel) ∧
      ∀ (C : CurlInit α σ) (L : Libcurl α (CurlPool α × σ)) (H : Heap (CurlPool α × σ))
        (c : Client (CurlPool α × σ)) (cancel : Option (CancelToken (CurlPool α × σ))),
        L.Aborts → c.transport.Runs (curlFuelled C L H c.clock) → Obedient c cancel := by
  refine ⟨fun H c cancel hruns => hruns.obedient fun fuel rq s => ?_,
    fun C L H c cancel hL hruns => hruns.obedient fun fuel rq s => ?_⟩
  · exact scriptPerform_stops H c.clock cancel fuel true rq s
  · exact curlPerform_stops C hL H c.clock cancel fuel rq s

/-! ## Two clients -/

/-- Over the plain libcurl one round is enough. -/
theorem plainTransfer_settled (ck : Clock (CurlPool Unit × Unit)) (sink : Bool) (rq : HttpRequest)
    (cancel : Option (CancelToken (CurlPool Unit × Unit))) (slot : CurlSlot Unit)
    (s : CurlPool Unit × Unit) :
    (curlTransfer plainLibcurl Heap.plentiful ck cancel sink rq slot 1 s).Settled := by
  unfold curlTransfer
  split
  · rfl
  · dsimp only
    split_ifs
    · refine Dialogue.settled_bind (fun o s' => ?_) _
      unfold curlDecide
      cases o.1.1 <;> rfl
    · rfl

/-- A perform over the plain libcurl needs one round. -/
theorem plainPerform_settled (ck : Clock (CurlPool Unit × Unit)) (sink : Bool) (rq : HttpRequest)
    (cancel : Option (CancelToken (CurlPool Unit × Unit))) (s : CurlPool Unit × Unit) :
    (curlFuelled plainHandles plainLibcurl Heap.plentiful ck 1 sink rq cancel s).Settled := by
  unfold curlFuelled curlPerform
  split
  · rfl
  · exact (plainTransfer_settled ck sink rq cancel _ _).pass _
  · split
    · rfl
    · exact (plainTransfer_settled ck sink rq cancel _ _).pass _

/-- The curl transport over the plain libcurl, on a clock that stands still. -/
def plainCurlTransport : Transport (CurlPool Unit × Unit) where
  perform rq sink cancel s :=
    (curlFuelled plainHandles plainLibcurl Heap.plentiful stillClock 1 sink rq cancel s).bind
      fun st s => .done (st.getD .other) s

/-- Both transports as parts of plain clients. -/
theorem builtIn_obedient_plain :
    Obedient { plainClient 0 1048576 (by decide) (scriptTransport Heap.plentiful steadyClock) with
        clock := steadyClock } none ∧
      Obedient (plainClient 0 1048576 (by decide) plainCurlTransport) none := by
  refine ⟨builtIn_obedient (α := Unit).1 Heap.plentiful _ none ?_,
    builtIn_obedient.2 plainHandles plainLibcurl Heap.plentiful _ none plainLibcurl_aborts ?_⟩
  · exact scriptTransport_runs Heap.plentiful steadyClock_keepsTime
  · exact fun rq sink cancel s => ⟨1, (plainPerform_settled _ sink rq cancel s).bind_getD .other⟩

end Sicha
