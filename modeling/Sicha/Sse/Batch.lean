import Sicha.Sse.Follow
import Sicha.Sse.Partition

/-!
# The parser computes the reference

Without a cap, and with an allocator and a callback that never fail, nothing can stop the
parser before the end of a stream that fits in memory.

Main results:

- Theorem {lit}`sseParse_batch`: one feed and a finish, without a cap, return zero
  and deliver exactly the events of the reference.
-/

namespace Sicha

section Result

variable [SizeT]

omit [SizeT] in
/-- The recorded payloads of a callback that always answers zero. -/
theorem recording_follows {σ : Type} (H : Heap σ) {answer : List Bytes → σ → Int × σ}
    (hanswer : ∀ events h, (answer events h).1 = 0) :
    (recording answer).Follows H.besideRecord (fun evs s => s.1 = evs) fun _ _ _ _ => False where
  alloc _ _ _ hs := hs
  take payload _ _ hs _ := congrArg (· ++ [payload]) hs
  stop _ _ _ _ hne := hne (hanswer _ _)

/-- One feed and a finish, without a cap and with a callback that answers zero, return
zero and deliver the events of the reference.  The length bound says that the stream
fits in memory. -/
theorem sseParse_batch {σ : Type} (H : Heap σ) (hH : H.Reliable)
    (answer : List Bytes → σ → Int × σ) (hanswer : ∀ events h, (answer events h).1 = 0)
    (s : Bytes) (hs : s.length < sizeMax) (h : σ) :
    (sseParse H.besideRecord (some (recording answer)) 0 [s] ([], h)).1 = 0 ∧
      payloads (sseParse H.besideRecord (some (recording answer)) 0 [s] ([], h)) =
        sseBatch s := by
  have hroom : ∀ evs, ¬ Overflows 0 evs (streamLines s) := by
    rintro evs ⟨pre, line, post, hlines, -, hover⟩
    exact hover (Fits.parts ⟨.inl rfl, hs⟩ hlines)
  have hfollows := recording_follows H hanswer
  have hfeed := @sseBytes_follows _ _ _ _ 0 _ _ _ hfollows s _ _ (Reading.init 0) ([], h) rfl
  unfold sseParse payloads
  rw [sseFeedAll_eq_run _ _ [s] rfl, List.flatten_singleton]
  dsimp only
  generalize StopFold.run (sseByte H.besideRecord (some (recording answer))) s
    (sseInit 0, ([], h)) = r at hfeed
  rw [List.nil_append] at hfeed
  cases hfeed with
  | @going p t evs hreading hP =>
      have hfinish := sseFinish_follows hfollows hreading hP
      rw [if_pos rfl]
      dsimp only
      generalize sseFinish H.besideRecord (some (recording answer)) p t = r at hfinish
      cases hfinish with
      | going evs' hnext hP' => exact ⟨rfl, hP'.trans hnext.1⟩
      | stopped _ _ _ _ _ hQ => exact hQ.elim
      | failed evs' _ _ hfull => exact absurd (hfull (hH.lift _ _)) (hroom evs')
  | stopped _ _ _ _ _ hQ => exact hQ.elim
  | failed evs _ _ hfull =>
      have hover := hfull (hH.lift _ _) []
      rw [List.append_nil] at hover
      exact absurd hover (hroom evs)

end Result

/-- An event of two lines, with CRLF behind each. -/
theorem sseParse_batch_crlf :
    let r := @sseParse lp64 _ (@Heap.plentiful Unit).besideRecord
      (some (recording fun _ h => (0, h))) 0 [ascii "data: a\r\ndata: b\r\n"] ([], ())
    r.1 = 0 ∧ @payloads lp64 Unit r = sseBatch (ascii "data: a\r\ndata: b\r\n") :=
  @sseParse_batch lp64 Unit Heap.plentiful Heap.plentiful_reliable (fun _ h => (0, h))
    (fun _ _ => rfl) (ascii "data: a\r\ndata: b\r\n") (by decide) ()

end Sicha
