import Sicha.Sse

/-!
# Partition invariance of the event-stream parser

A stream reaches the parser in chunks that carry no meaning: TCP cuts anywhere,
also inside a CRLF pair or a byte order mark.  This module drives a fresh parser
over a list of chunks and shows that only their concatenation matters.

Main results:

- Theorem {lit}`sseFeedAll_eq_run`: feeding chunks is one fold over their bytes.
- Theorem {lit}`sseParse_partition`: payloads, return code and parser status of a
  cut stream are those of the whole stream.
-/

namespace Sicha

variable [SizeT] {w : Type}

/-- Feed chunks in order and stop at the first nonzero return. -/
def sseFeedAll (H : Heap w) (onEvent : Option (OnEvent w)) (chunks : List Bytes)
    (ps : Sse × w) : Int × Sse × w :=
  StopFold.run (fun chunk ps => sseFeed H onEvent ps.1 chunk ps.2) chunks ps

/-- A whole stream through a fresh parser: {lit}`sicha_sse_finish` follows when every
feed returned zero. -/
def sseParse (H : Heap w) (onEvent : Option (OnEvent w)) (maxEventBytes : Nat)
    (chunks : List Bytes) (s : w) : Int × Sse × w :=
  let r := sseFeedAll H onEvent chunks (sseInit maxEventBytes, s)
  if r.1 = 0 then sseFinish H onEvent r.2.1 r.2.2 else r

/-- A callback that keeps the payloads it was given.  Its answer may depend on all of
them and on a state of its own. -/
def recording {σ : Type} (answer : List Bytes → σ → Int × σ) : OnEvent (List Bytes × σ) :=
  fun payload s =>
    ((answer (s.1 ++ [payload]) s.2).1, s.1 ++ [payload], (answer (s.1 ++ [payload]) s.2).2)

/-- An allocator next to a list of recorded payloads. -/
def Heap.besideRecord {σ : Type} (H : Heap σ) : Heap (List Bytes × σ) :=
  H.lift Prod.snd fun v s => (s.1, v)

/-- The payloads a run of {lit}`recording` collected. -/
def payloads {σ : Type} (r : Int × Sse × (List Bytes × σ)) : List Bytes :=
  r.2.2.1

/-- The chunks are taken as the bytes that they bring. -/
theorem sseFeedAll_eq_run (H : Heap w) (f : Option (OnEvent w)) (chunks : List Bytes)
    {p : Sse} (hp : p.err = .ok) (s : w) :
    sseFeedAll H f chunks (p, s) = StopFold.run (sseByte H f) chunks.flatten (p, s) := by
  induction chunks generalizing p s with
  | nil => rfl
  | cons chunk chunks ih =>
      unfold sseFeedAll at ih ⊢
      rw [StopFold.run_cons, List.flatten_cons, StopFold.run_append,
        ← sseFeed_eq_run H f chunk hp]
      dsimp only
      split_ifs with hcode
      · exact ih (sseFeed_err hcode) _
      · rfl

/-- Every partition of a stream drives a fresh parser to the same end. -/
theorem sseParse_flatten (H : Heap w) (f : Option (OnEvent w)) (maxEventBytes : Nat)
    (chunks : List Bytes) (s : w) :
    sseParse H f maxEventBytes chunks s = sseParse H f maxEventBytes [chunks.flatten] s := by
  have hinit : (sseInit maxEventBytes).err = .ok := rfl
  have hcut := sseFeedAll_eq_run H f chunks hinit s
  have hwhole := sseFeedAll_eq_run H f [chunks.flatten] hinit s
  rw [List.flatten_singleton] at hwhole
  unfold sseParse
  rw [hcut, hwhole]

/-- Whatever the chunks, the cap, the callback and the allocator, a cut stream gives
the payloads, the return code and the status of the stream fed in one call. -/
theorem sseParse_partition {σ : Type} (H : Heap σ) (answer : List Bytes → σ → Int × σ)
    (maxEventBytes : Nat) (chunks : List Bytes) (s : σ) :
    let cut := sseParse H.besideRecord (some (recording answer)) maxEventBytes chunks ([], s)
    let whole := sseParse H.besideRecord (some (recording answer)) maxEventBytes
      [chunks.flatten] ([], s)
    payloads cut = payloads whole ∧ cut.1 = whole.1 ∧
      sseStatus cut.2.1 = sseStatus whole.2.1 := by
  intro cut whole
  have heq : cut = whole := sseParse_flatten _ _ _ _ _
  rw [heq]
  exact ⟨rfl, rfl, rfl⟩

end Sicha
