import Sicha.Buf

/-!
# The result object

A translation of the first part of {lit}`response.c`: what a call returns.  The
records are a list; the capacity of their array is kept because it decides when the
array is reallocated.

Main results:

- Theorem {lit}`resultAddAttempt_cases`: a record is appended as it is stored, or an
  allocation was refused and the records stay.
-/

namespace Sicha

variable [SizeT] {w : Type}

/-- {lit}`sicha_attempt`: one HTTP round trip. -/
structure Attempt where
  /-- global ordinal, from 0 -/
  attempt : UInt32
  /-- index into the chain -/
  backend : UInt32
  /-- from 0 -/
  tryOfBackend : UInt32
  model : Bytes
  errorClass : ErrorClass
  /-- 0 = none -/
  httpStatus : Int
  transportStatus : TransportStatus
  latencyMs : UInt64
  /-- -1 = unknown -/
  promptTokens : Int
  completionTokens : Int
  totalTokens : Int
  message : Bytes
  rawBodyExcerpt : Bytes
deriving DecidableEq

/-- {lit}`sicha_result`. -/
structure Result where
  status : Status
  text : Buf
  reasoning : Buf
  /-- {lit}`none` until seen -/
  finishRaw : Option Bytes
  finish : FinishReason
  promptTokens : Int
  completionTokens : Int
  totalTokens : Int
  /-- server-reported, {lit}`none` until seen -/
  model : Option Bytes
  /-- -1 until an attempt ran -/
  backend : Int32
  /-- non-streaming verbatim body -/
  rawBody : Option Bytes
  attempts : List Attempt
  capAttempts : UInt32

/-- {lit}`sicha_result_create`, once its block is allocated. -/
def resultInit (maxResponseBytes : Nat) : Result where
  status := .ok
  text := bufInit maxResponseBytes
  reasoning := bufInit maxResponseBytes
  finishRaw := none
  finish := .unknown
  promptTokens := -1
  completionTokens := -1
  totalTokens := -1
  model := none
  backend := -1
  rawBody := none
  attempts := []
  capAttempts := 0

/-- {lit}`sicha_result_create`. -/
def resultCreate (H : Heap w) (maxResponseBytes : Nat) (s : w) : Option Result × w :=
  if (H.alloc 1 s).1 then (some (resultInit maxResponseBytes), (H.alloc 1 s).2)
  else (none, (H.alloc 1 s).2)

/-- {lit}`n_attempts`. -/
def Result.nAttempts (r : Result) : UInt32 :=
  UInt32.ofNat r.attempts.length

/-- The capacity the array of records grows to.  Past 2^31 records it wraps to a request
for nothing. -/
def growAttempts (cap : UInt32) : UInt32 :=
  if cap = 0 then 4 else cap * 2

/-- The growth step of {lit}`sicha_result_add_attempt`. -/
def resultGrow (H : Heap w) (r : Result) (s : w) : Bool × Result × w :=
  if r.nAttempts = r.capAttempts then
    let cap := growAttempts r.capAttempts
    if (H.alloc cap.toNat s).1 then (true, { r with capAttempts := cap }, (H.alloc cap.toNat s).2)
    else (false, r, (H.alloc cap.toNat s).2)
  else (true, r, s)

/-- A record as it is stored: its excerpt is capped. -/
def Attempt.stored (a : Attempt) : Attempt :=
  { a with rawBodyExcerpt := a.rawBodyExcerpt.take excerptMax }

/-- The copies of the three strings of a record. -/
def dupAttempt (H : Heap w) (a : Attempt) (s : w) : Option Attempt × w :=
  let model := H.alloc (a.model.length + 1) s
  let message := H.alloc (a.message.length + 1) model.2
  let excerpt := H.alloc (a.stored.rawBodyExcerpt.length + 1) message.2
  (if model.1 && message.1 && excerpt.1 then some a.stored else none, excerpt.2)

/-- {lit}`sicha_result_add_attempt`. -/
def resultAddAttempt (H : Heap w) (r : Result) (a : Attempt) (s : w) : Status × Result × w :=
  match resultGrow H r s with
  | (false, r, s) => (.nomem, r, s)
  | (true, r, s) =>
      match dupAttempt H a s with
      | (none, s) => (.nomem, r, s)
      | (some copy, s) => (.ok, { r with attempts := r.attempts ++ [copy] }, s)

/-- {lit}`sicha_result_reset_content`. -/
def resultResetContent (r : Result) : Result :=
  { r with
    text := bufReset r.text
    reasoning := bufReset r.reasoning
    finishRaw := none
    finish := .unknown
    model := none
    rawBody := none
    promptTokens := -1
    completionTokens := -1
    totalTokens := -1 }

/-- {lit}`sicha_result_set_model`. -/
def resultSetModel (H : Heap w) (r : Result) (model : Bytes) (s : w) : Status × Result × w :=
  if (H.alloc (model.length + 1) s).1 then
    (.ok, { r with model := some model }, (H.alloc (model.length + 1) s).2)
  else (.nomem, r, (H.alloc (model.length + 1) s).2)

/-- {lit}`map_finish`. -/
def mapFinish (raw : Bytes) : FinishReason :=
  if raw = ascii "stop" then .stop
  else if raw = ascii "length" then .length
  else if raw = ascii "tool_calls" then .toolCalls
  else if raw = ascii "content_filter" then .contentFilter
  else .unknown

/-- {lit}`sicha_result_set_finish`. -/
def resultSetFinish (H : Heap w) (r : Result) (raw : Bytes) (s : w) : Status × Result × w :=
  if (H.alloc (raw.length + 1) s).1 then
    (.ok, { r with finishRaw := some raw, finish := mapFinish raw },
      (H.alloc (raw.length + 1) s).2)
  else (.nomem, r, (H.alloc (raw.length + 1) s).2)

/-! ## Getters -/

/-- {lit}`sicha_result_text`. -/
def resultText (r : Result) : Bytes :=
  r.text.bytes

/-- {lit}`sicha_result_reasoning`. -/
def resultReasoning (r : Result) : Bytes :=
  r.reasoning.bytes

/-- {lit}`sicha_result_backend`. -/
def resultBackend (r : Result) : Int32 :=
  r.backend

/-- {lit}`sicha_result_attempt`. -/
def resultAttempt (r : Result) (i : Nat) : Option Attempt :=
  r.attempts[i]?

/-! ## Adding a record -/

/-- The two ways of adding a record: it is appended as it is stored, or an allocation
was refused and the records stay. -/
inductive AddOutcome (H : Heap w) (r : Result) (a : Attempt) : Status → Result → Prop
  | stored (cap : UInt32) :
      AddOutcome H r a .ok { r with attempts := r.attempts ++ [a.stored], capAttempts := cap }
  | refused (cap : UInt32) (h : ¬ H.Reliable) :
      AddOutcome H r a .nomem { r with capAttempts := cap }

/-- The array of attempts grows, and only its capacity changes, or the allocator was unreliable and
nothing changes. -/
theorem resultGrow_cases (H : Heap w) (r : Result) (s : w) :
    (∃ cap, (resultGrow H r s).1 = true ∧
      (resultGrow H r s).2.1 = { r with capAttempts := cap }) ∨
    (¬ H.Reliable ∧ (resultGrow H r s).1 = false ∧ (resultGrow H r s).2.1 = r) := by
  unfold resultGrow
  dsimp only
  split_ifs with hfull hgranted
  · exact .inl ⟨growAttempts r.capAttempts, rfl, rfl⟩
  · exact .inr ⟨fun hH => hgranted (hH _ _), rfl, rfl⟩
  · exact .inl ⟨r.capAttempts, rfl, rfl⟩

omit [SizeT] in
/-- A record is copied whole, or the allocator was unreliable. -/
theorem dupAttempt_cases (H : Heap w) (a : Attempt) (s : w) :
    (dupAttempt H a s).1 = some a.stored ∨
      (¬ H.Reliable ∧ (dupAttempt H a s).1 = none) := by
  unfold dupAttempt
  dsimp only
  split_ifs with hgranted
  · exact .inl rfl
  · refine .inr ⟨fun hH => hgranted ?_, rfl⟩
    rw [hH, hH, hH]
    rfl

/-- A record is added behind the others, or the result is as it was for lack of memory. -/
theorem resultAddAttempt_cases (H : Heap w) (r : Result) (a : Attempt) (s : w) :
    AddOutcome H r a (resultAddAttempt H r a s).1 (resultAddAttempt H r a s).2.1 := by
  unfold resultAddAttempt
  rcases hgrow : resultGrow H r s with ⟨granted, r', s'⟩
  rcases resultGrow_cases H r s with ⟨cap, hcode, hr⟩ | ⟨hH, hcode, hr⟩ <;>
    rw [hgrow] at hcode hr <;> dsimp only at hcode hr <;> subst hcode hr
  · dsimp only
    rcases hdup : dupAttempt H a s' with ⟨copy, s''⟩
    rcases dupAttempt_cases H a s' with hcopy | ⟨hH, hcopy⟩ <;>
      rw [hdup] at hcopy <;> dsimp only at hcopy <;> subst hcopy
    · exact .stored cap
    · exact .refused cap hH
  · exact .refused r'.capAttempts hH

/-- What every request keeps, adding a record keeps. -/
theorem resultAddAttempt_keeps {H : Heap w} {P : w → Prop}
    (halloc : ∀ n s, P s → P (H.alloc n s).2) (r : Result) (a : Attempt) {s : w} (hs : P s) :
    P (resultAddAttempt H r a s).2.2 := by
  have hgrow : P (resultGrow H r s).2.2 := by
    unfold resultGrow
    dsimp only
    split_ifs
    · exact halloc _ _ hs
    · exact halloc _ _ hs
    · exact hs
  have hdup : ∀ s, P s → P (dupAttempt H a s).2 := by
    intro s hs
    exact halloc _ _ (halloc _ _ (halloc _ _ hs))
  unfold resultAddAttempt
  split
  · rename_i h
    rw [h] at hgrow
    exact hgrow
  · rename_i r' s' h
    rw [h] at hgrow
    have hcopy := hdup s' hgrow
    split <;> rename_i hd <;> rw [hd] at hcopy <;> exact hcopy

end Sicha
