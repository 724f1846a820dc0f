import Sicha.Base

/-!
# Retry policy, classification and backoff arithmetic

A translation of {lit}`classify.c` and of the generator in {lit}`client.c`.
Everything here is pure and total.

Main results:

- Theorems {lit}`classify_ne_validation` and {lit}`classify_cancelled_iff`: only a
  validator rejects, and only the transport status cancels.
-/

namespace Sicha

/-- {lit}`SICHA_DISABLED`, and {lit}`SICHA_INFINITE`. -/
def disabled : UInt32 := 0xFFFFFFFF

/-- {lit}`UINT64_MAX`. -/
def uint64Max : UInt64 := 0xFFFFFFFFFFFFFFFF

/-- Addition that saturates. -/
def addSat (a b : UInt64) : UInt64 :=
  if a > uint64Max - b then uint64Max else a + b

/-- The addition stops at the largest number. -/
theorem addSat_toNat (a b : UInt64) :
    (addSat a b).toNat = min (a.toNat + b.toNat) (2 ^ 64 - 1) := by
  have ha := a.toNat_lt
  have hb := b.toNat_lt
  have hmax : uint64Max.toNat = 2 ^ 64 - 1 := rfl
  have hle : b ≤ uint64Max := by
    rw [UInt64.le_iff_toNat_le]
    omega
  have hsub : (uint64Max - b).toNat = 2 ^ 64 - 1 - b.toNat := by
    rw [UInt64.toNat_sub_of_le _ _ hle, hmax]
  unfold addSat
  split_ifs with hover
  · rw [gt_iff_lt, UInt64.lt_iff_toNat_lt, hsub] at hover
    omega
  · rw [gt_iff_lt, UInt64.lt_iff_toNat_lt, hsub] at hover
    rw [UInt64.toNat_add]
    omega

/-- {lit}`SICHA_POLICY_LENGTH_IS_ADVANCE`. -/
def policyLengthIsAdvance : UInt32 := 0x1

/-- {lit}`SICHA_POLICY_CONTENT_FILTER_IS_ADVANCE`. -/
def policyContentFilterIsAdvance : UInt32 := 0x2

/-- {lit}`SICHA_POLICY_RETRY_AFTER_DELTAS`. -/
def policyRetryAfterDeltas : UInt32 := 0x4

/-- {lit}`sicha_status_override`. -/
structure StatusOverride where
  httpStatus : Int
  cls : ErrorClass
deriving DecidableEq

/-- {lit}`sicha_retry_policy`. -/
structure RetryPolicy where
  maxTries : UInt32
  validationRetries : UInt32
  backoffBaseMs : UInt32
  backoffCapMs : UInt32
  backoffJitterMs : UInt32
  retryAfterCapMs : UInt32
  flags : UInt32
  overrides : Span StatusOverride

/-- A zeroed field takes its default. -/
def orDefault (x dflt : UInt32) : UInt32 :=
  if x = 0 then dflt else x

/-- {lit}`sicha_policy_resolve`.  For {lit}`validation_retries` 0 is the default. -/
def policyResolve (p : RetryPolicy) : RetryPolicy :=
  { p with
    maxTries := orDefault p.maxTries 3
    backoffBaseMs := orDefault p.backoffBaseMs 1000
    backoffCapMs := orDefault p.backoffCapMs 30000
    backoffJitterMs := orDefault p.backoffJitterMs 500
    retryAfterCapMs := orDefault p.retryAfterCapMs 120000 }

/-- The check {lit}`sicha_policy_validate` makes of one override. -/
def overrideOk (o : StatusOverride) : Bool :=
  o.httpStatus > 0 && (o.cls == .abort || o.cls == .retrySame || o.cls == .advance)

/-- {lit}`sicha_policy_validate`. -/
def policyValidate (p : RetryPolicy) : Status :=
  let known := policyLengthIsAdvance ||| policyContentFilterIsAdvance ||| policyRetryAfterDeltas
  if p.flags &&& ~~~known ≠ 0 then .invalidArg
  else if p.overrides.dangling then .invalidArg
  else if p.overrides.items.all overrideOk then .ok
  else .invalidArg

/-- {lit}`lookup_override`: the first matching override wins. -/
def lookupOverride (p : RetryPolicy) (httpStatus : Int) : Option ErrorClass :=
  (p.overrides.items.find? fun o => o.httpStatus == httpStatus).map StatusOverride.cls

/-- The class of a 2xx response. -/
def classifySuccess (p : RetryPolicy) (bodyState : BodyState) (finish : FinishReason) :
    ErrorClass :=
  match bodyState with
  | .empty | .malformed | .tooBig => .advance
  | .ok =>
      if finish = .length ∧ p.flags &&& policyLengthIsAdvance ≠ 0 then .advance
      else if finish = .contentFilter ∧ p.flags &&& policyContentFilterIsAdvance ≠ 0 then
        .advance
      else .none

/-- The class of an HTTP status outside 2xx that no override names. -/
def classifyHttp (httpStatus : Int) : ErrorClass :=
  if httpStatus = 400 ∨ httpStatus = 401 ∨ httpStatus = 402 ∨ httpStatus = 403 ∨
      httpStatus = 404 then .abort
  else if httpStatus = 429 then .advance
  else if httpStatus ≥ 500 ∧ httpStatus ≤ 599 then .retrySame
  else .retrySame -- unclassifiable, an OK transport with status 0 included

/-- {lit}`sicha_classify`. -/
def classify (p : RetryPolicy) (ts : TransportStatus) (httpStatus : Int)
    (bodyState : BodyState) (finish : FinishReason) : ErrorClass :=
  match ts with
  | .cancelled | .abortedBySink => .cancelled
  | .timeoutConnect | .timeoutFirstByte | .timeoutIdle | .timeoutTotal => .advance
  | .connect | .tls | .reset | .other => .retrySame
  | .protocol => .advance
  | .nomem => .advance
  | .unnamed _ => .retrySame
  | .ok =>
      if httpStatus ≥ 200 ∧ httpStatus ≤ 299 then classifySuccess p bodyState finish
      else
        match lookupOverride p httpStatus with
        | some cls => cls
        | none => classifyHttp httpStatus

/-! ## Retry-After -/

/-- {lit}`RETRY_AFTER_SAT_MS`. -/
def retryAfterSatMs : UInt64 := 1000 * 1000 * 1000 * 1000 * 1000

/-- Skip spaces and tabs. -/
def skipOws (s : Bytes) : Bytes :=
  s.dropWhile fun b => b == 32 || b == 9

/-- The digit loop of {lit}`sicha_retry_after_ms`: the number of digits, the seconds
they spell (kept saturated), and the rest. -/
def retryDigits : Bytes → Nat → UInt64 → Nat × UInt64 × Bytes
  | b :: rest, digits, seconds =>
      if 48 ≤ b ∧ b ≤ 57 then
        retryDigits rest (digits + 1)
          (if seconds > retryAfterSatMs then retryAfterSatMs
            else seconds * 10 + (b - 48).toUInt64)
      else (digits, seconds, b :: rest)
  | [], digits, seconds => (digits, seconds, [])

/-- {lit}`sicha_retry_after_ms`. -/
def retryAfterMs (value : Option Bytes) : UInt64 :=
  match value with
  | none => uint64Max
  | some value =>
      let r := retryDigits (skipOws value) 0 0
      if r.1 = 0 ∨ skipOws r.2.2 ≠ [] then uint64Max -- empty, HTTP-date, or trailing garbage
      else if r.2.1 > retryAfterSatMs / 1000 then retryAfterSatMs
      else r.2.1 * 1000

/-! ## Backoff -/

/-- {lit}`sicha_backoff_ms`. -/
def backoffMs (p : RetryPolicy) (k : UInt32) (jitterRand : UInt64) : UInt64 :=
  let base := p.backoffBaseMs.toUInt64
  let cap := p.backoffCapMs.toUInt64
  let k := if k = 0 then 1 else k
  let wait :=
    if k - 1 ≥ 63 ∨ base > uint64Max >>> (k - 1).toUInt64 then cap
    else base <<< (k - 1).toUInt64
  let wait :=
    if p.backoffJitterMs ≠ disabled ∧ p.backoffJitterMs > 0 then
      let j := jitterRand % p.backoffJitterMs.toUInt64
      if wait > uint64Max - j then uint64Max else wait + j
    else wait
  if wait < cap then wait else cap

/-- {lit}`splitmix64`: the output and the next state. -/
def splitmix64 (s : UInt64) : UInt64 × UInt64 :=
  let s := s + 0x9E3779B97F4A7C15
  let z := s
  let z := (z ^^^ (z >>> 30)) * 0xBF58476D1CE4E5B9
  let z := (z ^^^ (z >>> 27)) * 0x94D049BB133111EB
  (z ^^^ (z >>> 31), s)

/-! ## What classification can answer -/

/-- A valid policy overrides only with the three classes that a status may have. -/
theorem lookupOverride_cls {p : RetryPolicy} (hp : policyValidate p = .ok) {httpStatus : Int}
    {cls : ErrorClass} (h : lookupOverride p httpStatus = some cls) :
    cls = .abort ∨ cls = .retrySame ∨ cls = .advance := by
  have hall : p.overrides.items.all overrideOk = true := by
    unfold policyValidate at hp
    dsimp only at hp
    split_ifs at hp with hflags hdangling hall
    exact hall
  obtain ⟨o, hfind, rfl⟩ := Option.map_eq_some_iff.mp h
  have hok := List.all_eq_true.mp hall o (List.mem_of_find?_eq_some hfind)
  simp only [overrideOk, Bool.and_eq_true, Bool.or_eq_true, beq_iff_eq] at hok
  tauto

/-- An answer with a 2xx status is a success, or the chain moves on. -/
theorem classifySuccess_cls (p : RetryPolicy) (bodyState : BodyState) (finish : FinishReason) :
    classifySuccess p bodyState finish = .none ∨
      classifySuccess p bodyState finish = .advance := by
  cases bodyState with
  | ok =>
      unfold classifySuccess
      dsimp only
      split_ifs <;> simp
  | empty => exact .inr rfl
  | malformed => exact .inr rfl
  | tooBig => exact .inr rfl

/-- A status alone never makes a success. -/
theorem classifyHttp_cls (httpStatus : Int) :
    classifyHttp httpStatus = .abort ∨ classifyHttp httpStatus = .retrySame ∨
      classifyHttp httpStatus = .advance := by
  unfold classifyHttp
  split_ifs <;> simp

/-- An exchange that the transport completed is never classified as cancelled, nor as
rejected by a validator. -/
theorem classify_ok_cls {p : RetryPolicy} (hp : policyValidate p = .ok) (httpStatus : Int)
    (bodyState : BodyState) (finish : FinishReason) :
    classify p .ok httpStatus bodyState finish = .none ∨
      classify p .ok httpStatus bodyState finish = .abort ∨
      classify p .ok httpStatus bodyState finish = .retrySame ∨
      classify p .ok httpStatus bodyState finish = .advance := by
  unfold classify
  dsimp only
  split_ifs with hsuccess
  · have hcls := classifySuccess_cls p bodyState finish
    tauto
  · cases hover : lookupOverride p httpStatus with
    | some cls => exact .inr (lookupOverride_cls hp hover)
    | none => exact .inr (classifyHttp_cls httpStatus)

/-- A success is a completed 2xx response with a good body. -/
theorem classify_none {p : RetryPolicy} (hp : policyValidate p = .ok) {ts : TransportStatus}
    {httpStatus : Int} {bodyState : BodyState} {finish : FinishReason}
    (h : classify p ts httpStatus bodyState finish = .none) :
    ts = .ok ∧ (httpStatus ≥ 200 ∧ httpStatus ≤ 299) ∧ bodyState = .ok := by
  cases ts with
  | ok =>
      unfold classify at h
      dsimp only at h
      split_ifs at h with hsuccess
      · refine ⟨rfl, hsuccess, ?_⟩
        cases bodyState with
        | ok => rfl
        | _ => cases h
      · cases hover : lookupOverride p httpStatus with
        | some cls =>
            rw [hover] at h
            obtain rfl : cls = .none := h
            rcases lookupOverride_cls hp hover with hcls | hcls | hcls <;> cases hcls
        | none =>
            rw [hover] at h
            rcases classifyHttp_cls httpStatus with hcls | hcls | hcls <;>
              (dsimp only at h; rw [hcls] at h; cases h)
  | _ => cases h

/-- Only the validator classifies as rejected. -/
theorem classify_ne_validation {p : RetryPolicy} (hp : policyValidate p = .ok)
    (ts : TransportStatus) (httpStatus : Int) (bodyState : BodyState) (finish : FinishReason) :
    classify p ts httpStatus bodyState finish ≠ .validation := by
  cases ts with
  | ok =>
      rcases classify_ok_cls hp httpStatus bodyState finish with h | h | h | h <;> simp [h]
  | _ => simp [classify]

/-- Only the transport status classifies as cancelled. -/
theorem classify_cancelled_iff {p : RetryPolicy} (hp : policyValidate p = .ok)
    (ts : TransportStatus) (httpStatus : Int) (bodyState : BodyState) (finish : FinishReason) :
    classify p ts httpStatus bodyState finish = .cancelled ↔
      ts = .cancelled ∨ ts = .abortedBySink := by
  cases ts with
  | ok =>
      rcases classify_ok_cls hp httpStatus bodyState finish with h | h | h | h <;> simp [h]
  | _ => simp [classify]

/-- A resolved policy allows at least one try. -/
theorem policyResolve_maxTries (p : RetryPolicy) : 0 < (policyResolve p).maxTries.toNat := by
  simp only [policyResolve, orDefault]
  split_ifs with hzero
  · decide
  · exact Nat.pos_of_ne_zero fun h => hzero (UInt32.toNat_inj.mp h)

end Sicha
