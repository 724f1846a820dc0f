import Mathlib.Algebra.Group.Nat.Defs
import Mathlib.Algebra.Ring.Int.Defs
import Mathlib.Data.List.Basic
import Mathlib.Order.Nat
import Mathlib.Tactic.SplitIfs

/-!
# Base vocabulary

Byte strings, the status codes of the public header, and the two small pieces
of C that every later module uses: the width of {lit}`size_t` and bounded
printing.

Integers of the source that are only compared or printed ({lit}`int32_t` return
codes, HTTP statuses, token counts) are {lean}`Int`; lengths are {lean}`Nat` and
every place where the source checks them against {lit}`SIZE_MAX` checks them
here.
-/

namespace Sicha

/-- A run of bytes with its length.  A C string is given by the bytes before its
NUL. -/
abbrev Bytes := List UInt8

/-- The bytes of a C string literal. -/
def ascii (s : String) : Bytes :=
  s.toList.map fun c => UInt8.ofNat c.toNat

/-- A digit. -/
def isDigit (ch : UInt8) : Bool :=
  48 ≤ ch && ch ≤ 57

/-- The bytes {lit}`%d` prints. -/
def decimal : Int → Bytes
  | .ofNat n => (Nat.toDigits 10 n).map fun c => UInt8.ofNat c.toNat
  | .negSucc n => 45 :: (Nat.toDigits 10 (n + 1)).map fun c => UInt8.ofNat c.toNat

/-- {lit}`snprintf` into an array of {lit}`n` bytes keeps the first {lit}`n - 1`. -/
def snprintf (n : Nat) (s : Bytes) : Bytes :=
  s.take (n - 1)

/-- The bytes of a NUL-terminated string stored at the front of a run. -/
def cstr (s : Bytes) : Bytes :=
  s.takeWhile (· ≠ 0)

/-- The platform's {lit}`size_t`. -/
class SizeT where
  bits : Nat
  bits_ge : 16 ≤ bits

/-- {lit}`SIZE_MAX`. -/
def sizeMax [SizeT] : Nat :=
  2 ^ SizeT.bits - 1

/-- {lit}`SIZE_MAX` is the last number below the modulus. -/
theorem sizeMax_add_one [SizeT] : sizeMax + 1 = 2 ^ SizeT.bits := by
  have hpos : 0 < 2 ^ SizeT.bits := Nat.two_pow_pos _
  unfold sizeMax
  omega

/-- {lit}`SIZE_MAX` is odd, so no doubled capacity can equal it. -/
theorem sizeMax_odd [SizeT] : sizeMax % 2 = 1 := by
  have hbits := SizeT.bits_ge
  have hsplit : 2 ^ SizeT.bits = 2 * 2 ^ (SizeT.bits - 1) := by
    rw [← Nat.pow_succ']
    congr 1
    omega
  have hsucc := sizeMax_add_one
  omega

/-- The standard asks at least 16 bits of {lit}`size_t`. -/
theorem sizeMax_ge [SizeT] : 65535 ≤ sizeMax := by
  have hpow : 2 ^ 16 ≤ 2 ^ SizeT.bits := Nat.pow_le_pow_right (by omega) SizeT.bits_ge
  have hsucc := sizeMax_add_one
  omega

/-- A platform with addresses of 64 bits. -/
@[reducible]
def lp64 : SizeT where
  bits := 64
  bits_ge := by decide

/-- {lit}`sicha_status`, with the internal {lit}`SICHA_INT_E_TOOBIG`. -/
inductive Status where
  | ok
  | invalidArg
  | nomem
  | aborted
  | exhausted
  | cancelled
  | streamLost
  | tooBig
deriving DecidableEq, Repr

/-- {lit}`sicha_error_class`. -/
inductive ErrorClass where
  | none
  | abort
  | retrySame
  | advance
  | cancelled
  | validation
deriving DecidableEq, Repr

/-- {lit}`sicha_finish_reason`. -/
inductive FinishReason where
  | unknown
  | stop
  | length
  | toolCalls
  | contentFilter
deriving DecidableEq, Repr

/-- The {lit}`SICHA_BODY_*` conditions of a 2xx body. -/
inductive BodyState where
  | ok
  | empty
  | malformed
  | tooBig
deriving DecidableEq, Repr

/-- {lit}`sicha_transport_status`.  A transport is foreign code and may return
a code the header does not name. -/
inductive TransportStatus where
  | ok
  | connect
  | tls
  | timeoutConnect
  | timeoutFirstByte
  | timeoutIdle
  | timeoutTotal
  | reset
  | abortedBySink
  | cancelled
  | protocol
  | nomem
  | other
  | unnamed (code : {c : Int // c < -12 ∨ 0 < c})
deriving DecidableEq, Repr

/-- {lit}`sicha_transport_status_str`. -/
def transportStatusStr : TransportStatus → Bytes
  | .ok => ascii "ok"
  | .connect => ascii "connection failed"
  | .tls => ascii "TLS failure"
  | .timeoutConnect => ascii "connect timeout"
  | .timeoutFirstByte => ascii "first-byte timeout"
  | .timeoutIdle => ascii "idle timeout"
  | .timeoutTotal => ascii "total timeout"
  | .reset => ascii "connection reset"
  | .abortedBySink => ascii "aborted by sink"
  | .cancelled => ascii "cancelled"
  | .protocol => ascii "protocol error"
  | .nomem => ascii "out of memory"
  | .other => ascii "transport error"
  | .unnamed _ => ascii "unknown transport status"

/-- {lit}`sicha_error_class_str`. -/
def errorClassStr : ErrorClass → Bytes
  | .none => ascii "none"
  | .abort => ascii "abort"
  | .retrySame => ascii "retry-same"
  | .advance => ascii "advance"
  | .cancelled => ascii "cancelled"
  | .validation => ascii "validation"

/-- A pointer to an array with its length.  The source refuses a NULL pointer with a
positive length wherever it takes such a pair. -/
inductive Span (α : Type) where
  | null (n : Nat)
  | list (items : List α)

/-- The check {lit}`n > 0 && p == NULL`. -/
def Span.dangling {α : Type} : Span α → Bool
  | .null n => n > 0
  | .list _ => false

/-- The elements behind a pointer that is not dangling. -/
def Span.items {α : Type} : Span α → List α
  | .null _ => []
  | .list xs => xs

/-- {lit}`SICHA_EXCERPT_MAX`. -/
def excerptMax : Nat := 2048

end Sicha
