import Sicha.Buf.Refine

/-!
# What a take leaves

The header promises that {lit}`sicha_buf_take` leaves a fresh buffer, whether it gives the bytes
or NULL.  It does so in three of its four exits.  A buffer that no append has touched has no
block yet; if the allocator refuses the one for the empty string, the buffer keeps the sticky
error of the reservation.

Main results:

- Theorem {lit}`bufTake_none_iff`: when nothing is taken.
- Theorem {lit}`bufTake_left`: what a take leaves, on every allocation outcome.
- Theorem {lit}`bufTake_renews_iff`: in every state that calls lead to, the promise is kept
  exactly when the allocator does not refuse that block.
-/

namespace Sicha

section Take

variable [SizeT] {w : Type}

/-! ## Calls on a buffer -/

/-- {lit}`sicha_buf_free`. -/
def bufFree (b : Buf) : Buf :=
  bufInit b.maxLen

/-- A call on a buffer. -/
inductive BufCall where
  | op (op : BufOp)
  | free

/-- What a call leaves of the buffer, whatever it returns. -/
def BufCall.left (H : Heap w) (b : Buf) (s : w) : BufCall → Buf
  | .op (.append bytes) => (bufAppend H b bytes s).1
  | .op (.appendCstr str) => (bufAppendCstr H b str s).1
  | .op (.appendCh ch) => (bufAppendCh H b ch s).1
  | .op .reset => bufReset b
  | .op .take => (bufTake H b s).2.1
  | .free => bufFree b

/-- The states that calls lead to, each with an allocator that answers as it likes. -/
inductive BufReached (maxLen : Nat) : Buf → Prop
  | init : BufReached maxLen (bufInit maxLen)
  | call {b : Buf} (h : BufReached maxLen b) (call : BufCall) {v : Type} (H : Heap v) (s : v) :
      BufReached maxLen (call.left H b s)

/-! ## The four exits -/

/-- There is neither an error nor a block, and the allocator refuses the one for the empty
string: 64 bytes and the NUL. -/
def Buf.TakeRefused (b : Buf) (H : Heap w) (s : w) : Prop :=
  b.err = .ok ∧ b.data = none ∧ (H.alloc 65 s).1 = false

/-- The loop does not turn for the empty string. -/
theorem growCap_zero (rounds : Nat) : growCap 0 rounds 64 = 64 := by
  cases rounds <;> rfl

/-- The reservation of a take: it asks for the block of the empty string. -/
theorem bufReserve_first {b : Buf} (herr : b.err = .ok) (hdata : b.data = none) (H : Heap w)
    (s : w) :
    (bufReserve H b 0 s).1 = (H.alloc 65 s).1 ∧
      ((H.alloc 65 s).1 = false → (bufReserve H b 0 s).2.1 = b.fail .nomem) := by
  obtain ⟨hlen, hcap⟩ := b.inv_null hdata
  have hmax := sizeMax_ge
  have hstart : b.startCap = 64 := by rw [Buf.startCap, if_pos hcap]
  have hgrow : growCap (b.len + 0) SizeT.bits b.startCap = 64 := by
    rw [hlen, hstart, growCap_zero]
  have hrequest : H.alloc 65 s = H.alloc (growCap (b.len + 0) SizeT.bits b.startCap + 1) s := by
    rw [hgrow]
  unfold bufReserve bufGrow
  rw [if_neg (not_not.mpr herr), dif_neg (by omega), if_neg (by omega), if_neg (by simp [hdata]),
    dif_neg (by omega), hrequest]
  rcases H.alloc (growCap (b.len + 0) SizeT.bits b.startCap + 1) s with ⟨granted, s'⟩
  cases granted with
  | false => exact ⟨rfl, fun _ => rfl⟩
  | true => exact ⟨rfl, nofun⟩

/-- Nothing is taken after an error, or for want of a block. -/
theorem bufTake_none_iff (H : Heap w) (b : Buf) (s : w) :
    (bufTake H b s).1 = none ↔ b.err ≠ .ok ∨ b.TakeRefused H s := by
  unfold Buf.TakeRefused bufTake
  by_cases herr : b.err = .ok
  · rw [if_neg (not_not.mpr herr)]
    by_cases hdata : b.data = none
    · obtain ⟨hcode, -⟩ := bufReserve_first herr hdata H s
      rw [if_pos (Option.isNone_iff_eq_none.mpr hdata), ← hcode]
      rcases bufReserve H b 0 s with ⟨granted, b', s'⟩
      cases granted <;> simp [herr, hdata]
    · rw [if_neg (mt Option.isNone_iff_eq_none.mp hdata)]
      simp [herr, hdata]
  · rw [if_pos herr]
    simp [herr]

/-- A take leaves a fresh buffer, or one with the error of the reservation. -/
theorem bufTake_left (H : Heap w) (b : Buf) (s : w) :
    (b.TakeRefused H s → (bufTake H b s).2.1 = b.fail .nomem) ∧
      (¬ b.TakeRefused H s → (bufTake H b s).2.1 = bufInit b.maxLen) := by
  unfold Buf.TakeRefused
  by_cases herr : b.err = .ok
  · by_cases hdata : b.data = none
    · obtain ⟨hcode, hfailed⟩ := bufReserve_first herr hdata H s
      rcases hres : bufReserve H b 0 s with ⟨granted, b', s'⟩
      unfold bufTake
      rw [if_neg (not_not.mpr herr), if_pos (Option.isNone_iff_eq_none.mpr hdata), ← hcode]
      rw [← hcode] at hfailed
      rw [hres] at hfailed ⊢
      cases granted with
      | false => exact ⟨fun _ => hfailed rfl, fun hno => absurd ⟨herr, hdata, rfl⟩ hno⟩
      | true => exact ⟨nofun, fun _ => congrArg bufInit (bufReserve_true hres).maxLen_eq⟩
    · unfold bufTake
      rw [if_neg (not_not.mpr herr), if_neg (mt Option.isNone_iff_eq_none.mp hdata)]
      exact ⟨fun h => absurd h.2.1 hdata, fun _ => rfl⟩
  · unfold bufTake
    rw [if_pos herr]
    exact ⟨fun h => absurd h.1 herr, fun _ => rfl⟩

/-! ## Every reachable state -/

/-- The cap never changes. -/
theorem BufReached.maxLen_eq {maxLen : Nat} {b : Buf} (h : BufReached maxLen b) :
    b.maxLen = maxLen := by
  induction h with
  | init => rfl
  | @call b _ call _ H s ih =>
      have happend : ∀ xs, (bufAppend H b xs s).1.maxLen = maxLen :=
        fun xs => (bufAppend_maxLen H b xs s).trans ih
      cases call with
      | free => exact ih
      | op op =>
          cases op with
          | append bytes => exact happend bytes
          | appendCstr str => exact happend (cstr str)
          | appendCh ch => exact happend [ch]
          | reset => exact ih
          | take =>
              obtain ⟨hfailed, hfresh⟩ := bufTake_left H b s
              by_cases hrefused : b.TakeRefused H s
              · exact (congrArg Buf.maxLen (hfailed hrefused)).trans ih
              · exact (congrArg Buf.maxLen (hfresh hrefused)).trans ih

/-- What the header promises of a take: a fresh buffer with the same cap, whatever is returned,
so that an append within the cap succeeds if there is a block for it; and NULL only after an
error, or if the block that the take asks for is refused. -/
structure TakeRenews (H : Heap w) (maxLen : Nat) (b : Buf) (s : w) : Prop where
  fresh : (bufTake H b s).2.1 = bufInit maxLen
  room : ∀ {v : Type} (K : Heap v) (t : v) (xs : Bytes), xs.length ≤ sizeMax →
    maxLen = 0 ∨ xs.length ≤ maxLen → (bufTake H b s).2.1.unplaced K xs.length t = false →
      (bufAppend K (bufTake H b s).2.1 xs t).1.err = .ok ∧
        (bufAppend K (bufTake H b s).2.1 xs t).1.bytes = xs
  none_iff : (bufTake H b s).1 = none ↔
    b.err ≠ .ok ∨ (b.data = none ∧ (H.alloc 65 s).1 = false)

/-- A fresh buffer takes what its cap admits, if there is a block for it. -/
theorem bufInit_append {maxLen : Nat} (H : Heap w) (s : w) {xs : Bytes}
    (hxs : xs.length ≤ sizeMax) (hcap : maxLen = 0 ∨ xs.length ≤ maxLen)
    (hplaced : (bufInit maxLen).unplaced H xs.length s = false) :
    (bufAppend H (bufInit maxLen) xs s).1.view = ⟨xs, maxLen, .ok⟩ := by
  rw [bufAppend_refines, hplaced, bufInit_view, CappedBytes.appendPlaced]
  simp only [List.length_nil, Nat.zero_add, List.nil_append]
  rw [if_neg (not_not.mpr rfl), if_neg (by omega), if_neg (by omega), if_neg Bool.false_ne_true]

/-- A take keeps the promise of the header exactly when there was an error before, or a block,
or the allocator grants the block of the empty string. -/
theorem bufTake_renews_iff {maxLen : Nat} {b : Buf} (h : BufReached maxLen b) (H : Heap w) (s : w) :
    TakeRenews H maxLen b s ↔ b.err ≠ .ok ∨ b.data.isSome ∨ (H.alloc 65 s).1 = true := by
  obtain ⟨hfailed, hfresh⟩ := bufTake_left H b s
  have hnone := bufTake_none_iff H b s
  constructor
  · intro hrenews
    by_contra hno
    push Not at hno
    obtain ⟨herr, hdata, halloc⟩ := hno
    have hleft := hfailed ⟨herr, by simpa using hdata, by simpa using halloc⟩
    have hbad : Status.ok = .nomem := congrArg Buf.err (hrenews.fresh.symm.trans hleft)
    cases hbad
  · intro hgood
    have hgranted : ¬ b.TakeRefused H s := by
      rintro ⟨herr, hdata, halloc⟩
      rcases hgood with hbad | hblock | hyes
      · exact hbad herr
      · rw [hdata] at hblock
        cases hblock
      · rw [halloc] at hyes
        cases hyes
    have hnew : (bufTake H b s).2.1 = bufInit maxLen := h.maxLen_eq ▸ hfresh hgranted
    refine ⟨hnew, fun K t xs hxs hcap hplaced => ?_, ?_⟩
    · rw [hnew] at hplaced ⊢
      have hview := bufInit_append K t hxs hcap hplaced
      exact ⟨congrArg CappedBytes.err hview, congrArg CappedBytes.bytes hview⟩
    · rw [hnone]
      unfold Buf.TakeRefused
      tauto

end Take

section Plain

attribute [local instance] lp64

/-- An allocator without memory. -/
def Heap.spent : Heap Unit where
  alloc _ s := (false, s)

/-- An untouched buffer is not renewed when the allocator refuses: it keeps the error, and an
append within its cap does nothing although memory is back. -/
theorem bufTake_kept :
    ¬ TakeRenews Heap.spent 4 (bufInit 4) () ∧
      (bufTake Heap.spent (bufInit 4) ()).1 = none ∧
      (bufTake Heap.spent (bufInit 4) ()).2.1.err = .nomem ∧
      (bufAppend Heap.plentiful (bufTake Heap.spent (bufInit 4) ()).2.1 (ascii "ab") ()).1.bytes =
        [] := by
  have hkept : (bufTake Heap.spent (bufInit 4) ()).2.1.err = .nomem := by decide +kernel
  refine ⟨fun hrenews => ?_, by decide +kernel, hkept, by decide +kernel⟩
  rw [hrenews.fresh] at hkept
  cases hkept

/-- A buffer with a refused append is renewed by a take, and its bytes are gone. -/
theorem bufTake_renews_iff_plain :
    let b := (bufAppend Heap.plentiful (bufInit 4) (ascii "hello") ()).1
    BufReached 4 b ∧ b.err ≠ .ok ∧ TakeRenews Heap.spent 4 b () := by
  have hreached : BufReached 4 (bufAppend Heap.plentiful (bufInit 4) (ascii "hello") ()).1 :=
    .call .init (.op (.append (ascii "hello"))) Heap.plentiful ()
  have herr : (bufAppend Heap.plentiful (bufInit 4) (ascii "hello") ()).1.err ≠ .ok := by
    decide +kernel
  exact ⟨hreached, herr, (bufTake_renews_iff hreached Heap.spent ()).mpr (.inl herr)⟩

end Plain

end Sicha
