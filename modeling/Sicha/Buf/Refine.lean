import Sicha.Buf

/-!
# The buffer refines a capped list

Any sequence of operations on a buffer, on any pattern of allocation failures, seen as a run of
a list of bytes with a cap and a sticky error.

Main results:

- Theorem {lit}`growLoop_growCap`: the doubling loop ends, with room for the request.
- Theorem {lit}`exec_refines`: one operation.
- Theorem {lit}`bufRun_refines`: a run from {lit}`sicha_buf_init`, and the buffer's invariant in
  every state it reaches.
-/

namespace Sicha

section Refine

variable [SizeT] {w : Type}

/-! ## The doubling loop -/

/-- The loop of {lit}`buf_reserve`, round by round until it ends: from a capacity to the one it
leaves. -/
inductive GrowLoop (want : Nat) : Nat → Nat → Prop
  | enough {cap : Nat} (h : want ≤ cap) : GrowLoop want cap cap
  | rest {cap : Nat} (hlt : cap < want) (hhalf : sizeMax / 2 < cap) : GrowLoop want cap want
  | double {cap out : Nat} (hlt : cap < want) (hhalf : cap ≤ sizeMax / 2)
      (h : GrowLoop want (cap * 2) out) : GrowLoop want cap out

/-- Enough rounds bring the loop to its end. -/
theorem growLoop_growCap {want rounds cap : Nat} (h : want ≤ cap * 2 ^ rounds) :
    GrowLoop want cap (growCap want rounds cap) := by
  induction rounds generalizing cap with
  | zero => exact .enough (by simpa using h)
  | succ rounds ih =>
      unfold growCap
      split_ifs with hlt hhalf
      · exact .rest hlt hhalf
      · refine .double hlt (Nat.not_lt.mp hhalf) (ih ?_)
        rw [Nat.mul_assoc, ← Nat.pow_succ']
        exact h
      · exact .enough (Nat.not_lt.mp hlt)

/-- It ends one way only. -/
theorem GrowLoop.unique {want cap out out' : Nat} (h : GrowLoop want cap out)
    (h' : GrowLoop want cap out') : out = out' := by
  induction h with
  | enough hge =>
      cases h' with
      | enough => rfl
      | rest hlt => omega
      | double hlt => omega
  | rest hlt hhalf =>
      cases h' with
      | enough hge => omega
      | rest => rfl
      | double _ hsmall => omega
  | double hlt hsmall _ ih =>
      cases h' with
      | enough hge => omega
      | rest _ hhalf => omega
      | double _ _ hrest => exact ih hrest

/-! ## The abstract buffer -/

/-- Append to a capped list, which may find no place for the longer list. -/
def CappedBytes.appendPlaced (c : CappedBytes) (unplaced : Bool) (xs : Bytes) : CappedBytes :=
  if c.err ≠ .ok then c
  else if c.bytes.length + xs.length > sizeMax then c.fail .nomem
  else if c.maxLen ≠ 0 ∧ c.bytes.length + xs.length > c.maxLen then c.fail .tooBig
  else if unplaced then c.fail .nomem
  else { c with bytes := c.bytes ++ xs }

/-- An operation on a buffer. -/
inductive BufOp where
  | append (bytes : Bytes)
  | appendCstr (str : Bytes)
  | appendCh (ch : UInt8)
  | reset
  | take

/-- An operation on the abstract buffer: what is taken, and what is left. -/
def CappedBytes.exec (c : CappedBytes) (unplaced : Bool) : BufOp → Option Bytes × CappedBytes
  | .append bytes => (none, c.appendPlaced unplaced bytes)
  | .appendCstr str => (none, c.appendPlaced unplaced (cstr str))
  | .appendCh ch => (none, c.appendPlaced unplaced [ch])
  | .reset => (none, { c with bytes := [] })
  | .take => (some c.bytes, ⟨[], c.maxLen, .ok⟩)

/-- A run of the abstract buffer: all that is taken, in order, and what is left. -/
def CappedBytes.run : List (BufOp × Bool) → CappedBytes → List Bytes × CappedBytes
  | [], c => ([], c)
  | (op, unplaced) :: ops, c =>
      let rest := CappedBytes.run ops (c.exec unplaced op).2
      ((c.exec unplaced op).1.toList ++ rest.1, rest.2)

/-! ## The concrete buffer -/

/-- The size of the block that a reservation asks for, unless the one it has is large enough. -/
def Buf.request (b : Buf) (need : Nat) : Option Nat :=
  if b.data.isSome ∧ b.len + need ≤ b.cap then none
  else some (growCap (b.len + need) SizeT.bits b.startCap + 1)

/-- There is no block for these many more bytes: {lit}`SIZE_MAX` of them leave no room for the
NUL, or the allocator refuses. -/
def Buf.unplaced (b : Buf) (H : Heap w) (need : Nat) (s : w) : Bool :=
  b.len + need == sizeMax || (b.request need).any fun size => !(H.alloc size s).1

/-- An operation: what is taken, and what is left.  A take that fails does not count. -/
def BufOp.exec (H : Heap w) (b : Buf) (s : w) : BufOp → Option (Option Bytes × Buf × w)
  | .append bytes => some (none, bufAppend H b bytes s)
  | .appendCstr str => some (none, bufAppendCstr H b str s)
  | .appendCh ch => some (none, bufAppendCh H b ch s)
  | .reset => some (none, bufReset b, s)
  | .take => (bufTake H b s).1.map fun bytes => (some bytes, (bufTake H b s).2)

/-- An append finds no block. -/
def BufOp.unplaced (H : Heap w) (b : Buf) (s : w) : BufOp → Bool
  | .append bytes => b.unplaced H bytes.length s
  | .appendCstr str => b.unplaced H (cstr str).length s
  | .appendCh _ => b.unplaced H 1 s
  | .reset => false
  | .take => false

/-- A run in which every take succeeds: all that is taken, in order, and what is left. -/
def bufRun (H : Heap w) : List BufOp → Buf → w → Option (List Bytes × Buf × w)
  | [], b, s => some ([], b, s)
  | op :: ops, b, s =>
      (op.exec H b s).bind fun r =>
        (bufRun H ops r.2.1 r.2.2).map fun rest => (r.1.toList ++ rest.1, rest.2)

/-- Which operations of a run find no block. -/
def unplacedIn (H : Heap w) : List BufOp → Buf → w → List Bool
  | [], _, _ => []
  | op :: ops, b, s =>
      op.unplaced H b s :: ((op.exec H b s).elim [] fun r => unplacedIn H ops r.2.1 r.2.2)

/-! ## One operation -/

/-- A reservation refuses as the abstract append does, and grants what that appends. -/
theorem bufReserve_refines (H : Heap w) (b : Buf) (xs : Bytes) (s : w) :
    ((bufReserve H b xs.length s).1 = false ∧ (bufReserve H b xs.length s).2.1.view =
        b.view.appendPlaced (b.unplaced H xs.length s) xs) ∨
      ((bufReserve H b xs.length s).1 = true ∧
        b.view.appendPlaced (b.unplaced H xs.length s) xs = ⟨b.bytes ++ xs, b.maxLen, .ok⟩) := by
  have hlen := b.len_lt_sizeMax
  have habstract : b.view.bytes.length = b.len := b.bytes_length
  unfold CappedBytes.appendPlaced bufReserve
  rw [habstract, Buf.view_err, Buf.view_maxLen]
  by_cases herr : b.err = .ok
  · rw [if_neg (not_not.mpr herr), if_neg (not_not.mpr herr)]
    by_cases hover : b.len + xs.length > sizeMax
    · rw [dif_pos (by omega), if_pos hover]
      exact .inl ⟨rfl, rfl⟩
    rw [dif_neg (by omega), if_neg hover]
    by_cases hmax : b.maxLen ≠ 0 ∧ b.len + xs.length > b.maxLen
    · rw [if_pos hmax, if_pos hmax]
      exact .inl ⟨rfl, rfl⟩
    rw [if_neg hmax, if_neg hmax]
    by_cases hroom : b.data.isSome ∧ b.len + xs.length ≤ b.cap
    · -- the block at hand is large enough
      obtain ⟨d, hd⟩ := Option.isSome_iff_exists.mp hroom.1
      have hcap := (b.inv_block d hd).2.2
      have hplaced : b.unplaced H xs.length s = false := by
        simp [Buf.unplaced, Buf.request, hroom]
        omega
      rw [if_pos hroom, if_neg (by simp [hplaced]), herr]
      exact .inr ⟨rfl, rfl⟩
    · rw [if_neg hroom]
      have hwant : b.len + xs.length ≤ sizeMax := Nat.not_lt.mp hover
      have hfull := growCap_eq_sizeMax_iff hwant b.startCap_lt (b.startCap_rounds hwant)
      unfold bufGrow Buf.unplaced Buf.request
      rw [if_neg hroom]
      by_cases hnul : growCap (b.len + xs.length) SizeT.bits b.startCap = sizeMax
      · -- no room for the NUL
        rw [dif_pos hnul, if_pos (by simp [hfull.mp hnul])]
        exact .inl ⟨rfl, rfl⟩
      · have hlt : ¬ b.len + xs.length = sizeMax := fun h => hnul (hfull.mpr h)
        rw [dif_neg hnul]
        rcases halloc : H.alloc (growCap (b.len + xs.length) SizeT.bits b.startCap + 1) s with
          ⟨granted, s'⟩
        cases granted with
        | false =>
            rw [if_pos (by simp [halloc])]
            exact .inl ⟨rfl, rfl⟩
        | true =>
            rw [if_neg (by simp [halloc, hlt]), herr]
            exact .inr ⟨rfl, rfl⟩
  · rw [if_pos herr, if_pos herr]
    exact .inl ⟨rfl, rfl⟩

/-- An append is the abstract append. -/
theorem bufAppend_refines (H : Heap w) (b : Buf) (xs : Bytes) (s : w) :
    (bufAppend H b xs s).1.view = b.view.appendPlaced (b.unplaced H xs.length s) xs := by
  have hreserve := bufReserve_refines H b xs s
  unfold bufAppend
  split_ifs with hempty
  · obtain rfl := List.length_eq_zero_iff.mp hempty
    rw [List.length_nil] at hreserve ⊢
    rcases hres : bufReserve H b 0 s with ⟨granted, b', s'⟩
    rw [hres] at hreserve
    rcases hreserve with ⟨-, hview⟩ | ⟨htrue, hall⟩
    · exact hview
    · obtain rfl : granted = true := htrue
      have hreserved := bufReserve_true hres
      rw [hall, List.append_nil]
      simp [Buf.view, hreserved.bytes_eq, hreserved.maxLen_eq, hreserved.after_ok]
  · split
    · rename_i b' s' hres
      rw [hres] at hreserve
      rcases hreserve with ⟨-, hview⟩ | ⟨htrue, -⟩
      · exact hview
      · cases htrue
    · rename_i b' s' hres
      rw [hres] at hreserve
      rcases hreserve with ⟨hfalse, -⟩ | ⟨-, hall⟩
      · cases hfalse
      · have hreserved := bufReserve_true hres
        rw [hall, Buf.store_view, hreserved.bytes_eq, hreserved.maxLen_eq, hreserved.after_ok]

/-- A take that succeeds gives the bytes and leaves a fresh buffer of the same cap. -/
theorem bufTake_refines (H : Heap w) (b : Buf) (s : w) {bytes : Bytes}
    (h : (bufTake H b s).1 = some bytes) :
    bytes = b.bytes ∧ (bufTake H b s).2.1 = bufInit b.maxLen := by
  unfold bufTake at h ⊢
  split_ifs at h ⊢ with herr hdata
  · rcases hres : bufReserve H b 0 s with ⟨granted, b', s'⟩
    rw [hres] at h
    cases granted with
    | false => cases h
    | true =>
        have hreserved := bufReserve_true hres
        cases h
        exact ⟨hreserved.bytes_eq, congrArg bufInit hreserved.maxLen_eq⟩
  · cases h
    exact ⟨rfl, rfl⟩

/-- Every operation is one of the abstract buffer. -/
theorem exec_refines (H : Heap w) (op : BufOp) (b : Buf) (s : w) {out : Option Bytes} {b' : Buf}
    {s' : w} (h : op.exec H b s = some (out, b', s')) :
    b.view.exec (op.unplaced H b s) op = (out, b'.view) := by
  have hparts : ∀ r : Buf × w, some (none, r) = some (out, b', s') → out = none ∧ b' = r.1 := by
    rintro r ⟨⟩
    exact ⟨rfl, rfl⟩
  cases op with
  | append bytes =>
      obtain ⟨rfl, rfl⟩ := hparts (bufAppend H b bytes s) h
      exact Prod.ext rfl (bufAppend_refines H b bytes s).symm
  | appendCstr str =>
      obtain ⟨rfl, rfl⟩ := hparts (bufAppendCstr H b str s) h
      exact Prod.ext rfl (bufAppend_refines H b (cstr str) s).symm
  | appendCh ch =>
      obtain ⟨rfl, rfl⟩ := hparts (bufAppendCh H b ch s) h
      exact Prod.ext rfl (bufAppend_refines H b [ch] s).symm
  | reset =>
      obtain ⟨rfl, rfl⟩ := hparts (bufReset b, s) h
      exact Prod.ext rfl (bufReset_view b).symm
  | take =>
      obtain ⟨bytes, hbytes, hall⟩ := Option.map_eq_some_iff.mp h
      obtain ⟨rfl, hout⟩ := Prod.ext_iff.mp hall
      obtain ⟨rfl, hfresh⟩ := bufTake_refines H b s hbytes
      have hleft : b'.view = ⟨[], b.maxLen, .ok⟩ := by
        rw [← bufInit_view, ← hfresh, hout]
      exact Prod.ext rfl hleft.symm

/-! ## Runs -/

/-- A run is a run of the abstract buffer. -/
theorem bufRun_view (H : Heap w) (ops : List BufOp) (b : Buf) (s : w) {taken : List Bytes}
    {b' : Buf} {s' : w} (h : bufRun H ops b s = some (taken, b', s')) :
    CappedBytes.run (ops.zip (unplacedIn H ops b s)) b.view = (taken, b'.view) := by
  induction ops generalizing b s taken with
  | nil =>
      cases h
      rfl
  | cons op ops ih =>
      obtain ⟨⟨out, b1, s1⟩, hone, hrest⟩ := Option.bind_eq_some_iff.mp h
      obtain ⟨⟨taken1, b2, s2⟩, hrun, hout⟩ := Option.map_eq_some_iff.mp hrest
      cases hout
      have hview := exec_refines H op b s hone
      have hlater := ih b1 s1 hrun
      rw [unplacedIn, hone, List.zip_cons_cons, CappedBytes.run, hview]
      dsimp only [Option.elim]
      rw [hlater]

/-- The buffer refines a capped list: a run from {lit}`sicha_buf_init` shows what a run of the
list shows, and in the state it reaches a block holds its bytes and the NUL, and any reservation
that does not overflow ends its loop with room for the request. -/
theorem bufRun_refines (H : Heap w) (maxLen : Nat) (ops : List BufOp) (s : w)
    {taken : List Bytes} {b : Buf} {s' : w}
    (h : bufRun H ops (bufInit maxLen) s = some (taken, b, s')) :
    CappedBytes.run (ops.zip (unplacedIn H ops (bufInit maxLen) s)) ⟨[], maxLen, .ok⟩ =
        (taken, b.view) ∧
      (∀ d, b.data = some d → b.len ≤ b.cap ∧ b.cap + 1 ≤ sizeMax ∧ d[b.len]? = some 0) ∧
      ∀ need, b.len + need ≤ sizeMax →
        GrowLoop (b.len + need) b.startCap (growCap (b.len + need) SizeT.bits b.startCap) ∧
        b.len + need ≤ growCap (b.len + need) SizeT.bits b.startCap := by
  refine ⟨?_, fun d hd => ?_, fun need hneed => ?_⟩
  · have hrun := bufRun_view H ops (bufInit maxLen) s h
    rw [bufInit_view] at hrun
    exact hrun
  · obtain ⟨hnul, hlen, hcap⟩ := b.inv_block d hd
    exact ⟨hlen, hcap, hnul⟩
  · exact ⟨growLoop_growCap (b.startCap_rounds hneed), growCap_ge (b.startCap_rounds hneed)⟩

/-- A list of {lit}`SIZE_MAX` bytes is not appended, although its length does not overflow and
the allocator refuses nothing. -/
theorem bufRun_full {xs : Bytes} (hxs : xs.length = sizeMax) (s : w) :
    ∃ b s', bufRun Heap.plentiful [.append xs] (bufInit 0) s = some ([], b, s') ∧
      b.err = .nomem ∧ CappedBytes.run [(.append xs, false)] ⟨[], 0, .ok⟩ = ([], ⟨xs, 0, .ok⟩) := by
  have hview := bufAppend_refines Heap.plentiful (bufInit 0) xs s
  have hlen : (bufInit 0).len = 0 := rfl
  have hfull : (bufInit 0).unplaced (@Heap.plentiful w) xs.length s = true := by
    simp [Buf.unplaced, hlen, hxs]
  have hfailed : (bufInit 0).view.appendPlaced true xs = ⟨[], 0, .nomem⟩ := by
    rw [bufInit_view, CappedBytes.appendPlaced]
    simp [hxs, CappedBytes.fail]
  have hplaced : CappedBytes.appendPlaced ⟨[], 0, .ok⟩ false xs = ⟨xs, 0, .ok⟩ := by
    rw [CappedBytes.appendPlaced]
    simp [hxs]
  rw [hfull, hfailed] at hview
  refine ⟨(bufAppend Heap.plentiful (bufInit 0) xs s).1, _, rfl, congrArg CappedBytes.err hview, ?_⟩
  simp only [CappedBytes.run, CappedBytes.exec, hplaced]
  rfl

end Refine

/-- A platform with addresses of 16 bits. -/
@[reducible]
def ip16 : SizeT where
  bits := 16
  bits_ge := le_rfl

/-- The buffer is not the list whose appends fail only for an overflow, for the cap or for the
allocator: 65535 bytes of 16-bit addresses leave no room for the NUL. -/
theorem bufRun_nul :
    let xs := List.replicate 65535 (0 : UInt8)
    xs.length ≤ @sizeMax ip16 ∧
      ∃ b s', @bufRun ip16 Unit Heap.plentiful [.append xs] (@bufInit ip16 0) () =
          some ([], b, s') ∧
        (@CappedBytes.run ip16 [(.append xs, false)] ⟨[], 0, .ok⟩).2 ≠ @Buf.view ip16 b := by
  intro xs
  have hxs : xs.length = @sizeMax ip16 := List.length_replicate
  obtain ⟨b, s', hrun, herr, hlist⟩ := @bufRun_full ip16 Unit xs hxs ()
  refine ⟨hxs.le, b, s', hrun, fun heq => ?_⟩
  rw [hlist] at heq
  have hok : Status.ok = @Buf.err ip16 b := congrArg CappedBytes.err heq
  rw [herr] at hok
  cases hok

/-- A run with an append, a take and another append. -/
theorem bufRun_refines_plain :
    ∃ b s', @bufRun lp64 Unit Heap.plentiful [.append (ascii "ab"), .take, .appendCh 99]
        (@bufInit lp64 4) () = some ([ascii "ab"], b, s') ∧
      @CappedBytes.run lp64 [(.append (ascii "ab"), false), (.take, false), (.appendCh 99, false)]
        ⟨[], 4, .ok⟩ = ([ascii "ab"], @Buf.view lp64 b) := by
  have hrun : (@bufRun lp64 Unit Heap.plentiful [.append (ascii "ab"), .take, .appendCh 99]
      (@bufInit lp64 4) ()).isSome := by decide +kernel
  have htaken : (@bufRun lp64 Unit Heap.plentiful [.append (ascii "ab"), .take, .appendCh 99]
      (@bufInit lp64 4) ()).map Prod.fst = some [ascii "ab"] := by decide +kernel
  have hflags : @unplacedIn lp64 Unit Heap.plentiful [.append (ascii "ab"), .take, .appendCh 99]
      (@bufInit lp64 4) () = [false, false, false] := by decide +kernel
  obtain ⟨⟨taken, b, s'⟩, hsome⟩ := Option.isSome_iff_exists.mp hrun
  obtain rfl : taken = [ascii "ab"] := by simpa [hsome] using htaken
  have hrefines := (@bufRun_refines lp64 Unit Heap.plentiful 4 _ () _ _ _ hsome).1
  rw [hflags] at hrefines
  exact ⟨b, s', hsome, hrefines⟩

end Sicha
