import Sicha.Base

/-!
# The growable byte buffer

A translation of {lit}`buf.c`.  Memory is modelled as far as the buffer reads
it back: {lit}`data` holds the initialised bytes of the block, from its start.
The structure carries the header's invariant: a block is NUL-terminated at
{lit}`len`, holds {lit}`len` bytes, and its capacity leaves room for the NUL.

Main results:

- Theorem {lit}`bufReserve_true` and {lit}`bufReserve_false`: what a reservation
  keeps, on every allocation outcome.
- Theorem {lit}`bufAppend_view`: with an allocator that does not fail, an append
  is the append of {lit}`CappedBytes`, a capped list with a sticky error.
- Theorem {lit}`bufAppend_capped`: no append leads past the cap.
-/

namespace Sicha

/-- The allocator as the code sees it: asked for a number of bytes in a state of
the world, it answers whether the request succeeds. -/
structure Heap (w : Type) where
  alloc : Nat → w → Bool × w

/-- Allocation never fails. -/
def Heap.Reliable {w : Type} (H : Heap w) : Prop :=
  ∀ n s, (H.alloc n s).1 = true

/-- The allocator with memory to spare. -/
def Heap.plentiful {w : Type} : Heap w where
  alloc _ s := (true, s)

/-- The plentiful allocator grants every request. -/
theorem Heap.plentiful_reliable {w : Type} : (@Heap.plentiful w).Reliable := by
  intro n s
  rfl

/-- An allocator of a part of the world, seen from the whole of it. -/
def Heap.lift {v w : Type} (H : Heap v) (get : w → v) (set : v → w → w) : Heap w where
  alloc n s := ((H.alloc n (get s)).1, set (H.alloc n (get s)).2 s)

/-- A reliable allocator stays so on a part of a larger environment. -/
theorem Heap.Reliable.lift {v w : Type} {H : Heap v} (h : H.Reliable)
    (get : w → v) (set : v → w → w) : (H.lift get set).Reliable := by
  intro n s
  exact h n (get s)

/-- Overwrite a block from index {lit}`i` on. -/
def writeAt (d : Bytes) (i : Nat) (xs : Bytes) : Bytes :=
  d.take i ++ xs ++ d.drop (i + xs.length)

/-- Up to the end of what was written, the block is what was there and then that. -/
theorem writeAt_take {d : Bytes} {i : Nat} (xs : Bytes) (h : i ≤ d.length) :
    (writeAt d i xs).take (i + xs.length) = d.take i ++ xs := by
  have hlen : (d.take i ++ xs).length = i + xs.length := by
    simp [List.length_take, h]
  unfold writeAt
  rw [List.take_append_of_le_length hlen.ge, List.take_of_length_le hlen.le]

/-- A byte that was written can be read back. -/
theorem writeAt_get {d : Bytes} {i : Nat} (x : UInt8) (h : i ≤ d.length) :
    (writeAt d i [x])[i]? = some x := by
  simp [writeAt, h]

/-- A write leaves a block that reaches past what was written. -/
theorem writeAt_length_ge {d : Bytes} {i : Nat} (xs : Bytes) (h : i ≤ d.length) :
    i + xs.length ≤ (writeAt d i xs).length := by
  simp [writeAt]
  omega

section Buf

variable [SizeT] {w : Type}

/-- {lit}`sicha_buf`. -/
structure Buf where
  data : Option Bytes
  len : Nat
  cap : Nat
  maxLen : Nat
  err : Status
  inv_null : data = none → len = 0 ∧ cap = 0
  inv_block : ∀ d, data = some d → d[len]? = some 0 ∧ len ≤ cap ∧ cap < sizeMax
  inv_err : err ∈ [Status.ok, .nomem, .tooBig]

/-- {lit}`sicha_buf_init`. -/
def bufInit (maxLen : Nat) : Buf where
  data := none
  len := 0
  cap := 0
  maxLen := maxLen
  err := .ok
  inv_null := by simp
  inv_block := by simp
  inv_err := by decide

/-- {lit}`sicha_buf_status`. -/
def bufStatus (b : Buf) : Status :=
  b.err

/-- The bytes a reader sees: the first {lit}`len` of the block. -/
def Buf.bytes (b : Buf) : Bytes :=
  (b.data.getD []).take b.len

/-- The content never reaches past its block. -/
theorem Buf.len_le_block (b : Buf) : b.len ≤ (b.data.getD []).length := by
  cases hdata : b.data with
  | none => simp [(b.inv_null hdata).1]
  | some d =>
      have hnul := (b.inv_block d hdata).1
      have hlt := (List.getElem?_eq_some_iff.mp hnul).1
      simp only [Option.getD_some]
      omega

/-- The content has as many bytes as {lit}`len` says. -/
@[simp]
theorem Buf.bytes_length (b : Buf) : b.bytes.length = b.len := by
  simp [Buf.bytes, b.len_le_block]

/-- There is always room in {lit}`size_t` for the terminating NUL. -/
theorem Buf.len_lt_sizeMax (b : Buf) : b.len < sizeMax := by
  have hmax := sizeMax_ge
  cases hdata : b.data with
  | none =>
      have hlen := (b.inv_null hdata).1
      omega
  | some d =>
      have hblock := b.inv_block d hdata
      omega

/-- The doubling loop of {lit}`buf_reserve`.  The first argument bounds the
rounds; {lit}`growCap_ge` shows that the loop ends by itself before. -/
def growCap (want : Nat) : Nat → Nat → Nat
  | 0, cap => cap
  | rounds + 1, cap =>
      if cap < want then
        if cap > sizeMax / 2 then want else growCap want rounds (cap * 2)
      else cap

/-- Enough rounds of doubling reach what is wanted. -/
theorem growCap_ge {want rounds cap : Nat} (h : want ≤ cap * 2 ^ rounds) :
    want ≤ growCap want rounds cap := by
  induction rounds generalizing cap with
  | zero => simpa [growCap] using h
  | succ rounds ih =>
      unfold growCap
      split_ifs with hlt hhalf
      · exact le_rfl
      · apply ih
        rw [Nat.mul_assoc, ← Nat.pow_succ']
        exact h
      · omega

/-- The doubling never leaves the range of {lit}`size_t`. -/
theorem growCap_le {want rounds cap : Nat} (hwant : want ≤ sizeMax) (hcap : cap ≤ sizeMax) :
    growCap want rounds cap ≤ sizeMax := by
  induction rounds generalizing cap with
  | zero => simpa [growCap] using hcap
  | succ rounds ih =>
      unfold growCap
      split_ifs with hlt hhalf
      · exact hwant
      · apply ih
        omega
      · exact hcap

/-- The capacity only reaches {lit}`SIZE_MAX` when that many bytes were asked for. -/
theorem growCap_eq_sizeMax_iff {want rounds cap : Nat} (hwant : want ≤ sizeMax)
    (hcap : cap < sizeMax) (hrounds : want ≤ cap * 2 ^ rounds) :
    growCap want rounds cap = sizeMax ↔ want = sizeMax := by
  constructor
  · intro hgrow
    induction rounds generalizing cap with
    | zero =>
        simp only [growCap] at hgrow
        omega
    | succ rounds ih =>
        unfold growCap at hgrow
        split_ifs at hgrow with hlt hhalf
        · exact hgrow
        · have hodd := sizeMax_odd
          apply @ih (cap * 2) (by omega) _ hgrow
          rw [Nat.mul_assoc, ← Nat.pow_succ']
          exact hrounds
        · omega
  · intro heq
    have hge := growCap_ge hrounds
    have hle := @growCap_le _ _ rounds _ hwant hcap.le
    omega

/-- The capacity the loop starts from. -/
def Buf.startCap (b : Buf) : Nat :=
  if b.cap = 0 then 64 else b.cap

/-- The capacity that the doubling starts from is in range. -/
theorem Buf.startCap_lt (b : Buf) : b.startCap < sizeMax := by
  have hmax := sizeMax_ge
  unfold Buf.startCap
  split_ifs with hcap
  · omega
  · cases hdata : b.data with
    | none => exact absurd (b.inv_null hdata).2 hcap
    | some d => exact (b.inv_block d hdata).2.2

/-- {lit}`SizeT.bits` rounds of doubling cover every length. -/
theorem Buf.startCap_rounds (b : Buf) {want : Nat} (hwant : want ≤ sizeMax) :
    want ≤ b.startCap * 2 ^ SizeT.bits := by
  have hpos : 1 ≤ b.startCap := by
    unfold Buf.startCap
    split_ifs with hcap <;> omega
  have hsucc := sizeMax_add_one
  calc
    want ≤ 1 * 2 ^ SizeT.bits := by omega
    _ ≤ b.startCap * 2 ^ SizeT.bits := Nat.mul_le_mul_right _ hpos

/-- The buffer after {lit}`realloc` gave it a block of {lit}`cap + 1` bytes. -/
def Buf.withBlock (b : Buf) (cap : Nat) (hlen : b.len ≤ cap) (hcap : cap < sizeMax) : Buf where
  data := some (writeAt (b.data.getD []) b.len [0])
  len := b.len
  cap := cap
  maxLen := b.maxLen
  err := b.err
  inv_null := by simp
  inv_block := by
    intro d hd
    cases hd
    exact ⟨writeAt_get 0 b.len_le_block, hlen, hcap⟩
  inv_err := b.inv_err

/-- The buffer with its sticky error set. -/
def Buf.fail (b : Buf) (err : Status) (h : err ∈ [Status.ok, .nomem, .tooBig] := by decide) :
    Buf :=
  { b with err := err, inv_err := h }

/-- The tail of {lit}`buf_reserve`: grow the block to hold {lit}`want` bytes. -/
def bufGrow (H : Heap w) (b : Buf) (want : Nat) (hlen : b.len ≤ want)
    (hwant : want ≤ sizeMax) (s : w) : Bool × Buf × w :=
  if hcap : growCap want SizeT.bits b.startCap = sizeMax then
    (false, b.fail .nomem, s) -- no room for the NUL slot
  else
    match H.alloc (growCap want SizeT.bits b.startCap + 1) s with
    | (false, s) => (false, b.fail .nomem, s)
    | (true, s) =>
        (true, b.withBlock (growCap want SizeT.bits b.startCap)
          (hlen.trans (growCap_ge (b.startCap_rounds hwant)))
          (lt_of_le_of_ne (growCap_le hwant b.startCap_lt.le) hcap), s)

/-- {lit}`buf_reserve`: room for {lit}`need` more bytes plus the NUL slot. -/
def bufReserve (H : Heap w) (b : Buf) (need : Nat) (s : w) : Bool × Buf × w :=
  if b.err ≠ .ok then (false, b, s)
  else if hneed : need > sizeMax - b.len then
    (false, b.fail .nomem, s) -- length arithmetic overflow
  else if b.maxLen ≠ 0 ∧ b.len + need > b.maxLen then (false, b.fail .tooBig, s)
  else if b.data.isSome ∧ b.len + need ≤ b.cap then (true, b, s)
  else
    bufGrow H b (b.len + need) (Nat.le_add_right _ _)
      (by have := b.len_lt_sizeMax; omega) s

/-- What a successful reservation leaves behind. -/
structure Reserved (b b' : Buf) (need : Nat) : Prop where
  before_ok : b.err = .ok
  after_ok : b'.err = .ok
  block : b'.data.isSome
  len_eq : b'.len = b.len
  room : b.len + need ≤ b'.cap
  bytes_eq : b'.bytes = b.bytes
  maxLen_eq : b'.maxLen = b.maxLen
  within : b.maxLen = 0 ∨ b.len + need ≤ b.maxLen

/-- A larger block holds the same content. -/
theorem Buf.withBlock_bytes (b : Buf) {cap : Nat} (hlen : b.len ≤ cap) (hcap : cap < sizeMax) :
    (b.withBlock cap hlen hcap).bytes = b.bytes := by
  have hblock := b.len_le_block
  simp [Buf.withBlock, Buf.bytes, writeAt, hblock]

/-- A granted growth makes room, and changes neither content, cap nor error. -/
theorem bufGrow_true {H : Heap w} {b b' : Buf} {want : Nat} {hlen : b.len ≤ want}
    {hwant : want ≤ sizeMax} {s s' : w}
    (h : bufGrow H b want hlen hwant s = (true, b', s')) :
    b'.err = b.err ∧ b'.data.isSome ∧ b'.len = b.len ∧ want ≤ b'.cap ∧
      b'.bytes = b.bytes ∧ b'.maxLen = b.maxLen := by
  unfold bufGrow at h
  split_ifs at h
  · simp at h
  · split at h
    · simp at h
    · cases h
      exact ⟨rfl, rfl, rfl, growCap_ge (b.startCap_rounds hwant), b.withBlock_bytes _ _, rfl⟩

/-- A granted reservation is what its caller may rely on. -/
theorem bufReserve_true {H : Heap w} {b b' : Buf} {need : Nat} {s s' : w}
    (h : bufReserve H b need s = (true, b', s')) : Reserved b b' need := by
  unfold bufReserve at h
  split_ifs at h with herr hneed hmax hroom
  · simp at h
  · simp at h
  · simp at h
  · cases h
    have hok := not_not.mp herr
    exact ⟨hok, hok, hroom.1, rfl, hroom.2, rfl, rfl, by omega⟩
  · rcases bufGrow_true h with ⟨herr', hblock, hlen, hcap, hbytes, hmax'⟩
    have hok := not_not.mp herr
    exact ⟨hok, herr'.trans hok, hblock, hlen, hcap, hbytes, hmax', by omega⟩

/-! ## The buffer as a capped list -/

/-- The abstract buffer: its bytes, its cap (0 = none) and its sticky error. -/
structure CappedBytes where
  bytes : Bytes
  maxLen : Nat
  err : Status
deriving DecidableEq

/-- The capped list with its sticky error set. -/
def CappedBytes.fail (c : CappedBytes) (err : Status) : CappedBytes :=
  { c with err := err }

/-- Append to a capped list.  The last error is the missing room for the NUL. -/
def CappedBytes.append (c : CappedBytes) (xs : Bytes) : CappedBytes :=
  if c.err ≠ .ok then c
  else if c.bytes.length + xs.length > sizeMax then c.fail .nomem
  else if c.maxLen ≠ 0 ∧ c.bytes.length + xs.length > c.maxLen then c.fail .tooBig
  else if c.bytes.length + xs.length = sizeMax then c.fail .nomem
  else { c with bytes := c.bytes ++ xs }

/-- What a reader of the buffer can observe of it. -/
def Buf.view (b : Buf) : CappedBytes where
  bytes := b.bytes
  maxLen := b.maxLen
  err := b.err

/-- The content is what the view shows of it. -/
@[simp] theorem Buf.view_bytes (b : Buf) : b.view.bytes = b.bytes := rfl

/-- The cap is what the view shows of it. -/
@[simp] theorem Buf.view_maxLen (b : Buf) : b.view.maxLen = b.maxLen := rfl

/-- The error is what the view shows of it. -/
@[simp] theorem Buf.view_err (b : Buf) : b.view.err = b.err := rfl

/-- To fail a buffer is to fail its view. -/
@[simp] theorem Buf.fail_view (b : Buf) {err : Status} (h : err ∈ [Status.ok, .nomem, .tooBig]) :
    (b.fail err h).view = b.view.fail err :=
  rfl

/-- A refused growth fails the buffer for memory, and only an absurd size or an unreliable
allocator refuses. -/
theorem bufGrow_false {H : Heap w} {b b' : Buf} {want : Nat} {hlen : b.len ≤ want}
    {hwant : want ≤ sizeMax} {s s' : w}
    (h : bufGrow H b want hlen hwant s = (false, b', s')) :
    b'.view = b.view.fail .nomem ∧ (want = sizeMax ∨ ¬ H.Reliable) := by
  unfold bufGrow at h
  split_ifs at h with hcap
  · cases h
    exact ⟨rfl, .inl ((growCap_eq_sizeMax_iff hwant b.startCap_lt
      (b.startCap_rounds hwant)).mp hcap)⟩
  · split at h
    · rename_i halloc
      cases h
      refine ⟨rfl, .inr fun hreliable => ?_⟩
      have hans := hreliable (growCap want SizeT.bits b.startCap + 1) s
      rw [halloc] at hans
      exact Bool.false_ne_true hans
    · simp at h

/-- A failed reservation sets the error that {lit}`CappedBytes.append` sets, unless
the allocator refused. -/
theorem bufReserve_false {H : Heap w} {b b' : Buf} {xs : Bytes} {s s' : w}
    (h : bufReserve H b xs.length s = (false, b', s')) :
    b'.view = b.view.append xs ∨
      (b.err = .ok ∧ ¬ H.Reliable ∧ b'.view = b.view.fail .nomem) := by
  have hlen := b.len_lt_sizeMax
  unfold bufReserve at h
  split_ifs at h with herr hneed hmax hroom
  · cases h
    left
    simp [CappedBytes.append, herr]
  · cases h
    left
    have hover : sizeMax < b.len + xs.length := by omega
    simp [CappedBytes.append, not_not.mp herr, hover]
  · cases h
    left
    have hover : ¬ sizeMax < b.len + xs.length := by omega
    simp [CappedBytes.append, not_not.mp herr, hover, hmax]
  · simp at h
  · have hok := not_not.mp herr
    rcases bufGrow_false h with ⟨hview, hfull | hheap⟩
    · left
      have hover : ¬ sizeMax < b.len + xs.length := by omega
      simp only [CappedBytes.append, Buf.view_err, Buf.view_bytes, Buf.bytes_length,
        Buf.view_maxLen, hok, ne_eq, not_true_eq_false, if_false, gt_iff_lt, hover]
      rw [if_neg (by simpa using hmax), if_pos hfull, hview]
    · exact .inr ⟨hok, hheap, hview⟩

/-- Behind a reservation the capacity is in range. -/
theorem Reserved.cap_lt {b b' : Buf} {need : Nat} (h : Reserved b b' need) :
    b'.cap < sizeMax := by
  obtain ⟨d, hd⟩ := Option.isSome_iff_exists.mp h.block
  exact (b'.inv_block d hd).2.2

/-- A reservation can only succeed where the abstract append does. -/
theorem Reserved.append {b b' : Buf} {xs : Bytes} (h : Reserved b b' xs.length) :
    b.view.append xs = ⟨b.bytes ++ xs, b.maxLen, .ok⟩ := by
  have hcap := h.cap_lt
  have hroom := h.room
  have hwithin := h.within
  have hover : ¬ sizeMax < b.len + xs.length := by omega
  have hfull : ¬ b.len + xs.length = sizeMax := by omega
  have hmax : ¬ (b.maxLen ≠ 0 ∧ b.len + xs.length > b.maxLen) := by omega
  simp only [CappedBytes.append, Buf.view_err, Buf.view_bytes, Buf.bytes_length,
    Buf.view_maxLen, h.before_ok, ne_eq, not_true_eq_false, if_false, gt_iff_lt, hover, hfull]
  rw [if_neg (by simpa using hmax)]

/-! ## Append, reset, take -/

/-- {lit}`memcpy` of the new bytes behind the old ones, and the NUL behind them. -/
def Buf.store (b : Buf) (xs : Bytes) (hroom : b.len + xs.length ≤ b.cap)
    (hcap : b.cap < sizeMax) : Buf where
  data := some (writeAt (writeAt (b.data.getD []) b.len xs) (b.len + xs.length) [0])
  len := b.len + xs.length
  cap := b.cap
  maxLen := b.maxLen
  err := b.err
  inv_null := by simp
  inv_block := by
    intro d hd
    cases hd
    exact ⟨writeAt_get 0 (writeAt_length_ge xs b.len_le_block), hroom, hcap⟩
  inv_err := b.inv_err

/-- What is stored stands behind the content. -/
theorem Buf.store_bytes (b : Buf) (xs : Bytes) (hroom : b.len + xs.length ≤ b.cap)
    (hcap : b.cap < sizeMax) : (b.store xs hroom hcap).bytes = b.bytes ++ xs := by
  have hblock := b.len_le_block
  have hlen := writeAt_length_ge xs hblock
  calc
    (b.store xs hroom hcap).bytes
        = (writeAt (b.data.getD []) b.len xs).take (b.len + xs.length) := by
          simp only [Buf.bytes, Buf.store, Option.getD_some]
          rw [writeAt, List.append_assoc,
            List.take_append_of_le_length (by simp [hlen]), List.take_take, min_self]
    _ = b.bytes ++ xs := writeAt_take xs hblock

/-- Storing extends the content of the view and nothing else. -/
theorem Buf.store_view (b : Buf) (xs : Bytes) (hroom : b.len + xs.length ≤ b.cap)
    (hcap : b.cap < sizeMax) :
    (b.store xs hroom hcap).view = ⟨b.bytes ++ xs, b.maxLen, b.err⟩ := by
  simp only [Buf.view, b.store_bytes xs hroom hcap]
  rfl

/-- {lit}`sicha_buf_append`. -/
def bufAppend (H : Heap w) (b : Buf) (bytes : Bytes) (s : w) : Buf × w :=
  if bytes.length = 0 then
    -- still materialize the NUL invariant for empty buffers
    (bufReserve H b 0 s).2
  else
    match h : bufReserve H b bytes.length s with
    | (false, b, s) => (b, s)
    | (true, b', s) =>
        (b'.store bytes (by have h := bufReserve_true h; rw [h.len_eq]; exact h.room)
          (bufReserve_true h).cap_lt, s)

/-- {lit}`sicha_buf_append_cstr`. -/
def bufAppendCstr (H : Heap w) (b : Buf) (str : Bytes) (s : w) : Buf × w :=
  bufAppend H b (cstr str) s

/-- {lit}`sicha_buf_append_ch`. -/
def bufAppendCh (H : Heap w) (b : Buf) (ch : UInt8) (s : w) : Buf × w :=
  bufAppend H b [ch] s

/-- {lit}`sicha_buf_reset`: the allocation and the sticky error are kept. -/
def bufReset (b : Buf) : Buf where
  data := b.data.map fun d => writeAt d 0 [0]
  len := 0
  cap := b.cap
  maxLen := b.maxLen
  err := b.err
  inv_null := by
    intro hdata
    exact ⟨rfl, (b.inv_null (by simpa using hdata)).2⟩
  inv_block := by
    intro d hd
    obtain ⟨d', hd', rfl⟩ := Option.map_eq_some_iff.mp hd
    exact ⟨writeAt_get 0 (Nat.zero_le _), Nat.zero_le _, (b.inv_block d' hd').2.2⟩
  inv_err := b.inv_err

/-- {lit}`sicha_buf_take`.  The first failing branch re-initialises the buffer, the
second leaves it as the reservation left it. -/
def bufTake (H : Heap w) (b : Buf) (s : w) : Option Bytes × Buf × w :=
  if b.err ≠ .ok then (none, bufInit b.maxLen, s)
  else if b.data.isNone then
    match bufReserve H b 0 s with
    | (false, b, s) => (none, b, s)
    | (true, b, s) => (some b.bytes, bufInit b.maxLen, s)
  else (some b.bytes, bufInit b.maxLen, s)

/-- A new buffer is empty and has no error. -/
@[simp]
theorem bufInit_view (maxLen : Nat) :
    (bufInit maxLen).view = { bytes := [], maxLen := maxLen, err := .ok } := by
  simp [Buf.view, Buf.bytes, bufInit]

/-- A reset empties the buffer, and keeps its cap and its error. -/
@[simp]
theorem bufReset_view (b : Buf) : (bufReset b).view = ⟨[], b.maxLen, b.err⟩ := by
  simp [Buf.view, Buf.bytes, bufReset]

/-- Every append either is the abstract append or is refused by the allocator. -/
theorem bufAppend_view_or (H : Heap w) (b : Buf) (xs : Bytes) (s : w) :
    (bufAppend H b xs s).1.view = b.view.append xs ∨
      (b.err = .ok ∧ ¬ H.Reliable ∧
        (bufAppend H b xs s).1.view = b.view.fail .nomem) := by
  unfold bufAppend
  split_ifs with hempty
  · obtain rfl := List.length_eq_zero_iff.mp hempty
    rcases hres : bufReserve H b 0 s with ⟨granted, b', s'⟩
    cases granted with
    | false => exact @bufReserve_false _ _ _ _ _ [] _ _ hres
    | true =>
        have hreserved := bufReserve_true hres
        left
        rw [@Reserved.append _ _ _ [] hreserved]
        simp [Buf.view, hreserved.bytes_eq, hreserved.maxLen_eq, hreserved.after_ok]
  · split
    · rename_i hres
      exact bufReserve_false hres
    · rename_i b' s' hres
      have hreserved := bufReserve_true hres
      left
      rw [hreserved.append, Buf.store_view, hreserved.bytes_eq, hreserved.maxLen_eq,
        hreserved.after_ok]

/-- An append either succeeds whole or leaves the bytes and an error. -/
theorem bufAppend_bytes (H : Heap w) (b : Buf) (xs : Bytes) (s : w) :
    ((bufAppend H b xs s).1.err = .ok ∧ (bufAppend H b xs s).1.bytes = b.bytes ++ xs) ∨
      ((bufAppend H b xs s).1.err ≠ .ok ∧ (bufAppend H b xs s).1.bytes = b.bytes) := by
  rw [← Buf.view_err, ← Buf.view_bytes]
  rcases bufAppend_view_or H b xs s with h | ⟨-, -, h⟩
  · rw [h]
    unfold CappedBytes.append
    split_ifs with herr
    · exact .inr ⟨herr, rfl⟩
    · exact .inr ⟨by simp [CappedBytes.fail], rfl⟩
    · exact .inr ⟨by simp [CappedBytes.fail], rfl⟩
    · exact .inr ⟨by simp [CappedBytes.fail], rfl⟩
    · exact .inl ⟨not_not.mp herr, rfl⟩
  · rw [h]
    exact .inr ⟨by simp [CappedBytes.fail], rfl⟩

/-- An append does not move the cap. -/
theorem bufAppend_maxLen (H : Heap w) (b : Buf) (xs : Bytes) (s : w) :
    (bufAppend H b xs s).1.maxLen = b.maxLen := by
  rw [← Buf.view_maxLen]
  rcases bufAppend_view_or H b xs s with h | ⟨-, -, h⟩
  · rw [h]
    unfold CappedBytes.append
    split_ifs <;> rfl
  · rw [h]
    rfl

/-- Without allocation failures everything is taken, unless the buffer had failed before. -/
theorem bufTake_reliable {H : Heap w} (hH : H.Reliable) (b : Buf) (s : w) :
    (bufTake H b s).1 = (if b.err = .ok then some b.bytes else none) ∧
      (bufTake H b s).2.1 = bufInit b.maxLen := by
  unfold bufTake
  by_cases herr : b.err = .ok
  · rw [if_neg (not_not.mpr herr), if_pos herr]
    split_ifs with hdata
    · rcases hres : bufReserve H b 0 s with ⟨granted, b', s'⟩
      cases granted with
      | false =>
          have hnone := Option.isNone_iff_eq_none.mp hdata
          have hlen := (b.inv_null hnone).1
          have hmax := sizeMax_ge
          unfold bufReserve at hres
          rw [if_neg (not_not.mpr herr), dif_neg (by omega), if_neg (by omega),
            if_neg (by simp [hnone])] at hres
          rcases (bufGrow_false hres).2 with hfull | hfail
          · omega
          · exact absurd hH hfail
      | true =>
          have hreserved := bufReserve_true hres
          exact ⟨congrArg some hreserved.bytes_eq, congrArg bufInit hreserved.maxLen_eq⟩
    · exact ⟨rfl, rfl⟩
  · rw [if_pos herr, if_neg herr]
    exact ⟨rfl, rfl⟩

/-- A buffer without an error refuses an append for its size only beyond its cap. -/
theorem bufAppend_tooBig {H : Heap w} {b : Buf} {xs : Bytes} {s : w} (herr : b.err = .ok)
    (h : (bufAppend H b xs s).1.err = .tooBig) : b.maxLen < b.bytes.length + xs.length := by
  rw [← Buf.view_err] at h
  rcases bufAppend_view_or H b xs s with hview | ⟨-, -, hview⟩
  · rw [hview] at h
    unfold CappedBytes.append at h
    split_ifs at h with hbad hover hcap hfull
    · exact absurd herr hbad
    · cases h
    · exact hcap.2
    · cases h
    · rw [show b.view.err = b.err from rfl, herr] at h
      cases h
  · rw [hview] at h
    cases h

/-- Without allocation failures the buffer is the capped list. -/
theorem bufAppend_view {H : Heap w} (hH : H.Reliable) (b : Buf) (xs : Bytes) (s : w) :
    (bufAppend H b xs s).1.view = b.view.append xs := by
  rcases bufAppend_view_or H b xs s with h | ⟨-, hfail, -⟩
  · exact h
  · exact absurd hH hfail

/-! ## The cap -/

/-- A buffer with this cap, and within it. -/
structure Buf.Capped (b : Buf) (cap : Nat) : Prop where
  maxLen : b.maxLen = cap
  len : b.len ≤ cap

/-- Pieces fit into a fresh buffer: they are within its cap, if it has one, and within the
address space. -/
structure Fits (maxLen : Nat) (bytes : Bytes) : Prop where
  cap : maxLen = 0 ∨ bytes.length ≤ maxLen
  room : bytes.length < sizeMax

/-- What is shorter than something that fits, fits. -/
theorem Fits.shorter {maxLen : Nat} {xs ys : Bytes} (h : Fits maxLen ys)
    (hlen : xs.length ≤ ys.length) : Fits maxLen xs :=
  ⟨h.cap.imp_right hlen.trans, hlen.trans_lt h.room⟩

/-- An append leaves no error exactly if there was none and the sum fits. -/
theorem CappedBytes.append_ok_iff (c : CappedBytes) (xs : Bytes) :
    (c.append xs).err = .ok ↔ c.err = .ok ∧ Fits c.maxLen (c.bytes ++ xs) := by
  have hlen : (c.bytes ++ xs).length = c.bytes.length + xs.length := List.length_append
  unfold CappedBytes.append
  split_ifs with herr hover hcap hfull
  · exact iff_of_false herr fun h => herr h.1
  · exact iff_of_false (by simp [CappedBytes.fail]) fun h => by have := h.2.room; omega
  · exact iff_of_false (by simp [CappedBytes.fail]) fun h => by have := h.2.cap; omega
  · exact iff_of_false (by simp [CappedBytes.fail]) fun h => by have := h.2.room; omega
  · exact iff_of_true (not_not.mp herr) ⟨not_not.mp herr, by omega, by omega⟩

/-- The capped list with more bytes. -/
def CappedBytes.plus (c : CappedBytes) (xs : Bytes) : CappedBytes :=
  { c with bytes := c.bytes ++ xs }

omit [SizeT] in
/-- To add nothing changes nothing. -/
@[simp]
theorem CappedBytes.plus_nil (c : CappedBytes) : c.plus [] = c := by
  simp [CappedBytes.plus]

/-- An append that leaves no error has added the bytes. -/
theorem CappedBytes.append_ok {c : CappedBytes} {xs : Bytes} (h : (c.append xs).err = .ok) :
    c.append xs = c.plus xs := by
  unfold CappedBytes.append at h ⊢
  split_ifs at h ⊢ with herr
  · exact absurd h herr
  · cases h
  · cases h
  · cases h
  · rfl

/-- What fits is taken by an empty buffer without an error. -/
theorem Fits.append {maxLen : Nat} {bytes : Bytes} (h : Fits maxLen bytes) :
    ((⟨[], maxLen, .ok⟩ : CappedBytes).append bytes).err = .ok :=
  (CappedBytes.append_ok_iff _ _).mpr ⟨rfl, h⟩

/-- An append of these bytes is refused for its size. -/
def Buf.Refuses (b : Buf) (bytes : Bytes) : Prop :=
  (b.view.append bytes).err = .tooBig

/-- A new buffer keeps to its cap. -/
theorem bufInit_capped (cap : Nat) : (bufInit cap).Capped cap :=
  ⟨rfl, Nat.zero_le cap⟩

/-- A reset buffer keeps to its cap. -/
theorem bufReset_capped {b : Buf} {cap : Nat} (h : b.Capped cap) : (bufReset b).Capped cap :=
  ⟨h.maxLen, Nat.zero_le cap⟩

/-- An append leaves the buffer within its cap, whatever the allocator answers. -/
theorem bufAppend_capped {b : Buf} {cap : Nat} (hcap : 0 < cap) (h : b.Capped cap) (H : Heap w)
    (bytes : Bytes) (s : w) : (bufAppend H b bytes s).1.Capped cap := by
  have hview : (b.view.append bytes).maxLen = cap ∧ (b.view.append bytes).bytes.length ≤ cap := by
    have hlen := h.len
    unfold CappedBytes.append
    split_ifs with herr hover hmax hfull
    · exact ⟨h.maxLen, by simpa using hlen⟩
    · exact ⟨h.maxLen, by simpa [CappedBytes.fail] using hlen⟩
    · exact ⟨h.maxLen, by simpa [CappedBytes.fail] using hlen⟩
    · exact ⟨h.maxLen, by simpa [CappedBytes.fail] using hlen⟩
    · refine ⟨h.maxLen, ?_⟩
      rw [not_and] at hmax
      have hroom := hmax (by rw [Buf.view_maxLen, h.maxLen]; omega)
      rw [Buf.view_maxLen, h.maxLen] at hroom
      simpa using Nat.not_lt.mp hroom
  have hsame : (bufAppend H b bytes s).1.view.maxLen = cap ∧
      (bufAppend H b bytes s).1.view.bytes.length ≤ cap := by
    rcases bufAppend_view_or H b bytes s with happend | ⟨-, -, hfail⟩
    · rw [happend]
      exact hview
    · rw [hfail]
      exact ⟨h.maxLen, by simpa [CappedBytes.fail] using h.len⟩
  refine ⟨hsame.1, ?_⟩
  rw [← Buf.bytes_length]
  exact hsame.2

/-- What is taken out of a buffer is within its cap, and what is left of it is too. -/
theorem bufTake_capped {b : Buf} {cap : Nat} (h : b.Capped cap) (H : Heap w) (s : w) :
    (bufTake H b s).2.1.Capped cap ∧
      ∀ raw, (bufTake H b s).1 = some raw → raw.length ≤ cap := by
  have hfresh : (bufInit b.maxLen).Capped cap := h.maxLen ▸ bufInit_capped b.maxLen
  have hlen : b.bytes.length ≤ cap := b.bytes_length.trans_le h.len
  unfold bufTake
  split_ifs with herr hdata
  · exact ⟨hfresh, nofun⟩
  · rcases hres : bufReserve H b 0 s with ⟨granted, b', s'⟩
    cases granted with
    | false =>
        have hsame : b'.view.maxLen = b.maxLen ∧ b'.view.bytes = b.bytes := by
          rcases @bufReserve_false _ _ _ _ _ [] _ _ hres with hview | ⟨-, -, hview⟩
          · rw [hview, CappedBytes.append]
            split_ifs <;> simp [CappedBytes.fail]
          · rw [hview]
            exact ⟨rfl, rfl⟩
        refine ⟨⟨hsame.1.trans h.maxLen, ?_⟩, nofun⟩
        rw [← b'.bytes_length, ← Buf.view_bytes, hsame.2]
        exact hlen
    | true =>
        have hreserved := bufReserve_true hres
        refine ⟨?_, ?_⟩
        · dsimp only
          rw [hreserved.maxLen_eq]
          exact hfresh
        · rintro raw ⟨⟩
          rw [hreserved.bytes_eq]
          exact hlen
  · refine ⟨hfresh, ?_⟩
    rintro raw ⟨⟩
    exact hlen

/-- An append that leaves no error was not refused. -/
theorem Buf.Refuses.err {b : Buf} {bytes : Bytes} (h : b.Refuses bytes) (H : Heap w) (s : w) :
    (bufAppend H b bytes s).1.err ≠ .ok := by
  rw [← Buf.view_err]
  rcases bufAppend_view_or H b bytes s with happend | ⟨-, -, hfail⟩
  · rw [happend, h]
    decide
  · rw [hfail]
    simp [CappedBytes.fail]

/-! ## The world around a buffer -/

/-- A reservation touches the world through at most one request. -/
theorem bufReserve_world (H : Heap w) (b : Buf) (need : Nat) (s : w) :
    (bufReserve H b need s).2.2 = s ∨ ∃ n, (bufReserve H b need s).2.2 = (H.alloc n s).2 := by
  unfold bufReserve bufGrow
  split_ifs
  · exact .inl rfl
  · exact .inl rfl
  · exact .inl rfl
  · exact .inl rfl
  · exact .inl rfl
  · refine .inr ⟨growCap (b.len + need) SizeT.bits b.startCap + 1, ?_⟩
    split <;> rename_i halloc <;> rw [halloc]

/-- An append asks the allocator once at most. -/
theorem bufAppend_world (H : Heap w) (b : Buf) (xs : Bytes) (s : w) :
    (bufAppend H b xs s).2 = s ∨ ∃ n, (bufAppend H b xs s).2 = (H.alloc n s).2 := by
  unfold bufAppend
  split_ifs
  · exact bufReserve_world H b 0 s
  · have hworld := bufReserve_world H b xs.length s
    split <;> rename_i hres <;> rw [hres] at hworld <;> exact hworld

/-- What every request keeps, an append keeps. -/
theorem bufAppend_keeps {H : Heap w} {P : w → Prop} (halloc : ∀ n s, P s → P (H.alloc n s).2)
    (b : Buf) (xs : Bytes) {s : w} (hs : P s) : P (bufAppend H b xs s).2 := by
  rcases bufAppend_world H b xs s with h | ⟨n, h⟩
  · rw [h]
    exact hs
  · rw [h]
    exact halloc n s hs

/-- A take changes the environment only through the allocator. -/
theorem bufTake_keeps {H : Heap w} {P : w → Prop} (halloc : ∀ n s, P s → P (H.alloc n s).2)
    (b : Buf) {s : w} (hs : P s) : P (bufTake H b s).2.2 := by
  have hreserve : P (bufReserve H b 0 s).2.2 := by
    rcases bufReserve_world H b 0 s with h | ⟨n, h⟩
    · rw [h]
      exact hs
    · rw [h]
      exact halloc n s hs
  unfold bufTake
  split_ifs
  · exact hs
  · split <;> rename_i h <;> rw [h] at hreserve <;> exact hreserve
  · exact hs

/-- Two allocators that answer alike from related worlds. -/
def Heap.Sim {v w : Type} (H : Heap v) (K : Heap w) (Rel : v → w → Prop) : Prop :=
  ∀ n s t, Rel s t → (H.alloc n s).1 = (K.alloc n t).1 ∧ Rel (H.alloc n s).2 (K.alloc n t).2

/-- Under allocators that answer alike, a reservation ends alike. -/
theorem bufReserve_sim {v : Type} {H : Heap v} {K : Heap w} {Rel : v → w → Prop}
    (hsim : H.Sim K Rel) (b : Buf) (need : Nat) {s : v} {t : w} (hst : Rel s t) :
    (bufReserve H b need s).1 = (bufReserve K b need t).1 ∧
      (bufReserve H b need s).2.1 = (bufReserve K b need t).2.1 ∧
      Rel (bufReserve H b need s).2.2 (bufReserve K b need t).2.2 := by
  unfold bufReserve bufGrow
  split_ifs
  · exact ⟨rfl, rfl, hst⟩
  · exact ⟨rfl, rfl, hst⟩
  · exact ⟨rfl, rfl, hst⟩
  · exact ⟨rfl, rfl, hst⟩
  · exact ⟨rfl, rfl, hst⟩
  · rcases hsim (growCap (b.len + need) SizeT.bits b.startCap + 1) s t hst with ⟨hans, hrel⟩
    rcases hs : H.alloc (growCap (b.len + need) SizeT.bits b.startCap + 1) s with ⟨a, s'⟩
    rcases ht : K.alloc (growCap (b.len + need) SizeT.bits b.startCap + 1) t with ⟨a', t'⟩
    rw [hs, ht] at hans hrel
    obtain rfl : a = a' := hans
    cases a <;> exact ⟨rfl, rfl, hrel⟩

/-- Under allocators that answer alike, an append ends alike. -/
theorem bufAppend_sim {v : Type} {H : Heap v} {K : Heap w} {Rel : v → w → Prop}
    (hsim : H.Sim K Rel) (b : Buf) (xs : Bytes) {s : v} {t : w} (hst : Rel s t) :
    (bufAppend H b xs s).1 = (bufAppend K b xs t).1 ∧
      Rel (bufAppend H b xs s).2 (bufAppend K b xs t).2 := by
  unfold bufAppend
  split_ifs
  · exact (bufReserve_sim hsim b 0 hst).2
  · rcases bufReserve_sim hsim b xs.length hst with ⟨hcode, hbuf, hrel⟩
    split <;> rename_i hs <;> split <;> rename_i ht <;> rw [hs, ht] at hcode hbuf hrel
    · exact ⟨hbuf, hrel⟩
    · exact absurd hcode (by simp)
    · exact absurd hcode (by simp)
    · dsimp only at hbuf
      subst hbuf
      exact ⟨rfl, hrel⟩

end Buf

end Sicha
