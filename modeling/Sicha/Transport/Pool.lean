import Sicha.Lib.Threads
import Sicha.Transport.Curl

/-!
# The pool of handles

Performs acquire and release slots in any order, while any allocation of libcurl may fail.

Main results:

- Theorem {lit}`slotScan_cases`: what the section of {lit}`slot_acquire` does.
- Theorem {lit}`PoolStep.kept`: every step keeps the invariant of the pool.
- Theorem {lit}`pool_owned`: in every run no two performs hold one slot, and {lit}`in_use` marks
  the slots that are held.
-/

namespace Sicha

/-! ## Performs -/

/-- What a perform holds. -/
inductive PoolThread (α : Type) where
  | idle
  /-- behind the mutex of a saturated pool, without handles -/
  | saturated
  /-- a slot of the pool, and its copy -/
  | pooled (i : Fin curlPoolCap) (copy : CurlSlot α)
  /-- handles of its own -/
  | transient (copy : CurlSlot α)

/-- What a perform does. -/
inductive PoolEvent (α : Type) where
  /-- the section of {lit}`slot_acquire` -/
  | scanned (out : Scanned α)
  /-- behind it: transient handles, or -2 -/
  | made (out : Option (CurlSlot α))
  | released (i : Fin curlPoolCap)
  /-- {lit}`slot_release` of transient handles -/
  | dropped
  /-- anyone moves the environment -/
  | moved

/-- The slot of the pool that a perform holds. -/
def PoolThread.held? {α : Type} : PoolThread α → Option (Fin curlPoolCap)
  | .pooled i _ => some i
  | _ => none

/-- The handles a perform works with. -/
def PoolThread.copy? {α : Type} : PoolThread α → Option (CurlSlot α)
  | .pooled _ copy => some copy
  | .transient copy => some copy
  | _ => none

/-- The perform behind the section of {lit}`slot_acquire`. -/
def Scanned.thread {α : Type} : Scanned α → PoolThread α
  | .slot i copy => .pooled i copy
  | .nomem => .idle
  | .saturated => .saturated

/-- The acquire ended with -2. -/
def PoolEvent.Failed {α : Type} : PoolEvent α → Prop
  | .scanned .nomem => True
  | .made none => True
  | _ => False

variable {α σ : Type}

/-- The steps of a perform. -/
inductive PoolStep (C : CurlInit α σ) :
    CurlPool α × σ → PoolThread α → PoolEvent α → CurlPool α × σ → PoolThread α → Prop
  | scanned {s : CurlPool α × σ} :
      PoolStep C s .idle (.scanned (slotScan C s.1 s.2).1) (slotScan C s.1 s.2).2
        (slotScan C s.1 s.2).1.thread
  | made {s : CurlPool α × σ} :
      PoolStep C s .saturated (.made (slotTransient C s.2).1) (s.1, (slotTransient C s.2).2)
        ((slotTransient C s.2).1.elim .idle .transient)
  | released {s : CurlPool α × σ} (i : Fin curlPoolCap) (copy : CurlSlot α) :
      PoolStep C s (.pooled i copy) (.released i) (slotRelease s.1 i, s.2) .idle
  | dropped {s : CurlPool α × σ} (copy : CurlSlot α) :
      PoolStep C s (.transient copy) .dropped s .idle
  | moved {s : CurlPool α × σ} {l : PoolThread α} (v : σ) : PoolStep C s l .moved (s.1, v) l

/-- An empty pool among idle performs. -/
def poolStart (ι α : Type) (env : σ) : Threads ι (CurlPool α × σ) (PoolThread α) where
  shared := (fun _ => ⟨none, none, false⟩, env)
  own _ := .idle

/-! ## The sections -/

/-- Both handles are there. -/
def CurlSlot.Full (slot : CurlSlot α) : Prop :=
  slot.easy.isSome = true ∧ slot.multi.isSome = true

/-- Both handles are there, or neither. -/
def CurlSlot.Paired (slot : CurlSlot α) : Prop :=
  slot.easy.isSome = slot.multi.isSome

/-- A slot that was handed out has both handles. -/
theorem heldSlot_full (handles : α × α) : (heldSlot handles).Full :=
  ⟨rfl, rfl⟩

/-- A slot with both handles has none alone. -/
theorem CurlSlot.Full.paired {slot : CurlSlot α} (h : slot.Full) : slot.Paired :=
  h.1.trans h.2.symm

/-- The first slot that fits fits. -/
theorem firstSlot_some {pool : CurlPool α} {ok : CurlSlot α → Bool} {i : Fin curlPoolCap}
    (h : firstSlot pool ok = some i) : ok (pool i) = true := by
  simpa using List.find?_some h

/-- If there is no first slot that fits, none does. -/
theorem firstSlot_none {pool : CurlPool α} {ok : CurlSlot α → Bool}
    (h : firstSlot pool ok = none) (i : Fin curlPoolCap) : ok (pool i) = false := by
  simpa using List.find?_eq_none.mp h i (List.mem_finRange i)

/-- What the section of {lit}`slot_acquire` does to the pool. -/
def Scanned.Effect (pool pool' : CurlPool α) : Scanned α → Prop
  | .slot i copy =>
      (pool i).inUse = false ∧ copy.inUse = true ∧ ((pool i).Paired → copy.Full) ∧
        pool' = Function.update pool i copy
  | .nomem => ∃ i, (pool i).inUse = false ∧ pool' = Function.update pool i ⟨none, none, false⟩
  | .saturated => (∀ i, (pool i).inUse = true) ∧ pool' = pool

/-- The section hands out a free slot and marks it, leaves a free slot empty, or finds every slot
in use. -/
theorem slotScan_cases (C : CurlInit α σ) (pool : CurlPool α) (s : σ) :
    (slotScan C pool s).1.Effect pool (slotScan C pool s).2.1 := by
  unfold slotScan
  split
  · rename_i i hwarm
    obtain ⟨hfree, heasy⟩ : (pool i).inUse = false ∧ (pool i).easy.isSome = true := by
      simpa using firstSlot_some hwarm
    exact ⟨hfree, rfl, fun hpaired => ⟨heasy, hpaired.symm.trans heasy⟩, rfl⟩
  · rename_i hcold
    split
    · rename_i i hnew
      obtain ⟨hfree, -⟩ : (pool i).inUse = false ∧ (pool i).easy.isNone = true := by
        simpa using firstSlot_some hnew
      split
      · refine ⟨i, hfree, ?_⟩
        rw [← hfree]
      · rename_i handles _ _
        exact ⟨hfree, rfl, fun _ => heldSlot_full handles, rfl⟩
    · rename_i hnew
      refine ⟨fun i => ?_, rfl⟩
      have hwarm := firstSlot_none hcold i
      have hempty := firstSlot_none hnew i
      cases heasy : (pool i).easy with
      | none => simpa [heasy] using hempty
      | some e => simpa [heasy] using hwarm

/-- Transient handles are there both. -/
theorem slotTransient_full {C : CurlInit α σ} {s : σ} {copy : CurlSlot α}
    (h : (slotTransient C s).1 = some copy) : copy.Full := by
  obtain ⟨handles, -, rfl⟩ := Option.map_eq_some_iff.mp h
  exact heldSlot_full handles

/-! ## Runs -/

section Runs

variable {ι : Type} [DecidableEq ι] {C : CurlInit α σ}
  {past : List (ι × PoolEvent α)} {c : Threads ι (CurlPool α × σ) (PoolThread α)}

/-- The marks of the slots. -/
def marks (s : CurlPool α × σ) (i : Fin curlPoolCap) : Bool :=
  (s.1 i).inUse

/-- The invariant of the pool: the marks are right, every slot has both handles or neither, and a
perform works with both, those of its slot if it holds one. -/
structure PoolInvariant (c : Threads ι (CurlPool α × σ) (PoolThread α)) : Prop where
  owned : Threads.Owned marks PoolThread.held? c
  paired : ∀ i, (c.shared.1 i).Paired
  full : ∀ t copy, (c.own t).copy? = some copy → copy.Full
  same : ∀ t i copy, c.own t = .pooled i copy → copy = c.shared.1 i

omit [DecidableEq ι] in
/-- An empty pool is in order. -/
theorem poolStart_invariant (env : σ) : PoolInvariant (poolStart ι α env) where
  owned := ⟨fun _ => ⟨nofun, fun ⟨_, h⟩ => nomatch h⟩, fun _ _ _ h => nomatch h⟩
  paired _ := rfl
  full _ _ h := nomatch h
  same _ _ _ h := nomatch h

/-- The marks behind a change of one slot. -/
theorem marks_update (s : CurlPool α × σ) (i : Fin curlPoolCap) (slot : CurlSlot α) (v : σ) :
    marks (Function.update s.1 i slot, v) = Function.update (marks s) i slot.inUse := by
  funext j
  by_cases h : j = i
  · subst h
    simp [marks]
  · simp [marks, h]

/-- The invariant behind a step of one perform, if the slots that the others hold stay. -/
theorem PoolInvariant.after (h : PoolInvariant c) {t : ι} {s : CurlPool α × σ} {l : PoolThread α}
    (howned : Threads.Owned marks PoolThread.held? (c.after t s l))
    (hpaired : ∀ i, (s.1 i).Paired) (hfull : ∀ copy, l.copy? = some copy → copy.Full)
    (hsame : ∀ i copy, l = .pooled i copy → copy = s.1 i)
    (hothers : ∀ t', t' ≠ t → ∀ i, (c.own t').held? = some i → s.1 i = c.shared.1 i) :
    PoolInvariant (c.after t s l) := by
  refine ⟨howned, hpaired, fun t' copy hcopy => ?_, fun t' i copy hown => ?_⟩
  · by_cases ht : t' = t
    · subst ht
      rw [c.after_own_self] at hcopy
      exact hfull copy hcopy
    · rw [c.after_own_of_ne ht] at hcopy
      exact h.full t' copy hcopy
  · by_cases ht : t' = t
    · subst ht
      rw [c.after_own_self] at hown
      exact hsame i copy hown
    · rw [c.after_own_of_ne ht] at hown
      rw [c.after_shared, hothers t' ht i (by rw [hown]; rfl)]
      exact h.same t' i copy hown

/-- Another pair of handles in a slot leaves every slot paired. -/
theorem paired_update {pool : CurlPool α} (h : ∀ i, (pool i).Paired) {i : Fin curlPoolCap}
    {slot : CurlSlot α} (hslot : slot.Paired) (j : Fin curlPoolCap) :
    (Function.update pool i slot j).Paired := by
  by_cases hj : j = i
  · subst hj
    rwa [Function.update_self]
  · rw [Function.update_of_ne hj]
    exact h j

omit [DecidableEq ι] in
/-- No perform holds a slot that is not marked. -/
theorem PoolInvariant.unheld (h : PoolInvariant c) {i : Fin curlPoolCap}
    (hfree : (c.shared.1 i).inUse = false) (t : ι) : (c.own t).held? ≠ some i := by
  intro hheld
  have hmarked := (h.owned.marked i).mpr ⟨t, hheld⟩
  rw [marks, hfree] at hmarked
  cases hmarked

/-- The section of {lit}`slot_acquire` keeps the invariant. -/
theorem PoolInvariant.scanned (h : PoolInvariant c) {t : ι} (hidle : c.own t = .idle)
    {out : Scanned α} {s : CurlPool α × σ} (heffect : out.Effect c.shared.1 s.1) :
    PoolInvariant (c.after t s out.thread) := by
  have hnone : (c.own t).held? = none := by
    rw [hidle]
    rfl
  cases out with
  | slot i copy =>
      obtain ⟨hfree, huse, hfull, hpool⟩ := heffect
      have hcopy := hfull (h.paired i)
      refine h.after (h.owned.take hnone hfree rfl ?_) ?_ ?_ ?_ ?_
      · rw [← huse, ← marks_update c.shared i copy s.2, ← hpool]
      · rw [hpool]
        exact paired_update h.paired hcopy.paired
      · rintro _ ⟨⟩
        exact hcopy
      · rintro _ _ ⟨⟩
        rw [hpool, Function.update_self]
      · intro t' _ j hheld
        rw [hpool, Function.update_of_ne]
        rintro rfl
        exact h.unheld hfree t' hheld
  | nomem =>
      obtain ⟨i, hfree, hpool⟩ := heffect
      refine h.after (h.owned.keep hnone.symm ?_) ?_ nofun nofun ?_
      · calc
          marks s = Function.update (marks c.shared) i false := by
            rw [← marks_update c.shared i ⟨none, none, false⟩ s.2, ← hpool]
          _ = marks c.shared := Function.update_eq_self_iff.mpr hfree.symm
      · rw [hpool]
        exact paired_update h.paired rfl
      · intro t' _ j hheld
        rw [hpool, Function.update_of_ne]
        rintro rfl
        exact h.unheld hfree t' hheld
  | saturated =>
      obtain ⟨-, hpool⟩ := heffect
      refine h.after (h.owned.keep hnone.symm ?_) ?_ nofun nofun ?_
      · funext i
        rw [marks, marks, hpool]
      · rw [hpool]
        exact h.paired
      · intro t' _ j _
        rw [hpool]

/-- {lit}`slot_release` of a slot keeps the invariant. -/
theorem PoolInvariant.released (h : PoolInvariant c) {t : ι} {i : Fin curlPoolCap}
    {copy : CurlSlot α} (hown : c.own t = .pooled i copy) (v : σ) :
    PoolInvariant (c.after t (slotRelease c.shared.1 i, v) .idle) := by
  have hheld : (c.own t).held? = some i := by
    rw [hown]
    rfl
  refine h.after (h.owned.give hheld rfl (marks_update c.shared i _ v)) ?_ nofun nofun ?_
  · exact paired_update h.paired (h.paired i)
  · intro t' ht j hj
    refine Function.update_of_ne ?_ _ _
    rintro rfl
    exact ht (h.owned.once t' t j hj hheld)

/-- Making and dropping transient handles, and moves of the environment, leave the pool alone. -/
theorem PoolInvariant.aside (h : PoolInvariant c) {t : ι} {l : PoolThread α} (v : σ)
    (hheld : l.held? = (c.own t).held?) (hfull : ∀ copy, l.copy? = some copy → copy.Full)
    (hsame : ∀ i copy, l = .pooled i copy → copy = c.shared.1 i) :
    PoolInvariant (c.after t (c.shared.1, v) l) :=
  h.after (h.owned.keep hheld rfl) h.paired hfull hsame fun _ _ _ _ => rfl

/-- Every step keeps the invariant. -/
theorem PoolStep.kept (h : PoolInvariant c) {t : ι} {e : PoolEvent α} {s : CurlPool α × σ}
    {l : PoolThread α} (hstep : PoolStep C c.shared (c.own t) e s l) :
    PoolInvariant (c.after t s l) := by
  generalize hown : c.own t = before at hstep
  cases hstep with
  | scanned => exact h.scanned hown (slotScan_cases C c.shared.1 c.shared.2)
  | made =>
      cases hmade : (slotTransient C c.shared.2).1 with
      | none => exact h.aside _ (by rw [hown]; rfl) nofun nofun
      | some copy =>
          refine h.aside _ (by rw [hown]; rfl) ?_ nofun
          rintro _ ⟨⟩
          exact slotTransient_full hmade
  | released i copy => exact h.released hown _
  | dropped copy =>
      refine h.aside _ ?_ nofun nofun
      rw [hown]
      rfl
  | moved v =>
      subst hown
      exact h.aside v rfl (h.full t) (h.same t)

/-- The pool is in order in every run. -/
theorem run_pool {env : σ} (hrun : Threads.Run (PoolStep C) (poolStart ι α env) past c) :
    PoolInvariant c :=
  hrun.invariant (P := fun _ c => PoolInvariant c) (poolStart_invariant env)
    fun _ _ _ _ _ _ h hstep => PoolStep.kept h hstep

/-- An acquire that fails changes no mark, and leaves what its perform holds. -/
theorem PoolStep.failed {s s' : CurlPool α × σ} {l l' : PoolThread α} {e : PoolEvent α}
    (hstep : PoolStep C s l e s' l') (hfail : e.Failed) :
    marks s' = marks s ∧ l'.held? = l.held? := by
  cases hstep with
  | scanned =>
      have heffect := slotScan_cases C s.1 s.2
      generalize slotScan C s.1 s.2 = out at heffect hfail ⊢
      obtain ⟨out, pool, v⟩ := out
      cases out with
      | nomem =>
          obtain ⟨i, hfree, rfl⟩ := heffect
          exact ⟨(marks_update s i _ v).trans (Function.update_eq_self_iff.mpr hfree.symm), rfl⟩
      | slot | saturated => cases hfail
  | made =>
      refine ⟨rfl, ?_⟩
      generalize (slotTransient C s.2).1 = out at hfail ⊢
      cases out with
      | none => rfl
      | some copy => cases hfail
  | released | dropped | moved => cases hfail

/-- A perform without a slot of the pool releases none. -/
theorem PoolStep.transient {s s' : CurlPool α × σ} {copy : CurlSlot α} {l' : PoolThread α}
    {e : PoolEvent α} (hstep : PoolStep C s (.transient copy) e s' l') : s'.1 = s.1 := by
  cases hstep <;> rfl

/-- Performs acquire and release in any order, and any allocation of libcurl may fail.  In every
run a slot is held by at most one perform and {lit}`in_use` marks the slots that are held; every
slot has both handles or neither; a perform that was given handles has both, and those of its slot
if it holds one; an acquire that fails changes no ownership; and a perform with transient handles
leaves the pool alone. -/
theorem pool_owned (C : CurlInit α σ) (env : σ) (past : List (ι × PoolEvent α))
    (c : Threads ι (CurlPool α × σ) (PoolThread α))
    (hrun : Threads.Run (PoolStep C) (poolStart ι α env) past c) :
    (∀ t t' i, (c.own t).held? = some i → (c.own t').held? = some i → t = t') ∧
      (∀ i, (c.shared.1 i).inUse = true ↔ ∃ t, (c.own t).held? = some i) ∧
      (∀ i, (c.shared.1 i).easy.isSome = (c.shared.1 i).multi.isSome) ∧
      (∀ t copy, (c.own t).copy? = some copy →
        copy.easy.isSome = true ∧ copy.multi.isSome = true) ∧
      (∀ t i copy, c.own t = .pooled i copy → copy = c.shared.1 i) ∧
      ∀ t e s l, PoolStep C c.shared (c.own t) e s l →
        (e.Failed → (∀ i, (s.1 i).inUse = (c.shared.1 i).inUse) ∧
          ∀ t', ((c.after t s l).own t').held? = (c.own t').held?) ∧
        ∀ copy, c.own t = .transient copy → s.1 = c.shared.1 := by
  have hinv := run_pool hrun
  refine ⟨hinv.owned.once, hinv.owned.marked, hinv.paired, hinv.full, hinv.same,
    fun t e s l hstep => ⟨fun hfail => ?_, fun copy hown => ?_⟩⟩
  · obtain ⟨hmarks, hheld⟩ := hstep.failed hfail
    refine ⟨fun i => congrFun hmarks i, fun t' => ?_⟩
    by_cases ht : t' = t
    · subst ht
      rw [c.after_own_self, hheld]
    · rw [c.after_own_of_ne ht]
  · rw [hown] at hstep
    exact hstep.transient

end Runs

/-! ## A run -/

/-- A libcurl that numbers its handles. -/
def plainCurl : CurlInit Nat Nat where
  easy n := (some n, n + 1)
  multi n := (some n, n + 1)

/-- The first slot. -/
def firstIndex : Fin curlPoolCap := ⟨0, by decide⟩

/-- The second slot. -/
def secondIndex : Fin curlPoolCap := ⟨1, by decide⟩

/-- Two performs acquire a slot each. -/
theorem plain_pool_run :
    ∃ c, Threads.Run (PoolStep plainCurl) (poolStart Bool Nat 0)
      [(false, .scanned (.slot firstIndex (heldSlot (0, 1)))),
        (true, .scanned (.slot secondIndex (heldSlot (2, 3))))] c ∧
        (c.own false).held? = some firstIndex ∧ (c.own true).held? = some secondIndex :=
  have hfirst := Threads.Run.next .nil false rfl (PoolStep.scanned (C := plainCurl))
  ⟨_, hfirst.next true rfl .scanned, rfl, rfl⟩

/-- Two threads that acquire one behind the other hold two slots. -/
theorem pool_owned_plain :
    ∃ c : Threads Bool (CurlPool Nat × Nat) (PoolThread Nat),
      (c.own false).held? = some firstIndex ∧ (c.own true).held? = some secondIndex ∧
        (c.shared.1 firstIndex).inUse = true ∧ (c.shared.1 secondIndex).inUse = true := by
  obtain ⟨c, hrun, hfirst, hsecond⟩ := plain_pool_run
  obtain ⟨-, hmarked, -⟩ := pool_owned plainCurl 0 _ c hrun
  exact ⟨c, hfirst, hsecond, (hmarked firstIndex).mpr ⟨false, hfirst⟩,
    (hmarked secondIndex).mpr ⟨true, hsecond⟩⟩

end Sicha
