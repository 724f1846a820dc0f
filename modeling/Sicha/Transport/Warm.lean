import Mathlib.Algebra.BigOperators.Group.List.Basic
import Mathlib.Data.Finset.Card
import Mathlib.Data.Fintype.Basic
import Sicha.Transport.Pool

/-!
# Warm handles

A slot of the pool keeps its handles, and with them the connections, until the transport is
destroyed.  New handles are made for the pool only when every slot that has some is in use.

Main results:

- Theorems {lit}`PoolStep.warm` and {lit}`PoolStep.busy`: what a step does to the slots with handles,
  and to those in use.
- Theorem {lit}`pool_reuses`: handles stay, and there are never more of them than performs have been
  under way at one time.
-/

namespace Sicha

variable {α σ ι : Type}

/-! ## Slots -/

/-- The slots with handles. -/
def warmSlots (pool : CurlPool α) : Finset (Fin curlPoolCap) :=
  Finset.univ.filter fun i => (pool i).easy.isSome = true

/-- The slots in use. -/
def busySlots (pool : CurlPool α) : Finset (Fin curlPoolCap) :=
  Finset.univ.filter fun i => (pool i).inUse = true

/-- A slot is warm if it has handles. -/
@[simp]
theorem mem_warmSlots {pool : CurlPool α} {i : Fin curlPoolCap} :
    i ∈ warmSlots pool ↔ (pool i).easy.isSome = true := by
  simp [warmSlots]

/-- A slot is busy if it is marked. -/
@[simp]
theorem mem_busySlots {pool : CurlPool α} {i : Fin curlPoolCap} :
    i ∈ busySlots pool ↔ (pool i).inUse = true := by
  simp [busySlots]

/-- A free slot that is marked is one more in use. -/
theorem busySlots_take {pool : CurlPool α} {i : Fin curlPoolCap} {slot : CurlSlot α}
    (hfree : (pool i).inUse = false) (huse : slot.inUse = true) :
    (busySlots (Function.update pool i slot)).card = (busySlots pool).card + 1 := by
  have hnot : i ∉ busySlots pool := by simp [hfree]
  rw [← Finset.card_insert_of_notMem hnot]
  congr 1
  ext j
  by_cases hj : j = i
  · subst hj
    simp [huse]
  · simp [hj]

/-- A marked slot that is freed is one less in use. -/
theorem busySlots_give {pool : CurlPool α} {i : Fin curlPoolCap} {slot : CurlSlot α}
    (hheld : (pool i).inUse = true) (hfree : slot.inUse = false) :
    (busySlots (Function.update pool i slot)).card + 1 = (busySlots pool).card := by
  have hmem : i ∈ busySlots pool := by simp [hheld]
  rw [← Finset.card_erase_add_one hmem]
  congr 2
  ext j
  by_cases hj : j = i
  · subst hj
    simp [hfree]
  · simp [hj]

/-- The same marks, the same slots in use. -/
theorem busySlots_keep {pool pool' : CurlPool α}
    (hmarks : ∀ i, (pool' i).inUse = (pool i).inUse) : busySlots pool' = busySlots pool := by
  ext i
  simp [hmarks]

/-- The handles of a slot stay. -/
def SameHandles (slot slot' : CurlSlot α) : Prop :=
  slot'.easy = slot.easy ∧ slot'.multi = slot.multi

/-- The same handles, the same warm slots. -/
theorem warmSlots_keep {pool pool' : CurlPool α} (h : ∀ i, SameHandles (pool i) (pool' i)) :
    warmSlots pool' = warmSlots pool := by
  ext i
  simp [(h i).1]

/-- To replace a slot by one with its handles keeps all handles. -/
theorem sameHandles_update {pool : CurlPool α} {i : Fin curlPoolCap} {slot : CurlSlot α}
    (hslot : SameHandles (pool i) slot) (j : Fin curlPoolCap) :
    SameHandles (pool j) (Function.update pool i slot j) := by
  by_cases hj : j = i
  · subst hj
    rwa [Function.update_self]
  · rw [Function.update_of_ne hj]
    exact ⟨rfl, rfl⟩

/-! ## Steps -/

/-- What the section of {lit}`slot_acquire` does to the handles of the pool: they stay as they are, or
one slot without handles is given some while every slot with handles is in use. -/
theorem slotScan_warm (C : CurlInit α σ) {pool : CurlPool α} (hpaired : ∀ i, (pool i).Paired)
    (s : σ) :
    (∀ i, SameHandles (pool i) ((slotScan C pool s).2.1 i)) ∨
      ∃ i slot, (pool i).easy = none ∧ slot.inUse = true ∧ (∀ j ∈ warmSlots pool, j ∈ busySlots pool) ∧
        (slotScan C pool s).2.1 = Function.update pool i slot := by
  unfold slotScan
  split
  · rename_i i hwarm
    exact .inl (sameHandles_update (i := i) ⟨rfl, rfl⟩)
  · rename_i hcold
    split
    · rename_i i hnew
      obtain ⟨-, hempty⟩ : (pool i).inUse = false ∧ (pool i).easy = none := by
        simpa using firstSlot_some hnew
      split
      · have hmulti : (pool i).multi = none := by
          have hsome := hpaired i
          rw [CurlSlot.Paired, hempty] at hsome
          simpa using hsome.symm
        exact .inl (sameHandles_update (i := i) ⟨hempty.symm, hmulti.symm⟩)
      · refine .inr ⟨i, _, hempty, rfl, fun j hj => ?_, rfl⟩
        have hnot := firstSlot_none hcold j
        rw [mem_warmSlots] at hj
        simpa [hj] using hnot
    · exact .inl fun _ => ⟨rfl, rfl⟩

/-- How an event changes the number of slots that are held. -/
def PoolEvent.shift : PoolEvent α → Int
  | .scanned (.slot _ _) => 1
  | .released _ => -1
  | _ => 0

/-- The slots held after some events: those handed out and not given back. -/
def holding (past : List (ι × PoolEvent α)) : Int :=
  (past.map fun e => e.2.shift).sum

/-- One more event shifts the number of holders. -/
theorem holding_snoc (past : List (ι × PoolEvent α)) (e : ι × PoolEvent α) :
    holding (past ++ [e]) = holding past + e.2.shift := by
  simp [holding]

section Runs

variable {C : CurlInit α σ} {past : List (ι × PoolEvent α)}
  {c : Threads ι (CurlPool α × σ) (PoolThread α)} {t : ι} {e : PoolEvent α} {s : CurlPool α × σ}
  {l : PoolThread α}

/-- Handles stay where they are; and if there are new ones, all slots with handles are in use. -/
theorem PoolStep.warm (h : PoolInvariant c) (hstep : PoolStep C c.shared (c.own t) e s l) :
    (∀ i ∈ warmSlots c.shared.1, SameHandles (c.shared.1 i) (s.1 i)) ∧
      (warmSlots s.1 = warmSlots c.shared.1 ∨ ∀ i ∈ warmSlots s.1, i ∈ busySlots s.1) := by
  have hkeep {pool : CurlPool α} (hsame : ∀ i, SameHandles (c.shared.1 i) (pool i)) :
      (∀ i ∈ warmSlots c.shared.1, SameHandles (c.shared.1 i) (pool i)) ∧
        (warmSlots pool = warmSlots c.shared.1 ∨ ∀ i ∈ warmSlots pool, i ∈ busySlots pool) :=
    ⟨fun i _ => hsame i, .inl (warmSlots_keep hsame)⟩
  have hscan := @slotScan_warm _ _ C c.shared.1 h.paired c.shared.2
  generalize c.own t = before at hstep
  cases hstep with
  | scanned =>
      rcases hscan with hsame | ⟨i, slot, hempty, huse, hbusy, hpool⟩
      · exact hkeep hsame
      · rw [hpool]
        have hne {j : Fin curlPoolCap} (hj : j ∈ warmSlots c.shared.1) : j ≠ i := by
          rintro rfl
          rw [mem_warmSlots, hempty] at hj
          cases hj
        refine ⟨fun j hj => ?_, .inr fun j hj => ?_⟩
        · rw [Function.update_of_ne (hne hj)]
          exact ⟨rfl, rfl⟩
        · rw [mem_busySlots]
          by_cases hji : j = i
          · subst hji
            rwa [Function.update_self]
          · rw [mem_warmSlots, Function.update_of_ne hji, ← mem_warmSlots] at hj
            rw [Function.update_of_ne hji, ← mem_busySlots]
            exact hbusy j hj
  | made => exact hkeep fun _ => ⟨rfl, rfl⟩
  | released i copy => exact hkeep (sameHandles_update (i := i) ⟨rfl, rfl⟩)
  | dropped => exact hkeep fun _ => ⟨rfl, rfl⟩
  | moved v => exact hkeep fun _ => ⟨rfl, rfl⟩

/-- The slots in use are counted by the events. -/
theorem PoolStep.busy (h : PoolInvariant c) (hstep : PoolStep C c.shared (c.own t) e s l) :
    ((busySlots s.1).card : Int) = (busySlots c.shared.1).card + e.shift := by
  generalize hown : c.own t = before at hstep
  cases hstep with
  | scanned =>
      have heffect := slotScan_cases C c.shared.1 c.shared.2
      generalize slotScan C c.shared.1 c.shared.2 = out at heffect ⊢
      obtain ⟨out, pool, v⟩ := out
      cases out with
      | slot i copy =>
          obtain ⟨hfree, huse, -, rfl⟩ := heffect
          rw [busySlots_take hfree huse]
          rfl
      | nomem =>
          obtain ⟨i, hfree, rfl⟩ := heffect
          have hmarks (j : Fin curlPoolCap) :
              (Function.update c.shared.1 i ⟨none, none, false⟩ j).inUse = (c.shared.1 j).inUse := by
            by_cases hj : j = i
            · subst hj
              rw [Function.update_self, hfree]
            · rw [Function.update_of_ne hj]
          rw [busySlots_keep hmarks]
          exact (Int.add_zero _).symm
      | saturated =>
          obtain ⟨-, rfl⟩ := heffect
          exact (Int.add_zero _).symm
  | released i copy =>
      have hheld : (c.shared.1 i).inUse = true :=
        (h.owned.marked i).mpr ⟨t, by rw [hown]; rfl⟩
      rw [← @busySlots_give _ c.shared.1 i { c.shared.1 i with inUse := false } hheld rfl]
      change (_ : Int) = ((_ + 1 : Nat) : Int) + (-1)
      push_cast
      exact (Int.add_neg_cancel_right _ _).symm
  | made => exact (Int.add_zero _).symm
  | dropped => exact (Int.add_zero _).symm
  | moved v => exact (Int.add_zero _).symm

/-- The slots in use are those handed out and not given back; and at some moment so far there have
been as many of them as there are slots with handles. -/
structure WarmAccount (past : List (ι × PoolEvent α))
    (c : Threads ι (CurlPool α × σ) (PoolThread α)) : Prop where
  pool : PoolInvariant c
  busy : ((busySlots c.shared.1).card : Int) = holding past
  warm : ∃ front, front <+: past ∧ ((warmSlots c.shared.1).card : Int) ≤ holding front

variable [DecidableEq ι]

/-- The warm slots are accounted for in every run. -/
theorem run_warm {env : σ} (hrun : Threads.Run (PoolStep C) (poolStart ι α env) past c) :
    WarmAccount past c := by
  refine hrun.invariant (P := WarmAccount) ⟨poolStart_invariant env, rfl, [], List.prefix_rfl, le_rfl⟩
    fun past c t e s l h hstep => ?_
  have hbusy : ((busySlots s.1).card : Int) = holding (past ++ [(t, e)]) := by
    rw [holding_snoc, ← h.busy]
    exact PoolStep.busy h.pool hstep
  refine ⟨PoolStep.kept h.pool hstep, hbusy, ?_⟩
  rcases (PoolStep.warm h.pool hstep).2 with hsame | hall
  · obtain ⟨front, hfront, hle⟩ := h.warm
    refine ⟨front, hfront.trans (List.prefix_append _ _), ?_⟩
    rwa [Threads.after_shared, hsame]
  · refine ⟨past ++ [(t, e)], List.prefix_rfl, ?_⟩
    rw [← hbusy]
    exact Int.ofNat_le.mpr (Finset.card_le_card hall)

/-- Performs acquire and release in any order, and any allocation of libcurl may fail.  The pool never
has more slots with handles than performs have held at one time so far; and a slot that has handles
keeps them, whatever happens later. -/
theorem pool_reuses (C : CurlInit α σ) (env : σ) (past : List (ι × PoolEvent α))
    (c : Threads ι (CurlPool α × σ) (PoolThread α))
    (hrun : Threads.Run (PoolStep C) (poolStart ι α env) past c) :
    (∃ front, front <+: past ∧ ((warmSlots c.shared.1).card : Int) ≤ holding front) ∧
      ∀ more c', Threads.Run (PoolStep C) c more c' → ∀ i ∈ warmSlots c.shared.1,
        SameHandles (c.shared.1 i) (c'.shared.1 i) := by
  have haccount := run_warm hrun
  refine ⟨haccount.warm, fun more c' hmore => ?_⟩
  have hlater := hmore.invariant
    (P := fun _ c' => PoolInvariant c' ∧
      ∀ i ∈ warmSlots c.shared.1, SameHandles (c.shared.1 i) (c'.shared.1 i))
    ⟨haccount.pool, fun _ _ => ⟨rfl, rfl⟩⟩ fun _ c' t e s l h hstep => by
      refine ⟨PoolStep.kept h.1 hstep, fun i hi => ?_⟩
      have hbefore := h.2 i hi
      have hwarm : i ∈ warmSlots c'.shared.1 := by
        rw [mem_warmSlots] at hi ⊢
        rwa [hbefore.1]
      have hstay := (PoolStep.warm h.1 hstep).1 i hwarm
      exact ⟨hstay.1.trans hbefore.1, hstay.2.trans hbefore.2⟩
  exact hlater.2

end Runs

/-! ## A run -/

/-- Behind two acquisitions, the handles of both slots are there for good. -/
theorem pool_reuses_plain :
    ∃ c : Threads Bool (CurlPool Nat × Nat) (PoolThread Nat),
      (c.own true).held? = some secondIndex ∧
        ∀ more c', Threads.Run (PoolStep plainCurl) c more c' → ∀ i ∈ warmSlots c.shared.1,
          SameHandles (c.shared.1 i) (c'.shared.1 i) := by
  obtain ⟨c, hrun, -, hsecond⟩ := plain_pool_run
  exact ⟨c, hsecond, (pool_reuses plainCurl 0 _ c hrun).2⟩

end Sicha
