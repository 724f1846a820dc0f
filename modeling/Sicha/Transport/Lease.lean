import Sicha.Lib.Assures
import Sicha.Transport.Delivers
import Sicha.Transport.Pool

/-!
# The slot of a perform

A perform takes its handles from the pool for as long as it runs, next to others that do the same.
Nobody else touches its slot meanwhile; it gives the slot back on every path, with the handles and
the connections they keep, and cleans up handles of its own.

Main results:

- Theorem {lit}`curlTransfer_moves`: a transfer moves the environment as libcurl, the allocator and
  the clock do.
- Theorem {lit}`curl_leases`: what becomes of the slot.
-/

namespace Sicha

section Transfer

variable {α σ : Type} {Rel : σ → σ → Prop} {L : Libcurl α σ} {H : Heap σ} {ck : Clock σ}

/-- What a perform calls moves the environment within {lit}`Rel`. -/
structure CurlWithin (L : Libcurl α σ) (H : Heap σ) (ck : Clock σ) (Rel : σ → σ → Prop) : Prop where
  refl : ∀ s, Rel s s
  trans : ∀ s t u, Rel s t → Rel t u → Rel s u
  alloc : ∀ n s, Rel s (H.alloc n s).2
  now : ∀ s, Rel s (ck.nowMs s).2
  slistAppend : ∀ line s, Rel s (L.slistAppend line s).2
  addHandle : ∀ slot setup s, Rel s (L.addHandle slot setup s).2
  perform : ∀ slot s, (L.perform slot s).Moves Rel s
  infoRead : ∀ slot s, Rel s (L.infoRead slot s).2
  poll : ∀ slot s, Rel s (L.poll slot s)
  removeHandle : ∀ slot s, Rel s (L.removeHandle slot s)

variable {cancel : Option (CancelToken σ)} {sink : Bool} {rq : HttpRequest} {slot : CurlSlot α}

/-- A callback moves the environment as the allocator, the clock and the sink do. -/
theorem curlCallback_moves (hw : CurlWithin L H ck Rel) (q : CurlCall) (x : Xfer) (s : σ) :
    (curlCallback H ck sink q x s).Moves Rel s := by
  have hnow := hw.now s
  have hfinish (len : Nat) (x : Xfer) : (finishHeaders sink len x (ck.nowMs s).2).Moves Rel s := by
    unfold finishHeaders
    split_ifs
    · exact hnow
    · refine ⟨hnow, fun rc s' => ?_⟩
      dsimp only
      split_ifs <;> exact hw.refl s'
    · exact hnow
  cases q with
  | header line =>
      change (headerDialogue H ck sink line x s).Moves Rel s
      unfold headerDialogue
      dsimp only
      split_ifs
      · exact hnow
      · exact hnow
      · exact hfinish _ _
      · unfold headerCbField
        split
        · exact hnow
        · split_ifs
          · exact hnow
          · dsimp only [dupBytes]
            split_ifs <;>
              exact hw.trans _ _ _ hnow (hw.trans _ _ _ (hw.alloc _ _) (hw.alloc _ _))
  | body bytes =>
      change (writeCb ck sink bytes x s).Moves Rel s
      unfold writeCb
      dsimp only
      split_ifs
      · refine ⟨hnow, fun rc s' => ?_⟩
        dsimp only
        split_ifs <;> exact hw.refl s'
      · exact hnow

/-- So does what is decided behind a round. -/
theorem curlDecide_moves (hw : CurlWithin L H ck Rel) (start : UInt64) (code : CurlMCode)
    (running : Bool) (x : Xfer) (s : σ) :
    Rel s (curlDecide L ck cancel rq slot start code running x s).2 := by
  have hinfo := hw.infoRead slot s
  unfold curlDecide
  cases code with
  | outOfMemory => exact hw.refl s
  | other => exact hw.refl s
  | ok =>
      dsimp only
      split <;> rename_i heq <;> rw [heq] at hinfo
      · exact hw.trans _ _ _ hinfo (hw.now _)
      · split_ifs
        · split <;> exact hw.trans _ _ _ hinfo (hw.now _)
        · exact hinfo

/-- So does the loop. -/
theorem curlLoop_moves (hw : CurlWithin L H ck Rel) (start : UInt64) (fuel : Nat) (x : Xfer)
    (s : σ) : (curlLoop L H ck cancel sink rq slot start fuel x s).Moves Rel s := by
  induction fuel generalizing x s with
  | zero => exact hw.refl s
  | succ fuel ih =>
      have hpump : (curlPump L H ck sink slot x s).Moves Rel s :=
        (hw.perform slot s).relay hw.trans (curlCallback_moves hw) x
      refine hpump.bind hw.trans fun o s' => ?_
      have hdecide := @curlDecide_moves _ _ Rel L H ck cancel rq slot hw start o.1.1 o.1.2 o.2 s'
      split
      · rename_i heq
        rw [heq] at hdecide
        exact hdecide
      · rename_i poll s'' heq
        rw [heq] at hdecide
        cases poll with
        | false => exact (ih o.2 s'').before hw.trans hdecide
        | true => exact (ih o.2 _).before hw.trans (hw.trans _ _ _ hdecide (hw.poll slot s''))

/-- A transfer moves the environment as what it calls does. -/
theorem curlTransfer_moves (hw : CurlWithin L H ck Rel) (fuel : Nat) (s : σ) :
    (curlTransfer L H ck cancel sink rq slot fuel s).Moves Rel s := by
  have hheaders (hs : List Header) (lines : List Bytes) {s' : σ} (h : Rel s s') :
      Rel s (curlHeaders L H hs lines s').2 := by
    induction hs generalizing lines s' with
    | nil => exact hw.trans _ _ _ h (hw.slistAppend _ _)
    | cons f hs ih =>
        have hline := hw.trans _ _ _ h (hw.alloc (f.name.length + f.value.length + 3) s')
        have hnext := hw.trans _ _ _ hline (hw.slistAppend (curlHeaderLine f) _)
        unfold curlHeaders
        dsimp only
        split_ifs
        · exact ih _ hnext
        · exact hnext
        · exact hline
  have hlines := hheaders rq.headers [] (hw.refl s)
  unfold curlTransfer
  split <;> rename_i heq <;> rw [heq] at hlines
  · exact hlines
  · rename_i lines s'
    have hadded := hw.trans _ _ _ hlines (hw.addHandle slot (curlSetup rq lines) s')
    dsimp only
    split_ifs
    · exact (curlLoop_moves hw _ fuel _ _).before hw.trans
        (hw.trans _ _ _ hadded (hw.now (L.addHandle slot (curlSetup rq lines) s').2))
    · exact hadded

end Transfer

/-! ## The slot -/

section Lease

variable {α σ I : Type}

/-- A slot of the pool is left alone. -/
def Leaves (i : Fin curlPoolCap) (s s' : CurlPool α × σ) : Prop :=
  s'.1 i = s.1 i

/-- What becomes of the slots in a perform.  A slot that is handed out stays as it was, unless
someone else touches it, whenever the sink is called, and is free at the end with the same handles.
Without a slot the perform touches none: if making handles of its own fails, it is out of memory and
calls nothing, and otherwise it cleans them up at its end. -/
theorem curl_leases (C : CurlInit α σ) (L : Libcurl α (CurlPool α × σ))
    (H : Heap (CurlPool α × σ)) (ck : Clock (CurlPool α × σ))
    (cancel : Option (CancelToken (CurlPool α × σ))) (fuel : Nat) (sink : Bool) (rq : HttpRequest)
    (h : SinkCall → I → CurlPool α × σ → Int × I × (CurlPool α × σ)) (x : I)
    (s s1 : CurlPool α × σ) (i : Fin curlPoolCap) (hw : CurlWithin L H ck (Leaves i))
    (hh : ∀ q x s, Leaves i s (h q x s).2.2) :
    let d := curlPerform C L H ck cancel fuel sink rq s
    (∀ copy, slotScan C s.1 s.2 = (.slot i copy, s1) →
      (∀ t ∈ d.turns h x, t.2.2.1 i = copy) ∧
        (d.run h x).2.2.1 i = { copy with inUse := false }) ∧
    (slotScan C s.1 s.2 = (.nomem, s1) → d = .done (some .nomem) s1) ∧
    (slotScan C s.1 s.2 = (.saturated, s1) →
      (∀ t ∈ d.turns h x, Leaves i s t.2.2) ∧
        ((∃ v, slotTransient C s1.2 = (none, v) ∧ d = .done (some .nomem) (s1.1, v) ∧
            Leaves i s (d.run h x).2.2) ∨
          ∃ copy s2, (slotTransient C s1.2).1 = some copy ∧ Leaves i s s2 ∧
            (d.run h x).2.2 = L.cleanup copy s2)) := by
  intro d
  have hmoves (slot : CurlSlot α) (s : CurlPool α × σ) :=
    @curlTransfer_moves _ _ (Leaves i) L H ck cancel sink rq slot hw fuel s
  have hfollow {s0 : CurlPool α × σ} (t t' : CurlPool α × σ) (ht : Leaves i s0 t)
      (hmove : Leaves i t t') : Leaves i s0 t' :=
    hw.trans _ _ _ ht hmove
  have heffect := slotScan_cases C s.1 s.2
  refine ⟨fun copy hscan => ?_, fun hscan => ?_, fun hscan => ?_⟩ <;> rw [hscan] at heffect
  · have hd : d = (curlTransfer L H ck cancel sink rq copy fuel s1).bind fun r s =>
        .done r (slotRelease (L.removeHandle copy s).1 i, (L.removeHandle copy s).2) := by
      simp only [d, curlPerform, hscan]
    have hcopy : s1.1 i = copy := by
      obtain ⟨-, -, -, hpool⟩ := heffect
      rw [hpool, Function.update_self]
    have hassures : d.Assures (Leaves i) (fun t => t.1 i = copy)
        fun _ t => t.1 i = { copy with inUse := false } := by
      rw [hd]
      refine ((hmoves copy s1).assures (P := Leaves i s1) hfollow (hw.refl s1)).mono
        (fun t ht => ht.trans hcopy) (fun _ t ht => ht) |>.bind fun r t ht => ?_
      have hheld : (L.removeHandle copy t).1 i = copy :=
        (hw.removeHandle copy t).trans (ht.trans hcopy)
      change Function.update _ i _ i = _
      rw [Function.update_self, hheld]
    exact ⟨hassures.turns hh x, hassures.run hh x⟩
  · simp only [d, curlPerform, hscan]
  · obtain ⟨-, hpool⟩ := heffect
    have hstart : Leaves i s s1 := congrFun hpool i
    cases hmade : slotTransient C s1.2 with
    | mk out v =>
        cases out with
        | none =>
            have hd : d = .done (some .nomem) (s1.1, v) := by
              simp only [d, curlPerform, hscan, hmade]
            rw [hd]
            exact ⟨List.forall_mem_nil _, .inl ⟨v, rfl, rfl, hstart⟩⟩
        | some copy =>
            have hd : d = (curlTransfer L H ck cancel sink rq copy fuel (s1.1, v)).bind fun r s =>
                .done r (L.cleanup copy (L.removeHandle copy s)) := by
              simp only [d, curlPerform, hscan, hmade]
            have hassures : d.Assures (Leaves i) (Leaves i s)
                fun _ t => ∃ s2, Leaves i s s2 ∧ t = L.cleanup copy s2 := by
              rw [hd]
              refine ((hmoves copy (s1.1, v)).assures (P := Leaves i s) hfollow hstart).bind
                fun r t ht => ⟨_, hfollow _ _ ht (hw.removeHandle copy t), rfl⟩
            obtain ⟨s2, hleaves, hend⟩ := hassures.run hh x
            exact ⟨hassures.turns hh x, .inr ⟨copy, s2, rfl, hleaves, hend⟩⟩

end Lease

/-! ## A perform in an empty pool -/

/-- The plain libcurl moves nothing. -/
theorem plainLibcurl_within {α σ : Type} {Rel : σ → σ → Prop} (hrefl : ∀ s, Rel s s)
    (htrans : ∀ s t u, Rel s t → Rel t u → Rel s u) :
    CurlWithin (plainLibcurl (α := α)) Heap.plentiful stillClock Rel := by
  have hover (calls : List CurlCall) (s : σ) : (handOver calls s).Moves Rel s := by
    induction calls generalizing s with
    | nil => exact hrefl s
    | cons q calls ih =>
        refine ⟨hrefl s, fun n s' => ?_⟩
        dsimp only
        split_ifs
        · exact hrefl s'
        · exact ih s'
  exact ⟨hrefl, htrans, fun _ => hrefl, hrefl, fun _ => hrefl, fun _ _ => hrefl,
    fun _ => hover _, fun _ => hrefl, fun _ => hrefl, fun _ => hrefl⟩

/-- In an empty pool the first slot is held during the perform, and free behind it. -/
theorem curl_leases_plain :
    let d := curlPerform plainHandles plainLibcurl Heap.plentiful stillClock none 1 true hastyCall
      (emptyPool, ())
    (∀ t ∈ d.turns refuseAll (), t.2.2.1 firstIndex = heldSlot ((), ())) ∧
      (d.run refuseAll ()).2.2.1 firstIndex = { heldSlot ((), ()) with inUse := false } :=
  (curl_leases plainHandles plainLibcurl Heap.plentiful stillClock none 1 true hastyCall refuseAll ()
    (emptyPool, ()) (Function.update emptyPool firstIndex (heldSlot ((), ())), ()) firstIndex
    (plainLibcurl_within (fun _ => rfl) fun _ _ _ h h' => h'.trans h) fun _ _ _ => rfl).1
    (heldSlot ((), ())) rfl

end Sicha
