import Sicha.Client.Run

/-!
# The cleanup of a call

The four arrays of {lit}`chat_common` are requested together, before any answer is looked
at, and released at the common exit under guards of their own.  The loop that releases the
headers is guarded by {lit}`headers`, and reads {lit}`n_headers` as well.

Main results:

- Theorem {lit}`body_arrays`: a call returns before the four requests, or what they were granted
  is what it brings to the common exit.
- Theorem {lit}`chat_cleanup`: when a call ends with a defined status, and its cleanup reads only
  what was allocated.
-/

namespace Sicha

variable {σ : Type}

section Runs

variable [SizeT]

namespace Call

variable (k : Call σ)

/-- The answers to the four array requests. -/
structure Grants where
  bodies : Bool
  bodyLens : Bool
  headers : Bool
  nHeaders : Bool

/-- Every array was allocated. -/
def Grants.all (g : Grants) : Bool :=
  g.bodies && g.bodyLens && g.headers && g.nHeaders

/-- The answers to the four requests, made one after the other. -/
def grants (w : World σ) : Grants :=
  let n := k.c.backends.length
  let bodies := k.H.alloc n w.env
  let bodyLens := k.H.alloc n bodies.2
  let headers := k.H.alloc n bodyLens.2
  let nHeaders := k.H.alloc n headers.2
  ⟨bodies.1, bodyLens.1, headers.1, nHeaders.1⟩

/-- The world in which the first of the arrays is requested, if the call comes that far. -/
def beforeArrays (w : World σ) : Option (World σ) :=
  if k.cbs.any fun cbs => !cbs.structSizeOk then none
  else
    match (requestValidate k.Y k.H k.req).exec w.env with
    | (.error _, _) => none
    | (.ok (), env) =>
        match resultCreate k.H k.c.maxResponseBytes env with
        | (none, _) => none
        | (some _, env) => some { w with env := env }

variable {k}

/-- A call ends before the four requests, or they decide how it goes on. -/
theorem enter_arrays (ordinal : UInt32) (w : World σ) :
    (k.beforeArrays w = none ∧
        ∃ st w', k.enter ordinal w = .inl (.inl (.returned st none w'))) ∨
      ∃ w', k.beforeArrays w = some w' ∧ k.enter ordinal w =
        (k.arrays ordinal (resultInit k.c.maxResponseBytes) w').map .inr id := by
  unfold enter beforeArrays
  split_ifs
  · exact .inl ⟨rfl, _, _, rfl⟩
  · rcases (requestValidate k.Y k.H k.req).exec w.env with ⟨v, env⟩
    cases v with
    | error st => exact .inl ⟨rfl, _, _, rfl⟩
    | ok _ =>
        dsimp only
        unfold resultCreate
        split_ifs
        · exact .inr ⟨_, rfl, rfl⟩
        · exact .inl ⟨rfl, _, _, rfl⟩

omit [SizeT] in
/-- An array is there exactly if it was granted. -/
theorem calloced_isSome {α : Type} (n : Nat) (granted : Bool) (zero : α) :
    (calloced n granted zero).isSome = granted := by
  cases granted <;> rfl

omit [SizeT] in
/-- What {lit}`calloc` granted has a place for every backend, and no backend has headers yet. -/
theorem calloced_sized (n : Nat) (bodies bodyLens headers nHeaders : Bool) :
    Arrays.Sized
      { bodies := calloced n bodies none
        bodyLens := calloced n bodyLens 0
        headers := calloced n headers none
        nHeaders := calloced n nHeaders 0 } n := by
  have hlength : ∀ {α : Type} {granted : Bool} {zero : α} {xs : List α},
      calloced n granted zero = some xs → xs = List.replicate n zero := by
    intro α granted zero xs h
    cases granted with
    | false => cases h
    | true => exact (Option.some.inj h).symm
  refine ⟨?_, ?_, ?_, ?_⟩
  · rintro xs h
    rw [hlength h, List.length_replicate]
  · rintro xs h
    rw [hlength h, List.length_replicate]
  · rintro ns h
    rw [hlength h, List.length_replicate]
  · rintro xs ns i hs count h - hx -
    rw [hlength h] at hx
    cases (List.mem_replicate.mp (List.mem_of_getElem? hx)).2

/-- What a call that has requested its arrays brings to the common exit. -/
structure Brings (g : Grants) (x : AtDone σ) : Prop where
  sized : x.arrays.Sized k.c.backends.length
  headers : x.arrays.headers.isSome = g.headers
  nHeaders : x.arrays.nHeaders.isSome = g.nHeaders
  refused : g.all = false → x.final = .nomem ∧ x.r = resultInit k.c.maxResponseBytes

/-- A call returns before it requests its arrays, or it comes to the common exit: with what
{lit}`calloc` granted if that is not all, and else out of its loop. -/
theorem body_arrays (ordinal : UInt32) (w : World σ) :
    (k.beforeArrays w = none ∧ ∃ st w', k.body ordinal w = .inl (.returned st none w')) ∨
      ∃ w' x, k.beforeArrays w = some w' ∧ k.body ordinal w = .inr x ∧
        k.Brings (k.grants w') x := by
  unfold body
  rcases @enter_arrays _ _ k ordinal w with ⟨hnone, st, w', henter⟩ | ⟨w', hsome, henter⟩
  · rw [henter]
    exact .inl ⟨hnone, st, w', rfl⟩
  · rw [henter]
    refine .inr ⟨w', ?_⟩
    unfold arrays
    dsimp only
    split_ifs with hall
    · have hgrants : (k.grants w').all = true := hall
      have hboth := hall
      simp only [Bool.and_eq_true] at hboth
      refine ⟨_, hsome, rfl, atDone_sized (loop_sized ordinal _ _), hboth.1.2.symm, hboth.2.symm, ?_⟩
      rw [hgrants]
      nofun
    · exact ⟨_, hsome, rfl, calloced_sized _ _ _ _ _, calloced_isSome _ _ _, calloced_isSome _ _ _,
        fun _ => ⟨rfl, rfl⟩⟩

/-- Headers without their counts: the common exit reads through NULL. -/
theorem Brings.faults {g : Grants} {x : AtDone σ} (h : k.Brings g x) (hheaders : g.headers = true)
    (hcounts : g.nHeaders = false) : k.done x = .fault x.world := by
  have hnull : x.arrays.nHeaders = none := by
    rw [← Option.not_isSome_iff_eq_none, h.nHeaders, hcounts]
    decide
  have hbackends := List.length_pos_iff.mpr k.c.backends_ne
  unfold done
  rw [cleanup_faults hbackends h.sized (h.headers.trans hheaders) hnull]

end Call

/-- A call ends with a defined status, and its cleanup reads a place of an array only if that array
was allocated; one of its four arrays refused, it returns {lit}`SICHA_E_NOMEM` with a result that
says so and holds no records. -/
structure CleanExit (passed : Option (Call σ)) (ordinal : UInt32) (w : World σ)
    (e : Call.ChatEnd σ) : Prop where
  returns : ∃ st out w', e = .returned st out w'
  reads : ∀ k x, passed = some k → k.body ordinal w = .inr x →
    x.arrays.ReadsAllocated (k.exitActs x)
  refused : ∀ k w', passed = some k → k.beforeArrays w = some w' → (k.grants w').all = false →
    ∃ r w'', e = .returned .nomem (some r) w'' ∧ r.status = .nomem ∧ r.attempts = []

/-- A call exits cleanly exactly if the counts are granted whenever the headers are. -/
theorem Call.run_cleanup (k : Call σ) (ordinal : UInt32) (w : World σ) :
    CleanExit (some k) ordinal w (k.run ordinal w) ↔ ∀ w', k.beforeArrays w = some w' →
      (k.grants w').headers = true → (k.grants w').nHeaders = true := by
  unfold run
  rcases @body_arrays _ _ k ordinal w with ⟨hnone, st, w', hbody⟩ | ⟨w', x, hsome, hbody, hbrings⟩
  · rw [hbody, hnone]
    refine ⟨fun _ w' h => (by cases h), fun _ => ⟨⟨_, _, _, rfl⟩, ?_, ?_⟩⟩
    · rintro _ x ⟨⟩ h
      rw [hbody] at h
      cases h
    · rintro _ w' ⟨⟩ h
      rw [hnone] at h
      cases h
  · rw [hbody, hsome]
    constructor
    · rintro ⟨⟨st, out, w1, hreturned⟩, -, -⟩ _ ⟨⟩ hheaders
      by_contra hcounts
      rw [close, hbrings.faults hheaders (by simpa using hcounts)] at hreturned
      cases hreturned
    · intro hcounts
      have hpaired : x.arrays.headers.isSome = true → x.arrays.nHeaders.isSome = true := by
        rw [hbrings.headers, hbrings.nHeaders]
        exact hcounts w' rfl
      obtain ⟨hdone, hreads⟩ := done_safe hbrings.sized hpaired
      rw [close, hdone]
      refine ⟨⟨_, _, _, rfl⟩, ?_, ?_⟩
      · rintro _ x' ⟨⟩ h
        rw [hbody] at h
        cases h
        exact hreads
      · rintro _ w1 ⟨⟩ h hrefused
        rw [hsome] at h
        cases h
        obtain ⟨hfinal, hr⟩ := hbrings.refused hrefused
        rw [hfinal, hr]
        exact ⟨_, _, rfl, rfl, rfl⟩

/-- A call ends with a defined status, its cleanup reads no array that was not allocated, and a
refused array makes it return {lit}`SICHA_E_NOMEM` with an empty result, if and only if the counts
of the headers are allocated whenever the headers are. -/
theorem chat_cleanup (Y : Yyjson) (H : Heap σ) (c : Option (Client σ)) (req : Option Request)
    (cbs : Option (Callbacks σ)) (cancel : Option (CancelToken σ)) (haveOut stream : Bool)
    (ordinal : UInt32) (w : World σ) :
    CleanExit (Call.passed Y H c req cbs cancel haveOut stream) ordinal w
        (chatCommon Y H c req cbs cancel haveOut stream ordinal w) ↔
      ∀ k, Call.passed Y H c req cbs cancel haveOut stream = some k →
        ∀ w', k.beforeArrays w = some w' →
          (k.grants w').headers = true → (k.grants w').nHeaders = true := by
  rcases chatCommon_passed Y H c req cbs cancel haveOut stream ordinal w with
    ⟨hpassed, hend⟩ | ⟨k, hpassed, -, hend⟩
  · rw [hpassed, hend]
    exact ⟨fun _ _ hk => (by cases hk), fun _ =>
      ⟨⟨_, _, _, rfl⟩, fun _ _ hk => (by cases hk), fun _ _ hk => (by cases hk)⟩⟩
  · rw [hpassed, hend, k.run_cleanup]
    constructor
    · rintro h _ ⟨⟩
      exact h
    · intro h
      exact h k rfl

end Runs

section Plain

attribute [local instance] lp64

/-- The first request of a plain call is for the result, the next four are for the
arrays. -/
theorem chat_cleanup_fault :
    ¬ CleanExit (Call.passed (plainYyjson [] .null) (refusingAt 4)
        (some (plainClient 0 1048576 (by decide) busyTransport)) (some plainRequest) none none true
        false) 0 ⟨0, []⟩
      (chatCommon (plainYyjson [] .null) (refusingAt 4)
        (some (plainClient 0 1048576 (by decide) busyTransport)) (some plainRequest) none none true
        false 0 ⟨0, []⟩) := by
  rintro ⟨⟨st, out, w', hend⟩, -, -⟩
  have hstatus : (chatCommon (plainYyjson [] .null) (refusingAt 4)
      (some (plainClient 0 1048576 (by decide) busyTransport)) (some plainRequest) none none true
      false 0 ⟨0, []⟩).status = none := by decide +kernel
  rw [hend] at hstatus
  cases hstatus

end Plain

end Sicha
