import Sicha.Client.Step

/-!
# The common exit of a call

What {lit}`chat_common` does at {lit}`done`: a loop that releases the bodies, a loop that releases
the headers, each under a guard of its own, and the release of the four arrays.  An array whose
{lit}`calloc` was refused is NULL, and to read a place of it is a fault.

The second loop is guarded by {lit}`headers` alone, and reads {lit}`n_headers` as well.

Main results:

- Definition {lit}`Arrays.cleanup`: the reads and the releases of the common exit.
- Theorem {lit}`cleanup_safe`: when the cleanup runs through, reading only what is allocated.
- Theorem {lit}`cleanup_faults`: when it reads through NULL.
-/

namespace Sicha

open Fallible

/-! ## The arrays and the cleanup -/

/-- The arrays of {lit}`chat_common`, of one place for each backend. -/
inductive ArrayName where
  | bodies
  | bodyLens
  | headers
  | nHeaders
deriving DecidableEq

/-- What the arrays hold when {lit}`done` is reached.  An array is {lit}`none` if it is NULL. -/
structure Arrays where
  bodies : Option (List (Option Bytes))
  bodyLens : Option (List Nat)
  headers : Option (List (Option (List Header)))
  nHeaders : Option (List Nat)

/-- The array is not NULL. -/
def Arrays.allocated (a : Arrays) : ArrayName → Bool
  | .bodies => a.bodies.isSome
  | .bodyLens => a.bodyLens.isSome
  | .headers => a.headers.isSome
  | .nHeaders => a.nHeaders.isSome

/-- What the common exit does. -/
inductive ExitAct where
  /-- a place of an array is read -/
  | read (array : ArrayName) (i : Nat)
  | freeBody (body : Option Bytes)
  /-- the two strings of a header are released -/
  | freeHeader (h : Header)
  | freeHeaders (hs : List Header)
  | freeArray (array : ArrayName)
deriving DecidableEq

/-- A computation that logs what it does, and may fault. -/
abbrev AtExit (α : Type) := Fallible Unit (List ExitAct) α

/-- Log an act. -/
def doAct (act : ExitAct) : AtExit Unit :=
  total fun acts => ((), acts ++ [act])

/-- What a place of an array holds: a fault if the array is NULL, or ends before that place. -/
def place {α : Type} (array : Option (List α)) (i : Nat) : AtExit α :=
  match array.bind fun xs => xs[i]? with
  | some a => pure a
  | none => throw ()

/-- The read of a place of a named array. -/
def readPlace {α : Type} (name : ArrayName) (array : Option (List α)) (i : Nat) : AtExit α := do
  doAct (.read name i)
  place array i

/-- {lit}`sicha_headers_free`. -/
def headersFree (h : Option (List Header)) (n : Nat) : AtExit Unit :=
  match h with
  | none => pure ()
  | some hs => do
      forEach (fun j => do
        let h ← place (some hs) j
        doAct (.freeHeader h)) (List.range n)
      doAct (.freeHeaders hs)

/-- The first loop of the cleanup. -/
def Arrays.freeBodies (a : Arrays) (n : Nat) : AtExit Unit :=
  if a.bodies.isSome then
    forEach (fun i => do
      let body ← readPlace .bodies a.bodies i
      doAct (.freeBody body)) (List.range n)
  else pure ()

/-- The second loop of the cleanup: its guard does not look at {lit}`n_headers`. -/
def Arrays.freeHeaders (a : Arrays) (n : Nat) : AtExit Unit :=
  if a.headers.isSome then
    forEach (fun i => do
      let h ← readPlace .headers a.headers i
      let count ← readPlace .nHeaders a.nHeaders i
      headersFree h count) (List.range n)
  else pure ()

/-- The cleanup of {lit}`chat_common`, of a chain of {lit}`n` backends. -/
def Arrays.cleanup (a : Arrays) (n : Nat) : AtExit Unit := do
  a.freeBodies n
  a.freeHeaders n
  doAct (.freeArray .bodies)
  doAct (.freeArray .bodyLens)
  doAct (.freeArray .headers)
  doAct (.freeArray .nHeaders)

/-! ## When the cleanup runs through -/

/-- An array that is allocated has a place for every backend, and the count beside a backend's
headers does not go past them. -/
structure Arrays.Sized (a : Arrays) (n : Nat) : Prop where
  bodies : ∀ xs, a.bodies = some xs → xs.length = n
  headers : ∀ xs, a.headers = some xs → xs.length = n
  nHeaders : ∀ ns, a.nHeaders = some ns → ns.length = n
  counts : ∀ (xs : List (Option (List Header))) (ns : List Nat) (i : Nat) (hs : List Header)
    (count : Nat), a.headers = some xs → a.nHeaders = some ns → xs[i]? = some (some hs) →
      ns[i]? = some count → count ≤ hs.length

/-- Every place that was read is one of an allocated array. -/
def Arrays.ReadsAllocated (a : Arrays) (acts : List ExitAct) : Prop :=
  ∀ name i, ExitAct.read name i ∈ acts → a.allocated name = true

/-- Nothing faults. -/
def NoFault (_ : Unit) : Prop := False

/-- A place that is there is read. -/
theorem place_some {α : Type} {xs : List α} {i : Nat} {x : α} (h : xs[i]? = some x) :
    place (some xs) i = pure x := by
  simp only [place, Option.bind_some, h]

variable {a : Arrays}

/-- An act that reads nothing, or a place of an allocated array. -/
theorem doAct_keeps {act : ExitAct}
    (h : ∀ name i, act = .read name i → a.allocated name = true) :
    Keeps a.ReadsAllocated NoFault (doAct act) := by
  refine keeps_total fun acts hacts name i hread => ?_
  rcases List.mem_append.mp hread with hread | hread
  · exact hacts name i hread
  · exact h name i (List.mem_singleton.mp hread).symm

/-- A place of an allocated array is read, and what it holds goes on. -/
theorem readPlace_keeps {α β : Type} {name : ArrayName} {xs : List α} {i : Nat} {x : α}
    {f : α → AtExit β} (hname : a.allocated name = true) (hx : xs[i]? = some x)
    (hf : Keeps a.ReadsAllocated NoFault (f x)) :
    Keeps a.ReadsAllocated NoFault (readPlace name (some xs) i >>= f) := by
  have hread : readPlace name (some xs) i >>= f = doAct (.read name i) >>= fun _ => f x := by
    rw [readPlace, place_some hx, bind_assoc]
    simp only [pure_bind]
  rw [hread]
  refine keeps_bind (doAct_keeps ?_) fun _ => hf
  rintro _ _ ⟨⟩
  exact hname

/-- The headers of a place are released if the count does not go past them. -/
theorem headersFree_keeps {h : Option (List Header)} {n : Nat}
    (hn : ∀ hs, h = some hs → n ≤ hs.length) :
    Keeps a.ReadsAllocated NoFault (headersFree h n) := by
  cases h with
  | none => exact keeps_pure ()
  | some hs =>
      refine keeps_bind (keeps_forEach fun j hj => ?_) fun _ => doAct_keeps (by simp)
      have hlt : j < hs.length := (List.mem_range.mp hj).trans_le (hn hs rfl)
      rw [place_some (List.getElem?_eq_getElem hlt), pure_bind]
      exact doAct_keeps (by simp)

/-- The first loop reads only what is allocated. -/
theorem freeBodies_keeps {n : Nat} (hsized : a.Sized n) :
    Keeps a.ReadsAllocated NoFault (a.freeBodies n) := by
  unfold Arrays.freeBodies
  split_ifs with hbodies
  · obtain ⟨xs, hxs⟩ := Option.isSome_iff_exists.mp hbodies
    refine keeps_forEach fun i hi => ?_
    have hlt : i < xs.length := by
      rw [hsized.bodies xs hxs]
      exact List.mem_range.mp hi
    rw [hxs]
    exact readPlace_keeps hbodies (List.getElem?_eq_getElem hlt) (doAct_keeps (by simp))
  · exact keeps_pure ()

/-- So does the second one, if the counts are allocated whenever the headers are. -/
theorem freeHeaders_keeps {n : Nat} (hsized : a.Sized n)
    (hcounts : a.headers.isSome = true → a.nHeaders.isSome = true) :
    Keeps a.ReadsAllocated NoFault (a.freeHeaders n) := by
  unfold Arrays.freeHeaders
  split_ifs with hheaders
  · obtain ⟨xs, hxs⟩ := Option.isSome_iff_exists.mp hheaders
    obtain ⟨ns, hns⟩ := Option.isSome_iff_exists.mp (hcounts hheaders)
    refine keeps_forEach fun i hi => ?_
    have hx : i < xs.length := by
      rw [hsized.headers xs hxs]
      exact List.mem_range.mp hi
    have hn : i < ns.length := by
      rw [hsized.nHeaders ns hns]
      exact List.mem_range.mp hi
    rw [hxs, hns]
    refine readPlace_keeps hheaders (List.getElem?_eq_getElem hx) ?_
    refine readPlace_keeps (hcounts hheaders) (List.getElem?_eq_getElem hn) ?_
    refine headersFree_keeps fun hs hhs => ?_
    refine hsized.counts xs ns i hs _ hxs hns ?_ (List.getElem?_eq_getElem hn)
    rw [List.getElem?_eq_getElem hx, hhs]
  · exact keeps_pure ()

/-- If the counts are allocated whenever the headers are, the cleanup runs through, and reads only
arrays that are allocated. -/
theorem cleanup_safe {n : Nat} (hsized : a.Sized n)
    (hcounts : a.headers.isSome = true → a.nHeaders.isSome = true) :
    ∃ acts, (a.cleanup n).exec [] = (.ok (), acts) ∧ a.ReadsAllocated acts := by
  have hkeeps : Keeps a.ReadsAllocated NoFault (a.cleanup n) :=
    keeps_bind (freeBodies_keeps hsized) fun _ =>
      keeps_bind (freeHeaders_keeps hsized hcounts) fun _ =>
        keeps_bind (doAct_keeps (by simp)) fun _ => keeps_bind (doAct_keeps (by simp)) fun _ =>
          keeps_bind (doAct_keeps (by simp)) fun _ => doAct_keeps (by simp)
  obtain ⟨_, acts, hrun, hreads⟩ := Keeps.ends hkeeps (s := []) (fun _ _ h => nomatch h)
  exact ⟨acts, hrun, hreads⟩

/-- Headers without their counts: the first turn of the second loop reads through NULL. -/
theorem cleanup_faults {n : Nat} (hn : 0 < n) (hsized : a.Sized n)
    (hheaders : a.headers.isSome = true) (hcounts : a.nHeaders = none) :
    ((a.cleanup n).exec []).1 = .error () := by
  obtain ⟨xs, hxs⟩ := Option.isSome_iff_exists.mp hheaders
  obtain ⟨_, acts, hbodies, -⟩ :=
    Keeps.ends (freeBodies_keeps hsized) (s := []) (fun _ _ h => nomatch h)
  have hx : 0 < xs.length := by
    rw [hsized.headers xs hxs]
    exact hn
  obtain ⟨m, rfl⟩ := Nat.exists_eq_succ_of_ne_zero hn.ne'
  have hloop : Fails () (a.freeHeaders (m + 1)) acts := by
    unfold Arrays.freeHeaders
    rw [if_pos hheaders, List.range_succ_eq_map]
    refine fails_bind.mpr (.inl (fails_bind.mpr (.inr ?_)))
    refine ⟨xs[0], acts ++ [.read .headers 0], ?_, fails_bind.mpr (.inl ?_)⟩
    · rw [hxs, readPlace, place_some (List.getElem?_eq_getElem hx)]
      rfl
    · rw [hcounts]
      rfl
  exact fails_bind.mpr (.inr ⟨_, acts, hbodies, fails_bind.mpr (.inl hloop)⟩)

end Sicha
