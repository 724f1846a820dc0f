import Mathlib.Algebra.BigOperators.Group.Finset.Basic
import Sicha.Client.Run
import Sicha.Lib.Tour

/-!
# The shape of every run

The records of a call are a tour through the chain of backends, with the retries and the
re-rolls of the policy as its budgets.

Main results:

- Theorem {lit}`turn_tour`: every turn extends the tour by its record.
- Theorem {lit}`chat_shape`: the shape of the records, and what the status says about
  them.
-/

namespace Sicha

section Runs

variable [SizeT] {σ : Type}

/-! ## Records as visits -/

/-- The tour of a call: {lit}`NONE`, {lit}`ABORT` and {lit}`CANCELLED` are final, a
backend grants a wait between two tries and the re-rolls of the policy. -/
def Client.rules (c : Client σ) : TourRules ErrorClass where
  final cls := cls = .none ∨ cls = .abort ∨ cls = .cancelled
  budget
    | .retrySame => c.policy.maxTries.toNat - 1
    | .validation => c.policy.validationRetries.toNat
    | _ => 0

/-- A record reports a visit; its numbers wrap at 2^32. -/
structure Reports (a : Attempt) (v : Visit ErrorClass) : Prop where
  attempt : a.attempt = UInt32.ofNat v.index
  backend : a.backend = UInt32.ofNat v.place
  tryOfBackend : a.tryOfBackend = UInt32.ofNat v.nth
  errorClass : a.errorClass = v.kind

/-- The backend of the last visit, as the result stores it. -/
def lastPlace (vs : List (Visit ErrorClass)) : Int32 :=
  match vs.getLast? with
  | some v => Int32.ofNat v.place
  | none => -1

namespace Call

variable (k : Call σ)

/-- The state of the engine before an attempt, seen as a tour. -/
structure OnTour (s : LoopState k.c) (vs : List (Visit ErrorClass)) (kinds : List ErrorClass) :
    Prop where
  tour : Tour k.c.rules vs s.i.val kinds
  retrySame : s.retrySameUsed = kinds.count .retrySame
  validation : s.validationUsed = kinds.count .validation
  tries : s.tryOfBackend = UInt32.ofNat kinds.length
  ordinal : s.attemptOrdinal = UInt32.ofNat vs.length
  records : List.Forall₂ Reports s.r.attempts vs
  backend : s.r.backend = lastPlace vs
  final : s.final = .exhausted

/-- How a run ends, seen as a tour. -/
structure OffTour (f : LoopState k.c) (vs : List (Visit ErrorClass)) : Prop where
  tour : Ended k.c.rules vs
  records : List.Forall₂ Reports f.r.attempts vs
  backend : f.r.backend = lastPlace vs
  ok : f.final = .ok ↔ ∃ v, vs.getLast? = some v ∧ v.kind = .none
  aborted : f.final = .aborted ↔ ∃ v, vs.getLast? = some v ∧ v.kind = .abort
  exhausted : f.final = .exhausted → Tour k.c.rules vs k.c.backends.length []

/-! ## One turn -/

variable {k}

/-- A turn that records nothing ends the tour where it stands. -/
theorem OnTour.off {s f : LoopState k.c} {vs : List (Visit ErrorClass)} {kinds : List ErrorClass}
    (h : k.OnTour s vs kinds) (hr : f.r = s.r) (hok : f.final ≠ .ok) (haborted : f.final ≠ .aborted)
    (hexhausted : f.final ≠ .exhausted) : k.OffTour f vs := by
  have hlast : ∀ v, vs.getLast? = some v → ¬ k.c.rules.final v.kind := by
    intro v hv
    exact h.tour.not_final v (List.mem_of_getLast? hv)
  refine ⟨.still h.tour, by rw [hr]; exact h.records, by rw [hr]; exact h.backend, ?_, ?_,
    fun he => absurd he hexhausted⟩
  · refine ⟨fun he => absurd he hok, ?_⟩
    rintro ⟨v, hv, hkind⟩
    exact absurd (.inl hkind) (hlast v hv)
  · refine ⟨fun he => absurd he haborted, ?_⟩
    rintro ⟨v, hv, hkind⟩
    exact absurd (.inr (.inl hkind)) (hlast v hv)

/-- What a recorded attempt adds to the tour. -/
structure Extended (s2 : LoopState k.c) (vs : List (Visit ErrorClass)) (place : Nat)
    (kinds : List ErrorClass) (cls : ErrorClass) : Prop where
  tries : s2.tryOfBackend = UInt32.ofNat (kinds ++ [cls]).length
  ordinal : s2.attemptOrdinal = UInt32.ofNat (vs ++ [Visit.next vs place kinds cls]).length
  records : List.Forall₂ Reports s2.r.attempts (vs ++ [Visit.next vs place kinds cls])
  backend : s2.r.backend = lastPlace (vs ++ [Visit.next vs place kinds cls])

/-- One more attempt extends the tour. -/
theorem OnTour.extend {s s1 s2 : LoopState k.c} {rq : HttpRequest}
    {vs : List (Visit ErrorClass)} {kinds : List ErrorClass} (h : k.OnTour s vs kinds)
    (htook : k.Took s rq s1 s2) : Extended s2 vs s.i.val kinds (k.judged s1 rq).cls where
  tries := by
    rw [htook.tryOfBackend, h.tries, List.length_append]
    exact (UInt32.ofNat_add _ _).symm
  ordinal := by
    rw [htook.attemptOrdinal, h.ordinal, List.length_append]
    exact (UInt32.ofNat_add _ _).symm
  records := by
    rw [htook.attempts]
    refine List.rel_append h.records (.cons ?_ .nil)
    exact ⟨by rw [htook.entryOrdinal, h.ordinal]; rfl, htook.entryBackend,
      by rw [htook.entryTry, h.tries]; rfl, htook.entryClass⟩
  backend := by
    rw [htook.backend, lastPlace, List.getLast?_concat]
    rfl

/-- A recorded attempt that ends the run. -/
theorem Extended.off {s2 f : LoopState k.c} {vs : List (Visit ErrorClass)} {place : Nat}
    {kinds : List ErrorClass} {cls : ErrorClass} (h : Extended s2 vs place kinds cls)
    (htour : Tour k.c.rules vs place kinds) (hr : f.r = s2.r)
    (hok : f.final = .ok ↔ cls = .none) (haborted : f.final = .aborted ↔ cls = .abort)
    (hexhausted : f.final ≠ .exhausted) :
    k.OffTour f (vs ++ [Visit.next vs place kinds cls]) := by
  refine ⟨.last htour cls, by rw [hr]; exact h.records, by rw [hr]; exact h.backend, ?_, ?_,
    fun he => absurd he hexhausted⟩
  · rw [hok, List.getLast?_concat]
    simp [Visit.next]
  · rw [haborted, List.getLast?_concat]
    simp [Visit.next]

/-- A class that leaves a backend has used up its budget there. -/
theorem leaves_budget {s s2 : LoopState k.c} {vs : List (Visit ErrorClass)}
    {kinds : List ErrorClass} {cls : ErrorClass} (h : k.OnTour s vs kinds)
    (hretry : s2.retrySameUsed = s.retrySameUsed) (hvalid : s2.validationUsed = s.validationUsed)
    (hleaves : k.Leaves cls s2) :
    ¬ k.c.rules.final cls ∧ k.c.rules.budget cls ≤ kinds.count cls := by
  have hretrySame := h.retrySame
  have hvalidation := h.validation
  rcases hleaves with rfl | ⟨rfl, hused⟩ | ⟨rfl, hused⟩
  · exact ⟨by simp [Client.rules], Nat.zero_le _⟩
  · refine ⟨by simp [Client.rules], ?_⟩
    change k.c.policy.maxTries.toNat - 1 ≤ _
    omega
  · refine ⟨by simp [Client.rules], ?_⟩
    change k.c.policy.validationRetries.toNat ≤ _
    omega

variable (k)

/-- Every turn extends the tour by its record, if it makes one. -/
theorem turn_tour (hH : k.H.Reliable) (s : LoopState k.c) (out : LoopState k.c ⊕ LoopState k.c)
    (hs : ∃ vs kinds, k.OnTour s vs kinds) (hturn : k.Turn s out) :
    Sum.elim (fun s => ∃ vs kinds, k.OnTour s vs kinds) (fun f => ∃ vs, k.OffTour f vs) out := by
  obtain ⟨vs, kinds, hs⟩ := hs
  cases hturn with
  | cancelled _ => exact ⟨vs, hs.off rfl (by simp) (by simp) (by simp)⟩
  | unprepared _ hprep =>
      have hsame := k.prepared_unchanged hprep
      refine ⟨vs, ?_⟩
      rcases k.prepare_refusal hprep with _ | _ <;>
        exact hs.off hsame.r (by simp) (by simp) (by simp)
  | unrecorded _ hprep hadd => exact absurd hH (k.unrecorded_spec hprep hadd).heap
  | @terminal rq s1 _ hprep hadd hfinal =>
      have htook := took hprep hadd
      generalize k.announced s1 rq = s2 at htook hfinal
      have hcls := htook.terminal_cls k hs.final hfinal
      refine ⟨_, (hs.extend htook).off hs.tour rfl ?_ ?_ ?_⟩ <;> simp [hfinal, hcls]
  | @next rq s1 _ _ hprep hadd hfinal hnext =>
      have htook := took hprep hadd
      generalize k.announced s1 rq = s2 at htook hfinal hnext
      have hext := hs.extend htook
      have hexhausted := (htook.final_eq hfinal).trans hs.final
      have hretry := htook.retrySameUsed
      have hvalid := htook.validationUsed
      generalize (k.judged s1 rq).cls = cls at hext hnext
      cases hnext with
      | success hcls => exact ⟨_, hext.off hs.tour rfl (by simp [hcls]) (by simp [hcls]) (by simp)⟩
      | abort hcls => exact ⟨_, hext.off hs.tour rfl (by simp [hcls]) (by simp [hcls]) (by simp)⟩
      | cancelled hcls =>
          exact ⟨_, hext.off hs.tour rfl (by simp [hcls]) (by simp [hcls]) (by simp)⟩
      | lost hcls _ =>
          refine ⟨_, hext.off hs.tour rfl ?_ ?_ (by simp)⟩ <;>
            rcases hcls with hcls | hcls | hcls <;> simp [hcls]
      | interrupted hcls _ _ _ =>
          exact ⟨_, hext.off hs.tour rfl (by simp [hcls]) (by simp [hcls]) (by simp)⟩
      | reroll hcls _ hlt =>
          subst hcls
          rw [hvalid, hs.validation] at hlt
          refine ⟨_, kinds ++ [ErrorClass.validation], ⟨?_, ?_, ?_, hext.tries, hext.ordinal, hext.records,
            hext.backend, hexhausted⟩⟩
          · change Tour _ _ s2.i.val _
            rw [htook.i]
            exact hs.tour.stay (by simp [Client.rules]) hlt
          · simp [hretry, hs.retrySame, List.count_append]
          · simp [hvalid, hs.validation, List.count_append]
      | retry hcls _ hlt _ =>
          subst hcls
          rw [hretry, hs.retrySame] at hlt
          refine ⟨_, kinds ++ [ErrorClass.retrySame], ⟨?_, ?_, ?_, hext.tries, hext.ordinal, hext.records,
            hext.backend, hexhausted⟩⟩
          · change Tour _ _ s2.i.val _
            rw [htook.i]
            refine hs.tour.stay (by simp [Client.rules]) ?_
            change _ < k.c.policy.maxTries.toNat - 1
            omega
          · simp [waited, hretry, hs.retrySame, List.count_append]
          · simp [waited, hvalid, hs.validation, List.count_append]
      | fallback hleaves _ hmore =>
          obtain ⟨hfinal, hbudget⟩ := leaves_budget hs hretry hvalid hleaves
          refine ⟨_, [], ⟨?_, rfl, rfl, rfl, hext.ordinal, hext.records, hext.backend,
            hexhausted⟩⟩
          change Tour _ _ (s2.i.val + 1) _
          rw [htook.i]
          exact hs.tour.leave hfinal hbudget
      | exhausted hleaves _ hlast used =>
          obtain ⟨hfinal, hbudget⟩ := leaves_budget hs hretry hvalid hleaves
          have htour := hs.tour.leave hfinal hbudget
          rw [← htook.i, hlast] at htour
          rw [← htook.i] at hext
          have hnone : ¬ cls = .none := fun h => hfinal (.inl h)
          have habort : ¬ cls = .abort := fun h => hfinal (.inr (.inl h))
          refine ⟨_, .still htour, hext.records, hext.backend, ?_, ?_, fun _ => htour⟩ <;>
            rw [List.getLast?_concat] <;> simp [hexhausted, Visit.next, hnone, habort]

end Call

/-! ## Whole calls -/

/-- The visit a record reports. -/
def Attempt.visit (a : Attempt) : Visit ErrorClass :=
  ⟨a.attempt.toNat, a.backend.toNat, a.tryOfBackend.toNat, a.errorClass⟩

/-- The number of records of a class on a backend. -/
def recordsOf (records : List Attempt) (backend : UInt32) (cls : ErrorClass) : Nat :=
  records.countP fun a => a.backend = backend ∧ a.errorClass = cls

/-- A record that moves the chain on: an advance, the last retry the policy grants, or the
rejection behind the last re-roll. -/
def MovesOn (c : Client σ) (before : List Attempt) (a : Attempt) : Prop :=
  a.errorClass = .advance ∨
    (a.errorClass = .retrySame ∧
      recordsOf (before ++ [a]) a.backend .retrySame = c.policy.maxTries.toNat) ∨
    (a.errorClass = .validation ∧
      recordsOf (before ++ [a]) a.backend .validation = c.policy.validationRetries.toNat + 1)

/-- The shape of a run. -/
structure RunShape (c : Client σ) (e : Call.ChatEnd σ) : Prop where
  returns : ∃ st, e.status = some st
  ordinal : ∀ front a back, e.records = front ++ a :: back → a.attempt.toNat = front.length
  first : ∀ a back, e.records = a :: back → a.backend = 0
  tries : ∀ front a back, e.records = front ++ a :: back →
    a.tryOfBackend.toNat = front.countP fun b => b.backend = a.backend
  /-- the chain stays, or it goes on to the next backend behind a record that moves it on -/
  steps : ∀ front a b back, e.records = front ++ a :: b :: back →
    b.backend = a.backend ∨
      (b.backend.toNat = a.backend.toNat + 1 ∧ MovesOn c front a)
  /-- a final class occurs only last -/
  final : ∀ front a b back, e.records = front ++ a :: b :: back →
    a.errorClass ≠ .none ∧ a.errorClass ≠ .abort ∧ a.errorClass ≠ .cancelled
  retrySame : ∀ backend, recordsOf e.records backend .retrySame ≤ c.policy.maxTries.toNat
  validation : ∀ backend,
    recordsOf e.records backend .validation ≤ c.policy.validationRetries.toNat + 1
  total : ∀ backend, (e.records.countP fun a => a.backend = backend) ≤
    c.policy.maxTries.toNat + c.policy.validationRetries.toNat
  ok : e.status = some .ok ↔ ∃ a, e.records.getLast? = some a ∧ a.errorClass = .none
  aborted : e.status = some .aborted ↔ ∃ a, e.records.getLast? = some a ∧ a.errorClass = .abort
  /-- every backend has a record, and the last record moved the chain on from the last one -/
  exhausted : e.status = some .exhausted →
    (∀ i < c.backends.length, ∃ a ∈ e.records, a.backend.toNat = i) ∧
      ∃ front a, e.records = front ++ [a] ∧ a.backend.toNat + 1 = c.backends.length ∧
        MovesOn c front a
  backend : e.backend = match e.records.getLast? with
    | some a => a.backend.toInt32
    | none => -1

omit [SizeT] in
/-- The records show the visits that they report. -/
theorem reports_visit {records : List Attempt} {vs : List (Visit ErrorClass)}
    (h : List.Forall₂ Reports records vs)
    (hfits : ∀ v ∈ vs, v.index < 2 ^ 32 ∧ v.place < 2 ^ 32 ∧ v.nth < 2 ^ 32) :
    records.map Attempt.visit = vs := by
  induction h with
  | nil => rfl
  | @cons a v records vs hav _ ih =>
      rcases hfits v (List.mem_cons_self ..) with ⟨hindex, hplace, hnth⟩
      rw [List.map_cons, ih fun v hv => hfits v (List.mem_cons_of_mem _ hv)]
      have hone : a.visit = v := by
        simp only [Attempt.visit, hav.attempt, hav.backend, hav.tryOfBackend, hav.errorClass,
          UInt32.toNat_ofNat_of_lt' hindex, UInt32.toNat_ofNat_of_lt' hplace,
          UInt32.toNat_ofNat_of_lt' hnth]
      rw [hone]

omit [SizeT] in
/-- The visits of a place are the records of a backend. -/
theorem placeCount_visits (records : List Attempt) (backend : UInt32) :
    placeCount (records.map Attempt.visit) backend.toNat =
      records.countP fun a => a.backend = backend := by
  rw [placeCount, List.countP_map]
  congr 1
  funext a
  simp [Attempt.visit, UInt32.toNat_inj]

omit [SizeT] in
/-- The visits of a kind are the records of a class. -/
theorem kindCount_visits (records : List Attempt) (backend : UInt32) (cls : ErrorClass) :
    kindCount (records.map Attempt.visit) backend.toNat cls = recordsOf records backend cls := by
  rw [kindCount, recordsOf, List.countP_map]
  congr 1
  funext a
  refine decide_eq_decide.mpr ?_
  simp [Attempt.visit, UInt32.toNat_inj]

omit [SizeT] in
/-- A place that is spent is one that the chain moves on from. -/
theorem spent_movesOn {c : Client σ} {front : List Attempt} {a : Attempt}
    (h : Spent c.rules (front.map Attempt.visit) a.visit) : MovesOn c front a := by
  have hfinal := h.final
  have hcount := h.count
  rw [← List.map_singleton, ← List.map_append] at hcount
  change kindCount _ a.backend.toNat a.errorClass = c.rules.budget a.errorClass + 1 at hcount
  change ¬ c.rules.final a.errorClass at hfinal
  rw [kindCount_visits] at hcount
  have htries := c.maxTries_pos
  unfold MovesOn
  cases hcls : a.errorClass with
  | none => exact absurd (.inl hcls) hfinal
  | abort => exact absurd (.inr (.inl hcls)) hfinal
  | cancelled => exact absurd (.inr (.inr hcls)) hfinal
  | advance => exact .inl rfl
  | retrySame =>
      rw [hcls] at hcount
      refine .inr (.inl ⟨rfl, hcount.trans ?_⟩)
      change c.policy.maxTries.toNat - 1 + 1 = _
      omega
  | validation =>
      rw [hcls] at hcount
      exact .inr (.inr ⟨rfl, hcount⟩)

omit [SizeT] in
/-- A backend's number survives as a signed one. -/
theorem int32_ofNat_toNat (n : UInt32) : Int32.ofNat n.toNat = n.toInt32 := by
  apply Int32.toBitVec_inj.mp
  simp

/-- A run that was seen as a tour has the shape. -/
theorem Call.OffTour.shape {k : Call σ} {f : LoopState k.c} {vs : List (Visit ErrorClass)}
    (h : k.OffTour f vs) (hlt : f.r.attempts.length < 2 ^ 32) : RunShape k.c (k.handOut f) := by
  have hlength : f.r.attempts.length = vs.length := h.records.length_eq
  have hvs : f.r.attempts.map Attempt.visit = vs := by
    refine reports_visit h.records fun v hv => ?_
    have hbounds := h.tour.bounds v hv
    omega
  subst hvs
  have htour := h.tour
  have hrecords : (k.handOut f).records = f.r.attempts := rfl
  have hstatus : (k.handOut f).status = some f.final := rfl
  have hsplit : ∀ {front a back}, f.r.attempts = front ++ a :: back →
      f.r.attempts.map Attempt.visit =
        front.map Attempt.visit ++ a.visit :: back.map Attempt.visit := by
    intro front a back hr
    rw [hr, List.map_append, List.map_cons]
  have hsteps : ∀ {front a b back}, f.r.attempts = front ++ a :: b :: back →
      ¬ k.c.rules.final a.errorClass ∧ (b.backend = a.backend ∨
        (b.backend.toNat = a.backend.toNat + 1 ∧ MovesOn k.c front a)) := by
    intro front a b back hr
    rcases htour.steps (hsplit hr) with ⟨hfinal, hsame | ⟨hnext, hspent⟩⟩
    · exact ⟨hfinal, .inl (UInt32.toNat_inj.mp hsame)⟩
    · exact ⟨hfinal, .inr ⟨hnext, spent_movesOn hspent⟩⟩
  have hlast : ∀ cls, (∃ v, (f.r.attempts.map Attempt.visit).getLast? = some v ∧ v.kind = cls) ↔
      ∃ a, f.r.attempts.getLast? = some a ∧ a.errorClass = cls := by
    intro cls
    simp [List.getLast?_map, Attempt.visit]
  refine
    { returns := ⟨_, hstatus⟩
      ordinal := ?_, first := ?_, tries := ?_, steps := ?_, final := ?_, retrySame := ?_
      validation := ?_, total := ?_, ok := ?_, aborted := ?_, exhausted := ?_, backend := ?_ } <;>
    simp only [hrecords, hstatus, Option.some.injEq]
  · intro front a back hr
    have hindex := (htour.positions (hsplit hr)).1
    rw [List.length_map] at hindex
    exact hindex
  · intro a back hr
    exact UInt32.toNat_inj.mp (htour.head (@hsplit [] _ _ hr))
  · intro front a back hr
    rw [← placeCount_visits]
    exact (htour.positions (hsplit hr)).2
  · intro front a b back hr
    exact (hsteps hr).2
  · intro front a b back hr
    have hfinal := (hsteps hr).1
    exact ⟨fun hc => hfinal (.inl hc), fun hc => hfinal (.inr (.inl hc)),
      fun hc => hfinal (.inr (.inr hc))⟩
  · intro backend
    have hpos := k.c.maxTries_pos
    have hle := htour.kindCount_le backend.toNat .retrySame
    rw [kindCount_visits] at hle
    change _ ≤ k.c.policy.maxTries.toNat - 1 + 1 at hle
    omega
  · intro backend
    have hle := htour.kindCount_le backend.toNat .validation
    rw [kindCount_visits] at hle
    exact hle
  · intro backend
    have hpos := k.c.maxTries_pos
    have hscarce : ∀ kind ∉ ({.retrySame, .validation} : Finset ErrorClass),
        k.c.rules.budget kind = 0 := by
      intro kind hkind
      cases kind <;> first | rfl | simp at hkind
    have hle := htour.placeCount_le hscarce backend.toNat
    rw [placeCount_visits, Finset.sum_pair (by decide)] at hle
    change _ ≤ k.c.policy.maxTries.toNat - 1 + k.c.policy.validationRetries.toNat + 1 at hle
    omega
  · rw [h.ok, hlast]
  · rw [h.aborted, hlast]
  · intro hexhausted
    have hend := h.exhausted hexhausted
    constructor
    · intro i hi
      obtain ⟨v, hv, hplace⟩ := hend.covers i hi
      obtain ⟨a, ha, rfl⟩ := List.mem_map.mp hv
      exact ⟨a, ha, hplace⟩
    · rcases List.eq_nil_or_concat f.r.attempts with hnil | ⟨front, a, hr⟩
      · have hpos := List.length_pos_iff.mpr k.c.backends_ne
        rw [hnil] at hend
        have hzero : k.c.backends.length ≤ 0 := hend.place_le_length.1
        omega
      · rw [List.concat_eq_append] at hr
        rw [hr, List.map_append, List.map_singleton] at hend
        rcases hend.arrival with ⟨-, hkinds⟩ | ⟨hplace, -, hspent⟩
        · exact absurd rfl hkinds
        · exact ⟨front, a, hr, hplace.symm, spent_movesOn hspent⟩
  · have hbackend := h.backend
    rw [lastPlace, List.getLast?_map] at hbackend
    change f.r.backend = _
    rw [hbackend]
    cases f.r.attempts.getLast? with
    | none => rfl
    | some a =>
        exact int32_ofNat_toNat a.backend

/-- A refused call has no records. -/
theorem Refusal.shape {st : Status} (h : Refusal st) (c : Client σ) (w : World σ) :
    RunShape c (.returned st none w) where
  returns := ⟨st, rfl⟩
  ordinal := by simp [Call.ChatEnd.records, Call.ChatEnd.result]
  first := by simp [Call.ChatEnd.records, Call.ChatEnd.result]
  tries := by simp [Call.ChatEnd.records, Call.ChatEnd.result]
  steps := by simp [Call.ChatEnd.records, Call.ChatEnd.result]
  final := by simp [Call.ChatEnd.records, Call.ChatEnd.result]
  retrySame := by simp [Call.ChatEnd.records, Call.ChatEnd.result, recordsOf]
  validation := by simp [Call.ChatEnd.records, Call.ChatEnd.result, recordsOf]
  total := by simp [Call.ChatEnd.records, Call.ChatEnd.result]
  ok := by cases h <;> simp [Call.ChatEnd.records, Call.ChatEnd.result, Call.ChatEnd.status]
  aborted := by cases h <;> simp [Call.ChatEnd.records, Call.ChatEnd.result, Call.ChatEnd.status]
  exhausted := by cases h <;> simp [Call.ChatEnd.status]
  backend := rfl

/-- Every call of a client with a working allocator returns, and its records have the
shape. -/
theorem chat_shape (Y : Yyjson) (H : Heap σ) (c : Client σ) (req : Option Request)
    (cbs : Option (Callbacks σ)) (cancel : Option (CancelToken σ)) (haveOut stream : Bool)
    (ordinal : UInt32) (w : World σ) (hH : H.Reliable)
    (hlt : (chatCommon Y H (some c) req cbs cancel haveOut stream ordinal w).records.length <
      2 ^ 32) :
    RunShape c (chatCommon Y H (some c) req cbs cancel haveOut stream ordinal w) := by
  rcases chatCommon_ends Y H (some c) req cbs cancel haveOut stream ordinal w with
    hearly | ⟨k, ⟨rfl, hc, -, -, -, -⟩, env, hrun⟩
  · generalize chatCommon Y H (some c) req cbs cancel haveOut stream ordinal w = e at hearly
    cases hearly with
    | refused h env => exact h.shape c _
    | noArrays hbad => exact absurd hH hbad
    | fault hbad => exact absurd hH hbad
  · cases Option.some.inj hc
    rw [hrun] at hlt ⊢
    have hstart : ∃ vs kinds, k.OnTour (k.start ordinal (resultInit k.c.maxResponseBytes)
        { w with env := env }) vs kinds :=
      ⟨[], [], .start, rfl, rfl, rfl, rfl, .nil, rfl, rfl⟩
    obtain ⟨vs, hoff⟩ := k.run_turns (k.turn_tour hH) hstart
    exact hoff.shape hlt

end Runs

section Plain

attribute [local instance] lp64

/-- A call over two busy backends. -/
theorem chat_shape_plain : RunShape (plainClient 1 1048576 (by decide) busyTransport)
    (chatCommon (plainYyjson [] .null) Heap.plentiful
      (some (plainClient 1 1048576 (by decide) busyTransport)) (some plainRequest)
      (some plainCallbacks) none true true 0 ⟨(), []⟩) :=
  chat_shape _ _ _ _ _ _ _ _ _ _ Heap.plentiful_reliable (by decide +kernel)

end Plain

end Sicha
