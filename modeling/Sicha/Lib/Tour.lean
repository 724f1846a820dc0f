import Mathlib.Algebra.BigOperators.Group.Finset.Basic
import Mathlib.Algebra.Order.BigOperators.Group.Finset
import Mathlib.Data.List.Count
import Sicha.Lib.Split

/-!
# Tours with budgets

A tour goes through the places 0, 1, 2, ... and makes visits of several kinds.  A kind
that is final ends the tour.  Of every other kind a place grants a budget: as long as
it lasts the tour stays, and the visit after that moves it to the next place.  Retry
and fallback loops have this shape.

A tour is given by the list of its visits, the place where it stands, and the kinds
of the visits it has made there.

Main results:

- Theorem {lit}`Ended.snoc_induction`: the induction rule, one visit at a time.
- Theorems {lit}`Ended.steps`, {lit}`Ended.kindCount_le` and {lit}`Ended.placeCount_le`:
  how a tour moves, and how long it can stay.
-/

/-- One visit: its position in the tour, its place, its position there, and its kind. -/
structure Visit (κ : Type) where
  index : Nat
  place : Nat
  nth : Nat
  kind : κ

/-- Which kinds are final, and how many visits of each other kind a place grants. -/
structure TourRules (κ : Type) where
  final : κ → Prop
  budget : κ → Nat

variable {κ : Type}

/-- The next visit of a tour. -/
def Visit.next (vs : List (Visit κ)) (place : Nat) (kinds : List κ) (kind : κ) : Visit κ :=
  ⟨vs.length, place, kinds.length, kind⟩

/-- The visits of a place. -/
def placeCount (vs : List (Visit κ)) (place : Nat) : Nat :=
  vs.countP fun v => v.place = place

variable [DecidableEq κ]

/-- The visits of a kind at a place. -/
def kindCount (vs : List (Visit κ)) (place : Nat) (kind : κ) : Nat :=
  vs.countP fun v => v.place = place ∧ v.kind = kind

/-- A tour: its visits, where it stands, and the kinds of its visits there. -/
inductive Tour (R : TourRules κ) : List (Visit κ) → Nat → List κ → Prop
  | start : Tour R [] 0 []
  | stay {vs : List (Visit κ)} {place : Nat} {kinds : List κ} {kind : κ}
      (h : Tour R vs place kinds) (hfinal : ¬ R.final kind)
      (hbudget : kinds.count kind < R.budget kind) :
      Tour R (vs ++ [Visit.next vs place kinds kind]) place (kinds ++ [kind])
  | leave {vs : List (Visit κ)} {place : Nat} {kinds : List κ} {kind : κ}
      (h : Tour R vs place kinds) (hfinal : ¬ R.final kind)
      (hbudget : R.budget kind ≤ kinds.count kind) :
      Tour R (vs ++ [Visit.next vs place kinds kind]) (place + 1) []

/-- The visits of a tour, perhaps with one more visit of any kind at the end. -/
inductive Ended (R : TourRules κ) : List (Visit κ) → Prop
  | still {vs : List (Visit κ)} {place : Nat} {kinds : List κ} (h : Tour R vs place kinds) :
      Ended R vs
  | last {vs : List (Visit κ)} {place : Nat} {kinds : List κ} (h : Tour R vs place kinds)
      (kind : κ) : Ended R (vs ++ [Visit.next vs place kinds kind])

/-- A visit behind some others used up the budget of its place. -/
structure Spent (R : TourRules κ) (before : List (Visit κ)) (v : Visit κ) : Prop where
  final : ¬ R.final v.kind
  count : kindCount (before ++ [v]) v.place v.kind = R.budget v.kind + 1

variable {R : TourRules κ}

/-- Induction over a tour, one visit at a time. -/
theorem Ended.snoc_induction {motive : ∀ vs, Ended R vs → Prop} (nil : motive [] (.still .start))
    (snoc : ∀ vs place kinds kind (h : Tour R vs place kinds), motive vs (.still h) →
      motive (vs ++ [Visit.next vs place kinds kind]) (.last h kind))
    {vs : List (Visit κ)} (h : Ended R vs) : motive vs h := by
  have htour : ∀ vs place kinds (h : Tour R vs place kinds), motive vs (.still h) := by
    intro vs place kinds h
    induction h with
    | start => exact nil
    | stay h _ _ ih => exact snoc _ _ _ _ h ih
    | leave h _ _ ih => exact snoc _ _ _ _ h ih
  cases h with
  | still h => exact htour _ _ _ h
  | last h kind => exact snoc _ _ _ kind h (htour _ _ _ h)

/-! ## Where a tour stands -/

omit [DecidableEq κ] in
/-- One more visit counts at its place. -/
theorem placeCount_snoc (vs : List (Visit κ)) (v : Visit κ) (place : Nat) :
    placeCount (vs ++ [v]) place =
      placeCount vs place + if v.place = place then 1 else 0 := by
  simp [placeCount, List.countP_append, List.countP_singleton]

/-- One more visit counts at its place and for its kind. -/
theorem kindCount_snoc (vs : List (Visit κ)) (v : Visit κ) (place : Nat) (kind : κ) :
    kindCount (vs ++ [v]) place kind =
      kindCount vs place kind + if v.place = place ∧ v.kind = kind then 1 else 0 := by
  simp [kindCount, List.countP_append, List.countP_singleton]

/-- A tour has not been further than where it is. -/
theorem Tour.place_le {vs : List (Visit κ)} {place : Nat} {kinds : List κ}
    (h : Tour R vs place kinds) : ∀ v ∈ vs, v.place ≤ place := by
  induction h with
  | start => simp
  | stay _ _ _ ih =>
      intro v hv
      rcases List.mem_append.mp hv with hv | hv
      · exact ih v hv
      · rw [List.mem_singleton.mp hv]
        exact Nat.le_refl _
  | leave _ _ _ ih =>
      intro v hv
      rcases List.mem_append.mp hv with hv | hv
      · exact Nat.le_succ_of_le (ih v hv)
      · rw [List.mem_singleton.mp hv]
        exact Nat.le_succ _

/-- A place that is not reached yet has no visits. -/
theorem Tour.unvisited {vs : List (Visit κ)} {place : Nat} {kinds : List κ}
    (h : Tour R vs place kinds) {q : Nat} (hq : place < q) :
    placeCount vs q = 0 ∧ ∀ kind, kindCount vs q kind = 0 := by
  have hne : ∀ v ∈ vs, v.place ≠ q := fun v hv he => by
    have := h.place_le v hv
    omega
  constructor
  · rw [placeCount, List.countP_eq_zero]
    intro v hv
    simp [hne v hv]
  · intro kind
    rw [kindCount, List.countP_eq_zero]
    intro v hv
    simp [hne v hv]

/-- The kinds of a tour's visits where it stands. -/
theorem Tour.here {vs : List (Visit κ)} {place : Nat} {kinds : List κ}
    (h : Tour R vs place kinds) :
    placeCount vs place = kinds.length ∧
      ∀ kind, kindCount vs place kind = kinds.count kind := by
  induction h with
  | start => simp [placeCount, kindCount]
  | stay _ _ _ ih =>
      constructor
      · rw [placeCount_snoc, ih.1]
        simp [Visit.next]
      · intro kind
        rw [kindCount_snoc, ih.2]
        simp [Visit.next, List.count_append, List.count_singleton]
  | @leave vs place kinds kind h _ _ ih =>
      have hfresh := h.unvisited (Nat.lt_succ_self place)
      constructor
      · rw [placeCount_snoc, hfresh.1]
        simp [Visit.next]
      · intro kind'
        rw [kindCount_snoc, hfresh.2]
        simp [Visit.next]

/-- At the place it has come to, a tour has used no kind more often than its budget allows. -/
theorem Tour.count_le {vs : List (Visit κ)} {place : Nat} {kinds : List κ}
    (h : Tour R vs place kinds) (kind : κ) : kinds.count kind ≤ R.budget kind := by
  induction h with
  | start => simp
  | @stay vs place kinds kind' _ _ hbudget ih =>
      rw [List.count_append, List.count_singleton]
      split_ifs with hsame
      · rw [beq_iff_eq] at hsame
        rw [← hsame]
        exact hbudget
      · exact ih
  | leave _ _ _ _ => simp

/-- A tour has made no final visit. -/
theorem Tour.not_final {vs : List (Visit κ)} {place : Nat} {kinds : List κ}
    (h : Tour R vs place kinds) : ∀ v ∈ vs, ¬ R.final v.kind := by
  induction h with
  | start => simp
  | stay _ hfinal _ ih =>
      intro v hv
      rcases List.mem_append.mp hv with hv | hv
      · exact ih v hv
      · rw [List.mem_singleton.mp hv]
        exact hfinal
  | leave _ hfinal _ ih =>
      intro v hv
      rcases List.mem_append.mp hv with hv | hv
      · exact ih v hv
      · rw [List.mem_singleton.mp hv]
        exact hfinal

/-- The visit that moves a tour on has spent the budget of its kind. -/
theorem Tour.spent {vs : List (Visit κ)} {place : Nat} {kinds : List κ} {kind : κ}
    (h : Tour R vs place kinds) (hfinal : ¬ R.final kind)
    (hbudget : R.budget kind ≤ kinds.count kind) :
    Spent R vs (Visit.next vs place kinds kind) := by
  refine ⟨hfinal, ?_⟩
  rw [kindCount_snoc, if_pos ⟨rfl, rfl⟩]
  change kindCount vs place kind + 1 = R.budget kind + 1
  rw [h.here.2, Nat.le_antisymm (h.count_le kind) hbudget]

/-- Every place a tour has left has a visit. -/
theorem Tour.covers {vs : List (Visit κ)} {place : Nat} {kinds : List κ}
    (h : Tour R vs place kinds) : ∀ q < place, ∃ v ∈ vs, v.place = q := by
  induction h with
  | start => simp
  | stay _ _ _ ih =>
      intro q hq
      obtain ⟨v, hv, hplace⟩ := ih q hq
      exact ⟨v, List.mem_append_left _ hv, hplace⟩
  | @leave vs place kinds kind _ _ _ ih =>
      intro q hq
      rcases Nat.lt_succ_iff_lt_or_eq.mp hq with hq | rfl
      · obtain ⟨v, hv, hplace⟩ := ih q hq
        exact ⟨v, List.mem_append_left _ hv, hplace⟩
      · exact ⟨Visit.next vs q kinds kind, by simp, rfl⟩

/-- A tour is at most as far as it has visits. -/
theorem Tour.place_le_length {vs : List (Visit κ)} {place : Nat} {kinds : List κ}
    (h : Tour R vs place kinds) : place ≤ vs.length ∧ kinds.length ≤ vs.length := by
  induction h with
  | start => simp
  | stay _ _ _ ih => simp; omega
  | leave _ _ _ ih => simp; omega

/-- How the last visit led to where a tour stands. -/
theorem Tour.arrival {before : List (Visit κ)} {v : Visit κ} {place : Nat} {kinds : List κ}
    (h : Tour R (before ++ [v]) place kinds) :
    (place = v.place ∧ kinds ≠ []) ∨ (place = v.place + 1 ∧ kinds = [] ∧ Spent R before v) := by
  generalize hvs : before ++ [v] = vs at h
  cases h with
  | start => simp at hvs
  | stay _ _ _ =>
      obtain ⟨-, hv⟩ := List.append_inj' hvs rfl
      cases hv
      exact .inl ⟨rfl, by simp⟩
  | leave h hfinal hbudget =>
      obtain ⟨rfl, hv⟩ := List.append_inj' hvs rfl
      cases hv
      exact .inr ⟨rfl, rfl, h.spent hfinal hbudget⟩

/-! ## What holds of every tour -/

/-- A visit knows its position in the tour and at its place. -/
theorem Ended.positions {vs : List (Visit κ)} (h : Ended R vs) {front back : List (Visit κ)}
    {v : Visit κ} (hvs : vs = front ++ v :: back) :
    v.index = front.length ∧ v.nth = placeCount front v.place := by
  induction h using Ended.snoc_induction generalizing front back with
  | nil => simp at hvs
  | snoc vs place kinds kind htour ih =>
      rcases split_snoc hvs with ⟨-, rfl, rfl⟩ | ⟨rest, -, hrest⟩
      · exact ⟨rfl, htour.here.1.symm⟩
      · exact ih hrest

/-- All numbers of a visit are below the number of visits. -/
theorem Ended.bounds {vs : List (Visit κ)} (h : Ended R vs) :
    ∀ v ∈ vs, v.index < vs.length ∧ v.place < vs.length ∧ v.nth < vs.length := by
  induction h using Ended.snoc_induction with
  | nil => simp
  | snoc vs place kinds kind htour ih =>
      intro v hv
      rw [List.length_append, List.length_singleton]
      rcases List.mem_append.mp hv with hv | hv
      · have hold := ih v hv
        omega
      · have hlength := htour.place_le_length
        rw [List.mem_singleton.mp hv]
        simp only [Visit.next]
        omega

/-- A tour starts at the first place. -/
theorem Ended.head {vs : List (Visit κ)} (h : Ended R vs) {back : List (Visit κ)} {v : Visit κ}
    (hvs : vs = v :: back) : v.place = 0 := by
  induction h using Ended.snoc_induction generalizing back with
  | nil => simp at hvs
  | snoc vs place kinds kind htour ih =>
      rcases @split_snoc _ _ [] _ _ _ hvs with ⟨-, rfl, rfl⟩ | ⟨rest, -, hrest⟩
      · exact Nat.le_zero.mp htour.place_le_length.1
      · exact ih hrest

/-- Between two visits a tour stays, or it goes on to the next place because the first
one spent its budget; only the last visit is final. -/
theorem Ended.steps {vs : List (Visit κ)} (h : Ended R vs) {front back : List (Visit κ)}
    {v v' : Visit κ} (hvs : vs = front ++ v :: v' :: back) :
    ¬ R.final v.kind ∧
      (v'.place = v.place ∨ (v'.place = v.place + 1 ∧ Spent R front v)) := by
  induction h using Ended.snoc_induction generalizing back with
  | nil => simp at hvs
  | snoc vs place kinds kind htour ih =>
      have hsplit : vs ++ [Visit.next vs place kinds kind] = (front ++ [v]) ++ v' :: back := by
        rw [hvs, List.append_assoc]
        rfl
      rcases split_snoc hsplit with ⟨-, rfl, rfl⟩ | ⟨rest, -, hrest⟩
      · refine ⟨htour.not_final v (by simp), ?_⟩
        rcases htour.arrival with ⟨hplace, -⟩ | ⟨hplace, -, hspent⟩
        · exact .inl hplace
        · exact .inr ⟨hplace, hspent⟩
      · exact ih (by rw [hrest, List.append_assoc]; rfl)

/-- Of every kind a place sees at most one visit more than its budget. -/
theorem Ended.kindCount_le {vs : List (Visit κ)} (h : Ended R vs) (place : Nat) (kind : κ) :
    kindCount vs place kind ≤ R.budget kind + 1 := by
  induction h using Ended.snoc_induction with
  | nil => simp [kindCount]
  | snoc vs place' kinds kind' htour ih =>
      rw [kindCount_snoc]
      split_ifs with hsame
      · have hcount := htour.count_le kind
        have hhere := htour.here.2 kind
        rw [← hsame.1]
        change kindCount vs place' kind + 1 ≤ _
        omega
      · exact ih

/-- A place sees at most one visit more than all budgets together. -/
theorem Ended.placeCount_le {vs : List (Visit κ)} (h : Ended R vs) {scarce : Finset κ}
    (hscarce : ∀ kind ∉ scarce, R.budget kind = 0) (place : Nat) :
    placeCount vs place ≤ ∑ kind ∈ scarce, R.budget kind + 1 := by
  induction h using Ended.snoc_induction with
  | nil => simp [placeCount]
  | snoc vs place' kinds kind' htour ih =>
      rw [placeCount_snoc]
      split_ifs with hsame
      · have hhere := htour.here.1
        have hkinds : kinds.toFinset ⊆ scarce := by
          intro kind hkind
          by_contra hout
          have hpos := List.count_pos_iff.mpr (List.mem_toFinset.mp hkind)
          have hle := htour.count_le kind
          rw [hscarce kind hout] at hle
          omega
        have hlen : kinds.length ≤ ∑ kind ∈ scarce, R.budget kind := by
          calc kinds.length = ∑ kind ∈ kinds.toFinset, kinds.count kind :=
                (List.sum_toFinset_count_eq_length kinds).symm
            _ ≤ ∑ kind ∈ kinds.toFinset, R.budget kind :=
                Finset.sum_le_sum fun kind _ => htour.count_le kind
            _ ≤ ∑ kind ∈ scarce, R.budget kind := Finset.sum_le_sum_of_subset hkinds
        rw [← hsame]
        change placeCount vs place' + 1 ≤ _
        omega
      · exact ih
