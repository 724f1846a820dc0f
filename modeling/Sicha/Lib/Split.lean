import Mathlib.Data.List.Basic

/-!
# Where an element stands

Statements about logs say what stands before and behind an element:
{lit}`log = front ++ x :: back`.  When the log is a concatenation, the element is in
one of its parts.

Main results:

- Theorem {lit}`split_append`: the two places of an element in a concatenation.
- Theorem {lit}`split_unique`: the place of an element that is the only one of its
  kind.
-/

variable {α : Type}

/-- An element of a concatenation is in the first part or in the second. -/
theorem split_append {as bs front back : List α} {x : α} (h : as ++ bs = front ++ x :: back) :
    (∃ rest, as = front ++ x :: rest ∧ back = rest ++ bs) ∨
      ∃ rest, front = as ++ rest ∧ bs = rest ++ x :: back := by
  rcases List.append_eq_append_iff.mp h with ⟨rest, hfront, hbs⟩ | ⟨rest, has, hrest⟩
  · exact .inr ⟨rest, hfront, hbs⟩
  · cases rest with
    | nil => exact .inr ⟨[], by simpa using has.symm, hrest.symm⟩
    | cons y rest =>
        rw [List.cons_append, List.cons_eq_cons] at hrest
        obtain ⟨rfl, rfl⟩ := hrest
        exact .inl ⟨rest, has, rfl⟩

/-- A list of one element splits in one way. -/
theorem split_singleton {front back : List α} {x y : α} (h : [x] = front ++ y :: back) :
    front = [] ∧ y = x ∧ back = [] := by
  rcases List.append_eq_singleton_iff.mp h.symm with ⟨rfl, hy⟩ | ⟨-, hy⟩
  · cases hy
    exact ⟨rfl, rfl, rfl⟩
  · cases hy

/-- An element of a list that was extended by one is the last, or it was there before. -/
theorem split_snoc {xs front back : List α} {x y : α} (h : xs ++ [x] = front ++ y :: back) :
    (back = [] ∧ y = x ∧ front = xs) ∨ ∃ rest, back = rest ++ [x] ∧ xs = front ++ y :: rest := by
  rcases split_append h with ⟨rest, hxs, hback⟩ | ⟨rest, hfront, hx⟩
  · exact .inr ⟨rest, hback, hxs⟩
  · obtain ⟨rfl, rfl, rfl⟩ := split_singleton hx
    exact .inl ⟨rfl, rfl, by rw [hfront, List.append_nil]⟩

/-- The place of an element with a property that no other element has. -/
theorem split_unique {P : α → Prop} {as bs front back : List α} {a x : α}
    (h : as ++ a :: bs = front ++ x :: back) (has : ∀ y ∈ as, ¬ P y) (hbs : ∀ y ∈ bs, ¬ P y)
    (hx : P x) : front = as ∧ x = a ∧ back = bs := by
  rcases split_append h with ⟨rest, hmem, -⟩ | ⟨rest, hfront, hmem⟩
  · exact absurd hx (has x (by rw [hmem]; simp))
  · cases rest with
    | nil =>
        rw [List.nil_append, List.cons_eq_cons] at hmem
        obtain ⟨rfl, rfl⟩ := hmem
        exact ⟨by rw [hfront, List.append_nil], rfl, rfl⟩
    | cons y rest =>
        rw [List.cons_append, List.cons_eq_cons] at hmem
        exact absurd hx (hbs x (by rw [hmem.2]; simp))
