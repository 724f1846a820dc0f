import Mathlib.Logic.Basic
import Mathlib.Tactic.SplitIfs

/-!
# Computations that may fail

A computation over a world {lit}`w` that ends with a value or an error, and whose
every step may have changed the world.  An allocator, a file system or a peer are
such worlds.

Main results:

- Theorems {lit}`keeps_pure`, {lit}`keeps_throw`, {lit}`keeps_bind` and
  {lit}`keeps_guarded`: what every request keeps, the whole computation keeps, and it
  fails only as its parts do.
- Theorem {lit}`fails_bind`: where an error comes from.
- Theorems {lit}`alike_bind` and {lit}`alike_forList`: two computations over two worlds that
  end alike.
-/

/-- A computation over a world that may fail. -/
abbrev Fallible (ε w α : Type) := ExceptT ε (StateM w) α

namespace Fallible

variable {ε w α β : Type}

/-- Run a computation from a world. -/
def exec (m : Fallible ε w α) (s : w) : Except ε α × w :=
  m.run.run s

/-- A request that is granted or refused; a refusal is the error {lit}`e`. -/
def guarded (request : w → Bool × w) (e : ε) : Fallible ε w Unit :=
  ExceptT.mk fun s => (if (request s).1 then .ok () else .error e, (request s).2)

/-- A step that looks at the world, may change it, and never fails. -/
def total (f : w → α × w) : Fallible ε w α :=
  ExceptT.mk fun s => (.ok (f s).1, (f s).2)

/-- {lit}`P` survives the computation, however it ends, and its errors are in {lit}`E`. -/
def Keeps (P : w → Prop) (E : ε → Prop) (m : Fallible ε w α) : Prop :=
  ∀ s, P s → P (m.exec s).2 ∧ ∀ e, (m.exec s).1 = .error e → E e

variable {P : w → Prop} {E : ε → Prop}

/-- To run two computations in a row: an error of the first one ends both. -/
theorem exec_bind (m : Fallible ε w α) (f : α → Fallible ε w β) (s : w) :
    (m >>= f).exec s =
      match m.exec s with
      | (.ok a, s) => (f a).exec s
      | (.error e, s) => (.error e, s) := by
  simp only [exec, ExceptT.run_bind, StateT.run_bind]
  rcases StateT.run (ExceptT.run m) s with ⟨r, s'⟩
  cases r <;> rfl

/-- To return a value keeps everything. -/
theorem keeps_pure (a : α) : Keeps P E (pure a : Fallible ε w α) :=
  fun _ hs => ⟨hs, fun _ he => nomatch he⟩

/-- To fail keeps everything, if the error is one of the expected. -/
theorem keeps_throw {e : ε} (he : E e) : Keeps P E (throw e : Fallible ε w α) := by
  intro s hs
  refine ⟨hs, fun e' he' => ?_⟩
  cases he'
  exact he

/-- Two computations that keep something keep it in a row. -/
theorem keeps_bind {m : Fallible ε w α} {f : α → Fallible ε w β} (hm : Keeps P E m)
    (hf : ∀ a, Keeps P E (f a)) : Keeps P E (m >>= f) := by
  intro s hs
  have hmid := hm s hs
  rw [exec_bind]
  rcases hrun : m.exec s with ⟨r, s'⟩
  rw [hrun] at hmid
  cases r with
  | ok a => exact hf a s' hmid.1
  | error e =>
      refine ⟨hmid.1, fun e' he' => ?_⟩
      cases he'
      exact hmid.2 e rfl

/-- A guarded request keeps what the request keeps. -/
theorem keeps_guarded {request : w → Bool × w} (h : ∀ s, P s → P (request s).2) {e : ε}
    (he : E e) : Keeps P E (guarded request e) := by
  intro s hs
  refine ⟨h s hs, fun e' he' => ?_⟩
  change (if (request s).1 then Except.ok () else .error e) = .error e' at he'
  split_ifs at he'
  cases he'
  exact he

/-- A computation that cannot fail keeps what its function keeps. -/
theorem keeps_total {f : w → α × w} (h : ∀ s, P s → P (f s).2) :
    Keeps P E (total f : Fallible ε w α) :=
  fun s hs => ⟨h s hs, fun _ he => nomatch he⟩

/-- To map the value changes nothing about it. -/
theorem keeps_map {m : Fallible ε w α} (f : α → β) (hm : Keeps P E m) :
    Keeps P E (f <$> m) := by
  rw [map_eq_pure_bind]
  exact keeps_bind hm fun a => keeps_pure (f a)

/-- Steps for every element of a list, in order. -/
def forList (f : α → Fallible ε w β) : List α → Fallible ε w (List β)
  | [] => pure []
  | a :: as => do
      let b ← f a
      let bs ← forList f as
      pure (b :: bs)

/-- A loop that collects keeps what its body keeps. -/
theorem keeps_forList {f : α → Fallible ε w β} (hf : ∀ a, Keeps P E (f a)) (as : List α) :
    Keeps P E (forList f as) := by
  induction as with
  | nil => exact keeps_pure _
  | cons a as ih => exact keeps_bind (hf a) fun b => keeps_bind ih fun bs => keeps_pure _

/-- A step for every element of a list, in order. -/
def forEach (f : α → Fallible ε w Unit) : List α → Fallible ε w Unit
  | [] => pure ()
  | a :: as => do
      f a
      forEach f as

/-- A loop keeps what its body keeps on the members of the list. -/
theorem keeps_forEach {f : α → Fallible ε w Unit} {as : List α}
    (hf : ∀ a ∈ as, Keeps P E (f a)) : Keeps P E (forEach f as) := by
  induction as with
  | nil => exact keeps_pure _
  | cons a as ih =>
      refine keeps_bind (hf a (List.mem_cons_self ..)) fun _ => ih fun a' ha' => ?_
      exact hf a' (List.mem_cons_of_mem _ ha')

/-! ## Where an error comes from -/

/-- The computation ends with the error {lit}`e`. -/
def Fails (e : ε) (m : Fallible ε w α) (s : w) : Prop :=
  (m.exec s).1 = .error e

/-- An error comes from the first part, or from the second after the first was done. -/
theorem fails_bind {e : ε} {m : Fallible ε w α} {f : α → Fallible ε w β} {s : w} :
    Fails e (m >>= f) s ↔
      Fails e m s ∨ ∃ a s', m.exec s = (.ok a, s') ∧ Fails e (f a) s' := by
  unfold Fails
  rw [exec_bind]
  rcases m.exec s with ⟨r, s'⟩
  cases r with
  | ok a =>
      constructor
      · exact fun h => .inr ⟨a, s', rfl, h⟩
      · rintro (h | ⟨_, _, ⟨⟩, h⟩)
        · cases h
        · exact h
  | error e' =>
      constructor
      · rintro ⟨⟩
        exact .inl rfl
      · rintro (h | ⟨_, _, h, -⟩)
        · cases h
          rfl
        · cases h

/-- A thrown error is the one that was thrown. -/
theorem fails_throw {e e' : ε} {s : w} :
    Fails e (throw e' : Fallible ε w α) s ↔ e' = e := by
  change (Except.error e' : Except ε α) = .error e ↔ _
  simp

/-- A value is no failure. -/
theorem fails_pure {e : ε} {a : α} {s : w} : ¬ Fails e (pure a : Fallible ε w α) s :=
  fun h => nomatch h

/-- A computation in two parts is done when both are. -/
theorem exec_bind_ok {m : Fallible ε w α} {f : α → Fallible ε w β} {s s'' : w} {b : β} :
    (m >>= f).exec s = (.ok b, s'') ↔
      ∃ a s', m.exec s = (.ok a, s') ∧ (f a).exec s' = (.ok b, s'') := by
  rw [exec_bind]
  rcases m.exec s with ⟨r, s'⟩
  cases r with
  | ok a =>
      constructor
      · exact fun h => ⟨a, s', rfl, h⟩
      · rintro ⟨_, _, ⟨⟩, h⟩
        exact h
  | error e =>
      constructor
      · intro h
        cases h
      · rintro ⟨_, _, h, -⟩
        cases h

/-- A part that cannot fail so does not matter for the error. -/
theorem fails_bind_left {e : ε} {m : Fallible ε w α} {f : α → Fallible ε w β} {s : w}
    (hf : ∀ a s', ¬ Fails e (f a) s') : Fails e (m >>= f) s ↔ Fails e m s := by
  rw [fails_bind]
  exact or_iff_left fun ⟨a, s', _, h⟩ => hf a s' h

/-- A computation that keeps {lit}`P` and cannot fail ends with a value. -/
theorem Keeps.ends {m : Fallible ε w α} (h : Keeps P (fun _ => False) m) {s : w} (hs : P s) :
    ∃ a s', m.exec s = (.ok a, s') ∧ P s' := by
  obtain ⟨hkept, hfails⟩ := h s hs
  rcases hrun : m.exec s with ⟨r, s'⟩
  rw [hrun] at hkept hfails
  cases r with
  | ok a => exact ⟨a, s', rfl, hkept⟩
  | error e => exact (hfails e rfl).elim

/-! ## What a computation yields -/

/-- The computation ends with a value in {lit}`Q`; or it fails, and {lit}`X` tells why it could. -/
def Yields (X : Prop) (m : Fallible ε w α) (Q : α → Prop) : Prop :=
  ∀ s, (∃ a, (m.exec s).1 = .ok a ∧ Q a) ∨ X ∧ ∃ e, (m.exec s).1 = .error e

variable {X : Prop} {Q : α → Prop} {R : β → Prop}

/-- A value yields what holds of it. -/
theorem yields_pure {a : α} (h : Q a) : Yields X (pure a : Fallible ε w α) Q :=
  fun _ => .inl ⟨a, rfl, h⟩

/-- A failure yields anything, where failures are excused. -/
theorem yields_throw {e : ε} (h : X) : Yields X (throw e : Fallible ε w α) Q :=
  fun _ => .inr ⟨h, e, rfl⟩

/-- What the first computation yields, the second one may use. -/
theorem yields_bind {m : Fallible ε w α} {f : α → Fallible ε w β} (hm : Yields X m Q)
    (hf : ∀ a, Q a → Yields X (f a) R) : Yields X (m >>= f) R := by
  intro s
  have hfirst := hm s
  rw [exec_bind]
  rcases hrun : m.exec s with ⟨r, s'⟩
  rw [hrun] at hfirst
  rcases hfirst with ⟨a, ha, hQ⟩ | ⟨hX, e, he⟩
  · cases ha
    exact hf a hQ s'
  · cases he
    exact .inr ⟨hX, e, rfl⟩

/-- A guarded request yields, if it is always granted or its refusal is excused. -/
theorem yields_guarded {request : w → Bool × w} {e : ε} (h : (∀ s, (request s).1 = true) ∨ X) :
    Yields X (guarded request e) fun _ => True := by
  intro s
  rcases hgrant : (request s).1 with _ | _
  · have hout : ((guarded request e).exec s).1 = .error e := by
      change (if (request s).1 then Except.ok () else .error e) = _
      rw [hgrant]
      rfl
    rcases h with h | hX
    · rw [h s] at hgrant
      cases hgrant
    · exact .inr ⟨hX, e, hout⟩
  · refine .inl ⟨(), ?_, trivial⟩
    change (if (request s).1 then Except.ok () else .error e) = _
    rw [hgrant]
    rfl

/-- A computation that cannot fail yields what holds of its values. -/
theorem yields_total {f : w → α × w} (h : ∀ s, Q (f s).1) :
    Yields X (total f : Fallible ε w α) Q :=
  fun s => .inl ⟨(f s).1, rfl, h s⟩

/-- Steps that yield the values of {lit}`g` yield their list. -/
theorem yields_forList {f : α → Fallible ε w β} {g : α → β} {as : List α}
    (hf : ∀ a ∈ as, Yields X (f a) (· = g a)) : Yields X (forList f as) (· = as.map g) := by
  induction as with
  | nil => exact yields_pure rfl
  | cons a as ih =>
      refine yields_bind (hf a (by simp)) ?_
      rintro b rfl
      refine yields_bind (ih fun a' ha' => hf a' (by simp [ha'])) ?_
      rintro bs rfl
      exact yields_pure rfl

/-- A value a computation ends with is one it yields. -/
theorem Yields.value {m : Fallible ε w α} (h : Yields X m Q) {s s' : w} {a : α}
    (hrun : m.exec s = (.ok a, s')) : Q a := by
  rcases h s with ⟨b, hb, hQ⟩ | ⟨_, e, he⟩
  · rw [hrun] at hb
    cases hb
    exact hQ
  · rw [hrun] at he
    cases he

/-! ## Two computations side by side -/

variable {v α' β' : Type}

/-- Two ends that look alike: the same error, or values in {lit}`Q`. -/
inductive EndAlike (Q : α → α' → Prop) : Except ε α → Except ε α' → Prop
  | ok {a : α} {a' : α'} (h : Q a a') : EndAlike Q (.ok a) (.ok a')
  | error (e : ε) : EndAlike Q (.error e) (.error e)

/-- From related worlds, both computations end alike and leave the worlds related. -/
def Alike (Rel : w → v → Prop) (Q : α → α' → Prop) (m : Fallible ε w α)
    (n : Fallible ε v α') : Prop :=
  ∀ s t, Rel s t → EndAlike Q (m.exec s).1 (n.exec t).1 ∧ Rel (m.exec s).2 (n.exec t).2

variable {Rel : w → v → Prop} {Q : α → α' → Prop} {R : β → β' → Prop}

/-- Two values that are related. -/
theorem alike_pure {a : α} {a' : α'} (h : Q a a') :
    Alike Rel Q (pure a : Fallible ε w α) (pure a') :=
  fun _ _ hst => ⟨.ok h, hst⟩

/-- Two failures with one error. -/
theorem alike_throw (e : ε) : Alike Rel Q (throw e : Fallible ε w α) (throw e) :=
  fun _ _ hst => ⟨.error e, hst⟩

/-- Computations that end alike, followed by such as end alike on related values. -/
theorem alike_bind {m : Fallible ε w α} {n : Fallible ε v α'} {f : α → Fallible ε w β}
    {g : α' → Fallible ε v β'} (hmn : Alike Rel Q m n)
    (hfg : ∀ a a', Q a a' → Alike Rel R (f a) (g a')) : Alike Rel R (m >>= f) (n >>= g) := by
  intro s t hst
  obtain ⟨hend, hrel⟩ := hmn s t hst
  rw [exec_bind, exec_bind]
  generalize m.exec s = out at hend hrel
  generalize n.exec t = out' at hend hrel
  obtain ⟨r, s'⟩ := out
  obtain ⟨r', t'⟩ := out'
  cases hend with
  | ok h => exact hfg _ _ h s' t' hrel
  | error e => exact ⟨.error e, hrel⟩

/-- The same, if both first parts end with the same value. -/
theorem alike_then {m : Fallible ε w α} {n : Fallible ε v α} {f : α → Fallible ε w β}
    {g : α → Fallible ε v β'} (hmn : Alike Rel Eq m n)
    (hfg : ∀ a, Alike Rel R (f a) (g a)) : Alike Rel R (m >>= f) (n >>= g) := by
  refine alike_bind hmn ?_
  rintro a _ rfl
  exact hfg a

/-- Two computations that cannot fail, and whose functions are related. -/
theorem alike_total {f : w → α × w} {g : v → α' × v}
    (h : ∀ s t, Rel s t → Q (f s).1 (g t).1 ∧ Rel (f s).2 (g t).2) :
    Alike Rel Q (total f : Fallible ε w α) (total g) :=
  fun s t hst => ⟨.ok (h s t hst).1, (h s t hst).2⟩

/-- Two guarded requests that are answered alike. -/
theorem alike_guarded {request : w → Bool × w} {request' : v → Bool × v}
    (h : ∀ s t, Rel s t → (request s).1 = (request' t).1 ∧ Rel (request s).2 (request' t).2)
    (e : ε) : Alike Rel Eq (guarded request e) (guarded request' e) := by
  intro s t hst
  obtain ⟨hgrant, hrel⟩ := h s t hst
  refine ⟨?_, hrel⟩
  change EndAlike Eq (if (request s).1 then .ok () else .error e)
    (if (request' t).1 then .ok () else .error e)
  rw [hgrant]
  split_ifs
  · exact .ok rfl
  · exact .error e

/-- Computations that end alike, with their values mapped to related ones. -/
theorem alike_map {m : Fallible ε w α} {n : Fallible ε v α'} {f : α → β} {g : α' → β'}
    (hmn : Alike Rel Q m n) (hfg : ∀ a a', Q a a' → R (f a) (g a')) :
    Alike Rel R (f <$> m) (g <$> n) := by
  rw [map_eq_pure_bind, map_eq_pure_bind]
  exact alike_bind hmn fun a a' h => alike_pure (hfg a a' h)

/-- Two loops over one list whose bodies end alike. -/
theorem alike_forList {f : α → Fallible ε w β} {g : α → Fallible ε v β}
    (hfg : ∀ a, Alike Rel Eq (f a) (g a)) (as : List α) :
    Alike Rel Eq (forList f as) (forList g as) := by
  induction as with
  | nil => exact alike_pure rfl
  | cons a as ih => exact alike_then (hfg a) fun b => alike_then ih fun bs => alike_pure rfl

end Fallible
