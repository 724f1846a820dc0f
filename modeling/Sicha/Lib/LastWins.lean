import Mathlib.Data.List.Dedup

/-!
# Merging named members, the last one wins

An ordered list of named members, as the objects of a JSON document are.  Putting a
member removes the members of its name and adds it at the end; a merge puts the members
of a second list one by one.

Main results:

- Theorem {lit}`putAll_eq`: the merge in closed form.
- Theorems {lit}`names_putAll`, {lit}`nodup_putAll` and {lit}`value_putAll`: the order of the
  merged names, that they are distinct, and the value each of them has.
- Theorems {lit}`foldl_last` and {lit}`foldl_first`: a field of a fold that keeps the last value
  it is offered, and one that keeps the first.
-/

namespace LastWins

variable {κ α : Type} [BEq κ] [LawfulBEq κ]

/-- The names of the members, in order. -/
def names (members : List (κ × α)) : List κ :=
  members.map Prod.fst

/-- The value of the first member of a name. -/
def value? (members : List (κ × α)) (k : κ) : Option α :=
  (members.find? fun m => m.1 == k).map Prod.snd

/-- The value of the last member of a name. -/
def lastValue? (members : List (κ × α)) (k : κ) : Option α :=
  value? members.reverse k

/-- Put a member: the members of its name go, and it comes last. -/
def put (members : List (κ × α)) (m : κ × α) : List (κ × α) :=
  members.filter (fun old => old.1 != m.1) ++ [m]

/-- Put the members of a second list, in order. -/
def putAll (members extra : List (κ × α)) : List (κ × α) :=
  extra.foldl put members

/-- The members whose names a second list does not use. -/
def without (members extra : List (κ × α)) : List (κ × α) :=
  members.filter fun m => m.1 ∉ names extra

/-- The members that are the last of their name. -/
def lastOnes : List (κ × α) → List (κ × α)
  | [] => []
  | m :: rest => if m.1 ∈ names rest then lastOnes rest else m :: lastOnes rest

/-- The merge keeps the members with unused names and adds the last member of every
other name. -/
theorem putAll_eq (members extra : List (κ × α)) :
    putAll members extra = without members extra ++ lastOnes extra := by
  induction extra generalizing members with
  | nil => simp [putAll, without, lastOnes, names]
  | cons m rest ih =>
      have hkept : without (members.filter fun old => old.1 != m.1) rest =
          without members (m :: rest) := by
        unfold without
        rw [List.filter_filter]
        refine List.filter_congr fun old _ => ?_
        have hmem : old.1 ∈ names (m :: rest) ↔ old.1 = m.1 ∨ old.1 ∈ names rest :=
          List.mem_cons
        rw [Bool.eq_iff_iff]
        simp only [Bool.and_eq_true, decide_eq_true_eq, bne_iff_ne, hmem, not_or]
        exact and_comm
      have hput : putAll members (m :: rest) = putAll (put members m) rest := rfl
      have hsplit : without (put members m) rest =
          without (members.filter fun old => old.1 != m.1) rest ++ without [m] rest :=
        List.filter_append _ _
      rw [hput, ih, hsplit, hkept, List.append_assoc]
      congr 1
      by_cases hm : m.1 ∈ names rest <;> simp [without, lastOnes, hm]

/-! ## The names -/

omit [BEq κ] [LawfulBEq κ] in
/-- The names of two lists in a row. -/
theorem names_append (members extra : List (κ × α)) :
    names (members ++ extra) = names members ++ names extra :=
  List.map_append

/-- What is left has the names that the others lack. -/
theorem names_without (members extra : List (κ × α)) :
    names (without members extra) = (names members).filter fun k => k ∉ names extra := by
  simp only [names, without, List.filter_map]
  rfl

/-- The last ones have every name once. -/
theorem names_lastOnes [DecidableEq κ] (extra : List (κ × α)) :
    names (lastOnes extra) = (names extra).dedup := by
  induction extra with
  | nil => rfl
  | cons m rest ih =>
      have hnames : names (m :: rest) = m.1 :: names rest := rfl
      rw [hnames]
      by_cases hm : m.1 ∈ names rest
      · rw [lastOnes, if_pos hm, ih, List.dedup_cons_of_mem hm]
      · rw [lastOnes, if_neg hm, List.dedup_cons_of_notMem hm, ← ih]
        rfl

/-- The merged names: the unused ones in their order, then the names of the second list
in the order of their last occurrence. -/
theorem names_putAll [DecidableEq κ] (members extra : List (κ × α)) :
    names (putAll members extra) =
      ((names members).filter fun k => k ∉ names extra) ++ (names extra).dedup := by
  rw [putAll_eq, names_append, names_without, names_lastOnes]

/-- The merge of distinct names with any list has distinct names. -/
theorem nodup_putAll [DecidableEq κ] {members : List (κ × α)} (h : (names members).Nodup)
    (extra : List (κ × α)) : (names (putAll members extra)).Nodup := by
  rw [names_putAll]
  refine List.Nodup.append (h.filter _) (List.nodup_dedup _) ?_
  intro k hk hextra
  have hunused : k ∉ names extra := by simpa using (List.mem_filter.mp hk).2
  exact hunused (List.mem_dedup.mp hextra)

/-! ## The values -/

omit [LawfulBEq κ] in
/-- In two lists in a row the first one is looked at first. -/
theorem value_append (members extra : List (κ × α)) (k : κ) :
    value? (members ++ extra) k = (value? members k).or (value? extra k) := by
  simp only [value?, List.find?_append]
  cases members.find? fun m => m.1 == k <;> rfl

omit [LawfulBEq κ] in
/-- A member is the last of its name only if none behind it has that name. -/
theorem lastValue_cons (m : κ × α) (rest : List (κ × α)) (k : κ) :
    lastValue? (m :: rest) k = (lastValue? rest k).or (value? [m] k) := by
  rw [lastValue?, List.reverse_cons, value_append]
  rfl

/-- A name without a value is no name of the list. -/
theorem value_eq_none {members : List (κ × α)} {k : κ} :
    value? members k = none ↔ k ∉ names members := by
  simp only [value?, Option.map_eq_none_iff, List.find?_eq_none, names, List.mem_map]
  constructor
  · rintro h ⟨m, hm, rfl⟩
    exact absurd (beq_self_eq_true m.1) (h m hm)
  · intro h m hm heq
    exact h ⟨m, hm, by simpa using heq⟩

/-- A name without a last value is no name of the list. -/
theorem lastValue_eq_none {members : List (κ × α)} {k : κ} :
    lastValue? members k = none ↔ k ∉ names members := by
  rw [lastValue?, value_eq_none]
  simp [names]

/-- The members that are the last of their name carry the last values. -/
theorem value_lastOnes (extra : List (κ × α)) (k : κ) :
    value? (lastOnes extra) k = lastValue? extra k := by
  induction extra with
  | nil => rfl
  | cons m rest ih =>
      rw [lastValue_cons]
      by_cases hm : m.1 ∈ names rest
      · rw [lastOnes, if_pos hm, ih]
        by_cases hk : m.1 = k
        · obtain ⟨v, hv⟩ : ∃ v, lastValue? rest k = some v :=
            Option.ne_none_iff_exists'.mp fun hnone => lastValue_eq_none.mp hnone (hk ▸ hm)
          rw [hv]
          rfl
        · simp [value?, hk]
      · rw [lastOnes, if_neg hm]
        have hsplit : m :: lastOnes rest = [m] ++ lastOnes rest := rfl
        rw [hsplit, value_append, ih]
        by_cases hk : m.1 = k
        · have hnone : lastValue? rest k = none := lastValue_eq_none.mpr (hk ▸ hm)
          rw [hnone]
          simp
        · simp [value?, hk]

/-- A name that the others lack keeps its value. -/
theorem value_without {members extra : List (κ × α)} {k : κ} (h : k ∉ names extra) :
    value? (without members extra) k = value? members k := by
  unfold value? without
  rw [List.find?_filter]
  congr 2
  funext m
  by_cases hm : m.1 = k <;> simp [hm, h]

/-- A merged name has the last value of the second list if that list uses it, and
otherwise its old value. -/
theorem value_putAll (members extra : List (κ × α)) (k : κ) :
    value? (putAll members extra) k = (lastValue? extra k).or (value? members k) := by
  rw [putAll_eq, value_append, value_lastOnes]
  by_cases hk : k ∈ names extra
  · have hkept : value? (without members extra) k = none := by
      rw [value_eq_none, names_without]
      simp [hk]
    obtain ⟨v, hv⟩ : ∃ v, lastValue? extra k = some v :=
      Option.ne_none_iff_exists'.mp fun hnone => lastValue_eq_none.mp hnone hk
    rw [hkept, hv]
    rfl
  · have hnone : lastValue? extra k = none := lastValue_eq_none.mpr hk
    rw [value_without hk, hnone]
    simp

/-! ## Fields of a fold -/

section Fields

variable {σ ι β : Type} {step : σ → ι → σ}

/-- A field that every new value replaces ends with the last one. -/
theorem foldl_last {get : σ → β} {new : ι → Option β}
    (hstep : ∀ s a, get (step s a) = (new a).getD (get s)) (as : List ι) (s : σ) :
    get (as.foldl step s) = ((as.filterMap new).getLast?).getD (get s) := by
  induction as generalizing s with
  | nil => rfl
  | cons a as ih =>
      rw [List.foldl_cons, ih, hstep]
      cases hnew : new a with
      | none => simp [hnew]
      | some b => cases hlast : (as.filterMap new).getLast? <;> simp [hnew, List.getLast?_cons, hlast]

/-- A field that only the first value fills keeps it. -/
theorem foldl_first {get : σ → Option β} {new : ι → Option β}
    (hstep : ∀ s a, get (step s a) = (get s).or (new a)) (as : List ι) (s : σ) :
    get (as.foldl step s) = (get s).or (as.filterMap new).head? := by
  induction as generalizing s with
  | nil => simp
  | cons a as ih =>
      rw [List.foldl_cons, ih, hstep]
      cases hnew : new a <;> cases hold : get s <;> simp [hnew]

end Fields

end LastWins
