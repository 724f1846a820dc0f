import Sicha.Transport.Curl

/-!
# The same timeout in both transports

The scripted transport computes absolute deadlines and looks at the one of the phase first; the
curl transport compares elapsed times and looks at the total first.

Main results:

- Theorem {lit}`sameTimeout_iff`: at an instant at which a deadline has been reached both name the
  same timeout exactly if the phase's own and the total one have not both been reached.
- Theorem {lit}`timeouts_differ`: where both have, they differ.
-/

namespace Sicha

/-- What a transfer waits for: the status line, or more bytes of the body. -/
inductive Awaiting where
  | statusLine
  | body
deriving DecidableEq

/-- The instant from which the budget of a phase runs. -/
def Awaiting.since (start last : UInt64) : Awaiting → UInt64
  | .statusLine => start
  | .body => last

/-- The budget of a phase. -/
def Awaiting.budget (t : Timeouts) : Awaiting → UInt32
  | .statusLine => t.firstByteMs
  | .body => t.idleMs

/-- The timeout of a phase. -/
def Awaiting.timeout : Awaiting → TransportStatus
  | .statusLine => .timeoutFirstByte
  | .body => .timeoutIdle

/-- {lit}`on_status` has fired. -/
def Awaiting.delivered : Awaiting → Bool
  | .statusLine => false
  | .body => true

/-- The deadline of a budget has been reached. -/
def DeadlineReached (since now : UInt64) (budget : UInt32) : Prop :=
  budget ≠ disabled ∧ since.toNat + budget.toNat ≤ now.toNat

/-- The budget has elapsed, as the curl transport computes it. -/
def Elapsed (since now : UInt64) (budget : UInt32) : Prop :=
  budget ≠ disabled ∧ now - since ≥ budget.toUInt64

/-- The scripted transport's deadline is at or before this instant. -/
theorem absDeadline_le_iff {since now : UInt64} {budget : UInt32} :
    absDeadline since budget ≤ now ↔ DeadlineReached since now budget ∨ now = uint64Max := by
  have hmax : uint64Max.toNat = 2 ^ 64 - 1 := rfl
  have hnow := now.toNat_lt
  have hbudget : budget.toUInt64.toNat = budget.toNat := UInt32.toNat_toUInt64 budget
  unfold absDeadline DeadlineReached
  split_ifs with hinf
  · rw [UInt64.le_iff_toNat_le, ← UInt64.toNat_inj]
    constructor
    · intro h
      exact .inr (by omega)
    · rintro (⟨hne, -⟩ | h)
      · exact absurd hinf hne
      · exact h.ge
  · rw [UInt64.le_iff_toNat_le, ← UInt64.toNat_inj, addSat_toNat, hbudget, hmax]
    constructor
    · intro h
      by_cases hlast : now.toNat = 2 ^ 64 - 1
      · exact .inr hlast
      · exact .inl ⟨hinf, by omega⟩
    · rintro (⟨-, h⟩ | h) <;> omega

/-- A deadline that is reached has elapsed. -/
theorem DeadlineReached.elapsed {since now : UInt64} {budget : UInt32}
    (h : DeadlineReached since now budget) : Elapsed since now budget := by
  refine ⟨h.1, ?_⟩
  have hle : since ≤ now := by
    rw [UInt64.le_iff_toNat_le]
    exact (Nat.le_add_right _ _).trans h.2
  have hbudget : budget.toUInt64.toNat = budget.toNat := UInt32.toNat_toUInt64 budget
  rw [ge_iff_le, UInt64.le_iff_toNat_le, UInt64.toNat_sub_of_le _ _ hle, hbudget]
  have hreached := h.2
  omega

/-! ## What the transports choose -/

/-- What a round of the scripted transport's wait in a phase ends with, whatever the delay. -/
def scriptTimeout (a : Awaiting) (last now start target : UInt64) (t : Timeouts) :
    TransportStatus ⊕ UInt64 :=
  delayRound now target ⟨absDeadline (a.since start last) (a.budget t), a.timeout⟩
    ⟨absDeadline start t.totalMs, .timeoutTotal⟩

/-- Both transports name the same timeout, if a deadline has been reached. -/
def SameTimeout (a : Awaiting) (last now start target : UInt64) (t : Timeouts) : Prop :=
  DeadlineReached (a.since start last) now (a.budget t) ∨ DeadlineReached start now t.totalMs →
    ∃ st, scriptTimeout a last now start target t = .inl st ∧
      curlTimeout a.delivered last now start t = some st

/-- The phase's own deadline and the total one have both been reached. -/
def BothReached (a : Awaiting) (last now start : UInt64) (t : Timeouts) : Prop :=
  (DeadlineReached (a.since start last) now (a.budget t) ∨ DeadlineReached start now t.totalMs) ∧
    absDeadline (a.since start last) (a.budget t) ≤ now ∧ Elapsed start now t.totalMs

/-- While the clock does not run backwards and has not come to its end, these are the two
deadlines in plain terms. -/
theorem bothReached_iff (a : Awaiting) {last now start : UInt64} (t : Timeouts)
    (hstart : start ≤ now) (hend : now ≠ uint64Max) :
    BothReached a last now start t ↔
      DeadlineReached (a.since start last) now (a.budget t) ∧
        DeadlineReached start now t.totalMs := by
  constructor
  · rintro ⟨-, hown, hne, htotal⟩
    refine ⟨(absDeadline_le_iff.mp hown).resolve_right hend, hne, ?_⟩
    have hbudget : t.totalMs.toUInt64.toNat = t.totalMs.toNat := UInt32.toNat_toUInt64 _
    rw [ge_iff_le, UInt64.le_iff_toNat_le, UInt64.toNat_sub_of_le _ _ hstart, hbudget] at htotal
    rw [UInt64.le_iff_toNat_le] at hstart
    omega
  · rintro ⟨hown, htotal⟩
    exact ⟨.inl hown, absDeadline_le_iff.mpr (.inl hown), htotal.elapsed⟩

/-- The total budget is looked at first. -/
theorem curlTimeout_total {start now : UInt64} {t : Timeouts} (h : Elapsed start now t.totalMs)
    (delivered : Bool) (last : UInt64) :
    curlTimeout delivered last now start t = some .timeoutTotal :=
  if_pos h

/-- The budget of the phase is looked at if the total one has not elapsed. -/
theorem curlTimeout_phase {a : Awaiting} {last now start : UInt64} {t : Timeouts}
    (htotal : ¬ Elapsed start now t.totalMs)
    (h : Elapsed (a.since start last) now (a.budget t)) :
    curlTimeout a.delivered last now start t = some a.timeout := by
  refine (if_neg htotal).trans ?_
  cases a with
  | statusLine => exact if_pos ⟨rfl, h⟩
  | body =>
      have hstatus : ¬ (Awaiting.delivered .body = false ∧ t.firstByteMs ≠ disabled ∧
          now - start ≥ t.firstByteMs.toUInt64) := fun hfalse => absurd hfalse.1 (by decide)
      exact (if_neg hstatus).trans (if_pos ⟨rfl, h⟩)

/-- At every instant: both transports name the same timeout for a deadline that has been reached
exactly if the phase's own deadline and the total one have not both been reached. -/
theorem sameTimeout_iff (a : Awaiting) (last now start target : UInt64) (t : Timeouts) :
    SameTimeout a last now start target t ↔ ¬ BothReached a last now start t := by
  unfold SameTimeout BothReached scriptTimeout delayRound
  by_cases hphase : now ≥ absDeadline (a.since start last) (a.budget t)
  · rw [if_pos hphase]
    by_cases htotal : Elapsed start now t.totalMs
    · rw [curlTimeout_total htotal]
      constructor
      · rintro hsame ⟨hreached, -⟩
        obtain ⟨st, hscript, hcurl⟩ := hsame hreached
        rw [← Sum.inl.inj hscript] at hcurl
        cases a <;> cases hcurl
      · exact fun hnot hreached => absurd ⟨hreached, hphase, htotal⟩ hnot
    · refine iff_of_true (fun hreached => ⟨a.timeout, rfl, curlTimeout_phase htotal ?_⟩)
        fun h => htotal h.2.2
      rcases hreached with hown | hdeadline
      · exact hown.elapsed
      · exact absurd hdeadline.elapsed htotal
  · rw [if_neg hphase]
    refine iff_of_true (fun hreached => ⟨.timeoutTotal, ?_, ?_⟩) fun h => hphase h.2.1
    · rcases hreached with hown | hdeadline
      · exact absurd (absDeadline_le_iff.mpr (.inl hown)) hphase
      · exact if_pos (absDeadline_le_iff.mpr (.inl hdeadline))
    · rcases hreached with hown | hdeadline
      · exact absurd (absDeadline_le_iff.mpr (.inl hown)) hphase
      · exact curlTimeout_total hdeadline.elapsed _ _

/-- 60 ms after the start, with 30 ms for the first byte and 60 ms in total, the scripted
transport names the first byte and the curl transport the total. -/
theorem timeouts_differ :
    let t : Timeouts := ⟨disabled, 30, disabled, 60⟩
    scriptTimeout .statusLine 0 60 0 100 t = .inl .timeoutFirstByte ∧
      curlTimeout false 0 60 0 t = some .timeoutTotal ∧ ¬ SameTimeout .statusLine 0 60 0 100 t := by
  intro t
  have hscript : scriptTimeout .statusLine 0 60 0 100 t = .inl .timeoutFirstByte := by
    decide +kernel
  have hcurl : curlTimeout false 0 60 0 t = some .timeoutTotal := by decide +kernel
  refine ⟨hscript, hcurl, fun hsame => ?_⟩
  obtain ⟨st, hst, hst'⟩ := hsame (.inl ⟨by decide, by decide⟩)
  rw [hscript] at hst
  rw [show Awaiting.delivered .statusLine = false from rfl, hcurl, ← Sum.inl.inj hst] at hst'
  cases hst'

end Sicha
