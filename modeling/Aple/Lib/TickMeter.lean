/-
**A counter that is read twice by every check.**

A check hands out the counter less the value recorded last, and then records the counter again; the
counter may have moved on between the two reads.

* `Meter.check` — one check, with what its two reads find.
* `Metered` — the intervals and the losses of the checks so far make up what has elapsed.
* `Meter.Ticking` — a sequence of meters in which each step is a check or none.
* **`Ticking.kept_iff`** — nothing is lost at any time exactly when no check loses anything.
-/

import Mathlib.Algebra.BigOperators.Group.Finset.Basic
import Mathlib.Tactic.Abel

namespace Aple.Lib

/-- What the two reads of a check find. -/
structure Reads (G : Type) where
  first : G
  second : G
deriving DecidableEq, Repr

/-- The value recorded last, and the intervals handed out. -/
structure Meter (G : Type) where
  last : G
  intervals : List G
deriving DecidableEq, Repr

variable {G : Type} [AddCommGroup G]

/-- By how much the counter moves on between the two reads. -/
def Reads.lost (reads : Reads G) : G := reads.second - reads.first

theorem Reads.lost_eq_zero {reads : Reads G} : reads.lost = 0 ↔ reads.second = reads.first :=
  sub_eq_zero

namespace Meter

/-- A meter that has handed out nothing. -/
def start (initial : G) : Meter G := ⟨initial, []⟩

/-- One check. -/
def check (meter : Meter G) (reads : Reads G) : Meter G :=
  ⟨reads.second, meter.intervals ++ [reads.first - meter.last]⟩

/-- The check that finds what `counter` has for it. -/
def turn (counter : ℕ → Reads G) (meter : Meter G) : Meter G :=
  meter.check (counter meter.intervals.length)

@[simp] theorem turn_intervals (counter : ℕ → Reads G) (meter : Meter G) :
    (meter.turn counter).intervals =
      meter.intervals ++ [(counter meter.intervals.length).first - meter.last] :=
  rfl

@[simp] theorem turn_last (counter : ℕ → Reads G) (meter : Meter G) :
    (meter.turn counter).last = (counter meter.intervals.length).second :=
  rfl

end Meter

/-- What the first `checks` checks lose. -/
def lostIn (counter : ℕ → Reads G) (checks : ℕ) : G := ∑ k ∈ Finset.range checks, (counter k).lost

/-- The intervals add up to what has elapsed. -/
def Kept (initial : G) (meter : Meter G) : Prop := meter.intervals.sum = meter.last - initial

/-- The intervals and the losses add up to what has elapsed. -/
def Metered (counter : ℕ → Reads G) (initial : G) (meter : Meter G) : Prop :=
  meter.intervals.sum + lostIn counter meter.intervals.length = meter.last - initial

variable {counter : ℕ → Reads G} {initial : G} {meter : Meter G}

theorem metered_start : Metered counter initial (.start initial) := by
  simp [Metered, Meter.start, lostIn]

theorem Metered.turn (metered : Metered counter initial meter) :
    Metered counter initial (meter.turn counter) := by
  unfold Metered at metered ⊢
  rw [Meter.turn_intervals, Meter.turn_last, List.length_append, List.length_singleton, lostIn,
    Finset.sum_range_succ, ← lostIn, List.sum_append, List.sum_singleton, Reads.lost]
  calc meter.intervals.sum + ((counter meter.intervals.length).first - meter.last) +
        (lostIn counter meter.intervals.length + ((counter meter.intervals.length).second -
          (counter meter.intervals.length).first))
      = meter.intervals.sum + lostIn counter meter.intervals.length +
          ((counter meter.intervals.length).second - meter.last) := by abel
    _ = (counter meter.intervals.length).second - initial := by rw [metered]; abel

/-- **At any one time** nothing is missing exactly when the losses so far cancel out. -/
theorem Metered.kept_iff (metered : Metered counter initial meter) :
    Kept initial meter ↔ lostIn counter meter.intervals.length = 0 := by
  unfold Kept
  rw [← metered]
  exact left_eq_add

/-! ### Sequences of meters -/

/-- Each step is a check or none. -/
structure Meter.Ticking (counter : ℕ → Reads G) (initial : G) (meters : ℕ → Meter G) : Prop where
  starts : meters 0 = .start initial
  step : ∀ n, meters (n + 1) = meters n ∨ meters (n + 1) = (meters n).turn counter

namespace Meter.Ticking

variable {meters : ℕ → Meter G} (ticking : Meter.Ticking counter initial meters)
include ticking

theorem metered (n : ℕ) : Metered counter initial (meters n) := by
  induction n with
  | zero =>
    rw [ticking.starts]
    exact metered_start
  | succ n ih =>
    rcases ticking.step n with same | turned
    · rwa [same]
    · rw [turned]
      exact ih.turn

/-- **At all times** nothing is missing exactly when no check loses anything. -/
theorem kept_iff (N : ℕ) : (∀ n ≤ N, Kept initial (meters n)) ↔
    ∀ k < (meters N).intervals.length, (counter k).lost = 0 := by
  induction N with
  | zero => simp [ticking.starts, Kept, Meter.start]
  | succ N ih =>
    have now := (ticking.metered (N + 1)).kept_iff
    have latest : (∀ n ≤ N + 1, Kept initial (meters n)) ↔
        (∀ n ≤ N, Kept initial (meters n)) ∧ Kept initial (meters (N + 1)) := by
      simp [Nat.le_succ_iff, or_imp, forall_and]
    rw [latest, ih, now]
    rcases ticking.step N with same | turned
    · rw [same]
      exact and_iff_left_of_imp fun none_lost => Finset.sum_eq_zero fun k early =>
        none_lost k (Finset.mem_range.mp early)
    · rw [turned, Meter.turn_intervals, List.length_append, List.length_singleton,
        Nat.forall_lt_succ_right, lostIn, Finset.sum_range_succ]
      exact and_congr_right fun none_lost => by
        rw [Finset.sum_eq_zero fun k early => none_lost k (Finset.mem_range.mp early), zero_add]

end Meter.Ticking

end Aple.Lib
