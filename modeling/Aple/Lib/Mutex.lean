/-
**Recursive mutexes.**

* `Mutex Thread` — free, or owned by a thread that locked it one or more times.
* `Mutex.acquire` — `none` when the caller has to wait; `Mutex.release` — one unlock by the owner.
* `Mutex.holds` — how often a thread has it locked. `holds_acquire` and `holds_release` say what the
  two do to it, and `acquire_eq_none` who has to wait.
-/

import Mathlib.Data.Nat.Notation
import Mathlib.Tactic.Basic

namespace Aple.Lib

/-- A recursive mutex; the number is how often the owner locked it again. -/
inductive Mutex (Thread : Type)
  | free
  | owned (owner : Thread) (again : ℕ)
deriving DecidableEq, Repr

namespace Mutex

variable {Thread : Type} [DecidableEq Thread] {m m' : Mutex Thread} {t t' : Thread}

/-- Lock it; `none` while another thread owns it. -/
def acquire (t : Thread) : Mutex Thread → Option (Mutex Thread)
  | free => some (owned t 0)
  | owned owner again => if owner = t then some (owned owner (again + 1)) else none

/-- Undo one lock of the owner. -/
def release : Mutex Thread → Mutex Thread
  | owned owner (again + 1) => owned owner again
  | _ => free

/-- How often a thread has it locked. -/
def holds (m : Mutex Thread) (t : Thread) : ℕ :=
  match m with
  | free => 0
  | owned owner again => if owner = t then again + 1 else 0

theorem acquire_owned (owner : Thread) (again : ℕ) : (owned owner again).acquire t =
    if owner = t then some (owned owner (again + 1)) else none := rfl

@[simp] theorem holds_free : (free : Mutex Thread).holds t = 0 := rfl

theorem holds_owned (owner : Thread) (again : ℕ) :
    (owned owner again).holds t = if owner = t then again + 1 else 0 := rfl

/-- Whoever holds a mutex owns it. -/
theorem owner_of_holds (held : 0 < m.holds t) : ∃ again, m = owned t again := by
  cases m with
  | free => cases held
  | owned owner again =>
    rw [holds_owned] at held
    by_cases mine : owner = t
    · exact ⟨again, by rw [mine]⟩
    · rw [if_neg mine] at held
      cases held

/-- **A thread waits exactly when another one holds the mutex.** -/
theorem acquire_eq_none : m.acquire t = none ↔ ∃ other, other ≠ t ∧ 0 < m.holds other := by
  constructor
  · intro waits
    cases m with
    | free => cases waits
    | owned owner again =>
      rw [acquire_owned] at waits
      by_cases mine : owner = t
      · rw [if_pos mine] at waits
        cases waits
      · refine ⟨owner, mine, ?_⟩
        rw [holds_owned, if_pos rfl]
        exact Nat.succ_pos again
  · rintro ⟨other, differs, held⟩
    obtain ⟨again, rfl⟩ := owner_of_holds held
    rw [acquire_owned, if_neg differs]

/-- **Locking counts one more** for the caller. -/
theorem holds_acquire (locks : m.acquire t = some m') (t' : Thread) :
    m'.holds t' = m.holds t' + if t = t' then 1 else 0 := by
  cases m with
  | free =>
    rw [← Option.some.inj locks, holds_owned, holds_free]
    split <;> rfl
  | owned owner again =>
    obtain ⟨rfl, same⟩ := Option.ite_none_right_eq_some.mp locks
    rw [← Option.some.inj same, holds_owned, holds_owned]
    split <;> rfl

/-- **Unlocking counts one less** for the caller. -/
theorem holds_release (held : 0 < m.holds t) (t' : Thread) :
    m.release.holds t' + (if t = t' then 1 else 0) = m.holds t' := by
  obtain ⟨again, rfl⟩ := owner_of_holds held
  cases again with
  | zero =>
    show 0 + _ = _
    rw [holds_owned, Nat.zero_add]
  | succ again =>
    show (owned t again).holds t' + _ = _
    rw [holds_owned, holds_owned]
    split <;> rfl

end Mutex

end Aple.Lib
