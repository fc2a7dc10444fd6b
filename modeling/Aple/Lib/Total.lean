/-
**Totals over finitely many threads.**

* `total share threads` — what all the threads contribute together.
* `total_update` — a step of one thread moves the total by its own share only.
* `le_total`, `total_of_forall`, `total_eq_zero` — one thread's share, and threads that all
  contribute the same.
-/

import Mathlib.Algebra.BigOperators.Group.Finset.Piecewise
import Mathlib.Algebra.Order.BigOperators.Group.Finset
import Mathlib.Data.Fintype.Card

namespace Aple.Lib

variable {Thread Local M : Type} [Fintype Thread]

/-- The sum of the shares of all threads. -/
def total [AddCommMonoid M] (share : Local → M) (threads : Thread → Local) : M :=
  ∑ thread, share (threads thread)

/-- **One thread moves the total by its own share.** -/
theorem total_update [AddCommMonoid M] [DecidableEq Thread] (share : Local → M)
    (threads : Thread → Local) (thread : Thread) (moved : Local) :
    total share (Function.update threads thread moved) + share (threads thread) =
      total share threads + share moved := by
  have rest : ∀ other ∈ Finset.univ.erase thread,
      share (Function.update threads thread moved other) = share (threads other) := by
    intro other member
    rw [Function.update_of_ne (Finset.ne_of_mem_erase member)]
  unfold total
  rw [← Finset.add_sum_erase _ _ (Finset.mem_univ thread), Finset.sum_congr rfl rest,
    ← Finset.add_sum_erase _ (fun other => share (threads other)) (Finset.mem_univ thread),
    Function.update_self]
  ac_rfl

/-- The total contains the share of each thread. -/
theorem le_total (share : Local → ℕ) (threads : Thread → Local) (thread : Thread) :
    share (threads thread) ≤ total share threads :=
  Finset.single_le_sum (f := fun other => share (threads other)) (fun _ _ => Nat.zero_le _)
    (Finset.mem_univ thread)

/-- Threads that all contribute the same. -/
theorem total_of_forall [AddCommMonoid M] {share : Local → M} {threads : Thread → Local} {value : M}
    (same : ∀ thread, share (threads thread) = value) :
    total share threads = Fintype.card Thread • value := by
  unfold total
  rw [Finset.sum_congr rfl fun thread _ => same thread, Finset.sum_const, Finset.card_univ]

/-- Threads that contribute nothing. -/
theorem total_eq_zero [AddCommMonoid M] {share : Local → M} {threads : Thread → Local}
    (nothing : ∀ thread, share (threads thread) = 0) : total share threads = 0 :=
  Finset.sum_eq_zero fun thread _ => nothing thread

end Aple.Lib
