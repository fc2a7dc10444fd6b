/-
**Locks that are handed on by priority.**

* `enqueue` — the queue of those who wait: the more urgent first, and otherwise in the order in which
  they came.
* `idxOf_enqueue` — an arrival puts somebody back only when it is more urgent.
* `PriorityLock` — free, or held by one thread while others wait; nobody waits for a free lock.
* `acquire`, `tryAcquire`, `release`; `QueueOk` is kept by them.
-/

import Mathlib.Data.List.Nodup

namespace Aple.Lib

variable {Thread : Type} {prio : Thread → ℕ}

/-! ### The queue -/

section Queue

variable {t u : Thread} {q : List Thread}

/-- Behind all that are as urgent; the smaller number is the more urgent one. -/
def enqueue (prio : Thread → ℕ) (t : Thread) : List Thread → List Thread
  | [] => [t]
  | x :: q => if prio x ≤ prio t then x :: enqueue prio t q else t :: x :: q

@[simp] theorem mem_enqueue : u ∈ enqueue prio t q ↔ u = t ∨ u ∈ q := by
  induction q with
  | nil => simp [enqueue]
  | cons x q ih =>
    unfold enqueue
    split
    · rw [List.mem_cons, ih, List.mem_cons]
      exact or_left_comm
    · rw [List.mem_cons]

theorem nodup_enqueue (nodup : q.Nodup) (new : t ∉ q) : (enqueue prio t q).Nodup := by
  induction q with
  | nil => exact List.nodup_singleton t
  | cons x q ih =>
    obtain ⟨notThere, rest⟩ := List.nodup_cons.mp nodup
    unfold enqueue
    split
    · refine List.nodup_cons.mpr ⟨fun again => ?_, ih rest fun member => new (List.mem_cons_of_mem _ member)⟩
      rcases mem_enqueue.mp again with rfl | member
      · exact new List.mem_cons_self
      · exact notThere member
    · exact List.nodup_cons.mpr ⟨new, nodup⟩

/-- The more urgent are in front. -/
def ByUrgency (prio : Thread → ℕ) (q : List Thread) : Prop := q.Pairwise fun x y => prio x ≤ prio y

theorem byUrgency_enqueue (sorted : ByUrgency prio q) : ByUrgency prio (enqueue prio t q) := by
  induction q with
  | nil => exact List.pairwise_singleton _ t
  | cons x q ih =>
    obtain ⟨first, rest⟩ := List.pairwise_cons.mp sorted
    unfold enqueue
    split
    case isTrue before =>
      refine List.pairwise_cons.mpr ⟨fun y member => ?_, ih rest⟩
      rcases mem_enqueue.mp member with rfl | member
      · exact before
      · exact first y member
    case isFalse behind =>
      have le := Nat.le_of_lt (Nat.lt_of_not_le behind)
      refine List.pairwise_cons.mpr ⟨fun y member => ?_, sorted⟩
      rcases List.mem_cons.mp member with rfl | member
      · exact le
      · exact Nat.le_trans le (first y member)

/-- **An arrival puts a waiting thread back** by one place if it is more urgent, and else not. -/
theorem idxOf_enqueue [DecidableEq Thread] (sorted : ByUrgency prio q) (waits : t ∈ q) (other : u ≠ t) :
    (enqueue prio u q).idxOf t = q.idxOf t + if prio u < prio t then 1 else 0 := by
  induction q with
  | nil => cases waits
  | cons x q ih =>
    obtain ⟨first, rest⟩ := List.pairwise_cons.mp sorted
    unfold enqueue
    split
    case isTrue before =>
      by_cases head : x = t
      · rw [head, List.idxOf_cons_self, List.idxOf_cons_self, if_neg (by rw [← head]; omega)]
      · have member := (List.mem_cons.mp waits).resolve_left (Ne.symm head)
        rw [List.idxOf_cons_ne _ head, List.idxOf_cons_ne _ head, ih rest member]
        omega
    case isFalse behind =>
      have urgent : prio u < prio t := by
        rcases List.mem_cons.mp waits with rfl | member
        · omega
        · have := first t member
          omega
      rw [List.idxOf_cons_ne _ other, if_pos urgent]

end Queue

/-! ### The lock -/

/-- A lock: who waits waits for its owner. -/
inductive PriorityLock (Thread : Type)
  | free
  | held (owner : Thread) (queue : List Thread)
deriving DecidableEq, Repr

namespace PriorityLock

variable {l : PriorityLock Thread} {t u : Thread}

/-- Those who wait. -/
def queue : PriorityLock Thread → List Thread
  | free => []
  | held _ queue => queue

/-- Who has it. -/
def owners : PriorityLock Thread → List Thread
  | free => []
  | held owner _ => [owner]

/-- Take it, or wait for it. -/
def acquire (prio : Thread → ℕ) (t : Thread) : PriorityLock Thread → PriorityLock Thread
  | free => held t []
  | held owner queue => held owner (enqueue prio t queue)

/-- Take it if it is free. -/
def tryAcquire (t : Thread) : PriorityLock Thread → PriorityLock Thread
  | free => held t []
  | held owner queue => held owner queue

/-- Give it to the first one that waits. -/
def release : PriorityLock Thread → PriorityLock Thread
  | free => free
  | held _ [] => free
  | held _ (next :: queue) => held next queue

/-- The queue is in order, and nobody waits twice. -/
structure QueueOk (prio : Thread → ℕ) (l : PriorityLock Thread) : Prop where
  sorted : ByUrgency prio l.queue
  nodup : l.queue.Nodup

namespace QueueOk

theorem free : QueueOk prio (.free : PriorityLock Thread) := ⟨.nil, .nil⟩

theorem acquire (ok : QueueOk prio l) (new : t ∉ l.queue) : QueueOk prio (l.acquire prio t) := by
  cases l with
  | free => exact ⟨.nil, .nil⟩
  | held owner queue => exact ⟨byUrgency_enqueue ok.sorted, nodup_enqueue ok.nodup new⟩

theorem tryAcquire (ok : QueueOk prio l) : QueueOk prio (l.tryAcquire t) := by
  cases l with
  | free => exact ⟨.nil, .nil⟩
  | held owner queue => exact ok

theorem release (ok : QueueOk prio l) : QueueOk prio l.release := by
  cases l with
  | free => exact ok
  | held owner queue =>
    cases queue with
    | nil => exact ⟨.nil, .nil⟩
    | cons next queue =>
      exact ⟨(List.pairwise_cons.mp ok.sorted).2, (List.nodup_cons.mp ok.nodup).2⟩

end QueueOk

/-- Nobody has more than one place in front of the lock. -/
theorem owners_length_le (l : PriorityLock Thread) : l.owners.length ≤ 1 := by
  cases l with
  | free => exact Nat.zero_le 1
  | held owner queue => exact Nat.le_refl 1

/-- **Who waits waits for somebody.** -/
theorem owners_of_waits (waits : t ∈ l.queue) : l.owners ≠ [] := by
  cases l with
  | free => cases waits
  | held owner queue => exact List.cons_ne_nil _ _

/-- **A release** makes the first that waits the owner, or takes one away that is in front. -/
theorem release_waits [DecidableEq Thread] (waits : t ∈ l.queue) :
    (∃ owner others, l = held owner (t :: others)) ∨
      (t ∈ l.release.queue ∧ l.queue.idxOf t = l.release.queue.idxOf t + 1) := by
  cases l with
  | free => cases waits
  | held owner queue =>
    cases queue with
    | nil => cases waits
    | cons next queue =>
      by_cases first : next = t
      · exact .inl ⟨owner, queue, by rw [first]⟩
      · refine .inr ⟨(List.mem_cons.mp waits).resolve_left (Ne.symm first), ?_⟩
        exact List.idxOf_cons_ne _ first

/-- A lock that somebody waits for is not to be had without waiting. -/
theorem tryAcquire_waits (waits : t ∈ l.queue) : l.tryAcquire u = l := by
  cases l with
  | free => cases waits
  | held owner queue => rfl

/-- **Nobody passes** a thread that is as urgent. -/
theorem idxOf_acquire [DecidableEq Thread] (ok : QueueOk prio l) (waits : t ∈ l.queue) (other : u ≠ t) :
    (l.acquire prio u).queue.idxOf t = l.queue.idxOf t + if prio u < prio t then 1 else 0 := by
  cases l with
  | free => cases waits
  | held owner queue => exact idxOf_enqueue ok.sorted waits other

end PriorityLock

end Aple.Lib
