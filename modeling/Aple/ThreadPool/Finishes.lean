/-
**The pool finishes.**

* `PoolState.left` — the number of steps that are left when nothing more is submitted.
* `left_step` — each step of each thread is one of them.
* `pool_progress` — there is always a thread that can make a step: the posts of `pool_destroy` are
  enough for all the workers that still wait.
* **`pool_finishes`** — every schedule makes the same number of steps and ends with all workers
  joined.
-/

import Aple.Lib.Budget
import Aple.ThreadPool.ExactlyOnce

namespace Aple.ThreadPool

open Aple.Lib

variable {Fn Param : Type} {n : ℕ} {s after : PoolState n Fn Param} {nodes : List Addr}

/-! ### What is left -/

/-- Where a worker stands in the turn that a post pays for: `sem_wait`, `dequeue`, and the call or
the accumulation. -/
def Worker.left (w : Worker) : ℕ :=
  match w.pc with
  | .awake => 2
  | .running _ | .stopping => 1
  | .waiting | .exited => 0

/-- The steps of the main thread, each post together with the three steps it pays for. -/
def Main.left (n : ℕ) : Main → ℕ
  | .enqueued => 5 * n + 7
  | .ready => 5 * n + 3
  | .destroying i => 4 * (n - i) + n + 2
  | .joining i => n - i + 1
  | .joined => 0

/-- The steps that are left. -/
def PoolState.left (s : PoolState n Fn Param) : ℕ :=
  s.main.left n + 3 * s.pool.semaphore + total Worker.left s.workers

/-- The step that brings a new task. -/
def PoolEvent.submits : PoolEvent n Fn Param → Bool
  | .submit .. => true
  | _ => false

/-- Nothing is submitted. -/
def submitsNothing (_ : PoolState n Fn Param) (event : PoolEvent n Fn Param) : Prop :=
  event.submits = false

/-- No thread can make a step. -/
def PoolState.Stuck (s : PoolState n Fn Param) : Prop :=
  ∀ event, event.submits = false → poolExec s event = none

/-- One worker moves on by one step. -/
theorem left_move (worker : Fin n) (moved : Worker) (main : after.main = s.main)
    (semaphore : after.pool.semaphore = s.pool.semaphore)
    (workers : after.workers = Function.update s.workers worker moved)
    (place : moved.left + 1 = (s.workers worker).left) : after.left + 1 = s.left := by
  have shifted := total_update Worker.left s.workers worker moved
  unfold PoolState.left
  rw [main, semaphore, workers]
  omega

/-- `dequeue` leaves the semaphore alone. -/
theorem dequeue_semaphore {pool pool' : Pool Fn Param} {t : Ptr}
    (returns : dequeue pool = some (t, pool')) : pool'.semaphore = pool.semaphore := by
  unfold dequeue at returns
  split at returns
  · rw [← (Prod.mk.inj (Option.some.inj returns)).2]
  · split at returns
    · cases returns
    · rw [← (Prod.mk.inj (Option.some.inj returns)).2]

/-- **Every step lowers what is left by one.** -/
theorem left_step {event : PoolEvent n Fn Param} (nothing : event.submits = false)
    (runs : poolExec s event = some after) : after.left + 1 = s.left := by
  cases event with
  | submit => cases nothing
  | submitPost =>
    obtain ⟨enqueued, moved⟩ := Option.ite_none_right_eq_some.mp runs
    rw [← Option.some.inj moved]
    simp only [PoolState.left, Pool.semPost, enqueued, Main.left]
    omega
  | destroy =>
    obtain ⟨ready, moved⟩ := Option.ite_none_right_eq_some.mp runs
    rw [← Option.some.inj moved]
    simp only [PoolState.left, ready, Main.left]
    omega
  | destroyTurn =>
    simp only [poolExec] at runs
    split at runs
    case h_2 => cases runs
    rename_i i destroying
    by_cases more : i < n
    · rw [if_pos more] at runs
      rw [← Option.some.inj runs]
      simp only [PoolState.left, Pool.semPost, destroying, Main.left]
      omega
    · rw [if_neg more] at runs
      rw [← Option.some.inj runs]
      simp only [PoolState.left, destroying, Main.left]
      omega
  | joinTurn =>
    simp only [poolExec] at runs
    split at runs
    case h_2 => cases runs
    rename_i i joining
    by_cases more : i < n
    · rw [dif_pos more] at runs
      obtain ⟨-, moved⟩ := Option.ite_none_right_eq_some.mp runs
      rw [← Option.some.inj moved]
      simp only [PoolState.left, joining, Main.left]
      omega
    · rw [dif_neg more] at runs
      rw [← Option.some.inj runs]
      simp only [PoolState.left, joining, Main.left]
      omega
  | semWait worker =>
    obtain ⟨⟨waiting, token⟩, moved⟩ := Option.ite_none_right_eq_some.mp runs
    have gained := total_update Worker.left s.workers worker { s.workers worker with pc := .awake }
    rw [← Option.some.inj moved]
    simp only [PoolState.left, Worker.left, waiting, PoolState.setWorker] at gained ⊢
    omega
  | dequeue worker =>
    obtain ⟨awake, moves⟩ := Option.ite_none_right_eq_some.mp runs
    have stands : (s.workers worker).left = 2 := by rw [Worker.left, awake]
    unfold workerDequeue at moves
    split at moves
    · cases moves
    all_goals
      rename_i pool returns
      rw [← Option.some.inj moves]
      refine left_move worker _ rfl (dequeue_semaphore returns) rfl ?_
      rw [stands]
      rfl
  | execute worker result =>
    simp only [poolExec] at runs
    split at runs
    case h_2 => cases runs
    rename_i t running
    unfold workerExecute at runs
    split at runs
    · cases runs
    rw [← Option.some.inj runs]
    refine left_move worker _ rfl rfl rfl ?_
    rw [Worker.left, Worker.left, running]
  | accumulate worker =>
    obtain ⟨stopping, moves⟩ := Option.ite_none_right_eq_some.mp runs
    rw [← Option.some.inj moves]
    refine left_move worker _ rfl rfl rfl ?_
    rw [Worker.left, Worker.left, stopping]

/-! ### Always a thread that can go on -/

/-- A worker that has not stopped leaves the others at most. -/
theorem stopped_lt (worker : Fin n) (unfinished : (s.workers worker).stopped = 0) :
    total Worker.stopped s.workers < n := by
  have most : ∀ workers : Fin n → Worker, total Worker.stopped workers ≤ n := by
    intro workers
    have each : ∀ worker ∈ Finset.univ, (workers worker).stopped ≤ 1 := by
      intro worker _
      unfold Worker.stopped
      split
      · exact le_rfl
      · exact Nat.zero_le 1
    calc total Worker.stopped workers
      _ ≤ ∑ _ : Fin n, 1 := Finset.sum_le_sum each
      _ = n := by rw [← Finset.card_eq_sum_ones, Finset.card_univ, Fintype.card_fin]
  -- with this one stopped too there are still at most `n`
  have shifted := total_update Worker.stopped s.workers worker ⟨.exited, 0, 0⟩
  have all := most (Function.update s.workers worker ⟨.exited, 0, 0⟩)
  have one : (⟨.exited, 0, 0⟩ : Worker).stopped = 1 := rfl
  omega

/-- `dequeue` reads a node that is there. -/
theorem dequeue_returns {pool : Pool Fn Param} (waits : Waits pool nodes) :
    ∃ t pool', dequeue pool = some (t, pool') := by
  unfold dequeue
  cases atHead : pool.head with
  | none => exact ⟨_, _, rfl⟩
  | some t =>
    have first := waits.linked.first_eq
    rw [atHead] at first
    obtain ⟨rest, rfl⟩ := List.head?_eq_some_iff.mp first.symm
    obtain ⟨task, found⟩ := Option.ne_none_iff_exists'.mp (waits.live t List.mem_cons_self)
    simp only [found]
    exact ⟨_, _, rfl⟩

namespace PoolInv

/-- A worker behind `sem_wait` can dequeue. -/
theorem awake_steps (inv : PoolInv s nodes) {worker : Fin n}
    (awake : (s.workers worker).pc = .awake) : ∃ next, poolExec s (.dequeue worker) = some next := by
  obtain ⟨t, pool, returns⟩ := dequeue_returns inv.waits
  simp only [poolExec, if_pos awake, workerDequeue, returns]
  cases t with
  | none => exact ⟨_, rfl⟩
  | some t => exact ⟨_, rfl⟩

/-- A worker with a task can run it. -/
theorem running_steps (inv : PoolInv s nodes) {worker : Fin n} {t : Addr}
    (running : (s.workers worker).pc = .running t) (result : ℤ) :
    ∃ next, poolExec s (.execute worker result) = some next := by
  have carried : t ∈ total Worker.carries s.workers := by
    refine Multiset.mem_sum.mpr ⟨worker, Finset.mem_univ worker, ?_⟩
    rw [Worker.carries, running]
    exact Multiset.mem_singleton_self t
  have taken : t ∈ (s.dequeued : Multiset Addr) := by
    rw [← inv.runs]
    exact Multiset.mem_add.mpr (.inr carried)
  have member : t ∈ s.submitted.map Job.node := by
    rw [inv.order]
    exact List.mem_append_left _ (Multiset.mem_coe.mp taken)
  obtain ⟨job, known, rfl⟩ := List.mem_map.mp member
  obtain ⟨task, found, -⟩ := inv.stored job known
  simp only [poolExec, running, workerExecute, found]
  exact ⟨_, rfl⟩

/-- **A worker that is waited for can go on**, or another one can. -/
theorem joining_steps (inv : PoolInv s nodes) {i : ℕ} (joining : s.main = .joining i) (more : i < n) :
    ∃ event next, event.submits = false ∧ poolExec s event = some next := by
  cases stands : (s.workers ⟨i, more⟩).pc with
  | awake =>
    obtain ⟨next, runs⟩ := inv.awake_steps stands
    exact ⟨_, next, rfl, runs⟩
  | running t =>
    obtain ⟨next, runs⟩ := inv.running_steps stands 0
    exact ⟨_, next, rfl, runs⟩
  | stopping => exact ⟨.accumulate ⟨i, more⟩, _, rfl, if_pos stands⟩
  | exited =>
    refine ⟨.joinTurn, { s with main := .joining (i + 1) }, rfl, ?_⟩
    simp only [poolExec, joining, dif_pos more, if_pos stands]
  | waiting =>
    by_cases token : 0 < s.pool.semaphore
    · exact ⟨.semWait ⟨i, more⟩, _, rfl, if_pos ⟨stands, token⟩⟩
    · -- every post was used up, and not all of them by workers that stopped
      have fewer : total Worker.stopped s.workers < n :=
        stopped_lt ⟨i, more⟩ (by simp [Worker.stopped, stands])
      have tokens := inv.tokens
      rw [joining] at tokens
      simp only [Main.owes, Main.posts] at tokens
      have some_woken : total Worker.woken s.workers ≠ 0 := by omega
      obtain ⟨worker, -, woken⟩ := Finset.exists_ne_zero_of_sum_ne_zero some_woken
      have awake : (s.workers worker).pc = .awake := by
        by_contra asleep
        exact woken (if_neg asleep)
      obtain ⟨next, runs⟩ := inv.awake_steps awake
      exact ⟨_, next, rfl, runs⟩

end PoolInv

/-- **There is always a thread that can go on**, until all workers are joined. -/
theorem pool_progress (inv : PoolInv s nodes) (unfinished : s.main ≠ .joined) :
    ∃ event next, event.submits = false ∧ poolExec s event = some next := by
  cases stands : s.main with
  | ready => exact ⟨.destroy, _, rfl, if_pos stands⟩
  | enqueued => exact ⟨.submitPost, _, rfl, if_pos stands⟩
  | destroying i =>
    by_cases more : i < n
    · refine ⟨.destroyTurn, { s with pool := s.pool.semPost, main := .destroying (i + 1) }, rfl, ?_⟩
      simp only [poolExec, stands, if_pos more]
    · refine ⟨.destroyTurn, { s with main := .joining 0 }, rfl, ?_⟩
      simp only [poolExec, stands, if_neg more]
  | joining i =>
    by_cases more : i < n
    · exact inv.joining_steps stands more
    · refine ⟨.joinTurn, { s with main := .joined }, rfl, ?_⟩
      simp only [poolExec, stands, dif_neg more]
  | joined => exact absurd stands unfinished

/-- Nothing is left when all workers are joined. -/
theorem left_joined (inv : PoolInv s nodes) (some_workers : 0 < n) (joined : s.main = .joined) :
    s.left = 0 := by
  obtain ⟨none_left, exited, -, -⟩ := inv.closed_accounts some_workers joined
  have stopped : total Worker.stopped s.workers = n := by
    have one : ∀ worker, (s.workers worker).stopped = 1 := fun worker => if_pos (.inr (exited worker))
    calc total Worker.stopped s.workers
      _ = ∑ _ : Fin n, 1 := Finset.sum_congr rfl fun worker _ => one worker
      _ = n := by rw [← Finset.card_eq_sum_ones, Finset.card_univ, Fintype.card_fin]
  have idle : total Worker.left s.workers = 0 :=
    total_eq_zero fun worker => by rw [Worker.left, exited]
  have tokens := inv.tokens
  rw [joined, none_left, stopped] at tokens
  simp only [List.length_nil, Main.owes, Main.posts] at tokens
  simp only [PoolState.left, joined, Main.left, idle]
  omega

/-- **The pool finishes.** Without further submissions every run is part of one that joins all the
workers, and every schedule takes the same number of steps. -/
theorem pool_finishes (some_workers : 0 < n) (reached : (poolSystem n Fn Param).Reachable s)
    {events : List (PoolEvent n Fn Param)}
    (run : (poolSystem n Fn Param).RunBy submitsNothing s events after) :
    events.length + after.left = s.left ∧ (after.Stuck ↔ after.main = .joined) ∧
      (after.Stuck ↔ after.left = 0) := by
  have counted : events.length + after.left = s.left :=
    run.countdown fun _ _ _ nothing runs => left_step nothing runs
  obtain ⟨nodes, inv⟩ := reachable_poolInv (run.reachable reached)
  have progress := fun unfinished => pool_progress inv unfinished
  have ended : after.left = 0 → after.Stuck := by
    intro none_left event nothing
    by_contra steps
    obtain ⟨next, runs⟩ := Option.ne_none_iff_exists'.mp steps
    have := left_step nothing runs
    omega
  have joined : after.Stuck → after.main = .joined := by
    intro stuck
    by_contra unfinished
    obtain ⟨event, next, nothing, runs⟩ := progress unfinished
    rw [stuck event nothing] at runs
    cases runs
  have empty : after.main = .joined → after.left = 0 := left_joined inv some_workers
  exact ⟨counted, ⟨joined, fun all => ended (empty all)⟩, ⟨fun stuck => empty (joined stuck), ended⟩⟩

/-- One worker runs a task that was posted, while the main thread destroys the pool. -/
def oneTask : List (PoolEvent 1 ℕ ℕ) :=
  [.destroy, .semWait 0, .dequeue 0, .destroyTurn, .execute 0 5, .semWait 0, .dequeue 0, .accumulate 0,
    .destroyTurn, .joinTurn, .joinTurn]

theorem oneTask_runBy {s after : PoolState 1 ℕ ℕ} (runs : runEvents poolExec s oneTask = some after) :
    (poolSystem 1 ℕ ℕ).RunBy submitsNothing s oneTask after := by
  refine System.RunBy.of_run (fun _ _ _ ran => ran) ?_ runs
  have none_submits : ∀ event ∈ oneTask, event.submits = false := by simp [oneTask, PoolEvent.submits]
  exact fun event member _ => none_submits event member

theorem pool_finishes_one : ∃ s after, (poolSystem 1 ℕ ℕ).Reachable s ∧
    runEvents poolExec s oneTask = some after ∧ s.submitted = [⟨10, 7, 1⟩] ∧
    oneTask.length = s.left ∧ after.Stuck ∧ after.main = .joined := by
  have start : (poolSystem 1 ℕ ℕ).Reachable (PoolState.initial 1 ℕ ℕ) := .start rfl
  have submitted := start.then_step
    (show poolExec (PoolState.initial 1 ℕ ℕ) (.submit 10 7 1) = some _ from rfl)
  have posted := submitted.then_step (show poolExec _ .submitPost = some _ from rfl)
  have ends := pool_finishes Nat.one_pos posted (oneTask_runBy rfl)
  exact ⟨_, _, posted, rfl, rfl, rfl, ends.2.1.mpr rfl, rfl⟩

end Aple.ThreadPool
