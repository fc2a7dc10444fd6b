/-
**The thread pool.**

* `Task`, `Pool` — the node of the task list and the pool record, with the memory of the nodes.
* `enqueue`, `dequeue` — the two list functions, on pointers.
* `Main`, `Worker` — where the main thread and a worker stand between two of their steps.
* `PoolEvent`, `poolExec`, `poolSystem` — `pool_submit`, `pool_destroy` and `worker`, interleaved. A
  section under `pool->mutex` is one step.

Results are exact integers; what a task function returns is not constrained, so it is part of the
event.
-/

import Mathlib.Logic.Function.Basic
import Mathlib.Data.Int.Notation
import Mathlib.Data.Nat.Notation
import Aple.Lib.Reach

namespace Aple.ThreadPool

open Aple.Lib

/-- Addresses of task nodes; the null pointer is `none`. -/
abbrev Addr := ℕ
abbrev Ptr := Option Addr

variable {Fn Param : Type} {n : ℕ}

/-! ### The task list -/

/-- A node of the task list. -/
structure Task (Fn Param : Type) where
  tid : ℕ
  fnPt : Fn
  next : Ptr
  param : Param

/-- The pool record, the task counter `tid` and the allocated nodes. -/
structure Pool (Fn Param : Type) where
  head : Ptr
  tail : Ptr
  semaphore : ℕ
  count : ℤ
  tid : ℕ
  tasks : Addr → Option (Task Fn Param)

/-- What `pool_init` leaves, apart from the threads. -/
def Pool.init : Pool Fn Param := ⟨none, none, 0, 0, 0, fun _ => none⟩

/-- `sem_post (&pool->semaphore)`. -/
def Pool.semPost (pool : Pool Fn Param) : Pool Fn Param :=
  { pool with semaphore := pool.semaphore + 1 }

/-- `enqueue`. A null or dangling tail pointer of a list that is not empty is a fault. -/
def enqueue (t : Addr) (pool : Pool Fn Param) : Option (Pool Fn Param) :=
  if pool.head = none then some { pool with head := some t, tail := some t }
  else
    match pool.tail with
    | none => none
    | some last =>
      match pool.tasks last with
      | none => none
      | some task => some { pool with
          tasks := Function.update pool.tasks last (some { task with next := some t })
          tail := some t }

/-- `dequeue`: the node or null. The tail pointer stays. -/
def dequeue (pool : Pool Fn Param) : Option (Ptr × Pool Fn Param) :=
  match pool.head with
  | none => some (none, pool)
  | some currTask =>
    match pool.tasks currTask with
    | none => none
    | some task => some (some currTask, { pool with head := task.next })

/-- The locked section of `pool_submit`: `malloc` returns `t`. -/
def poolSubmit (t : Addr) (fnPt : Fn) (param : Param) (pool : Pool Fn Param) :
    Option (Pool Fn Param) :=
  if pool.tasks t = none then
    enqueue t { pool with
      tasks := Function.update pool.tasks t (some ⟨pool.tid, fnPt, none, param⟩)
      tid := pool.tid + 1 }
  else none

/-! ### The threads -/

/-- Where the main thread stands: between two calls, in `pool_submit` before `sem_post`, in the two
loops of `pool_destroy` with their counter, behind them. -/
inductive Main
  | ready | enqueued
  | destroying (i : ℕ)
  | joining (i : ℕ)
  | joined
deriving DecidableEq, Repr

/-- Where a worker stands: before `sem_wait`, behind it, behind `dequeue` with a task or with null,
behind `pthread_exit`. -/
inductive WorkerPc
  | waiting | awake
  | running (t : Addr)
  | stopping | exited
deriving DecidableEq, Repr

/-- A worker with its local variables. -/
structure Worker where
  pc : WorkerPc
  numTasks : ℕ
  countInThread : ℤ
deriving DecidableEq, Repr

def Worker.start : Worker := ⟨.waiting, 0, 0⟩

/-- A submitted task. -/
structure Job (Fn Param : Type) where
  node : Addr
  fnPt : Fn
  param : Param
deriving DecidableEq, Repr

/-- The pool, the threads and the history of a run: what was submitted, which nodes were dequeued,
which calls of task functions were made and what they returned. -/
structure PoolState (n : ℕ) (Fn Param : Type) where
  pool : Pool Fn Param
  main : Main
  workers : Fin n → Worker
  submitted : List (Job Fn Param)
  dequeued : List Addr
  executed : List (Job Fn Param × ℤ)

/-- One step of one thread. -/
inductive PoolEvent (n : ℕ) (Fn Param : Type)
  | submit (t : Addr) (fnPt : Fn) (param : Param)
  | submitPost
  | destroy
  | destroyTurn
  | joinTurn
  | semWait (worker : Fin n)
  | dequeue (worker : Fin n)
  | execute (worker : Fin n) (result : ℤ)
  | accumulate (worker : Fin n)

/-- Move one worker. -/
def PoolState.setWorker (s : PoolState n Fn Param) (worker : Fin n) (moved : Worker) :
    PoolState n Fn Param :=
  { s with workers := Function.update s.workers worker moved }

/-! ### The steps -/

/-- The locked section of `worker` around `dequeue`. -/
def workerDequeue (s : PoolState n Fn Param) (worker : Fin n) : Option (PoolState n Fn Param) :=
  match dequeue s.pool with
  | none => none
  | some (none, pool) =>
    some { s.setWorker worker { s.workers worker with pc := .stopping } with pool := pool }
  | some (some t, pool) =>
    some { s.setWorker worker { s.workers worker with
        pc := .running t, numTasks := (s.workers worker).numTasks + 1 } with
      pool := pool
      dequeued := s.dequeued ++ [t] }

/-- `count_in_thread += execute (t->fn_pt, t->param)`. -/
def workerExecute (s : PoolState n Fn Param) (worker : Fin n) (t : Addr) (result : ℤ) :
    Option (PoolState n Fn Param) :=
  match s.pool.tasks t with
  | none => none
  | some task =>
    some { s.setWorker worker { s.workers worker with
        pc := .waiting, countInThread := (s.workers worker).countInThread + result } with
      executed := s.executed ++ [(⟨t, task.fnPt, task.param⟩, result)] }

/-- Run one step; `none` when the thread is not there, has to wait, or faults. -/
def poolExec (s : PoolState n Fn Param) : PoolEvent n Fn Param → Option (PoolState n Fn Param)
  | .submit t fnPt param =>
    if s.main = .ready then
      (poolSubmit t fnPt param s.pool).map fun pool => { s with
        pool := pool
        main := .enqueued
        submitted := s.submitted ++ [⟨t, fnPt, param⟩] }
    else none
  | .submitPost =>
    if s.main = .enqueued then some { s with pool := s.pool.semPost, main := .ready } else none
  | .destroy => if s.main = .ready then some { s with main := .destroying 0 } else none
  | .destroyTurn =>
    match s.main with
    | .destroying i =>
      if i < n then some { s with pool := s.pool.semPost, main := .destroying (i + 1) }
      else some { s with main := .joining 0 }
    | _ => none
  | .joinTurn =>
    match s.main with
    | .joining i =>
      if bound : i < n then
        if (s.workers ⟨i, bound⟩).pc = .exited then some { s with main := .joining (i + 1) } else none
      else some { s with main := .joined }
    | _ => none
  | .semWait worker =>
    if (s.workers worker).pc = .waiting ∧ 0 < s.pool.semaphore then
      some { s.setWorker worker { s.workers worker with pc := .awake } with
        pool := { s.pool with semaphore := s.pool.semaphore - 1 } }
    else none
  | .dequeue worker => if (s.workers worker).pc = .awake then workerDequeue s worker else none
  | .execute worker result =>
    match (s.workers worker).pc with
    | .running t => workerExecute s worker t result
    | _ => none
  | .accumulate worker =>
    if (s.workers worker).pc = .stopping then
      some { s.setWorker worker { s.workers worker with pc := .exited } with
        pool := { s.pool with count := s.pool.count + (s.workers worker).countInThread } }
    else none

/-- Behind `pool_init`. -/
def PoolState.initial (n : ℕ) (Fn Param : Type) : PoolState n Fn Param :=
  ⟨Pool.init, .ready, fun _ => Worker.start, [], [], []⟩

/-- Every interleaving of the main thread with `n` workers. -/
def poolSystem (n : ℕ) (Fn Param : Type) : System (PoolState n Fn Param) (PoolEvent n Fn Param) where
  init s := s = PoolState.initial n Fn Param
  step s event after := poolExec s event = some after

end Aple.ThreadPool
