/-
**Every submitted task is executed exactly once.**

* `Worker.woken`, `Worker.stopped`, `Worker.carries`, `Worker.holds` — a worker's share in the
  accounts below.
* `PoolInv` — the accounts: posts against queue length, semaphore value and workers
  (`tokens`, `stops`), dequeued nodes against calls made and under way (`runs`), the sum (`sum`).
* `pool_step` — each step of each thread keeps them.
* **`pool_executes_each_task_once`** — no worker stops early, tasks leave in the order of
  submission, and when all workers are joined every task was executed once and the sum is complete.
-/

import Mathlib.Algebra.BigOperators.Group.Multiset.Basic
import Mathlib.Algebra.Ring.Int.Defs
import Aple.Lib.Chain
import Aple.Lib.Total
import Aple.ThreadPool.Pool

namespace Aple.ThreadPool

open Aple.Lib

variable {Fn Param : Type} {n : ℕ}

/-! ### Shares -/

/-- Between `sem_wait` and `dequeue`. -/
def Worker.woken (w : Worker) : ℕ := if w.pc = .awake then 1 else 0

/-- Behind a `dequeue` that returned null. -/
def Worker.stopped (w : Worker) : ℕ := if w.pc = .stopping ∨ w.pc = .exited then 1 else 0

/-- The task whose call is not over. -/
def Worker.carries (w : Worker) : Multiset Addr :=
  match w.pc with
  | .running t => {t}
  | _ => 0

/-- What is not yet in `pool->count`. -/
def Worker.holds (w : Worker) : ℤ := if w.pc = .exited then 0 else w.countInThread

/-- Between the enqueue of `pool_submit` and its post. -/
def Main.owes : Main → ℕ
  | .enqueued => 1
  | _ => 0

/-- The posts of `pool_destroy`. -/
def Main.posts (n : ℕ) : Main → ℕ
  | .ready | .enqueued => 0
  | .destroying i => i
  | .joining _ | .joined => n

/-- The number of workers joined. -/
def Main.joins (n : ℕ) : Main → ℕ
  | .joining i => i
  | .joined => n
  | _ => 0

/-! ### The task list -/

/-- The next pointer of a node. -/
def Pool.next (pool : Pool Fn Param) (addr : Addr) : Ptr := (pool.tasks addr).bind Task.next

/-- The nodes waiting in the list, all of them allocated. -/
structure Waits (pool : Pool Fn Param) (nodes : List Addr) : Prop where
  linked : Linked pool.next pool.head pool.tail nodes
  live : ∀ node ∈ nodes, pool.tasks node ≠ none

/-- The node of a job is allocated and holds its function and its argument. -/
def Stored (pool : Pool Fn Param) (job : Job Fn Param) : Prop :=
  ∃ task, pool.tasks job.node = some task ∧ task.fnPt = job.fnPt ∧ task.param = job.param

/-- The steps other than `poolSubmit` leave the nodes alone. -/
theorem Waits.congr {pool pool' : Pool Fn Param} {nodes : List Addr} (waits : Waits pool nodes)
    (head : pool'.head = pool.head) (tail : pool'.tail = pool.tail)
    (tasks : pool'.tasks = pool.tasks) : Waits pool' nodes := by
  have next : pool'.next = pool.next := by
    unfold Pool.next
    rw [tasks]
  refine ⟨?_, ?_⟩
  · rw [next, head, tail]
    exact waits.linked
  · rw [tasks]
    exact waits.live

/-- Writing a node that is not in the list. -/
theorem Pool.next_update (pool : Pool Fn Param) (addr : Addr) (task : Task Fn Param) :
    ({ pool with tasks := Function.update pool.tasks addr (some task) } : Pool Fn Param).next =
      Function.update pool.next addr task.next := by
  funext other
  show (Function.update pool.tasks addr (some task) other).bind Task.next = _
  by_cases same : other = addr
  · rw [same, Function.update_self, Function.update_self]
    rfl
  · rw [Function.update_of_ne same, Function.update_of_ne same]
    rfl

/-- A write that keeps the function and the argument of a node keeps every job. -/
theorem Stored.write {pool : Pool Fn Param} {job : Job Fn Param} (stored : Stored pool job)
    {addr : Addr} {task task' : Task Fn Param} (before : pool.tasks addr = some task)
    (fnPt : task'.fnPt = task.fnPt) (param : task'.param = task.param) :
    Stored { pool with tasks := Function.update pool.tasks addr (some task') } job := by
  obtain ⟨read, found, sameFn, sameParam⟩ := stored
  by_cases same : job.node = addr
  · rw [same, before, Option.some.injEq] at found
    subst found
    refine ⟨task', ?_, fnPt.trans sameFn, param.trans sameParam⟩
    rw [same]
    exact Function.update_self ..
  · refine ⟨read, ?_, sameFn, sameParam⟩
    show Function.update pool.tasks addr (some task') job.node = some read
    rw [Function.update_of_ne same]
    exact found

/-- A freshly allocated node keeps every job. -/
theorem Stored.grow {pool : Pool Fn Param} {job : Job Fn Param} (stored : Stored pool job)
    {addr : Addr} (fresh : pool.tasks addr = none) (task : Task Fn Param) (tid : ℕ) :
    Stored { pool with tasks := Function.update pool.tasks addr (some task), tid := tid } job := by
  obtain ⟨read, found, same⟩ := stored
  have differs : job.node ≠ addr := by
    rintro rfl
    rw [fresh] at found
    cases found
  refine ⟨read, ?_, same⟩
  show Function.update pool.tasks addr (some task) job.node = some read
  rw [Function.update_of_ne differs]
  exact found

/-- What the locked section of `pool_submit` does. -/
structure Submitted (t : Addr) (fnPt : Fn) (param : Param) (nodes : List Addr)
    (pool pool' : Pool Fn Param) : Prop where
  fresh : pool.tasks t = none
  waits : Waits pool' (nodes ++ [t])
  semaphore : pool'.semaphore = pool.semaphore
  count : pool'.count = pool.count
  keeps : ∀ job, Stored pool job → Stored pool' job
  stored : Stored pool' ⟨t, fnPt, param⟩

theorem poolSubmit_spec {t : Addr} {fnPt : Fn} {param : Param} {nodes : List Addr}
    {pool pool' : Pool Fn Param} (waits : Waits pool nodes)
    (returns : poolSubmit t fnPt param pool = some pool') :
    Submitted t fnPt param nodes pool pool' := by
  obtain ⟨fresh, returns⟩ := Option.ite_none_right_eq_some.mp returns
  have off : t ∉ nodes := fun member => waits.live t member fresh
  generalize grown_eq : ({ pool with
      tasks := Function.update pool.tasks t (some ⟨pool.tid, fnPt, none, param⟩)
      tid := pool.tid + 1 } : Pool Fn Param) = grown at returns
  have next : grown.next = Function.update pool.next t none := by
    rw [← grown_eq]
    exact pool.next_update t ⟨pool.tid, fnPt, none, param⟩
  have read : grown.tasks t = some ⟨pool.tid, fnPt, none, param⟩ := by
    rw [← grown_eq]
    exact Function.update_self ..
  have linked : Linked grown.next grown.head grown.tail nodes := by
    rw [next, ← grown_eq]
    refine waits.linked.congr fun node member => Function.update_of_ne ?_ _ _
    rintro rfl
    exact off member
  have live : ∀ node ∈ nodes ++ [t], grown.tasks node ≠ none := by
    intro node member
    by_cases same : node = t
    · rw [same, read]
      exact Option.some_ne_none _
    · rw [← grown_eq]
      show Function.update pool.tasks t _ node ≠ none
      rw [Function.update_of_ne same]
      exact waits.live node ((List.mem_append.mp member).resolve_right (by simpa using same))
  have keeps : ∀ job, Stored pool job → Stored grown job := by
    intro job stored
    rw [← grown_eq]
    exact stored.grow fresh _ _
  have stored : Stored grown ⟨t, fnPt, param⟩ := ⟨_, read, rfl, rfl⟩
  have ends : grown.next t = none := by rw [next, Function.update_self]
  have semaphore : grown.semaphore = pool.semaphore := by rw [← grown_eq]
  have count : grown.count = pool.count := by rw [← grown_eq]
  unfold enqueue at returns
  by_cases empty : grown.head = none
  · rw [if_pos empty, Option.some.injEq] at returns
    obtain rfl : nodes = [] := linked.first_none_iff.mp empty
    rw [← returns]
    exact ⟨fresh, ⟨Linked.single ends, live⟩, semaphore, count, keeps, stored⟩
  · rw [if_neg empty] at returns
    split at returns
    · cases returns
    rename_i last atTail
    split at returns
    · cases returns
    rename_i task found
    rw [← Option.some.inj returns]
    have some_nodes : nodes ≠ [] := fun none_left => empty (linked.first_none_iff.mpr none_left)
    refine ⟨fresh, ⟨?_, fun node member => ?_⟩, semaphore, count, fun job before => ?_, ?_⟩
    · have pushed := linked.pushBack off ends atTail some_nodes
      rw [← grown.next_update last { task with next := some t }] at pushed
      exact pushed
    · show Function.update grown.tasks last _ node ≠ none
      by_cases same : node = last
      · rw [same, Function.update_self]
        exact Option.some_ne_none _
      · rw [Function.update_of_ne same]
        exact live node member
    · exact (keeps job before).write found rfl rfl
    · exact stored.write found rfl rfl

/-- `dequeue` takes the head, if there is one, and touches nothing else. -/
theorem dequeue_spec {pool pool' : Pool Fn Param} {nodes : List Addr} {t : Ptr}
    (waits : Waits pool nodes) (returns : dequeue pool = some (t, pool')) :
    (t = none ∧ nodes = [] ∧ pool' = pool) ∨
      ∃ head rest ends, t = some head ∧ nodes = head :: rest ∧ pool' = { pool with head := ends } ∧
        Waits pool' rest := by
  unfold dequeue at returns
  split at returns
  · rename_i empty
    obtain ⟨rfl, rfl⟩ := Prod.mk.inj (Option.some.inj returns)
    exact .inl ⟨rfl, waits.linked.first_none_iff.mp empty, rfl⟩
  · rename_i currTask atHead
    split at returns
    · cases returns
    rename_i task found
    obtain ⟨rfl, rfl⟩ := Prod.mk.inj (Option.some.inj returns)
    have first := waits.linked.first_eq
    rw [atHead] at first
    obtain ⟨rest, rfl⟩ := List.head?_eq_some_iff.mp first.symm
    refine .inr ⟨currTask, rest, task.next, rfl, rfl, rfl, ?_, ?_⟩
    · have popped := waits.linked.popFront
      have next : pool.next currTask = task.next := by
        unfold Pool.next
        rw [found]
        rfl
      rwa [next] at popped
    · exact fun node member => waits.live node (List.mem_cons_of_mem _ member)

/-! ### The accounts -/

/-- The tasks whose calls are over. -/
def PoolState.ran (s : PoolState n Fn Param) : List Addr := s.executed.map fun call => call.1.node

/-- The accounts of a pool whose list holds `nodes`. -/
structure PoolInv (s : PoolState n Fn Param) (nodes : List Addr) : Prop where
  waits : Waits s.pool nodes
  order : s.submitted.map Job.node = s.dequeued ++ nodes
  nodup : (s.submitted.map Job.node).Nodup
  stored : ∀ job ∈ s.submitted, Stored s.pool job
  /-- Every post was for an enqueue or by `pool_destroy`; every wait ended in a dequeue or will. -/
  tokens : s.pool.semaphore + total Worker.stopped s.workers + total Worker.woken s.workers +
    s.main.owes = nodes.length + s.main.posts n
  /-- Each worker that stopped used up a post of `pool_destroy`. -/
  stops : total Worker.stopped s.workers ≤ s.main.posts n
  closed : 0 < total Worker.stopped s.workers → nodes = []
  bound : ∀ i, s.main = .destroying i → i ≤ n
  runs : (s.ran : Multiset Addr) + total Worker.carries s.workers = (s.dequeued : Multiset Addr)
  calls : ∀ call ∈ s.executed, call.1 ∈ s.submitted
  sum : s.pool.count + total Worker.holds s.workers = (s.executed.map Prod.snd).sum
  joined : ∀ worker : Fin n, worker.val < s.main.joins n → (s.workers worker).pc = .exited

theorem poolInv_initial : PoolInv (PoolState.initial n Fn Param) [] := by
  have stopped : total Worker.stopped (fun _ : Fin n => Worker.start) = 0 :=
    total_eq_zero fun _ => rfl
  have woken : total Worker.woken (fun _ : Fin n => Worker.start) = 0 := total_eq_zero fun _ => rfl
  have carries : total Worker.carries (fun _ : Fin n => Worker.start) = 0 :=
    total_eq_zero fun _ => rfl
  have holds : total Worker.holds (fun _ : Fin n => Worker.start) = 0 := total_eq_zero fun _ => rfl
  constructor
  case waits => exact ⟨Linked.nil, fun node member => absurd member List.not_mem_nil⟩
  case order => rfl
  case nodup => exact List.nodup_nil
  case stored => exact fun job member => absurd member List.not_mem_nil
  case tokens =>
    show 0 + total Worker.stopped (fun _ : Fin n => Worker.start) +
      total Worker.woken (fun _ : Fin n => Worker.start) + 0 = 0
    rw [stopped, woken]
  case stops => exact stopped.le
  case closed => exact fun _ => rfl
  case bound =>
    intro i stands
    cases stands
  case runs =>
    show 0 + total Worker.carries (fun _ : Fin n => Worker.start) = 0
    rw [carries, zero_add]
  case calls => exact fun call member => absurd member List.not_mem_nil
  case sum =>
    show 0 + total Worker.holds (fun _ : Fin n => Worker.start) = 0
    rw [holds, zero_add]
  case joined => exact fun worker low => absurd low (Nat.not_lt_zero _)

namespace PoolInv

variable {s after : PoolState n Fn Param} {nodes : List Addr}

/-! ### Steps of the main thread -/

theorem submit (inv : PoolInv s nodes) {t : Addr} {fnPt : Fn} {param : Param}
    (runs : poolExec s (.submit t fnPt param) = some after) : PoolInv after (nodes ++ [t]) := by
  obtain ⟨ready, submitted⟩ := Option.ite_none_right_eq_some.mp runs
  obtain ⟨pool, returns, moved⟩ := Option.map_eq_some_iff.mp submitted
  have spec := poolSubmit_spec inv.waits returns
  have tokens := inv.tokens
  have stops := inv.stops
  rw [ready] at tokens stops
  have fresh : t ∉ s.submitted.map Job.node := by
    intro member
    obtain ⟨job, known, rfl⟩ := List.mem_map.mp member
    obtain ⟨task, found, -⟩ := inv.stored job known
    rw [spec.fresh] at found
    cases found
  obtain ⟨job, job_eq⟩ : ∃ job : Job Fn Param, ⟨t, fnPt, param⟩ = job := ⟨_, rfl⟩
  have atNode : job.node = t := by rw [← job_eq]
  rw [job_eq] at moved
  rw [← moved]
  constructor
  case waits => exact spec.waits
  case order =>
    show (s.submitted ++ [job]).map Job.node = s.dequeued ++ (nodes ++ [t])
    rw [List.map_append, inv.order, List.append_assoc, List.map_singleton, atNode]
  case nodup =>
    show ((s.submitted ++ [job]).map Job.node).Nodup
    rw [List.map_append, List.map_singleton, atNode]
    exact inv.nodup.append (List.nodup_singleton t) (List.disjoint_singleton.mpr fresh)
  case stored =>
    intro job member
    rcases List.mem_append.mp member with known | new
    · exact spec.keeps job (inv.stored job known)
    · rw [List.mem_singleton.mp new, ← job_eq]
      exact spec.stored
  case tokens =>
    show pool.semaphore + total Worker.stopped s.workers + total Worker.woken s.workers + 1 =
      (nodes ++ [t]).length + 0
    rw [spec.semaphore, List.length_append, List.length_singleton]
    simp only [Main.owes, Main.posts] at tokens
    omega
  case stops => exact stops
  case closed =>
    intro some_stopped
    exact absurd some_stopped (Nat.not_lt.mpr stops)
  case bound =>
    intro i stands
    cases stands
  case runs => exact inv.runs
  case calls =>
    intro call member
    exact List.mem_append_left _ (inv.calls call member)
  case sum =>
    show pool.count + total Worker.holds s.workers = _
    rw [spec.count]
    exact inv.sum
  case joined =>
    intro worker low
    cases low

/-- `sem_post` at the end of `pool_submit`. -/
theorem submitPost (inv : PoolInv s nodes) (runs : poolExec s .submitPost = some after) :
    PoolInv after nodes := by
  obtain ⟨enqueued, moved⟩ := Option.ite_none_right_eq_some.mp runs
  rw [← Option.some.inj moved]
  have tokens := inv.tokens
  have stops := inv.stops
  rw [enqueued] at tokens stops
  refine { inv with
    waits := inv.waits.congr rfl rfl rfl
    tokens := ?_
    stops := stops
    bound := fun i stands => by cases stands
    joined := fun worker low => by cases low }
  show s.pool.semaphore + 1 + total Worker.stopped s.workers + total Worker.woken s.workers + 0 =
    nodes.length + 0
  simp only [Main.owes, Main.posts] at tokens
  omega

theorem destroy (inv : PoolInv s nodes) (runs : poolExec s .destroy = some after) :
    PoolInv after nodes := by
  obtain ⟨ready, moved⟩ := Option.ite_none_right_eq_some.mp runs
  rw [← Option.some.inj moved]
  have tokens := inv.tokens
  have stops := inv.stops
  rw [ready] at tokens stops
  exact { inv with
    tokens := tokens
    stops := stops
    bound := fun i stands => by
      obtain rfl : 0 = i := Main.destroying.inj stands
      exact Nat.zero_le n
    joined := fun worker low => by cases low }

/-- A turn of the first loop of `pool_destroy`. -/
theorem destroyTurn (inv : PoolInv s nodes) (runs : poolExec s .destroyTurn = some after) :
    PoolInv after nodes := by
  simp only [poolExec] at runs
  split at runs
  case h_2 => cases runs
  rename_i i destroying
  have tokens := inv.tokens
  have stops := inv.stops
  have bound := inv.bound i destroying
  rw [destroying] at tokens stops
  simp only [Main.owes, Main.posts] at tokens stops
  by_cases more : i < n
  · rw [if_pos more, Option.some.injEq] at runs
    rw [← runs]
    refine { inv with
      waits := inv.waits.congr rfl rfl rfl
      tokens := ?_
      stops := Nat.le_succ_of_le stops
      bound := fun j stands => by
        obtain rfl : i + 1 = j := Main.destroying.inj stands
        exact more
      joined := fun worker low => by cases low }
    show s.pool.semaphore + 1 + total Worker.stopped s.workers + total Worker.woken s.workers + 0 =
      nodes.length + (i + 1)
    omega
  · rw [if_neg more, Option.some.injEq] at runs
    rw [← runs]
    obtain rfl : i = n := Nat.le_antisymm bound (Nat.not_lt.mp more)
    exact { inv with
      tokens := tokens
      stops := stops
      bound := fun j stands => by cases stands
      joined := fun worker low => by cases low }

/-- A turn of the second loop of `pool_destroy`. -/
theorem joinTurn (inv : PoolInv s nodes) (runs : poolExec s .joinTurn = some after) :
    PoolInv after nodes := by
  simp only [poolExec] at runs
  split at runs
  case h_2 => cases runs
  rename_i i joining
  have tokens := inv.tokens
  have stops := inv.stops
  have joined := inv.joined
  rw [joining] at tokens stops joined
  by_cases bound : i < n
  · rw [dif_pos bound] at runs
    obtain ⟨exited, moved⟩ := Option.ite_none_right_eq_some.mp runs
    rw [← Option.some.inj moved]
    refine { inv with
      tokens := tokens
      stops := stops
      bound := fun j stands => by cases stands
      joined := fun worker low => ?_ }
    rcases Nat.lt_succ_iff_lt_or_eq.mp low with before | same
    · exact joined worker before
    · obtain rfl : worker = ⟨i, bound⟩ := Fin.ext same
      exact exited
  · rw [dif_neg bound, Option.some.injEq] at runs
    rw [← runs]
    exact { inv with
      tokens := tokens
      stops := stops
      bound := fun j stands => by cases stands
      joined := fun worker low => joined worker (low.trans_le (Nat.not_lt.mp bound)) }

/-! ### Steps of a worker -/

/-- The workers that are joined do not move. -/
theorem joined_moved (inv : PoolInv s nodes) {worker : Fin n}
    (alive : (s.workers worker).pc ≠ .exited) (moved : Worker) (other : Fin n)
    (low : other.val < s.main.joins n) :
    ((s.setWorker worker moved).workers other).pc = .exited := by
  show (Function.update s.workers worker moved other).pc = .exited
  have exited := inv.joined other low
  have differs : other ≠ worker := by
    rintro rfl
    exact alive exited
  rw [Function.update_of_ne differs]
  exact exited

/-- What a worker that moves from one place to another changes in the totals. -/
structure Shift (s : PoolState n Fn Param) (worker : Fin n) (moved : Worker) : Prop where
  stopped : total Worker.stopped (s.setWorker worker moved).workers +
    (s.workers worker).stopped = total Worker.stopped s.workers + moved.stopped
  woken : total Worker.woken (s.setWorker worker moved).workers +
    (s.workers worker).woken = total Worker.woken s.workers + moved.woken
  carries : total Worker.carries (s.setWorker worker moved).workers +
    (s.workers worker).carries = total Worker.carries s.workers + moved.carries
  holds : total Worker.holds (s.setWorker worker moved).workers +
    (s.workers worker).holds = total Worker.holds s.workers + moved.holds

theorem shift (s : PoolState n Fn Param) (worker : Fin n) (moved : Worker) : Shift s worker moved :=
  ⟨total_update .., total_update .., total_update .., total_update ..⟩

/-- `sem_wait` turns a post into a worker that will dequeue. -/
theorem semWait (inv : PoolInv s nodes) {worker : Fin n}
    (runs : poolExec s (.semWait worker) = some after) : PoolInv after nodes := by
  obtain ⟨⟨waiting, positive⟩, moves⟩ := Option.ite_none_right_eq_some.mp runs
  obtain ⟨moved, moved_eq⟩ : ∃ moved, { s.workers worker with pc := .awake } = moved := ⟨_, rfl⟩
  obtain ⟨stopped, woken, carries, holds⟩ := shift s worker moved
  simp [← moved_eq, waiting, Worker.stopped, Worker.woken, Worker.carries, Worker.holds]
    at stopped woken carries holds
  rw [moved_eq] at moves stopped woken carries holds
  rw [← Option.some.inj moves]
  have tokens := inv.tokens
  refine { inv with
    waits := inv.waits.congr rfl rfl rfl
    tokens := ?_
    stops := stopped.trans_le inv.stops
    closed := fun some_stopped => inv.closed (stopped ▸ some_stopped)
    runs := ?_
    sum := ?_
    joined := inv.joined_moved (by simp [waiting]) moved }
  · show s.pool.semaphore - 1 + total Worker.stopped (s.setWorker worker moved).workers +
      total Worker.woken (s.setWorker worker moved).workers + s.main.owes =
      nodes.length + s.main.posts n
    omega
  · show _ + total Worker.carries (s.setWorker worker moved).workers = _
    rw [carries]
    exact inv.runs
  · show _ + total Worker.holds (s.setWorker worker moved).workers = _
    rw [holds]
    exact inv.sum

/-- A `dequeue` of an empty list uses up a post of `pool_destroy`. -/
theorem stop (inv : PoolInv s []) {worker : Fin n} (awake : (s.workers worker).pc = .awake) :
    PoolInv (s.setWorker worker { s.workers worker with pc := .stopping }) [] := by
  obtain ⟨moved, moved_eq⟩ : ∃ moved, { s.workers worker with pc := .stopping } = moved := ⟨_, rfl⟩
  obtain ⟨stopped, woken, carries, holds⟩ := shift s worker moved
  simp [← moved_eq, awake, Worker.stopped, Worker.woken, Worker.carries, Worker.holds]
    at stopped woken carries holds
  rw [moved_eq] at stopped woken carries holds ⊢
  have tokens := inv.tokens
  rw [List.length_nil] at tokens
  refine { inv with
    tokens := ?_
    stops := ?_
    closed := fun _ => rfl
    runs := ?_
    sum := ?_
    joined := inv.joined_moved (by simp [awake]) moved }
  · show s.pool.semaphore + total Worker.stopped (s.setWorker worker moved).workers +
      total Worker.woken (s.setWorker worker moved).workers + s.main.owes = 0 + s.main.posts n
    omega
  · show total Worker.stopped (s.setWorker worker moved).workers ≤ s.main.posts n
    omega
  · rw [carries]
    exact inv.runs
  · rw [holds]
    exact inv.sum

/-- A `dequeue` that returns a task. -/
theorem take {worker : Fin n} {t : Addr} {rest : List Addr} {pool : Pool Fn Param}
    (inv : PoolInv s (t :: rest)) (awake : (s.workers worker).pc = .awake)
    (waits : Waits pool rest) (semaphore : pool.semaphore = s.pool.semaphore)
    (count : pool.count = s.pool.count) (tasks : pool.tasks = s.pool.tasks) :
    PoolInv { s.setWorker worker { s.workers worker with
        pc := .running t, numTasks := (s.workers worker).numTasks + 1 } with
      pool := pool
      dequeued := s.dequeued ++ [t] } rest := by
  obtain ⟨moved, moved_eq⟩ : ∃ moved, ({ s.workers worker with
      pc := .running t, numTasks := (s.workers worker).numTasks + 1 } : Worker) = moved := ⟨_, rfl⟩
  obtain ⟨stopped, woken, carries, holds⟩ := shift s worker moved
  simp [← moved_eq, awake, Worker.stopped, Worker.woken, Worker.carries, Worker.holds]
    at stopped woken carries holds
  rw [moved_eq] at stopped woken carries holds ⊢
  have tokens := inv.tokens
  rw [List.length_cons] at tokens
  constructor
  case waits => exact waits
  case order =>
    show s.submitted.map Job.node = s.dequeued ++ [t] ++ rest
    rw [inv.order, List.append_assoc]
    rfl
  case nodup => exact inv.nodup
  case stored =>
    intro job member
    obtain ⟨task, found, same⟩ := inv.stored job member
    exact ⟨task, by rw [tasks]; exact found, same⟩
  case tokens =>
    show pool.semaphore + total Worker.stopped (s.setWorker worker moved).workers +
      total Worker.woken (s.setWorker worker moved).workers + s.main.owes =
      rest.length + s.main.posts n
    omega
  case stops => exact stopped.trans_le inv.stops
  case closed =>
    intro some_stopped
    cases inv.closed (stopped ▸ some_stopped)
  case bound => exact inv.bound
  case runs =>
    show (s.ran : Multiset Addr) + total Worker.carries (s.setWorker worker moved).workers =
      ((s.dequeued ++ [t] : List Addr) : Multiset Addr)
    rw [carries, ← add_assoc, inv.runs]
    rfl
  case calls => exact inv.calls
  case sum =>
    show pool.count + total Worker.holds (s.setWorker worker moved).workers = _
    rw [holds, count]
    exact inv.sum
  case joined => exact inv.joined_moved (by simp [awake]) moved

theorem dequeue (inv : PoolInv s nodes) {worker : Fin n}
    (runs : poolExec s (.dequeue worker) = some after) : ∃ nodes', PoolInv after nodes' := by
  obtain ⟨awake, moves⟩ := Option.ite_none_right_eq_some.mp runs
  unfold workerDequeue at moves
  split at moves
  · cases moves
  · rename_i pool returns
    rcases dequeue_spec inv.waits returns with ⟨-, rfl, rfl⟩ | ⟨_, _, _, impossible, -⟩
    · rw [← Option.some.inj moves]
      exact ⟨[], inv.stop awake⟩
    · cases impossible
  · rename_i t pool returns
    rcases dequeue_spec inv.waits returns with ⟨impossible, -⟩ | ⟨head, rest, ends, same, rfl, rfl, waits⟩
    · cases impossible
    · obtain rfl : t = head := Option.some.inj same
      rw [← Option.some.inj moves]
      exact ⟨rest, inv.take awake waits rfl rfl rfl⟩

/-- What a worker runs was submitted, with the function and the parameter that are stored. -/
theorem running_submitted (inv : PoolInv s nodes) {worker : Fin n} {t : Addr}
    (running : (s.workers worker).pc = .running t) {task : Task Fn Param}
    (found : s.pool.tasks t = some task) : ⟨t, task.fnPt, task.param⟩ ∈ s.submitted := by
  have carried : t ∈ total Worker.carries s.workers := by
    refine Multiset.mem_sum.mpr ⟨worker, Finset.mem_univ worker, ?_⟩
    rw [Worker.carries, running]
    exact Multiset.mem_singleton_self t
  have taken : t ∈ (s.dequeued : Multiset Addr) := by
    rw [← inv.runs]
    exact Multiset.mem_add.mpr (.inr carried)
  have member : t ∈ s.submitted.map Job.node := by
    rw [inv.order]
    exact List.mem_append_left _ (Multiset.mem_coe.mp taken)
  obtain ⟨job, known, rfl⟩ := List.mem_map.mp member
  obtain ⟨task', found', sameFn, sameParam⟩ := inv.stored job known
  obtain rfl : task = task' := Option.some.inj (found.symm.trans found')
  rw [sameFn, sameParam]
  exact known

/-- The call of a task function is over. -/
theorem execute (inv : PoolInv s nodes) {worker : Fin n} {result : ℤ}
    (runs : poolExec s (.execute worker result) = some after) : PoolInv after nodes := by
  simp only [poolExec] at runs
  split at runs
  case h_2 => cases runs
  rename_i t running
  unfold workerExecute at runs
  split at runs
  · cases runs
  rename_i task found
  obtain ⟨moved, moved_eq⟩ : ∃ moved, ({ s.workers worker with
      pc := .waiting, countInThread := (s.workers worker).countInThread + result } : Worker) = moved :=
    ⟨_, rfl⟩
  obtain ⟨stopped, woken, carries, holds⟩ := shift s worker moved
  simp [← moved_eq, running, Worker.stopped, Worker.woken, Worker.carries, Worker.holds]
    at stopped woken carries holds
  rw [moved_eq] at runs stopped woken carries holds
  rw [← Option.some.inj runs]
  have known := inv.running_submitted running found
  constructor
  case waits => exact inv.waits
  case order => exact inv.order
  case nodup => exact inv.nodup
  case stored => exact inv.stored
  case tokens =>
    show s.pool.semaphore + total Worker.stopped (s.setWorker worker moved).workers +
      total Worker.woken (s.setWorker worker moved).workers + s.main.owes = _
    rw [stopped, woken]
    exact inv.tokens
  case stops => exact stopped.trans_le inv.stops
  case closed => exact fun some_stopped => inv.closed (stopped ▸ some_stopped)
  case bound => exact inv.bound
  case runs =>
    show ((List.map (fun call : Job Fn Param × ℤ => call.1.node)
        (s.executed ++ [(⟨t, task.fnPt, task.param⟩, result)]) : List Addr) : Multiset Addr) +
      total Worker.carries (s.setWorker worker moved).workers = _
    rw [List.map_append, List.map_singleton, ← Multiset.coe_add, add_assoc,
      Multiset.coe_singleton, add_comm ({t} : Multiset Addr), carries]
    exact inv.runs
  case calls =>
    intro call finished
    rcases List.mem_append.mp finished with before | now
    · exact inv.calls call before
    · rw [List.mem_singleton.mp now]
      exact known
  case sum =>
    show s.pool.count + total Worker.holds (s.setWorker worker moved).workers =
      ((s.executed ++ [(_, result)]).map Prod.snd).sum
    rw [List.map_append, List.sum_append, List.map_singleton, List.sum_singleton, ← inv.sum]
    omega
  case joined => exact inv.joined_moved (by simp [running]) moved

/-- The final locked accumulation. -/
theorem accumulate (inv : PoolInv s nodes) {worker : Fin n}
    (runs : poolExec s (.accumulate worker) = some after) : PoolInv after nodes := by
  obtain ⟨stopping, moves⟩ := Option.ite_none_right_eq_some.mp runs
  obtain ⟨moved, moved_eq⟩ : ∃ moved, { s.workers worker with pc := .exited } = moved := ⟨_, rfl⟩
  obtain ⟨stopped, woken, carries, holds⟩ := shift s worker moved
  simp [← moved_eq, stopping, Worker.stopped, Worker.woken, Worker.carries, Worker.holds]
    at stopped woken carries holds
  rw [moved_eq] at moves stopped woken carries holds
  rw [← Option.some.inj moves]
  refine { inv with
    waits := inv.waits.congr rfl rfl rfl
    tokens := ?_
    stops := stopped.trans_le inv.stops
    closed := fun some_stopped => inv.closed (stopped ▸ some_stopped)
    runs := ?_
    sum := ?_
    joined := inv.joined_moved (by simp [stopping]) moved }
  · show s.pool.semaphore + total Worker.stopped (s.setWorker worker moved).workers +
      total Worker.woken (s.setWorker worker moved).workers + s.main.owes = _
    rw [stopped, woken]
    exact inv.tokens
  · show _ + total Worker.carries (s.setWorker worker moved).workers = _
    rw [carries]
    exact inv.runs
  · show s.pool.count + (s.workers worker).countInThread +
      total Worker.holds (s.setWorker worker moved).workers = _
    rw [add_assoc, add_comm (s.workers worker).countInThread, holds]
    exact inv.sum

end PoolInv

/-- **Every step of every thread keeps the accounts.** -/
theorem pool_step {s after : PoolState n Fn Param} {nodes : List Addr} (inv : PoolInv s nodes)
    {event : PoolEvent n Fn Param} (runs : poolExec s event = some after) :
    ∃ nodes', PoolInv after nodes' := by
  cases event with
  | submit t fnPt param => exact ⟨_, inv.submit runs⟩
  | submitPost => exact ⟨_, inv.submitPost runs⟩
  | destroy => exact ⟨_, inv.destroy runs⟩
  | destroyTurn => exact ⟨_, inv.destroyTurn runs⟩
  | joinTurn => exact ⟨_, inv.joinTurn runs⟩
  | semWait worker => exact ⟨_, inv.semWait runs⟩
  | dequeue worker => exact inv.dequeue runs
  | execute worker result => exact ⟨_, inv.execute runs⟩
  | accumulate worker => exact ⟨_, inv.accumulate runs⟩

theorem reachable_poolInv {s : PoolState n Fn Param} (reached : (poolSystem n Fn Param).Reachable s) :
    ∃ nodes, PoolInv s nodes := by
  refine reached.invariant (fun s => ∃ nodes, PoolInv s nodes) ?_ ?_
  · rintro _ rfl
    exact ⟨[], poolInv_initial⟩
  · rintro s event after - ⟨nodes, inv⟩ - runs
    exact pool_step inv runs

/-! ### What a pool guarantees -/

/-- What holds of the pool at any time, and when all workers are joined. -/
structure PoolOk (s : PoolState n Fn Param) : Prop where
  /-- No worker leaves its loop before `pool_destroy` has posted. -/
  noEarlyExit : ∀ worker, (s.workers worker).pc = .stopping ∨ (s.workers worker).pc = .exited →
    0 < s.main.posts n
  /-- The nodes dequeued are the first ones submitted, in their order. -/
  inOrder : s.dequeued <+: s.submitted.map Job.node
  /-- No two submissions share a node. -/
  nodup : (s.submitted.map Job.node).Nodup
  emptied : s.main = .joined → s.pool.head = none
  exited : s.main = .joined → ∀ worker, (s.workers worker).pc = .exited
  /-- The calls made are the tasks submitted, each once. -/
  once : s.main = .joined → (s.executed.map Prod.fst).Perm s.submitted
  sum : s.main = .joined → s.pool.count = (s.executed.map Prod.snd).sum

/-- When all workers are joined the accounts are closed. -/
theorem PoolInv.closed_accounts {s : PoolState n Fn Param} {nodes : List Addr}
    (inv : PoolInv s nodes)
    (some_workers : 0 < n) (joined : s.main = .joined) :
    nodes = [] ∧ (∀ worker, (s.workers worker).pc = .exited) ∧ total Worker.carries s.workers = 0 ∧
      total Worker.holds s.workers = 0 := by
  have exited : ∀ worker, (s.workers worker).pc = .exited := by
    intro worker
    refine inv.joined worker ?_
    rw [joined]
    exact worker.isLt
  have stopped : total Worker.stopped s.workers = n := by
    have one : ∀ worker, (s.workers worker).stopped = 1 := fun worker => if_pos (.inr (exited worker))
    rw [total_of_forall one]
    simp
  refine ⟨inv.closed (some_workers.trans_eq stopped.symm), exited, ?_, ?_⟩
  · exact total_eq_zero fun worker => by simp [Worker.carries, exited]
  · exact total_eq_zero fun worker => by simp [Worker.holds, exited]

/-- **Every task of a pool is executed exactly once**, for every number of workers and every
interleaving. -/
theorem pool_executes_each_task_once (some_workers : 0 < n) {s : PoolState n Fn Param}
    (reached : (poolSystem n Fn Param).Reachable s) : PoolOk s := by
  obtain ⟨nodes, inv⟩ := reachable_poolInv reached
  constructor
  case noEarlyExit =>
    intro worker stands
    have share : (s.workers worker).stopped = 1 := if_pos stands
    have counted := le_total Worker.stopped s.workers worker
    have stops := inv.stops
    omega
  case inOrder =>
    rw [inv.order]
    exact List.prefix_append ..
  case nodup => exact inv.nodup
  case emptied =>
    intro joined
    obtain ⟨none_left, -⟩ := inv.closed_accounts some_workers joined
    exact inv.waits.linked.first_none_iff.mpr none_left
  case exited => exact fun joined => (inv.closed_accounts some_workers joined).2.1
  case once =>
    intro joined
    obtain ⟨none_left, -, carries, -⟩ := inv.closed_accounts some_workers joined
    have all : s.ran.Perm (s.submitted.map Job.node) := by
      have runs := inv.runs
      have order := inv.order
      rw [carries, add_zero] at runs
      rw [none_left, List.append_nil] at order
      rw [order]
      exact Multiset.coe_eq_coe.mp runs
    have calls : (s.executed.map Prod.fst).map Job.node = s.ran := List.map_map
    have distinct : (s.executed.map Prod.fst).Nodup := by
      refine List.Nodup.of_map Job.node ?_
      rw [calls]
      exact all.nodup_iff.mpr inv.nodup
    refine (List.subperm_of_subset distinct ?_).perm_of_length_le ?_
    · intro job member
      obtain ⟨call, finished, rfl⟩ := List.mem_map.mp member
      exact inv.calls call finished
    · have lengths := all.length_eq
      rw [← calls, List.length_map, List.length_map Job.node] at lengths
      exact lengths.ge
  case sum =>
    intro joined
    obtain ⟨-, -, -, holds⟩ := inv.closed_accounts some_workers joined
    rw [← inv.sum, holds, add_zero]

/-- The first of two workers. -/
def one : Fin 2 := ⟨0, Nat.two_pos⟩

/-- The second. -/
def two : Fin 2 := ⟨1, Nat.one_lt_two⟩

/-- Two workers and two tasks; the first worker takes both, the second one is woken by its post of
`pool_destroy` and finds nothing. -/
def twoTasks : List (PoolEvent 2 ℕ ℕ) :=
  [.submit 10 7 1, .submitPost, .semWait one, .dequeue one, .submit 11 7 2, .execute one 100,
    .submitPost, .semWait one, .dequeue one, .destroy, .destroyTurn, .semWait two, .dequeue two,
    .execute one 20, .destroyTurn, .destroyTurn, .accumulate two, .semWait one, .dequeue one,
    .accumulate one, .joinTurn, .joinTurn, .joinTurn]

theorem pool_executes_each_task_once_two :
    ∃ s, runEvents poolExec (PoolState.initial 2 ℕ ℕ) twoTasks = some s ∧ s.main = .joined ∧
      s.pool.count = 120 ∧ PoolOk s := by
  have start : (poolSystem 2 ℕ ℕ).Reachable (PoolState.initial 2 ℕ ℕ) := .start rfl
  have runs : runEvents poolExec (PoolState.initial 2 ℕ ℕ) twoTasks = some _ := rfl
  exact ⟨_, runs, rfl, rfl,
    pool_executes_each_task_once Nat.two_pos (start.run (fun _ _ _ ran => ⟨trivial, ran⟩) runs)⟩

end Aple.ThreadPool
