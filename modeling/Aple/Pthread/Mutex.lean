/-
**The mutexes of the pthread layer on VxWorks.**

* `BinarySem` — a semaphore of the kernel, made by `semBCreate (SEM_Q_PRIORITY, SEM_FULL)`.
* `MutexCall`, `MutexPlace` — the calls, and where a thread stands in its call: it has read
  `mutex->vx_mutex`, or it is pended in `semTake`.
* `Mutexes` — the semaphores, the mutexes and the threads. Two fields are not in the source, and no
  step depends on them: the phase of a mutex, and who has it.
* `mutexExec`, `mutexSystem` — every interleaving of the calls of any threads on any mutexes.
* `FollowsRules` — the callers' part: a mutex is used from its `init` to its `destroy`, and unlocked by
  a thread that has it.

The attributes of a mutex are read into `use_attr`, which nothing uses. The priorities of the tasks
stay as they are.
-/

import Mathlib.Tactic.Simps.Basic
import Aple.Lib.PriorityLock
import Aple.Lib.Reach

namespace Aple.Pthread

open Aple.Lib

/-! ### The state -/

/-- What the functions return: 0, `EBUSY` and `EINVAL`. -/
inductive MutexErrno
  | ok | ebusy | einval
deriving DecidableEq, Repr

/-- What `semTake` leaves in `errno`. -/
inductive SemErrno
  | objIdError | objDeleted | objUnavailable | objTimeout
deriving DecidableEq, Repr

/-- `SEM_ID`; 0 is `NULL`. -/
abbrev SemId := ℕ

/-- A binary semaphore: whether it is full, and the tasks that are pended on it. -/
structure BinarySem (Thread : Type) where
  full : Bool
  pended : List Thread
deriving DecidableEq, Repr

inductive MutexCall
  | lock | trylock | unlock | destroy
deriving DecidableEq, Repr

/-- Outside, with what the last call returned; before the kernel call of a call that has read the
semaphore of its mutex; pended in the `semTake` of `pthread_mutex_lock`. -/
inductive MutexPlace (Mtx : Type)
  | outside (ret : MutexErrno)
  | called (call : MutexCall) (mutex : Mtx) (sem : SemId)
  | pended (mutex : Mtx) (sem : SemId)
deriving DecidableEq, Repr

/-- The mutex that a call under way is about. -/
def MutexPlace.mutex {Mtx : Type} : MutexPlace Mtx → Option Mtx
  | .outside _ => none
  | .called _ mutex _ => some mutex
  | .pended mutex _ => some mutex

/-- Not initialised, in use, or given up to `pthread_mutex_destroy`. -/
inductive MutexPhase
  | raw | ready | dying
deriving DecidableEq, Repr

/-- The kernel's semaphores, `vx_mutex` of each mutex, and the threads. -/
structure Mutexes (Mtx Thread : Type) where
  sems : SemId → Option (BinarySem Thread)
  vxMutex : Mtx → SemId
  place : Thread → MutexPlace Mtx
  phase : Mtx → MutexPhase
  holders : Mtx → List Thread

/-- Nothing is initialised. -/
def Mutexes.blank {Mtx Thread : Type} (vxMutex : Mtx → SemId) : Mutexes Mtx Thread :=
  ⟨fun _ => none, vxMutex, fun _ => .outside .ok, fun _ => .raw, fun _ => []⟩

/-- A thread initialises a mutex, and `semBCreate` returns `created`; a thread enters another call, on
`NULL` or on a mutex; a thread makes the kernel call. -/
inductive MutexEvent (Mtx Thread : Type)
  | init (thread : Thread) (mutex : Mtx) (created : SemId)
  | enter (thread : Thread) (call : MutexCall) (mutex : Option Mtx)
  | kernel (thread : Thread) (call : MutexCall) (mutex : Mtx)
deriving DecidableEq, Repr

/-! ### The functions -/

section Steps

variable {Mtx Thread : Type} [DecidableEq Mtx] [DecidableEq Thread]

namespace Mutexes

variable (s : Mutexes Mtx Thread)

@[simps] def move (thread : Thread) (place : MutexPlace Mtx) : Mutexes Mtx Thread :=
  { s with place := Function.update s.place thread place }

@[simps] def setSem (sem : SemId) (now : Option (BinarySem Thread)) : Mutexes Mtx Thread :=
  { s with sems := Function.update s.sems sem now }

@[simps] def setPhase (mutex : Mtx) (phase : MutexPhase) : Mutexes Mtx Thread :=
  { s with phase := Function.update s.phase mutex phase }

@[simps] def setHolders (mutex : Mtx) (threads : List Thread) : Mutexes Mtx Thread :=
  { s with holders := Function.update s.holders mutex threads }

/-- A call that gets a mutex returns. -/
def gets (thread : Thread) (mutex : Mtx) : Mutexes Mtx Thread :=
  (s.setHolders mutex (thread :: s.holders mutex)).move thread (.outside .ok)

/-- The `semTake` of a pended thread returns `OK`, or `ERROR` when the semaphore was deleted. -/
def resume (thread : Thread) (taken : Bool) : Mutexes Mtx Thread :=
  match s.place thread with
  | .pended mutex _ => if taken then s.gets thread mutex else s.move thread (.outside .einval)
  | _ => s

/-- `pthread_mutex_init`: `semBCreate` makes a new semaphore, or returns `NULL`. -/
def pthreadMutexInit (thread : Thread) (mutex : Mtx) (created : SemId) : Option (Mutexes Mtx Thread) :=
  if created = 0 then
    some ({ s with vxMutex := Function.update s.vxMutex mutex 0 }.move thread (.outside .einval))
  else if s.sems created = none then
    some (({ s with vxMutex := Function.update s.vxMutex mutex created }.setSem created
      (some ⟨true, []⟩)).setPhase mutex .ready |>.move thread (.outside .ok))
  else none

/-- `PTHREAD_CHECK (mutex)`, and the load of `mutex->vx_mutex`. -/
def enter (thread : Thread) (call : MutexCall) : Option Mtx → Mutexes Mtx Thread
  | none => s.move thread (.outside .einval)
  | some mutex =>
    (if call = .destroy then s.setPhase mutex .dying else s).move thread
      (.called call mutex (s.vxMutex mutex))

/-- The `semTake` of `pthread_mutex_lock`, which waits for ever. -/
def pthreadMutexLock (prio : Thread → ℕ) (thread : Thread) (mutex : Mtx) (sem : SemId) :
    Mutexes Mtx Thread :=
  match s.sems sem with
  | none => s.move thread (.outside .einval)
  | some ⟨true, pended⟩ => (s.setSem sem (some ⟨false, pended⟩)).gets thread mutex
  | some ⟨false, pended⟩ =>
    (s.setSem sem (some ⟨false, enqueue prio thread pended⟩)).move thread (.pended mutex sem)

/-- What `pthread_mutex_trylock` makes of the `errno` of `semTake`. -/
def trylockErrno : SemErrno → MutexErrno
  | .objTimeout | .objUnavailable => .ebusy
  | _ => .einval

/-- The `semTake` of `pthread_mutex_trylock`, which does not wait. -/
def pthreadMutexTrylock (thread : Thread) (mutex : Mtx) (sem : SemId) : Mutexes Mtx Thread :=
  match s.sems sem with
  | none => s.move thread (.outside (trylockErrno .objIdError))
  | some ⟨true, pended⟩ => (s.setSem sem (some ⟨false, pended⟩)).gets thread mutex
  | some ⟨false, _⟩ => s.move thread (.outside (trylockErrno .objUnavailable))

/-- The `semGive` of `pthread_mutex_unlock`: it goes to the first task that is pended. -/
def pthreadMutexUnlock (thread : Thread) (mutex : Mtx) (sem : SemId) : Mutexes Mtx Thread :=
  match s.sems sem with
  | none => s.move thread (.outside .einval)
  | some ⟨full, pended⟩ =>
    let s' := (s.setHolders mutex ((s.holders mutex).erase thread)).move thread (.outside .ok)
    match pended with
    | [] => s'.setSem sem (some ⟨true, []⟩)
    | next :: others => (s'.setSem sem (some ⟨full, others⟩)).resume next true

/-- The `semDelete` of `pthread_mutex_destroy`: the `semTake` of every pended task fails. -/
def pthreadMutexDestroy (thread : Thread) (mutex : Mtx) (sem : SemId) : Mutexes Mtx Thread :=
  match s.sems sem with
  | none => (s.setPhase mutex .raw).move thread (.outside .einval)
  | some ⟨_, pended⟩ =>
    pended.foldl (fun s thread => s.resume thread false)
      (((s.setPhase mutex .raw).setSem sem none).move thread (.outside .ok))

/-- The kernel call of a call. -/
def kernel (prio : Thread → ℕ) (thread : Thread) (mutex : Mtx) (sem : SemId) :
    MutexCall → Mutexes Mtx Thread
  | .lock => s.pthreadMutexLock prio thread mutex sem
  | .trylock => s.pthreadMutexTrylock thread mutex sem
  | .unlock => s.pthreadMutexUnlock thread mutex sem
  | .destroy => s.pthreadMutexDestroy thread mutex sem

end Mutexes

/-- One step of a thread; `none` when it is not there. -/
def mutexExec (prio : Thread → ℕ) (s : Mutexes Mtx Thread) :
    MutexEvent Mtx Thread → Option (Mutexes Mtx Thread)
  | .init thread mutex created =>
    match s.place thread with
    | .outside _ => s.pthreadMutexInit thread mutex created
    | _ => none
  | .enter thread call mutex =>
    match s.place thread with
    | .outside _ => some (s.enter thread call mutex)
    | _ => none
  | .kernel thread call mutex =>
    match s.place thread with
    | .called call' mutex' sem =>
      if call' = call ∧ mutex' = mutex then some (s.kernel prio thread mutex sem call) else none
    | _ => none

/-- Every interleaving of the calls. -/
def mutexSystem (Mtx : Type) [DecidableEq Mtx] (prio : Thread → ℕ) :
    System (Mutexes Mtx Thread) (MutexEvent Mtx Thread) where
  init s := ∃ vxMutex, s = .blank vxMutex
  step s event after := mutexExec prio s event = some after

/-- **The rules for the callers.** A mutex that is not in use is initialised; one that is in use is
locked, unlocked by a thread that has it, and destroyed when nobody has it and no call on it is under
way. -/
def FollowsRules (s : Mutexes Mtx Thread) : MutexEvent Mtx Thread → Prop
  | .init _ mutex _ => s.phase mutex = .raw
  | .enter _ _ none => True
  | .enter thread call (some mutex) =>
    s.phase mutex = .ready ∧ (call = .unlock → thread ∈ s.holders mutex) ∧
      (call = .destroy → s.holders mutex = [] ∧ ∀ other, (s.place other).mutex ≠ some mutex)
  | .kernel _ _ _ => True

end Steps

end Aple.Pthread
