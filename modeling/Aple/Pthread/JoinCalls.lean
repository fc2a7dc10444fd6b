/-
**Calls of pthread_join.**

* `JoinPc` — where a call stands between two of its sections: it gave the mutex back and goes to the
  semaphore of its joinee, it waits there, it was woken. All that time it keeps the address of the
  control block, nothing else.
* `JoinState` — the table with these calls and the semaphores. To say what a call may do with its
  address, the threads are numbered: `serial` is the thread whose block lies at an address.
* `JoinState.settle` — what the reaper does to the calls: `semDelete` wakes everyone who waits.
* `JoinEvent`, `joinsExec`, `joinSystem` — any number of calls with creations, exits and detachments
  in any order. The sections are those of the table.
* `JoinsOk` — one join of a thread returns 0, with its exit value, and none reads a released block.
-/

import Aple.Pthread.Reaper

namespace Aple.Pthread

open Aple.Lib

/-! ### Data -/

/-- Where a call of `pthread_join` stands while it is not under the mutex. `thread` is the thread
that the call found at the address. -/
inductive JoinPc
  | outside
  /-- Between `semGive (__vxpthread_mutex)` and `semTake (joinee->joiner, …)`. -/
  | leaving (joinee : Addr) (thread : Option ℕ)
  | blocked (joinee : Addr) (thread : Option ℕ)
  /-- Behind the `semTake`; `taken` is whether it succeeded. -/
  | woken (joinee : Addr) (thread : Option ℕ) (taken : Bool)
deriving DecidableEq, Repr

/-- The address that a call keeps, and the thread it was found for. -/
def JoinPc.joining : JoinPc → Option (Addr × Option ℕ)
  | .outside => none
  | .leaving joinee thread | .blocked joinee thread | .woken joinee thread _ => some (joinee, thread)

/-- The table, the `joiner` semaphores and the calls. `exits` are the values that the threads passed
to `pthread_exit`, `returned` the joins that returned 0, each with its thread and the value it
delivered, `staleReads` the blocks that were read by a join after its thread was released. -/
@[ext]
structure JoinState where
  table : PthreadState
  joiner : Addr → Bool
  calls : ℕ → JoinPc
  serial : Addr → Option ℕ
  created : ℕ
  exits : ℕ → Option (BitVec 64)
  returned : List (Option ℕ × BitVec 64)
  staleReads : List Addr

/-- Some slot held the block and does not any more. -/
def Cleared (before after : PthreadState) (addr : Addr) : Prop :=
  ∃ slot < threadsMax, before.threadTable slot = some addr ∧ after.threadTable slot ≠ some addr

instance (before after : PthreadState) (addr : Addr) : Decidable (Cleared before after addr) :=
  inferInstanceAs (Decidable (∃ slot < threadsMax, _))

namespace JoinState

variable (s : JoinState)

/-- Who waits on the semaphore of a released block is woken with an error. -/
def wake (after : PthreadState) : JoinPc → JoinPc
  | .blocked joinee thread =>
    if Cleared s.table after joinee then .woken joinee thread false else .blocked joinee thread
  | pc => pc

/-- A section of the table ended; the reaper may have released blocks in it. -/
def settle (after : PthreadState) : JoinState :=
  { s with
    table := after
    serial := fun addr => if Cleared s.table after addr then none else s.serial addr
    calls := fun call => s.wake after (s.calls call) }

/-- A call moves on. -/
def goto (call : ℕ) (pc : JoinPc) : JoinState :=
  { s with calls := Function.update s.calls call pc }

/-- A call reads the block it keeps the address of. -/
def reads (joinee : Addr) (thread : Option ℕ) : JoinState :=
  if s.serial joinee = thread then s else { s with staleReads := joinee :: s.staleReads }

/-- How a locked section of a call ended. -/
def note (call : ℕ) (thread : Option ℕ) : JoinOutcome → JoinState
  | .waits joinee => s.goto call (.leaving joinee thread)
  | .returns .ok (some retval) => { s.goto call .outside with returned := (thread, retval) :: s.returned }
  | .returns _ _ => s.goto call .outside

/-- `semTake (joinee->joiner, WAIT_FOREVER)` by a call that just gave the mutex back. In memory that
was given back there is no semaphore to take. -/
def takeJoiner (call : ℕ) (joinee : Addr) (thread : Option ℕ) : JoinState :=
  if s.serial joinee = none then s.goto call (.woken joinee thread false)
  else if s.joiner joinee then
    { s.goto call (.woken joinee thread true) with joiner := Function.update s.joiner joinee false }
  else s.goto call (.blocked joinee thread)

/-- `semGive` of a semaphore: it is full until somebody takes it. -/
def giveJoiner (addr : Addr) : JoinState :=
  { s with joiner := Function.update s.joiner addr true }

end JoinState

/-! ### Events -/

/-- One section under the mutex, or one step of a call between two of them. -/
inductive JoinEvent
  | create (status : TaskStatus) (joinable freestack : Bool) (nthread : Addr) (taskInits : Bool)
  | exit (thread : Addr) (retval : BitVec 64)
  | join (call : ℕ) (reaps : TaskStatus × TaskStatus) (self : Addr) (thread : PthreadT)
  | take (call : ℕ)
  | resume (call : ℕ) (status : TaskStatus) (cancelled : Bool)
  | detach (status : TaskStatus) (thread : PthreadT)
  | writeBlock (addr : Addr) (info : PthreadInfo)
  | writeBehind (slot : ℕ) (value : Option Addr)

/-- Run one event, with the guards of `pthreadExec`. A cancellation is only looked for after a
failed `semTake`. -/
def joinsExec (s : JoinState) : JoinEvent → Option JoinState
  | .create status joinable freestack nthread taskInits =>
    if s.table.Unlisted nthread ∧ (freestack = true → s.table.live nthread = false) then
      (pthreadCreate status joinable freestack nthread taskInits s.table).map fun (err, table) =>
        if err = .ok then
          { (s.settle table).giveJoiner nthread with
            serial := Function.update (s.settle table).serial nthread (some s.created)
            created := s.created + 1 }
        else s.settle table
    else none
  | .exit thread retval =>
    if s.table.phase thread = .active then
      some { s.giveJoiner thread with
        table := pthreadExit thread retval s.table
        exits := match s.serial thread with
          | none => s.exits
          | some number => Function.update s.exits number (some retval) }
    else none
  | .join call reaps self thread =>
    if s.calls call = .outside ∧ thread ∈ s.table.ids then
      (pthreadJoin reaps self thread s.table).map fun (outcome, table) =>
        (s.note call ((pthreadInfoId thread s.table).bind s.serial) outcome).settle table
    else none
  | .take call =>
    match s.calls call with
    | .leaving joinee thread => some ((s.reads joinee thread).takeJoiner call joinee thread)
    | .blocked joinee thread =>
      if s.joiner joinee then
        some { s.goto call (.woken joinee thread true) with
          joiner := Function.update s.joiner joinee false }
      else none
    | _ => none
  | .resume call status cancelled =>
    match s.calls call with
    | .woken joinee thread taken =>
      if cancelled = true → taken = false then
        (joinResume status joinee cancelled s.table).map fun (outcome, table) =>
          ((s.reads joinee thread).note call thread outcome).settle table
      else none
    | _ => none
  | .detach status thread =>
    if thread ∈ s.table.ids then
      (pthreadDetach status thread s.table).map fun (ret, table) =>
        match ret, pthreadInfoId thread s.table with
        | .ok, some detachee => (s.giveJoiner detachee).settle table
        | _, _ => s.settle table
    else none
  | .writeBlock addr info =>
    (pthreadExec s.table (.writeBlock addr info)).map fun table => { s with table := table }
  | .writeBehind slot value =>
    (pthreadExec s.table (.writeBehind slot value)).map fun table => { s with table := table }

/-- Nobody has joined anything yet. -/
def JoinState.initial (behind : ℕ → Option Addr) (blocks : Addr → PthreadInfo) : JoinState where
  table := PthreadState.initial behind blocks
  joiner _ := false
  calls _ := .outside
  serial _ := none
  created := 0
  exits _ := none
  returned := []
  staleReads := []

/-- Every order of the steps. -/
def joinSystem : System JoinState JoinEvent where
  init s := ∃ behind blocks, s = JoinState.initial behind blocks
  step s event after := joinsExec s event = some after

/-! ### The promise -/

/-- What joins are for: at most one join of a thread returns 0, that one delivers the value of its
`pthread_exit`, and no join reads the block of a released thread. -/
structure JoinsOk (s : JoinState) : Prop where
  once : ∀ thread : ℕ, (s.returned.map Prod.fst).count (some thread) ≤ 1
  value : ∀ (thread : ℕ) retval, (some thread, retval) ∈ s.returned → s.exits thread = some retval
  safe : s.staleReads = []

/-- The reaper will release the block: its thread has exited, or is the one just `joined`, and its
task is dead. -/
def Doomed (s : PthreadState) (status : TaskStatus) (joined : Option Addr) (addr : Addr) : Prop :=
  ∃ slot < threadsMax, s.threadTable slot = some addr ∧
    ((s.blocks addr).state = .exited ∨ joined = some addr) ∧ dead status slot

/-- No call other than `self` keeps the address of a block that the reaper will release. -/
def JoinState.Spared (s : JoinState) (self : Option ℕ) (status : TaskStatus) (joined : Option Addr) :
    Prop :=
  ∀ call, some call ≠ self → ∀ joinee thread, (s.calls call).joining = some (joinee, thread) →
    ¬ Doomed s.table status joined joinee

/-- The uses that keep joins safe: a pass of the reaper releases no block that another call of
`pthread_join` still points to, and `pthread_create` starts its thread in a slot of the table. -/
def SparingUse (s : JoinState) : JoinEvent → Prop
  | .create status _ _ _ taskInits => taskInits = true ∧
      (s.table.threadInfoNext < threadsMax ∨ s.table.threadTable s.table.threadInfoNext ≠ none) ∧
      s.Spared none status none
  | .join call reaps self thread => s.Spared (some call) reaps.1 none ∧
      ∀ joinee, pthreadInfoId thread s.table = some joinee → joinee ≠ self →
        (s.table.blocks joinee).state = .join → s.Spared (some call) reaps.2 (some joinee)
  | .resume call status cancelled => ∀ joinee thread, (s.calls call).joining = some (joinee, thread) →
      cancelled = false → (s.table.blocks joinee).state = .join →
      s.Spared (some call) status (some joinee)
  | .detach status _ => s.Spared none status none
  | _ => True

end Aple.Pthread
