/-
**The thread table of the VxWorks pthread layer.**

* `PthreadInfo`, `PthreadState` — a control block, and the table with its counters.
* `pthreadReap`, `pthreadInfoId` — the reaper and the lookup of a `pthread_t`.
* `pthreadCreate`, `pthreadExit`, `pthreadJoin`, `joinResume`, `pthreadDetach` — the sections that
  run under `__vxpthread_mutex`. A join of a running thread gives the mutex back and goes on later,
  so it is two of them.
* `PthreadEvent`, `pthreadExec`, `pthreadSystem` — every order of these sections.

A control block lives in the stack of its thread, so freeing the stack frees the block. Its words
are whatever the memory holds, also after that; other code may write to memory that is not the
layer's. Fields of the block that none of these functions reads (attributes, start routine,
cancellation, name, per-thread data) are left out.
-/

import Mathlib.Data.BitVec
import Mathlib.Logic.Function.Basic
import Aple.Lib.Loop
import Aple.Lib.Reach

namespace Aple.Pthread

open Aple.Lib

/-! ### Data -/

/-- Addresses of control blocks; the null pointer is `none`. -/
abbrev Addr := ℕ
abbrev PthreadT := BitVec 32

/-- `VXPTHNUM_POSIX_PTHREAD_THREADS_MAX`. -/
def threadsMax : ℕ := 64

def threadIdCookieInc : PthreadT := 0x00000400
def threadIdCookieMask : PthreadT := threadIdCookieInc - 1

/-- The values of the `state` field. -/
inductive ThreadState
  | free | detached | running | join | exited
deriving DecidableEq, Repr

/-- A control block. -/
structure PthreadInfo where
  state : ThreadState
  id : PthreadT
  retval : BitVec 64
  freestack : Bool
deriving DecidableEq, Repr

/-- What became of the thread of a block: it was set going, it went through `pthread_exit`. -/
inductive Phase
  | none | active | finished
deriving DecidableEq, Repr

/-- The table, the counters and the memory of the blocks. `threadTable` goes on behind the last slot
with whatever lies there. `live` are the blocks whose stack is in use, `joiners` the blocks that a
waiting `pthread_join` still points to, `ids` the identifiers `pthread_create` returned. -/
structure PthreadState where
  threadTable : ℕ → Option Addr
  pthreadCount : ℤ
  pthreadsExited : ℤ
  pthreadsTobejoined : ℤ
  threadInfoNext : ℕ
  threadIdCookie : PthreadT
  blocks : Addr → PthreadInfo
  live : Addr → Bool
  phase : Addr → Phase
  joiners : List Addr
  ids : List PthreadT

/-- The error numbers. -/
inductive Errno
  | ok | eagain | enomem | einval | esrch | edeadlk
deriving DecidableEq, Repr

namespace PthreadState

variable (s : PthreadState)

/-- An address that no slot of the table holds. -/
def Unlisted (addr : Addr) : Prop := ∀ slot < threadsMax, s.threadTable slot ≠ some addr

instance (addr : Addr) : Decidable (s.Unlisted addr) :=
  inferInstanceAs (Decidable (∀ slot < threadsMax, s.threadTable slot ≠ some addr))

instance (thread : PthreadT) : Decidable (thread ∈ s.ids) :=
  List.instDecidableMemOfLawfulBEq thread s.ids

/-- Overwrite a block. -/
def setBlock (addr : Addr) (info : PthreadInfo) : PthreadState :=
  { s with blocks := Function.update s.blocks addr info }

/-- `free (stackmem)`. -/
def freeStack (addr : Addr) : PthreadState :=
  { s with live := Function.update s.live addr false }

end PthreadState

/-! ### The reaper -/

/-- What `taskStatusString` says of the task of a slot: it fails, or whether the string is
`DEAD`. -/
abbrev TaskStatus := ℕ → Option Bool

/-- The body of the loop. The inner loop never reads the status again, so a task that is not dead
keeps the reaper, and with it the mutex, for ever. -/
def reapSlot (status : TaskStatus) (slot : ℕ) (s : PthreadState) : Option PthreadState :=
  match s.threadTable slot with
  | none => some s
  | some thread =>
    if (s.blocks thread).state = .exited then
      match status slot with
      | none => some s
      | some false => none
      | some true =>
        let s := if (s.blocks thread).freestack then s.freeStack thread else s
        some { s with
          threadTable := Function.update s.threadTable slot none
          pthreadCount := s.pthreadCount - 1
          pthreadsExited := s.pthreadsExited - 1 }
    else some s

/-- **What reaping a slot does**: nothing, or it gives up the slot of a dead thread and may free its
block. -/
theorem reapSlot_cases {status : TaskStatus} {slot : ℕ} {s after : PthreadState}
    (returns : reapSlot status slot s = some after) :
    after = s ∨ ∃ thread live, s.threadTable slot = some thread ∧
      (s.blocks thread).state = .exited ∧ status slot = some true ∧
      (∀ other, other ≠ thread → live other = s.live other) ∧
      after = { s with
        threadTable := Function.update s.threadTable slot none
        pthreadCount := s.pthreadCount - 1
        pthreadsExited := s.pthreadsExited - 1
        live := live } := by
  unfold reapSlot at returns
  split at returns
  · exact .inl (Option.some.inj returns).symm
  rename_i thread holds
  split at returns
  case isFalse => exact .inl (Option.some.inj returns).symm
  rename_i exited
  split at returns
  · exact .inl (Option.some.inj returns).symm
  · cases returns
  · rename_i died
    by_cases frees : (s.blocks thread).freestack = true
    · simp only [if_pos frees, Option.some.injEq] at returns
      refine .inr ⟨thread, _, holds, exited, died, fun other differs => ?_, returns.symm⟩
      exact Function.update_of_ne differs _ _
    · simp only [if_neg frees, Option.some.injEq] at returns
      exact .inr ⟨thread, _, holds, exited, died, fun _ _ => rfl, returns.symm⟩

/-- The loop over the slots, which ends early when no exited thread is left. -/
def reapSlots (status : TaskStatus) : List ℕ → PthreadState → Option PthreadState
  | [], s => some s
  | slot :: rest, s =>
    if s.pthreadsExited > 0 then (reapSlot status slot s).bind (reapSlots status rest) else some s

/-- `pthread_reap`. -/
def pthreadReap (status : TaskStatus) (s : PthreadState) : Option PthreadState :=
  reapSlots status (List.range threadsMax) s

/-! ### Lookup -/

/-- `pthread_info_id`. -/
def pthreadInfoId (id : PthreadT) (s : PthreadState) : Option Addr :=
  let index := (id &&& threadIdCookieMask).toNat
  match s.threadTable index with
  | none => none
  | some info =>
    if (s.blocks info).state = .free ∨ (s.blocks info).state = .exited then none
    else if (s.blocks info).id ≠ id then none
    else some info

/-! ### pthread_create -/

/-- The slot behind another one, with the wrap. -/
def slotAfter (threadNext : ℕ) : ℕ := if threadNext + 1 ≥ threadsMax then 0 else threadNext + 1

/-- One turn of the search for a free slot. -/
def slotTurn (s : PthreadState) (threadNext : ℕ) : Option (ℕ ⊕ Option ℕ) :=
  if s.threadTable threadNext = none then some (.inr (some threadNext))
  else if slotAfter threadNext = s.threadInfoNext then some (.inr none)
  else some (.inl (slotAfter threadNext))

/-- The search; it cannot take more turns than there are slots, unless it never ends. -/
def findSlot (s : PthreadState) : Option (Option ℕ) :=
  loop (slotTurn s) (threadsMax + 2) s.threadInfoNext

/-- `pthread_create` from `semTake` on. `nthread` is where the block of the new thread comes to lie,
in a stack from `malloc` (`freestack`) or from the caller; `taskInits` is whether `taskInit`
succeeds. -/
def pthreadCreate (status : TaskStatus) (joinable freestack : Bool) (nthread : Addr)
    (taskInits : Bool) (s : PthreadState) : Option (Errno × PthreadState) :=
  match pthreadReap status s with
  | none => none
  | some s =>
    match findSlot s with
    | none => none
    | some none => some (.enomem, if freestack then s.freeStack nthread else s)
    | some (some threadNext) =>
      let cookie := s.threadIdCookie + threadIdCookieInc
      let id := BitVec.ofNat 32 threadNext + cookie
      let s := { s with
        threadTable := Function.update s.threadTable threadNext (some nthread)
        threadInfoNext := threadNext + 1
        threadIdCookie := cookie
        blocks := Function.update s.blocks nthread
          ⟨if joinable then .running else .detached, id, 0, freestack⟩
        live := Function.update s.live nthread true }
      if taskInits then
        some (.ok, { s with
          pthreadCount := s.pthreadCount + 1
          phase := Function.update s.phase nthread .active
          ids := id :: s.ids })
      else
        -- the slot keeps the block
        some (.einval, if freestack then s.freeStack nthread else s)

/-! ### pthread_exit -/

/-- `vxpth_pthread_exit` from `semTake` on; the clean-up handlers and the key destructors ran
before. -/
def pthreadExit (thread : Addr) (retval : BitVec 64) (s : PthreadState) : PthreadState :=
  let s := { s with phase := Function.update s.phase thread .finished }
  if (s.blocks thread).state = .detached then
    { s.setBlock thread { s.blocks thread with retval := retval, state := .exited } with
      pthreadsExited := s.pthreadsExited + 1 }
  else
    { s.setBlock thread { s.blocks thread with retval := retval, state := .join } with
      pthreadsTobejoined := s.pthreadsTobejoined + 1 }

/-! ### pthread_join -/

/-- The end of a join that found its thread in state `JOIN`: the value for `*thread_return`. -/
def finishJoin (status : TaskStatus) (joinee : Addr) (s : PthreadState) :
    Option (BitVec 64 × PthreadState) :=
  let retval := (s.blocks joinee).retval
  let s := { s.setBlock joinee { s.blocks joinee with state := .exited } with
    pthreadsExited := s.pthreadsExited + 1
    pthreadsTobejoined := s.pthreadsTobejoined - 1 }
  (pthreadReap status s).map fun s => (retval, s)

/-- How a locked section of `pthread_join` ends: it waits for the joinee, or returns. -/
inductive JoinOutcome
  | waits (joinee : Addr)
  | returns (err : Errno) (threadReturn : Option (BitVec 64))
deriving DecidableEq, Repr

/-- The first section of `pthread_join`; `reaps` is the task status seen by its first and its second
call of the reaper. -/
def pthreadJoin (reaps : TaskStatus × TaskStatus) (self : Addr) (thread : PthreadT)
    (s : PthreadState) : Option (JoinOutcome × PthreadState) :=
  match pthreadReap reaps.1 s with
  | none => none
  | some s =>
    match pthreadInfoId thread s with
    | none => some (.returns .esrch none, s)
    | some joinee =>
      if joinee = self then some (.returns .edeadlk none, s)
      else
        match (s.blocks joinee).state with
        | .running => some (.waits joinee, { s with joiners := joinee :: s.joiners })
        | .join => (finishJoin reaps.2 joinee s).map fun (retval, s) => (.returns .ok (some retval), s)
        | _ => some (.returns .einval none, s)

/-- The section after a waiting join took the mutex again. `cancelled` is the branch of a failed
`semTake` with a cancellation pending. -/
def joinResume (status : TaskStatus) (joinee : Addr) (cancelled : Bool) (s : PthreadState) :
    Option (JoinOutcome × PthreadState) :=
  if cancelled then
    some (.returns (if (s.blocks joinee).state = .join then .eagain else .einval) none,
      { s with joiners := s.joiners.erase joinee })
  else
    match (s.blocks joinee).state with
    | .running => some (.waits joinee, s)
    | .join =>
      (finishJoin status joinee { s with joiners := s.joiners.erase joinee }).map
        fun (retval, s) => (.returns .ok (some retval), s)
    | _ => some (.returns .einval none, { s with joiners := s.joiners.erase joinee })

/-! ### pthread_detach -/

/-- `pthread_detach`. Whatever the state of the thread is, it becomes `DETACHED`. -/
def pthreadDetach (status : TaskStatus) (thread : PthreadT) (s : PthreadState) :
    Option (Errno × PthreadState) :=
  let (ret, s) := match pthreadInfoId thread s with
    | none => (.esrch, s)
    | some detachee =>
      if (s.blocks detachee).state = .detached then (Errno.einval, s)
      else (.ok, s.setBlock detachee { s.blocks detachee with state := .detached })
  (pthreadReap status s).map fun s => (ret, s)

/-! ### Events -/

/-- One section under the mutex, or a write of other code to memory that the layer does not own. -/
inductive PthreadEvent
  | create (status : TaskStatus) (joinable freestack : Bool) (nthread : Addr) (taskInits : Bool)
  | exit (thread : Addr) (retval : BitVec 64)
  | join (reaps : TaskStatus × TaskStatus) (self : Addr) (thread : PthreadT)
  | joinResume (status : TaskStatus) (joinee : Addr) (cancelled : Bool)
  | detach (status : TaskStatus) (thread : PthreadT)
  | writeBlock (addr : Addr) (info : PthreadInfo)
  | writeBehind (slot : ℕ) (value : Option Addr)

/-- Run one section. The stack of a new thread is free memory or one that the caller does not use
for another thread; only a running thread exits; `pthread_t` values come from `pthread_create`. -/
def pthreadExec (s : PthreadState) : PthreadEvent → Option PthreadState
  | .create status joinable freestack nthread taskInits =>
    if s.Unlisted nthread ∧ (freestack = true → s.live nthread = false) then
      (pthreadCreate status joinable freestack nthread taskInits s).map Prod.snd
    else none
  | .exit thread retval =>
    if s.phase thread = .active then some (pthreadExit thread retval s) else none
  | .join reaps self thread =>
    if thread ∈ s.ids then (pthreadJoin reaps self thread s).map Prod.snd else none
  | .joinResume status joinee cancelled =>
    if joinee ∈ s.joiners then (joinResume status joinee cancelled s).map Prod.snd else none
  | .detach status thread =>
    if thread ∈ s.ids then (pthreadDetach status thread s).map Prod.snd else none
  | .writeBlock addr info =>
    if s.live addr = false ∨ s.Unlisted addr then some (s.setBlock addr info) else none
  | .writeBehind slot value =>
    if threadsMax ≤ slot then
      some { s with threadTable := Function.update s.threadTable slot value }
    else none

/-- The static data before the first call; memory holds anything. -/
def PthreadState.initial (behind : ℕ → Option Addr) (blocks : Addr → PthreadInfo) : PthreadState where
  threadTable slot := if slot < threadsMax then none else behind slot
  pthreadCount := 0
  pthreadsExited := 0
  pthreadsTobejoined := 0
  threadInfoNext := 0
  threadIdCookie := threadIdCookieInc
  blocks := blocks
  live _ := false
  phase _ := .none
  joiners := []
  ids := []

/-- Every order of sections. -/
def pthreadSystem : System PthreadState PthreadEvent where
  init s := ∃ behind blocks, s = PthreadState.initial behind blocks
  step s event after := pthreadExec s event = some after

end Aple.Pthread
