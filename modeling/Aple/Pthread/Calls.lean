/-
**The calls of the pthread layer, as programs on its mutex.**

* `LayerState` — the thread table with the data slots, the cancellation and scheduling fields of the
  control blocks, the control variables of `pthread_once`.
* The twelve functions, each with every `semTake` and `semGive` of `__vxpthread_mutex` where the
  source has it. What a function does to the table between two of these is the section of the thread
  table.
* `LayerCall` — a call with its arguments and with what the system answers in it.

A routine of the user (a clean-up handler, a key destructor, an `init_routine`) does not call the
layer while it runs here; a call that it makes without the mutex is a call of its own.
-/

import Aple.Lib.LockProg
import Aple.Pthread.ThreadData

namespace Aple.Pthread

open Aple.Lib

/-! ### The state -/

/-- `PTHREAD_CANCEL_ENABLE`, `PTHREAD_CANCEL_DISABLE`, or another value. -/
inductive CancelState
  | enable | disable | unknown
deriving DecidableEq, Repr

/-- `PTHREAD_CANCEL_ASYNCHRONOUS`, `PTHREAD_CANCEL_DEFERRED`, or another value. -/
inductive CancelType
  | asynchronous | deferred | unknown
deriving DecidableEq, Repr

/-- The cancellation fields of a control block. -/
structure CancelInfo where
  cancelstate : CancelState
  canceltype : CancelType
  cancelpending : Bool
deriving DecidableEq, Repr

/-- `SCHED_OTHER`, `SCHED_FIFO`, `SCHED_RR`, or another value. -/
inductive SchedPolicy
  | other | fifo | rr | unknown
deriving DecidableEq, Repr

structure SchedParam where
  priority : ℤ
  preemptThreshold : ℤ
  timeSlice : ℤ
deriving DecidableEq, Repr

/-- The state that the calls share. -/
structure LayerState (cfg : TsdConfig) where
  tsd : TsdState cfg
  cancel : Addr → CancelInfo
  sched : Addr → SchedPolicy × SchedParam
  once : ℕ → BitVec 32

/-- A routine of the user. -/
abbrev Routine := ℕ

variable {cfg : TsdConfig}

abbrev LayerProg (cfg : TsdConfig) := LockProg (LayerState cfg) Routine

namespace LayerState

variable (s : LayerState cfg)

def table : PthreadState := s.tsd.table

def setTable (table : PthreadState) : LayerState cfg :=
  { s with tsd := { s.tsd with table := table } }

def setCancel (thread : Addr) (info : CancelInfo) : LayerState cfg :=
  { s with cancel := Function.update s.cancel thread info }

/-- `checkforcancel`. -/
def checkforcancel (self : Addr) : Bool :=
  (s.cancel self).cancelpending && (s.cancel self).cancelstate == .enable

end LayerState

/-! ### pthread_exit and pthread_testcancel -/

/-- Routines of the user, one after the other. -/
def callAll {Result : Type} (routines : List Routine) (next : LayerProg cfg Result) :
    LayerProg cfg Result :=
  routines.foldr .callback next

/-- `vxpth_pthread_exit`; `callbacks` are the clean-up handlers and key destructors it calls. -/
def vxpthPthreadExit {Result : Type} (callbacks : List Routine) (thread : Addr)
    (retval : BitVec 64) : LayerProg cfg Result :=
  callAll callbacks <|
  .take <| .get fun s =>
  .set (s.setTable (pthreadExit thread retval s.table)) <|
  .give .gone

/-- `PTHREAD_CANCELED`. -/
def pthreadCanceled : BitVec 64 := BitVec.allOnes 64

/-- `pthread_testcancel`. -/
def pthreadTestcancel (callbacks : List Routine) (self : Addr) : LayerProg cfg Unit :=
  .get fun s =>
  if s.checkforcancel self then vxpthPthreadExit callbacks self pthreadCanceled else .ret ()

/-! ### pthread_create -/

/-- `__vxpth_get_name`, which makes a name. -/
def vxpthGetName (lock : Bool) : LayerProg cfg Unit :=
  if lock then .take <| .give <| .ret () else .ret ()

/-- The arguments of `pthread_create` that are pointers (whether they are not null), the attributes,
and what the system answers: whether there is a stack, where the block lies and what the memory of
its slots holds, whether `taskInit` succeeds. -/
structure CreateArgs (cfg : TsdConfig) where
  thread : Bool
  startRoutine : Bool
  stackmem : Bool
  status : TaskStatus
  joinable : Bool
  freestack : Bool
  nthread : Addr
  taskInits : Bool
  memory : ℕ → Pointer cfg
  sched : SchedPolicy × SchedParam

/-- The fields of the new block that the table does not have. -/
def LayerState.initBlock (s : LayerState cfg) (args : CreateArgs cfg) : LayerState cfg :=
  { s.setCancel args.nthread ⟨.enable, .deferred, false⟩ with
    sched := Function.update s.sched args.nthread args.sched }

/-- `pthread_create`. -/
def pthreadCreateCall (args : CreateArgs cfg) : LayerProg cfg Errno :=
  if !args.thread then .ret .einval
  else if !args.startRoutine then .ret .einval
  else if !args.stackmem then .ret .eagain
  else
    .take <| .get fun s =>
    match pthreadCreateData args.status args.joinable args.freestack args.nthread args.taskInits
        args.memory s.tsd with
    | none => .spins
    | some (.enomem, tsd) => .set { s with tsd := tsd } <| .give <| .ret .enomem
    | some (err, tsd) =>
      (vxpthGetName false).bind fun _ =>
      .set ({ s with tsd := tsd }.initBlock args) <|
      if err = .ok then .give <| .ret .ok else .give <| .ret .einval

/-! ### pthread_join and pthread_detach -/

/-- The loop of `pthread_join`, after the mutex was given back: how each `semTake` of the joiner
semaphore ends, and the task status seen by the reaper then. -/
def joinWait (self joinee : Addr) : List (Bool × TaskStatus) → LayerProg cfg Errno
  | [] => .spins
  | (ok, status) :: rest =>
    .take <| .get fun s =>
    match joinResume status joinee (!ok && s.checkforcancel self) s.table with
    | none => .spins
    | some (.waits _, table) => .set (s.setTable table) <| .give <| joinWait self joinee rest
    | some (.returns err _, table) => .set (s.setTable table) <| .give <| .ret err

/-- `pthread_join`. -/
def pthreadJoinCall (callbacks : List Routine) (reaps : TaskStatus × TaskStatus)
    (waits : List (Bool × TaskStatus)) (self : Addr) (thread : PthreadT) : LayerProg cfg Errno :=
  (pthreadTestcancel callbacks self).bind fun _ =>
  LockProg.bind (fun err => (pthreadTestcancel callbacks self).bind fun _ => .ret err) <|
  .take <| .get fun s =>
  match pthreadJoin reaps self thread s.table with
  | none => .spins
  | some (.waits joinee, table) => .set (s.setTable table) <| .give <| joinWait self joinee waits
  | some (.returns err _, table) => .set (s.setTable table) <| .give <| .ret err

/-- `pthread_detach`. -/
def pthreadDetachCall (status : TaskStatus) (thread : PthreadT) : LayerProg cfg Errno :=
  .take <| .get fun s =>
  match pthreadDetach status thread s.table with
  | none => .spins
  | some (ret, table) => .set (s.setTable table) <| .give <| .ret ret

/-! ### Scheduling -/

/-- `pthread_setschedparam`. -/
def pthreadSetschedparam (threadId : PthreadT) (policy : SchedPolicy) (param : Option SchedParam) :
    LayerProg cfg Errno :=
  if policy ≠ .other ∧ policy ≠ .fifo ∧ policy ≠ .rr then .ret .einval
  else match param with
    | none => .ret .einval
    | some param =>
      .take <| .get fun s =>
      match pthreadInfoId threadId s.table with
      | none => .give <| .ret .esrch
      | some thread =>
        .set { s with sched := Function.update s.sched thread (policy, param) } <|
        .give <| .ret .ok

/-- `pthread_getschedparam`; what it stores through its pointers is left out. -/
def pthreadGetschedparam (threadId : PthreadT) : LayerProg cfg Errno :=
  .take <| .get fun s =>
  match pthreadInfoId threadId s.table with
  | none => .give <| .ret .esrch
  | some _ => .give <| .ret .ok

/-! ### pthread_once and the keys -/

/-- `pthread_once`. -/
def pthreadOnce (onceControl : Option ℕ) (initRoutine : Option Routine) : LayerProg cfg Errno :=
  match onceControl, initRoutine with
  | none, _ => .ret .einval
  | _, none => .ret .einval
  | some control, some routine =>
    .take <| .get fun s =>
    .set { s with once := Function.update s.once control 1 } <|
    .give <|
    if s.once control = 0 then .callback routine <| .ret .ok else .ret .ok

/-- `pthread_key_create`. -/
def pthreadKeyCreateCall (destructor : Pointer cfg) : LayerProg cfg Errno :=
  .take <| .get fun s =>
  .set { s with tsd := (pthreadKeyCreate destructor s.tsd).2 } <|
  .give <|
  match (pthreadKeyCreate destructor s.tsd).1 with
  | none => .ret .eagain
  | some _ => .ret .ok

/-- `pthread_key_delete`. -/
def pthreadKeyDeleteCall (key : ℕ) : LayerProg cfg Errno :=
  .take <| .get fun s =>
  .set { s with tsd := pthreadKeyDelete key s.tsd } <|
  .give <| .ret .ok

/-! ### Cancellation -/

/-- `pthread_setcancelstate`. -/
def pthreadSetcancelstate (self : Addr) (state : CancelState) : LayerProg cfg Errno :=
  if state ≠ .enable ∧ state ≠ .disable then .ret .einval
  else
    .take <| .get fun s =>
    .set (s.setCancel self { s.cancel self with cancelstate := state }) <|
    .give <| .ret .ok

/-- `pthread_setcanceltype`. -/
def pthreadSetcanceltype (self : Addr) (type : CancelType) : LayerProg cfg Errno :=
  if type ≠ .asynchronous ∧ type ≠ .deferred then .ret .einval
  else
    .take <| .get fun s =>
    .set (s.setCancel self { s.cancel self with canceltype := type }) <|
    .give <| .ret .ok

/-- `pthread_cancel`. -/
def pthreadCancel (callbacks : List Routine) (thread : PthreadT) : LayerProg cfg Errno :=
  .take <| .get fun s =>
  match pthreadInfoId thread s.table with
  | none => .give <| .ret .esrch
  | some th =>
    .set (s.setCancel th { s.cancel th with cancelpending := true }) <|
    if (s.cancel th).cancelstate = .enable ∧ (s.cancel th).canceltype = .asynchronous then
      (vxpthPthreadExit callbacks th pthreadCanceled).bind fun (_ : Unit) =>
        .give <| .ret .ok
    else .give <| .ret .ok

/-! ### Calls -/

/-- A call, with the routines of the user that it runs and the answers of the system. -/
inductive LayerCall (cfg : TsdConfig)
  | create (args : CreateArgs cfg)
  | join (callbacks : List Routine) (reaps : TaskStatus × TaskStatus)
      (waits : List (Bool × TaskStatus)) (self : Addr) (thread : PthreadT)
  | detach (status : TaskStatus) (thread : PthreadT)
  | cancel (callbacks : List Routine) (thread : PthreadT)
  | exit (callbacks : List Routine) (self : Addr) (retval : BitVec 64)
  | setschedparam (threadId : PthreadT) (policy : SchedPolicy) (param : Option SchedParam)
  | getschedparam (threadId : PthreadT)
  | once (onceControl : Option ℕ) (initRoutine : Option Routine)
  | keyCreate (destructor : Pointer cfg)
  | keyDelete (key : ℕ)
  | setcancelstate (self : Addr) (state : CancelState)
  | setcanceltype (self : Addr) (type : CancelType)

/-- The program of a call. -/
def LayerCall.prog : LayerCall cfg → LayerProg cfg Errno
  | .create args => pthreadCreateCall args
  | .join callbacks reaps waits self thread => pthreadJoinCall callbacks reaps waits self thread
  | .detach status thread => pthreadDetachCall status thread
  | .cancel callbacks thread => pthreadCancel callbacks thread
  | .exit callbacks self retval => vxpthPthreadExit callbacks self retval
  | .setschedparam threadId policy param => pthreadSetschedparam threadId policy param
  | .getschedparam threadId => pthreadGetschedparam threadId
  | .once onceControl initRoutine => pthreadOnce onceControl initRoutine
  | .keyCreate destructor => pthreadKeyCreateCall destructor
  | .keyDelete key => pthreadKeyDeleteCall key
  | .setcancelstate self state => pthreadSetcancelstate self state
  | .setcanceltype self type => pthreadSetcanceltype self type

/-- Run a call alone; `none` when it does not come to an end. -/
def layerExec (s : LayerState cfg) (call : LayerCall cfg) : Option (LayerState cfg) :=
  match call.prog.alone s with
  | (after, .returned _) => some after
  | (after, .gone) => some after
  | _ => none

/-- Calls one after the other. -/
def layerSystem (cfg : TsdConfig) : System (LayerState cfg) (LayerCall cfg) where
  init s := (tsdSystem cfg).init s.tsd
  step s call after := layerExec s call = some after

end Aple.Pthread
