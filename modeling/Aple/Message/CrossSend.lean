/-
**Two message threads that send to each other.**

Each of two threads runs `SendSyncMessage` to windows of the other one. Before it sends it drains
its own queue, and the window procedures it calls may post and send as well, so what a thread is
doing is a stack of activities.

* `Side` — the two threads; a queue goes by the name of the thread that owns it.
* `SendPc`, `PostPc` — where a call of `SendSyncMessage`, or of a function that posts, stands.
* `Activity` — such a call, or a `DispatchMessage` with the procedure it runs.
* `CrossState`, `CrossEvent`, `crossExec`, `crossSystem` — every interleaving. The queues are those
  of `queueSystem`, and what a thread runs under a lock is one of its events. The mutex of a queue
  is recursive.
* `Blocked`, `Deadlocked` — a thread waits for a lock or for the post of its semaphore; both do.

A call writes its frame when it enqueues it: nobody else sees the frame before. `TranslateMessage`
notifies the window of a key message, which is a post like any other. Procedures run no message
loop, and no signal interrupts a `sem_wait`.
-/

import Aple.Lib.Mutex
import Aple.Message.DispatchOnce
import Aple.Message.WakeUp

namespace Aple.Message

open Aple.Lib

/-! ### The threads -/

/-- The two threads. -/
inductive Side
  | a | b
deriving DecidableEq, Repr

/-- The other thread. -/
def Side.peer : Side → Side
  | a => b
  | b => a

/-- The arguments of a `SendSyncMessage` call, with the address of its frame. -/
structure SyncCall where
  addr : Addr
  win : Windows
  time : Dword
  pad : Ptr
  hWnd : Hwnd
  msg : MsgId
  wParam : WParam
  lParam : LParam

/-- Filling and linking the frame. -/
def SyncCall.event (call : SyncCall) : Event :=
  .sendSync call.addr call.win call.time call.pad call.hWnd call.msg call.wParam call.lParam

/-- Where a call of `SendSyncMessage` stands: the step it takes next. -/
inductive SendPc
  | lockOwn | drain | unlockOwn | lockPeer | enqueue | unlockPeer | getValue
  | post (semValue : ℕ)
  | semWait
deriving DecidableEq, Repr

/-- Behind the drain loop. -/
def SendPc.pastDrain : SendPc → Bool
  | lockOwn | drain => false
  | _ => true

/-- Behind the enqueue. -/
def SendPc.sent : SendPc → Bool
  | unlockPeer | getValue | post _ | semWait => true
  | _ => false

/-- Where a function that posts stands; `done` is whether the ring took the message. -/
inductive PostPc
  | lock | write
  | unlock (done : Bool)
  | getValue
  | post (semValue : ℕ)
deriving DecidableEq, Repr

/-- The functions that post. -/
def isPost : Event → Bool
  | .queueMessage .. | .post .. | .postQuit | .sendNotify .. | .notify .. | .sendPriorNotify .. => true
  | _ => false

/-- A call of one of them. -/
abbrev PostCall := { event : Event // isPost event = true }

/-- What a thread is in the middle of. -/
inductive Activity
  | send (call : SyncCall) (pc : SendPc)
  | post (queue : Side) (call : PostCall) (pc : PostPc)
  | dispatch (source : Source) (pMsg : Msg)

/-- A message some sender waits for. -/
def Source.isSync : Source → Bool
  | sync _ => true
  | _ => false

/-- The queues with their locks and semaphores, and the stacks, the innermost activity first. -/
structure CrossState where
  queue : Side → State
  mutex : Side → Mutex Side
  wait : Side → ℕ
  stack : Side → List Activity

namespace CrossState

variable (s : CrossState) (x : Side)

def setQueue (state : State) : CrossState :=
  { s with queue := Function.update s.queue x state }

def setMutex (m : Mutex Side) : CrossState :=
  { s with mutex := Function.update s.mutex x m }

def setWait (value : ℕ) : CrossState :=
  { s with wait := Function.update s.wait x value }

def setStack (stack : List Activity) : CrossState :=
  { s with stack := Function.update s.stack x stack }

/-- How often the semaphore in a frame of `x` was posted. -/
def semPosts (addr : Addr) : ℕ := ((s.queue x.peer).world.frames addr).semPosts

/-- `POST_MSGQ` after `sem_getvalue`. -/
def postMsgq (semValue : ℕ) : CrossState :=
  if semValue ≤ 0 then s.setWait x (s.wait x + 1) else s

end CrossState

/-! ### The steps -/

/-- One step of a thread, or the start or the return of something: `send` and `post` call a
function, `fetch` is the message loop taking a message out and dispatching it, `ret` is the
procedure returning, `turn` is the next step of what is running. -/
inductive CrossEvent
  | send (x : Side) (call : SyncCall)
  | post (x queue : Side) (call : PostCall)
  | fetch (x : Side) (env : PeekEnv) (hWnd : Hwnd)
  | ret (x : Side) (procs : Procs) (result : LResult)
  | turn (x : Side)

/-- Whether a thread runs code of the application: its message loop, or a procedure. -/
def runsCode : List Activity → Bool
  | [] => true
  | .dispatch .. :: _ => true
  | _ => false

/-- The addresses of the frames on a stack. -/
def callAddrs (stack : List Activity) : List Addr :=
  stack.filterMap fun
    | .send call _ => some call.addr
    | _ => none

/-- The message that was handed out goes on the stack. -/
def handOut (before after : State) (stack : List Activity) : List Activity :=
  match after.held[before.held.length]? with
  | some (source, pMsg) => .dispatch source pMsg :: stack
  | none => stack

/-- The next step of `SendSyncMessage`; `none` while it has to wait. -/
def sendTurn (s : CrossState) (x : Side) (call : SyncCall) (rest : List Activity) :
    SendPc → Option CrossState
  | .lockOwn => ((s.mutex x).acquire x).map fun m =>
    (s.setMutex x m).setStack x (.send call .drain :: rest)
  | .drain =>
    if (s.queue x).world.queue.has .syncMsg then
      (exec (s.queue x) .drain).map fun state =>
        (s.setQueue x state).setStack x (handOut (s.queue x) state (.send call .drain :: rest))
    else some (s.setStack x (.send call .unlockOwn :: rest))
  | .unlockOwn =>
    some ((s.setMutex x (s.mutex x).release).setStack x (.send call .lockPeer :: rest))
  | .lockPeer => ((s.mutex x.peer).acquire x).map fun m =>
    (s.setMutex x.peer m).setStack x (.send call .enqueue :: rest)
  | .enqueue => (exec (s.queue x.peer) call.event).map fun state =>
    (s.setQueue x.peer state).setStack x (.send call .unlockPeer :: rest)
  | .unlockPeer =>
    some ((s.setMutex x.peer (s.mutex x.peer).release).setStack x (.send call .getValue :: rest))
  | .getValue => some (s.setStack x (.send call (.post (s.wait x.peer)) :: rest))
  | .post semValue =>
    some ((s.postMsgq x.peer semValue).setStack x (.send call .semWait :: rest))
  | .semWait => if 0 < s.semPosts x call.addr then some (s.setStack x rest) else none

/-- The next step of a function that posts. A queue of the own thread needs no `POST_MSGQ`. -/
def postTurn (s : CrossState) (x queue : Side) (call : PostCall) (rest : List Activity) :
    PostPc → Option CrossState
  | .lock => ((s.mutex queue).acquire x).map fun m =>
    (s.setMutex queue m).setStack x (.post queue call .write :: rest)
  | .write =>
    match signals (s.queue queue).world call, exec (s.queue queue) call with
    | some done, some state =>
      some ((s.setQueue queue state).setStack x (.post queue call (.unlock done) :: rest))
    | _, _ => none
  | .unlock done =>
    some ((s.setMutex queue (s.mutex queue).release).setStack x
      (if done ∧ queue ≠ x then .post queue call .getValue :: rest else rest))
  | .getValue => some (s.setStack x (.post queue call (.post (s.wait queue)) :: rest))
  | .post semValue => some ((s.postMsgq queue semValue).setStack x rest)

/-- The end of a `DispatchMessage`. A synchronous message is for a window with a procedure. -/
def execRet (s : CrossState) (x : Side) (procs : Procs) (result : LResult) :
    List Activity → Option CrossState
  | .dispatch source pMsg :: rest =>
    if source.isSync → procs.hasWndProc pMsg.hwnd then
      (exec (s.queue x) (.dispatch ((s.queue x).held.length - 1) procs result)).map
        fun state => (s.setQueue x state).setStack x rest
    else none
  | _ => none

/-- The next step of the function that runs. -/
def execTurn (s : CrossState) (x : Side) : List Activity → Option CrossState
  | .send call pc :: rest => sendTurn s x call rest pc
  | .post queue call pc :: rest => postTurn s x queue call rest pc
  | _ => none

/-- Run one step; `none` when the thread is not there, or has to wait. -/
def crossExec (s : CrossState) : CrossEvent → Option CrossState
  | .send x call =>
    if runsCode (s.stack x) ∧ isWindow call.win call.hWnd ∧
        call.addr ∉ (s.queue x.peer).enqueued ∧ call.addr ∉ callAddrs (s.stack x) then
      some (s.setStack x (.send call .lockOwn :: s.stack x))
    else none
  | .post x queue call =>
    if runsCode (s.stack x) then some (s.setStack x (.post queue call .lock :: s.stack x)) else none
  | .fetch x env hWnd =>
    if (s.stack x).isEmpty ∧ ((s.mutex x).acquire x).isSome then
      (exec (s.queue x) (.peek env (anyMessage hWnd) { Msg.zero with time := env.tickCounter })).map
        fun state => (s.setQueue x state).setStack x (handOut (s.queue x) state [])
    else none
  | .ret x procs result => execRet s x procs result (s.stack x)
  | .turn x => execTurn s x (s.stack x)

/-- Two fresh queues, and both threads in their message loops. -/
def CrossState.initial (queue : Side → State) : CrossState :=
  ⟨queue, fun _ => .free, fun _ => 0, fun _ => []⟩

/-- Every interleaving, from every pair of fresh queues. -/
def crossSystem : System CrossState CrossEvent where
  init s := ∃ queue, (∀ x, queueSystem.init (queue x)) ∧ s = CrossState.initial queue
  step s event after := crossExec s event = some after

/-! ### Waiting -/

/-- The queue whose lock an activity takes next. -/
def Activity.wants (x : Side) : Activity → Option Side
  | .send _ .lockOwn => some x
  | .send _ .lockPeer => some x.peer
  | .post queue _ .lock => some queue
  | _ => none

/-- A thread that cannot go on by itself: its next lock is taken, or it stands in `sem_wait` on its
stack semaphore, which nobody posted. -/
inductive Blocked (s : CrossState) (x : Side) : Prop
  | lock (top : Activity) (rest : List Activity) (queue : Side) : s.stack x = top :: rest →
      top.wants x = some queue → (s.mutex queue).acquire x = none → Blocked s x
  | semWait (call : SyncCall) (rest : List Activity) : s.stack x = .send call .semWait :: rest →
      s.semPosts x call.addr = 0 → Blocked s x

/-- Each thread waits for what only the other one could do. -/
def Deadlocked (s : CrossState) : Prop := ∀ x, Blocked s x

namespace Blocked

variable {s : CrossState} {x : Side}

/-- A blocked thread is inside a function. -/
theorem runs_no_code (blocked : Blocked s x) : runsCode (s.stack x) = false := by
  cases blocked with
  | lock top rest queue stands wants =>
    rw [stands]
    cases top with
    | send | post => rfl
    | dispatch => cases wants
  | semWait call rest stands =>
    rw [stands]
    rfl

/-- It takes no step. -/
theorem no_turn (blocked : Blocked s x) : crossExec s (.turn x) = none := by
  cases blocked with
  | lock top rest queue stands wants waits =>
    simp only [crossExec, stands, execTurn]
    cases top with
    | send call pc =>
      cases pc with
      | lockOwn | lockPeer =>
        obtain rfl := Option.some.inj wants
        exact Option.map_eq_none_iff.mpr waits
      | _ => cases wants
    | post queue call pc =>
      cases pc with
      | lock =>
        obtain rfl := Option.some.inj wants
        exact Option.map_eq_none_iff.mpr waits
      | _ => cases wants
    | dispatch => cases wants
  | semWait call rest stands unposted =>
    simp only [crossExec, stands, execTurn, sendTurn]
    exact if_neg (Nat.not_lt.mpr (Nat.le_of_eq unposted))

end Blocked

/-- **Nothing happens any more** once both threads are blocked. -/
theorem deadlocked_stuck {s : CrossState} (deadlocked : Deadlocked s) (event : CrossEvent) :
    crossExec s event = none := by
  have noCode : ∀ x, runsCode (s.stack x) ≠ true := fun x =>
    Bool.eq_false_iff.mp (deadlocked x).runs_no_code
  cases event with
  | send x call => exact if_neg fun runs => noCode x runs.1
  | post x queue call => exact if_neg (noCode x)
  | fetch x env hWnd =>
    refine if_neg fun runs => noCode x ?_
    rw [List.isEmpty_iff.mp runs.1]
    rfl
  | ret x procs result =>
    show execRet s x procs result (s.stack x) = none
    have notDispatch := noCode x
    cases stands : s.stack x with
    | nil => rfl
    | cons top rest =>
      rw [stands] at notDispatch
      cases top with
      | send | post => rfl
      | dispatch => exact absurd rfl notDispatch
  | turn x => exact (deadlocked x).no_turn

end Aple.Message
